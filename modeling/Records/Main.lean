import Records.CommandLine

/-!
# The program

Prints the demonstration that the arguments ask for.
-/

/-- The entry point. -/
def main (args : List String) : IO UInt32 := do
  let outcome := Records.CommandLine.run args
  IO.print outcome.stdout
  return outcome.code
