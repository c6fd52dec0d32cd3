import Records.Demo

/-!
# Command line

One option names the demonstration to show, `all` unless it is given; it can be given once. Flags
for more output may be repeated and do not change what is shown. Anything else is a usage error.
-/

namespace Records

/-- What running the program comes to. -/
structure Outcome where
  code : UInt32
  stdout : String

namespace CommandLine

/-- The demonstration a word names. -/
def demoOfName? : String → Option Demo
  | "points" => some .points
  | "prefab" => some .prefab
  | "properties" => some .properties
  | "shapes" => some .shapes
  | "all" => some .all
  | _ => none

/-- Whether an argument asks for more output. -/
def isVerbose (arg : String) : Bool :=
  arg = "--verbose" ||
    match arg.toList with
    | '-' :: flags => !flags.isEmpty && flags.all (· = 'v')
    | _ => false

/-- The word behind the equals sign of the option. -/
def attachedName? (arg : String) : Option String :=
  match arg.splitOn "=" with
  | "--demo" :: rest@(_ :: _) => some ("=".intercalate rest)
  | _ => none

/-- Read arguments; `chosen` is the demonstration named so far. -/
def readArguments (chosen : Option Demo) : List String → Option (Option Demo)
  | [] => some chosen
  | ["--"] => some chosen
  | "--demo" :: name :: rest =>
    match chosen, demoOfName? name with
    | none, some demo => readArguments (some demo) rest
    | _, _ => none
  | arg :: rest =>
    if isVerbose arg then readArguments chosen rest
    else
      match chosen, (attachedName? arg).bind demoOfName? with
      | none, some demo => readArguments (some demo) rest
      | _, _ => none

/-- The demonstration that arguments ask for. -/
def parse (args : List String) : Option Demo := (readArguments none args).map (·.getD .all)

/-- Run the program on its arguments. -/
def run (args : List String) : Outcome :=
  match parse args with
  | none => ⟨2, ""⟩
  | some demo =>
    match demo.output with
    | .ok lines => ⟨0, String.join (lines.map (· ++ "\n"))⟩
    | .error _ => ⟨1, ""⟩

end CommandLine

end Records
