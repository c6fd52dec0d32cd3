/-!
# Symbols

A symbol is its name: two symbols are equal exactly when their names are.
-/

namespace Records

/-- A name used as a value. -/
structure Symbol where
  name : String
deriving DecidableEq, Inhabited

/-- The symbol as it is written in a program, behind a quotation mark. -/
def Symbol.quoted (s : Symbol) : String := "'" ++ s.name

end Records
