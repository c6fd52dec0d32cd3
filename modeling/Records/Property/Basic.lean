import Records.Value.Basic

/-!
# Properties

A property is a named capability that record types may carry. It may imply other properties,
each with the procedure that derives the implied value from this property's value, and it may
have a guard that checks or replaces a value before it is attached.
-/

namespace Records

/-- A property. Properties are told apart by identity, not by name. -/
structure Property where
  name : Symbol
  /-- Sees the value and a description of the type, and gives back the value to attach. -/
  guard : Option Value
  /-- The implied properties, each with its derivation. -/
  supers : List (PropertyId × Value)
  /-- Whether wrappers may stand in for this property. -/
  impersonable : Bool
deriving Inhabited

namespace Property

/-- The property of procedures: a field index or a procedure to apply. -/
def procedure : PropertyId := ⟨0⟩

/-- The property of procedures that check their arguments. -/
def checkedProcedure : PropertyId := ⟨1⟩

/-- The property that words the arity an applicable record expects. -/
def arityString : PropertyId := ⟨2⟩

/-- The names of the properties that exist from the start, in order of identity. -/
def builtinNames : List String :=
  ["prop:procedure", "prop:checked-procedure", "prop:arity-string", "prop:custom-write",
    "prop:equal+hash", "prop:chaperone-unsafe-undefined"]

/-- A property without guard and without implied properties. -/
def plain (name : String) : Property := ⟨⟨name⟩, none, [], false⟩

end Property

end Records
