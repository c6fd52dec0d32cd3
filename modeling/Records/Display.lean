import Records.RecordType.Ancestry

/-!
# Printed forms

Plain data is printed as it is written. A procedure, a type and a property show their name. A
record shows its fields unless its type is sealed, and a prefab record shows the short form of
its key in front of them.

A record may hold other records. The printer follows such references at most as often as there
are records, which no chain of distinct records exceeds.
-/

namespace Records

/-- What a field is called in the name of its accessor and mutator. -/
def fieldLabel (field : Nat) : Option Symbol → String
  | some label => label.name
  | none => s!"field{field}"

namespace Store

/-- The name of a record type. -/
def typeName (s : Store) (t : TypeId) : String := (s.type t).name.name

/-- The name of a property. -/
def propertyName (s : Store) (p : PropertyId) : String := (s.property p).name.name

/-- The name of a procedure. -/
def procedureName (s : Store) : Procedure → String
  | .native id => (s.native id).name
  | .constructor t => (s.type t).constructorName.name
  | .predicate t => s.typeName t ++ "?"
  | .accessor t => s.typeName t ++ "-ref"
  | .mutator t => s.typeName t ++ "-set!"
  | .fieldAccessor t field label => s.typeName t ++ "-" ++ fieldLabel field label
  | .fieldMutator t field label => s.typeName t ++ "-" ++ fieldLabel field label ++ "!"
  | .propertyPredicate p => s.propertyName p ++ "?"
  | .propertyAccessor p => s.propertyName p ++ "-accessor"

mutual

/-- The printed form of a value, given that of records. -/
def displayWith (s : Store) (record : InstanceId → String) : Value → String
  | .void => "#<void>"
  | .bool true => "#t"
  | .bool false => "#f"
  | .fixnum n => toString n.toInt
  | .symbol name => name.name
  | .string text => quoteText text
  | .list items => "(" ++ " ".intercalate (displayAllWith s record items) ++ ")"
  | .vector items => "#(" ++ " ".intercalate (displayAllWith s record items) ++ ")"
  | .procedure p => "#<procedure:" ++ s.procedureName p ++ ">"
  | .record id => record id
  | .recordType t => "#<struct-type:" ++ s.typeName t ++ ">"
  | .property p => "#<struct-type-property:" ++ s.propertyName p ++ ">"

/-- The printed forms of some values, given those of records. -/
def displayAllWith (s : Store) (record : InstanceId → String) : List Value → List String
  | [] => []
  | v :: rest => displayWith s record v :: displayAllWith s record rest

end

/-- The printed form of a record without its fields. -/
def sealedForm (s : Store) (t : TypeId) : String := "#<" ++ s.typeName t ++ ">"

/-- The printed form of a record, following references within a number of steps. -/
def displayRecordWithin (s : Store) : Nat → InstanceId → String
  | 0, id => s.sealedForm (s.record id).type
  | n + 1, id =>
    let t := (s.record id).type
    let display := s.displayWith (s.displayRecordWithin n)
    if (s.type t).isSealed then
      s.sealedForm t
    else if (s.type t).isPrefab then
      let key := PrefabDatum.short (s.prefabLevels t)
      "#s(" ++ " ".intercalate ((key :: s.fieldValues id).map display) ++ ")"
    else
      "(" ++ " ".intercalate (s.typeName t :: (s.fieldValues id).map display) ++ ")"

/-- The printed form of a record. -/
def displayRecord (s : Store) (id : InstanceId) : String :=
  s.displayRecordWithin (s.instances.size + 1) id

/-- The printed form of a value. -/
def display (s : Store) (v : Value) : String := s.displayWith s.displayRecord v

end Store

end Records
