import Records.Instance.Access

/-!
# Capabilities

What the procedures of a type and of a property do once their arguments are at hand: recognise
an instance, read a field, write a field, and read a property.
-/

namespace Records

namespace Store

/-! ### Capabilities of a type -/

/-- Whether a value is an instance of a type or of one that descends from it. -/
def test (s : Store) (t : TypeId) (v : Value) : Bool :=
  v.record?.any fun i => s.isSubtype (s.record i).type t

/-- An argument that has to be an instance. -/
def expectRecord (s : Store) (procedure : Procedure) (t : TypeId) (v : Value) :
    Except Condition InstanceId :=
  match v.record? with
  | some i => .ok i
  | none => .error <|
    .contractViolation (s.procedureName procedure) (s.typeName t ++ "?") (s.display v)

/-- Read a type's own field of a value. -/
def access (s : Store) (t : TypeId) (v : Value) (field : Nat) : Except Failure Value := do
  let i ← (s.expectRecord (.accessor t) t v).mapError .condition
  s.read i t field

/-- The own fields of a type, which are the ones its field capabilities exist for. -/
def checkField (s : Store) (t : TypeId) (field : Nat) : Except Condition Unit :=
  if field < (s.type t).ownCount then .ok ()
  else .error (.fieldOutOfRange (s.typeName t) field (s.type t).ownCount)

/-- The accessor of one field. -/
def fieldAccessor (s : Store) (t : TypeId) (field : Nat) (label : Option Symbol) :
    Except Condition Procedure := do
  s.checkField t field
  return .fieldAccessor t field label

/-- The mutator of one field. -/
def fieldMutator (s : Store) (t : TypeId) (field : Nat) (label : Option Symbol) :
    Except Condition Procedure := do
  s.checkField t field
  return .fieldMutator t field label

/-! ### Capabilities of a property -/

/-- Whether a value is an instance that holds a property. -/
def holds (s : Store) (p : PropertyId) (v : Value) : Bool :=
  v.record?.any fun i => ((s.typeOf i).propertyValue? p).isSome

/-- The value that a value holds for a property. -/
def propertyValueOf (s : Store) (p : PropertyId) (v : Value) : Except Condition Value :=
  match v with
  | .record i => s.propertyOf i p
  | _ => .error (.missingProperty (s.propertyName p) (s.display v))

end Store

/-- Write a type's own field of a value, unless it is immutable. -/
def mutate (t : TypeId) (v : Value) (field : Nat) (new : Value) : StoreM Unit := do
  let s ← get
  let i ← s.expectRecord (.mutator t) t v
  if (s.type t).isImmutable field then
    raise <| .immutableField (s.typeName t) field
  writeField i t field new

end Records
