import Records.Display

/-!
# Access to instances

The fields of an instance are reached through a type of its chain and a field index among that
type's own fields, or through their absolute position. Immutability is not checked here; it is
up to the capabilities of a type. A field that is found at a position the instance does not have
stops the program.

## Main statements

* `Store.locate_eq_ok_iff`: exactly the own fields of the types of the chain can be reached.
-/

namespace Records

namespace Store

/-- The absolute position of a type's own field in an instance. -/
def locate (s : Store) (i : InstanceId) (t : TypeId) (field : Nat) : Except Condition Nat :=
  match (s.typeOf i).offsetOf? t with
  | none => .error (.foreignInstance (s.typeName t) (s.typeName (s.record i).type))
  | some offset =>
    if field < (s.type t).ownCount then .ok ((s.typeOf i).count (offset + field))
    else .error (.fieldOutOfRange (s.typeName t) field (s.type t).ownCount)

/-- The content at an absolute position. -/
def valueAt? (s : Store) (i : InstanceId) (index : Nat) : Option Value :=
  (s.record i).slots[index]?.map s.slotValue

/-- The content of a type's own field. -/
def read (s : Store) (i : InstanceId) (t : TypeId) (field : Nat) : Except Failure Value := do
  let index ← (s.locate i t field).mapError .condition
  match s.valueAt? i index with
  | some v => return v
  | none => throw .outOfBounds

/-- The value an instance holds for a property. -/
def propertyOf (s : Store) (i : InstanceId) (p : PropertyId) : Except Condition Value :=
  match (s.typeOf i).propertyValue? p with
  | some v => .ok v
  | none => .error (.missingProperty (s.propertyName p) (s.displayRecord i))

/-- An instance as a vector of its tagged name and its fields. -/
def toVector (s : Store) (i : InstanceId) : Value :=
  .vector (.ofName ("struct:" ++ s.typeName (s.record i).type) :: s.fieldValues i)

theorem locate_eq_ok_iff {s : Store} {i : InstanceId} {t : TypeId} {field index : Nat} :
    s.locate i t field = .ok index ↔ ∃ offset, (s.typeOf i).offsetOf? t = some offset ∧
      field < (s.type t).ownCount ∧ index = (s.typeOf i).count (offset + field) := by
  unfold locate
  split
  · simp [*]
  · rename_i offset h
    split <;> simp [*, eq_comm]

theorem read_of_locate {s : Store} {i : InstanceId} {t : TypeId} {field index : Nat}
    (h : s.locate i t field = .ok index) :
    s.read i t field = (s.valueAt? i index).elim (.error .outOfBounds) .ok := by
  rw [read, h]
  show (match s.valueAt? i index with | some v => _ | none => _) = _
  cases s.valueAt? i index <;> rfl

theorem read_of_locate_eq_error {s : Store} {i : InstanceId} {t : TypeId} {field : Nat}
    {c : Condition} (h : s.locate i t field = .error c) :
    s.read i t field = .error (.condition c) := by
  rw [read, h]
  rfl

end Store

/-- Make an instance from the contents of all its fields. -/
def newInstance (t : TypeId) (values : List Value) : StoreM InstanceId := do
  let type := (← get).type t
  if values.length = type.totalCount then
    newRecord ⟨t, (values.map Slot.raw).toArray⟩
  else
    raise <| .arityMismatch type.constructorName.name (toString type.totalCount) values.length

/-- Write at an absolute position; answers whether there is such a position. The first write
boxes the slot. -/
def writeAt (i : InstanceId) (index : Nat) (v : Value) : StoreM Bool := do
  match ((← get).record i).slots[index]? with
  | none => return false
  | some (.boxed c) =>
    setCell c v
    return true
  | some (.raw _) =>
    setSlot i index (.boxed (← newCell v))
    return true

/-- Write a type's own field. -/
def writeField (i : InstanceId) (t : TypeId) (field : Nat) (v : Value) : StoreM Unit := do
  let index ← (← get).locate i t field
  unless ← writeAt i index v do
    throw .outOfBounds

/-- The cell of a type's own field, which boxes the slot if it is still raw. -/
def cellOf (i : InstanceId) (t : TypeId) (field : Nat) : StoreM CellId := do
  let s ← get
  let index ← s.locate i t field
  match (s.record i).slots[index]? with
  | none => throw .outOfBounds
  | some (.boxed c) => return c
  | some (.raw v) =>
    let c ← newCell v
    setSlot i index (.boxed c)
    return c

end Records
