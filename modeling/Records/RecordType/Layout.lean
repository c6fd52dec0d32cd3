import Records.Display

/-!
# Laying out a record type

A declaration is checked and turned into a pending type: its own fields follow those of its
super type, and a field that holds the procedure of its instances is immutable, whether the
declaration designates it directly or binds it to the property of procedures.

## Main statements

* `Store.layOut_totalCount`: the fields of a type are those of its super type and its own.
* `Store.layOut_isFinalized`: a type that was just laid out is pending.
-/

namespace Records

namespace Declaration

/-- An init field of the declared type, which has to exist. -/
def initField (d : Declaration) (index : Nat) : Except Condition Nat :=
  if index < d.initCount then .ok index
  else .error (.fieldOutOfRange d.name.name index d.initCount)

/-- The values that designate the procedure of instances. -/
def designations (d : Declaration) : List Value :=
  d.procedure.toList ++ (d.properties.filter fun b => b.1 = Property.procedure).map (·.2)

/-- The name of the constructor. -/
def constructorSymbol (d : Declaration) : Symbol :=
  d.constructorName.getD ⟨"make-" ++ d.name.name⟩

end Declaration

namespace Store

/-- A field that is designated by a number. -/
def designatedField (s : Store) (d : Declaration) (v : Value) : Except Condition Nat :=
  match v.index? with
  | some index => d.initField index
  | none => .error (.contractViolation "prop:procedure" "field index" (s.display v))

/-- The immutable fields of a declared type. -/
def declaredImmutables (s : Store) (d : Declaration) : Except Condition FieldSet := do
  let declared ← d.immutables.mapM d.initField
  let numbers := d.designations.filter (·.fixnum?.isSome)
  let designated ← numbers.mapM (s.designatedField d)
  return .ofList (declared ++ designated)

/-- The fields that a type inherits from its super type. -/
def inheritedCount (s : Store) (super : Option TypeId) : Nat :=
  super.elim 0 fun t => (s.type t).totalCount

/-- Where the fields of the ancestors begin. -/
def inheritedOffsets (s : Store) (super : Option TypeId) : List (TypeId × Nat) :=
  super.elim [] fun t => (s.ancestry t).map fun a => (a, (s.type a).ownBase)

/-- The pending type of a declaration, about to be added to the store. -/
def layOut (s : Store) (d : Declaration) : Except Condition RecordType := do
  let immutables ← s.declaredImmutables d
  let base := s.inheritedCount d.superType
  return {
    name := d.name
    superType := d.superType
    initCount := d.initCount
    autoCount := d.autoCount
    totalCount := d.inspector.count (base + (d.initCount + d.autoCount))
    autoValue := d.autoValue
    inspector := d.inspector
    immutables
    guard := d.guard
    constructorName := d.constructorSymbol
    offsets := (⟨s.types.size⟩, d.inspector.count base) :: s.inheritedOffsets d.superType
  }

theorem layOut_eq_ok_iff {s : Store} {d : Declaration} {t : RecordType} :
    s.layOut d = .ok t ↔ ∃ immutables, s.declaredImmutables d = .ok immutables ∧
      t = {
        name := d.name
        superType := d.superType
        initCount := d.initCount
        autoCount := d.autoCount
        totalCount :=
          d.inspector.count (s.inheritedCount d.superType + (d.initCount + d.autoCount))
        autoValue := d.autoValue
        inspector := d.inspector
        immutables
        guard := d.guard
        constructorName := d.constructorSymbol
        offsets := (⟨s.types.size⟩, d.inspector.count (s.inheritedCount d.superType)) ::
          s.inheritedOffsets d.superType } := by
  cases h : s.declaredImmutables d with
  | error e => simp [layOut, h, bind, Except.bind]
  | ok immutables => simp [layOut, h, bind, Except.bind, pure, Except.pure, eq_comm]

theorem layOut_totalCount {s : Store} {d : Declaration} {t : RecordType}
    (h : s.layOut d = .ok t) :
    t.totalCount = t.count (s.inheritedCount d.superType + (t.initCount + t.autoCount)) := by
  obtain ⟨_, _, rfl⟩ := layOut_eq_ok_iff.1 h
  rfl

theorem layOut_isFinalized {s : Store} {d : Declaration} {t : RecordType}
    (h : s.layOut d = .ok t) : t.isFinalized = false := by
  obtain ⟨_, _, rfl⟩ := layOut_eq_ok_iff.1 h
  rfl

end Store

/-- Add the type of a declaration to the store, pending. -/
def declare (d : Declaration) : StoreM TypeId := do
  let s ← get
  newType (← s.layOut d)

end Records
