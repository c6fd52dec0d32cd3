import Records.FieldSet
import Records.Value.Equality
import Records.Value.Word

/-!
# Record types

A record type has a name, at most one super type, and fields of its own: *init* fields, which
its constructor takes as arguments, and *auto* fields, which start out with one common value.
Its instances hold the fields of the whole chain in one row, the root's first. Fields are counted
in machine words, which wrap around where a chain has too many of them.

A type is *pending* until its properties are resolved, and *finalized* from then on.

## Main statements

* `RecordType.propertyValue?_eq_none_iff`: a property is held exactly when it is listed.
* `Inspector.countWithout_count_add`: taking fields off takes back counting them.
-/

namespace Records

/-- Who may look inside the instances of a type. -/
inductive Inspector where
  /-- Everybody. -/
  | transparent
  /-- Holders of this inspector. -/
  | sealed (id : InspectorId)
  /-- Everybody, and types of one structure are one type. -/
  | prefab
deriving DecidableEq, Inhabited

namespace Inspector

/-- A number of fields, as types of a kind count it: in a word. The index of every init field of a
prefab type, as mutable or as immutable, and the value of every auto field are written down, so a
chain of prefab types cannot have as many fields as would wrap, and they are counted as they
are. -/
def count : Inspector → Nat → Nat
  | .prefab, n => n
  | _, n => wrap n

/-- What types of a kind have left of a number of fields without some of them. -/
def countWithout : Inspector → Nat → Nat → Nat
  | .prefab, n, m => n - m
  | _, n, m => wrapSub n m

theorem count_eq_of_lt (i : Inspector) {n : Nat} (h : n < UInt64.size) : i.count n = n := by
  cases i
  case prefab => rfl
  all_goals exact wrap_eq_self_iff.2 h

theorem wrap_count (i : Inspector) (n : Nat) : wrap (i.count n) = wrap n := by
  cases i
  case prefab => rfl
  all_goals exact Nat.mod_mod n UInt64.size

/-- Fewer fields are counted as they are if more fields are. -/
theorem count_eq_of_le {i : Inspector} {n m : Nat} (h : i.count n = n) (hle : m ≤ n) :
    i.count m = m := by
  cases i
  case prefab => rfl
  all_goals exact wrap_eq_self_iff.2 (Nat.lt_of_le_of_lt hle (wrap_eq_self_iff.1 h))

theorem countWithout_count_add (i : Inspector) (n m : Nat) :
    i.countWithout (i.count (n + m)) m = i.count n := by
  cases i
  case prefab => exact Nat.add_sub_cancel n m
  all_goals exact wrapSub_wrap_add n m

end Inspector

/-- How instances of a type behave when applied. -/
inductive Designation where
  /-- Apply this value, with the instance in front of the arguments. -/
  | procedure (v : Value)
  /-- Apply whatever the instance holds in this field. -/
  | field (index : Nat)
deriving Inhabited

/-- The value a designation was declared by. -/
def Designation.toValue : Designation → Value
  | .procedure v => v
  | .field index => .ofNat index

/-- A designation and the type among whose own fields a designated field is counted. -/
structure ProcedureBinding where
  designation : Designation
  source : TypeId
deriving Inhabited

/-- What attachment settles for a type, all at once. -/
structure Resolution where
  /-- The properties and their values, own ones before inherited ones. -/
  properties : List (PropertyId × Value)
  procedure : Option ProcedureBinding
deriving Inhabited

/-- The value of the first binding of a property. -/
def bindingOf (bindings : List (PropertyId × Value)) (p : PropertyId) : Option Value :=
  (bindings.find? fun b => b.1 = p).map (·.2)

theorem bindingOf_eq_none_iff {bindings : List (PropertyId × Value)} {p : PropertyId} :
    bindingOf bindings p = none ↔ ∀ b ∈ bindings, b.1 ≠ p := by
  simp [bindingOf]

/-- The first bindings count. -/
theorem bindingOf_append (bindings inherited : List (PropertyId × Value)) (p : PropertyId) :
    bindingOf (bindings ++ inherited) p = (bindingOf bindings p).or (bindingOf inherited p) := by
  unfold bindingOf
  rw [List.find?_append]
  cases bindings.find? fun b => b.1 = p <;> rfl

/-- A record type. -/
structure RecordType where
  name : Symbol
  superType : Option TypeId
  initCount : Nat
  autoCount : Nat
  /-- The fields of the whole chain. -/
  totalCount : Nat
  autoValue : Value
  inspector : Inspector
  /-- The own fields that capabilities refuse to write. -/
  immutables : FieldSet
  /-- Checks or replaces constructor arguments. -/
  guard : Option Value
  constructorName : Symbol
  /-- Where the own fields of this type and of each ancestor begin in an instance. -/
  offsets : List (TypeId × Nat)
  resolution : Option Resolution := none
deriving Inhabited

/-- A request for a record type. -/
structure Declaration where
  name : Symbol
  superType : Option TypeId := none
  initCount : Nat := 0
  autoCount : Nat := 0
  autoValue : Value := .bool false
  properties : List (PropertyId × Value) := []
  inspector : Inspector := .transparent
  /-- A designation by itself, outside the list of properties. -/
  procedure : Option Value := none
  immutables : List Nat := []
  guard : Option Value := none
  constructorName : Option Symbol := none
deriving Inhabited

namespace RecordType

/-- A number of fields, as the type counts it. -/
def count (t : RecordType) (n : Nat) : Nat := t.inspector.count n

/-- The fields of this type alone. -/
def ownCount (t : RecordType) : Nat := t.count (t.initCount + t.autoCount)

/-- Where the own fields begin: behind all inherited ones. -/
def ownBase (t : RecordType) : Nat :=
  t.inspector.countWithout t.totalCount (t.initCount + t.autoCount)

/-- The values of the auto fields of a fresh instance. -/
def autoValues (t : RecordType) : List Value := List.replicate t.autoCount t.autoValue

/-- Whether types of this structure are one type. -/
def isPrefab (t : RecordType) : Bool := t.inspector = .prefab

/-- Whether only holders of an inspector see the fields. -/
def isSealed (t : RecordType) : Bool :=
  match t.inspector with
  | .sealed _ => true
  | _ => false

/-- Whether capabilities refuse to write a field. -/
def isImmutable (t : RecordType) (field : Nat) : Bool := t.immutables.contains field

/-- Whether the properties are resolved. -/
def isFinalized (t : RecordType) : Bool := t.resolution.isSome

/-- The resolved properties, inherited ones included; none while the type is pending. -/
def properties (t : RecordType) : List (PropertyId × Value) :=
  match t.resolution with
  | some r => r.properties
  | none => []

/-- The value of a property, if the type holds it. -/
def propertyValue? (t : RecordType) (p : PropertyId) : Option Value := bindingOf t.properties p

/-- The designation the type ended up with. -/
def procedure? (t : RecordType) : Option ProcedureBinding := t.resolution.bind (·.procedure)

/-- Where the own fields of a type begin in an instance of this exact type. -/
def offsetOf? (t : RecordType) (of : TypeId) : Option Nat :=
  (t.offsets.find? fun o => o.1 = of).map (·.2)

/-- The type with its properties resolved, unless they are already. -/
def publish (t : RecordType) (r : Resolution) : RecordType :=
  match t.resolution with
  | some _ => t
  | none => { t with resolution := some r }

/-- The fields of a prefab type are counted as they are. -/
theorem count_of_isPrefab {t : RecordType} (h : t.isPrefab) (n : Nat) : t.count n = n := by
  have hprefab : t.inspector = .prefab := of_decide_eq_true h
  rw [count, hprefab, Inspector.count]

theorem propertyValue?_eq_none_iff (t : RecordType) (p : PropertyId) :
    t.propertyValue? p = none ↔ ∀ b ∈ t.properties, b.1 ≠ p :=
  bindingOf_eq_none_iff

@[simp] theorem publish_of_finalized {t : RecordType} (h : t.isFinalized) (r : Resolution) :
    t.publish r = t := by
  cases hr : t.resolution <;> simp_all [publish, isFinalized]

@[simp] theorem isFinalized_publish (t : RecordType) (r : Resolution) :
    (t.publish r).isFinalized := by
  cases hr : t.resolution <;> simp [publish, isFinalized, hr]

end RecordType

end Records
