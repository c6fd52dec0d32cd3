import Records.Ident
import Records.Symbol

/-!
# Values

The data that fields, property values and printed keys are made of. Plain data is held in the
value itself; procedures, records, record types and properties are held by identity.

## Main statements

* `Value.index?_eq_some_iff`: an index is a fixnum that is not negative.
-/

namespace Records

/-- Everything that can be applied and is not a record. -/
inductive Procedure where
  /-- A procedure supplied by the host. -/
  | native (id : NativeId)
  /-- Makes instances of a record type. -/
  | constructor (type : TypeId)
  /-- Recognises instances of a record type. -/
  | predicate (type : TypeId)
  /-- Reads a field of a record type by index. -/
  | accessor (type : TypeId)
  /-- Writes a field of a record type by index. -/
  | mutator (type : TypeId)
  /-- Reads one field; the label only serves its name. -/
  | fieldAccessor (type : TypeId) (field : Nat) (label : Option Symbol)
  /-- Writes one field; the label only serves its name. -/
  | fieldMutator (type : TypeId) (field : Nat) (label : Option Symbol)
  /-- Recognises instances that hold a property. -/
  | propertyPredicate (property : PropertyId)
  /-- Reads the value an instance holds for a property. -/
  | propertyAccessor (property : PropertyId)
deriving DecidableEq, Inhabited

/-- Dynamic values. -/
inductive Value where
  | void
  | bool (b : Bool)
  | fixnum (n : Int64)
  | symbol (s : Symbol)
  | string (text : String)
  | list (items : List Value)
  | vector (items : List Value)
  | procedure (p : Procedure)
  | record (id : InstanceId)
  | recordType (id : TypeId)
  | property (id : PropertyId)
deriving Inhabited

namespace Value

/-- The empty list. -/
def null : Value := .list []

/-- The symbol of a name. -/
def ofName (name : String) : Value := .symbol ⟨name⟩

/-- A count as a fixnum, taken modulo the width of a word. -/
def ofNat (n : Nat) : Value := .fixnum (Int64.ofNat n)

/-- Whether the value is the one that stands for "no". -/
def isFalse : Value → Bool
  | .bool b => !b
  | _ => false

/-- The number, if the value is one. -/
def fixnum? : Value → Option Int64
  | .fixnum n => some n
  | _ => none

/-- The number of a fixnum that can be a field index or a count. -/
def index? : Value → Option Nat
  | .fixnum n => if 0 ≤ n.toInt then some n.toInt.toNat else none
  | _ => none

/-- The symbol, if the value is one. -/
def symbol? : Value → Option Symbol
  | .symbol s => some s
  | _ => none

/-- The items, if the value is a list. -/
def list? : Value → Option (List Value)
  | .list items => some items
  | _ => none

/-- The identity of the instance, if the value is one. -/
def record? : Value → Option InstanceId
  | .record id => some id
  | _ => none

theorem index?_eq_some_iff {v : Value} {i : Nat} :
    v.index? = some i ↔ ∃ n : Int64, v = .fixnum n ∧ n.toInt = i := by
  cases v with
  | fixnum n =>
    simp only [index?, Value.fixnum.injEq, exists_eq_left']
    split
    · rw [Option.some.injEq]; omega
    · simp only [reduceCtorEq, false_iff]; omega
  | _ => simp [index?]

@[simp] theorem record?_eq_some_iff {v : Value} {id : InstanceId} :
    v.record? = some id ↔ v = .record id := by
  cases v <;> simp [record?]

end Value

end Records
