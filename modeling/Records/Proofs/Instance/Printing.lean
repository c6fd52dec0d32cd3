import Records.Display
import Mathlib.Tactic.Lemma

/-!
# What is printed of instances

Printed forms tell the types and the contents of instances, but not how the contents are stored.

## Main statements

* `Store.Alike.display_eq`: stores with the same contents print alike.
-/

namespace Records

namespace Store

/-! ### Printed forms of parts -/

section

variable (s : Store) (record : InstanceId → String)

lemma displayWith_list (items : List Value) : s.displayWith record (.list items) =
    "(" ++ " ".intercalate (s.displayAllWith record items) ++ ")" := rfl

lemma displayWith_vector (items : List Value) : s.displayWith record (.vector items) =
    "#(" ++ " ".intercalate (s.displayAllWith record items) ++ ")" := rfl

lemma displayWith_procedure (p : Procedure) : s.displayWith record (.procedure p) =
    "#<procedure:" ++ s.procedureName p ++ ">" := rfl

lemma displayWith_recordType (t : TypeId) : s.displayWith record (.recordType t) =
    "#<struct-type:" ++ s.typeName t ++ ">" := rfl

lemma displayWith_property (p : PropertyId) : s.displayWith record (.property p) =
    "#<struct-type-property:" ++ s.propertyName p ++ ">" := rfl

lemma displayAllWith_cons (v : Value) (rest : List Value) : s.displayAllWith record (v :: rest) =
    s.displayWith record v :: s.displayAllWith record rest := rfl

end

/-! ### Stores that print alike -/

/-- Two stores that agree in everything but the inspectors, the registries and the way in which
the contents of instances are stored. -/
structure Alike (s s' : Store) : Prop where
  natives : s'.natives = s.natives
  properties : s'.properties = s.properties
  types : s'.types = s.types
  size : s'.instances.size = s.instances.size
  type : ∀ i, (s'.record i).type = (s.record i).type
  values : ∀ i, s'.fieldValues i = s.fieldValues i

namespace Alike

variable {s s' : Store}

lemma type_eq (h : s.Alike s') (t : TypeId) : s'.type t = s.type t := by
  rw [Store.type, h.types, Store.type]

lemma property_eq (h : s.Alike s') (p : PropertyId) : s'.property p = s.property p := by
  rw [Store.property, h.properties, Store.property]

lemma typeName_eq (h : s.Alike s') (t : TypeId) : s'.typeName t = s.typeName t := by
  rw [typeName, h.type_eq, typeName]

lemma propertyName_eq (h : s.Alike s') (p : PropertyId) :
    s'.propertyName p = s.propertyName p := by
  rw [propertyName, h.property_eq, propertyName]

lemma procedureName_eq (h : s.Alike s') (p : Procedure) :
    s'.procedureName p = s.procedureName p := by
  cases p with
  | native id => simp only [procedureName, native, h.natives]
  | propertyPredicate p => simp only [procedureName, h.propertyName_eq]
  | propertyAccessor p => simp only [procedureName, h.propertyName_eq]
  | constructor t => simp only [procedureName, h.type_eq]
  | _ => simp only [procedureName, h.typeName_eq]

lemma ancestryWithin_eq (h : s.Alike s') (n : Nat) (t : TypeId) :
    s'.ancestryWithin n t = s.ancestryWithin n t := by
  induction n generalizing t with
  | zero => rfl
  | succ n ih => simp only [ancestryWithin, h.type_eq, ih]

lemma prefabLevels_eq (h : s.Alike s') (t : TypeId) : s'.prefabLevels t = s.prefabLevels t := by
  have htypes : s'.type = s.type := funext h.type_eq
  simp only [prefabLevels, chain, ancestry, h.ancestryWithin_eq, htypes]

mutual

lemma displayWith_eq (h : s.Alike s') (record : InstanceId → String) :
    (v : Value) → s'.displayWith record v = s.displayWith record v
  | .void | .bool true | .bool false | .fixnum _ | .symbol _ | .string _ | .record _ => rfl
  | .list items => by
    rw [displayWith_list, displayWith_list, h.displayAllWith_eq record items]
  | .vector items => by
    rw [displayWith_vector, displayWith_vector, h.displayAllWith_eq record items]
  | .procedure p => by
    rw [displayWith_procedure, displayWith_procedure, h.procedureName_eq]
  | .recordType t => by
    rw [displayWith_recordType, displayWith_recordType, h.typeName_eq]
  | .property p => by
    rw [displayWith_property, displayWith_property, h.propertyName_eq]

lemma displayAllWith_eq (h : s.Alike s') (record : InstanceId → String) :
    (vs : List Value) → s'.displayAllWith record vs = s.displayAllWith record vs
  | [] => rfl
  | v :: rest => by
    rw [displayAllWith_cons, displayAllWith_cons, h.displayWith_eq record v,
      h.displayAllWith_eq record rest]

end

lemma displayRecordWithin_eq (h : s.Alike s') (n : Nat) (i : InstanceId) :
    s'.displayRecordWithin n i = s.displayRecordWithin n i := by
  induction n generalizing i with
  | zero => simp only [displayRecordWithin, sealedForm, h.type, h.typeName_eq]
  | succ n ih =>
    have hrecord : s'.displayRecordWithin n = s.displayRecordWithin n := funext ih
    have hdisplay : s'.displayWith (s'.displayRecordWithin n) =
        s.displayWith (s.displayRecordWithin n) := by
      rw [hrecord]
      exact funext (h.displayWith_eq _)
    simp only [displayRecordWithin, sealedForm, hdisplay, h.type, h.type_eq, h.typeName_eq,
      h.prefabLevels_eq, h.values]

/-- Stores with the same contents print alike. -/
lemma display_eq (h : s.Alike s') (v : Value) : s'.display v = s.display v := by
  have hrecord : s'.displayRecord = s.displayRecord := by
    funext i
    rw [displayRecord, h.size, h.displayRecordWithin_eq, displayRecord]
  rw [display, hrecord, h.displayWith_eq, display]

end Alike

end Store

end Records
