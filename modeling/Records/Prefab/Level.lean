import Records.RecordType.Basic

/-!
# Levels of a prefab key

A prefab type is identified by its structure: for each type of its chain the name, the counts of
fields, the auto value and the set of mutable init fields. One such entry is a level.

## Main statements

* `PrefabLevel.same_refl`, `PrefabLevel.same_symm`, `PrefabLevel.same_trans`: agreement of levels
  is an equivalence.
-/

namespace Records

/-- The structure of one type of a chain. -/
structure PrefabLevel where
  name : Symbol
  initCount : Nat
  autoCount : Nat
  autoValue : Value
  /-- The init fields that may be written. -/
  mutables : FieldSet
deriving Inhabited

namespace PrefabLevel

/-- Whether two levels agree in every part. -/
def same (a b : PrefabLevel) : Bool :=
  a.name = b.name && a.initCount = b.initCount && a.autoCount = b.autoCount &&
    a.autoValue == b.autoValue && a.mutables = b.mutables

/-- The fields the level adds. -/
def ownCount (l : PrefabLevel) : Nat := l.initCount + l.autoCount

/-- The init fields that may not be written. -/
def immutables (l : PrefabLevel) : FieldSet := l.mutables.complement l.initCount

/-- The fields of a chain of levels. -/
def totalCount : List PrefabLevel → Nat
  | [] => 0
  | l :: supers => l.ownCount + totalCount supers

/-- What is printed of a level behind its name and init count. -/
def options (l : PrefabLevel) : List Value :=
  (if l.autoCount = 0 then [] else [.list [.ofNat l.autoCount, l.autoValue]]) ++
    (if l.mutables.isEmpty then [] else [.vector (l.mutables.indices.map .ofNat)])

/-- What is printed of a level. -/
def elements (l : PrefabLevel) : List Value :=
  .symbol l.name :: .ofNat l.initCount :: l.options

theorem same_iff {a b : PrefabLevel} :
    a.same b ↔ a.name = b.name ∧ a.initCount = b.initCount ∧ a.autoCount = b.autoCount ∧
      a.autoValue.same b.autoValue ∧ a.mutables = b.mutables := by
  simp [same, Value.beq_def, and_assoc]

theorem same_refl (l : PrefabLevel) : l.same l := by
  simp [same_iff, Value.same_refl]

theorem same_symm {a b : PrefabLevel} (h : a.same b) : b.same a := by
  obtain ⟨h1, h2, h3, h4, h5⟩ := same_iff.1 h
  exact same_iff.2 ⟨h1.symm, h2.symm, h3.symm, Value.same_symm h4, h5.symm⟩

theorem same_trans {a b c : PrefabLevel} (h : a.same b) (h' : b.same c) : a.same c := by
  obtain ⟨h1, h2, h3, h4, h5⟩ := same_iff.1 h
  obtain ⟨k1, k2, k3, k4, k5⟩ := same_iff.1 h'
  exact same_iff.2
    ⟨h1.trans k1, h2.trans k2, h3.trans k3, Value.same_trans h4 k4, h5.trans k5⟩

end PrefabLevel

/-- The structure of a type, as a level of the key of its chain. -/
def RecordType.prefabLevel (t : RecordType) : PrefabLevel where
  name := t.name
  initCount := t.initCount
  autoCount := t.autoCount
  autoValue := t.autoValue
  mutables := t.immutables.complement t.initCount

/-- The structure of a declared type, which leaves out everything that takes no part in the
identity of prefab types. -/
def Declaration.prefabLevel (d : Declaration) : PrefabLevel where
  name := d.name
  initCount := d.initCount
  autoCount := d.autoCount
  autoValue := d.autoValue
  mutables := (FieldSet.ofList d.immutables).complement d.initCount

end Records
