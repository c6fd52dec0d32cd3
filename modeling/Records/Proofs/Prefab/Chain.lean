import Records.Proofs.Store.Evolution
import Mathlib.Data.List.Forall2
import Mathlib.Tactic.Lemma

/-!
# Chains of levels

Two chains of levels are the same structure if they agree level by level. A type realizes a
level if it is a prefab type that declares what the level says.
-/

namespace Records

/-! ### Sets of fields -/

namespace FieldSet

lemma complement_complement {s : FieldSet} {n : Nat} (h : ∀ i ∈ s, i < n) :
    (s.complement n).complement n = s := by
  refine ext_mem fun i => ?_
  simp only [mem_complement]
  constructor
  · rintro ⟨hi, hnot⟩
    by_contra hs
    exact hnot ⟨hi, hs⟩
  · intro hs
    exact ⟨h i hs, fun hc => hc.2 hs⟩

@[simp] lemma ofList_indices (s : FieldSet) : ofList s.indices = s :=
  ext_mem fun _ => mem_ofList

end FieldSet

/-! ### Chains -/

/-- Whether two chains of levels agree level by level. -/
def SameChain (a b : List PrefabLevel) : Prop := List.Forall₂ (fun l m => l.same m) a b

namespace SameChain

variable {a b c : List PrefabLevel}

lemma refl (a : List PrefabLevel) : SameChain a a :=
  List.forall₂_same.2 fun l _ => l.same_refl

lemma symm (h : SameChain a b) : SameChain b a := by
  induction h with
  | nil => exact .nil
  | cons hl _ ih => exact .cons (PrefabLevel.same_symm hl) ih

lemma trans (h : SameChain a b) (h' : SameChain b c) : SameChain a c := by
  induction h generalizing c with
  | nil => exact h'
  | cons hl _ ih =>
    cases h' with
    | cons hl' ht' => exact .cons (PrefabLevel.same_trans hl hl') (ih ht')

@[simp] lemma cons_iff {l m : PrefabLevel} :
    SameChain (l :: a) (m :: b) ↔ l.same m ∧ SameChain a b :=
  List.forall₂_cons

@[simp] lemma nil_left : SameChain [] b ↔ b = [] := List.forall₂_nil_left_iff

/-- Chains that agree have as many fields. -/
lemma totalCount_eq (h : SameChain a b) :
    PrefabLevel.totalCount a = PrefabLevel.totalCount b := by
  induction h with
  | nil => rfl
  | cons hl _ ih =>
    obtain ⟨-, hinit, hauto, -⟩ := PrefabLevel.same_iff.1 hl
    rw [PrefabLevel.totalCount, PrefabLevel.totalCount, ih, PrefabLevel.ownCount, hinit, hauto]
    rfl

end SameChain

/-! ### Types of a level -/

/-- The mutable fields of a level are init fields. -/
def PrefabLevel.Bounded (l : PrefabLevel) : Prop := ∀ i ∈ l.mutables, i < l.initCount

/-- Levels that agree have the same mutable fields. -/
lemma SameChain.bounded {a b : List PrefabLevel} (h : SameChain a b) (hb : ∀ l ∈ b, l.Bounded) :
    ∀ l ∈ a, l.Bounded := by
  induction h with
  | nil => exact hb
  | cons hl _ ih =>
    obtain ⟨hm, hrest⟩ := List.forall_mem_cons.1 hb
    obtain ⟨-, hinit, -, -, hmutables⟩ := PrefabLevel.same_iff.1 hl
    refine List.forall_mem_cons.2 ⟨fun i hi => ?_, ih hrest⟩
    rw [hmutables] at hi
    rw [hinit]
    exact hm i hi

lemma RecordType.bounded_prefabLevel (t : RecordType) : t.prefabLevel.Bounded :=
  fun _ hi => (FieldSet.mem_complement.1 hi).1

lemma Declaration.bounded_prefabLevel (d : Declaration) : d.prefabLevel.Bounded :=
  fun _ hi => (FieldSet.mem_complement.1 hi).1

/-- The type is a prefab type with the name, the fields and the auto value of a level. -/
structure RecordType.Realizes (t : RecordType) (l : PrefabLevel) : Prop where
  prefabType : t.isPrefab
  name : t.name = l.name
  initCount : t.initCount = l.initCount
  autoCount : t.autoCount = l.autoCount
  autoValue : t.autoValue == l.autoValue
  immutables : t.immutables = l.immutables

/-- The level of a type that realizes a level is that level. -/
lemma RecordType.Realizes.same {t : RecordType} {l : PrefabLevel} (h : t.Realizes l)
    (hl : l.Bounded) : l.same t.prefabLevel := by
  refine PrefabLevel.same_iff.2 ⟨h.name.symm, h.initCount.symm, h.autoCount.symm,
    Value.same_symm h.autoValue, ?_⟩
  show l.mutables = t.immutables.complement t.initCount
  rw [h.immutables, h.initCount, PrefabLevel.immutables, FieldSet.complement_complement hl]

lemma RecordType.Realizes.of_layout {t u : RecordType} {l : PrefabLevel} (h : t.Realizes l)
    (hu : u.layout = t.layout) : u.Realizes l where
  prefabType := (congrArg isPrefab hu).trans h.prefabType
  name := (congrArg RecordType.name hu).trans h.name
  initCount := (congrArg RecordType.initCount hu).trans h.initCount
  autoCount := (congrArg RecordType.autoCount hu).trans h.autoCount
  autoValue := (congrArg (fun t => t.autoValue == l.autoValue) hu).trans h.autoValue
  immutables := (congrArg RecordType.immutables hu).trans h.immutables

/-! ### Keys -/

namespace PrefabKey

lemma levels_eq (k : PrefabKey) :
    k.levels = k.level :: (k.superKey?.elim [] PrefabKey.levels) := by
  rcases k with ⟨id, level, _ | ⟨⟨superId, superLevel⟩, supers⟩⟩ <;> rfl

/-- Induction along the chain of a key. -/
lemma rec_superKey? {P : PrefabKey → Prop} (k : PrefabKey)
    (h : ∀ k : PrefabKey, (∀ k', k.superKey? = some k' → P k') → P k) : P k := by
  obtain ⟨id, level, supers⟩ := k
  induction supers generalizing id level with
  | nil => exact h _ fun k' hk' => by cases hk'
  | cons head rest ih =>
    refine h _ fun k' hk' => ?_
    cases hk'
    exact ih head.1 head.2

end PrefabKey

end Records
