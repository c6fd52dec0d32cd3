import Records.Proofs.Store.Evolution

/-!
# Chains of super types

A super type is older than its subtypes, so the walk to the root ends by itself; how many steps
it is given does not matter.

## Main statements

* `Store.Ordered.ancestry_eq`: a type in front of the ancestry of its super type.
* `Store.Ordered.ancestry_of_eq_append`: every tail of an ancestry is an ancestry.
* `Store.Evolves.prefabLevels_eq`: the structure of a chain stays what it is.
-/

namespace Records

namespace Store

variable {s s' : Store} {t u : TypeId}

/-- Super types are older than their subtypes. -/
def Ordered (s : Store) : Prop :=
  ∀ t u : TypeId, (s.type t).superType = some u → u.index < t.index

namespace Ordered

/-- Enough steps are enough. -/
lemma ancestryWithin_eq (hs : s.Ordered) {n m : Nat} (hn : t.index ≤ n) (hm : t.index ≤ m) :
    s.ancestryWithin n t = s.ancestryWithin m t := by
  induction n generalizing t m with
  | zero =>
    have hnone : (s.type t).superType = none := by
      cases hu : (s.type t).superType with
      | none => rfl
      | some u =>
        have := hs t u hu
        omega
    cases m with
    | zero => rfl
    | succ m => simp [ancestryWithin, hnone]
  | succ n ih =>
    cases hu : (s.type t).superType with
    | none => cases m <;> simp [ancestryWithin, hu]
    | some u =>
      have hlt := hs t u hu
      cases m with
      | zero => omega
      | succ m =>
        simp only [ancestryWithin, hu]
        rw [ih (m := m) (by omega) (by omega)]

lemma ancestry_eq (hs : s.Ordered) (t : TypeId) :
    s.ancestry t = t :: (s.type t).superType.elim [] s.ancestry := by
  have hmore : s.ancestry t = s.ancestryWithin (t.index + 1) t :=
    hs.ancestryWithin_eq (Nat.le_refl _) (Nat.le_succ _)
  rw [hmore, ancestryWithin]
  cases hu : (s.type t).superType with
  | none => rfl
  | some u =>
    have hlt := hs t u hu
    show t :: s.ancestryWithin t.index u = t :: s.ancestry u
    rw [hs.ancestryWithin_eq (Nat.le_of_lt hlt) (Nat.le_refl _)]
    rfl

/-- Induction from the root of a chain. -/
lemma induction_on (hs : s.Ordered) {P : TypeId → Prop} (t : TypeId)
    (h : ∀ t, (∀ u, (s.type t).superType = some u → P u) → P t) : P t := by
  obtain ⟨n, hn⟩ : ∃ n, t.index ≤ n := ⟨t.index, Nat.le_refl _⟩
  induction n generalizing t with
  | zero =>
    refine h t fun u hu => ?_
    have := hs t u hu
    omega
  | succ n ih =>
    refine h t fun u hu => ih u ?_
    have := hs t u hu
    omega

/-- The ancestors of a type are older than it. -/
lemma le_of_mem_ancestry (hs : s.Ordered) (hu : u ∈ s.ancestry t) : u.index ≤ t.index := by
  revert hu
  refine hs.induction_on (P := fun t => u ∈ s.ancestry t → u.index ≤ t.index) t
    fun t ih hu => ?_
  rw [hs.ancestry_eq] at hu
  rcases List.mem_cons.1 hu with rfl | hu
  · exact Nat.le_refl _
  · cases hsuper : (s.type t).superType with
    | none =>
      rw [hsuper] at hu
      cases hu
    | some v =>
      rw [hsuper] at hu
      have hle := ih v hsuper hu
      have hlt := hs t v hsuper
      omega

lemma ancestry_of_eq_append (hs : s.Ordered) {below above : List TypeId}
    (h : s.ancestry t = below ++ u :: above) : s.ancestry u = u :: above := by
  induction below generalizing t with
  | nil =>
    have heq := hs.ancestry_eq t
    rw [h] at heq
    cases heq
    exact h
  | cons v below ih =>
    have heq := hs.ancestry_eq t
    rw [h] at heq
    cases hsuper : (s.type t).superType with
    | none =>
      rw [hsuper] at heq
      cases below <;> cases heq
    | some w =>
      rw [hsuper] at heq
      have htail : s.ancestry w = below ++ u :: above := (List.cons.inj heq).2.symm
      exact ih htail

/-- The ancestry depends on the super types alone. -/
lemma ancestry_congr (hs : s.Ordered)
    (h : ∀ u : TypeId, u.index ≤ t.index → (s'.type u).superType = (s.type u).superType) :
    s'.ancestry t = s.ancestry t := by
  have hwithin : ∀ n (u : TypeId), u.index ≤ t.index →
      s'.ancestryWithin n u = s.ancestryWithin n u := by
    intro n
    induction n with
    | zero => exact fun _ _ => rfl
    | succ n ih =>
      intro u hu
      simp only [ancestryWithin, h u hu]
      cases hsuper : (s.type u).superType with
      | none => rfl
      | some v =>
        have hlt := hs u v hsuper
        simp only [ih v (by omega)]
  exact hwithin t.index t (Nat.le_refl _)

/-- A type is added on top of one that is there. -/
lemma push (hs : s.Ordered) {type : RecordType}
    (hsuper : ∀ u, type.superType = some u → u.index < s.types.size) :
    ({ s with types := s.types.push type } : Store).Ordered := by
  intro t u hu
  rw [type_push] at hu
  split at hu
  · rename_i hnew
    rw [hnew]
    exact hsuper u hu
  · exact hs t u hu

/-- The structure of a chain is that of its first type, on top of what the type inherits. -/
lemma prefabLevels_eq (hs : s.Ordered) (t : TypeId) :
    s.prefabLevels t = (s.type t).prefabLevel :: s.inheritedLevels (s.type t).superType := by
  rw [prefabLevels, chain, hs.ancestry_eq]
  cases (s.type t).superType <;> rfl

end Ordered

namespace Evolves

/-- The structure of a chain is fixed when its first type is added. -/
lemma prefabLevels_eq (h : s.Evolves s') (hs' : s'.Ordered) (ht : t.index < s.types.size) :
    s'.prefabLevels t = s.prefabLevels t := by
  have hlayout : ∀ v : TypeId, v.index ≤ t.index → (s.type v).layout = (s'.type v).layout :=
    fun v hv => (h.layout v (Nat.lt_of_le_of_lt hv ht)).symm
  have hancestry : s.ancestry t = s'.ancestry t := hs'.ancestry_congr fun v hv =>
    RecordType.eq_of_layout (·.superType) (fun _ => rfl) (hlayout v hv)
  rw [prefabLevels, chain, ← hancestry, prefabLevels, chain, List.map_map, List.map_map]
  refine List.map_congr_left fun v hv => ?_
  rw [hancestry] at hv
  exact (RecordType.eq_of_layout (·.prefabLevel) (fun _ => rfl)
    (hlayout v (hs'.le_of_mem_ancestry hv))).symm

lemma inheritedLevels_eq (h : s.Evolves s') (hs' : s'.Ordered) {super : Option TypeId}
    (hsuper : ∀ u, super = some u → u.index < s.types.size) :
    s'.inheritedLevels super = s.inheritedLevels super := by
  cases super with
  | none => rfl
  | some u => exact h.prefabLevels_eq hs' (hsuper u rfl)

end Evolves

end Store

end Records
