import Records.Proofs.Prefab.Chain

/-!
# The keys of a catalog

A catalog looks a key up by its first level and the number of its super key. As long as the number
of a super key belongs to no other key, the key that is found has the structure that was asked for.
If moreover every super key is one of the keys of the catalog, the keys form a table in which a
number has one key, and so has a chain of levels.

## Main definitions

* `PrefabCatalog.Numbered`: the number of a super key belongs to no other key.
* `PrefabCatalog.Keyed`: the keys of a catalog form such a table.

## Main statements

* `PrefabCatalog.Numbered.internChain`: interning a chain of levels answers a key of it.
* `PrefabCatalog.Keyed.key_unique`: a chain of levels has one key.
* `PrefabCatalog.Keyed.intern`: interning on top of a key of the table keeps it a table.
* `PrefabCatalog.Keyed.internChain_of_mem`: interning the chain of a key changes nothing.
-/

namespace Records

namespace PrefabCatalog

variable {c : PrefabCatalog} {level : PrefabLevel} {super : Option PrefabKey}

/-- The keys of a catalog form a table: a number belongs to one key, a level on top of a super
key belongs to one key, and super keys are keys of the table. -/
structure Keyed (c : PrefabCatalog) : Prop where
  number_lt : ∀ k ∈ c.keys, k.id.number < c.issued
  number_inj : ∀ k ∈ c.keys, ∀ k' ∈ c.keys, k.id.number = k'.id.number → k = k'
  super_mem : ∀ k ∈ c.keys, ∀ k', k.superKey? = some k' → k' ∈ c.keys
  level_inj : ∀ k ∈ c.keys, ∀ k' ∈ c.keys, k.level.same k'.level →
    k.superNumber? = k'.superNumber? → k = k'

@[simp] lemma superKey?_next (c : PrefabCatalog) (level : PrefabLevel)
    (super : Option PrefabKey) : (c.next level super).superKey? = super := by
  cases super <;> rfl

/-- Interning a chain interns its supers first. -/
lemma internChain_cons (c : PrefabCatalog) (level : PrefabLevel) (supers : List PrefabLevel) :
    c.internChain (level :: supers) =
      (some (c.internLevels level supers).1, (c.internLevels level supers).2) := rfl

/-- A key that is found has the level and the number of the super key that were asked for. -/
lemma of_find?_eq_some {k : PrefabKey} (h : c.find? level super = some k) :
    k ∈ c.keys ∧ k.level.same level ∧ k.superNumber? = super.map (·.id.number) := by
  have hfound := List.find?_some h
  simp only [Bool.and_eq_true, decide_eq_true_eq] at hfound
  exact ⟨List.mem_of_find?_eq_some h, hfound⟩

lemma ne_of_find?_eq_none (h : c.find? level super = none) :
    ∀ k ∈ c.keys, k.level.same level → k.superNumber? ≠ super.map (·.id.number) := by
  intro k hk hsame hnumber
  have := List.find?_eq_none.1 h k hk
  simp [hsame, hnumber] at this

/-! ### Numbers of super keys -/

/-- The catalog has issued the number of a key and knows no other key under it. -/
def Owns (c : PrefabCatalog) (k : PrefabKey) : Prop :=
  k.id.number < c.issued ∧ ∀ u ∈ c.keys, u.id.number = k.id.number → u = k

/-- The catalog owns its keys and their super keys. -/
structure Numbered (c : PrefabCatalog) : Prop where
  key : ∀ k ∈ c.keys, c.Owns k
  super : ∀ k ∈ c.keys, ∀ k', k.superKey? = some k' → c.Owns k'

/-- What an answered key is the key of: an empty chain has none. -/
def KeyOf (c : PrefabCatalog) (levels : List PrefabLevel) : Option PrefabKey → Prop
  | none => levels = []
  | some k => k ∈ c.keys ∧ SameChain k.levels levels

lemma KeyOf.totalCount_eq {levels : List PrefabLevel} {k? : Option PrefabKey}
    (h : c.KeyOf levels k?) : k?.elim 0 PrefabKey.totalCount = PrefabLevel.totalCount levels := by
  cases k? with
  | none =>
    rw [show levels = [] from h]
    rfl
  | some k => exact h.2.totalCount_eq

/-- A number that is next to be issued is not one that was issued before. -/
lemma Owns.cons_next {k : PrefabKey} (h : c.Owns k) (level : PrefabLevel)
    (super : Option PrefabKey) :
    Owns { c with keys := c.next level super :: c.keys, issued := c.issued + 1 } k := by
  refine ⟨Nat.lt_succ_of_lt h.1, fun u hu hn => ?_⟩
  rcases List.mem_cons.1 hu with rfl | hu
  · exact absurd hn.symm (Nat.ne_of_lt h.1)
  · exact h.2 u hu hn

lemma Owns.intern {k : PrefabKey} (h : c.Owns k) (level : PrefabLevel)
    (super : Option PrefabKey) : (c.intern level super).2.Owns k := by
  cases hf : c.find? level super with
  | some k' =>
    rw [intern_of_find? hf]
    exact h
  | none =>
    rw [intern_of_find?_eq_none hf]
    exact h.cons_next level super

namespace Numbered

/-- Equal numbers of super keys mean equal super keys. -/
lemma superKey?_inj (h : c.Numbered) {k : PrefabKey} (hk : k ∈ c.keys)
    (hsuper : ∀ k' ∈ super, k' ∈ c.keys)
    (hnumber : k.superNumber? = super.map (·.id.number)) : k.superKey? = super := by
  cases hs : k.superKey? with
  | none => cases super <;> simp_all [PrefabKey.superNumber?]
  | some k' =>
    cases super with
    | none => simp [PrefabKey.superNumber?, hs] at hnumber
    | some k'' =>
      simp only [PrefabKey.superNumber?, hs, Option.map_some, Option.some.injEq] at hnumber
      rw [(h.super k hk k' hs).2 k'' (hsuper k'' rfl) hnumber.symm]

/-- Interning on top of an owned key keeps the numbers apart. -/
lemma intern (h : c.Numbered) (level : PrefabLevel) (hsuper : ∀ k ∈ super, c.Owns k) :
    (c.intern level super).2.Numbered := by
  cases hf : c.find? level super with
  | some k =>
    rw [intern_of_find? hf]
    exact h
  | none =>
    rw [intern_of_find?_eq_none hf]
    constructor
    · intro k hk
      rcases List.mem_cons.1 hk with rfl | hk
      · refine ⟨Nat.lt_succ_self _, fun u hu hn => ?_⟩
        rcases List.mem_cons.1 hu with rfl | hu
        · rfl
        · exact absurd hn (Nat.ne_of_lt (h.key u hu).1)
      · exact (h.key k hk).cons_next level super
    · intro k hk k' hk'
      rcases List.mem_cons.1 hk with rfl | hk
      · rw [superKey?_next] at hk'
        exact (hsuper k' hk').cons_next level super
      · exact (h.super k hk k' hk').cons_next level super

/-- Interning a level on top of a known key answers a key of it and keeps every key there is. -/
lemma of_intern (h : c.Numbered) (level : PrefabLevel) (hsuper : ∀ k ∈ super, k ∈ c.keys) :
    (∀ k ∈ c.keys, k ∈ (c.intern level super).2.keys) ∧
      (c.intern level super).1 ∈ (c.intern level super).2.keys ∧
      (c.intern level super).1.level.same level ∧
      (c.intern level super).1.superKey? = super := by
  cases hf : c.find? level super with
  | some k =>
    obtain ⟨hk, hl, hn⟩ := of_find?_eq_some hf
    rw [intern_of_find? hf]
    exact ⟨fun _ hk => hk, hk, hl, h.superKey?_inj hk hsuper hn⟩
  | none =>
    rw [intern_of_find?_eq_none hf]
    exact ⟨fun k hk => List.mem_cons_of_mem _ hk, List.mem_cons_self,
      PrefabLevel.same_refl level, superKey?_next c level super⟩

/-- Interning a chain answers its key. -/
lemma internChain (h : c.Numbered) (levels : List PrefabLevel) :
    (c.internChain levels).2.Numbered ∧
      (c.internChain levels).2.KeyOf levels (c.internChain levels).1 := by
  induction levels with
  | nil => exact ⟨h, rfl⟩
  | cons level supers ih =>
    obtain ⟨hnumbered, hkey⟩ := ih
    have hsuper : ∀ k ∈ (c.internChain supers).1, k ∈ (c.internChain supers).2.keys := by
      intro k hk
      rw [Option.mem_def.1 hk] at hkey
      exact hkey.1
    obtain ⟨-, hmem, hlevel, hs⟩ := hnumbered.of_intern level hsuper
    rw [internChain_cons, internLevels]
    refine ⟨hnumbered.intern level fun k hk => hnumbered.key k (hsuper k hk), hmem, ?_⟩
    rw [PrefabKey.levels_eq, hs, SameChain.cons_iff]
    refine ⟨hlevel, ?_⟩
    cases hk : (c.internChain supers).1 with
    | none =>
      rw [hk] at hkey
      rw [show supers = [] from hkey]
      exact SameChain.refl []
    | some k =>
      rw [hk] at hkey
      exact hkey.2

/-- The inherited fields that a datum leaves out are those of its super levels. -/
lemma internDatum_eq (h : c.Numbered) (d : PrefabDatum) (total : Nat) :
    c.internDatum d total =
      match d.levelFor? (PrefabLevel.totalCount d.supers) total with
      | none => (none, (c.internChain d.supers).2)
      | some level => c.internChain (level :: d.supers) := by
  rw [← (h.internChain d.supers).2.totalCount_eq]
  cases hl : d.levelFor? ((c.internChain d.supers).1.elim 0 PrefabKey.totalCount) total with
  | none => simp only [internDatum, hl]
  | some level =>
    simp only [internDatum, hl]
    rfl

end Numbered

namespace Keyed

lemma numbered (h : c.Keyed) : c.Numbered := by
  have hkey : ∀ k ∈ c.keys, c.Owns k := fun k hk =>
    ⟨h.number_lt k hk, fun u hu hn => h.number_inj u hu k hk hn⟩
  exact ⟨hkey, fun k hk k' hk' => hkey k' (h.super_mem k hk k' hk')⟩

/-- A chain of levels has one key. -/
lemma key_unique (h : c.Keyed) {k k' : PrefabKey} (hk : k ∈ c.keys) (hk' : k' ∈ c.keys)
    (hl : SameChain k.levels k'.levels) : k = k' := by
  revert k'
  induction k using PrefabKey.rec_superKey? with
  | h k ih =>
    intro k' hk' hl
    rw [k.levels_eq, k'.levels_eq, SameChain.cons_iff] at hl
    refine h.level_inj k hk k' hk' hl.1 ?_
    unfold PrefabKey.superNumber?
    cases hs : k.superKey? with
    | none =>
      cases hs' : k'.superKey? with
      | none => rfl
      | some u' =>
        have hlen := hl.2.length_eq
        simp [hs, hs', PrefabKey.levels] at hlen
    | some u =>
      cases hs' : k'.superKey? with
      | none =>
        have hlen := hl.2.length_eq
        simp [hs, hs', PrefabKey.levels] at hlen
      | some u' =>
        rw [hs, hs'] at hl
        rw [ih u hs (h.super_mem k hk u hs) (h.super_mem k' hk' u' hs') hl.2]

/-- A key that is there is found again. -/
lemma find?_of_mem (h : c.Keyed) {k : PrefabKey} (hk : k ∈ c.keys)
    (hl : k.level.same level) (hs : k.superKey? = super) : c.find? level super = some k := by
  cases hf : c.find? level super with
  | none => exact absurd (by rw [PrefabKey.superNumber?, hs]) (ne_of_find?_eq_none hf k hk hl)
  | some k' =>
    obtain ⟨hk', hl', hn⟩ := of_find?_eq_some hf
    rw [h.level_inj k' hk' k hk (PrefabLevel.same_trans hl' (PrefabLevel.same_symm hl))
      (by rw [hn, PrefabKey.superNumber?, hs])]

/-- A new key is beyond all others, and no other key has its structure. -/
lemma cons_next (h : c.Keyed) (hsuper : ∀ k ∈ super, k ∈ c.keys)
    (hf : c.find? level super = none) :
    Keyed { c with keys := c.next level super :: c.keys, issued := c.issued + 1 } := by
  have hnew := ne_of_find?_eq_none hf
  refine ⟨?_, ?_, ?_, ?_⟩
  · intro k hk
    rcases List.mem_cons.1 hk with rfl | hk
    · exact Nat.lt_succ_self _
    · exact Nat.lt_succ_of_lt (h.number_lt k hk)
  · intro k hk k' hk' hn
    rcases List.mem_cons.1 hk with rfl | hk <;> rcases List.mem_cons.1 hk' with rfl | hk'
    · rfl
    · exact absurd hn.symm (Nat.ne_of_lt (h.number_lt k' hk'))
    · exact absurd hn (Nat.ne_of_lt (h.number_lt k hk))
    · exact h.number_inj k hk k' hk' hn
  · intro k hk k' hk'
    refine List.mem_cons_of_mem _ ?_
    rcases List.mem_cons.1 hk with rfl | hk
    · rw [superKey?_next] at hk'
      exact hsuper k' hk'
    · exact h.super_mem k hk k' hk'
  · intro k hk k' hk' hsame hnumber
    rcases List.mem_cons.1 hk with rfl | hk <;> rcases List.mem_cons.1 hk' with rfl | hk'
    · rfl
    · rw [superNumber?_next] at hnumber
      exact absurd hnumber.symm (hnew k' hk' (PrefabLevel.same_symm hsame))
    · rw [superNumber?_next] at hnumber
      exact absurd hnumber (hnew k hk hsame)
    · exact h.level_inj k hk k' hk' hsame hnumber

/-- Interning a level on top of a key of the table answers a key of it, and keeps every key
there is. -/
lemma intern (h : c.Keyed) (level : PrefabLevel) (hsuper : ∀ k ∈ super, k ∈ c.keys) :
    (c.intern level super).2.Keyed ∧ (∀ k ∈ c.keys, k ∈ (c.intern level super).2.keys) ∧
      (c.intern level super).1 ∈ (c.intern level super).2.keys ∧
      (c.intern level super).1.level.same level ∧
      (c.intern level super).1.superKey? = super := by
  refine ⟨?_, h.numbered.of_intern level hsuper⟩
  cases hf : c.find? level super with
  | some k =>
    rw [intern_of_find? hf]
    exact h
  | none =>
    rw [intern_of_find?_eq_none hf]
    exact h.cons_next hsuper hf

/-- Interning the chain of a known key answers the key and changes nothing. -/
lemma internChain_of_mem (h : c.Keyed) {k : PrefabKey} (hk : k ∈ c.keys)
    {levels : List PrefabLevel} (hl : SameChain k.levels levels) :
    c.internChain levels = (some k, c) := by
  induction k using PrefabKey.rec_superKey? generalizing levels with
  | h k ih =>
    rw [k.levels_eq] at hl
    cases hl with
    | @cons _ level _ supers hlevel hsupers =>
      have hrec : c.internChain supers = (k.superKey?, c) := by
        cases hs : k.superKey? with
        | none =>
          rw [hs] at hsupers
          rw [SameChain.nil_left.1 hsupers]
          rfl
        | some k' =>
          rw [hs] at hsupers
          exact ih k' hs (h.super_mem k hk k' hs) hsupers
      simp only [PrefabCatalog.internChain, hrec]
      rw [intern_of_find? (h.find?_of_mem hk hlevel rfl)]

end Keyed

end PrefabCatalog

end Records
