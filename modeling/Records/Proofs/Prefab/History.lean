import Records.Proofs.Prefab.Keys
import Mathlib.Data.Finset.Dedup

/-!
# Histories of a catalog

A catalog is asked to intern tuples, one after the other, and is reset from time to time. It
compares super keys by number. If every super key that is handed in was answered by the catalog
since the last reset, this comes to comparing whole structures.

## Main definitions

* `KeyTuple.Same`: two tuples agree, with super keys compared by their whole structure.
* `History.Reachable`: the histories of a catalog.
* `History.Canonical`: keys stand for structures.

## Main statements

* `History.Reachable.canonical`: in every history keys stand for structures.
-/

namespace Records

/-! ### Tuples -/

/-- What a catalog is asked to intern. -/
structure KeyTuple where
  name : Symbol
  initCount : Nat
  autoCount : Nat
  autoValue : Value
  /-- The mutable init fields, in any order and with repetitions. -/
  mutables : List Nat
  super : Option PrefabKey
deriving Inhabited

namespace KeyTuple

variable {x y z : KeyTuple}

/-- The first level of the key. -/
def level (x : KeyTuple) : PrefabLevel where
  name := x.name
  initCount := x.initCount
  autoCount := x.autoCount
  autoValue := x.autoValue
  mutables := .ofList x.mutables

/-- The structure of the super key. -/
def superLevels (x : KeyTuple) : List PrefabLevel := x.super.elim [] PrefabKey.levels

/-- Two tuples agree in every part. Mutable fields are compared as sets, super keys by their
whole structure. -/
structure Same (x y : KeyTuple) : Prop where
  name : x.name = y.name
  initCount : x.initCount = y.initCount
  autoCount : x.autoCount = y.autoCount
  autoValue : x.autoValue == y.autoValue
  mutables : x.mutables.toFinset = y.mutables.toFinset
  super : SameChain x.superLevels y.superLevels

lemma ofList_eq_iff {l m : List Nat} :
    FieldSet.ofList l = FieldSet.ofList m ↔ l.toFinset = m.toFinset := by
  rw [List.toFinset.ext_iff]
  constructor
  · intro h i
    rw [← FieldSet.mem_ofList, h, FieldSet.mem_ofList]
  · intro h
    refine FieldSet.ext_mem fun i => ?_
    rw [FieldSet.mem_ofList, h, FieldSet.mem_ofList]

lemma same_iff :
    x.Same y ↔ SameChain (x.level :: x.superLevels) (y.level :: y.superLevels) := by
  rw [SameChain.cons_iff, PrefabLevel.same_iff]
  constructor
  · rintro ⟨hname, hinit, hauto, hvalue, hmutables, hsuper⟩
    exact ⟨⟨hname, hinit, hauto, hvalue, ofList_eq_iff.2 hmutables⟩, hsuper⟩
  · rintro ⟨⟨hname, hinit, hauto, hvalue, hmutables⟩, hsuper⟩
    exact ⟨hname, hinit, hauto, hvalue, ofList_eq_iff.1 hmutables, hsuper⟩

instance : DecidableRel SameChain := fun a b => inferInstanceAs (Decidable (List.Forall₂ _ a b))

instance : DecidableRel Same := fun _ _ => decidable_of_iff _ same_iff.symm

lemma Same.symm (h : x.Same y) : y.Same x := same_iff.2 (same_iff.1 h).symm

lemma Same.trans (h : x.Same y) (h' : y.Same z) : x.Same z :=
  same_iff.2 ((same_iff.1 h).trans (same_iff.1 h'))

/-- A level of a chain as a tuple on top of a super key. -/
def ofLevel (l : PrefabLevel) (super : Option PrefabKey) : KeyTuple where
  name := l.name
  initCount := l.initCount
  autoCount := l.autoCount
  autoValue := l.autoValue
  mutables := l.mutables.indices
  super := super

lemma level_ofLevel (l : PrefabLevel) (super : Option PrefabKey) : (ofLevel l super).level = l := by
  rw [level, ofLevel, FieldSet.ofList_indices]

end KeyTuple

/-! ### Histories -/

/-- A tuple that was interned and the key it was answered with. -/
structure Interning where
  tuple : KeyTuple
  key : PrefabKey

/-- A catalog and what it was asked to intern, the latest first. -/
structure History where
  catalog : PrefabCatalog
  /-- The calls since the last reset. -/
  recent : List Interning := []
  /-- The calls before it. -/
  past : List Interning := []

namespace History

/-- Intern a tuple. -/
def intern (H : History) (x : KeyTuple) : History where
  catalog := (H.catalog.intern x.level x.super).2
  recent := ⟨x, (H.catalog.intern x.level x.super).1⟩ :: H.recent
  past := H.past

/-- Reset the catalog. -/
def reset (H : History) : History where
  catalog := H.catalog.reset
  past := H.recent ++ H.past

/-- A tuple has no super key, or one that was answered since the last reset. -/
def Admits (H : History) (x : KeyTuple) : Prop := ∀ k ∈ x.super, ∃ a ∈ H.recent, a.key = k

/-- The histories of a catalog. Types may be registered in between. -/
inductive Reachable : History → Prop
  | start (owner : RegistryId) : Reachable { catalog := { owner } }
  | intern {H : History} {x : KeyTuple} : H.Reachable → H.Admits x → (H.intern x).Reachable
  | register {H : History} (k : PrefabKey) (t : TypeId) :
      H.Reachable → Reachable { H with catalog := (H.catalog.register k t).2 }
  | reset {H : History} : H.Reachable → H.reset.Reachable

/-- The distinct tuples that were interned since the last reset, each where it came first. -/
def distinct (H : History) : List KeyTuple :=
  (H.recent.map Interning.tuple).pwFilter fun x y => ¬x.Same y

/-- Keys stand for structures. -/
structure Canonical (H : History) : Prop where
  /-- One key is answered exactly for tuples that agree in every part. -/
  key_eq_iff : ∀ a ∈ H.recent, ∀ b ∈ H.recent, a.key = b.key ↔ a.tuple.Same b.tuple
  /-- A key has the contents that were asked for. -/
  contents : ∀ a ∈ H.recent ++ H.past,
    a.key.level.same a.tuple.level ∧ a.key.superKey? = a.tuple.super
  /-- Keys that compare equal are equal in every part, whenever they were answered. -/
  eq_of_beq : ∀ a ∈ H.recent ++ H.past, ∀ b ∈ H.recent ++ H.past, a.key == b.key → a.key = b.key
  /-- A number that was issued before a reset is not issued after it. -/
  past_ne : ∀ a ∈ H.past, ∀ b ∈ H.recent, a.key.id.number ≠ b.key.id.number
  /-- A tuple that is new is answered with a number that was never issued before. -/
  fresh : ∀ x, H.Admits x → (∀ a ∈ H.recent, ¬a.tuple.Same x) → ∀ a ∈ H.recent ++ H.past,
    a.key.id.number ≠ (H.catalog.intern x.level x.super).1.id.number
  /-- There are as many keys as distinct tuples. -/
  keyCount : H.catalog.keyCount = H.distinct.length

/-- Intern a chain of levels, each on top of the key of the levels behind it. -/
def internChain (H : History) : List PrefabLevel → History
  | [] => H
  | level :: supers =>
    (H.internChain supers).intern (KeyTuple.ofLevel level (H.catalog.internChain supers).1)

/-! ### What a catalog remembers of its history -/

/-- The keys of the catalog are those that were answered since the last reset, and all numbers
before them are smaller. -/
structure Sound (H : History) : Prop where
  keyed : H.catalog.Keyed
  mem_keys : ∀ k, k ∈ H.catalog.keys ↔ ∃ a ∈ H.recent, a.key = k
  contents : ∀ a ∈ H.recent ++ H.past,
    a.key.level.same a.tuple.level ∧ a.key.superKey? = a.tuple.super
  past_lt : ∀ a ∈ H.past, a.key.id.number < H.catalog.issued
  past_lt_keys : ∀ a ∈ H.past, ∀ k ∈ H.catalog.keys, a.key.id.number < k.id.number
  past_inj : ∀ a ∈ H.past, ∀ b ∈ H.past, a.key.id.number = b.key.id.number → a.key = b.key

variable {H : History} {x : KeyTuple} {a b : Interning}

namespace Sound

lemma key_mem (h : H.Sound) (ha : a ∈ H.recent) : a.key ∈ H.catalog.keys :=
  (h.mem_keys a.key).2 ⟨a, ha, rfl⟩

lemma super_mem (h : H.Sound) (hx : H.Admits x) : ∀ k ∈ x.super, k ∈ H.catalog.keys :=
  fun k hk => (h.mem_keys k).2 (hx k hk)

/-- The structure of an answered key is that of its tuple. -/
lemma sameChain (h : H.Sound) (ha : a ∈ H.recent ++ H.past) :
    SameChain a.key.levels (a.tuple.level :: a.tuple.superLevels) := by
  obtain ⟨hlevel, hsuper⟩ := h.contents a ha
  rw [a.key.levels_eq, hsuper, SameChain.cons_iff]
  exact ⟨hlevel, SameChain.refl _⟩

lemma key_eq_iff (h : H.Sound) (ha : a ∈ H.recent) (hb : b ∈ H.recent) :
    a.key = b.key ↔ a.tuple.Same b.tuple := by
  have hla := h.sameChain (List.mem_append_left _ ha)
  have hlb := h.sameChain (List.mem_append_left _ hb)
  rw [KeyTuple.same_iff]
  constructor
  · intro heq
    rw [heq] at hla
    exact hla.symm.trans hlb
  · intro hsame
    exact h.keyed.key_unique (h.key_mem ha) (h.key_mem hb) (hla.trans (hsame.trans hlb.symm))

lemma start (owner : RegistryId) : Sound { catalog := { owner } } where
  keyed := ⟨nofun, nofun, nofun, nofun⟩
  mem_keys k := by simp
  contents := nofun
  past_lt := nofun
  past_lt_keys := nofun
  past_inj := nofun

/-- The numbers of the keys after a call are those before it, or the next one. -/
lemma number_intern (H : History) (x : KeyTuple) :
    H.catalog.issued ≤ (H.intern x).catalog.issued ∧
      ∀ k ∈ (H.intern x).catalog.keys, k ∈ H.catalog.keys ∨ k.id.number = H.catalog.issued := by
  cases hf : H.catalog.find? x.level x.super with
  | some k =>
    rw [History.intern, PrefabCatalog.intern_of_find? hf]
    exact ⟨Nat.le_refl _, fun k hk => .inl hk⟩
  | none =>
    rw [History.intern, PrefabCatalog.intern_of_find?_eq_none hf]
    refine ⟨Nat.le_succ _, fun k hk => ?_⟩
    rcases List.mem_cons.1 hk with rfl | hk
    · exact .inr rfl
    · exact .inl hk

/-- The keys after a call are those before it and the one that was answered. -/
lemma mem_keys_intern (h : H.Sound) (x : KeyTuple) (k : PrefabKey) :
    k ∈ (H.intern x).catalog.keys ↔ ∃ a ∈ (H.intern x).recent, a.key = k := by
  show k ∈ (H.catalog.intern x.level x.super).2.keys ↔
    ∃ a ∈ (⟨x, (H.catalog.intern x.level x.super).1⟩ : Interning) :: H.recent, a.key = k
  rw [List.exists_mem_cons_iff, ← h.mem_keys]
  cases hf : H.catalog.find? x.level x.super with
  | some k' =>
    rw [PrefabCatalog.intern_of_find? hf]
    refine ⟨.inr, fun hk => hk.elim ?_ id⟩
    rintro rfl
    exact (PrefabCatalog.of_find?_eq_some hf).1
  | none =>
    rw [PrefabCatalog.intern_of_find?_eq_none hf]
    exact List.mem_cons.trans (or_congr_left eq_comm)

lemma intern (h : H.Sound) (hx : H.Admits x) : (H.intern x).Sound := by
  obtain ⟨hkeyed, -, -, hlevel, hsuper⟩ := h.keyed.intern x.level (h.super_mem hx)
  obtain ⟨hissued, hnumber⟩ := number_intern H x
  refine ⟨hkeyed, h.mem_keys_intern x, ?_, ?_, ?_, h.past_inj⟩
  · exact List.forall_mem_cons.2 ⟨⟨hlevel, hsuper⟩, h.contents⟩
  · exact fun a ha => Nat.lt_of_lt_of_le (h.past_lt a ha) hissued
  · intro a ha k hk
    rcases hnumber k hk with hk | hk
    · exact h.past_lt_keys a ha k hk
    · exact hk ▸ h.past_lt a ha

/-- Registering a type changes no key. -/
lemma of_catalog (h : H.Sound) {c : PrefabCatalog} (hkeys : c.keys = H.catalog.keys)
    (hissued : c.issued = H.catalog.issued) : Sound { H with catalog := c } where
  keyed := ⟨by rw [hkeys, hissued]; exact h.keyed.number_lt,
    by rw [hkeys]; exact h.keyed.number_inj, by rw [hkeys]; exact h.keyed.super_mem,
    by rw [hkeys]; exact h.keyed.level_inj⟩
  mem_keys := by rw [hkeys]; exact h.mem_keys
  contents := h.contents
  past_lt := by rw [hissued]; exact h.past_lt
  past_lt_keys := by rw [hkeys]; exact h.past_lt_keys
  past_inj := h.past_inj

/-- Keys with one number are one key, whenever they were answered. -/
lemma number_inj (h : H.Sound) (ha : a ∈ H.recent ++ H.past) (hb : b ∈ H.recent ++ H.past)
    (hn : a.key.id.number = b.key.id.number) : a.key = b.key := by
  rcases List.mem_append.1 ha with ha | ha <;> rcases List.mem_append.1 hb with hb | hb
  · exact h.keyed.number_inj _ (h.key_mem ha) _ (h.key_mem hb) hn
  · exact absurd hn.symm (Nat.ne_of_lt (h.past_lt_keys b hb _ (h.key_mem ha)))
  · exact absurd hn (Nat.ne_of_lt (h.past_lt_keys a ha _ (h.key_mem hb)))
  · exact h.past_inj a ha b hb hn

lemma reset (h : H.Sound) : H.reset.Sound where
  keyed := ⟨nofun, nofun, nofun, nofun⟩
  mem_keys k := by simp [History.reset, PrefabCatalog.reset]
  contents := h.contents
  past_lt a ha := by
    rcases List.mem_append.1 ha with ha | ha
    · exact h.keyed.number_lt _ (h.key_mem ha)
    · exact h.past_lt a ha
  past_lt_keys := nofun
  past_inj _ ha _ hb hn := h.number_inj ha hb hn

/-- A tuple is found exactly if one that agrees with it was interned since the last reset. -/
lemma find?_eq_none_iff (h : H.Sound) (hx : H.Admits x) :
    H.catalog.find? x.level x.super = none ↔ ∀ a ∈ H.recent, ¬x.Same a.tuple := by
  have hnew : (⟨x, (H.catalog.intern x.level x.super).1⟩ : Interning) ∈ (H.intern x).recent :=
    List.mem_cons_self
  constructor
  · intro hf a ha hsame
    -- the tuple would be answered with an old key, whose number is not the next one
    have hkey := ((h.intern hx).key_eq_iff hnew (List.mem_cons_of_mem _ ha)).2 hsame
    rw [PrefabCatalog.intern_of_find?_eq_none hf] at hkey
    have hlt := h.keyed.number_lt _ (h.key_mem ha)
    rw [← hkey] at hlt
    exact Nat.lt_irrefl _ hlt
  · intro hall
    cases hf : H.catalog.find? x.level x.super with
    | none => rfl
    | some k =>
      obtain ⟨a, ha, rfl⟩ := (h.mem_keys k).1 (PrefabCatalog.of_find?_eq_some hf).1
      refine absurd (((h.intern hx).key_eq_iff hnew (List.mem_cons_of_mem _ ha)).1 ?_) (hall a ha)
      rw [PrefabCatalog.intern_of_find? hf]

end Sound

/-! ### Counting keys -/

/-- A tuple agrees with none of the interned ones if it agrees with none of the distinct ones. -/
lemma forall_mem_distinct_iff (H : History) (x : KeyTuple) :
    (∀ y ∈ H.distinct, ¬x.Same y) ↔ ∀ a ∈ H.recent, ¬x.Same a.tuple := by
  rw [distinct, List.forall_mem_pwFilter, List.forall_mem_map]
  intro x y z hxz
  by_contra hor
  obtain ⟨hxy, hyz⟩ := not_or.1 hor
  exact hxz ((not_not.1 hxy).trans (not_not.1 hyz))

lemma keyCount_intern (h : H.Sound) (hx : H.Admits x)
    (hcount : H.catalog.keyCount = H.distinct.length) :
    (H.intern x).catalog.keyCount = (H.intern x).distinct.length := by
  have hnone := (h.find?_eq_none_iff hx).trans (H.forall_mem_distinct_iff x).symm
  show (H.catalog.intern x.level x.super).2.keys.length =
    ((x :: H.recent.map Interning.tuple).pwFilter _).length
  cases hf : H.catalog.find? x.level x.super with
  | some k =>
    have hknown : ¬∀ y ∈ H.distinct, ¬x.Same y := fun hall => by
      rw [hnone.2 hall] at hf
      cases hf
    rw [PrefabCatalog.intern_of_find? hf, List.pwFilter_cons_of_neg hknown]
    exact hcount
  | none =>
    rw [PrefabCatalog.intern_of_find?_eq_none hf, List.pwFilter_cons_of_pos (hnone.1 hf),
      List.length_cons, List.length_cons]
    exact congrArg (· + 1) hcount

/-! ### Every history -/

lemma register_keys (c : PrefabCatalog) (k : PrefabKey) (t : TypeId) :
    (c.register k t).2.keys = c.keys ∧ (c.register k t).2.issued = c.issued := by
  unfold PrefabCatalog.register
  split <;> exact ⟨rfl, rfl⟩

namespace Reachable

lemma sound (h : H.Reachable) : H.Sound := by
  induction h with
  | start owner => exact .start owner
  | intern _ hx ih => exact ih.intern hx
  | register k t _ ih =>
    obtain ⟨hkeys, hissued⟩ := register_keys _ k t
    exact ih.of_catalog hkeys hissued
  | reset _ ih => exact ih.reset

lemma keyCount_eq (h : H.Reachable) : H.catalog.keyCount = H.distinct.length := by
  induction h with
  | start owner => rfl
  | intern h hx ih => exact keyCount_intern h.sound hx ih
  | register k t _ ih => exact (congrArg List.length (register_keys _ k t).1).trans ih
  | reset => rfl

/-- In every history of a catalog keys stand for structures. -/
theorem canonical (h : H.Reachable) : H.Canonical where
  key_eq_iff _ ha _ hb := h.sound.key_eq_iff ha hb
  contents := h.sound.contents
  eq_of_beq _ ha _ hb hbeq := h.sound.number_inj ha hb (beq_iff_eq.1 hbeq)
  past_ne a ha b hb := Nat.ne_of_lt (h.sound.past_lt_keys a ha _ (h.sound.key_mem hb))
  fresh x hx hnew a ha hn := by
    have hf := (h.sound.find?_eq_none_iff hx).2 fun a ha hsame => hnew a ha hsame.symm
    rw [PrefabCatalog.intern_of_find?_eq_none hf] at hn
    have hlt : a.key.id.number < H.catalog.issued := by
      rcases List.mem_append.1 ha with ha | ha
      · exact h.sound.keyed.number_lt _ (h.sound.key_mem ha)
      · exact h.sound.past_lt a ha
    exact absurd hn (Nat.ne_of_lt hlt)
  keyCount := h.keyCount_eq

/-- Interning a chain is a sequence of calls, each with the key that the last one answered. -/
lemma internChain (h : H.Reachable) (levels : List PrefabLevel) :
    (H.internChain levels).Reachable ∧
      (H.internChain levels).catalog = (H.catalog.internChain levels).2 ∧
      ∀ k ∈ (H.catalog.internChain levels).1, ∃ a ∈ (H.internChain levels).recent, a.key = k := by
  induction levels with
  | nil => exact ⟨h, rfl, nofun⟩
  | cons level supers ih =>
    obtain ⟨hreach, hcatalog, hsuper⟩ := ih
    have hintern : (H.internChain supers).catalog.intern
        (KeyTuple.ofLevel level (H.catalog.internChain supers).1).level
        (KeyTuple.ofLevel level (H.catalog.internChain supers).1).super =
          H.catalog.internLevels level supers := by
      rw [KeyTuple.level_ofLevel, hcatalog]
      rfl
    refine ⟨hreach.intern hsuper, congrArg Prod.snd hintern, fun k hk => ?_⟩
    refine ⟨_, List.mem_cons_self, ?_⟩
    rw [PrefabCatalog.internChain_cons] at hk
    exact (congrArg Prod.fst hintern).trans (Option.some.inj hk)

end Reachable

/-- A point with two mutable fields. -/
def pointTuple (mutables : List Nat) : KeyTuple where
  name := ⟨"pt"⟩
  initCount := 2
  autoCount := 0
  autoValue := .bool false
  mutables := mutables
  super := none

/-- A point with an auto field on top of a key. -/
def labelledTuple (super : PrefabKey) : KeyTuple where
  name := ⟨"pt-label"⟩
  initCount := 1
  autoCount := 1
  autoValue := .list [.symbol ⟨"none"⟩]
  mutables := []
  super := some super

/-- Points are interned before a reset and after it. -/
def rebuilt : History :=
  let H := ((History.mk { owner := ⟨0⟩ } [] []).intern (pointTuple [1, 0, 1])).reset.intern
    (pointTuple [0, 1])
  (H.intern (pointTuple [1, 0])).intern (labelledTuple (H.catalog.keys.headD default))

lemma admits_pointTuple (H : History) (mutables : List Nat) : H.Admits (pointTuple mutables) :=
  fun _ hk => by cases hk

lemma reachable_rebuilt : rebuilt.Reachable := by
  refine Reachable.intern ?_ fun k hk => ⟨_, List.mem_cons_self, Option.some.inj hk⟩
  refine Reachable.intern ?_ (admits_pointTuple _ _)
  refine Reachable.intern ?_ (admits_pointTuple _ _)
  exact ((Reachable.start ⟨0⟩).intern (admits_pointTuple _ _)).reset

/-- The key from before the reset has been issued, but is no longer held. -/
theorem Reachable.canonical_rebuilt :
    rebuilt.Reachable ∧ rebuilt.Canonical ∧ rebuilt.catalog.keyCount = 2 ∧
      rebuilt.catalog.issued = 3 :=
  ⟨reachable_rebuilt, reachable_rebuilt.canonical, rfl, rfl⟩

end History

end Records
