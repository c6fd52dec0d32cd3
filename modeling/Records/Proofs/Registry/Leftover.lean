import Records.Proofs.Registry.Identity
import Records.Proofs.Registry.Ledger
import Records.Proofs.Registry.Retention
import Records.Proofs.Registry.Written

/-!
# What failed look-ups leave behind

A printed key is interned from its last level on, and the first level is completed, the fields are
counted and the type is provided only afterwards. A look-up or a literal that fails then leaves
what it interned, and maybe the type it registered. Nothing is left exactly if everything up to
the failure was there before.

## Main definitions

* `PrefabCatalog.Knows`: the keys of a chain of levels are known.
* `PrefabCatalog.Foresees`: everything that a printed key asks for is there.
* `LookupFails`: a look-up by a printed key, or a literal, fails.

## Main statements

* `PrefabCatalog.knows_iff`: interning a chain adds no key exactly if its keys are known.
* `LookupFails.sameEntries_iff`: when a failure leaves the catalog as it was.
-/

namespace Records

variable {r : RegistryId} {s s' : Store} {k : PrefabKey} {t : TypeId} {datum : Value} {total : Nat}

namespace PrefabCatalog

variable {c c' : PrefabCatalog} {level : PrefabLevel} {levels : List PrefabLevel}
  {super k? : Option PrefabKey} {d : PrefabDatum}

/-! ### Known keys -/

/-- The keys of a chain of levels are known, each one on top of the next. -/
inductive Knows (c : PrefabCatalog) : List PrefabLevel → Option PrefabKey → Prop
  | nil : Knows c [] none
  | cons {level : PrefabLevel} {supers : List PrefabLevel} {super : Option PrefabKey}
      {k : PrefabKey} (h : Knows c supers super) (hk : c.find? level super = some k) :
      Knows c (level :: supers) (some k)

lemma Knows.internChain (h : c.Knows levels k?) : c.internChain levels = (k?, c) := by
  induction h with
  | nil => rfl
  | cons _ hk ih =>
    rw [internChain_cons, internLevels, ih]
    simp only [intern_of_find? hk]

/-- A level that is not known adds a key. -/
lemma keys_intern_eq_iff :
    (c.intern level super).2.keys = c.keys ↔ ∃ k, c.find? level super = some k := by
  cases hf : c.find? level super with
  | some k =>
    rw [intern_of_find? hf]
    exact iff_of_true rfl ⟨k, rfl⟩
  | none =>
    rw [intern_of_find?_eq_none hf]
    exact iff_of_false (List.cons_ne_self _ _) nofun

/-- Keys are listed in front of those that were there. -/
lemma suffix_intern (c : PrefabCatalog) (level : PrefabLevel) (super : Option PrefabKey) :
    c.keys <:+ (c.intern level super).2.keys := by
  cases hf : c.find? level super with
  | some k =>
    have hsame := keys_intern_eq_iff.2 ⟨k, hf⟩
    exact hsame ▸ List.suffix_rfl
  | none =>
    rw [intern_of_find?_eq_none hf]
    exact List.suffix_cons _ _

lemma suffix_internChain (c : PrefabCatalog) (levels : List PrefabLevel) :
    c.keys <:+ (c.internChain levels).2.keys := by
  induction levels with
  | nil => exact List.suffix_rfl
  | cons level supers ih => exact ih.trans (suffix_intern _ level _)

/-- If a catalog grows in two steps and has the same keys in the end, it had them in between. -/
lemma keys_eq_of_suffix (h : c.keys <:+ c'.keys)
    (hkeys : (c'.intern level super).2.keys = c.keys) : c'.keys = c.keys := by
  have hle := (suffix_intern c' level super).length_le
  rw [hkeys] at hle
  exact (h.eq_of_length_le hle).symm

/-- Interning a chain adds no key exactly if its keys are known. -/
theorem knows_iff :
    (c.internChain levels).2.keys = c.keys ↔ ∃ k?, c.Knows levels k? := by
  refine ⟨fun hkeys => ?_, fun ⟨k?, h⟩ => congrArg (·.2.keys) h.internChain⟩
  induction levels with
  | nil => exact ⟨none, .nil⟩
  | cons level supers ih =>
    rw [internChain_cons, internLevels] at hkeys
    obtain ⟨super, hsuper⟩ := ih (keys_eq_of_suffix (c.suffix_internChain supers) hkeys)
    rw [hsuper.internChain] at hkeys
    obtain ⟨k, hk⟩ := keys_intern_eq_iff.1 hkeys
    exact ⟨some k, hsuper.cons hk⟩

/-- Everything that a printed key asks for is there: the keys of its super levels, and, if its
first level can be completed, the key of this as well, with a type if the fields are as many as
the instance has. -/
def Foresees (c : PrefabCatalog) (d : PrefabDatum) (total : Nat) : Prop :=
  ∃ super, c.Knows d.supers super ∧
    ∀ l, d.levelFor? (super.elim 0 PrefabKey.totalCount) total = some l →
      ∃ k, c.find? l super = some k ∧ (k.totalCount = total → ∃ t, c.typeFor? k = some t)

/-- A printed key is answered if its first level can be completed. -/
lemma exists_levelFor?_of_internDatum (h : (c.internDatum d total).1 = some k) :
    ∃ l, d.levelFor? ((c.internChain d.supers).1.elim 0 PrefabKey.totalCount) total = some l ∧
      ((c.internChain d.supers).2.intern l (c.internChain d.supers).1).1 = k ∧
      (c.internDatum d total).2 =
        ((c.internChain d.supers).2.intern l (c.internChain d.supers).1).2 := by
  unfold internDatum at h ⊢
  cases hl : d.levelFor? ((c.internChain d.supers).1.elim 0 PrefabKey.totalCount) total with
  | none =>
    simp only [hl] at h
    cases h
  | some l =>
    simp only [hl, Option.some.injEq] at h
    exact ⟨l, rfl, h, by simp only [hl]⟩

lemma foresees_iff_of_none (h : (c.internDatum d total).1 = none) :
    c.Foresees d total ↔ (c.internDatum d total).2.keys = c.keys := by
  have hlevel : d.levelFor? ((c.internChain d.supers).1.elim 0 PrefabKey.totalCount) total =
      none := by
    rw [Option.eq_none_iff_forall_ne_some]
    intro l hl
    simp only [internDatum, hl] at h
    cases h
  have hrun : (c.internDatum d total).2 = (c.internChain d.supers).2 := by
    simp only [internDatum, hlevel]
  rw [hrun, knows_iff]
  refine exists_congr fun super => and_iff_left_of_imp fun hsuper l hl => ?_
  rw [hsuper.internChain] at hlevel
  cases hlevel.symm.trans hl

lemma foresees_iff_of_some (h : (c.internDatum d total).1 = some k) :
    c.Foresees d total ↔ (c.internDatum d total).2.keys = c.keys ∧
      (k.totalCount = total → ∃ t, c.typeFor? k = some t) := by
  obtain ⟨l, hl, hk, hcatalog⟩ := exists_levelFor?_of_internDatum h
  rw [hcatalog]
  constructor
  · rintro ⟨super, hsuper, hall⟩
    rw [hsuper.internChain] at hl hk ⊢
    obtain ⟨k', hk', htype⟩ := hall l hl
    rw [intern_of_find? hk'] at hk ⊢
    obtain rfl : k' = k := hk
    exact ⟨rfl, htype⟩
  · rintro ⟨hkeys, htype⟩
    obtain ⟨super, hsuper⟩ := knows_iff.1 <|
      keys_eq_of_suffix (c.suffix_internChain d.supers) hkeys
    rw [hsuper.internChain] at hl hk hkeys
    obtain ⟨k', hk'⟩ := keys_intern_eq_iff.1 hkeys
    rw [intern_of_find? hk'] at hk
    obtain rfl : k' = k := hk
    refine ⟨super, hsuper, fun l' hl' => ?_⟩
    cases hl.symm.trans hl'
    exact ⟨k', hk', htype⟩

/-- Two catalogs have the same keys, and the same types registered for them. -/
structure SameEntries (c c' : PrefabCatalog) : Prop where
  keys : c'.keys = c.keys
  types : c'.types = c.types

end PrefabCatalog

/-! ### Providing types -/

/-- Providing a type registers none exactly if one was registered. -/
lemma Store.Provides.types_eq_iff (h : Store.Provides r k s t s')
    (hr : r.index < s.registries.size) :
    (s'.catalog r).types = (s.catalog r).types ↔ ∃ u, s.typeFor? r k = some u := by
  constructor
  · intro htypes
    refine ⟨t, (?_ : (s.catalog r).typeFor? k = some t)⟩
    rw [PrefabCatalog.typeFor?, ← htypes]
    exact h.typeFor?_self hr
  · rintro ⟨u, hu⟩
    cases h with
    | found _ => rfl
    | root hk _ _ => cases hk.symm.trans hu
    | sub hk _ _ _ => cases hk.symm.trans hu

/-- Keys were issued, and then a type is provided. -/
lemma Store.Provides.leavesEntries_iff {c : PrefabCatalog} (hr : r.index < s.registries.size)
    (htypes : c.types = (s.catalog r).types)
    (h : Store.Provides r k (s.updateCatalog r c) t s') :
    (s.catalog r).SameEntries (s'.catalog r) ↔
      c.keys = (s.catalog r).keys ∧ ∃ u, (s.catalog r).typeFor? k = some u := by
  have hr' : r.index < (s.updateCatalog r c).registries.size := by
    simpa [Store.updateCatalog] using hr
  have hkeys := h.keys_eq hr'
  have hregisters := h.types_eq_iff hr'
  have htype : (s.updateCatalog r c).typeFor? r k = (s.catalog r).typeFor? k := by
    show ((s.updateCatalog r c).catalog r).typeFor? k = _
    rw [Store.catalog_updateCatalog hr, PrefabCatalog.typeFor?, htypes]
    rfl
  rw [Store.catalog_updateCatalog hr] at hkeys hregisters
  rw [htypes, htype] at hregisters
  rw [← hkeys, ← hregisters]
  exact ⟨fun hsame => ⟨hsame.keys, hsame.types⟩, fun hsame => ⟨hsame.1, hsame.2⟩⟩

/-! ### Failures -/

/-- A look-up by a printed key, or a literal, fails, and leaves a store. -/
inductive LookupFails (r : RegistryId) (s : Store) (datum : Value) (total : Nat) : Store → Prop
  | key {e : Failure} {s' : Store} (h : (keyOfDatum r datum total).run s = (.error e, s')) :
      LookupFails r s datum total s'
  | type {e : Failure} {s' : Store}
      (h : (prefabTypeOfDatum r datum total).run s = (.error e, s')) :
      LookupFails r s datum total s'
  | literal {e : Failure} {s' : Store} {values : List Value} (hlength : values.length = total)
      (h : (prefabInstance r datum values).run s = (.error e, s')) :
      LookupFails r s datum total s'

/-- No key is answered. -/
lemma sameEntries_iff_of_keyOfDatum (hr : r.index < s.registries.size) {e : Failure}
    (h : (keyOfDatum r datum total).run s = (.error e, s')) :
    (s.catalog r).SameEntries (s'.catalog r) ↔
      ∀ d, PrefabDatum.parse? datum = some d → (s.catalog r).Foresees d total := by
  rw [run_keyOfDatum] at h
  cases hd : PrefabDatum.parse? datum with
  | none =>
    rw [hd] at h
    cases h
    exact iff_of_true ⟨rfl, rfl⟩ nofun
  | some d =>
    rw [hd] at h
    have htypes := (s.catalog r).types_internDatum d total
    rcases hintern : (s.catalog r).internDatum d total with ⟨_ | k, c⟩
    · have hforesees := PrefabCatalog.foresees_iff_of_none (congrArg Prod.fst hintern)
      rw [hintern] at htypes hforesees
      simp only [hintern] at h
      cases h
      rw [Store.catalog_updateCatalog hr]
      refine ⟨fun hsame => ?_, fun hall => ⟨hforesees.1 (hall d rfl), htypes⟩⟩
      rintro _ ⟨⟩
      exact hforesees.2 hsame.keys
    · simp only [hintern] at h
      cases h

/-- A key is answered, and what follows fails. -/
lemma run_keyOfDatum_eq_ok {s₁ : Store} (h : (keyOfDatum r datum total).run s = (.ok k, s₁)) :
    ∃ d, PrefabDatum.parse? datum = some d ∧ ((s.catalog r).internDatum d total).1 = some k ∧
      s₁ = s.updateCatalog r ((s.catalog r).internDatum d total).2 := by
  rw [run_keyOfDatum] at h
  cases hd : PrefabDatum.parse? datum with
  | none =>
    rw [hd] at h
    cases h
  | some d =>
    rw [hd] at h
    refine ⟨d, rfl, ?_⟩
    rcases hintern : (s.catalog r).internDatum d total with ⟨_ | k, c⟩ <;>
      simp only [hintern] at h
    · cases h
    · cases h
      exact ⟨rfl, rfl⟩

/-- A literal fails for the number of its fields: that of its key, or that of the type. -/
lemma sameEntries_iff_of_prefabInstance (hr : r.index < s.registries.size) {e : Failure}
    {values : List Value} (h : (prefabInstance r datum values).run s = (.error e, s')) :
    (s.catalog r).SameEntries (s'.catalog r) ↔
      ∀ d, PrefabDatum.parse? datum = some d → (s.catalog r).Foresees d values.length := by
  rw [prefabInstance, StoreM.run_bind] at h
  rcases hkey : (keyOfDatum r datum values.length).run s with ⟨e' | k, s₁⟩
  · simp only [hkey] at h
    cases h
    exact sameEntries_iff_of_keyOfDatum hr hkey
  · obtain ⟨d, hd, hk, rfl⟩ := run_keyOfDatum_eq_ok hkey
    have hforesees := PrefabCatalog.foresees_iff_of_some hk
    have htypes := (s.catalog r).types_internDatum d values.length
    simp only [hkey, hd, Option.some.injEq, forall_eq'] at h ⊢
    rw [hforesees]
    by_cases hcount : values.length = k.totalCount
    · rw [if_pos hcount, StoreM.run_bind] at h
      obtain ⟨t, s₂, hrun, hprovides⟩ := exists_provides r k
        (s.updateCatalog r ((s.catalog r).internDatum d values.length).2)
      simp only [hrun, run_newInstance] at h
      split at h
      · cases h
      · cases h
        rw [hprovides.leavesEntries_iff hr htypes, imp_iff_right hcount.symm]
    · rw [if_neg hcount] at h
      cases h
      rw [Store.catalog_updateCatalog hr]
      have hvacuous : k.totalCount = values.length → ∃ t, (s.catalog r).typeFor? k = some t :=
        fun heq => absurd heq.symm hcount
      exact ⟨fun hsame => ⟨hsame.keys, hvacuous⟩, fun hsame => ⟨hsame.1, htypes⟩⟩

/-- A failed look-up or literal forgets no key and no type. It leaves the keys and the types of the
registry as they were exactly if the datum is malformed, or everything that it asks for up to the
failure was there. -/
theorem LookupFails.sameEntries_iff (hr : r.index < s.registries.size)
    (h : LookupFails r s datum total s') :
    s.Retains r s' ∧ ((s.catalog r).SameEntries (s'.catalog r) ↔
      ∀ d, PrefabDatum.parse? datum = some d → (s.catalog r).Foresees d total) := by
  cases h with
  | key h =>
    have hretains := (along_keyOfDatum (permits_retains r) r datum total s).1
    rw [h] at hretains
    exact ⟨hretains, sameEntries_iff_of_keyOfDatum hr h⟩
  | type h =>
    have hretains := (along_prefabTypeOfDatum (permits_retains r) r datum total s).1
    rw [h] at hretains
    refine ⟨hretains, ?_⟩
    -- every key has a type, so it is the key that fails
    rw [prefabTypeOfDatum, StoreM.run_bind] at h
    rcases hkey : (keyOfDatum r datum total).run s with ⟨e' | k, s₁⟩
    · simp only [hkey] at h
      cases h
      exact sameEntries_iff_of_keyOfDatum hr hkey
    · obtain ⟨t, s₂, hrun, -⟩ := exists_provides r k s₁
      simp only [hkey, hrun] at h
      cases h
  | @literal _ _ values hlength h =>
    subst hlength
    have hretains := (along_prefabInstance (permits_retains r) r datum values s).1
    rw [h] at hretains
    exact ⟨hretains, sameEntries_iff_of_prefabInstance hr h⟩

/-- The literal of a point with one field too few, where the point is known. -/
theorem LookupFails.sameEntries_iff_point :
    ∃ s', LookupFails ⟨0⟩ pointSession.store pointDatum 1 s' ∧
      (pointSession.store.catalog ⟨0⟩).SameEntries (s'.catalog ⟨0⟩) := by
  have hr : 0 < pointSession.store.registries.size := by decide
  obtain ⟨s', hfails⟩ : ∃ s', LookupFails ⟨0⟩ pointSession.store pointDatum 1 s' :=
    ⟨_, @LookupFails.literal _ _ _ _ _ _ [.ofNat 1] rfl rfl⟩
  refine ⟨s', hfails, (hfails.sameEntries_iff hr).2.2 fun d hd => ?_⟩
  have hparse : PrefabDatum.parse? pointDatum =
      some ⟨⟨"point"⟩, some 2, 0, .bool false, .ofList [0], []⟩ := rfl
  cases hparse.symm.trans hd
  refine ⟨none, .nil, fun l hl => ?_⟩
  cases hl
  exact ⟨_, rfl, fun hcount => absurd hcount (by decide)⟩

/-- A literal with one field too few leaves its key in a new registry. -/
theorem Session.exists_failed_literal_adds_key :
    ∃ e s', (prefabInstance ⟨0⟩ (.list [.ofName "pt", .ofNat 2]) [.ofNat 1]).run
        Session.initial.store = (.error e, s') ∧
      (Session.initial.store.catalog ⟨0⟩).keyCount = 0 ∧ (s'.catalog ⟨0⟩).keyCount = 1 :=
  ⟨_, _, rfl, rfl, rfl⟩

end Records
