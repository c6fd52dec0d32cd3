import Records.Proofs.Instance.Printing
import Records.Proofs.Prefab.History
import Records.Proofs.Registry.Coherence

/-!
# What written keys denote

A registry answers a datum with a key if the datum is a written key and leaves enough fields for
its first level, and refuses every other datum. As long as a catalog is only asked to intern on top
of its own keys, whenever they were answered, the key carries what is written at every level. The
number of a key of another catalog may be that of an own key, and then the two are taken for one.

## Main definitions

* `History.Own`: the histories of a catalog in which all super keys are its own.
* `Store.ReadsKeys`: a registry answers the written keys, with what is written.

## Main statements

* `History.Own.readsKeys`: a registry whose catalog has such a history answers the written keys.
* `exists_key_of_other_super`: with a key of another catalog a datum is answered with a key of
  other levels.
-/

namespace Records

namespace History

variable {H : History} {x : KeyTuple}

/-- The histories of a catalog in which every super key is one that it answered itself, before the
last reset or after it. -/
inductive Own : History → Prop
  | start (owner : RegistryId) : Own { catalog := { owner } }
  | intern {H : History} {x : KeyTuple} :
      H.Own → (∀ k ∈ x.super, ∃ a ∈ H.recent ++ H.past, a.key = k) → (H.intern x).Own
  | register {H : History} (k : PrefabKey) (t : TypeId) :
      H.Own → Own { H with catalog := (H.catalog.register k t).2 }
  | reset {H : History} : H.Own → H.reset.Own

/-- The numbers of the keys that were answered are not given to other keys. -/
structure Kept (H : History) : Prop where
  numbered : H.catalog.Numbered
  owns : ∀ a ∈ H.recent ++ H.past, H.catalog.Owns a.key

lemma Kept.intern (h : H.Kept) (hx : ∀ k ∈ x.super, ∃ a ∈ H.recent ++ H.past, a.key = k) :
    (H.intern x).Kept := by
  have hsuper : ∀ k ∈ x.super, H.catalog.Owns k := by
    intro k hk
    obtain ⟨a, ha, rfl⟩ := hx k hk
    exact h.owns a ha
  have hnumbered := h.numbered.intern x.level hsuper
  refine ⟨hnumbered, List.forall_mem_cons.2 ⟨?_, fun a ha => (h.owns a ha).intern x.level x.super⟩⟩
  have hfound := PrefabCatalog.find?_intern H.catalog x.level x.super
  exact hnumbered.key _ (PrefabCatalog.of_find?_eq_some hfound).1

lemma Kept.of_catalog (h : H.Kept) {c : PrefabCatalog} (hkeys : c.keys = H.catalog.keys)
    (hissued : c.issued = H.catalog.issued) : Kept { H with catalog := c } := by
  have howns : ∀ k, H.catalog.Owns k → c.Owns k := by
    intro k hk
    rwa [PrefabCatalog.Owns, hkeys, hissued]
  refine ⟨⟨fun k hk => ?_, fun k hk k' hk' => ?_⟩, fun a ha => howns _ (h.owns a ha)⟩
  · rw [hkeys] at hk
    exact howns k (h.numbered.key k hk)
  · rw [hkeys] at hk
    exact howns k' (h.numbered.super k hk k' hk')

lemma Kept.reset (h : H.Kept) : H.reset.Kept where
  numbered := ⟨nofun, nofun⟩
  owns a ha := ⟨(h.owns a ha).1, nofun⟩

lemma Own.kept (h : H.Own) : H.Kept := by
  induction h with
  | start owner => exact ⟨⟨nofun, nofun⟩, nofun⟩
  | intern _ hx ih => exact ih.intern hx
  | register k t _ ih =>
    obtain ⟨hkeys, hissued⟩ := register_keys _ k t
    exact ih.of_catalog hkeys hissued
  | reset _ ih => exact ih.reset

end History

/-! ### Keys of data -/

/-- A registry answers the written keys that leave enough fields for their first level, and
refuses all other data. -/
structure Store.ReadsKeys (r : RegistryId) (s : Store) : Prop where
  isKey_iff : ∀ datum, PrefabDatum.isKey datum ↔ ∃ w : WrittenKey, w.datum = datum
  /-- A datum is written in one way at most. -/
  unique : ∀ w w' : WrittenKey, w.datum = w'.datum → w = w'
  answered_iff : ∀ datum total, (∃ k s', (keyOfDatum r datum total).run s = (.ok k, s')) ↔
    ∃ w : WrittenKey, w.datum = datum ∧ w.Fits total
  /-- The key carries what is written at every level. -/
  levels : ∀ (w : WrittenKey) total k s', (keyOfDatum r w.datum total).run s = (.ok k, s') →
    SameChain k.levels (w.levelsFor total)
  /-- Where the init count is left out, the key has the number of fields that was asked for. -/
  totalCount : ∀ (w : WrittenKey) total k s', w.first.initCount = none →
    (keyOfDatum r w.datum total).run s = (.ok k, s') → k.totalCount = total
  /-- Where the init count is given, the number of fields makes no difference. -/
  given : ∀ (w : WrittenKey) total total', w.first.initCount ≠ none →
    keyOfDatum r w.datum total = keyOfDatum r w.datum total'
  refused : ∀ datum total e s', (keyOfDatum r datum total).run s = (.error e, s') →
    e = .condition (.invalidPrefabKey (s.display datum))

variable {r : RegistryId} {s : Store} {c : PrefabCatalog}

lemma Store.alike_updateCatalog (s : Store) (r : RegistryId) (c : PrefabCatalog) :
    s.Alike (s.updateCatalog r c) :=
  ⟨rfl, rfl, rfl, rfl, fun _ => rfl, fun _ => rfl⟩

/-- What a datum is answered with, and the store behind it. -/
lemma run_keyOfDatum (r : RegistryId) (datum : Value) (total : Nat) (s : Store) :
    (keyOfDatum r datum total).run s =
      match PrefabDatum.parse? datum with
      | none => (.error (.condition (.invalidPrefabKey (s.display datum))), s)
      | some d =>
        match (s.catalog r).internDatum d total with
        | (none, c) =>
          (.error (.condition (.invalidPrefabKey (s.display datum))), s.updateCatalog r c)
        | (some k, c) => (.ok k, s.updateCatalog r c) := by
  rw [keyOfDatum]
  cases PrefabDatum.parse? datum with
  | none => rfl
  | some d =>
    simp only [StoreM.run_bind, run_withCatalog]
    rcases (s.catalog r).internDatum d total with ⟨_ | k, c⟩
    · rw [← (s.alike_updateCatalog r c).display_eq]
      rfl
    · rfl

/-- A written key is answered with a key of its levels if it leaves enough fields. -/
lemma PrefabCatalog.Numbered.internDatum_written (hc : c.Numbered) (w : WrittenKey)
    (total : Nat) :
    (∀ k, (c.internDatum w.read total).1 = some k → SameChain k.levels (w.levelsFor total)) ∧
      ((c.internDatum w.read total).1.isSome ↔ w.Fits total) := by
  rw [hc.internDatum_eq]
  cases hlevel : w.read.levelFor? (PrefabLevel.totalCount w.read.supers) total with
  | none =>
    refine ⟨nofun, ⟨nofun, fun hw => ?_⟩⟩
    cases hlevel.symm.trans (WrittenKey.levelFor?_eq_some_iff.2 ⟨hw, rfl⟩)
  | some level =>
    obtain ⟨hw, rfl⟩ := WrittenKey.levelFor?_eq_some_iff.1 hlevel
    obtain ⟨-, hkey⟩ := hc.internChain (w.levelsFor total)
    refine ⟨fun k hk => ?_, fun _ => hw, fun _ => rfl⟩
    rw [show (c.internChain (w.levelsFor total)).1 = some k from hk] at hkey
    exact hkey.2

/-- What a written key is answered with, and the store behind it. -/
lemma run_keyOfDatum_written (r : RegistryId) (w : WrittenKey) (total : Nat) (s : Store) :
    (keyOfDatum r w.datum total).run s =
      match (s.catalog r).internDatum w.read total with
      | (none, c) =>
        (.error (.condition (.invalidPrefabKey (s.display w.datum))), s.updateCatalog r c)
      | (some k, c) => (.ok k, s.updateCatalog r c) := by
  rw [run_keyOfDatum, PrefabDatum.parse?_eq_some_iff.2 ⟨w, rfl, rfl⟩]

/-- The number of fields is looked at only where the init count is left out. -/
lemma keyOfDatum_given (r : RegistryId) {w : WrittenKey} (hw : w.first.initCount ≠ none)
    (total total' : Nat) : keyOfDatum r w.datum total = keyOfDatum r w.datum total' := by
  obtain ⟨init, hinit⟩ := Option.ne_none_iff_exists'.1 hw
  have hlevel : ∀ inherited,
      w.read.levelFor? inherited total = w.read.levelFor? inherited total' := by
    intro inherited
    have hread : w.read.initCount = some init := hinit
    rw [PrefabDatum.levelFor?, PrefabDatum.levelFor?, PrefabDatum.initCountFor?,
      PrefabDatum.initCountFor?, hread]
  have hintern : ∀ c : PrefabCatalog, c.internDatum w.read total = c.internDatum w.read total' := by
    intro c
    simp only [PrefabCatalog.internDatum, hlevel]
  have hrun : ∀ s, (keyOfDatum r w.datum total).run s = (keyOfDatum r w.datum total').run s := by
    intro s
    rw [run_keyOfDatum_written, run_keyOfDatum_written, hintern]
  exact funext hrun

/-- A registry whose catalog was asked to intern on top of its own keys only answers the written
keys, with what is written. -/
theorem History.Own.readsKeys {H : History} (h : H.Own) (hs : s.catalog r = H.catalog) :
    s.ReadsKeys r := by
  have hc : (s.catalog r).Numbered := hs ▸ h.kept.numbered
  have hlevels : ∀ (w : WrittenKey) total k s', (keyOfDatum r w.datum total).run s = (.ok k, s') →
      SameChain k.levels (w.levelsFor total) ∧ w.Fits total := by
    intro w total k s' hrun
    obtain ⟨hkey, hfits⟩ := hc.internDatum_written w total
    rw [run_keyOfDatum_written] at hrun
    rcases hintern : (s.catalog r).internDatum w.read total with ⟨_ | k', c⟩ <;>
      rw [hintern] at hrun hkey hfits
    · cases hrun
    · cases hrun
      exact ⟨hkey _ rfl, hfits.1 rfl⟩
  refine ⟨fun _ => PrefabDatum.isKey_iff, fun _ _ => @WrittenKey.datum_injective _ _,
    fun datum total => ⟨?_, ?_⟩, fun w total k s' hrun => (hlevels w total k s' hrun).1, ?_,
    fun w total total' hw => keyOfDatum_given r hw total total', ?_⟩
  · rintro ⟨k, s', hrun⟩
    cases hparse : PrefabDatum.parse? datum with
    | none =>
      rw [run_keyOfDatum, hparse] at hrun
      cases hrun
    | some d =>
      obtain ⟨w, rfl, rfl⟩ := PrefabDatum.parse?_eq_some_iff.1 hparse
      exact ⟨w, rfl, (hlevels w total k s' hrun).2⟩
  · rintro ⟨w, rfl, hw⟩
    have hsome := (hc.internDatum_written w total).2.2 hw
    rw [run_keyOfDatum_written]
    rcases hintern : (s.catalog r).internDatum w.read total with ⟨_ | k, c⟩ <;>
      rw [hintern] at hsome
    · cases hsome
    · exact ⟨k, _, rfl⟩
  · intro w total k s' hnone hrun
    obtain ⟨hkey, hfits⟩ := hlevels w total k s' hrun
    rw [PrefabKey.totalCount, hkey.totalCount_eq, WrittenKey.totalCount_levelsFor hfits hnone]
  · intro datum total e s' hrun
    rw [run_keyOfDatum] at hrun
    split at hrun
    · cases hrun
      rfl
    · split at hrun <;> cases hrun
      rfl

/-- A label is interned on top of a point that was answered before a reset. -/
def staleHistory : History :=
  let H := (History.mk { owner := ⟨0⟩ } [] []).intern (History.pointTuple [1, 0])
  H.reset.intern (History.labelledTuple (H.catalog.keys.headD default))

def staleStore : Store := { registries := #[⟨staleHistory.catalog, ⟨0⟩⟩] }

lemma own_staleHistory : staleHistory.Own := by
  refine .intern (.reset (.intern (.start ⟨0⟩) fun k hk => by cases hk)) fun k hk => ?_
  exact ⟨_, List.mem_cons_self, Option.some.inj hk⟩

/-- A super key from before the reset does not keep keys from being read. -/
theorem History.Own.readsKeys_stale :
    staleHistory.Own ∧ staleStore.catalog ⟨0⟩ = staleHistory.catalog ∧
      staleStore.ReadsKeys ⟨0⟩ :=
  ⟨own_staleHistory, rfl, own_staleHistory.readsKeys rfl⟩

/-! ### Keys of other catalogs -/

/-- A level without auto fields and mutable fields. -/
def plainLevel (name : String) (initCount : Nat) : PrefabLevel where
  name := ⟨name⟩
  initCount := initCount
  autoCount := 0
  autoValue := .bool false
  mutables := .empty

/-- The first key of another catalog has the number of the first own key. -/
def foreignKey : PrefabKey :=
  (PrefabCatalog.intern { owner := ⟨1⟩ } (plainLevel "x" 5) none).1

/-- A key is interned on top of the key of another catalog. -/
def confusedStore : Store :=
  let c := (PrefabCatalog.intern { owner := ⟨0⟩ } (plainLevel "y" 0) none).2
  { registries := #[⟨(c.intern (plainLevel "p" 1) (some foreignKey)).2, ⟨0⟩⟩] }

/-- The datum is written for the own key, and answered with the key on top of the other one. -/
theorem exists_key_of_other_super :
    ∃ (w : WrittenKey) (k : PrefabKey) (s : Store),
      w.datum = .list [.ofName "p", .ofNat 1, .ofName "y", .ofNat 0] ∧
        (keyOfDatum ⟨0⟩ w.datum 1).run confusedStore = (.ok k, s) ∧
        ¬SameChain k.levels (w.levelsFor 1) := by
  have hread : PrefabDatum.levelsFor? (.list [.ofName "p", .ofNat 1, .ofName "y", .ofNat 0]) 1 =
      some [plainLevel "p" 1, plainLevel "y" 0] := rfl
  obtain ⟨w, hw, -, hlevels⟩ := PrefabDatum.levelsFor?_eq_some_iff.1 hread
  refine ⟨w, ⟨⟨⟨0⟩, 1⟩, plainLevel "p" 1, [(⟨⟨1⟩, 0⟩, plainLevel "x" 5)]⟩, confusedStore, hw,
    ?_, ?_⟩
  · rw [hw]
    rfl
  · -- the key has the fields of the other super key
    rw [hlevels]
    exact fun hsame => absurd hsame.totalCount_eq (by decide)

end Records
