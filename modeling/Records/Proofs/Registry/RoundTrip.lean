import Records.Proofs.Prefab.History
import Records.Proofs.Registry.Denotation

/-!
# Keys are read as they were printed

Each of the two printed forms of a key is read as the chain of levels that was printed, and the
catalog that issued the key answers the chain with it.

## Main statements

* `History.Reachable.run_keyOfDatum_printed`: both printed forms of a key denote the key.
-/

namespace Records

namespace History

variable {H : History} {a : Interning} {r : RegistryId} {s : Store}

/-- The printed forms of a key that was answered since the last reset denote the key, and reading
them changes nothing: the full form for instances of any number of fields, the short form for
instances of its own number of fields. -/
theorem Reachable.run_keyOfDatum_printed (h : H.Reachable) (ha : a ∈ H.recent)
    (hb : ∀ l ∈ a.key.levels, l.Bounded) (hp : ∀ l ∈ a.key.levels, l.Printable)
    (hs : s.catalog r = H.catalog) :
    (∀ total, (keyOfDatum r (PrefabDatum.full a.key.levels) total).run s = (.ok a.key, s)) ∧
      (keyOfDatum r (PrefabDatum.short a.key.levels) a.key.totalCount).run s =
        (.ok a.key, s) := by
  have hk : (s.catalog r).internChain a.key.levels = (some a.key, s.catalog r) := by
    rw [hs]
    exact h.sound.keyed.internChain_of_mem (h.sound.key_mem ha) (SameChain.refl _)
  have hc : (s.catalog r).Numbered := hs ▸ h.sound.keyed.numbered
  refine ⟨fun total => ?_, ?_⟩
  · exact run_keyOfDatum_of_internChain hc (PrefabDatum.levelsFor?_full hp hb total) hk
  · exact run_keyOfDatum_of_internChain hc (PrefabDatum.levelsFor?_short hp hb) hk

/-- A labelled point: an auto field that holds a list, on top of two mutable fields. -/
def labelledChain : List PrefabLevel :=
  [(labelledTuple default).level, (pointTuple [1, 0]).level]

def labelledHistory : History := (History.mk { owner := ⟨0⟩ } [] []).internChain labelledChain

/-- The key that was interned last. -/
def labelledKey : PrefabKey where
  id := ⟨⟨0⟩, 1⟩
  level := (labelledTuple default).level
  supers := [(⟨⟨0⟩, 0⟩, (pointTuple [1, 0]).level)]

def labelledStore : Store := { registries := #[⟨labelledHistory.catalog, ⟨0⟩⟩] }

/-- The key of the labelled point is read back from both of its printed forms. -/
theorem Reachable.run_keyOfDatum_printed_labelled :
    labelledHistory.Reachable ∧ labelledStore.catalog ⟨0⟩ = labelledHistory.catalog ∧
    (∀ l ∈ labelledKey.levels, l.Bounded) ∧ (∀ l ∈ labelledKey.levels, l.Printable) ∧
    ∃ a ∈ labelledHistory.recent, a.key = labelledKey ∧
      (∀ total, (keyOfDatum ⟨0⟩ (PrefabDatum.full a.key.levels) total).run labelledStore =
        (.ok a.key, labelledStore)) ∧
      (keyOfDatum ⟨0⟩ (PrefabDatum.short a.key.levels) a.key.totalCount).run labelledStore =
        (.ok a.key, labelledStore) := by
  obtain ⟨hreach, -, hrecent⟩ := (Reachable.start ⟨0⟩).internChain labelledChain
  obtain ⟨a, ha, hkey⟩ := hrecent labelledKey rfl
  have hlevels : ∀ l ∈ labelledKey.levels, l.Bounded ∧ l.Printable := by
    intro l hl
    rcases List.mem_pair.1 hl with rfl | rfl
    · exact ⟨nofun, by decide, by decide, nofun⟩
    · exact ⟨(by decide : ∀ i ∈ [0, 1], i < 2), by decide, by decide, fun _ => rfl⟩
  have hb := fun l hl => (hlevels l hl).1
  have hp := fun l hl => (hlevels l hl).2
  refine ⟨hreach, rfl, hb, hp, a, ha, hkey, ?_⟩
  exact hreach.run_keyOfDatum_printed ha (hkey ▸ hb) (hkey ▸ hp) rfl

end History

end Records
