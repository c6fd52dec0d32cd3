import Records.Proofs.Prefab.Printed
import Records.Proofs.Registry.Publication

/-!
# What printed keys denote

A datum that reads as the structure of a registered type denotes the type. The key of a type is
printed without its auto values where there are no auto fields, though the structure has one
there: the printed key of a registered type denotes the type exactly if its chain is printable.

## Main statements

* `run_prefabTypeOfDatum_iff`: what a datum has to read as in order to denote a type.
* `Session.Reachable.run_printedKeyType_iff`: when the printed key of a type denotes it.
-/

namespace Records

variable {r : RegistryId} {s : Store} {S : Session} {k : PrefabKey} {t : TypeId}
  {levels : List PrefabLevel} {datum : Value} {total : Nat}

/-! ### Reading a datum -/

/-- A datum that reads as a chain whose key is known is answered with the key. -/
lemma run_keyOfDatum_of_internChain (hc : (s.catalog r).Numbered)
    (hl : PrefabDatum.levelsFor? datum total = some levels)
    (hk : (s.catalog r).internChain levels = (some k, s.catalog r)) :
    (keyOfDatum r datum total).run s = (.ok k, s) := by
  simp only [PrefabDatum.levelsFor?, Option.bind_eq_bind, Option.bind_eq_some_iff,
    Option.pure_def, Option.some.injEq] at hl
  obtain ⟨d, hd, l, hl, rfl⟩ := hl
  have hintern : (s.catalog r).internDatum d total = (some k, s.catalog r) := by
    rw [hc.internDatum_eq, hl]
    exact hk
  simp only [keyOfDatum, hd]
  rw [StoreM.run_bind, run_withCatalog, hintern, Store.updateCatalog_self]
  rfl

/-- A datum that reads as the chain of a known key is answered with the key. -/
lemma run_keyOfDatum_of_isKeyOf (hs : s.Coherent r) (hk : s.IsKeyOf r levels k)
    (hl : PrefabDatum.levelsFor? datum total = some levels) :
    (keyOfDatum r datum total).run s = (.ok k, s) :=
  run_keyOfDatum_of_internChain hs.catalog.interned.keyed.numbered hl
    (hs.catalog.interned.keyed.internChain_of_mem hk.1 hk.2)

/-- The type of a key that has one is answered. -/
lemma run_prefabType_of_typeFor? (ht : (s.catalog r).typeFor? k = some t) :
    (prefabType r k).run s = (.ok t, s) := by
  have hensure : ∀ super, (ensureType r k super).run s = (.ok t, s) := by
    intro super
    rw [ensureType, StoreM.run_bind]
    simp only [StoreM.run_get, Store.typeFor?, ht]
    rfl
  obtain ⟨id, level, _ | ⟨⟨superId, superLevel⟩, supers⟩⟩ := k
  · exact hensure _
  · exact hensure _

/-- A datum denotes a registered type exactly if it reads as its structure. -/
theorem run_prefabTypeOfDatum_iff (hs : s.Coherent r) :
    (prefabTypeOfDatum r datum total).run s = (.ok t, s) ↔
      ∃ levels, PrefabDatum.levelsFor? datum total = some levels ∧ s.IsTypeOf r levels t := by
  constructor
  · intro hrun
    obtain ⟨-, hresult⟩ := prefabTypeOfDatum_ensures hs datum total
    rw [hrun] at hresult
    exact hresult t rfl
  · rintro ⟨levels, hl, k, hk, ht⟩
    rw [prefabTypeOfDatum, StoreM.run_bind, run_keyOfDatum_of_isKeyOf hs hk hl]
    exact run_prefabType_of_typeFor? ht

/-! ### Printing a key and reading it -/

/-- The type that the printed key of a type denotes for instances of `total` fields. -/
def printedKeyType (r : RegistryId) (t : TypeId) (total : Nat) : StoreM (Option TypeId) := do
  match ← prefabKeyOf? r t with
  | none => return none
  | some k => return some (← prefabTypeOfDatum r (PrefabDatum.full k.levels) total)

/-- The printed key of a registered type is that of the key it is registered for. -/
lemma run_printedKeyType_eq_iff (hs : s.Coherent r) (hk : k ∈ (s.catalog r).keys)
    (ht : (s.catalog r).typeFor? k = some t) :
    (printedKeyType r t total).run s = (.ok (some t), s) ↔
      (prefabTypeOfDatum r (PrefabDatum.full k.levels) total).run s = (.ok t, s) := by
  have hprefab := (hs.catalog.fits k hk t ht).realizes.prefabType
  have hkey : (prefabKeyOf? r t).run s = (.ok (some k), s) := by
    rw [prefabKeyOf?, StoreM.run_bind]
    simp only [StoreM.run_get, if_pos hprefab]
    rw [StoreM.run_bind, run_keyOfType_of_typeFor? hs hk ht]
    rfl
  rw [printedKeyType, StoreM.run_bind, hkey]
  simp only [StoreM.run_bind]
  rcases (prefabTypeOfDatum r (PrefabDatum.full k.levels) total).run s with ⟨e | u, s'⟩
  · constructor <;> rintro ⟨⟩
  · constructor <;> rintro ⟨⟩ <;> rfl

/-- In every state of a session the printed key of a registered type denotes the type, for
instances of any number of fields, exactly if every level of its chain is printable. -/
theorem Session.Reachable.run_printedKeyType_iff (h : S.Reachable r)
    (ht : S.store.IsTypeOf r levels t) (total : Nat) :
    (printedKeyType r t total).run S.store = (.ok (some t), S.store) ↔
      ∀ l ∈ S.store.prefabLevels t, l.Printable := by
  have hs := h.sound.coherent
  obtain ⟨k, ⟨hk, -⟩, ht⟩ := ht
  have htype : S.store.IsTypeOf r k.levels t := ⟨k, ⟨hk, SameChain.refl _⟩, ht⟩
  rw [run_printedKeyType_eq_iff hs hk ht, run_prefabTypeOfDatum_iff hs,
    ← (hs.catalog.sameChain_prefabLevels hk ht).printable_iff]
  constructor
  · rintro ⟨levels, hread, hlevels⟩
    exact PrefabDatum.printable_of_levelsFor?_full hread ((hlevels.eq_iff htype hs).1 rfl)
  · intro hprintable
    have hbounded := hs.catalog.interned.bounded_levels hk
    exact ⟨k.levels, PrefabDatum.levelsFor?_full hprintable hbounded total, htype⟩

/-! ### A key that does not print -/

/-- A prefab type without auto fields, declared with an auto value. -/
def hiddenDeclaration (v : Value) : Declaration where
  name := ⟨"pt"⟩
  initCount := 1
  autoValue := v
  inspector := .prefab

def hiddenSession (v : Value) : Session := Session.initial.begin ⟨0⟩ (hiddenDeclaration v)

lemma reachable_hiddenSession (v : Value) : (hiddenSession v).Reachable ⟨0⟩ :=
  Session.reachable_initial.step (.begin (hiddenDeclaration v) fun _ t ht => by cases ht)

/-- The declaration is answered with the type that is registered for it. -/
lemma isTypeOf_hiddenSession (v : Value) :
    (hiddenSession v).store.IsTypeOf ⟨0⟩ [(hiddenDeclaration v).prefabLevel] ⟨0⟩ := by
  have hnamed : (hiddenSession v).named = [([(hiddenDeclaration v).prefabLevel], ⟨0⟩)] := rfl
  refine (reachable_hiddenSession v).sound.named (_, _) ?_
  rw [hnamed]
  exact List.mem_singleton_self _

/-- The printed key of the type denotes it, as the auto value is the one that is read back. -/
theorem Session.Reachable.run_printedKeyType_iff_hidden :
    (hiddenSession (.bool false)).store.IsTypeOf ⟨0⟩
      [(hiddenDeclaration (.bool false)).prefabLevel] ⟨0⟩ ∧
    ((printedKeyType ⟨0⟩ ⟨0⟩ 1).run (hiddenSession (.bool false)).store =
        (.ok (some ⟨0⟩), (hiddenSession (.bool false)).store) ↔
      ∀ l ∈ (hiddenSession (.bool false)).store.prefabLevels ⟨0⟩, l.Printable) ∧
    ∀ l ∈ (hiddenSession (.bool false)).store.prefabLevels ⟨0⟩, l.Printable := by
  have htype := isTypeOf_hiddenSession (.bool false)
  refine ⟨htype, (reachable_hiddenSession _).run_printedKeyType_iff htype 1, ?_⟩
  intro l hl
  obtain rfl := List.mem_singleton.1 hl
  exact ⟨by decide, by decide, fun _ => rfl⟩

/-- The printed key of a type with a hidden auto value denotes another type. -/
theorem Session.exists_printed_key_of_other_type :
    ∃ (S : Session) (levels : List PrefabLevel) (t u : TypeId) (s : Store),
      S.Reachable ⟨0⟩ ∧ S.store.IsTypeOf ⟨0⟩ levels t ∧
      (printedKeyType ⟨0⟩ t 1).run S.store = (.ok (some u), s) ∧ u ≠ t :=
  ⟨hiddenSession (.ofNat 5), _, ⟨0⟩, ⟨1⟩, _, reachable_hiddenSession _,
    isTypeOf_hiddenSession _, rfl, by decide⟩

end Records
