import Records.Proofs.Registry.Session

/-!
# The identity of prefab types

A registry answers with one type for one structure, whichever way the structure is put and
whenever it is asked for. The type that is registered for a key is what the key says, on top of
the type that is registered for the super key.
-/

namespace Records

variable {s : Store} {r : RegistryId} {k : PrefabKey} {t : TypeId} {S : Session}

/-- A type is what a key says, and the key is what the type is found by. -/
structure Store.Describes (s : Store) (r : RegistryId) (k : PrefabKey) (t : TypeId) : Prop where
  key : (keyOfType r t).run s = (.ok k, s)
  name : (s.type t).name = k.level.name
  initCount : (s.type t).initCount = k.level.initCount
  autoCount : (s.type t).autoCount = k.level.autoCount
  autoValue : (s.type t).autoValue == k.level.autoValue
  immutables : ∀ i, i ∈ (s.type t).immutables ↔ i < k.level.initCount ∧ i ∉ k.level.mutables
  superType : (s.type t).superType.isSome ↔ k.superKey?.isSome
  superTypeFor : ∀ k', k.superKey? = some k' →
    ∃ u, s.typeFor? r k' = some u ∧ (s.type t).superType = some u

lemma Store.Coherent.describes (hs : s.Coherent r) (hk : k ∈ (s.catalog r).keys)
    (ht : s.typeFor? r k = some t) : s.Describes r k t := by
  have hfits := hs.catalog.fits k hk t ht
  have hrealizes := hfits.realizes
  refine ⟨run_keyOfType_of_typeFor? hs hk ht, hrealizes.name, hrealizes.initCount,
    hrealizes.autoCount, hrealizes.autoValue, fun i => ?_, ?_, fun k' hk' => ?_⟩
  · rw [hrealizes.immutables, PrefabLevel.immutables, FieldSet.mem_complement]
  · cases hsuper : k.superKey? with
    | none =>
      rw [hfits.root hsuper]
      exact Iff.rfl
    | some k' =>
      obtain ⟨u, -, hu, -⟩ := hfits.super k' hsuper
      rw [hu]
      exact Iff.rfl
  · obtain ⟨u, htype, hu, -⟩ := hfits.super k' hk'
    exact ⟨u, htype, hu⟩

/-- In every state of a session each registered type is described by its key, and any two answers
of the session are one type exactly if they were asked for by one structure. -/
theorem Session.Reachable.prefab_identity (h : S.Reachable r) :
    (∀ k ∈ (S.store.catalog r).keys, ∀ t, S.store.typeFor? r k = some t →
      S.store.Describes r k t) ∧
    ∀ a ∈ S.named, ∀ b ∈ S.named, a.2 = b.2 ↔ SameChain a.1 b.1 := by
  have hsound := h.sound
  constructor
  · intro k hk t ht
    exact hsound.coherent.describes hk ht
  · intro a ha b hb
    exact (hsound.named a ha).eq_iff (hsound.named b hb) hsound.coherent

/-! ### A session -/

/-- A point with a mutable first coordinate. -/
def pointDeclaration : Declaration where
  name := ⟨"point"⟩
  initCount := 2
  inspector := .prefab
  immutables := [1]

/-- The printed key of the same structure. -/
def pointDatum : Value := .list [.symbol ⟨"point"⟩, .ofNat 2, .vector [.ofNat 0]]

/-- The state of a session before its first step. -/
def Session.initial : Session where
  store := { Store.initial with registries := #[⟨{ owner := ⟨0⟩ }, ⟨0⟩⟩] }

lemma Session.reachable_initial : Session.initial.Reachable ⟨0⟩ := by
  refine .start ?_ rfl rfl
  decide

/-- The point is declared, and then asked for by its printed key. -/
def pointSession : Session :=
  (Session.initial.begin ⟨0⟩ pointDeclaration).ask (prefabTypeOfDatum ⟨0⟩ pointDatum 2)
    fun t _ => [((PrefabDatum.levelsFor? pointDatum 2).getD [], t)]

lemma reachable_pointSession : pointSession.Reachable ⟨0⟩ := by
  refine .step (.step Session.reachable_initial ?_) (.prefabTypeOfDatum pointDatum 2)
  exact .begin pointDeclaration fun _ t ht => by cases ht

/-- Both answers are the type that the one key of the session describes. -/
theorem Session.Reachable.prefab_identity_point :
    (pointSession.named.map (·.2) = [⟨0⟩, ⟨0⟩] ∧
      (pointSession.store.catalog ⟨0⟩).keys.map (·.level.name.name) = ["point"]) ∧
    (∀ k ∈ (pointSession.store.catalog ⟨0⟩).keys, ∀ t,
      pointSession.store.typeFor? ⟨0⟩ k = some t → pointSession.store.Describes ⟨0⟩ k t) ∧
    ∀ a ∈ pointSession.named, ∀ b ∈ pointSession.named, a.2 = b.2 ↔ SameChain a.1 b.1 :=
  ⟨by decide, reachable_pointSession.prefab_identity⟩

end Records
