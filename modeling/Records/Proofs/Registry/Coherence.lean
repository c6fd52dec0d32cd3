import Records.Proofs.Prefab.Catalog
import Records.Proofs.Prefab.Grammar
import Records.Proofs.RecordType.Immutables

/-!
# Coherence of a registry

The registry of a store is coherent if its catalog is. Whatever the registry answers, it keeps
itself coherent, forgets no key and no type, and lets the store evolve: it *advances*.

## Main statements

* `keyOfDeclaration_ensures`, `keyOfType_ensures`, `keyOfDatum_ensures`: keys of what was asked.
* `prefabType_ensures`: the type of a key is registered for it.
* `prefabTypeOfDeclaration_ensures`: the type of a declaration is registered for its key.
-/

namespace Records

/-! ### The catalog of a registry -/

namespace Store

/-- The catalog of a registry. -/
abbrev catalog (s : Store) (r : RegistryId) : PrefabCatalog := (s.registry r).catalog

/-- The store with another catalog in a registry. -/
def updateCatalog (s : Store) (r : RegistryId) (c : PrefabCatalog) : Store :=
  { s with registries := s.registries.modify r.index fun g => { g with catalog := c } }

lemma catalog_updateCatalog {s : Store} {r : RegistryId} (h : r.index < s.registries.size)
    (c : PrefabCatalog) : (s.updateCatalog r c).catalog r = c := by
  simp [updateCatalog, catalog, registry, Array.getD_eq_getD_getElem?, Array.getElem_modify, h]

@[simp] lemma updateCatalog_self (s : Store) (r : RegistryId) :
    s.updateCatalog r (s.catalog r) = s := by
  have hsame : (s.registries.modify r.index fun g => { g with catalog := s.catalog r }) =
      s.registries := by
    refine Array.ext (by simp) fun i hi hi' => ?_
    rw [Array.getElem_modify]
    split
    · rename_i h
      subst h
      simp [catalog, registry, hi']
    · rfl
  rw [updateCatalog, hsame]

end Store

lemma run_withCatalog {α : Type} (r : RegistryId) (f : PrefabCatalog → α × PrefabCatalog)
    (s : Store) :
    (withCatalog r f).run s =
      (.ok (f (s.catalog r)).1, s.updateCatalog r (f (s.catalog r)).2) := rfl

/-! ### Advancing -/

/-- The registry is there, and its catalog is coherent. -/
structure Store.Coherent (r : RegistryId) (s : Store) : Prop where
  exists_registry : r.index < s.registries.size
  catalog : (s.catalog r).Coherent s

/-- A later state of a store in which a coherent registry has forgotten nothing; the types it
has registered since are new ones, and pending. -/
structure Store.Grows (r : RegistryId) (s s' : Store) : Prop where
  coherent : s'.Coherent r
  enlarges : s.Enlarges s'
  catalog : (s.catalog r).Extends (s'.catalog r)
  registered : ∀ k t, (s'.catalog r).typeFor? k = some t →
    (s.catalog r).typeFor? k = some t ∨
      s.types.size ≤ t.index ∧ (s'.type t).resolution = none

/-- From a coherent registry the store grows. -/
def Store.Advances (r : RegistryId) (s s' : Store) : Prop := s.Coherent r → s.Grows r s'

namespace Store

variable {r : RegistryId} {s s' s'' : Store}

lemma Coherent.grows_refl (h : s.Coherent r) : s.Grows r s :=
  ⟨h, Enlarges.refl s, PrefabCatalog.Extends.refl _, fun _ _ ht => .inl ht⟩

lemma Grows.trans (h : s.Grows r s') (h' : s'.Grows r s'') : s.Grows r s'' where
  coherent := h'.coherent
  enlarges := h.enlarges.trans h'.enlarges
  catalog := h.catalog.trans h'.catalog
  registered k t ht := by
    rcases h'.registered k t ht with ht' | ⟨hnew, hpending⟩
    · rcases h.registered k t ht' with ht | ⟨hnew, hpending⟩
      · exact .inl ht
      · rw [← h'.enlarges.type t (h.coherent.catalog.lt_of_typeFor? ht')] at hpending
        exact .inr ⟨hnew, hpending⟩
    · exact .inr ⟨Nat.le_trans h.enlarges.size hnew, hpending⟩

namespace Advances

instance (r : RegistryId) : IsPreorder Store (Store.Advances r) where
  refl _ hs := hs.grows_refl
  trans _ _ _ h h' hs := (h hs).trans (h' (h hs).coherent)

/-- Whatever happens to the store beside the registry. -/
lemma of_enlarges (h : s.Enlarges s') (hr : s.registries.size ≤ s'.registries.size)
    (hc : s'.catalog r = s.catalog r) : s.Advances r s' := by
  intro hs
  refine ⟨⟨Nat.lt_of_lt_of_le hs.exists_registry hr, ?_⟩, h, ?_, ?_⟩
  · rw [hc]
    exact hs.catalog.of_evolves h.evolves
  · rw [hc]
    exact PrefabCatalog.Extends.refl _
  · rw [hc]
    exact fun _ _ ht => .inl ht

lemma of_registries_eq (h : s.Enlarges s') (hr : s'.registries = s.registries) :
    s.Advances r s' :=
  of_enlarges h (Nat.le_of_eq (by rw [hr])) (by rw [catalog, registry, hr, catalog, registry])

/-- Adding keys to the catalog. -/
lemma updateCatalog {c : PrefabCatalog} (hc : (s.catalog r).AddsKeys c) :
    s.Advances r (s.updateCatalog r c) := by
  intro hs
  have he : s.Enlarges (s.updateCatalog r c) := Enlarges.of_types_eq rfl
  have hcatalog := catalog_updateCatalog hs.exists_registry c
  refine ⟨⟨?_, ?_⟩, he, ?_, ?_⟩
  · simpa [Store.updateCatalog] using hs.exists_registry
  · rw [hcatalog]
    exact (hs.catalog.of_addsKeys hc).of_evolves he.evolves
  · rw [hcatalog]
    exact hc.extends_catalog
  · intro k t ht
    rw [hcatalog, hc.typeFor?] at ht
    exact .inl ht

end Advances

end Store

/-! ### Keys -/

/-- A key is the key of a chain of levels in a registry. -/
def Store.IsKeyOf (s : Store) (r : RegistryId) (levels : List PrefabLevel) (k : PrefabKey) :
    Prop :=
  k ∈ (s.catalog r).keys ∧ SameChain k.levels levels

variable {r : RegistryId} {s : Store}

lemma bounded_inheritedLevels (s : Store) (super : Option TypeId) :
    ∀ l ∈ s.inheritedLevels super, l.Bounded := by
  intro l hl
  cases super with
  | none => cases hl
  | some u =>
    obtain ⟨t, -, rfl⟩ := List.mem_map.1 hl
    exact t.bounded_prefabLevel

lemma internLevels_ensures (hs : s.Coherent r) {level : PrefabLevel}
    {supers : List PrefabLevel} (hl : level.Bounded) (hsupers : ∀ l ∈ supers, l.Bounded) :
    (withCatalog r (·.internLevels level supers)).Ensures (Store.Advances r)
      (fun k s' => s'.types = s.types ∧ s'.IsKeyOf r (level :: supers) k) s := by
  obtain ⟨hadds, hmem, hchain⟩ := hs.catalog.interned.internLevels hl hsupers
  rw [StoreM.Ensures, run_withCatalog]
  refine ⟨Store.Advances.updateCatalog hadds, fun k hk => ?_⟩
  cases hk
  refine ⟨rfl, ?_, hchain⟩
  rw [Store.catalog_updateCatalog hs.exists_registry]
  exact hmem

lemma keyOfDeclaration_ensures (hs : s.Coherent r) (d : Declaration) :
    (keyOfDeclaration r d).Ensures (Store.Advances r)
      (fun k s' => s'.types = s.types ∧
        s'.IsKeyOf r (d.prefabLevel :: s.inheritedLevels d.superType) k) s :=
  StoreM.ensures_get_bind <| internLevels_ensures hs d.bounded_prefabLevel
    (bounded_inheritedLevels s d.superType)

lemma keyOfType_ensures (hs : s.Coherent r) (t : TypeId) :
    (keyOfType r t).Ensures (Store.Advances r)
      (fun k s' => s'.types = s.types ∧ s'.IsKeyOf r
        ((s.type t).prefabLevel :: s.inheritedLevels (s.type t).superType) k) s :=
  StoreM.ensures_get_bind <| internLevels_ensures hs (s.type t).bounded_prefabLevel
    (bounded_inheritedLevels s (s.type t).superType)

/-- Interning a datum may fail once the super levels are interned. -/
lemma internDatum_ensures (hs : s.Coherent r) {d : PrefabDatum}
    (hd : ∀ l ∈ d.supers, l.Bounded) (total : Nat) :
    (withCatalog r (·.internDatum d total)).Ensures (Store.Advances r)
      (fun k? s' => s'.types = s.types ∧ ∀ k, k? = some k →
        ∃ l, d.levelFor? (PrefabLevel.totalCount d.supers) total = some l ∧
          s'.IsKeyOf r (l :: d.supers) k) s := by
  have hcoherent := hs.catalog
  rw [StoreM.Ensures, run_withCatalog, hcoherent.interned.keyed.numbered.internDatum_eq]
  cases hl : d.levelFor? (PrefabLevel.totalCount d.supers) total with
  | none =>
    obtain ⟨hadds, -⟩ := hcoherent.interned.internChain hd
    refine ⟨Store.Advances.updateCatalog hadds, fun k hk => ?_⟩
    cases hk
    exact ⟨rfl, fun k hk => by cases hk⟩
  | some level =>
    obtain ⟨hadds, hmem, hchain⟩ := hcoherent.interned.internLevels
      (PrefabDatum.bounded_of_levelFor? hl) hd
    refine ⟨Store.Advances.updateCatalog hadds, fun k? hk => ?_⟩
    cases hk
    refine ⟨rfl, fun k hk => ?_⟩
    cases hk
    refine ⟨level, rfl, ?_, hchain⟩
    rw [Store.catalog_updateCatalog hs.exists_registry]
    exact hmem

lemma refuseDatum_ensures {α : Type} {Q : α → Store → Prop} (datum : Value) (s : Store) :
    (refuseDatum datum).Ensures (Store.Advances r) Q s :=
  StoreM.ensures_get_bind (StoreM.ensures_raise _ s)

lemma keyOfDatum_ensures (hs : s.Coherent r) (datum : Value) (total : Nat) :
    (keyOfDatum r datum total).Ensures (Store.Advances r)
      (fun k s' => ∃ levels, PrefabDatum.levelsFor? datum total = some levels ∧
        s'.IsKeyOf r levels k) s := by
  unfold keyOfDatum
  cases hd : PrefabDatum.parse? datum with
  | none => exact refuseDatum_ensures datum s
  | some d =>
    refine (internDatum_ensures hs (PrefabDatum.bounded_of_parse? hd) total).bind ?_
    rintro (_ | k) s' - ⟨-, hk⟩
    · exact refuseDatum_ensures datum s'
    · obtain ⟨l, hl, hkey⟩ := hk k rfl
      refine StoreM.ensures_pure ⟨l :: d.supers, ?_, hkey⟩
      rw [PrefabDatum.levelsFor?, hd]
      simp [hl]

/-- The key of a registered type is the key it is registered for, and asking for it changes
nothing. -/
lemma run_keyOfType_of_typeFor? (hs : s.Coherent r) {k : PrefabKey}
    (hk : k ∈ (s.catalog r).keys) {t : TypeId} (ht : (s.catalog r).typeFor? k = some t) :
    (keyOfType r t).run s = (.ok k, s) := by
  have hfits := hs.catalog.fits k hk t ht
  have hchain : SameChain k.levels
      ((s.type t).prefabLevel :: s.inheritedLevels (s.type t).superType) := by
    rw [k.levels_eq, SameChain.cons_iff]
    refine ⟨hfits.realizes.same (hs.catalog.interned.bounded k hk), ?_⟩
    cases hsuper : k.superKey? with
    | none =>
      rw [hfits.root hsuper]
      exact SameChain.refl []
    | some k' =>
      obtain ⟨u, hu, hsu, -⟩ := hfits.super k' hsuper
      rw [hsu]
      exact hs.catalog.sameChain_prefabLevels
        (hs.catalog.interned.super_mem k hk k' hsuper) hu
  have hintern := hs.catalog.interned.keyed.internChain_of_mem hk hchain
  rw [PrefabCatalog.internChain_cons, Prod.mk.injEq, Option.some.injEq] at hintern
  rw [keyOfType, StoreM.run_bind]
  simp only [StoreM.run_get]
  rw [run_withCatalog, hintern.1, hintern.2, Store.updateCatalog_self]

/-! ### Types -/

/-- A type is the one registered for a chain of levels in a registry. -/
def Store.IsTypeOf (s : Store) (r : RegistryId) (levels : List PrefabLevel) (t : TypeId) :
    Prop :=
  ∃ k, s.IsKeyOf r levels k ∧ (s.catalog r).typeFor? k = some t

namespace Store.IsTypeOf

variable {s' : Store} {levels levels' : List PrefabLevel} {t t' : TypeId}

lemma mono (h : s.IsTypeOf r levels t) (hc : (s.catalog r).Extends (s'.catalog r)) :
    s'.IsTypeOf r levels t := by
  obtain ⟨k, ⟨hk, hchain⟩, ht⟩ := h
  exact ⟨k, ⟨hc.keys k hk, hchain⟩, hc.types k hk t ht⟩

lemma lt (h : s.IsTypeOf r levels t) (hs : s.Coherent r) : t.index < s.types.size := by
  obtain ⟨k, ⟨hk, -⟩, ht⟩ := h
  exact (hs.catalog.fits k hk t ht).lt

/-- A structure has one type, and a type has one structure. -/
lemma eq_iff (h : s.IsTypeOf r levels t) (h' : s.IsTypeOf r levels' t') (hs : s.Coherent r) :
    t = t' ↔ SameChain levels levels' := by
  obtain ⟨k, ⟨hk, hchain⟩, ht⟩ := h
  obtain ⟨k', ⟨hk', hchain'⟩, ht'⟩ := h'
  constructor
  · rintro rfl
    have hsame := hs.catalog.sameChain_prefabLevels hk ht
    have hsame' := hs.catalog.sameChain_prefabLevels hk' ht'
    exact hchain.symm.trans (hsame.trans (hsame'.symm.trans hchain'))
  · intro hsame
    have : k = k' := hs.catalog.interned.keyed.key_unique hk hk'
      (hchain.trans (hsame.trans hchain'.symm))
    subst this
    exact Option.some_inj.1 (ht.symm.trans ht')

end Store.IsTypeOf

/-- Adding the type of a declaration that says what a key says, and registering it. -/
lemma declare_register_ensures (hs : s.Coherent r) {k : PrefabKey} {d : Declaration}
    (hk : k ∈ (s.catalog r).keys)
    (hd : ∀ t, s.layOut d = .ok t → t.Realizes k.level)
    (hroot : k.superKey? = none → d.superType = none)
    (hsuper : ∀ k', k.superKey? = some k' → ∃ u, (s.catalog r).typeFor? k' = some u ∧
      d.superType = some u ∧ u.index < s.types.size) :
    (declare d >>= registerType r k).Ensures (Store.Advances r)
      (fun t s' => k ∈ (s'.catalog r).keys ∧ (s'.catalog r).typeFor? k = some t) s := by
  rw [StoreM.Ensures, StoreM.run_bind, run_declare]
  cases hl : s.layOut d with
  | error e => exact ⟨refl_of (Store.Advances r) s, fun t ht => by cases ht⟩
  | ok t =>
    obtain ⟨hst, hpending⟩ : t.superType = d.superType ∧ t.resolution = none := by
      obtain ⟨-, -, rfl⟩ := Store.layOut_eq_ok_iff.1 hl
      exact ⟨rfl, rfl⟩
    have he := Store.Enlarges.push_type s t
    have hfits : (s.catalog r).Fits { s with types := s.types.push t } k ⟨s.types.size⟩ := by
      refine ⟨by simp, ?_, ?_, ?_⟩ <;> rw [Store.type_push_self]
      · exact hd t hl
      · rw [hst]
        exact hroot
      · rw [hst]
        exact hsuper
    obtain ⟨hcoherent, hext, hnew⟩ := (hs.catalog.of_evolves he.evolves).register hk hfits
    have hsame : ({ s with types := s.types.push t } : Store).catalog r = s.catalog r := rfl
    simp only [registerType, run_withCatalog, hsame]
    have hcatalog := Store.catalog_updateCatalog (s := { s with types := s.types.push t })
      hs.exists_registry ((s.catalog r).register k ⟨s.types.size⟩).2
    refine ⟨fun _ => ⟨⟨?_, ?_⟩, ⟨he.size, he.type⟩, ?_, ?_⟩, fun u hu => ?_⟩
    · simpa [Store.updateCatalog] using hs.exists_registry
    · rw [hcatalog]
      refine hcoherent.of_evolves (Store.Enlarges.evolves (Store.Enlarges.of_types_eq ?_))
      rfl
    · rw [hcatalog]
      exact hext
    · rw [hcatalog]
      intro k' u hu
      rcases hnew k' u hu with hu | rfl
      · exact .inl hu
      · exact .inr ⟨Nat.le_refl _, (congrArg _ (Store.type_push_self s t)).trans hpending⟩
    · cases hu
      rw [hcatalog]
      exact ⟨hext.keys k hk, PrefabCatalog.typeFor?_register _ k _⟩

lemma ensureType_ensures (hs : s.Coherent r) {k : PrefabKey} (hk : k ∈ (s.catalog r).keys)
    {super : StoreM (Option TypeId)}
    (hsuper : super.Ensures (Store.Advances r)
      (fun u s' => u = k.superKey?.bind (s'.catalog r).typeFor? ∧
        (k.superKey?.isSome → u.isSome)) s) :
    (ensureType r k super).Ensures (Store.Advances r)
      (fun t s' => k ∈ (s'.catalog r).keys ∧ (s'.catalog r).typeFor? k = some t) s := by
  refine StoreM.ensures_get_bind ?_
  cases ht : (s.catalog r).typeFor? k with
  | some t =>
    simp only [Store.typeFor?, ht]
    exact StoreM.ensures_pure ⟨hk, ht⟩
  | none =>
    simp only [Store.typeFor?, ht]
    refine hsuper.bind fun u s' hadv ⟨hu, hsome⟩ => ?_
    obtain ⟨hs', -, hext, -⟩ := hadv hs
    have hk' := hext.keys k hk
    refine declare_register_ensures hs' hk' ?_ ?_ ?_
    · intro t ht
      obtain ⟨immutables, himm, rfl⟩ := Store.layOut_eq_ok_iff.1 ht
      obtain ⟨rfl, -⟩ := Store.declaredImmutables_eq_ok himm rfl
      exact ⟨rfl, rfl, rfl, rfl, Value.same_refl _, FieldSet.ofList_indices _⟩
    · intro hroot
      rw [hroot] at hu
      exact hu
    · intro k' hsk
      obtain ⟨t, rfl⟩ := Option.isSome_iff_exists.1 (hsome (by rw [hsk]; rfl))
      rw [hsk] at hu
      have hmem := hs'.catalog.interned.super_mem k hk' k' hsk
      exact ⟨t, hu.symm, rfl, (hs'.catalog.fits k' hmem t hu.symm).lt⟩

/-- The type of a key is registered for it. -/
lemma prefabType_ensures (hs : s.Coherent r) {k : PrefabKey} (hk : k ∈ (s.catalog r).keys) :
    (prefabType r k).Ensures (Store.Advances r)
      (fun t s' => k ∈ (s'.catalog r).keys ∧ (s'.catalog r).typeFor? k = some t) s := by
  obtain ⟨id, level, supers⟩ := k
  unfold prefabType
  induction supers generalizing id level with
  | nil =>
    exact ensureType_ensures hs hk (StoreM.ensures_pure ⟨rfl, fun h => by cases h⟩)
  | cons head rest ih =>
    obtain ⟨superId, superLevel⟩ := head
    have hmem := hs.catalog.interned.super_mem _ hk ⟨superId, superLevel, rest⟩ rfl
    refine ensureType_ensures hs hk ?_
    rw [map_eq_pure_bind]
    refine (ih superId superLevel hmem).bind fun t s' _ ⟨_, ht⟩ => ?_
    exact StoreM.ensures_pure ⟨ht.symm, fun _ => rfl⟩

lemma prefabTypeOfDatum_ensures (hs : s.Coherent r) (datum : Value) (total : Nat) :
    (prefabTypeOfDatum r datum total).Ensures (Store.Advances r)
      (fun t s' => ∃ levels, PrefabDatum.levelsFor? datum total = some levels ∧
        s'.IsTypeOf r levels t) s := by
  refine (keyOfDatum_ensures hs datum total).bind fun k s' hadv ⟨levels, hl, hk, hchain⟩ => ?_
  refine (prefabType_ensures (hadv hs).1 hk).mono fun t s'' _ ⟨hk', ht⟩ => ?_
  exact ⟨levels, hl, k, ⟨hk', hchain⟩, ht⟩

lemma newInstance_ensures (t : TypeId) (values : List Value) (s : Store) :
    (newInstance t values).Ensures (Store.Advances r)
      (fun i s' => s'.registries = s.registries ∧ (s'.record i).type = t) s := by
  rw [StoreM.Ensures, run_newInstance]
  split
  · refine ⟨Store.Advances.of_registries_eq (Store.Enlarges.of_types_eq rfl) rfl, ?_⟩
    intro i hi
    cases hi
    simp [Store.record, Array.getD_eq_getD_getElem?]
  · exact ⟨refl_of (Store.Advances r) s, fun i hi => by cases hi⟩

lemma prefabInstance_ensures (hs : s.Coherent r) (datum : Value) (values : List Value) :
    (prefabInstance r datum values).Ensures (Store.Advances r)
      (fun i s' => ∃ levels, PrefabDatum.levelsFor? datum values.length = some levels ∧
        s'.IsTypeOf r levels (s'.record i).type) s := by
  refine (keyOfDatum_ensures hs datum values.length).bind fun k s' hadv hk => ?_
  obtain ⟨levels, hl, hmem, hchain⟩ := hk
  have hs' := (hadv hs).1
  split
  · refine (prefabType_ensures hs' hmem).bind fun t s'' hadv' ⟨hk', ht⟩ => ?_
    refine (newInstance_ensures t values s'').mono fun i s₃ hadv₃ ⟨_, htype⟩ => ?_
    obtain ⟨-, -, hext, -⟩ := hadv₃ (hadv' hs').1
    rw [htype]
    exact ⟨levels, hl, Store.IsTypeOf.mono ⟨k, ⟨hk', hchain⟩, ht⟩ hext⟩
  · exact StoreM.ensures_raise _ s'

/-! ### Declarations -/

/-- What is left of a declaration that keeps to the restrictions on prefab types. -/
lemma Store.prefabRestriction?_eq_none {d : Declaration} (h : s.prefabRestriction? d = none) :
    (∀ u, d.superType = some u → (s.type u).isPrefab) ∧ d.designations = [] := by
  unfold prefabRestriction? at h
  split at h
  · cases h
  · rename_i hsuper
    split at h
    · cases h
    · split at h
      · cases h
      · rename_i hprocedure
        simp only [Bool.or_eq_true, not_or, Bool.not_eq_true, Option.isSome_eq_false_iff,
          Option.isNone_iff_eq_none, List.any_eq_false] at hprocedure
        refine ⟨fun u hu => ?_, ?_⟩
        · simpa [hu] using hsuper
        · have hnone : (d.properties.filter fun b => b.1 = Property.procedure) = [] := by
            refine List.filter_eq_nil_iff.2 fun b hb heq => ?_
            have hnot : s.isA b.1 Property.procedure = false := hprocedure.2 b hb
            rw [of_decide_eq_true heq, Store.isA_refl] at hnot
            cases hnot
          simp [Declaration.designations, hprocedure.1, hnone]

/-- The levels of a declared type on top of those of its super type. -/
def Store.declaredLevels (s : Store) (d : Declaration) : List PrefabLevel :=
  d.prefabLevel :: s.inheritedLevels d.superType

/-- The super type of a declaration, if it is a prefab type, is registered. -/
def Store.SuperRegistered (s : Store) (r : RegistryId) (d : Declaration) : Prop :=
  ∀ u, d.superType = some u → (s.type u).isPrefab → ∃ levels, s.IsTypeOf r levels u

/-- The type of a prefab declaration is registered for its levels. -/
lemma prefabTypeOfDeclaration_ensures (hs : s.Coherent r) {d : Declaration}
    (hd : d.inspector = .prefab) (hsuper : s.SuperRegistered r d) :
    (prefabTypeOfDeclaration r d).Ensures (Store.Advances r)
      (fun t s' => s'.IsTypeOf r (s.declaredLevels d) t) s := by
  refine StoreM.ensures_get_bind ?_
  cases hr : s.prefabRestriction? d with
  | some what => exact StoreM.ensures_raise _ s
  | none =>
    obtain ⟨hprefab, hdesignations⟩ := Store.prefabRestriction?_eq_none hr
    refine (keyOfDeclaration_ensures hs d).bind fun k s' hadv ⟨htypes, hk, hchain⟩ => ?_
    obtain ⟨hs', -, hext, -⟩ := hadv hs
    refine StoreM.ensures_get_bind ?_
    cases ht : (s'.catalog r).typeFor? k with
    | some t =>
      simp only [Store.typeFor?, ht]
      exact StoreM.ensures_pure ⟨k, ⟨hk, hchain⟩, ht⟩
    | none =>
      simp only [Store.typeFor?, ht]
      have hlevels := hchain
      rw [k.levels_eq, SameChain.cons_iff] at hlevels
      obtain ⟨hlevel, hsupers⟩ := hlevels
      refine (declare_register_ensures hs' hk ?_ ?_ ?_).mono
        fun t s'' _ ⟨hk', ht'⟩ => ⟨k, ⟨hk', hchain⟩, ht'⟩
      · intro t hlayout
        obtain ⟨immutables, himm, rfl⟩ := Store.layOut_eq_ok_iff.1 hlayout
        obtain ⟨rfl, hlt⟩ := Store.declaredImmutables_eq_ok himm hdesignations
        obtain ⟨hname, hinit, hauto, hvalue, hmutables⟩ := PrefabLevel.same_iff.1 hlevel
        refine ⟨by simp [RecordType.isPrefab, hd], hname.symm, hinit.symm, hauto.symm,
          Value.same_symm hvalue, ?_⟩
        show FieldSet.ofList d.immutables = k.level.mutables.complement k.level.initCount
        rw [hmutables, hinit]
        exact (FieldSet.complement_complement fun i hi => hlt i (FieldSet.mem_ofList.1 hi)).symm
      · intro hroot
        rw [hroot] at hsupers
        cases hu : d.superType with
        | none => rfl
        | some u =>
          have := SameChain.nil_left.1 hsupers
          simp [Store.inheritedLevels, Store.prefabLevels, Store.chain, hu] at this
          exact absurd this (List.ne_nil_of_mem (Store.mem_ancestry_self s u))
      · intro k' hsk
        rw [hsk] at hsupers
        cases hu : d.superType with
        | none =>
          rw [hu] at hsupers
          rw [Option.elim_some, k'.levels_eq] at hsupers
          cases hsupers
        | some u =>
          obtain ⟨levels, k'', ⟨hk'', -⟩, hu''⟩ := hsuper u hu (hprefab u hu)
          have hsame := hs.catalog.sameChain_prefabLevels hk'' hu''
          rw [hu] at hsupers
          have : k' = k'' := hs'.catalog.interned.keyed.key_unique
            (hs'.catalog.interned.super_mem k hk k' hsk) (hext.keys k'' hk'')
            (hsupers.trans hsame.symm)
          subst this
          exact ⟨u, hext.types k' hk'' u hu'', rfl,
            by rw [htypes]; exact (hs.catalog.fits k' hk'' u hu'').lt⟩

end Records
