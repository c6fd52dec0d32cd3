import Records.Proofs.RecordType.Offset
import Records.Proofs.Registry.Guarantee

/-!
# Adding bare types

A registry lays out types for keys, and for prefab declarations that keep to the restrictions.
None of them has a guard, and all of them have their fields behind those of their super type.

## Main definitions

* `Store.IsBare`: a type without a guard.
* `Store.AddsBare`: a later state of a store in which bare types were added.
* `Store.Registers`: a registry knows a type.

## Main statements

* `addsBare_prefabType`, `addsBare_prefabInstance`: types that are asked for by a key, and literals.
* `addsBare_prepare`: the plan of a prefab definition.
* `Store.Registers.of_mem_ancestry`: a registry knows the ancestors of the types that it knows.
-/

namespace Records

variable {s s' s'' : Store} {r : RegistryId} {t u : TypeId} {d : Declaration}

/-! ### Bare types -/

/-- A type has no guard, and its fields are behind those of its super type. -/
structure Store.IsBare (s : Store) (t : TypeId) : Prop where
  guard : (s.type t).guard = none
  totalCount : (∀ u, (s.type t).superType = some u → u.index < t.index) →
    (s.type t).totalCount = (s.type t).count (s.inheritedCount (s.type t).superType +
      ((s.type t).initCount + (s.type t).autoCount))

/-- A later state of a store in which types were added, all of them bare. -/
structure Store.AddsBare (s s' : Store) : Prop where
  enlarges : s.Enlarges s'
  bare : ∀ t : TypeId, s.types.size ≤ t.index → s'.IsBare t

namespace Store

lemma isBare_of_size_le (h : s.types.size ≤ t.index) : s.IsBare t := by
  constructor <;> rw [type_of_size_le h]
  · rfl
  · exact fun _ => rfl

/-- What makes a type bare is fixed when the type is laid out. -/
lemma IsBare.evolves (h : s.IsBare t) (hs : s.Evolves s') (ht : t.index < s.types.size) :
    s'.IsBare t := by
  have hlayout := hs.layout t ht
  constructor
  · rw [RecordType.eq_of_layout (·.guard) (fun _ => rfl) hlayout]
    exact h.guard
  · rw [RecordType.eq_of_layout (·.superType) (fun _ => rfl) hlayout,
      RecordType.eq_of_layout (·.totalCount) (fun _ => rfl) hlayout,
      RecordType.eq_of_layout (fun t => t.count (_ + (t.initCount + t.autoCount)))
        (fun _ => rfl) hlayout]
    intro holder
    have hinherited : s'.inheritedCount (s.type t).superType =
        s.inheritedCount (s.type t).superType :=
      inheritedCount_congr fun u hu => hs.layout u (Nat.lt_trans (holder u hu) ht)
    rw [h.totalCount holder, hinherited]

namespace AddsBare

instance : IsPreorder Store AddsBare where
  refl s := ⟨Enlarges.refl s, fun _ => isBare_of_size_le⟩
  trans s s' s'' h h' := by
    refine ⟨h.enlarges.trans h'.enlarges, fun t ht => ?_⟩
    rcases Nat.lt_or_ge t.index s'.types.size with hlt | hge
    · exact (h.bare t ht).evolves h'.enlarges.evolves hlt
    · exact h'.bare t hge

lemma of_types_eq (h : s'.types = s.types) : s.AddsBare s' := by
  refine ⟨Enlarges.of_types_eq h, fun t ht => isBare_of_size_le ?_⟩
  rw [h]
  exact ht

/-- The type of a declaration without a guard is bare. -/
lemma of_layOut {type : RecordType} (hl : s.layOut d = .ok type) (hd : d.guard = none) :
    s.AddsBare { s with types := s.types.push type } := by
  refine ⟨Enlarges.push_type s type, fun t ht => ?_⟩
  have htotal := layOut_totalCount hl
  have hsuper : type.superType = d.superType := by
    obtain ⟨-, -, rfl⟩ := layOut_eq_ok_iff.1 hl
    rfl
  by_cases hnew : t.index = s.types.size
  · constructor <;> rw [type_push, if_pos hnew]
    · obtain ⟨-, -, rfl⟩ := layOut_eq_ok_iff.1 hl
      exact hd
    · intro holder
      have hsame : ({ s with types := s.types.push type } : Store).inheritedCount type.superType =
          s.inheritedCount type.superType := by
        refine inheritedCount_congr fun u hu => ?_
        have hlt := holder u hu
        rw [hnew] at hlt
        rw [type_push_of_lt hlt]
      rw [hsame, htotal, hsuper]
  · refine isBare_of_size_le ?_
    rw [Array.size_push]
    omega

end AddsBare

end Store

/-! ### Operations that add bare types -/

/-- An operation adds bare types at most. -/
abbrev StoreM.AddsBare {α : Type} (m : StoreM α) : Prop := m.Along Store.AddsBare

lemma addsBare_withCatalog {α : Type} (r : RegistryId) (f : PrefabCatalog → α × PrefabCatalog) :
    (withCatalog r f).AddsBare :=
  fun _ => ⟨.of_types_eq rfl, fun _ _ => trivial⟩

lemma addsBare_keyOfType (r : RegistryId) (t : TypeId) : (keyOfType r t).AddsBare :=
  .get_bind fun _ => addsBare_withCatalog r _

lemma addsBare_keyOfDeclaration (r : RegistryId) (d : Declaration) :
    (keyOfDeclaration r d).AddsBare :=
  .get_bind fun _ => addsBare_withCatalog r _

lemma addsBare_keyOfDatum (r : RegistryId) (datum : Value) (total : Nat) :
    (keyOfDatum r datum total).AddsBare := by
  have hrefuse : (refuseDatum datum : StoreM PrefabKey).AddsBare := .get_bind fun _ => .raise _
  unfold keyOfDatum
  cases PrefabDatum.parse? datum with
  | none => exact hrefuse
  | some d =>
    refine .bind (addsBare_withCatalog r _) fun k? => ?_
    cases k? with
    | none => exact hrefuse
    | some k => exact .pure k

lemma addsBare_declare (hd : d.guard = none) : (declare d).AddsBare := by
  intro s
  rw [StoreM.Ensures, run_declare]
  cases hl : s.layOut d with
  | error e => exact ⟨refl_of Store.AddsBare s, fun t ht => by cases ht⟩
  | ok type => exact ⟨.of_layOut hl hd, fun _ _ => trivial⟩

lemma addsBare_declare_register (r : RegistryId) (k : PrefabKey) (hd : d.guard = none) :
    (declare d >>= registerType r k).AddsBare :=
  (addsBare_declare hd).bind fun _ => addsBare_withCatalog r _

lemma addsBare_ensureType (r : RegistryId) (k : PrefabKey) {super : StoreM (Option TypeId)}
    (hsuper : super.AddsBare) : (ensureType r k super).AddsBare := by
  refine .get_bind fun s => ?_
  cases s.typeFor? r k with
  | some t => exact .pure t
  | none => exact hsuper.bind fun u => addsBare_declare_register r k rfl

lemma addsBare_prefabType (r : RegistryId) (k : PrefabKey) : (prefabType r k).AddsBare := by
  obtain ⟨id, level, supers⟩ := k
  unfold prefabType
  induction supers generalizing id level with
  | nil => exact addsBare_ensureType r _ (.pure none)
  | cons head rest ih =>
    refine addsBare_ensureType r _ ?_
    rw [map_eq_pure_bind]
    exact (ih head.1 head.2).bind fun t => .pure (some t)

lemma addsBare_prefabTypeOfDatum (r : RegistryId) (datum : Value) (total : Nat) :
    (prefabTypeOfDatum r datum total).AddsBare :=
  (addsBare_keyOfDatum r datum total).bind fun k => addsBare_prefabType r k

lemma addsBare_newInstance (t : TypeId) (values : List Value) :
    (newInstance t values).AddsBare := by
  intro s
  rw [StoreM.Ensures, run_newInstance]
  refine ⟨?_, fun _ _ => trivial⟩
  split <;> exact .of_types_eq rfl

lemma addsBare_prefabInstance (r : RegistryId) (datum : Value) (values : List Value) :
    (prefabInstance r datum values).AddsBare := by
  refine (addsBare_keyOfDatum r datum values.length).bind fun k => ?_
  split
  · exact (addsBare_prefabType r k).bind fun t => addsBare_newInstance t values
  · exact .raise _

/-- A prefab declaration that keeps to the restrictions has no guard. -/
lemma Store.guard_of_prefabRestriction? (h : s.prefabRestriction? d = none) : d.guard = none := by
  unfold prefabRestriction? at h
  split at h
  · cases h
  · split at h
    · cases h
    · rename_i hguard
      simpa using hguard

/-- The type of a prefab declaration, which comes to nothing unless the declaration keeps to the
restrictions. -/
lemma ensures_prefabTypeOfDeclaration_guard (r : RegistryId) (d : Declaration) (s : Store) :
    (prefabTypeOfDeclaration r d).Ensures Store.AddsBare (fun _ _ => d.guard = none) s := by
  refine StoreM.ensures_get_bind ?_
  cases hr : s.prefabRestriction? d with
  | some what => exact StoreM.ensures_raise _ s
  | none =>
    have hd := Store.guard_of_prefabRestriction? hr
    refine (addsBare_keyOfDeclaration r d s).bind fun k s _ _ => StoreM.ensures_get_bind ?_
    cases s.typeFor? r k with
    | some t => exact StoreM.ensures_pure hd
    | none => exact (addsBare_declare_register r k hd s).mono fun _ _ _ _ => hd

lemma addsBare_prepare (r : RegistryId) (hd : d.inspector = .prefab) :
    (prepare r d).advance.AddsBare := by
  intro s
  have hprepare : (prepare r d).Ensures Store.AddsBare (fun _ _ => True) s := by
    unfold prepare
    rw [if_pos hd]
    refine .bind (.ofStoreM (ensures_prefabTypeOfDeclaration_guard r d s)) fun t s hguard => ?_
    refine .bind (.ofStoreM (StoreM.ensures_get s)) fun s₁ s _ => ?_
    split
    · split
      · trivial
      · exact .bind (.ofStoreM (addsBare_declare hguard s)) fun _ _ _ => trivial
    · trivial
  exact ⟨hprepare.advance, fun _ _ => trivial⟩

/-! ### Registered types -/

/-- A registry knows a type. -/
def Store.Registers (s : Store) (r : RegistryId) (t : TypeId) : Prop :=
  ∃ k ∈ (s.catalog r).keys, (s.catalog r).typeFor? k = some t

namespace Store.Registers

lemma of_typeFor? (hs : s.Coherent r) {k : PrefabKey} (ht : (s.catalog r).typeFor? k = some t) :
    s.Registers r t := by
  obtain ⟨k', hk', hnumber⟩ := hs.catalog.registered (k.id.number, t) (mem_of_find?_key ht)
  refine ⟨k', hk', ?_⟩
  rw [← ht, PrefabCatalog.typeFor?, PrefabCatalog.typeFor?, hnumber]

lemma lt (h : s.Registers r t) (hs : s.Coherent r) : t.index < s.types.size := by
  obtain ⟨k, -, ht⟩ := h
  exact hs.catalog.lt_of_typeFor? ht

lemma isPrefab (h : s.Registers r t) (hs : s.Coherent r) : (s.type t).isPrefab := by
  obtain ⟨k, hk, ht⟩ := h
  exact (hs.catalog.fits k hk t ht).realizes.prefabType

/-- The super type is known as well, and it is older. -/
lemma super (h : s.Registers r t) (hs : s.Coherent r) (hu : (s.type t).superType = some u) :
    s.Registers r u ∧ u.index < t.index := by
  obtain ⟨k, hk, ht⟩ := h
  have hfits := hs.catalog.fits k hk t ht
  cases hsuper : k.superKey? with
  | none =>
    rw [hfits.root hsuper] at hu
    cases hu
  | some k' =>
    obtain ⟨u', hu', heq, hlt⟩ := hfits.super k' hsuper
    rw [hu] at heq
    cases heq
    exact ⟨⟨k', hs.catalog.interned.super_mem k hk k' hsuper, hu'⟩, hlt⟩

/-- A type is known now if it was known before, or it is new and pending. -/
lemma of_grows (h : s'.Registers r t) (hs : s.Coherent r) (hgrows : s.Grows r s') :
    s.Registers r t ∨ s.types.size ≤ t.index ∧ (s'.type t).resolution = none := by
  obtain ⟨k, -, ht⟩ := h
  rcases hgrows.registered k t ht with ht | hnew
  · exact .inl (of_typeFor? hs ht)
  · exact .inr hnew

/-- The ancestors of a type that is known are known. -/
lemma of_mem_ancestryWithin (h : s.Registers r t) (hs : s.Coherent r) {n : Nat}
    (hu : u ∈ s.ancestryWithin n t) : s.Registers r u := by
  induction n generalizing t with
  | zero =>
    obtain rfl := List.mem_singleton.1 hu
    exact h
  | succ n ih =>
    rcases List.mem_cons.1 hu with rfl | hu
    · exact h
    · cases hsuper : (s.type t).superType with
      | none =>
        rw [hsuper] at hu
        cases hu
      | some v =>
        rw [hsuper] at hu
        exact ih (h.super hs hsuper).1 hu

lemma of_mem_ancestry (h : s.Registers r t) (hs : s.Coherent r) (hu : u ∈ s.ancestry t) :
    s.Registers r u :=
  h.of_mem_ancestryWithin hs hu

/-- The fields of the types of a chain add up if they are bare. -/
lemma totalCount_eq (h : s.Registers r t) (hs : s.Coherent r)
    (hbare : ∀ u, s.Registers r u → s.IsBare u) :
    (s.type t).totalCount = fieldCount (s.chain t) := by
  have hexact : ∀ t, s.Registers r t → (s.type t).totalCount =
      s.inheritedCount (s.type t).superType + ((s.type t).initCount + (s.type t).autoCount) := by
    intro t ht
    rw [(hbare t ht).totalCount fun u hu => (ht.super hs hu).2,
      RecordType.count_of_isPrefab (ht.isPrefab hs)]
  have hwithin : ∀ n (t : TypeId), s.Registers r t → t.index ≤ n →
      (s.type t).totalCount = fieldCount ((s.ancestryWithin n t).map s.type) := by
    intro n
    induction n with
    | zero =>
      intro t ht hn
      have hroot : (s.type t).superType = none := by
        cases hsuper : (s.type t).superType with
        | none => rfl
        | some u =>
          have hlt := (ht.super hs hsuper).2
          omega
      rw [hexact t ht, hroot]
      exact Nat.add_comm _ _
    | succ n ih =>
      intro t ht hn
      rw [hexact t ht, Store.ancestryWithin, List.map_cons, fieldCount_cons, Nat.add_comm]
      cases hsuper : (s.type t).superType with
      | none => rfl
      | some u =>
        obtain ⟨hu, hlt⟩ := ht.super hs hsuper
        have hih := ih u hu (by omega)
        show _ + (s.type u).totalCount = _
        rw [hih]
  exact hwithin t.index t h (Nat.le_refl _)

end Store.Registers

end Records
