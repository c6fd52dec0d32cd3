import Records.Proofs.RecordType.Chain
import Records.Proofs.Registry.Failure

/-!
# The types of keys

A registry provides a type for every key. If none is registered under the number of the key, a
type is laid out on top of the type that is provided for the super key, and registered. Which
types there are is looked up by number, so the nearest registered type along the chain of the key
is taken as it is, whatever its structure; all levels in front of it are laid out as the key says.

## Main definitions

* `Store.Provides`: how a registry provides the type of a key.
* `Store.Founded`: the types of a registry are there, and super types are older.
* `Store.Honours`: a type has the structure of a key.
* `Store.nearest?`: the nearest registered type along the chain of a key.

## Main statements

* `exists_provides`: a type is provided for every key.
* `Store.Provides.honours_iff`: when the type has the structure of the key.
-/

namespace Records

variable {r : RegistryId} {s s' : Store} {k k' : PrefabKey} {t u : TypeId} {type : RecordType}

/-- All levels of a key have their mutable fields among their init fields. -/
def PrefabKey.Bounded (k : PrefabKey) : Prop := ∀ l ∈ k.levels, l.Bounded

lemma PrefabKey.Bounded.superKey (h : k.Bounded) (hsuper : k.superKey? = some k') :
    k'.Bounded := by
  intro l hl
  refine h l ?_
  rw [PrefabKey.levels_of_superKey? hsuper]
  exact List.mem_cons_of_mem _ hl

namespace Store

/-! ### Registering a new type -/

/-- The type that a key has once a new one was offered for it: an older one if there is one. -/
def registrant (s : Store) (r : RegistryId) (k : PrefabKey) : TypeId :=
  ((s.catalog r).register k ⟨s.types.size⟩).1

/-- The store once a type was added and offered for a key. -/
def enroll (s : Store) (r : RegistryId) (k : PrefabKey) (type : RecordType) : Store :=
  ({ s with types := s.types.push type } : Store).updateCatalog r
    ((s.catalog r).register k ⟨s.types.size⟩).2

lemma run_declare_register (s : Store) (r : RegistryId) (k : PrefabKey) (d : Declaration) :
    (declare d >>= registerType r k).run s =
      match s.layOut d with
      | .ok type => (.ok (s.registrant r k), s.enroll r k type)
      | .error c => (.error (.condition c), s) := by
  rw [StoreM.run_bind, run_declare]
  cases s.layOut d <;> rfl

lemma enlarges_enroll (s : Store) (r : RegistryId) (k : PrefabKey) (type : RecordType) :
    s.Enlarges (s.enroll r k type) := by
  have hpush := Enlarges.push_type s type
  exact ⟨hpush.size, hpush.type⟩

@[simp] lemma type_enroll_self (s : Store) (r : RegistryId) (k : PrefabKey) (type : RecordType) :
    (s.enroll r k type).type ⟨s.types.size⟩ = type :=
  type_push_self s type

lemma registrant_of_none (h : s.typeFor? r k = none) : s.registrant r k = ⟨s.types.size⟩ := by
  rw [registrant, PrefabCatalog.register, show (s.catalog r).typeFor? k = none from h]

lemma registrant_of_some (h : s.typeFor? r k = some t) : s.registrant r k = t := by
  rw [registrant, PrefabCatalog.register, show (s.catalog r).typeFor? k = some t from h]

section

variable (hr : r.index < s.registries.size)

include hr

lemma catalog_enroll (k : PrefabKey) (type : RecordType) :
    (s.enroll r k type).catalog r = ((s.catalog r).register k ⟨s.types.size⟩).2 := by
  rw [enroll]
  exact catalog_updateCatalog hr _

lemma typeFor?_enroll_self (k : PrefabKey) (type : RecordType) :
    (s.enroll r k type).typeFor? r k = some (s.registrant r k) := by
  show ((s.enroll r k type).catalog r).typeFor? k = _
  rw [catalog_enroll hr]
  exact PrefabCatalog.typeFor?_register _ k _

/-- Keys of another number keep their types. -/
lemma typeFor?_enroll_of_ne (hne : k'.id.number ≠ k.id.number) (type : RecordType) :
    (s.enroll r k type).typeFor? r k' = s.typeFor? r k' := by
  show ((s.enroll r k type).catalog r).typeFor? k' = (s.catalog r).typeFor? k'
  rw [catalog_enroll hr, PrefabCatalog.register]
  cases (s.catalog r).typeFor? k with
  | some existing => rfl
  | none => simp [PrefabCatalog.typeFor?, hne.symm]

end

/-! ### Foundations -/

/-- The types that a registry has registered are there, and super types are older. -/
structure Founded (r : RegistryId) (s : Store) : Prop extends s.HasTable r where
  ordered : s.Ordered

namespace Founded

lemma updateCatalog (h : s.Founded r) {c : PrefabCatalog} (hc : c.types = (s.catalog r).types) :
    (s.updateCatalog r c).Founded r where
  exists_registry := by simpa [Store.updateCatalog] using h.exists_registry
  lt_of_typeFor? k t ht := by
    refine h.lt_of_typeFor? k t ?_
    rw [← ht, ← (SameTable.updateCatalog h.toHasTable hc).typeFor?]
  ordered := h.ordered

lemma enroll (h : s.Founded r) (k : PrefabKey)
    (hsuper : ∀ u, type.superType = some u → u.index < s.types.size) :
    (s.enroll r k type).Founded r where
  exists_registry := by simpa [Store.enroll, Store.updateCatalog] using h.exists_registry
  lt_of_typeFor? k' t ht := by
    have hsize : (s.enroll r k type).types.size = s.types.size + 1 := Array.size_push type
    rw [hsize]
    by_cases hnumber : k'.id.number = k.id.number
    · have hsame : (s.enroll r k type).typeFor? r k' = (s.enroll r k type).typeFor? r k := by
        simp only [Store.typeFor?, PrefabCatalog.typeFor?, hnumber]
      rw [hsame, typeFor?_enroll_self h.exists_registry, Option.some.injEq] at ht
      subst ht
      cases hk : s.typeFor? r k with
      | none =>
        rw [registrant_of_none hk]
        exact Nat.lt_succ_self _
      | some t =>
        rw [registrant_of_some hk]
        exact Nat.lt_succ_of_lt (h.lt_of_typeFor? k t hk)
    · rw [typeFor?_enroll_of_ne h.exists_registry hnumber] at ht
      exact Nat.lt_succ_of_lt (h.lt_of_typeFor? k' t ht)
  ordered := h.ordered.push hsuper

end Founded

/-- The structure of a type that was added. -/
lemma prefabLevels_enroll (h : s.Founded r) (k : PrefabKey)
    (hsuper : ∀ u, type.superType = some u → u.index < s.types.size) :
    (s.enroll r k type).prefabLevels ⟨s.types.size⟩ =
      type.prefabLevel :: s.inheritedLevels type.superType := by
  have hordered := (h.enroll k hsuper).ordered
  rw [hordered.prefabLevels_eq, type_enroll_self,
    (s.enlarges_enroll r k type).evolves.inheritedLevels_eq hordered hsuper]

/-! ### Types of levels -/

/-- What a level declares can always be laid out, as the level says. -/
lemma exists_layOut_declaration (s : Store) (l : PrefabLevel) (super : Option TypeId) :
    ∃ type, s.layOut (l.declaration super) = .ok type := by
  have himmutables := declaredImmutables_of_lt s (d := l.declaration super) rfl fun i hi =>
    (FieldSet.mem_complement.1 (FieldSet.mem_def.2 hi)).1
  exact ⟨_, layOut_eq_ok_iff.2 ⟨_, himmutables, rfl⟩⟩

lemma realizes_of_layOut {l : PrefabLevel} {super : Option TypeId}
    (h : s.layOut (l.declaration super) = .ok type) :
    type.Realizes l ∧ type.superType = super := by
  obtain ⟨immutables, himmutables, rfl⟩ := layOut_eq_ok_iff.1 h
  obtain ⟨rfl, -⟩ := declaredImmutables_eq_ok himmutables rfl
  exact ⟨⟨rfl, rfl, rfl, rfl, Value.same_refl _, FieldSet.ofList_indices _⟩, rfl⟩

lemma superType_lt_of_layOut {l : PrefabLevel} {super : Option TypeId}
    (h : s.layOut (l.declaration super) = .ok type)
    (hsuper : ∀ u, super = some u → u.index < s.types.size) :
    ∀ u, type.superType = some u → u.index < s.types.size := by
  rw [(realizes_of_layOut h).2]
  exact hsuper

/-! ### Providing types -/

/-- A registry provides the type of a key: it finds the type that is registered, or adds one on
top of the type that it provides for the super key. -/
inductive Provides (r : RegistryId) : PrefabKey → Store → TypeId → Store → Prop
  | found {k : PrefabKey} {s : Store} {t : TypeId} (hk : s.typeFor? r k = some t) :
      Provides r k s t s
  | root {k : PrefabKey} {s : Store} {type : RecordType} (hk : s.typeFor? r k = none)
      (hroot : k.superKey? = none) (hl : s.layOut (k.level.declaration none) = .ok type) :
      Provides r k s (s.registrant r k) (s.enroll r k type)
  | sub {k k' : PrefabKey} {s s₁ : Store} {u : TypeId} {type : RecordType}
      (hk : s.typeFor? r k = none) (hsuper : k.superKey? = some k') (h : Provides r k' s u s₁)
      (hl : s₁.layOut (k.level.declaration (some u)) = .ok type) :
      Provides r k s (s₁.registrant r k) (s₁.enroll r k type)

end Store

/-- A registry provides a type for every key, in every store. -/
theorem exists_provides (r : RegistryId) (k : PrefabKey) (s : Store) :
    ∃ t s', (prefabType r k).run s = (.ok t, s') ∧ Store.Provides r k s t s' := by
  obtain ⟨id, level, supers⟩ := k
  unfold prefabType
  induction supers generalizing id level with
  | nil =>
    rw [prefabTypeOfChain, ensureType, StoreM.run_bind]
    simp only [StoreM.run_get]
    cases hk : s.typeFor? r ⟨id, level, []⟩ with
    | some t => exact ⟨t, s, rfl, .found hk⟩
    | none =>
      obtain ⟨type, hl⟩ := s.exists_layOut_declaration level none
      refine ⟨_, _, ?_, .root hk rfl hl⟩
      simp only [pure_bind]
      rw [Store.run_declare_register, hl]
  | cons head rest ih =>
    obtain ⟨superId, superLevel⟩ := head
    rw [prefabTypeOfChain, ensureType, StoreM.run_bind]
    simp only [StoreM.run_get]
    cases hk : s.typeFor? r ⟨id, level, (superId, superLevel) :: rest⟩ with
    | some t => exact ⟨t, s, rfl, .found hk⟩
    | none =>
      obtain ⟨u, s₁, hrun, hprovides⟩ := ih superId superLevel
      obtain ⟨type, hl⟩ := s₁.exists_layOut_declaration level (some u)
      refine ⟨_, _, ?_, .sub hk rfl hprovides hl⟩
      simp only [map_eq_pure_bind, bind_assoc, pure_bind]
      rw [StoreM.run_bind, hrun]
      simp only
      rw [Store.run_declare_register, hl]

namespace Store

/-- The numbers of a chain of keys up to the nearest one that a type is registered under. -/
def missing (s : Store) (r : RegistryId) : List (KeyId × PrefabLevel) → List Nat
  | [] => []
  | (id, level) :: supers =>
    match s.typeFor? r ⟨id, level, supers⟩ with
    | some _ => []
    | none => id.number :: s.missing r supers

/-- The nearest type that is registered along a chain of keys, with the key it is taken for. -/
def nearest? (s : Store) (r : RegistryId) : List (KeyId × PrefabLevel) → Option (PrefabKey × TypeId)
  | [] => none
  | (id, level) :: supers =>
    match s.typeFor? r ⟨id, level, supers⟩ with
    | some t => some (⟨id, level, supers⟩, t)
    | none => s.nearest? r supers

lemma missing_chain (s : Store) (r : RegistryId) (k : PrefabKey) :
    s.missing r k.chain =
      match s.typeFor? r k with
      | some _ => []
      | none => k.id.number :: k.superKey?.elim [] fun k' => s.missing r k'.chain := by
  obtain ⟨id, level, _ | ⟨⟨superId, superLevel⟩, rest⟩⟩ := k <;> rfl

lemma nearest?_chain (s : Store) (r : RegistryId) (k : PrefabKey) :
    s.nearest? r k.chain =
      match s.typeFor? r k with
      | some t => some (k, t)
      | none => k.superKey?.bind fun k' => s.nearest? r k'.chain := by
  obtain ⟨id, level, _ | ⟨⟨superId, superLevel⟩, rest⟩⟩ := k <;> rfl

/-- A type has the structure of a key, level by level. -/
def Honours (s : Store) (k : PrefabKey) (t : TypeId) : Prop :=
  SameChain k.levels (s.prefabLevels t)

lemma Evolves.honours_iff (h : s.Evolves s') (hs' : s'.Ordered) (ht : t.index < s.types.size) :
    s'.Honours k t ↔ s.Honours k t := by
  rw [Honours, h.prefabLevels_eq hs' ht, Honours]

namespace Provides

/-- No type changes. -/
lemma enlarges (h : Provides r k s t s') : s.Enlarges s' := by
  induction h with
  | found _ => exact .refl _
  | root _ _ _ => exact enlarges_enroll _ r _ _
  | sub _ _ _ _ ih => exact ih.trans (enlarges_enroll _ r _ _)

lemma exists_registry (h : Provides r k s t s') (hr : r.index < s.registries.size) :
    r.index < s'.registries.size := by
  induction h with
  | found _ => exact hr
  | root _ _ _ => simpa [enroll, updateCatalog] using hr
  | sub _ _ _ _ ih => simpa [enroll, updateCatalog] using ih hr

/-- The type is registered for the key then. -/
lemma typeFor?_self (h : Provides r k s t s') (hr : r.index < s.registries.size) :
    s'.typeFor? r k = some t := by
  cases h with
  | found hk => exact hk
  | root _ _ _ => exact typeFor?_enroll_self hr k _
  | sub _ _ h _ => exact typeFor?_enroll_self (h.exists_registry hr) k _

/-- The type is registered for the key, and types of other numbers are those they were. -/
lemma registered (h : Provides r k s t s') (hs : s.Founded r) :
    s'.Founded r ∧ s'.typeFor? r k = some t ∧
      ∀ k' : PrefabKey, k'.id.number ∉ s.missing r k.chain →
        s'.typeFor? r k' = s.typeFor? r k' := by
  induction h with
  | found hk => exact ⟨hs, hk, fun _ _ => rfl⟩
  | @root k s type hk hroot hl =>
    have hsuper := superType_lt_of_layOut hl nofun
    refine ⟨hs.enroll k hsuper, typeFor?_enroll_self hs.exists_registry k type, fun k' hk' => ?_⟩
    rw [missing_chain, hk] at hk'
    exact typeFor?_enroll_of_ne hs.exists_registry (List.ne_of_not_mem_cons hk') type
  | @sub k k₁ s s₁ u type hk hsuperKey hprovides hl ih =>
    obtain ⟨hs₁, hu, hothers⟩ := ih hs
    have hsuper := superType_lt_of_layOut hl fun v hv =>
      Option.some.inj hv ▸ hs₁.lt_of_typeFor? k₁ u hu
    refine ⟨hs₁.enroll k hsuper, typeFor?_enroll_self hs₁.exists_registry k type, fun k' hk' => ?_⟩
    rw [missing_chain, hk, hsuperKey, List.mem_cons, not_or] at hk'
    obtain ⟨hne, hnot⟩ := hk'
    rw [typeFor?_enroll_of_ne hs₁.exists_registry hne]
    exact hothers k' hnot

/-- The type that is provided for a key has the structure of the key exactly if the nearest type
along the chain has the structure of the key that it is taken for. -/
theorem honours_iff (h : Provides r k s t s') (hs : s.Founded r) (hbounded : k.Bounded)
    (hnodup : (s.missing r k.chain).Nodup) :
    s'.Honours k t ↔ ∀ k' u, s.nearest? r k.chain = some (k', u) → s.Honours k' u := by
  induction h with
  | found hk =>
    rw [nearest?_chain, hk]
    constructor
    · rintro hhonours _ _ ⟨⟩
      exact hhonours
    · exact fun hnearest => hnearest _ _ rfl
  | @root k s type hk hroot hl =>
    obtain ⟨hrealizes, hsuperType⟩ := realizes_of_layOut hl
    have hlevels := prefabLevels_enroll hs k (superType_lt_of_layOut hl nofun)
    have hsame := hrealizes.same (hbounded k.level List.mem_cons_self)
    rw [nearest?_chain, hk, hroot, registrant_of_none hk]
    refine iff_of_true ?_ nofun
    rw [Honours, hlevels, hsuperType, k.levels_eq, hroot, SameChain.cons_iff]
    exact ⟨hsame, .refl _⟩
  | @sub k k₁ s s₁ u type hk hsuperKey hprovides hl ih =>
    obtain ⟨hs₁, hu, hothers⟩ := hprovides.registered hs
    obtain ⟨hrealizes, hsuperType⟩ := realizes_of_layOut hl
    have hlevels := prefabLevels_enroll hs₁ k <| superType_lt_of_layOut hl fun v hv =>
      Option.some.inj hv ▸ hs₁.lt_of_typeFor? k₁ u hu
    have hsame := hrealizes.same (hbounded k.level List.mem_cons_self)
    rw [missing_chain, hk, hsuperKey] at hnodup
    obtain ⟨hnumber, hnodup⟩ := List.nodup_cons.1 hnodup
    -- the number of the key is none of those that were given types before it
    have hk₁ : s₁.typeFor? r k = none := (hothers k hnumber).trans hk
    rw [nearest?_chain, hk, hsuperKey, Option.bind_some,
      ← ih hs (hbounded.superKey hsuperKey) hnodup,
      registrant_of_none hk₁, Honours, hlevels, hsuperType, k.levels_eq, hsuperKey,
      SameChain.cons_iff]
    exact and_iff_right hsame

end Provides

end Store

end Records
