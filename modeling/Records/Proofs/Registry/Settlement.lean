import Records.Proofs.Registry.Redefinition

/-!
# Definitions that were answered

A prefab definition that was answered went through three phases. It made a plan, for which it
found or registered the type of its key; then it attached the declared properties; and then it
published what was attached, or compared it with what the type held. In the end its type is
finalized and holds properties that match what was attached.

## Main definitions

* `Store.Plans`: a declaration was planned.
* `Store.Represents`: a type is what a declaration is about.
* `Phases`: the way of a definition.

## Main statements

* `Store.Tabled.ensures_prepare`: what a plan is good for.
* `Store.Coherent.represents`: types of a registry that is used with its own types.
* `exists_phases`: a definition that was answered went through its phases.
* `Phases.replay_eq`, `Phases.matching`: what was attached on the way.
-/

namespace Records

variable {r : RegistryId} {s s' s₁ s₂ : Store} {d : Declaration} {t c x : TypeId} {plan : Plan}
  {a : Attached} {answer : Settled} {R : Store → Store → Prop} {calls : List Exchange}
  {reply : Value → Option Value → List Value}

/-! ### The key of a declaration -/

namespace Store

lemma Evolves.ordered (h : s.Evolves s') (hs' : s'.Ordered) : s.Ordered := by
  intro t u hu
  have hlayout := h.layout t (lt_of_superType hu)
  exact hs' t u ((RecordType.eq_of_layout (·.superType) (fun _ => rfl) hlayout).trans hu)

/-- A type has the same ancestors in later states. -/
lemma Evolves.declaredLevels_eq (h : s.Evolves s') (hs' : s'.Ordered)
    (hsuper : ∀ u, d.superType = some u → u.index < s.types.size) :
    s'.declaredLevels d = s.declaredLevels d :=
  congrArg (d.prefabLevel :: ·) (h.inheritedLevels_eq hs' hsuper)

namespace Tabled

/-- Interning answers the key of the declared structure. -/
lemma isKeyOf (h : s.Tabled r) (d : Declaration) :
    (s.internDeclared r d).IsKeyOf r (s.declaredLevels d) (s.declaredKey r d) := by
  obtain ⟨-, hmem, hchain⟩ := h.interned.internLevels d.bounded_prefabLevel
    (bounded_inheritedLevels s d.superType)
  refine ⟨?_, hchain⟩
  rw [internDeclared, catalog_updateCatalog h.exists_registry]
  exact hmem

/-- The key of a declaration stays the same. -/
lemma declaredKey_eq (h : s.Tabled r) (h' : s'.Tabled r) (hs : s.Evolves s') (hs' : s'.Ordered)
    (hsuper : ∀ u, d.superType = some u → u.index < s.types.size)
    (hkey : s.declaredKey r d ∈ (s'.catalog r).keys) :
    s'.declaredKey r d = s.declaredKey r d := by
  have hchain := (h.isKeyOf d).2
  rw [← hs.declaredLevels_eq hs' hsuper] at hchain
  have hintern := h'.interned.keyed.internChain_of_mem hkey hchain
  rw [declaredLevels, PrefabCatalog.internChain_cons, Prod.mk.injEq, Option.some.injEq] at hintern
  exact hintern.1

end Tabled

end Store

/-! ### Plans -/

/-- What a plan is good for: a type is kept if there is nothing to attach, and a candidate is
newer than all other types. -/
def Plan.Suits (s : Store) (d : Declaration) : Plan → Prop
  | .keep t => (s.type t).isFinalized ∧ d.properties = []
  | .attach _ => True
  | .compare t c => (s.type t).isFinalized ∧ t.index < c.index ∧ s.IsCandidate d c ∧
      ∀ u, d.superType = some u → u.index < c.index

/-- A declaration was planned: it keeps to the restrictions, and the type of the plan is the one
that is registered for its key. -/
structure Store.Plans (s : Store) (r : RegistryId) (d : Declaration) (plan : Plan) (s₁ : Store) :
    Prop where
  unrestricted : s.prefabRestriction? d = none
  key : s.declaredKey r d ∈ (s₁.catalog r).keys
  registered : s₁.typeFor? r (s.declaredKey r d) = some plan.type
  lt : plan.type.index < s₁.types.size
  suits : plan.Suits s₁ d

/-- Adding a type and registering it for a key without one. -/
lemma Store.HasTable.ensures_declare_registerType (hs : s.HasTable r) {k : PrefabKey}
    (hk : s.typeFor? r k = none) (hkey : k ∈ (s.catalog r).keys) (d : Declaration) :
    (declare d >>= registerType r k).Ensures (Store.Retains r)
      (fun t s₁ => k ∈ (s₁.catalog r).keys ∧ s₁.typeFor? r k = some t ∧
        t.index < s₁.types.size) s := by
  refine (ensures_declare (permits_retains r) d s).bind ?_
  rintro t _ - ⟨rfl, type, hl, rfl⟩
  obtain ⟨s₁, hrun, hs₁, hadds⟩ := hs.register hk (layOut_isFinalized hl)
  have hlt : s.types.size < (s.types.push type).size := by simp
  obtain ⟨hretains, -⟩ := ensures_registerType (permits_retains r) r k (t := ⟨s.types.size⟩)
    (s := { s with types := s.types.push type }) hlt
  rw [StoreM.Ensures, hrun] at *
  refine ⟨hretains, ?_⟩
  rintro _ ⟨⟩
  exact ⟨hretains.catalog.keys k hkey, hadds.registered, hs₁.lt_of_typeFor? k _ hadds.registered⟩

namespace Store.Tabled

lemma ensures_prefabTypeOfDeclaration (hs : s.Tabled r) (d : Declaration) :
    (prefabTypeOfDeclaration r d).Ensures (Store.Retains r)
      (fun t s₁ => s.Plans r d (.attach t) s₁ ∧ s.types.size ≤ s₁.types.size) s := by
  have hretains := (along_prefabTypeOfDeclaration (permits_retains r) r d s).1
  refine ⟨hretains, fun t ht => ⟨?_, hretains.evolves.size⟩⟩
  have hkey := (hs.isKeyOf d).1
  obtain ⟨_, hrun, -, hinterned, -⟩ := hs.run_keyOfDeclaration d
  cases hrun
  rw [run_prefabTypeOfDeclaration] at ht ⊢
  cases hr : s.prefabRestriction? d with
  | some what =>
    rw [hr] at ht
    cases ht
  | none =>
    cases hk : s.typeFor? r (s.declaredKey r d) with
    | some u =>
      simp only [hr, hk] at ht ⊢
      cases ht
      exact ⟨hr, hkey, (s.typeFor?_internDeclared r d _).trans hk, hs.lt_of_typeFor? _ _ hk,
        trivial⟩
    | none =>
      simp only [hr, hk] at ht ⊢
      have hk' := (s.typeFor?_internDeclared r d _).trans hk
      obtain ⟨hkey', htype, hlt⟩ := (hinterned.ensures_declare_registerType hk' hkey d).2 t ht
      exact ⟨hr, hkey', htype, hlt, trivial⟩

/-- Making a plan retains what there is, and the plan is good for the declaration. -/
lemma ensures_prepare (hs : s.Tabled r) (hd : d.inspector = .prefab)
    (hsuper : ∀ u, d.superType = some u → u.index < s.types.size) :
    (prepare r d).Ensures (Store.Retains r) (s.Plans r d) s := by
  rw [prepare, if_pos hd]
  refine .bind (.ofStoreM (hs.ensures_prefabTypeOfDeclaration d)) ?_
  rintro t s₁ ⟨hplans, hsize⟩
  refine .bind (.ofStoreM (StoreM.ensures_get s₁)) ?_
  rintro _ _ ⟨rfl, rfl⟩
  split
  · rename_i hfinal
    split
    · rename_i hempty
      exact { hplans with suits := ⟨hfinal, List.isEmpty_iff.1 hempty⟩ }
    · refine .bind (.ofStoreM (ensures_declare (permits_retains r) d _)) ?_
      rintro c _ ⟨rfl, type, hl, rfl⟩
      have hsuper' := fun u hu => Nat.lt_of_lt_of_le (hsuper u hu) hsize
      have hlt : t.index < _ := hplans.lt
      have hcandidate := isCandidate_push hl hsuper'
      refine ⟨hplans.unrestricted, hplans.key, hplans.registered, Nat.lt_trans hlt hcandidate.lt,
        ?_, hlt, hcandidate, hsuper'⟩
      rw [type_push_of_lt hlt]
      exact hfinal
  · exact hplans

end Store.Tabled

/-! ### Types that represent declarations -/

/-- No property is listed with two different values. -/
def Consistent (bindings : List (PropertyId × Value)) : Prop :=
  ∀ b ∈ bindings, ∃ w, bindingOf bindings b.1 = some w ∧ w == b.2

/-- A type has as many fields as are declared, its super type holds what the declared one holds,
and it lists no property with two different values. -/
structure Store.Represents (s : Store) (d : Declaration) (t : TypeId) : Prop where
  totalCount : (s.type t).totalCount = s.declaredCount d
  inherited : s.inherited (s.type t).superType = s.inherited d.superType
  consistent : Consistent (s.type t).properties

namespace Store.Coherent

variable (hs : s.Coherent r) (ht : s.IsTypeOf r (s.declaredLevels d) t)
  (hsuper : ∀ u, d.superType = some u → ∃ levels, s.IsTypeOf r levels u)

include hs ht hsuper

/-- The type of a declared structure has the declared super type, if this is registered as well. -/
lemma superType_eq : (s.type t).superType = d.superType := by
  obtain ⟨k, ⟨hk, hchain⟩, ht⟩ := ht
  have hfits := hs.catalog.fits k hk t ht
  rw [declaredLevels, k.levels_eq, SameChain.cons_iff] at hchain
  obtain ⟨-, hsupers⟩ := hchain
  cases hu : d.superType with
  | none =>
    rw [hu] at hsupers
    cases hk' : k.superKey? with
    | none => exact hfits.root hk'
    | some k' =>
      rw [hk', Option.elim_some, k'.levels_eq] at hsupers
      cases hsupers
  | some u =>
    rw [hu] at hsupers
    obtain ⟨_, k₁, ⟨hk₁, -⟩, hu₁⟩ := hsuper u hu
    have hchain₁ := hsupers.trans (hs.catalog.sameChain_prefabLevels hk₁ hu₁).symm
    cases hk' : k.superKey? with
    | none =>
      rw [hk', Option.elim_none, k₁.levels_eq] at hchain₁
      cases hchain₁
    | some k' =>
      rw [hk', Option.elim_some] at hchain₁
      obtain rfl : k' = k₁ :=
        hs.catalog.interned.keyed.key_unique (hs.catalog.interned.super_mem k hk k' hk') hk₁ hchain₁
      obtain ⟨v, hv, hsuperType, -⟩ := hfits.super k' hk'
      rw [hsuperType]
      exact hv.symm.trans hu₁

/-- It has as many fields as are declared. -/
lemma totalCount_eq (hd : d.inspector = .prefab) (hbuilt : s.Built) :
    (s.type t).totalCount = s.declaredCount d := by
  have hsuperType := hs.superType_eq ht hsuper
  obtain ⟨k, ⟨hk, hchain⟩, ht⟩ := ht
  have hrealizes := (hs.catalog.fits k hk t ht).realizes
  rw [declaredLevels, k.levels_eq, SameChain.cons_iff] at hchain
  obtain ⟨-, hinit, hauto, -, -⟩ := PrefabLevel.same_iff.1 hchain.1
  rw [hbuilt.laidOut.totalCount, hsuperType, RecordType.count_of_isPrefab hrealizes.prefabType,
    hrealizes.initCount, hrealizes.autoCount, hinit, hauto, declaredCount, hd]
  rfl

/-- In a coherent registry the type of a declared structure represents the declaration, unless it
lists a property with two different values. -/
theorem represents (hd : d.inspector = .prefab) (hbuilt : s.Built)
    (hconsistent : Consistent (s.type t).properties) :
    s.Represents d t where
  totalCount := hs.totalCount_eq ht hsuper hd hbuilt
  inherited := by rw [hs.superType_eq ht hsuper]
  consistent := hconsistent

end Store.Coherent

/-! ### Restrictions -/

/-- The restrictions on prefab types are kept to as before. -/
lemma Store.Retains.prefabRestriction? (h : s.Retains r s') (hs : s.Implies)
    (hsuper : ∀ u, d.superType = some u → u.index < s.types.size)
    (hdeclared : ∀ b ∈ d.properties, b.1.index < s.properties.size) :
    s'.prefabRestriction? d = s.prefabRestriction? d := by
  have hprefab : (d.superType.any fun t => !(s'.type t).isPrefab) =
      d.superType.any fun t => !(s.type t).isPrefab := by
    cases hu : d.superType with
    | none => rfl
    | some u =>
      have hlayout := h.evolves.layout u (hsuper u hu)
      have hsame := RecordType.eq_of_layout (·.isPrefab) (fun _ => rfl) hlayout
      simp only [Option.any_some, hsame]
  have hprocedure : (d.properties.any fun b => s'.isA b.1 Property.procedure) =
      d.properties.any fun b => s.isA b.1 Property.procedure := by
    rw [Bool.eq_iff_iff, List.any_eq_true, List.any_eq_true]
    exact exists_congr fun b => and_congr_right fun hb => by
      rw [h.properties.isA hs (hdeclared b hb)]
  rw [Store.prefabRestriction?, Store.prefabRestriction?, hprefab, hprocedure]

/-- A prefab declaration says nothing about the procedure of instances. -/
lemma Store.procedure_of_prefabRestriction? (h : s.prefabRestriction? d = none) :
    d.procedure = none ∧ ∀ b ∈ d.properties, s.isA b.1 Property.procedure = false := by
  unfold prefabRestriction? at h
  split at h
  · cases h
  · split at h
    · cases h
    · split at h
      · cases h
      · rename_i hprocedure
        simpa using hprocedure

/-! ### The phases of a definition -/

/-- Declared properties are attached to the type of the plan or to a candidate. -/
lemma Plan.Suits.exists_attachment (h : plan.Suits s d) (hne : d.properties ≠ [])
    (hprocedure : d.procedure = none) :
    ∃ x, plan.attachment d = attachAll x d.properties none ∧
      (x = plan.type ∨ s.IsCandidate d x) := by
  cases plan with
  | keep t => exact absurd h.2 hne
  | attach t =>
    refine ⟨t, ?_, .inl rfl⟩
    rw [Plan.attachment, hprocedure]
  | compare t c => exact ⟨c, rfl, .inr h.2.2.1⟩

/-- A definition is answered with the type of its plan, once it has published what it attached. -/
lemma answered_of_runs_conclude (h : (plan.conclude d a).Runs R s calls (.ok answer) s') :
    answer.type = plan.type ∧ ∀ x, plan.target? = some x →
      s' = s.publish x (s.resolve x a) ∧ answer.previous = (s.type x).resolution := by
  rw [Computation.runs_iff_of_advance, Plan.run_conclude] at h
  cases plan with
  | keep t =>
    obtain ⟨-, ⟨⟩, -⟩ := h
    exact ⟨rfl, nofun⟩
  | attach t =>
    obtain ⟨-, ⟨⟩, rfl⟩ := h
    refine ⟨rfl, ?_⟩
    rintro _ ⟨⟩
    exact ⟨rfl, rfl⟩
  | compare t c =>
    by_cases hsame : ((s.publish c (s.resolve c a)).type c).sameProperties
        ((s.publish c (s.resolve c a)).type t)
    · simp only [hsame, if_true] at h
      obtain ⟨-, ⟨⟩, rfl⟩ := h
      refine ⟨rfl, ?_⟩
      rintro _ ⟨⟩
      exact ⟨rfl, rfl⟩
    · simp only [hsame, Bool.false_eq_true, if_false] at h
      obtain ⟨-, ⟨⟩, -⟩ := h

/-- The type of the plan is finalized then. -/
lemma finalized_of_runs_conclude (hsuits : plan.Suits s₁ d)
    (hlt : plan.type.index < s₁.types.size) (hs : s₁.Evolves s) (hs' : s.Evolves s')
    (h : (plan.conclude d a).Runs R s calls (.ok answer) s') :
    (s'.type plan.type).isFinalized := by
  have hkept : (s₁.type plan.type).isFinalized → (s'.type plan.type).isFinalized := by
    intro hfinal
    rw [(hs.trans hs').finalized _ hlt hfinal]
    exact hfinal
  cases plan with
  | keep t => exact hkept hsuits.1
  | attach t =>
    obtain ⟨rfl, -⟩ := (answered_of_runs_conclude h).2 t rfl
    have hlt' : t.index < s.types.size := hs.lt hlt
    rw [Plan.type, Store.type_publish_self hlt']
    exact RecordType.isFinalized_publish _ _
  | compare t c => exact hkept hsuits.1

/-- What a definition finalized a type with that represents the declaration matches what the type
holds. -/
lemma matches_of_runs_attach (hlt : t.index < s.types.size)
    (hordered : ∀ u, (s.type t).superType = some u → t ≠ u)
    (h : ((Plan.attach t).conclude d a).Runs R s calls (.ok answer) s')
    (hprevious : answer.previous = none) (hrepresents : s'.Represents d t) :
    Matches (a.bindings ++ s'.inherited d.superType) (s'.type t).properties := by
  have hconsistent := hrepresents.consistent
  rw [← hrepresents.inherited]
  obtain ⟨rfl, hpending⟩ := (answered_of_runs_conclude h).2 t rfl
  rw [hprevious] at hpending
  have hsame := RecordType.eq_of_layout (·.superType) (fun _ => rfl)
    (Store.layout_publish s t t (s.resolve t a))
  rw [hsame, Store.inherited_publish hordered, ← Store.properties_publish_self hlt hpending.symm]
  exact ⟨rfl, hconsistent⟩

/-- What a definition compared with its type matches what the type holds. -/
lemma matches_of_runs_compare (hc : s₁.IsCandidate d c) (hs : s₁.Evolves s)
    (hsuper : ∀ u, d.superType = some u → u.index < s₁.types.size)
    (hnewer : ∀ u, d.superType = some u → c ≠ u) (hne : t ≠ c)
    (h : ((Plan.compare t c).conclude d a).Runs R s calls (.ok answer) s')
    (hprevious : answer.previous = none) :
    Matches (a.bindings ++ s'.inherited d.superType) (s'.type t).properties := by
  obtain ⟨-, hpending⟩ := (answered_of_runs_conclude h).2 c rfl
  rw [hprevious] at hpending
  obtain ⟨-, rfl, ⟨hmatches, -⟩ | ⟨-, e, he⟩⟩ :=
    runs_conclude_compare (hc.evolves hs hsuper hpending.symm) hne h
  · rw [Store.inherited_publish hnewer, Store.type_publish_of_ne hne.symm]
    exact hmatches
  · cases he

/-- A definition that was answered went through its phases: there was a plan, what it attached
came to the end, and was published. -/
structure Phases (r : RegistryId) (d : Declaration) (s : Store) (calls : List Exchange)
    (answer : Settled) (s' : Store) (plan : Plan) (a : Attached) (s₁ s₂ : Store) : Prop where
  plans : s.Plans r d plan s₁
  planned : s.Retains r s₁
  attaches : ∃ during, during ⊆ calls ∧
    (plan.attachment d).Runs (Store.Retains r) s₁ during (.ok a) s₂
  attached : s₁.Retains r s₂
  concludes : ∃ after, (plan.conclude d a).Runs (Store.Retains r) s₂ after (.ok answer) s'
  concluded : s₂.Retains r s'

lemma exists_phases (hs : s.Tabled r) (hd : d.inspector = .prefab)
    (hsuper : ∀ u, d.superType = some u → u.index < s.types.size)
    (h : (settleDeclaration r d).Runs (Store.Retains r) s calls (.ok answer) s') :
    ∃ plan a s₁ s₂, Phases r d s calls answer s' plan a s₁ s₂ := by
  rcases Computation.runs_bind_iff.1 h with
    ⟨_, -, he⟩ | ⟨plan, s₁, before, rest, hprepare, hrest, rfl⟩
  · cases he
  rcases Computation.runs_bind_iff.1 hrest with
    ⟨_, -, he⟩ | ⟨a, s₂, during, after, hattach, hconclude, rfl⟩
  · cases he
  obtain ⟨hplanned, hplans⟩ := (hs.ensures_prepare hd hsuper).of_runs hprepare
  obtain ⟨hattached, -⟩ := (plan.onlyReads_attachment d s₁).ensures.of_runs hattach
  have hensures : (plan.conclude d a).Ensures (Store.Retains r) (fun _ _ => True) s₂ :=
    plan.ensures_conclude (fun s t _ => s.retains_publish t _) s₂
  obtain ⟨hconcluded, -⟩ := hensures.of_runs hconclude
  refine ⟨plan, a, s₁, s₂, hplans plan rfl, hplanned, ⟨during, ?_, hattach⟩, hattached,
    ⟨after, hconclude⟩, hconcluded⟩
  exact List.subset_append_of_subset_right before (List.subset_append_left during after)

namespace Phases

lemma type_eq (h : Phases r d s calls answer s' plan a s₁ s₂) : answer.type = plan.type := by
  obtain ⟨after, hconclude⟩ := h.concludes
  exact (answered_of_runs_conclude hconclude).1

lemma isFinalized (h : Phases r d s calls answer s' plan a s₁ s₂) :
    (s'.type answer.type).isFinalized := by
  obtain ⟨after, hconclude⟩ := h.concludes
  rw [h.type_eq]
  exact finalized_of_runs_conclude h.plans.suits h.plans.lt h.attached.evolves
    h.concluded.evolves hconclude

/-- What was attached is what the properties come to on every type with as many fields. -/
lemma replay_eq (h : Phases r d s calls answer s' plan a s₁ s₂) (hcalls : Conforms reply calls)
    (hne : d.properties ≠ []) (himplies : s.Implies) (himplies₁ : s₁.Implies)
    (hdeclared : ∀ b ∈ d.properties, b.1.index < s.properties.size)
    (hcount : (s₁.type plan.type).totalCount = s₁.declaredCount d) {s₃ : Store}
    (hs₃ : s₁.KeepsProperties s₃) (hx : (s₃.type x).totalCount = s₁.declaredCount d) :
    s₃.replay reply x d.properties = some a.bindings := by
  obtain ⟨hprocedure, hprocedures⟩ := Store.procedure_of_prefabRestriction? h.plans.unrestricted
  obtain ⟨y, hattachment, hy⟩ := h.plans.suits.exists_attachment hne hprocedure
  obtain ⟨during, hsubset, hattach⟩ := h.attaches
  have hdeclared₁ : ∀ b ∈ d.properties, b.1.index < s₁.properties.size := fun b hb =>
    Nat.lt_of_lt_of_le (hdeclared b hb) h.planned.properties.size
  have hprocedures₁ : ∀ b ∈ d.properties, s₁.isA b.1 Property.procedure = false := fun b hb =>
    (h.planned.properties.isA himplies (hdeclared b hb)).trans (hprocedures b hb)
  rw [hattachment] at hattach
  have hbindings := bindings_of_runs_attachAll himplies₁ hdeclared₁ hprocedures₁
    (fun _ _ hmove => hmove.properties) (fun y hy => hcalls y (hsubset hy)) hattach
  have htotal : (s₁.type y).totalCount = s₁.declaredCount d := by
    rcases hy with rfl | hcandidate
    · exact hcount
    · exact hcandidate.totalCount
  rw [hs₃.replay himplies₁ hdeclared₁ (hx.trans htotal.symm), ← hbindings]
  rfl

/-- What was attached matches what the type holds. -/
lemma matching (h : Phases r d s calls answer s' plan a s₁ s₂)
    (hsuper : ∀ u, d.superType = some u → u.index < s₁.types.size) (hordered : s₂.Ordered)
    (hne : d.properties ≠ []) (hprevious : answer.previous = none)
    (hrepresents : s'.Represents d answer.type) :
    Matches (a.bindings ++ s'.inherited d.superType) (s'.type answer.type).properties := by
  obtain ⟨after, hconclude⟩ := h.concludes
  have hsuits := h.plans.suits
  have hlt := h.attached.evolves.lt h.plans.lt
  rw [h.type_eq] at hrepresents ⊢
  cases plan with
  | keep t => exact absurd hsuits.2 hne
  | attach t =>
    refine matches_of_runs_attach hlt (fun u hu => ?_) hconclude hprevious hrepresents
    rintro rfl
    exact Nat.lt_irrefl _ (hordered t t hu)
  | compare t c =>
    obtain ⟨-, htc, hcandidate, hnewer⟩ := hsuits
    refine matches_of_runs_compare hcandidate h.attached.evolves hsuper ?_ ?_ hconclude hprevious
    · rintro u hu rfl
      exact Nat.lt_irrefl _ (hnewer c hu)
    · exact fun heq => Nat.ne_of_lt htc (congrArg Ident.index heq)

end Phases

end Records
