import Records.Proofs.Computation.Trace
import Records.Proofs.Registry.Publication

/-!
# The table of registered types after a failure

A definition that fails publishes nothing on a registered type. The registration of a prefab type
comes first, though, and stays: the table is as it was exactly if the definition did not register
a type, and otherwise it has one pending type more.

## Main definitions

* `Store.SameTable`: the same keys have the same types, finalized or pending as they were.
* `Store.RegistersType`: a definition begins with registering a type for its structure.

## Main statements

* `define_error_sameTable_iff`: what the table is like after a definition that failed.
-/

namespace Records

variable {r : RegistryId} {s s' s'' : Store} {d : Declaration} {k : PrefabKey} {t c : TypeId}
  {e : Failure} {R : Store → Store → Prop} {calls : List Exchange}

namespace Store

/-! ### Tables -/

/-- Two states in which the same keys have the same types, finalized or pending alike. -/
structure SameTable (r : RegistryId) (s s' : Store) : Prop where
  typeFor? : ∀ k, s'.typeFor? r k = s.typeFor? r k
  status : ∀ k t, s.typeFor? r k = some t → (s'.type t).isFinalized = (s.type t).isFinalized

/-- The table of a later state has one type more, which is pending. -/
structure AddsPendingType (r : RegistryId) (k : PrefabKey) (t : TypeId) (s s' : Store) : Prop where
  unregistered : s.typeFor? r k = none
  registered : s'.typeFor? r k = some t
  pending : (s'.type t).isFinalized = false
  others : ∀ k' : PrefabKey, k'.id.number ≠ k.id.number → s'.typeFor? r k' = s.typeFor? r k'
  status : ∀ k t, s.typeFor? r k = some t → (s'.type t).isFinalized = (s.type t).isFinalized

/-- The registry is there, and so are the types it has registered. -/
structure HasTable (s : Store) (r : RegistryId) : Prop where
  exists_registry : r.index < s.registries.size
  lt_of_typeFor? : ∀ k t, s.typeFor? r k = some t → t.index < s.types.size

lemma Coherent.hasTable (h : s.Coherent r) : s.HasTable r :=
  ⟨h.exists_registry, fun _ _ ht => h.catalog.lt_of_typeFor? ht⟩

namespace SameTable

lemma refl (s : Store) : s.SameTable r s := ⟨fun _ => rfl, fun _ _ _ => rfl⟩

lemma trans (h : s.SameTable r s') (h' : s'.SameTable r s'') : s.SameTable r s'' where
  typeFor? k := (h'.typeFor? k).trans (h.typeFor? k)
  status k t ht := by
    rw [← h.status k t ht]
    exact h'.status k t ((h.typeFor? k).trans ht)

/-- A type that is added is pending, and no type changes. -/
lemma push_type (s : Store) {type : RecordType} (h : type.isFinalized = false) :
    s.SameTable r { s with types := s.types.push type } where
  typeFor? _ := rfl
  status k t _ := by
    rw [type_push]
    split
    · rename_i heq
      rw [type_of_size_le (Nat.le_of_eq heq.symm)]
      exact h
    · rfl

/-- Resolving a type that is not registered. -/
lemma publish (h : ∀ k, s.typeFor? r k ≠ some c) (resolution : Resolution) :
    s.SameTable r (s.publish c resolution) where
  typeFor? _ := rfl
  status k t ht := by
    rw [type_publish_of_ne]
    rintro rfl
    exact h k ht

/-- Interning keys. -/
lemma updateCatalog (h : s.HasTable r) {catalog : PrefabCatalog}
    (hc : catalog.types = (s.catalog r).types) : s.SameTable r (s.updateCatalog r catalog) where
  typeFor? k := by
    show ((s.updateCatalog r catalog).catalog r).typeFor? k = (s.catalog r).typeFor? k
    rw [catalog_updateCatalog h.exists_registry, PrefabCatalog.typeFor?, hc,
      PrefabCatalog.typeFor?]
  status _ _ _ := rfl

end SameTable

namespace AddsPendingType

lemma trans (h : s.AddsPendingType r k t s') (h' : s'.SameTable r s'') :
    s.AddsPendingType r k t s'' where
  unregistered := h.unregistered
  registered := (h'.typeFor? k).trans h.registered
  pending := (h'.status k t h.registered).trans h.pending
  others k' hne := (h'.typeFor? k').trans (h.others k' hne)
  status k' u hu := by
    rw [← h.status k' u hu]
    -- the key that was added had no type, so the one at hand is another
    refine h'.status k' u ((h.others k' fun hnumber => ?_).trans hu)
    have hnone : s.typeFor? r k' = none := by
      rw [← h.unregistered, Store.typeFor?, PrefabCatalog.typeFor?, hnumber]
      rfl
    rw [hnone] at hu
    cases hu

lemma of_sameTable (h : s.SameTable r s') (h' : s'.AddsPendingType r k t s'') :
    s.AddsPendingType r k t s'' where
  unregistered := (h.typeFor? k).symm.trans h'.unregistered
  registered := h'.registered
  pending := h'.pending
  others k' hne := (h'.others k' hne).trans (h.typeFor? k')
  status k' u hu := by
    rw [← h.status k' u hu]
    exact h'.status k' u ((h.typeFor? k').trans hu)

lemma not_sameTable (h : s.AddsPendingType r k t s') : ¬s.SameTable r s' := by
  intro hsame
  have hk := hsame.typeFor? k
  rw [h.registered, h.unregistered] at hk
  cases hk

end AddsPendingType

/-! ### Registration -/

/-- The key of a declaration's structure. -/
def declaredKey (s : Store) (r : RegistryId) (d : Declaration) : PrefabKey :=
  ((s.catalog r).internLevels d.prefabLevel (s.inheritedLevels d.superType)).1

/-- A declaration keeps to the restrictions on prefab types, its immutable fields are there, and
its structure has no type yet. -/
structure RegistersType (s : Store) (r : RegistryId) (d : Declaration) : Prop where
  prefabType : d.inspector = .prefab
  unrestricted : s.prefabRestriction? d = none
  immutables : ∀ i ∈ d.immutables, i < d.initCount
  unregistered : s.typeFor? r (s.declaredKey r d) = none

/-- Interning the key of a declaration leaves the table as it is. -/
lemma HasTable.run_keyOfDeclaration (h : s.HasTable r) (d : Declaration) :
    ∃ s₁, (keyOfDeclaration r d).run s = (.ok (s.declaredKey r d), s₁) ∧
      s₁.types = s.types ∧ s₁.HasTable r ∧ s.SameTable r s₁ := by
  have hsame := SameTable.updateCatalog h
    (PrefabCatalog.types_internChain (s.catalog r) (s.declaredLevels d))
  refine ⟨_, rfl, rfl, ⟨?_, fun k t ht => ?_⟩, hsame⟩
  · simpa [updateCatalog] using h.exists_registry
  · exact h.lt_of_typeFor? k t ((hsame.typeFor? k).symm.trans ht)

/-- Registering a new type for a key that has none. -/
lemma HasTable.register (h : s.HasTable r) (hk : s.typeFor? r k = none) {type : RecordType}
    (htype : type.isFinalized = false) :
    ∃ s₁, (registerType r k ⟨s.types.size⟩).run { s with types := s.types.push type } =
        (.ok ⟨s.types.size⟩, s₁) ∧
      s₁.HasTable r ∧ s.AddsPendingType r k ⟨s.types.size⟩ s₁ := by
  have hpush := SameTable.push_type (r := r) s htype
  -- the entry that is added, and the table with it
  have hregister : (s.catalog r).register k ⟨s.types.size⟩ = (⟨s.types.size⟩,
      { s.catalog r with types := (k.id.number, ⟨s.types.size⟩) :: (s.catalog r).types }) := by
    rw [PrefabCatalog.register, show (s.catalog r).typeFor? k = none from hk]
  obtain ⟨s₁, hs₁⟩ : ∃ s₁, s₁ = ({ s with types := s.types.push type } : Store).updateCatalog r
      { s.catalog r with types := (k.id.number, ⟨s.types.size⟩) :: (s.catalog r).types } :=
    ⟨_, rfl⟩
  have hcatalog : s₁.catalog r =
      { s.catalog r with types := (k.id.number, ⟨s.types.size⟩) :: (s.catalog r).types } := by
    rw [hs₁]
    exact catalog_updateCatalog h.exists_registry _
  have htypes : s₁.types = s.types.push type := by rw [hs₁]; rfl
  have hself : ∀ k' : PrefabKey, k'.id.number = k.id.number →
      s₁.typeFor? r k' = some ⟨s.types.size⟩ := by
    intro k' hnumber
    simp [Store.typeFor?, hcatalog, PrefabCatalog.typeFor?, hnumber]
  have hother : ∀ k' : PrefabKey, k'.id.number ≠ k.id.number →
      s₁.typeFor? r k' = s.typeFor? r k' := by
    intro k' hne
    simp [Store.typeFor?, hcatalog, PrefabCatalog.typeFor?, hne.symm]
  refine ⟨s₁, ?_, ⟨?_, fun k' t ht => ?_⟩, hk, hself k rfl, ?_, hother, fun k' t ht => ?_⟩
  · rw [registerType, run_withCatalog]
    show (Except.ok ((s.catalog r).register k _).1, Store.updateCatalog _ r
      ((s.catalog r).register k _).2) = _
    rw [hregister, hs₁]
  · rw [hs₁]
    simpa [updateCatalog] using h.exists_registry
  · rw [htypes, Array.size_push]
    by_cases hnumber : k'.id.number = k.id.number
    · rw [hself k' hnumber] at ht
      cases ht
      exact Nat.lt_succ_self _
    · rw [hother k' hnumber] at ht
      exact Nat.lt_succ_of_lt (h.lt_of_typeFor? k' t ht)
  · rw [hs₁]
    show (({ s with types := s.types.push type } : Store).type _).isFinalized = false
    rw [type_push_self, htype]
  · rw [hs₁]
    exact hpush.status k' t ht

/-- Finding the type of a declaration adds the entry that is missing, and no other. -/
lemma HasTable.run_prefabTypeOfDeclaration (h : s.HasTable r) (hd : d.inspector = .prefab) :
    ((prefabTypeOfDeclaration r d).run s).2.HasTable r ∧
      (s.RegistersType r d → ∃ k t,
        s.AddsPendingType r k t ((prefabTypeOfDeclaration r d).run s).2) ∧
      (¬s.RegistersType r d → s.SameTable r ((prefabTypeOfDeclaration r d).run s).2) := by
  rw [prefabTypeOfDeclaration, StoreM.run_bind]
  simp only [StoreM.run_get]
  cases hr : s.prefabRestriction? d with
  | some what =>
    refine ⟨h, fun hregisters => ?_, fun _ => SameTable.refl s⟩
    rw [hregisters.unrestricted] at hr
    cases hr
  | none =>
    obtain ⟨s₁, hkey, htypes, hs₁, hsame⟩ := h.run_keyOfDeclaration d
    simp only []
    rw [StoreM.run_bind, hkey]
    simp only [StoreM.run_bind, StoreM.run_get]
    cases ht : s₁.typeFor? r (s.declaredKey r d) with
    | some t =>
      refine ⟨hs₁, fun hregisters => ?_, fun _ => hsame⟩
      rw [hsame.typeFor?, hregisters.unregistered] at ht
      cases ht
    | none =>
      rw [hsame.typeFor?] at ht
      have hdesignations := (prefabRestriction?_eq_none hr).2
      simp only [StoreM.run_bind, run_declare]
      cases hl : s₁.layOut d with
      | error e =>
        refine ⟨hs₁, fun hregisters => ?_, fun _ => hsame⟩
        have himmutables := declaredImmutables_of_lt s₁ hdesignations hregisters.immutables
        rw [layOut_eq_ok_iff.2 ⟨_, himmutables, rfl⟩] at hl
        cases hl
      | ok type =>
        obtain ⟨immutables, himmutables, -⟩ := layOut_eq_ok_iff.1 hl
        have hall := (declaredImmutables_eq_ok himmutables hdesignations).2
        obtain ⟨s₂, hregister, hs₂, hadds⟩ :=
          hs₁.register ((hsame.typeFor? _).trans ht) (layOut_isFinalized hl)
        simp only [hregister]
        refine ⟨hs₂, fun _ => ⟨_, _, hadds.of_sameTable hsame⟩, fun hnot => ?_⟩
        exact absurd ⟨hd, hr, hall, ht⟩ hnot

end Store

/-! ### Failure -/

/-- Whatever fails once there is a plan, a registered type is left alone. -/
lemma Plan.sameTable_of_runs_error {plan : Plan} (hR : ∀ s s', R s s' → s.SameTable r s')
    (hown : ∀ t c, plan = .compare t c → ∀ k, s.typeFor? r k ≠ some c)
    (h : ((plan.attachment d).bind (Session.answer d plan)).Runs R s calls (.error e) s') :
    s.SameTable r s' := by
  have hreads := plan.onlyReads_attachment d s
  have htrans : ∀ s₁ s₂, R s₁ s₂ → s.SameTable r s₁ → s.SameTable r s₂ :=
    fun s₁ s₂ hmove hsame => hsame.trans (hR s₁ s₂ hmove)
  rcases Computation.runs_bind_iff.1 h with ⟨_, hattach, -⟩ | ⟨a, s₁, _, _, hattach, hrest, -⟩
  · exact hreads.of_runs htrans hattach (Store.SameTable.refl s)
  · have hsame := hreads.of_runs htrans hattach (Store.SameTable.refl s)
    rcases Computation.runs_bind_iff.1 hrest with
      ⟨_, hconclude, -⟩ | ⟨_, _, _, _, -, ⟨-, hdone, -⟩, -⟩
    · rw [Computation.runs_iff_of_advance, Plan.run_conclude] at hconclude
      cases plan with
      | keep t =>
        obtain ⟨-, hdone, -⟩ := hconclude
        cases hdone
      | attach t =>
        obtain ⟨-, hdone, -⟩ := hconclude
        cases hdone
      | compare t c =>
        have hc : ∀ k, s₁.typeFor? r k ≠ some c := by
          intro k
          rw [hsame.typeFor? k]
          exact hown t c rfl k
        by_cases hsame' : ((s₁.publish c (s₁.resolve c a)).type c).sameProperties
            ((s₁.publish c (s₁.resolve c a)).type t)
        · simp only [hsame', if_true] at hconclude
          obtain ⟨-, hdone, -⟩ := hconclude
          cases hdone
        · simp only [hsame', Bool.false_eq_true, if_false] at hconclude
          obtain ⟨-, -, rfl⟩ := hconclude
          exact hsame.trans (.publish hc _)
    · cases hdone

/-- Planning registers nothing; a candidate for a comparison is not registered either. -/
lemma sameTable_of_runs_planFor (hs : s.HasTable r) {out : Except Failure Plan}
    (h : (planFor t d).Runs R s calls out s') :
    s.SameTable r s' ∧
      ∀ u c, out = .ok (.compare u c) → ∀ k, s'.typeFor? r k ≠ some c := by
  rw [Computation.runs_iff_of_advance, run_planFor] at h
  by_cases hfinal : (s.type t).isFinalized
  · by_cases hempty : d.properties.isEmpty
    · simp only [hfinal, hempty, if_true] at h
      obtain ⟨-, rfl, rfl⟩ := h
      exact ⟨.refl s', nofun⟩
    · simp only [hfinal, hempty, if_true, Bool.false_eq_true, if_false] at h
      cases hl : s.layOut d with
      | error condition =>
        rw [hl] at h
        obtain ⟨-, rfl, rfl⟩ := h
        exact ⟨.refl s', nofun⟩
      | ok type =>
        rw [hl] at h
        obtain ⟨-, rfl, rfl⟩ := h
        refine ⟨.push_type s (Store.layOut_isFinalized hl), fun u c hout k hk => ?_⟩
        cases hout
        exact absurd (hs.lt_of_typeFor? k _ hk) (Nat.lt_irrefl _)
  · simp only [hfinal, Bool.false_eq_true, if_false] at h
    obtain ⟨-, rfl, rfl⟩ := h
    exact ⟨.refl s', nofun⟩

/-- Going on with the type of a prefab declaration, to a failure. -/
lemma sameTable_of_runs_planned (hR : ∀ s s', R s s' → s.SameTable r s') (hs : s.HasTable r)
    (h : ((planFor t d).bind fun plan =>
      (plan.attachment d).bind (Session.answer d plan)).Runs R s calls (.error e) s') :
    s.SameTable r s' := by
  rcases Computation.runs_bind_iff.1 h with ⟨_, hplan, -⟩ | ⟨plan, s₁, _, _, hplan, hrest, -⟩
  · exact (sameTable_of_runs_planFor hs hplan).1
  · obtain ⟨hplanned, hcandidate⟩ := sameTable_of_runs_planFor hs hplan
    refine hplanned.trans (Plan.sameTable_of_runs_error hR ?_ hrest)
    rintro u c rfl
    exact hcandidate u c rfl

/-- Adding the type of a declaration registers nothing. -/
lemma sameTable_of_runs_declare {out : Except Failure TypeId}
    (h : (Computation.ofStoreM (declare d)).Runs R s calls out s') : s.SameTable r s' := by
  obtain ⟨-, hrun⟩ := Computation.runs_ofStoreM_iff.1 h
  rw [run_declare] at hrun
  cases hl : s.layOut d with
  | error condition =>
    rw [hl] at hrun
    cases hrun
    exact .refl s
  | ok type =>
    rw [hl] at hrun
    cases hrun
    exact .push_type s (Store.layOut_isFinalized hl)

/-- A definition that fails, whatever its calls were answered, leaves the table of registered
types as it was exactly if it did not begin with registering a type; that type is all that was
added, and it is pending. -/
theorem define_error_sameTable_iff (hs : s.HasTable r)
    (hR : ∀ s s', R s s' → s.SameTable r s')
    (h : (define r d).Runs R s calls (.error e) s') :
    (s.SameTable r s' ↔ ¬s.RegistersType r d) ∧
      (s.RegistersType r d → ∃ k t, s.AddsPendingType r k t s') := by
  -- it is enough to follow the table from the registration on
  suffices hmoves : (s.RegistersType r d → ∃ k t, s.AddsPendingType r k t s') ∧
      (¬s.RegistersType r d → s.SameTable r s') by
    refine ⟨⟨fun hsame hregisters => ?_, hmoves.2⟩, hmoves.1⟩
    obtain ⟨k, t, hadds⟩ := hmoves.1 hregisters
    exact hadds.not_sameTable hsame
  have hphases : define r d = (prepare r d).bind fun plan =>
      (plan.attachment d).bind (Session.answer d plan) := define_eq_phases r d
  by_cases hd : d.inspector = .prefab
  · have hprepare : prepare r d =
        (Computation.ofStoreM (prefabTypeOfDeclaration r d)).bind fun t => planFor t d := by
      rw [prepare, if_pos hd]
      rfl
    rw [hphases, hprepare, Computation.bind_assoc] at h
    obtain ⟨htable, hadds, hsame⟩ := hs.run_prefabTypeOfDeclaration hd
    rcases Computation.runs_bind_iff.1 h with ⟨_, hfind, -⟩ | ⟨t, s₁, _, _, hfind, hrest, -⟩
    · obtain ⟨-, hrun⟩ := Computation.runs_ofStoreM_iff.1 hfind
      rw [hrun] at hadds hsame
      exact ⟨hadds, hsame⟩
    · obtain ⟨-, hrun⟩ := Computation.runs_ofStoreM_iff.1 hfind
      rw [hrun] at htable hadds hsame
      have hlater := sameTable_of_runs_planned hR htable hrest
      refine ⟨fun hregisters => ?_, fun hnot => (hsame hnot).trans hlater⟩
      obtain ⟨k, t, hadd⟩ := hadds hregisters
      exact ⟨k, t, hadd.trans hlater⟩
  · refine ⟨fun hregisters => absurd hregisters.prefabType hd, fun _ => ?_⟩
    have hprepare : prepare r d =
        (Computation.ofStoreM (declare d)).bind fun t => .done (.attach t) := by
      rw [prepare, if_neg hd]
      rfl
    rw [hphases, hprepare, Computation.bind_assoc] at h
    rcases Computation.runs_bind_iff.1 h with ⟨_, hdeclare, -⟩ | ⟨t, s₁, _, _, hdeclare, hrest, -⟩
    · exact sameTable_of_runs_declare hdeclare
    · exact (sameTable_of_runs_declare hdeclare).trans
        (Plan.sameTable_of_runs_error hR (fun u c hplan => by cases hplan) hrest)

/-! ### Failing at a guard, and before -/

/-- A guard fails for a structure that has no type yet. -/
theorem define_error_sameTable_iff_guarded :
    ∃ call s', Session.guarded.store.HasTable ⟨0⟩ ∧
      (∀ s s' : Store, s = s' → s.SameTable ⟨0⟩ s') ∧
      (define ⟨0⟩ (markedDeclaration ⟨6⟩ (.ofNat 1))).Runs Eq Session.guarded.store [call]
        (.error (.condition (.raised "no"))) s' ∧
      Session.guarded.store.RegistersType ⟨0⟩ (markedDeclaration ⟨6⟩ (.ofNat 1)) ∧
      (Session.guarded.store.SameTable ⟨0⟩ s' ↔
        ¬Session.guarded.store.RegistersType ⟨0⟩ (markedDeclaration ⟨6⟩ (.ofNat 1))) ∧
      (Session.guarded.store.RegistersType ⟨0⟩ (markedDeclaration ⟨6⟩ (.ofNat 1)) →
        ∃ k t, Session.guarded.store.AddsPendingType ⟨0⟩ k t s') := by
  have hs := Session.reachable_guarded.sound.coherent.hasTable
  have hR : ∀ s s' : Store, s = s' → s.SameTable ⟨0⟩ s' := by
    rintro s _ rfl
    exact .refl s
  have hruns : ∃ call s', (define ⟨0⟩ (markedDeclaration ⟨6⟩ (.ofNat 1))).Runs Eq
      Session.guarded.store [call] (.error (.condition (.raised "no"))) s' := by
    obtain ⟨p, args, resume, s₁, hcall⟩ : ∃ p args resume s₁,
        (define ⟨0⟩ (markedDeclaration ⟨6⟩ (.ofNat 1))).advance.run Session.guarded.store =
          (.ok (.suspended p args resume), s₁) := by
      rw [define_eq_phases]
      exact ⟨_, _, _, _, rfl⟩
    refine ⟨⟨p, args, .error (.condition (.raised "no"))⟩, s₁, ?_⟩
    rw [Computation.runs_iff_of_advance, hcall]
    exact .inl ⟨_, rfl, rfl, rfl⟩
  obtain ⟨call, s', hruns⟩ := hruns
  exact ⟨call, s', hs, hR, hruns, ⟨rfl, rfl, by decide, rfl⟩,
    define_error_sameTable_iff hs hR hruns⟩

/-- A checked procedure with one field only. -/
def shortDeclaration : Declaration where
  name := ⟨"cp"⟩
  initCount := 1
  inspector := .prefab
  properties := [(Property.checkedProcedure, .bool true)]

/-- Its definition fails without a call, but leaves a type behind. -/
theorem exists_error_not_sameTable :
    ∃ e s', (define ⟨0⟩ shortDeclaration).Runs Eq Session.initial.store [] (.error e) s' ∧
      ¬Session.initial.store.SameTable ⟨0⟩ s' := by
  refine ⟨_, _, Computation.runs_iff_of_advance.2 ⟨rfl, rfl, rfl⟩, fun hsame => ?_⟩
  have hk := hsame.typeFor? (Session.initial.store.declaredKey ⟨0⟩ shortDeclaration)
  cases hk

end Records
