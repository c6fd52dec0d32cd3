import Records.Proofs.Attachment.Reading
import Records.Proofs.Registry.Coherence

/-!
# The phases of a definition

A declaration is answered in three phases: a plan is made, properties are attached as the plan
says, and the outcome is published. Calls are made in the second phase only, which in turn
leaves the store alone.

## Main statements

* `define_eq_phases`: these phases are what answering a declaration comes to.
* `prepare_ensures`: what a plan is good for.
* `Plan.onlyReads_attachment`: attaching properties only reads.
-/

namespace Records

/-- How a declaration is going to be answered. -/
inductive Plan where
  /-- With a type that has everything already. -/
  | keep (type : TypeId)
  /-- With a type that takes on the declared properties. -/
  | attach (type : TypeId)
  /-- With a type that holds what a candidate takes on. -/
  | compare (type candidate : TypeId)

/-- What a definition was answered with. -/
structure Settled where
  type : TypeId
  /-- The properties that were declared or derived, and their values. -/
  bindings : List (PropertyId × Value)
  /-- What the type they were attached to had been resolved to by others. -/
  previous : Option Resolution

/-- Make a plan for a declaration. -/
def prepare (r : RegistryId) (d : Declaration) : Computation Plan := do
  if d.inspector = .prefab then
    let t ← prefabTypeOfDeclaration r d
    if ((← get : Store).type t).isFinalized then
      if d.properties.isEmpty then
        return .keep t
      else
        let candidate ← declare d
        return .compare t candidate
    else
      return .attach t
  else
    let t ← declare d
    return .attach t

namespace Plan

/-- The type a declaration is going to be answered with. -/
def type : Plan → TypeId
  | .keep t => t
  | .attach t => t
  | .compare t _ => t

/-- Attach the declared properties. -/
def attachment (d : Declaration) : Plan → Computation Attached
  | .keep _ => return {}
  | .attach t => attachAll t d.properties d.procedure
  | .compare _ candidate => attachAll candidate d.properties none

/-- Publish what was attached. -/
def conclude (d : Declaration) (a : Attached) : Plan → Computation Settled
  | .keep t => return ⟨t, [], none⟩
  | .attach t => do
    let s ← get
    modifyType t (·.publish (s.resolve t a))
    return ⟨t, a.bindings, (s.type t).resolution⟩
  | .compare t candidate => do
    let s ← get
    modifyType candidate (·.publish (s.resolve candidate a))
    let s' ← get
    if (s'.type candidate).sameProperties (s'.type t) then
      return ⟨t, a.bindings, (s.type candidate).resolution⟩
    else
      raise <| .prefabRestriction d.name.name
        "properties differing from the existing definition"

end Plan

/-- Answering a declaration goes through the phases. -/
theorem define_eq_phases (r : RegistryId) (d : Declaration) :
    define r d = do
      let plan ← prepare r d
      let a ← plan.attachment d
      let settled ← plan.conclude d a
      return definition settled.type := by
  unfold define prepare
  by_cases hd : d.inspector = .prefab
  · simp only [hd, if_true, bind_assoc]
    refine bind_congr fun t => bind_congr fun s => ?_
    by_cases hfinal : (s.type t).isFinalized
    · by_cases hempty : d.properties.isEmpty
      · simp only [hfinal, hempty, redefine, if_true]
        rfl
      · simp only [hfinal, hempty, redefine, if_true, Bool.false_eq_true, if_false, bind_assoc,
          attach_eq, pure_bind, Plan.attachment, Plan.conclude]
        refine bind_congr fun candidate => bind_congr fun a => bind_congr fun s =>
          bind_congr fun _ => bind_congr fun s' => ?_
        split <;> rfl
    · simp only [hfinal, Bool.false_eq_true, if_false, bind_assoc, attach_eq, pure_bind,
        Plan.attachment, Plan.conclude]
  · simp only [hd, if_false, bind_assoc, attach_eq, pure_bind, Plan.attachment, Plan.conclude]

namespace Plan

lemma onlyReads_attachment (d : Declaration) (plan : Plan) (s : Store) :
    (plan.attachment d).OnlyReads s := by
  cases plan with
  | keep t => trivial
  | attach t => exact onlyReads_attachAll t _ _ s
  | compare t candidate => exact onlyReads_attachAll candidate _ _ s

end Plan

/-! ### What a plan is good for -/

variable {r : RegistryId} {s s' : Store} {d : Declaration} {levels : List PrefabLevel}
  {t c : TypeId}

/-- A type answers a declaration: a prefab type is the one registered for the levels. -/
structure Store.Answers (s : Store) (r : RegistryId) (d : Declaration)
    (levels : List PrefabLevel) (t : TypeId) : Prop where
  lt : t.index < s.types.size
  registered : d.inspector = .prefab → s.IsTypeOf r levels t
  plain : d.inspector ≠ .prefab → (s.type t).isPrefab = false

/-- A type is pending, and the registry does not know it. -/
structure Store.IsPrivate (s : Store) (r : RegistryId) (c : TypeId) : Prop where
  lt : c.index < s.types.size
  pending : (s.type c).resolution = none
  unregistered : ∀ k, (s.catalog r).typeFor? k ≠ some c

lemma Store.Answers.mono (h : s.Answers r d levels t) (hs : s.Evolves s')
    (hc : (s.catalog r).Extends (s'.catalog r)) : s'.Answers r d levels t where
  lt := hs.lt h.lt
  registered hd := (h.registered hd).mono hc
  plain hd := (congrArg RecordType.isPrefab (hs.layout t h.lt)).trans (h.plain hd)

lemma Store.IsPrivate.grows (h : s.IsPrivate r c) (hs : s.Grows r s') : s'.IsPrivate r c := by
  refine ⟨Nat.lt_of_lt_of_le h.lt hs.enlarges.size, ?_, fun k hk => ?_⟩
  · rw [hs.enlarges.type c h.lt]
    exact h.pending
  · rcases hs.registered k c hk with hk | ⟨hnew, -⟩
    · exact h.unregistered k hk
    · exact absurd h.lt (Nat.not_lt.2 hnew)

/-- A prefab type that answers a declaration is not private. -/
lemma Store.Answers.ne_private (h : s.Answers r d levels t) (hd : d.inspector = .prefab)
    (hc : s.IsPrivate r c) : t ≠ c := by
  rintro rfl
  obtain ⟨k, -, ht⟩ := h.registered hd
  exact hc.unregistered k ht

namespace Plan

/-- The type that only the definition itself is about. -/
def own? (d : Declaration) : Plan → Option TypeId
  | .keep _ => none
  | .attach t => if d.inspector = .prefab then none else some t
  | .compare _ candidate => some candidate

/-- A plan for a declaration can be carried out. -/
structure Valid (s : Store) (r : RegistryId) (d : Declaration) (levels : List PrefabLevel)
    (plan : Plan) : Prop where
  answers : s.Answers r d levels plan.type
  own : ∀ c, plan.own? d = some c → s.IsPrivate r c
  compared : ∀ t c, plan = .compare t c → d.inspector = .prefab ∧ (s.type t).isFinalized
  kept : ∀ t, plan = .keep t → (s.type t).isFinalized

end Plan

lemma Plan.Valid.mono {plan : Plan} (h : plan.Valid s r d levels) (hs : s.Evolves s')
    (hc : (s.catalog r).Extends (s'.catalog r))
    (hown : ∀ c, plan.own? d = some c → s'.IsPrivate r c) : plan.Valid s' r d levels where
  answers := h.answers.mono hs hc
  own := hown
  compared := by
    rintro t c rfl
    obtain ⟨hd, hfinal⟩ := h.compared t c rfl
    refine ⟨hd, ?_⟩
    rw [hs.finalized t h.answers.lt hfinal]
    exact hfinal
  kept := by
    rintro t rfl
    have hfinal := h.kept t rfl
    rw [hs.finalized t h.answers.lt hfinal]
    exact hfinal

/-- A declared type is new, pending, and registered nowhere. -/
lemma declare_ensures (hs : s.Coherent r) (d : Declaration) :
    (declare d).Ensures (Store.Advances r)
      (fun t s' => s.types.size ≤ t.index ∧ t.index < s'.types.size ∧
        (s'.type t).isPrefab = decide (d.inspector = .prefab) ∧
        (s'.type t).resolution = none ∧ ∀ k, (s'.catalog r).typeFor? k ≠ some t) s := by
  rw [StoreM.Ensures, run_declare]
  cases hl : s.layOut d with
  | error e => exact ⟨refl_of (Store.Advances r) s, fun t ht => by cases ht⟩
  | ok type =>
    refine ⟨Store.Advances.of_registries_eq (Store.Enlarges.push_type s type) rfl,
      fun t ht => ?_⟩
    cases ht
    obtain ⟨-, -, rfl⟩ := Store.layOut_eq_ok_iff.1 hl
    rw [Store.type_push_self]
    refine ⟨Nat.le_refl _, by simp, rfl, rfl, fun k hk => ?_⟩
    exact absurd (hs.catalog.lt_of_typeFor? hk) (Nat.lt_irrefl _)

/-- The plan for a prefab declaration, once the type is known that it is about. -/
def planFor (t : TypeId) (d : Declaration) : Computation Plan := do
  if ((← get : Store).type t).isFinalized then
    if d.properties.isEmpty then
      return .keep t
    else
      let candidate ← declare d
      return .compare t candidate
  else
    return .attach t

/-- The plan is made without a call; it fails only where the declaration cannot be laid out. -/
lemma run_planFor (t : TypeId) (d : Declaration) (s : Store) :
    (planFor t d).advance.run s =
      if (s.type t).isFinalized then
        if d.properties.isEmpty then
          (.ok (.returned (.keep t)), s)
        else
          match s.layOut d with
          | .ok type =>
            (.ok (.returned (.compare t ⟨s.types.size⟩)), { s with types := s.types.push type })
          | .error c => (.error (.condition c), s)
      else
        (.ok (.returned (.attach t)), s) := by
  show ((Computation.ofStoreM (get : StoreM Store)).bind _).advance.run s = _
  rw [Computation.run_advance_bind, Computation.run_advance_ofStoreM]
  simp only [StoreM.run_get]
  split
  · split
    · rfl
    · show ((Computation.ofStoreM (declare d)).bind _).advance.run s = _
      rw [Computation.run_advance_bind, Computation.run_advance_ofStoreM, run_declare]
      cases s.layOut d <;> rfl
  · rfl

/-- A finalized type is kept or compared with a new one, and a pending one is shared. -/
lemma planFor_ensures (hs : s.Coherent r) (hd : d.inspector = .prefab)
    (hanswers : s.Answers r d levels t) :
    (planFor t d).advance.Ensures (Store.Advances r)
      (fun step s' => ∃ plan : Plan, step = .returned plan ∧ plan.Valid s' r d levels ∧
        ∀ c, plan.own? d = some c → s.types.size ≤ c.index) s := by
  show ((Computation.ofStoreM (get : StoreM Store)).bind _).advance.Ensures _ _ _
  rw [Computation.advance_ofStoreM_bind]
  refine StoreM.ensures_get_bind ?_
  by_cases hfinal : (s.type t).isFinalized
  · simp only [hfinal, if_true]
    by_cases hempty : d.properties.isEmpty
    · simp only [hempty, if_true]
      have hvalid : (Plan.keep t).Valid s r d levels := by
        refine ⟨hanswers, nofun, nofun, fun u hu => ?_⟩
        cases hu
        exact hfinal
      exact StoreM.ensures_pure ⟨.keep t, rfl, hvalid, nofun⟩
    · simp only [hempty, Bool.false_eq_true, if_false]
      show ((Computation.ofStoreM (declare d)).bind _).advance.Ensures _ _ _
      rw [Computation.advance_ofStoreM_bind]
      refine (declare_ensures hs d).bind fun c s₁ hadv ⟨hnew, hlt, _, hprivate⟩ => ?_
      have hgrows := hadv hs
      have hvalid : (Plan.compare t c).Valid s₁ r d levels := by
        refine ⟨hanswers.mono hgrows.enlarges.evolves hgrows.catalog, ?_, ?_, nofun⟩
        · intro c' hc'
          cases hc'
          exact ⟨hlt, hprivate.1, hprivate.2⟩
        · intro u c' hu
          cases hu
          rw [hgrows.enlarges.type t hanswers.lt]
          exact ⟨hd, hfinal⟩
      refine StoreM.ensures_pure ⟨.compare t c, rfl, hvalid, ?_⟩
      intro c' hc'
      cases hc'
      exact hnew
  · simp only [hfinal, Bool.false_eq_true, if_false]
    have hown : ∀ c, (Plan.attach t).own? d ≠ some c := by
      intro c hc
      rw [Plan.own?, if_pos hd] at hc
      cases hc
    refine StoreM.ensures_pure ⟨.attach t, rfl, ⟨hanswers, ?_, nofun, nofun⟩, ?_⟩
    · exact fun c hc => absurd hc (hown c)
    · exact fun c hc => absurd hc (hown c)

lemma prepare_ensures (hs : s.Coherent r)
    (hsuper : d.inspector = .prefab → s.SuperRegistered r d) :
    (prepare r d).advance.Ensures (Store.Advances r)
      (fun step s' => ∃ plan : Plan, step = .returned plan ∧
        plan.Valid s' r d (s.declaredLevels d) ∧
        ∀ c, plan.own? d = some c → s.types.size ≤ c.index) s := by
  rw [prepare]
  by_cases hd : d.inspector = .prefab
  · rw [if_pos hd]
    show ((Computation.ofStoreM (prefabTypeOfDeclaration r d)).bind
      fun t => planFor t d).advance.Ensures _ _ _
    rw [Computation.advance_ofStoreM_bind]
    refine (prefabTypeOfDeclaration_ensures hs hd (hsuper hd)).bind fun t s₁ hadv ht => ?_
    have hs₁ := (hadv hs).coherent
    have hanswers : s₁.Answers r d (s.declaredLevels d) t :=
      ⟨ht.lt hs₁, fun _ => ht, fun hplain => absurd hd hplain⟩
    refine (planFor_ensures hs₁ hd hanswers).mono fun step s₂ _ ⟨plan, hstep, hplan, hnew⟩ => ?_
    exact ⟨plan, hstep, hplan, fun c hc => Nat.le_trans (hadv hs).enlarges.size (hnew c hc)⟩
  · rw [if_neg hd]
    show ((Computation.ofStoreM (declare d)).bind _).advance.Ensures _ _ _
    rw [Computation.advance_ofStoreM_bind]
    refine (declare_ensures hs d).bind fun t s₁ _ ⟨hnew, hlt, hplain, hprivate⟩ => ?_
    have hown : ∀ c, (Plan.attach t).own? d = some c → t = c := by
      intro c hc
      rw [Plan.own?, if_neg hd] at hc
      exact Option.some.inj hc
    have hanswers : s₁.Answers r d (s.declaredLevels d) t :=
      ⟨hlt, fun hprefab => absurd hprefab hd, fun _ => by simpa [hd] using hplain⟩
    refine StoreM.ensures_pure ⟨.attach t, rfl, ⟨hanswers, ?_, nofun, nofun⟩, ?_⟩
    · intro c hc
      rw [← hown c hc]
      exact ⟨hlt, hprivate.1, hprivate.2⟩
    · intro c hc
      rw [← hown c hc]
      exact hnew

/-! ### What a definition keeps -/

/-- A list of properties holds every binding of another one, up to equality of the values. -/
def Covers (properties bindings : List (PropertyId × Value)) : Prop :=
  ∀ p v, bindingOf bindings p = some v → ∃ w, bindingOf properties p = some w ∧ w == v

lemma covers_append (bindings inherited : List (PropertyId × Value)) :
    Covers (bindings ++ inherited) bindings := by
  intro p v hv
  obtain ⟨b, hb, rfl⟩ := Option.map_eq_some_iff.1 hv
  refine ⟨b.2, ?_, Value.same_refl b.2⟩
  rw [bindingOf, List.find?_append, hb]
  rfl

lemma covers_nil (properties : List (PropertyId × Value)) : Covers properties [] := by
  intro p v hv
  cases hv

/-- A type that has the same properties as another one holds what the other one holds. -/
lemma Covers.of_sameProperties {type other : RecordType} {bindings : List (PropertyId × Value)}
    (h : Covers type.properties bindings) (hsame : type.sameProperties other) :
    Covers other.properties bindings := by
  intro p v hv
  obtain ⟨w, hw, hwv⟩ := h p v hv
  simp only [RecordType.sameProperties, Bool.and_eq_true, List.all_eq_true] at hsame
  have hany := hsame.2 (p, w) (mem_of_find?_key hw)
  rw [Option.any_eq_true] at hany
  obtain ⟨u, hu, huv⟩ := hany
  exact ⟨u, hu, Value.same_trans huv hwv⟩

/-- What is left of a definition in later states: its type is finalized, and holds what was
attached unless somebody else resolved it before, to something else. -/
structure Settled.Kept (c : Settled) (r : RegistryId) (s : Store) : Prop where
  lt : c.type.index < s.types.size
  finalized : (s.type c.type).isFinalized
  registered : (s.type c.type).isPrefab → ∃ levels, s.IsTypeOf r levels c.type
  shared : c.previous.isSome → (s.type c.type).isPrefab
  covers : Covers (s.type c.type).properties c.bindings ↔
    ∀ resolution, c.previous = some resolution → Covers resolution.properties c.bindings

lemma Settled.Kept.mono {c : Settled} (h : c.Kept r s) (hs : s.Evolves s')
    (hc : (s.catalog r).Extends (s'.catalog r)) : c.Kept r s' := by
  have htype := hs.finalized c.type h.lt h.finalized
  refine ⟨hs.lt h.lt, ?_, fun hprefab => ?_, ?_, ?_⟩
  · rw [htype]
    exact h.finalized
  · rw [htype] at hprefab
    obtain ⟨levels, hlevels⟩ := h.registered hprefab
    exact ⟨levels, hlevels.mono hc⟩
  · rw [htype]
    exact h.shared
  · rw [htype]
    exact h.covers

/-- Publishing resolves a pending type and leaves a resolved one alone. -/
lemma covers_publish (s : Store) (t : TypeId) (a : Attached) :
    Covers ((s.type t).publish (s.resolve t a)).properties a.bindings ↔
      ∀ resolution, (s.type t).resolution = some resolution →
        Covers resolution.properties a.bindings := by
  unfold RecordType.publish RecordType.properties
  cases hr : (s.type t).resolution with
  | none =>
    simp only [reduceCtorEq, false_implies, implies_true, iff_true]
    exact covers_append a.bindings _
  | some resolution => simp [hr]

/-- What was attached to a private type is published. -/
lemma Store.IsPrivate.covers_publish (h : s.IsPrivate r c) (a : Attached) :
    Covers ((s.type c).publish (s.resolve c a)).properties a.bindings := by
  refine (Records.covers_publish s c a).2 fun resolution hsome => ?_
  rw [h.pending] at hsome
  cases hsome

namespace Store.Answers

lemma exists_isTypeOf (h : s.Answers r d levels t) (hprefab : (s.type t).isPrefab) :
    ∃ levels, s.IsTypeOf r levels t := by
  by_cases hd : d.inspector = .prefab
  · exact ⟨levels, h.registered hd⟩
  · rw [h.plain hd] at hprefab
    cases hprefab

lemma isPrefab (h : s.Answers r d levels t) (hs : s.Coherent r) (hd : d.inspector = .prefab) :
    (s.type t).isPrefab := by
  obtain ⟨k, ⟨hk, -⟩, ht⟩ := h.registered hd
  exact (hs.catalog.fits k hk t ht).realizes.prefabType

lemma kept_keep (h : s.Answers r d levels t) (hfinal : (s.type t).isFinalized) :
    Settled.Kept ⟨t, [], none⟩ r s := by
  refine ⟨h.lt, hfinal, h.exists_isTypeOf, nofun, ?_⟩
  constructor
  · intro _ resolution hnone
    cases hnone
  · intro _
    exact covers_nil _

lemma kept_attach (h : s.Answers r d levels t) (hs : s.Coherent r)
    (hown : d.inspector ≠ .prefab → s.IsPrivate r t) (a : Attached) :
    Settled.Kept ⟨t, a.bindings, (s.type t).resolution⟩ r (s.publish t (s.resolve t a)) := by
  have hevolves := Evolves.publish s t (s.resolve t a)
  have h' := h.mono hevolves (PrefabCatalog.Extends.refl _)
  have htype := type_publish_self h.lt (s.resolve t a)
  refine ⟨h'.lt, ?_, h'.exists_isTypeOf, fun hsome => ?_, ?_⟩
  · rw [htype]
    exact RecordType.isFinalized_publish _ _
  · by_cases hd : d.inspector = .prefab
    · exact (congrArg RecordType.isPrefab (hevolves.layout t h.lt)).trans (h.isPrefab hs hd)
    · rw [(hown hd).pending] at hsome
      cases hsome
  · rw [htype]
    exact Records.covers_publish s t a

/-- The candidate is private, so the comparison is about what was attached to it. -/
lemma kept_compare (h : s.Answers r d levels t) (hd : d.inspector = .prefab)
    (hfinal : (s.type t).isFinalized) (hc : s.IsPrivate r c) (a : Attached)
    (hsame : ((s.publish c (s.resolve c a)).type c).sameProperties
      ((s.publish c (s.resolve c a)).type t)) :
    Settled.Kept ⟨t, a.bindings, (s.type c).resolution⟩ r (s.publish c (s.resolve c a)) := by
  have h' := h.mono (Evolves.publish s c (s.resolve c a)) (PrefabCatalog.Extends.refl _)
  have htype := type_publish_of_ne (s := s) (h.ne_private hd hc).symm (s.resolve c a)
  refine ⟨h'.lt, ?_, h'.exists_isTypeOf, fun hsome => ?_, iff_of_true ?_ ?_⟩
  · rw [htype]
    exact hfinal
  · rw [hc.pending] at hsome
    cases hsome
  · refine Covers.of_sameProperties ?_ hsame
    rw [type_publish_self hc.lt]
    exact hc.covers_publish a
  · intro resolution hsome
    rw [hc.pending] at hsome
    cases hsome

end Store.Answers

/-- Publishing makes no calls; it fails only behind a comparison. -/
lemma Plan.run_conclude (plan : Plan) (d : Declaration) (a : Attached) (s : Store) :
    (plan.conclude d a).advance.run s =
      match plan with
      | .keep t => (.ok (.returned ⟨t, [], none⟩), s)
      | .attach t =>
        (.ok (.returned ⟨t, a.bindings, (s.type t).resolution⟩), s.publish t (s.resolve t a))
      | .compare t c =>
        let s' := s.publish c (s.resolve c a)
        (if (s'.type c).sameProperties (s'.type t) then
          .ok (.returned ⟨t, a.bindings, (s.type c).resolution⟩)
        else
          .error (.condition (.prefabRestriction d.name.name
            "properties differing from the existing definition")), s') := by
  cases plan with
  | keep t => rfl
  | attach t => rfl
  | compare t c =>
    show ((Computation.ofStoreM (get : StoreM Store)).bind fun s =>
      (Computation.ofStoreM (modifyType c (·.publish (s.resolve c a)))).bind fun _ =>
        (Computation.ofStoreM (get : StoreM Store)).bind _).advance.run s = _
    simp only [Computation.run_advance_bind, Computation.run_advance_ofStoreM, StoreM.run_get,
      Store.run_publish]
    generalize s.publish c (s.resolve c a) = s'
    by_cases hsame : (s'.type c).sameProperties (s'.type t)
    · simp only [hsame, if_true]
      rfl
    · simp only [hsame, Bool.false_eq_true, if_false]
      rfl

/-- Publishing touches no type that is private to another definition. -/
lemma Plan.conclude_ensures {plan : Plan} (hs : s.Coherent r)
    (hplan : plan.Valid s r d levels) (a : Attached) :
    (plan.conclude d a).advance.Ensures
      (fun s s' => s.Evolves s' ∧ s'.registries = s.registries ∧
        ∀ c, plan.own? d ≠ some c → s.IsPrivate r c → s'.type c = s.type c)
      (fun step s' => ∃ settled : Settled, step = .returned settled ∧
        settled.type = plan.type ∧ settled.Kept r s') s := by
  have hanswers := hplan.answers
  cases plan with
  | keep t =>
    refine ⟨⟨Store.Evolves.refl s, rfl, fun _ _ _ => rfl⟩, fun step hstep => ?_⟩
    cases hstep
    exact ⟨_, rfl, rfl, hanswers.kept_keep (hplan.kept t rfl)⟩
  | attach t =>
    have hevolves := Store.Evolves.publish s t (s.resolve t a)
    refine ⟨⟨hevolves, rfl, fun c hne hc => ?_⟩, fun step hstep => ?_⟩
    · refine Store.type_publish_of_ne ?_ _
      by_cases hd : d.inspector = .prefab
      · exact hanswers.ne_private hd hc
      · rintro rfl
        exact hne (if_neg hd)
    · cases hstep
      refine ⟨_, rfl, rfl, hanswers.kept_attach hs (fun hd => ?_) a⟩
      exact hplan.own t (if_neg hd)
  | compare t c =>
    obtain ⟨hd, hfinal⟩ := hplan.compared t c rfl
    have hprivate := hplan.own c rfl
    have hevolves := Store.Evolves.publish s c (s.resolve c a)
    have hother : ∀ c', (Plan.compare t c).own? d ≠ some c' → s.IsPrivate r c' →
        (s.publish c (s.resolve c a)).type c' = s.type c' := by
      intro c' hne _
      refine Store.type_publish_of_ne ?_ _
      rintro rfl
      exact hne rfl
    rw [StoreM.Ensures, Plan.run_conclude]
    by_cases hsame : ((s.publish c (s.resolve c a)).type c).sameProperties
        ((s.publish c (s.resolve c a)).type t)
    · simp only [hsame, if_true]
      refine ⟨⟨hevolves, rfl, hother⟩, fun step hstep => ?_⟩
      cases hstep
      exact ⟨_, rfl, rfl, hanswers.kept_compare hd hfinal hprivate a hsame⟩
    · simp only [hsame, Bool.false_eq_true, if_false]
      refine ⟨⟨hevolves, rfl, hother⟩, fun step hstep => ?_⟩
      cases hstep

end Records
