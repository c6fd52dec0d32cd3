import Records.Proofs.Attachment.Designation
import Records.Proofs.RecordType.Immutables
import Records.Proofs.Registry.Closed
import Records.Proofs.Registry.Publication
import Records.Proofs.Registry.Settlement

/-!
# Designated fields

The immutable fields of a type are fixed when the type is laid out. A field that holds the
procedure of instances is among them if the declaration designates it, be it by itself or as a
value of the property of procedures. A designation that comes about in the course of attachment,
derived from a property that implies the property of procedures, comes too late: the designated
field is immutable only if the declaration lists it.

## Main definitions

* `Session.Unguarded`: the states of a closed session in which the property of procedures has no
  guard.
* `Session.DefinedBy`: the declaration that a type was finalized for.

## Main statements

* `Session.Closed.procedure?_source`: a designation that is inherited is that of its source.
* `Session.Unguarded.isImmutable_designated_iff`: when a designated field is immutable.
-/

namespace Records

variable {s s' : Store} {t : TypeId} {d : Declaration} {plan : Plan} {a : Attached}

/-! ### Plans -/

lemma permits_leavesProperties : Store.Permits Store.LeavesProperties where
  catalog _ _ _ _ := rfl
  type _ _ _ _ := rfl
  record _ _ := rfl

/-- What was attached goes with a declaration: a designated field is not one of a prefab type, and
if there is a declared designation it is the number of the field. -/
def Attached.Respects (a : Attached) (d : Declaration) : Prop :=
  ∀ i, a.designation = some (.field i) →
    d.inspector ≠ .prefab ∧ (d.designations ≠ [] → ∃ v ∈ d.designations, v.index? = some i)

/-- Unless it is about prefab types, a plan is to attach to a type that was laid out for the
declaration. -/
def Plan.LaidOut (plan : Plan) (s : Store) (d : Declaration) : Prop :=
  d.inspector ≠ .prefab → ∃ t, plan = .attach t ∧ t.index < s.types.size ∧
    ∃ s₀ : Store, s₀.declaredImmutables d = .ok (s.type t).immutables

lemma Plan.LaidOut.evolves (h : plan.LaidOut s d) (hs : s.Evolves s') : plan.LaidOut s' d := by
  intro hd
  obtain ⟨t, hplan, hlt, s₀, himmutables⟩ := h hd
  have hsame := RecordType.eq_of_layout (·.immutables) (fun _ => rfl) (hs.layout t hlt)
  exact ⟨t, hplan, hs.lt hlt, s₀, hsame ▸ himmutables⟩

/-- A prefab declaration is answered only if it keeps to the restrictions. -/
lemma ensures_prefabTypeOfDeclaration_unrestricted (r : RegistryId) (d : Declaration)
    (s : Store) : (prefabTypeOfDeclaration r d).Ensures Store.LeavesProperties
      (fun _ _ => s.prefabRestriction? d = none) s := by
  obtain ⟨hleaves, -⟩ := along_prefabTypeOfDeclaration permits_leavesProperties r d s
  refine ⟨hleaves, fun t ht => ?_⟩
  rw [run_prefabTypeOfDeclaration] at ht
  cases hr : s.prefabRestriction? d with
  | none => rfl
  | some what =>
    rw [hr] at ht
    cases ht

/-- Any other declaration is going to be answered with a new type. -/
lemma ensures_prepare_laidOut (r : RegistryId) (d : Declaration) (s : Store) :
    (prepare r d).Ensures Store.LeavesProperties (fun plan s' =>
      (d.inspector = .prefab → s.prefabRestriction? d = none) ∧ plan.LaidOut s' d) s := by
  unfold prepare
  split
  · rename_i hd
    refine .bind (.ofStoreM (ensures_prefabTypeOfDeclaration_unrestricted r d s)) fun t s₁ hr => ?_
    have hplan : ∀ (plan : Plan) s', (d.inspector = .prefab → s.prefabRestriction? d = none) ∧
        plan.LaidOut s' d := fun _ _ => ⟨fun _ => hr, fun hne => absurd hd hne⟩
    refine .bind (.ofStoreM (StoreM.ensures_get s₁)) fun s₂ s₃ _ => ?_
    split
    · split
      · exact hplan _ _
      · exact .bind (.ofStoreM (along_declare permits_leavesProperties d s₃))
          fun _ _ _ => hplan _ _
    · exact hplan _ _
  · rename_i hd
    refine .bind (.ofStoreM (ensures_declare permits_leavesProperties d s)) ?_
    rintro _ _ ⟨rfl, type, hl, rfl⟩
    obtain ⟨immutables, himmutables, rfl⟩ := Store.layOut_eq_ok_iff.1 hl
    refine ⟨fun hprefab => absurd hprefab hd, fun _ => ⟨_, rfl, by simp, s, ?_⟩⟩
    rw [Store.type_push_self]
    exact himmutables

/-- Whatever guards and derivations answer, what is attached goes with the declaration. -/
lemma Plan.answersIn_attachment (hs : s.Unguarded) (hplan : plan.LaidOut s d)
    (hprefab : d.inspector = .prefab →
      d.procedure = none ∧ ∀ b ∈ d.properties, s.isA b.1 Property.procedure = false) :
    (plan.attachment d).AnswersIn Store.Unguarded (·.Respects d) s := by
  by_cases hd : d.inspector = .prefab
  · obtain ⟨hprocedure, hdeclared⟩ := hprefab hd
    have hall : ∀ t, (attachAll t d.properties none).AnswersIn Store.Unguarded
        (·.Respects d) s := by
      intro t
      refine (answersIn_attachAll hs t d.properties none).mono fun a ha i hi => ?_
      obtain ⟨e, he, hdesignates⟩ := ha.2 i hi
      exact absurd hdesignates.procedure (Store.ne_procedure_of_mem_entries hdeclared he)
    cases plan with
    | keep t => exact fun i => nofun
    | attach t =>
      rw [Plan.attachment, hprocedure]
      exact hall t
    | compare t c => exact hall c
  · obtain ⟨t, rfl, -⟩ := hplan hd
    refine (answersIn_attachAll hs t d.properties d.procedure).mono fun a ha i hi => ⟨hd, ?_⟩
    intro hne
    obtain ⟨hcheck, hdesignated⟩ := ha
    obtain ⟨e, he, hdesignates⟩ := hdesignated i hi
    obtain ⟨hsource, hvalue⟩ := Store.designates_of_mem_entries hcheck hne he hdesignates.procedure
    exact ⟨e.value, hvalue, hdesignates.declared hsource⟩

namespace Session

variable {S S' T : Session} {u src : TypeId} {levels : List PrefabLevel}
  {attachment : Computation Attached} {i : Nat} {b : ProcedureBinding}

/-! ### Inherited designations -/

/-- The designation that was attached becomes visible, or else the one that the super type has. -/
lemma Defines.procedure?_eq (h : S.Defines S' t d a) (hs : S.Orderly) :
    (S'.store.type t).procedure? = (a.designation.map (⟨·, t⟩)).or
      ((S'.store.type t).superType.bind fun u => (S.store.type u).procedure?) := by
  obtain ⟨T, hadds, hlt, hpending, hstore⟩ := h.exists_publish hs
  have hprocedure : ∀ u, (T.store.type u).procedure? = (S.store.type u).procedure? := by
    intro u
    rw [RecordType.procedure?, hadds.resolution_eq, RecordType.procedure?]
  have hsuper : (S'.store.type t).superType = (T.store.type t).superType := by
    rw [hstore]
    exact RecordType.eq_of_layout (·.superType) (fun _ => rfl) (Store.layout_publish _ _ _ _)
  rw [hsuper, hstore, Store.type_publish_self hlt, procedure?_publish hpending]
  simp only [hprocedure]

lemma Defines.pending (h : S.Defines S' t d a) (hs : S.Orderly) :
    (S.store.type t).resolution = none := by
  obtain ⟨T, hadds, -, hpending, -⟩ := h.exists_publish hs
  rw [← hadds.resolution_eq]
  exact hpending

/-- In every state of a closed session a type that has a designation has it from the source of the
designation, which is finalized and has the same one. -/
lemma Closed.procedure?_source (h : S.Closed) (hb : (S.store.type t).procedure? = some b) :
    (S.store.type b.source).procedure? = some b := by
  refine (h.induction_on_finalized (P := fun S t => S.Closed ∧ ∀ b,
    (S.store.type t).procedure? = some b → (S.store.type b.source).procedure? = some b)
    ?_ ?_ t (RecordType.isFinalized_of_procedure? hb)).2 b hb
  · intro S S' t bindings h hstep hfinalizes ih
    refine ⟨h.step hstep, fun b hb => ?_⟩
    obtain ⟨d, a, hdefines, -⟩ := finalizes_iff_exists_defines.1 hfinalizes
    have hprocedure := hdefines.procedure?_eq h.orderly
    rw [hb] at hprocedure
    cases ha : a.designation with
    | some designation =>
      rw [ha] at hprocedure
      cases hprocedure
      exact hb
    | none =>
      rw [ha, Option.map_none, Option.none_or] at hprocedure
      obtain ⟨u, -, hu⟩ := Option.bind_eq_some_iff.1 hprocedure.symm
      have hsource := (ih u (RecordType.isFinalized_of_procedure? hu)).2 b hu
      have hfinal := RecordType.isFinalized_of_procedure? hsource
      rw [h.type_eq (.single hstep) hfinal]
      exact hsource
  · rintro S S' t hstep htype ⟨h, hsource⟩
    refine ⟨h.step hstep, fun b hb => ?_⟩
    rw [htype] at hb
    have hsource := hsource b hb
    rw [h.type_eq (.single hstep) (RecordType.isFinalized_of_procedure? hsource)]
    exact hsource

/-! ### Unguarded sessions -/

/-- The states of a closed session in which the property of procedures has no guard. -/
inductive Unguarded : Session → Prop where
  | start {s : Store} (hpending : ∀ t, (s.type t).resolution = none) (hs : s.Unguarded) :
      Unguarded { store := s }
  | step {S S' : Session} : Unguarded S → OwnStep S S' → S'.store.Unguarded → Unguarded S'

/-- A definition of the declaration finalized the type, in a session without a guard on the
property of procedures. -/
def DefinedBy (S : Session) (t : TypeId) (d : Declaration) : Prop :=
  ∃ before after a, before.Unguarded ∧ OwnStep before after ∧ before.Defines after t d a ∧
    Relation.ReflTransGen OwnStep after S

/-- What is still to come of the definitions that are underway goes with their declarations. -/
structure Respectful (S : Session) : Prop where
  laidOut : ∀ u ∈ S.underway, u.plan.LaidOut S.store u.declaration
  respects : ∀ u ∈ S.underway, ∀ results s, s.Unguarded →
    (u.resume results).AnswersIn Store.Unguarded (·.Respects u.declaration) s

/-- A definition that makes a move goes with its declaration. -/
lemma Moves.respects (h : S.Moves T d levels plan attachment) (hs : S.store.Unguarded)
    (hrespectful : S.Respectful) :
    T.store.Unguarded ∧ plan.LaidOut T.store d ∧
      attachment.AnswersIn Store.Unguarded (·.Respects d) T.store := by
  cases h with
  | @begin s r d plan hplan =>
    have hruns : (prepare r d).Runs Store.LeavesProperties S.store [] (.ok plan) s := by
      rw [Computation.runs_iff_of_advance, hplan]
      exact ⟨rfl, rfl, rfl⟩
    obtain ⟨hleaves, hprepared⟩ := (ensures_prepare_laidOut r d S.store).of_runs hruns
    obtain ⟨hprefab, hlaidOut⟩ := hprepared plan rfl
    have hs' := hleaves.unguarded hs
    refine ⟨hs', hlaidOut, plan.answersIn_attachment hs' hlaidOut fun hd => ?_⟩
    obtain ⟨hprocedure, hdeclared⟩ := Store.procedure_of_prefabRestriction? (hprefab hd)
    refine ⟨hprocedure, fun b hb => ?_⟩
    rw [hleaves.isA]
    exact hdeclared b hb
  | resume u hu results =>
    have hmem := mem_underway hu
    exact ⟨hs, hrespectful.laidOut u hmem, hrespectful.respects u hmem results _ hs⟩

lemma Respectful.of_evolves (h : S.Respectful) (hstore : S.store.Evolves S'.store)
    (hunderway : S'.underway ⊆ S.underway) : S'.Respectful :=
  ⟨fun u hu => (h.laidOut u (hunderway hu)).evolves hstore,
    fun u hu => h.respects u (hunderway hu)⟩

lemma OwnStep.respectful (hstep : OwnStep S S') (horderly : S.Orderly)
    (hs : S.store.Unguarded) (h : S.Respectful) : S'.Respectful := by
  rcases hstep.cases with ⟨hadds, hsubset⟩ | ⟨T, d, levels, plan, attachment, hmoves, rfl⟩
  · exact h.of_evolves hadds.enlarges.evolves hsubset
  · have hT := h.of_evolves hmoves.addsPending.enlarges.evolves hmoves.underway_subset
    obtain ⟨-, hlaidOut, hanswers⟩ := hmoves.respects hs h
    have hreads := hmoves.onlyReads horderly
    have hevolves := evolves_proceed d levels plan hreads
    rcases proceed_cases d levels plan hreads with
      ⟨_, -, hend⟩ | ⟨a, -, hend⟩ | ⟨_, _, resume, hrun, -, hend⟩
    · rw [hend]
      exact hT
    · refine hT.of_evolves hevolves ?_
      rw [hend, underway_conclude]
      exact List.Subset.refl _
    · rw [hend]
      have hresume := hanswers.advance.2 _ _ resume (by rw [hrun])
      exact ⟨List.forall_mem_cons.2 ⟨hlaidOut, hT.laidOut⟩,
        List.forall_mem_cons.2 ⟨hresume, hT.respects⟩⟩

namespace Unguarded

lemma closed (h : S.Unguarded) : S.Closed := by
  induction h with
  | start hpending _ => exact .start hpending
  | step _ hstep _ ih => exact ih.step hstep

lemma store (h : S.Unguarded) : S.store.Unguarded := by
  cases h with
  | start _ hs => exact hs
  | step _ _ hs => exact hs

lemma respectful (h : S.Unguarded) : S.Respectful := by
  induction h with
  | start _ _ => exact ⟨nofun, nofun⟩
  | step h hstep _ ih => exact hstep.respectful h.closed.orderly h.store ih

/-- A finalized type was finalized for some declaration. -/
lemma exists_definedBy (h : S.Unguarded) (hfinal : (S.store.type t).isFinalized) :
    ∃ d, S.DefinedBy t d := by
  induction h with
  | start hpending _ =>
    rw [RecordType.isFinalized, hpending] at hfinal
    cases hfinal
  | @step S S' h hstep hs ih =>
    by_cases hbefore : (S.store.type t).isFinalized
    · obtain ⟨d, before, after, a, hunguarded, hafter, hdefines, hlater⟩ := ih hbefore
      exact ⟨d, before, after, a, hunguarded, hafter, hdefines, hlater.tail hstep⟩
    · rw [RecordType.isFinalized, Option.not_isSome_iff_eq_none] at hbefore
      obtain ⟨bindings, hfinalizes⟩ := hstep.finalizes h.closed.orderly hbefore hfinal
      obtain ⟨d, a, hdefines, -⟩ := finalizes_iff_exists_defines.1 hfinalizes
      exact ⟨d, S, S', a, h, hstep, hdefines, .refl⟩

end Unguarded

/-- A definition that finalizes a type goes with its declaration, and so do the immutable fields
of the type. -/
lemma Defines.respects (h : S.Defines S' t d a) (hs : S.Unguarded) :
    a.Respects d ∧ (d.inspector ≠ .prefab →
      ∃ s₀ : Store, s₀.declaredImmutables d = .ok (S'.store.type t).immutables) := by
  cases h with
  | @intro T d levels plan attachment a t hmoves hend htarget hlt hpending =>
    obtain ⟨-, hlaidOut, hanswers⟩ := hmoves.respects hs.store hs.respectful
    have hevolves := evolves_proceed d levels plan (hmoves.onlyReads hs.closed.orderly)
    refine ⟨hanswers.advance.1 a hend, fun hd => ?_⟩
    obtain ⟨t', rfl, -, himmutables⟩ := hlaidOut.evolves hevolves hd
    cases htarget
    exact himmutables

/-- A type that designates a field for itself was finalized by a definition that did. -/
lemma Defines.designation_eq (h : S.Defines S' t d a) (hs : S.Closed)
    (hi : (S'.store.type t).procedure? = some ⟨.field i, t⟩) :
    a.designation = some (.field i) := by
  rw [h.procedure?_eq hs.orderly] at hi
  cases ha : a.designation with
  | some designation =>
    rw [ha] at hi
    cases hi
    rfl
  | none =>
    -- the super type would have it from this type, which was still pending
    rw [ha, Option.map_none, Option.none_or] at hi
    obtain ⟨u, -, hu⟩ := Option.bind_eq_some_iff.1 hi
    have hsource := hs.procedure?_source hu
    rw [RecordType.procedure?, h.pending hs.orderly] at hsource
    cases hsource

/-- A type whose designation is a field has a source for it that was finalized by some definition.
The field is immutable in the source exactly if the declaration of this definition lists it as
immutable, or designates a procedure itself, be it in its own right or as a value of the property
of procedures; a designation that is derived from another property leaves the field mutable. -/
theorem Unguarded.isImmutable_designated_iff (h : S.Unguarded)
    (hi : (S.store.type t).procedure? = some ⟨.field i, src⟩) :
    (∃ d, S.DefinedBy src d) ∧
    ∀ d, S.DefinedBy src d →
      ((S.store.type src).isImmutable i ↔ i ∈ d.immutables ∨ d.designations ≠ []) := by
  have hsource := h.closed.procedure?_source hi
  have hfinal := RecordType.isFinalized_of_procedure? hsource
  refine ⟨h.exists_definedBy hfinal, ?_⟩
  rintro d ⟨before, after, a, hbefore, hstep, hdefines, hlater⟩
  have hclosed := hbefore.closed
  have hfinalizes := finalizes_iff_exists_defines.2 ⟨d, a, hdefines, rfl⟩
  have htype := (hclosed.step hstep).type_eq hlater (hfinalizes.isFinalized hclosed.orderly)
  rw [htype] at hsource
  obtain ⟨hrespects, himmutables⟩ := hdefines.respects hbefore
  obtain ⟨hd, hdesignated⟩ := hrespects i (hdefines.designation_eq hclosed hsource)
  obtain ⟨s₀, himmutables⟩ := himmutables hd
  rw [htype, RecordType.isImmutable, FieldSet.contains_iff,
    (Store.mem_declaredImmutables himmutables).2]
  refine or_congr_right ⟨?_, hdesignated⟩
  rintro ⟨v, hv, -⟩
  exact List.ne_nil_of_mem hv

/-! ### Declared and derived designations -/

/-- A type that designates its field. -/
def designatedSession : Session :=
  Session.initial.begin ⟨0⟩ { name := ⟨"base"⟩, initCount := 1, procedure := some (.ofNat 0) }

/-- A type is defined below it. -/
def inheritedSession : Session :=
  designatedSession.begin ⟨0⟩ { name := ⟨"sub"⟩, superType := some ⟨0⟩, initCount := 1 }

lemma unguarded_inheritedSession : inheritedSession.Unguarded := by
  have hbuilt : Session.initial.store.Built := .other .initial rfl rfl
  have hinitial : Session.initial.Unguarded :=
    .start (Store.resolution_of_types_eq rfl) hbuilt.unguarded
  have hdesignated : designatedSession.Unguarded := hinitial.step (.begin ⟨0⟩ _) rfl
  exact hdesignated.step (.begin ⟨0⟩ _) rfl

/-- The type below has its designation from the type above, in which the field is immutable. -/
theorem Unguarded.isImmutable_designated_iff_inherited :
    ((inheritedSession.store.type ⟨1⟩).procedure? = some ⟨.field 0, ⟨0⟩⟩ ∧
      (inheritedSession.store.type ⟨0⟩).isImmutable 0) ∧
    (∃ d, inheritedSession.DefinedBy ⟨0⟩ d) ∧
    ∀ d, inheritedSession.DefinedBy ⟨0⟩ d →
      ((inheritedSession.store.type ⟨0⟩).isImmutable 0 ↔
        0 ∈ d.immutables ∨ d.designations ≠ []) :=
  ⟨⟨rfl, rfl⟩, unguarded_inheritedSession.isImmutable_designated_iff (t := ⟨1⟩) rfl⟩

/-- A session with a property that hands its value on to the property of procedures. -/
def handingSession : Session where
  store := { Session.initial.store with
    natives := #[⟨"d", .exactly 1, .compute fun call => .ok call.arguments, 0⟩]
    properties := Session.initial.store.properties ++
      #[⟨⟨"q"⟩, none, [(Property.procedure, .procedure (.native ⟨0⟩))], false⟩] }

/-- A type of two fields is defined with this property. -/
def handedSession : Session :=
  handingSession.begin ⟨0⟩ { name := ⟨"t"⟩, initCount := 2, properties := [(⟨6⟩, .ofNat 0)] }

/-- The number of the first field is handed on. -/
def resumedSession : Session := handedSession.resumeLatest (.ofNat 0)

lemma OwnStep.resumeLatest (S : Session) (result : Value) :
    OwnStep S (S.resumeLatest result) := by
  unfold Session.resumeLatest
  cases hu : S.underway with
  | nil => exact .still (refl_of Store.AddsPending _) (List.Subset.refl _)
  | cons u rest => exact @OwnStep.resume S [] rest u hu [result]

lemma unguarded_resumedSession : resumedSession.Unguarded := by
  have hhanding : handingSession.Unguarded := .start (Store.resolution_of_types_eq rfl) rfl
  have hhanded : handedSession.Unguarded := hhanding.step (.begin ⟨0⟩ _) rfl
  exact hhanded.step (.resumeLatest handedSession _) rfl

/-- The field that is handed on is designated, and stays mutable. -/
theorem exists_mutable_designated_field :
    ∃ (S : Session) (t : TypeId) (i : Nat), S.Unguarded ∧ (S.store.type t).isFinalized ∧
      (S.store.type t).procedure? = some ⟨.field i, t⟩ ∧ ¬(S.store.type t).isImmutable i :=
  ⟨resumedSession, ⟨0⟩, 0, unguarded_resumedSession, rfl, rfl, nofun⟩

end Session

end Records
