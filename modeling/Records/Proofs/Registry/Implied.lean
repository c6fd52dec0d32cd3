import Records.Proofs.Attachment.Implied
import Records.Proofs.Registry.Designation

/-!
# Implied properties are held

A type that is finalized holds all properties that its properties imply: what a definition
attaches is complete, and so is what a type inherits. This needs that the declared properties are
there when a definition begins, and that a property never changes.

## Main definitions

* `Session.Provided`: the states of a closed session in which the declared properties are there.
* `Session.Complete`: types are complete, and so is what will be attached.

## Main statements

* `Session.Provided.complete`: a provided session is complete.
* `Session.Provided.propertyValue?_eq_none_iff`: a property that is not held is not implied either.
-/

namespace Records

variable {s s' : Store} {d : Declaration} {plan : Plan} {t : TypeId}

/-- With what is declared all that is implied is attached. -/
lemma Plan.answersIn_attachment_complete (plan : Plan) (hs : s.ImpliesOlder)
    (hprocedure : 0 < s.properties.size)
    (hdeclared : ∀ b ∈ d.properties, b.1.index < s.properties.size) :
    (plan.attachment d).AnswersIn (fun _ => True)
      (fun a => s.Complete (a.bindings.map (·.1))) s := by
  cases plan with
  | keep t => exact .nil s
  | attach t => exact answersIn_attachAll_complete hs hprocedure t hdeclared d.procedure
  | compare t c => exact answersIn_attachAll_complete hs hprocedure c hdeclared none

/-- A type that is resolved holds what was attached and what it inherits. -/
lemma Store.Complete.publish {a : Attached} (htypes : ∀ t, s.Complete
      ((s.type t).properties.map (·.1))) (ha : s.Complete (a.bindings.map (·.1))) (t u : TypeId) :
    s.Complete (((s.publish t (s.resolve t a)).type u).properties.map (·.1)) := by
  rw [type_publish]
  split
  · cases hresolution : (s.type u).resolution with
    | some resolution =>
      rw [RecordType.publish_of_finalized (by rw [RecordType.isFinalized, hresolution]; rfl)]
      exact htypes u
    | none =>
      rename_i h
      obtain ⟨rfl, -⟩ := h
      rw [Session.properties_publish hresolution, List.map_append]
      refine ha.append ?_
      cases ((s.type t).publish (s.resolve t a)).superType with
      | none => exact .nil s
      | some v => exact htypes v
  · exact htypes u

namespace Session

variable {S S' : Session} {levels : List PrefabLevel} {attachment : Computation Attached}

/-! ### Sessions with properties that are there -/

/-- A step of a closed session, in which declared properties are there and none is changed. -/
inductive ProvidedStep : Session → Session → Prop where
  | begin {S : Session} (r : RegistryId) (d : Declaration)
      (hdeclared : ∀ b ∈ d.properties, b.1.index < S.store.properties.size) :
      ProvidedStep S (S.begin r d)
  | resume {S : Session} {before after : List Underway} (u : Underway)
      (hu : S.underway = before ++ u :: after) (results : List Value) :
      ProvidedStep S <| { S with underway := before ++ after }.proceed u.declaration u.levels
        u.plan (u.resume results)
  /-- Whatever else adds pending types and properties at most, and begins no definition. -/
  | still {S S' : Session} (hstore : S.store.AddsPending S'.store)
      (hproperties : S.store.KeepsProperties S'.store) (hunderway : S'.underway ⊆ S.underway) :
      ProvidedStep S S'

/-- The states of a session that began without resolved types, with the properties that exist from
the start, and in which every property that is declared is there. -/
inductive Provided : Session → Prop where
  | start {s : Store} (hpending : ∀ t, (s.type t).resolution = none)
      (hbuiltin : Store.initial.KeepsProperties s) : Provided { store := s }
  | step {S S' : Session} : Provided S → ProvidedStep S S' → Provided S'

namespace ProvidedStep

lemma toOwnStep (h : ProvidedStep S S') : OwnStep S S' := by
  cases h with
  | begin r d _ => exact .begin r d
  | resume u hu results => exact .resume u hu results
  | still hstore _ hunderway => exact .still hstore hunderway

/-- Keys and types are looked up, and literals are made. -/
lemma ask {α : Type} {m : StoreM α}
    (hm : ∀ R [IsPreorder Store R], Store.Permits R → m.Along R)
    (found : α → Store → List (List PrefabLevel × TypeId)) : ProvidedStep S (S.ask m found) := by
  obtain ⟨hadds, -⟩ := hm _ permits_addsPending S.store
  obtain ⟨hleaves, -⟩ := hm _ permits_leavesProperties S.store
  unfold Session.ask
  rcases hrun : m.run S.store with ⟨e | a, s⟩ <;> rw [hrun] at hadds hleaves <;>
    exact .still hadds hleaves.keepsProperties (List.Subset.refl _)

/-- A property is added. -/
lemma property (S : Session) (p : Property) :
    ProvidedStep S { S with store := ((newProperty p).run S.store).2 } := by
  refine .still (.of_types_eq rfl) ⟨?_, fun q hq => ?_⟩ (List.Subset.refl _)
  · rw [Store.run_newProperty, Array.size_push]
    exact Nat.le_succ _
  · rw [Store.run_newProperty, Store.property_push, if_neg (Nat.ne_of_lt hq)]

end ProvidedStep

/-- Publishing is all that a definition does to the store when it goes on. -/
lemma leavesProperties_proceed (d : Declaration) (levels : List PrefabLevel) (plan : Plan)
    (hreads : attachment.OnlyReads S.store) :
    S.store.LeavesProperties (S.proceed d levels plan attachment).store := by
  rcases proceed_cases d levels plan hreads with
    ⟨_, -, hend⟩ | ⟨a, -, hend⟩ | ⟨_, _, resume, -, -, hend⟩
  · rw [hend]
    rfl
  · rw [hend, store_conclude]
    cases plan.target? <;> rfl
  · rw [hend]
    rfl

lemma ProvidedStep.keepsProperties (h : ProvidedStep S S') (hs : S.Orderly) :
    S.store.KeepsProperties S'.store := by
  have hproceed : ∀ {T d levels plan attachment}, S.Moves T d levels plan attachment →
      S.store.LeavesProperties T.store →
        S.store.KeepsProperties (T.proceed d levels plan attachment).store := by
    intro T d levels plan attachment hmoves hleaves
    have hpublish := leavesProperties_proceed d levels plan (hmoves.onlyReads hs)
    exact (trans_of Store.LeavesProperties hleaves hpublish).keepsProperties
  cases h with
  | begin r d _ =>
    have hleaves := (ensures_prepare permits_leavesProperties r d S.store).advance
    unfold Session.begin
    rcases hrun : (prepare r d).advance.run S.store with ⟨e | plan | ⟨p, args, resume⟩, s⟩ <;>
      rw [hrun] at hleaves
    · exact hleaves.keepsProperties
    · exact hproceed (.begin r d plan hrun) hleaves
    · exact hleaves.keepsProperties
  | resume u hu results => exact hproceed (.resume u hu results) rfl
  | still _ hproperties _ => exact hproperties

namespace Provided

lemma closed (h : S.Provided) : S.Closed := by
  induction h with
  | start hpending _ => exact .start hpending
  | step _ hstep ih => exact ih.step hstep.toOwnStep

/-- The properties that exist from the start are there. -/
lemma builtin (h : S.Provided) : Store.initial.KeepsProperties S.store := by
  induction h with
  | start _ hbuiltin => exact hbuiltin
  | step h hstep ih =>
    exact trans_of Store.KeepsProperties ih (hstep.keepsProperties h.closed.orderly)

end Provided

/-! ### Completeness -/

/-- The properties of every type are complete, and so are those that the definitions underway are
going to attach. -/
structure Complete (S : Session) : Prop where
  types : ∀ t, S.store.Complete ((S.store.type t).properties.map (·.1))
  underway : ∀ u ∈ S.underway, ∀ results s, (u.resume results).AnswersIn (fun _ => True)
    (fun a => S.store.Complete (a.bindings.map (·.1))) s

namespace Complete

lemma of_addsPending (h : S.Complete) (hadds : S.store.AddsPending S'.store)
    (hproperties : S.store.KeepsProperties S'.store) (hunderway : S'.underway ⊆ S.underway) :
    S'.Complete where
  types t := by
    rw [hadds.properties_eq]
    exact (h.types t).keepsProperties hproperties
  underway u hu results s :=
    (h.underway u (hunderway hu) results s).mono fun _ ha => ha.keepsProperties hproperties

lemma conclude (h : S.Complete) (d : Declaration) (levels : List PrefabLevel) (plan : Plan)
    {a : Attached} (ha : S.store.Complete (a.bindings.map (·.1))) :
    (S.conclude d levels plan a).Complete := by
  have hleaves : S.store.LeavesProperties (S.conclude d levels plan a).store :=
    conclude_induction rfl fun _ _ => rfl
  have htypes : ∀ t, S.store.Complete
      (((S.conclude d levels plan a).store.type t).properties.map (·.1)) :=
    conclude_induction (P := fun s => ∀ t, S.store.Complete ((s.type t).properties.map (·.1)))
      h.types fun t _ => Store.Complete.publish h.types ha t
  refine ⟨fun t => (htypes t).keepsProperties hleaves.keepsProperties, ?_⟩
  rw [underway_conclude]
  intro u hu results s
  exact (h.underway u hu results s).mono fun _ ha => ha.keepsProperties hleaves.keepsProperties

/-- Going on with a definition. -/
lemma proceed (h : S.Complete) (d : Declaration) (levels : List PrefabLevel) (plan : Plan)
    (hreads : attachment.OnlyReads S.store)
    (hanswers : attachment.AnswersIn (fun _ => True)
      (fun a => S.store.Complete (a.bindings.map (·.1))) S.store) :
    (S.proceed d levels plan attachment).Complete := by
  obtain ⟨hreturned, hsuspended⟩ := hanswers.advance
  rcases proceed_cases d levels plan hreads with
    ⟨_, -, hend⟩ | ⟨a, hrun, hend⟩ | ⟨_, _, resume, hrun, -, hend⟩
  · rw [hend]
    exact h
  · rw [hrun] at hreturned
    rw [hend]
    exact h.conclude d levels plan (hreturned a rfl)
  · rw [hrun] at hsuspended
    rw [hend]
    exact ⟨h.types, List.forall_mem_cons.2
      ⟨fun results s => hsuspended _ _ resume rfl results s trivial, h.underway⟩⟩

lemma begin (h : S.Complete) (hs : S.store.ImpliesOlder) (hprocedure : 0 < S.store.properties.size)
    (r : RegistryId) (hdeclared : ∀ b ∈ d.properties, b.1.index < S.store.properties.size) :
    (S.begin r d).Complete := by
  obtain ⟨hadds, -⟩ := addsPending_prepare r d S.store
  have hleaves := (ensures_prepare permits_leavesProperties r d S.store).advance
  unfold Session.begin
  rcases hrun : (prepare r d).advance.run S.store with ⟨e | plan | ⟨p, args, resume⟩, s⟩ <;>
    rw [hrun] at hadds hleaves
  · exact h.of_addsPending hadds hleaves.keepsProperties (List.Subset.refl _)
  · have hprepared : Complete { S with store := s } :=
      h.of_addsPending hadds hleaves.keepsProperties (List.Subset.refl _)
    refine hprepared.proceed d _ plan (plan.onlyReads_attachment d s) ?_
    have hback : s.LeavesProperties S.store := hleaves.symm
    refine plan.answersIn_attachment_complete (hback.keepsProperties.impliesOlder hs) ?_ ?_
    · rw [hleaves]
      exact hprocedure
    · rw [hleaves]
      exact hdeclared
  · exact h.of_addsPending hadds hleaves.keepsProperties (List.Subset.refl _)

/-- Every step keeps a session complete. -/
lemma step (h : S.Complete) (horderly : S.Orderly) (hs : S.store.ImpliesOlder)
    (hprocedure : 0 < S.store.properties.size) (hstep : ProvidedStep S S') : S'.Complete := by
  cases hstep with
  | begin r d hdeclared => exact h.begin hs hprocedure r hdeclared
  | @resume before after u hu results =>
    have hmem := mem_underway hu
    have htaken : Complete { S with underway := before ++ after } :=
      ⟨h.types, fun w hw => h.underway w (subset_underway hu hw)⟩
    exact htaken.proceed _ _ _ (horderly.onlyReads u hmem results _)
      (h.underway u hmem results _)
  | still hstore hproperties hunderway => exact h.of_addsPending hstore hproperties hunderway

end Complete

namespace Provided

/-- A session is complete if the properties that are there now imply older ones. -/
lemma complete (h : S.Provided) (hs : S.store.ImpliesOlder) : S.Complete := by
  induction h with
  | @start s hpending _ =>
    refine ⟨fun t => ?_, nofun⟩
    have hnone : (s.type t).properties = [] := by rw [RecordType.properties, hpending]
    show s.Complete ((s.type t).properties.map (·.1))
    rw [hnone]
    exact .nil s
  | step h hstep ih =>
    have horderly := h.closed.orderly
    have hbefore := (hstep.keepsProperties horderly).impliesOlder hs
    have hbuiltin : 0 < Store.initial.properties.size := by decide
    have hprocedure := Nat.lt_of_lt_of_le hbuiltin h.builtin.size
    exact (ih hbefore).step horderly hbefore hprocedure hstep

/-- A type that does not hold a property holds none that implies it. -/
theorem propertyValue?_eq_none_iff (h : S.Provided) (hs : S.store.ImpliesOlder) {t : TypeId}
    {q : PropertyId} : (S.store.type t).propertyValue? q = none ↔
      ∀ b ∈ (S.store.type t).properties, ¬S.store.isA b.1 q := by
  rw [RecordType.propertyValue?_eq_none_iff]
  constructor
  · intro hnone b hb hisA
    have hmem := ((h.complete hs).types t).mem_of_isA (List.mem_map_of_mem hb) hisA
    obtain ⟨b', hb', hq⟩ := List.mem_map.1 hmem
    exact hnone b' hb' hq
  · rintro hnone b hb rfl
    exact hnone b hb (S.store.isA_refl _)

end Provided

end Session

end Records
