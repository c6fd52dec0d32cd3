import Records.Proofs.Attachment.Distinct
import Records.Proofs.Registry.Pending
import Records.Proofs.Registry.Session
import Mathlib.Logic.Relation

/-!
# Closed sessions

A session is closed if types are resolved by its own definitions only. A resolved type of a
closed session has a moment at which it was finalized: a definition came to the end of its
attachment, and what it had attached became visible, in front of what the super type held at
that moment. None of this depends on what the registries of the session know.

## Main definitions

* `Session.Closed`: the states of a closed session.
* `Session.Finalizes`, `Session.Defines`: the step in which a type is finalized.
* `Session.FinalizedAt`: the moment at which a type was finalized.

## Main statements

* `Session.OwnStep.finalizes`: a step that resolves a type is the end of an attachment.
* `Session.Closed.induction_on_finalized`: induction on the moments of a closed session.
-/

namespace Records

namespace Session

variable {S S' T : Session} {t u : TypeId} {d : Declaration} {levels : List PrefabLevel}
  {plan : Plan} {attachment : Computation Attached} {bindings : List (PropertyId × Value)}

/-! ### Steps of a closed session -/

/-- A definition makes a move: it begins with its attachment, or goes on with it after a call. -/
inductive Moves (S : Session) :
    Session → Declaration → List PrefabLevel → Plan → Computation Attached → Prop where
  | begin {s : Store} (r : RegistryId) (d : Declaration) (plan : Plan)
      (hplan : (prepare r d).advance.run S.store = (.ok (.returned plan), s)) :
      Moves S { S with store := s } d (S.store.declaredLevels d) plan (plan.attachment d)
  | resume {before after : List Underway} (u : Underway)
      (hu : S.underway = before ++ u :: after) (results : List Value) :
      Moves S { S with underway := before ++ after } u.declaration u.levels u.plan
        (u.resume results)

/-- A definition comes to the end of its attachment, and finalizes a type with what it has
attached. -/
inductive Finalizes (S : Session) : Session → TypeId → List (PropertyId × Value) → Prop where
  | intro {T : Session} {d : Declaration} {levels : List PrefabLevel} {plan : Plan}
      {attachment : Computation Attached} {a : Attached} {t : TypeId}
      (hmoves : S.Moves T d levels plan attachment)
      (hend : (attachment.advance.run T.store).1 = .ok (.returned a))
      (htarget : plan.target? = some t) (hlt : t.index < T.store.types.size)
      (hpending : (T.store.type t).resolution = none) :
      Finalizes S (T.proceed d levels plan attachment) t a.bindings

/-- A definition of a declaration comes to the end of its attachment, and finalizes a type with
all that it has attached, a designation included. -/
inductive Defines (S : Session) : Session → TypeId → Declaration → Attached → Prop where
  | intro {T : Session} {d : Declaration} {levels : List PrefabLevel} {plan : Plan}
      {attachment : Computation Attached} {a : Attached} {t : TypeId}
      (hmoves : S.Moves T d levels plan attachment)
      (hend : (attachment.advance.run T.store).1 = .ok (.returned a))
      (htarget : plan.target? = some t) (hlt : t.index < T.store.types.size)
      (hpending : (T.store.type t).resolution = none) :
      Defines S (T.proceed d levels plan attachment) t d a

/-- A step that resolves no type but by a definition of the session. -/
inductive OwnStep : Session → Session → Prop where
  | begin {S : Session} (r : RegistryId) (d : Declaration) : OwnStep S (S.begin r d)
  | resume {S : Session} {before after : List Underway} (u : Underway)
      (hu : S.underway = before ++ u :: after) (results : List Value) :
      OwnStep S <| { S with underway := before ++ after }.proceed u.declaration u.levels u.plan
        (u.resume results)
  /-- Whatever else adds pending types at most, and begins no definition. -/
  | still {S S' : Session} (hstore : S.store.AddsPending S'.store)
      (hunderway : S'.underway ⊆ S.underway) : OwnStep S S'

/-- The states of a session that began without resolved types, and in which types are resolved by
its own definitions only. -/
inductive Closed : Session → Prop where
  | start {s : Store} (hpending : ∀ t, (s.type t).resolution = none) : Closed { store := s }
  | step {S S' : Session} : Closed S → OwnStep S S' → Closed S'

/-- The moment at which a type was finalized: the session was in an earlier state `before`, and in
the next step a definition finalized the type with what it had attached. -/
def FinalizedAt (S : Session) (t : TypeId) (before : Session)
    (bindings : List (PropertyId × Value)) : Prop :=
  before.Closed ∧ ∃ after, OwnStep before after ∧ before.Finalizes after t bindings ∧
    Relation.ReflTransGen OwnStep after S

/-- What a type with this super type inherits if it is finalized now. -/
def inherited (S : Session) (super : Option TypeId) : List (PropertyId × Value) :=
  super.elim [] fun u => (S.store.type u).properties

/-- What is left if a definition is taken out of those that are underway. -/
lemma subset_underway {u : Underway} {before after : List Underway}
    (hu : S.underway = before ++ u :: after) : before ++ after ⊆ S.underway := by
  rw [hu]
  intro v hv
  rcases List.mem_append.1 hv with hv | hv
  · exact List.mem_append_left _ hv
  · exact List.mem_append_right _ (List.mem_cons_of_mem u hv)

namespace OwnStep

/-! Giving up a definition, looking up keys and types, and making literals. -/

lemma abandon {before after : List Underway} (u : Underway)
    (hu : S.underway = before ++ u :: after) :
    OwnStep S { S with underway := before ++ after } :=
  .still (refl_of Store.AddsPending _) (subset_underway hu)

lemma ask {α : Type} {m : StoreM α} (hm : m.AddsPending)
    (found : α → Store → List (List PrefabLevel × TypeId)) : OwnStep S (S.ask m found) := by
  obtain ⟨hpending, -⟩ := hm S.store
  refine .still ?_ ?_
  · unfold Session.ask
    rcases hrun : m.run S.store with ⟨_ | a, s⟩ <;> rw [hrun] at hpending <;> exact hpending
  · unfold Session.ask
    rcases m.run S.store with ⟨_ | a, s⟩ <;> exact List.Subset.refl _

lemma keyOfType (r : RegistryId) (t : TypeId) :
    OwnStep S (S.ask (Records.keyOfType r t) fun _ _ => []) :=
  .ask (addsPending_keyOfType r t) _

lemma keyOfDeclaration (r : RegistryId) (d : Declaration) :
    OwnStep S (S.ask (Records.keyOfDeclaration r d) fun _ _ => []) :=
  .ask (addsPending_keyOfDeclaration r d) _

lemma keyOfDatum (r : RegistryId) (datum : Value) (total : Nat) :
    OwnStep S (S.ask (Records.keyOfDatum r datum total) fun _ _ => []) :=
  .ask (addsPending_keyOfDatum r datum total) _

lemma prefabType (r : RegistryId) (k : PrefabKey) :
    OwnStep S (S.ask (Records.prefabType r k) fun t _ => [(k.levels, t)]) :=
  .ask (addsPending_prefabType r k) _

lemma prefabTypeOfDatum (r : RegistryId) (datum : Value) (total : Nat) :
    OwnStep S <| S.ask (Records.prefabTypeOfDatum r datum total) fun t _ =>
      [((PrefabDatum.levelsFor? datum total).getD [], t)] :=
  .ask (addsPending_prefabTypeOfDatum r datum total) _

lemma prefabInstance (r : RegistryId) (datum : Value) (values : List Value) :
    OwnStep S <| S.ask (Records.prefabInstance r datum values) fun i s =>
      [((PrefabDatum.levelsFor? datum values.length).getD [], (s.record i).type)] :=
  .ask (addsPending_prefabInstance r datum values) _

/-- In a step a definition makes a move, or pending types are added at most. -/
lemma cases (h : OwnStep S S') :
    (S.store.AddsPending S'.store ∧ S'.underway ⊆ S.underway) ∨
      ∃ T d levels plan attachment, S.Moves T d levels plan attachment ∧
        S' = T.proceed d levels plan attachment := by
  cases h with
  | begin r d =>
    obtain ⟨hpending, -⟩ := addsPending_prepare r d S.store
    unfold Session.begin
    rcases hrun : (prepare r d).advance.run S.store with ⟨e | plan | ⟨p, args, resume⟩, s⟩
    · rw [hrun] at hpending
      exact .inl ⟨hpending, List.Subset.refl _⟩
    · exact .inr ⟨_, _, _, _, _, .begin r d plan hrun, rfl⟩
    · rw [hrun] at hpending
      exact .inl ⟨hpending, List.Subset.refl _⟩
  | resume u hu results => exact .inr ⟨_, _, _, _, _, .resume u hu results, rfl⟩
  | still hstore hunderway => exact .inl ⟨hstore, hunderway⟩

end OwnStep

/-! ### What a definition does in a step -/

/-- What is still to come of the definitions that are underway only looks at the store, and
attaches no property twice. -/
structure Orderly (S : Session) : Prop where
  onlyReads : ∀ u ∈ S.underway, ∀ results s, (u.resume results).OnlyReads s
  distinct : ∀ u ∈ S.underway, ∀ results,
    (u.resume results).Answers fun a => Distinct a.bindings

lemma Orderly.of_subset (h : S.Orderly) (hunderway : S'.underway ⊆ S.underway) : S'.Orderly :=
  ⟨fun u hu => h.onlyReads u (hunderway hu), fun u hu => h.distinct u (hunderway hu)⟩

namespace Moves

/-- Nothing but pending types is added before a definition goes on. -/
lemma addsPending (h : S.Moves T d levels plan attachment) : S.store.AddsPending T.store := by
  cases h with
  | begin r d plan hplan =>
    obtain ⟨hpending, -⟩ := addsPending_prepare r d S.store
    rw [hplan] at hpending
    exact hpending
  | resume u hu results => exact refl_of Store.AddsPending _

lemma underway_subset (h : S.Moves T d levels plan attachment) : T.underway ⊆ S.underway := by
  cases h with
  | begin r d plan hplan => exact List.Subset.refl _
  | resume u hu results => exact subset_underway hu

lemma onlyReads (h : S.Moves T d levels plan attachment) (hs : S.Orderly) :
    attachment.OnlyReads T.store := by
  cases h with
  | begin r d plan hplan => exact plan.onlyReads_attachment d _
  | resume u hu results =>
    exact hs.onlyReads u (mem_underway hu) results _

lemma answers (h : S.Moves T d levels plan attachment) (hs : S.Orderly) :
    attachment.Answers fun a => Distinct a.bindings := by
  cases h with
  | begin r d plan hplan =>
    cases plan with
    | keep t => exact List.nodup_nil
    | attach t => exact answers_attachAll t _ _
    | compare t c => exact answers_attachAll c _ _
  | resume u hu results =>
    exact hs.distinct u (mem_underway hu) results

end Moves

/-- Publishing resolves the type that was attached to, and no other one. -/
lemma store_conclude (S : Session) (d : Declaration) (levels : List PrefabLevel) (plan : Plan)
    (a : Attached) :
    (S.conclude d levels plan a).store =
      plan.target?.elim S.store fun t => S.store.publish t (S.store.resolve t a) := by
  unfold Session.conclude
  rw [Plan.run_conclude]
  cases plan with
  | keep t => rfl
  | attach t => rfl
  | compare t c =>
    simp only [Plan.target?, Option.elim_some]
    split
    · rename_i heq
      exact (congrArg Prod.snd heq).symm
    · rename_i heq
      exact (congrArg Prod.snd heq).symm

lemma underway_conclude (S : Session) (d : Declaration) (levels : List PrefabLevel) (plan : Plan)
    (a : Attached) : (S.conclude d levels plan a).underway = S.underway := by
  unfold Session.conclude
  split <;> rfl

/-- What holds of a store, and of the store in which the type that was attached to is resolved,
holds after publishing. -/
lemma conclude_induction {P : Store → Prop} {plan : Plan} {a : Attached} (h : P S.store)
    (hpublish : ∀ t, plan.target? = some t → P (S.store.publish t (S.store.resolve t a))) :
    P (S.conclude d levels plan a).store := by
  rw [store_conclude]
  cases htarget : plan.target? with
  | none => exact h
  | some t => exact hpublish t htarget

/-- Layouts and resolved types are kept when a definition goes on. -/
lemma evolves_proceed (d : Declaration) (levels : List PrefabLevel) (plan : Plan)
    (hreads : attachment.OnlyReads T.store) :
    T.store.Evolves (T.proceed d levels plan attachment).store := by
  rcases proceed_cases d levels plan hreads with
    ⟨_, -, hend⟩ | ⟨a, -, hend⟩ | ⟨_, _, resume, -, -, hend⟩
  · rw [hend]
    exact .refl _
  · rw [hend, store_conclude]
    cases plan.target? with
    | none => exact .refl _
    | some t => exact .publish _ t _
  · rw [hend]
    exact .refl _

namespace OwnStep

lemma orderly (hstep : OwnStep S S') (h : S.Orderly) : S'.Orderly := by
  rcases hstep.cases with ⟨-, hsubset⟩ | ⟨T, d, levels, plan, attachment, hmoves, rfl⟩
  · exact h.of_subset hsubset
  · have hT := h.of_subset hmoves.underway_subset
    rcases proceed_cases d levels plan (hmoves.onlyReads h) with
      ⟨_, -, hend⟩ | ⟨a, -, hend⟩ | ⟨_, _, resume, hrun, hresume, hend⟩
    · rw [hend]
      exact hT
    · rw [hend]
      refine hT.of_subset ?_
      rw [underway_conclude]
      exact List.Subset.refl _
    · rw [hend]
      have hanswers := ((hmoves.answers h).advance T.store).2 _ _ resume (by rw [hrun])
      exact ⟨List.forall_mem_cons.2 ⟨hresume, hT.onlyReads⟩,
        List.forall_mem_cons.2 ⟨hanswers, hT.distinct⟩⟩

/-- A definition that comes to its end publishes; otherwise pending types are added at most. -/
lemma store_cases (hstep : OwnStep S S') (h : S.Orderly) :
    S.store.AddsPending S'.store ∨
      ∃ T d levels plan attachment a t, S.Moves T d levels plan attachment ∧
        (attachment.advance.run T.store).1 = .ok (.returned a) ∧ plan.target? = some t ∧
        S' = T.proceed d levels plan attachment ∧
        S'.store = T.store.publish t (T.store.resolve t a) := by
  rcases hstep.cases with ⟨hadds, -⟩ | ⟨T, d, levels, plan, attachment, hmoves, rfl⟩
  · exact .inl hadds
  · have hadds := hmoves.addsPending
    rcases proceed_cases d levels plan (hmoves.onlyReads h) with
      ⟨_, -, hend⟩ | ⟨a, hrun, hend⟩ | ⟨_, _, resume, -, -, hend⟩
    · rw [hend]
      exact .inl hadds
    · have hstore := store_conclude T d levels plan a
      cases htarget : plan.target? with
      | none =>
        rw [htarget] at hstore
        rw [hend, hstore]
        exact .inl hadds
      | some t =>
        rw [htarget, ← hend] at hstore
        exact .inr ⟨T, d, levels, plan, attachment, a, t, hmoves, by rw [hrun], htarget, rfl,
          hstore⟩
    · rw [hend]
      exact .inl hadds

/-- Layouts and resolved types are kept. -/
lemma evolves (hstep : OwnStep S S') (h : S.Orderly) : S.store.Evolves S'.store := by
  rcases hstep.cases with ⟨hadds, -⟩ | ⟨T, d, levels, plan, attachment, hmoves, rfl⟩
  · exact hadds.enlarges.evolves
  · exact hmoves.addsPending.enlarges.evolves.trans
      (evolves_proceed d levels plan (hmoves.onlyReads h))

end OwnStep

/-! ### What is published -/

/-- Bindings in front of inherited ones are what is published. -/
lemma properties_publish {s : Store} (hpending : (s.type t).resolution = none) (a : Attached) :
    ((s.type t).publish (s.resolve t a)).properties = a.bindings ++
      ((s.type t).publish (s.resolve t a)).superType.elim [] fun u => (s.type u).properties := by
  have hpublish : (s.type t).publish (s.resolve t a) =
      { s.type t with resolution := some (s.resolve t a) } := by
    rw [RecordType.publish, hpending]
  rw [hpublish]
  show a.bindings ++ ((s.type t).superType.map s.type).elim [] (·.properties) = _
  rw [Option.elim_map]
  rfl

/-- The designation that was attached becomes visible, or else the one of the super type. -/
lemma procedure?_publish {s : Store} (hpending : (s.type t).resolution = none) (a : Attached) :
    ((s.type t).publish (s.resolve t a)).procedure? = (a.designation.map (⟨·, t⟩)).or
      ((s.type t).superType.bind fun u => (s.type u).procedure?) := by
  rw [RecordType.publish, hpending]
  show (s.resolve t a).procedure = _
  unfold Store.resolve
  cases a.designation with
  | some d => rfl
  | none =>
    show ((s.type t).superType.map s.type).bind (·.procedure?) = _
    rw [Option.bind_map, Option.map_none, Option.none_or]
    rfl

/-- What is left of the step is publishing. -/
lemma Defines.exists_publish {a : Attached} (h : S.Defines S' t d a) (hs : S.Orderly) :
    ∃ T : Session, S.store.AddsPending T.store ∧ t.index < T.store.types.size ∧
      (T.store.type t).resolution = none ∧
      S'.store = T.store.publish t (T.store.resolve t a) := by
  cases h with
  | @intro T d levels plan attachment a t hmoves hend htarget hlt hpending =>
    refine ⟨T, hmoves.addsPending, hlt, hpending, ?_⟩
    rcases proceed_cases d levels plan (hmoves.onlyReads hs) with
      ⟨e, hrun, -⟩ | ⟨a', hrun, hproceed⟩ | ⟨p, args, resume, hrun, -⟩
    · rw [hrun] at hend
      cases hend
    · rw [hrun] at hend
      cases hend
      rw [hproceed, store_conclude, htarget]
      rfl
    · rw [hrun] at hend
      cases hend

/-- A type is finalized by the definition of some declaration. -/
lemma finalizes_iff_exists_defines :
    S.Finalizes S' t bindings ↔ ∃ d a, S.Defines S' t d a ∧ a.bindings = bindings := by
  constructor
  · rintro ⟨hmoves, hend, htarget, hlt, hpending⟩
    exact ⟨_, _, .intro hmoves hend htarget hlt hpending, rfl⟩
  · rintro ⟨d, a, ⟨hmoves, hend, htarget, hlt, hpending⟩, rfl⟩
    exact .intro hmoves hend htarget hlt hpending

namespace Finalizes

/-- What is left of the step is publishing. -/
lemma exists_publish (h : S.Finalizes S' t bindings) (hs : S.Orderly) :
    ∃ (T : Session) (a : Attached), S.store.AddsPending T.store ∧
      t.index < T.store.types.size ∧ (T.store.type t).resolution = none ∧
      a.bindings = bindings ∧ S'.store = T.store.publish t (T.store.resolve t a) := by
  obtain ⟨d, a, hdefines, rfl⟩ := finalizes_iff_exists_defines.1 h
  obtain ⟨T, hadds, hlt, hpending, hstore⟩ := hdefines.exists_publish hs
  exact ⟨T, a, hadds, hlt, hpending, rfl, hstore⟩

lemma isFinalized (h : S.Finalizes S' t bindings) (hs : S.Orderly) :
    (S'.store.type t).isFinalized := by
  obtain ⟨T, a, -, hlt, -, -, hstore⟩ := h.exists_publish hs
  rw [hstore, Store.type_publish_self hlt]
  exact RecordType.isFinalized_publish _ _

lemma distinct (h : S.Finalizes S' t bindings) (hs : S.Orderly) : Distinct bindings := by
  cases h with
  | intro hmoves hend _ _ _ => exact ((hmoves.answers hs).advance _).1 _ hend

/-- What was attached becomes visible, in front of what the super type holds. -/
lemma properties_eq (h : S.Finalizes S' t bindings) (hs : S.Orderly) :
    (S'.store.type t).properties = bindings ++ S.inherited (S'.store.type t).superType := by
  obtain ⟨T, a, hadds, hlt, hpending, rfl, hstore⟩ := h.exists_publish hs
  rw [hstore, Store.type_publish_self hlt, properties_publish hpending]
  refine congrArg (a.bindings ++ ·) ?_
  cases ((T.store.type t).publish (T.store.resolve t a)).superType with
  | none => rfl
  | some u => exact hadds.properties_eq u

end Finalizes

/-- A step that resolves a type is the end of an attachment. -/
lemma OwnStep.finalizes (hstep : OwnStep S S') (hs : S.Orderly)
    (hpending : (S.store.type t).resolution = none) (hfinal : (S'.store.type t).isFinalized) :
    ∃ bindings, S.Finalizes S' t bindings := by
  have hnot : ∀ {s : Store}, S.store.AddsPending s → ¬(s.type t).isFinalized := by
    intro s hadds hfinal
    rw [RecordType.isFinalized, hadds.resolution_eq, hpending] at hfinal
    cases hfinal
  rcases hstep.store_cases hs with
    hadds | ⟨T, d, levels, plan, attachment, a, c, hmoves, hend, htarget, rfl, hstore⟩
  · exact absurd hfinal (hnot hadds)
  · rw [hstore, Store.type_publish] at hfinal
    split at hfinal
    · rename_i hc
      obtain ⟨rfl, hlt⟩ := hc
      have hT : (T.store.type c).resolution = none := by
        rw [hmoves.addsPending.resolution_eq]
        exact hpending
      exact ⟨a.bindings, .intro hmoves hend htarget hlt hT⟩
    · exact absurd hfinal (hnot hmoves.addsPending)

/-! ### Moments -/

lemma Closed.orderly (h : S.Closed) : S.Orderly := by
  induction h with
  | start _ => exact ⟨nofun, nofun⟩
  | step _ hstep ih => exact hstep.orderly ih

/-- Induction on the moments of a closed session: what holds of a type when it is finalized, given
that it holds of all types that were finalized before, and is kept by every step from then on,
holds of every type that is finalized. -/
lemma Closed.induction_on_finalized {P : Session → TypeId → Prop} (h : S.Closed)
    (hnew : ∀ S S' t bindings, S.Closed → OwnStep S S' → S.Finalizes S' t bindings →
      (∀ u, (S.store.type u).isFinalized → P S u) → P S' t)
    (hkeep : ∀ S S' t, OwnStep S S' → S'.store.type t = S.store.type t → P S t → P S' t)
    (t : TypeId) (hfinal : (S.store.type t).isFinalized) : P S t := by
  induction h generalizing t with
  | start hpending =>
    rw [RecordType.isFinalized, hpending] at hfinal
    cases hfinal
  | @step S S' h hstep ih =>
    cases hresolution : (S.store.type t).resolution with
    | none =>
      obtain ⟨bindings, hfinalizes⟩ := hstep.finalizes h.orderly hresolution hfinal
      exact hnew S S' t bindings h hstep hfinalizes ih
    | some resolution =>
      have hbefore : (S.store.type t).isFinalized := by
        rw [RecordType.isFinalized, hresolution]
        rfl
      have htype := (hstep.evolves h.orderly).finalized t (Store.lt_of_isFinalized hbefore)
        hbefore
      exact hkeep S S' t hstep htype (ih t hbefore)

/-- Resolved types do not change any more. -/
lemma Closed.type_eq (h : S.Closed) (hlater : Relation.ReflTransGen OwnStep S S')
    (hfinal : (S.store.type t).isFinalized) : S'.store.type t = S.store.type t := by
  have hrun : S'.Closed ∧ S'.store.type t = S.store.type t := by
    induction hlater with
    | refl => exact ⟨h, rfl⟩
    | tail _ hstep ih =>
      obtain ⟨hclosed, htype⟩ := ih
      rw [← htype] at hfinal
      have hkept := (hstep.evolves hclosed.orderly).finalized t
        (Store.lt_of_isFinalized hfinal) hfinal
      exact ⟨hclosed.step hstep, hkept.trans htype⟩
  exact hrun.2

namespace FinalizedAt

variable {before : Session}

/-- A moment stays what it is. -/
lemma tail (h : S.FinalizedAt t before bindings) (hstep : OwnStep S S') :
    S'.FinalizedAt t before bindings := by
  obtain ⟨hclosed, after, hafter, hfinalizes, hlater⟩ := h
  exact ⟨hclosed, after, hafter, hfinalizes, hlater.tail hstep⟩

/-- Types that had been finalized before the moment have not changed since. -/
lemma type_eq (h : S.FinalizedAt t before bindings)
    (hfinal : (before.store.type u).isFinalized) : S.store.type u = before.store.type u := by
  obtain ⟨hclosed, after, hafter, -, hlater⟩ := h
  exact hclosed.type_eq (.head hafter hlater) hfinal

lemma distinct (h : S.FinalizedAt t before bindings) : Distinct bindings := by
  obtain ⟨hclosed, after, -, hfinalizes, -⟩ := h
  exact hfinalizes.distinct hclosed.orderly

/-- What a type holds is what was attached to it, in front of what its super type held at the
moment. -/
lemma properties_eq (h : S.FinalizedAt t before bindings) :
    (S.store.type t).properties = bindings ++ before.inherited (S.store.type t).superType := by
  obtain ⟨hclosed, after, hafter, hfinalizes, hlater⟩ := h
  rw [(hclosed.step hafter).type_eq hlater (hfinalizes.isFinalized hclosed.orderly)]
  exact hfinalizes.properties_eq hclosed.orderly

end FinalizedAt

end Session

end Records
