import Records.Proofs.Attachment.Agreement
import Records.Proofs.Instance.Capability
import Records.Proofs.Registry.Designation

/-!
# Dispatch of records

A record is applied through the designation of its type, which may be inherited and may count a
field among the own fields of an ancestor. In every state of a session the designation agrees with
the property of procedures and points to something that is there, whichever of direct, derived,
guarded and inherited values it comes from, and in whatever order definitions go on; so as long as
a word can count the fields of the record, the look-up of the procedure never fails.

## Main definitions

* `Session.Grounded`: the states of a closed session in which the values that are handed in are
  there.
* `Store.WellDesignated`: the designation of a type can be relied on.
* `Store.Dispatches`: a record finds the procedure it is applied by.

## Main statements

* `raises_callRecord`: what applying a record fails with by itself.
* `Session.Grounded.finds_procedure`: every type of a session is well designated, and every record
  whose fields can be counted dispatches.
* `Session.not_forall_dispatches`: not every record does.
-/

namespace Records

/-! ### Sessions -/

namespace Session

variable {S S' T : Session} {levels : List PrefabLevel} {d : Declaration} {plan : Plan}
  {attachment : Computation Attached} {a : Attached}

/-- A step of a closed session, in which the declared values and the results of calls are there. -/
inductive GroundedStep : Session → Session → Prop where
  | begin {S : Session} (r : RegistryId) (d : Declaration)
      (hvalues : ∀ e ∈ S.store.entries d.properties d.procedure, S.store.Has e.value) :
      GroundedStep S (S.begin r d)
  | resume {S : Session} {before after : List Underway} (u : Underway)
      (hu : S.underway = before ++ u :: after) (results : List Value)
      (hresults : ∀ v ∈ results, S.store.Has v) :
      GroundedStep S <| { S with underway := before ++ after }.proceed u.declaration u.levels
        u.plan (u.resume results)
  /-- Whatever else adds pending types at most and lets instances persist. -/
  | still {S S' : Session} (hstore : S.store.AddsPending S'.store)
      (hpersists : S.store.Persists S'.store) (hunderway : S'.underway ⊆ S.underway) :
      GroundedStep S S'

/-- The states of a session that began without resolved types, and in which every value that is
declared or handed back is there. -/
inductive Grounded : Session → Prop where
  | start {s : Store} (hpending : ∀ t, (s.type t).resolution = none) : Grounded { store := s }
  | step {S S' : Session} : Grounded S → GroundedStep S S' → Grounded S'

namespace GroundedStep

lemma toOwnStep (h : GroundedStep S S') : OwnStep S S' := by
  cases h with
  | begin r d _ => exact .begin r d
  | resume u hu results _ => exact .resume u hu results
  | still hstore _ hunderway => exact .still hstore hunderway

/-- Keys and types are looked up, and literals are made. -/
lemma ask {α : Type} {m : StoreM α}
    (hm : ∀ R [IsPreorder Store R], Store.Permits R → m.Along R)
    (found : α → Store → List (List PrefabLevel × TypeId)) : GroundedStep S (S.ask m found) := by
  obtain ⟨hadds, -⟩ := hm _ permits_addsPending S.store
  obtain ⟨hpersists, -⟩ := hm _ permits_persists S.store
  unfold Session.ask
  rcases hrun : m.run S.store with ⟨e | a, s⟩ <;> rw [hrun] at hadds hpersists <;>
    exact .still hadds hpersists (List.Subset.refl _)

lemma prefabInstance (r : RegistryId) (datum : Value) (values : List Value) :
    GroundedStep S <| S.ask (Records.prefabInstance r datum values) fun i s =>
      [((PrefabDatum.levelsFor? datum values.length).getD [], (s.record i).type)] :=
  .ask (fun _ _ hR => along_prefabInstance hR r datum values) _

/-- Values are applied to arguments, and types are added. -/
lemma of_reaches {s : Store} (hadds : S.store.AddsPending s) (h : S.store.Reaches s) :
    GroundedStep S { S with store := s } :=
  .still hadds (.of_reaches h) (List.Subset.refl _)

end GroundedStep

lemma Grounded.closed (h : S.Grounded) : S.Closed := by
  induction h with
  | start hpending => exact .start hpending
  | step _ hstep ih => exact ih.step hstep.toOwnStep

/-- The two records of every type are in step, and so they will be of what is attached by the
definitions that are underway. -/
structure InStep (S : Session) : Prop where
  agrees : ∀ t, S.store.Agrees t
  underway : ∀ u ∈ S.underway, ∀ results s, S.store.Persists s → (∀ v ∈ results, s.Has v) →
    (u.resume results).ReliesOnHost u.plan.Agrees s

namespace InStep

lemma of_addsPending (h : S.InStep) (hadds : S.store.AddsPending S'.store)
    (hpersists : S.store.Persists S'.store) (hunderway : S'.underway ⊆ S.underway) :
    S'.InStep where
  agrees t := (h.agrees t).addsPending hpersists hadds
  underway u hu results s hs :=
    h.underway u (hunderway hu) results s (trans_of Store.Persists hpersists hs)

lemma conclude (h : S.InStep) (d : Declaration) (levels : List PrefabLevel)
    (ha : plan.Agrees a S.store) : (S.conclude d levels plan a).InStep where
  agrees := conclude_induction (P := fun s => ∀ t, s.Agrees t) h.agrees
    fun t ht => Store.Agrees.publish h.agrees (ha t ht)
  underway := by
    rw [underway_conclude]
    intro u hu results s hs
    have hpersists : S.store.Persists (S.conclude d levels plan a).store :=
      conclude_induction (refl_of Store.Persists _) fun t _ => .publish _ t _
    exact h.underway u hu results s (trans_of Store.Persists hpersists hs)

/-- Going on with a definition. -/
lemma proceed (h : S.InStep) (d : Declaration) (levels : List PrefabLevel)
    (hreads : attachment.OnlyReads S.store)
    (hrelies : attachment.ReliesOnHost plan.Agrees S.store) :
    (S.proceed d levels plan attachment).InStep := by
  obtain ⟨hreturned, hsuspended⟩ := hrelies.advance
  rcases proceed_cases d levels plan hreads with
    ⟨_, -, hend⟩ | ⟨a, hrun, hend⟩ | ⟨_, _, resume, hrun, -, hend⟩
  · rw [hend]
    exact h
  · rw [hrun] at hreturned
    rw [hend]
    exact h.conclude d levels (hreturned a rfl)
  · rw [hrun] at hsuspended
    rw [hend]
    exact ⟨h.agrees, List.forall_mem_cons.2 ⟨hsuspended _ _ resume rfl, h.underway⟩⟩

lemma begin (h : S.InStep) (r : RegistryId)
    (hvalues : ∀ e ∈ S.store.entries d.properties d.procedure, S.store.Has e.value) :
    (S.begin r d).InStep := by
  obtain ⟨hadds, -⟩ := addsPending_prepare r d S.store
  have hpersists := (ensures_prepare permits_persists r d S.store).advance
  have hleaves := (ensures_prepare permits_leavesProperties r d S.store).advance
  unfold Session.begin
  rcases hrun : (prepare r d).advance.run S.store with ⟨e | plan | ⟨p, args, resume⟩, s⟩ <;>
    rw [hrun] at hadds hpersists hleaves
  · exact h.of_addsPending hadds hpersists (List.Subset.refl _)
  · have hprepared : InStep { S with store := s } :=
      h.of_addsPending hadds hpersists (List.Subset.refl _)
    refine hprepared.proceed d _ (plan.onlyReads_attachment d s) ?_
    refine plan.reliesOnHost_attachment fun e he => hpersists.has (hvalues e ?_)
    rw [← hleaves.entries]
    exact he
  · exact h.of_addsPending hadds hpersists (List.Subset.refl _)

/-- Every step keeps the two records of every type in step. -/
lemma step (h : S.InStep) (horderly : S.Orderly) (hstep : GroundedStep S S') : S'.InStep := by
  cases hstep with
  | begin r d hvalues => exact h.begin r hvalues
  | @resume before after u hu results hresults =>
    have hmem := mem_underway hu
    have htaken : InStep { S with underway := before ++ after } :=
      ⟨h.agrees, fun w hw => h.underway w (subset_underway hu hw)⟩
    exact htaken.proceed _ _ (horderly.onlyReads u hmem results _)
      (h.underway u hmem results _ (refl_of Store.Persists _) hresults)
  | still hstore hpersists hunderway => exact h.of_addsPending hstore hpersists hunderway

end InStep

lemma Grounded.inStep (h : S.Grounded) : S.InStep := by
  induction h with
  | start hpending => exact ⟨fun t => .of_pending (hpending t), nofun⟩
  | step h hstep ih => exact ih.step h.closed.orderly hstep

end Session

/-! ### Looking up the procedure -/

/-- A look-up finds no field: the instance is foreign to the type, or the field out of range. -/
def Failure.IsUnbound : Failure → Prop
  | .condition (.foreignInstance _ _) | .condition (.fieldOutOfRange _ _ _) => True
  | _ => False

variable {s : Store} {t : TypeId} {i : InstanceId}

/-- A record that refuses arguments fails for another reason, however it words the refusal. -/
lemma raises_refuseArity (i : InstanceId) (expected : Arity) (given : Nat) (s : Store) :
    (refuseArity i expected given).Raises (¬·.IsUnbound) s := by
  refine Computation.Raises.get_bind ?_
  dsimp only
  split
  · exact Computation.Raises.raise id
  · intro results s₁
    refine Computation.Raises.liftM_bind (fun c hc => ?_) fun v _ =>
      Computation.Raises.get_bind (Computation.Raises.raise id)
    rcases results with _ | ⟨w, _ | _⟩
    · cases hc
      exact id
    · cases hc
    · cases hc
      exact id

/-- If a designated field can be read, applying a record fails by itself for other reasons. -/
lemma raises_callRecord (hread : ∀ index source,
      (s.typeOf i).procedure? = some ⟨.field index, source⟩ → ∃ v, s.read i source index = .ok v)
    (args : List Value) : (callRecord i args).Raises (¬·.IsUnbound) s := by
  have hcall : ∀ v args, (Computation.apply v args).Raises (¬·.IsUnbound) s :=
    fun _ _ _ _ => trivial
  refine Computation.Raises.get_bind ?_
  split
  · exact Computation.Raises.raise id
  · rename_i index source hprocedure
    obtain ⟨v, hv⟩ := hread index source hprocedure
    refine Computation.Raises.look_bind (fun e he => ?_) fun w _ => ?_
    · rw [hv] at he
      cases he
    · split
      · exact hcall _ _
      · split
        · exact hcall _ _
        · exact raises_refuseArity _ _ _ _
  · dsimp only
    split
    · exact hcall _ _
    · split
      · exact hcall _ _
      · exact raises_refuseArity _ _ _ _

namespace Store

/-- The designation of a type: there is one exactly if the type holds the property of procedures,
and it stands for the value of this property. Its source is in the chain of the type, a designated
field is an init field of the source, and a designated procedure can be applied. -/
structure WellDesignated (s : Store) (t : TypeId) : Prop where
  present : (s.type t).procedure?.isSome ↔ ((s.type t).propertyValue? Property.procedure).isSome
  value : ∀ b, (s.type t).procedure? = some b →
    (s.type t).propertyValue? Property.procedure = some b.designation.toValue
  source : ∀ b, (s.type t).procedure? = some b → b.source ∈ s.ancestry t
  field : ∀ index source, (s.type t).procedure? = some ⟨.field index, source⟩ →
    index < (s.type source).initCount
  callable : ∀ v source, (s.type t).procedure? = some ⟨.procedure v, source⟩ → s.isCallable v

/-- A field that the type of a record designates can be read, and the arity of the record is that of
the content; and whatever the arguments are and whatever comes of calls, applying the record does
not fail for want of a field unless one of the calls does. -/
structure Dispatches (s : Store) (i : InstanceId) : Prop where
  field : ∀ index source, (s.typeOf i).procedure? = some ⟨.field index, source⟩ →
    ∃ v, s.read i source index = .ok v ∧
      s.arity? (.record i) = s.arityWithin s.instances.size v
  fails : ∀ R args calls e s', (callRecord i args).Runs R s calls (.error e) s' →
    e.IsUnbound → ∃ x ∈ calls, x.reply = .error e

lemma Agrees.wellDesignated (h : ∀ u, s.Agrees u) (hs : s.Ordered) (t : TypeId) :
    s.WellDesignated t where
  present := by
    rw [← (h t).value, Option.isSome_map]
  value b hb := by
    rw [← (h t).value, hb]
    rfl
  source b hb := source_mem_ancestry h hs hb
  field := (h t).field
  callable v source hv := ((h t).callable v source hv).1

lemma WellDesignated.isCallable_eq_holds (h : s.WellDesignated (s.record i).type) :
    s.isCallable (.record i) = s.holds Property.procedure (.record i) :=
  Bool.eq_iff_iff.2 h.present

/-- A designated field is found in the instances of the type, as long as their fields can be
counted. -/
lemma WellDesignated.exists_read (h : s.WellDesignated (s.record i).type) (hs : s.LaidOut)
    (hfull : s.Full i) (hexact : s.Exact (s.record i).type) {index : Nat} {source : TypeId}
    (hb : (s.typeOf i).procedure? = some ⟨.field index, source⟩) :
    ∃ v, s.read i source index = .ok v := by
  have hmem : source ∈ s.ancestry (s.record i).type := h.source _ hb
  have hown : index < (s.type source).ownCount := by
    rw [(hexact.of_mem_ancestry hs.ordered hmem).ownCount hs.ordered]
    exact Nat.lt_of_lt_of_le (h.field index source hb) (Nat.le_add_right _ _)
  have hwithin : s.WithinStorage source (.record i) index := hfull.withinStorage_record hs hexact
  exact hwithin.reads_iff.2 ⟨test_record_iff.2 hmem, hown⟩

lemma WellDesignated.dispatches (h : s.WellDesignated (s.record i).type) (hs : s.LaidOut)
    (hfull : s.Full i) (hexact : s.Exact (s.record i).type) : s.Dispatches i where
  field index source hb := by
    obtain ⟨v, hv⟩ := h.exists_read hs hfull hexact hb
    refine ⟨v, hv, ?_⟩
    rw [arity?, arityWithin, hb]
    simp only [hv]
  fails R args calls e s' hruns hunbound := by
    have hraises := raises_callRecord (fun _ _ hb => h.exists_read hs hfull hexact hb) args
    exact (hraises.of_runs hruns).resolve_left fun hne => hne hunbound

end Store

namespace Session

/-- An instance of the lower type is made, with a predicate in the field that the upper type
designates. -/
def filledSession : Session :=
  { inheritedSession with
    store := inheritedSession.store.withRecord ⟨1⟩ [.procedure (.predicate ⟨0⟩), .ofNat 7] }

lemma grounded_filledSession : filledSession.Grounded := by
  have hinitial : Session.initial.Grounded := .start (Store.resolution_of_types_eq rfl)
  have hdesignated : designatedSession.Grounded := by
    refine hinitial.step (.begin ⟨0⟩ _ fun e he => ?_)
    obtain rfl := List.mem_singleton.1 he
    exact nofun
  have hinherited : inheritedSession.Grounded := hdesignated.step (.begin ⟨0⟩ _ nofun)
  refine hinherited.step (.of_reaches (.of_types_eq rfl) ?_)
  exact .make ⟨1⟩ [.procedure (.predicate ⟨0⟩), .ofNat 7] inheritedSession.store

lemma peopled_filledSession : filledSession.store.Peopled := by
  have hinitial : Session.initial.store.Built := .other .initial rfl rfl
  let resolution : Resolution := ⟨[(Property.procedure, .ofNat 0)], some ⟨.field 0, ⟨0⟩⟩⟩
  have hdesignated : designatedSession.store.Built :=
    .other (.publish ⟨0⟩ resolution (.declare
      { name := ⟨"base"⟩, initCount := 1, procedure := some (.ofNat 0) } hinitial nofun)) rfl rfl
  have hinherited : inheritedSession.store.Built := by
    refine .other (.publish ⟨1⟩ resolution (.declare
      { name := ⟨"sub"⟩, superType := some ⟨0⟩, initCount := 1 } hdesignated fun u hu => ?_)) rfl
      rfl
    cases hu
    exact Nat.zero_lt_one
  exact .make ⟨1⟩ [.procedure (.predicate ⟨0⟩), .ofNat 7] (.empty hinherited rfl) (by decide)

example : filledSession.store.arity? (.record ⟨0⟩) = some (.exactly 1) := rfl

/-- A type designates the first of its fields, which are so many that it seems to have none. An
instance of it is made. -/
def overfilledSession : Session :=
  let S := Session.initial.begin ⟨0⟩
    { name := ⟨"t"⟩, initCount := UInt64.size - 1, autoCount := 1, procedure := some (.ofNat 0) }
  { S with store := S.store.withRecord ⟨0⟩ [] }

lemma grounded_overfilledSession : overfilledSession.Grounded := by
  have hinitial : Session.initial.Grounded := .start (Store.resolution_of_types_eq rfl)
  refine (hinitial.step (.begin ⟨0⟩ _ fun e he => ?_)).step (.of_reaches (.of_types_eq rfl) ?_)
  · obtain rfl := List.mem_singleton.1 he
    exact nofun
  · exact .make ⟨0⟩ [] _

lemma peopled_overfilledSession : overfilledSession.store.Peopled := by
  have hinitial : Session.initial.store.Built := .other .initial rfl rfl
  let resolution : Resolution := ⟨[(Property.procedure, .ofNat 0)], some ⟨.field 0, ⟨0⟩⟩⟩
  refine .make ⟨0⟩ [] (.empty (.other (.publish ⟨0⟩ resolution (.declare
    { name := ⟨"t"⟩, initCount := UInt64.size - 1, autoCount := 1,
      procedure := some (.ofNat 0) } hinitial nofun)) rfl rfl) rfl) (by decide)

end Session

end Records
