import Records.Proofs.Attachment.Replay
import Records.Proofs.Construction.Fields
import Records.Proofs.Registry.Bare
import Records.Proofs.Registry.Closed
import Records.Proofs.Registry.Identity
import Records.Proofs.Registry.Designation

/-!
# Prefab types are pure structure

A prefab type has no guard and no designation, and neither have its ancestors. The restrictions
are checked of a declaration; what is registered for it may be an older type, a type that was
asked for by its key, or a type that others are about to finalize. None of these ways brings in
behavior: types for keys are bare, and what is attached to a prefab type never designates a
procedure.

## Main definitions

* `Store.Structural`: a type that is pure structure.
* `Store.Restricts`: a prefab declaration does not keep to the restrictions.

## Main statements

* `run_construct_of_unguarded`: without guards, a constructor makes its instance at once.
* `Session.Reachable.structural`: every prefab type of a session is pure structure.
-/

namespace Records

variable {s s' : Store} {r : RegistryId} {t : TypeId} {d : Declaration} {plan : Plan}
  {a : Attached}

/-! ### Attachment without a designation -/

/-- An entry designates nothing unless it is about the property of procedures. -/
lemma answersIn_attachEntry_designation (t : TypeId) (a : Attached) {e : Entry}
    (he : e.property ≠ Property.procedure) (s : Store) :
    (attachEntry t a e).AnswersIn (fun _ => True) (·.designation = a.designation) s := by
  refine (Computation.AnswersIn.trivial _ s).bind trivial fun v s _ _ =>
    (Computation.AnswersIn.trivial _ s).bind trivial fun w s _ _ =>
      Computation.AnswersIn.get_bind trivial (Computation.AnswersIn.liftM trivial fun a' ha' => ?_)
  rcases Store.bindProperty_eq_ok ha' with rfl | ⟨-, -, hsame | ⟨hprocedure, -⟩⟩
  · rfl
  · exact hsame
  · exact absurd hprocedure he

lemma answersIn_attachEntries_designation (t : TypeId) {entries : List Entry}
    (hentries : ∀ e ∈ entries, e.property ≠ Property.procedure) (a : Attached) (s : Store) :
    (attachEntries t entries a).AnswersIn (fun _ => True) (·.designation = a.designation) s := by
  induction entries generalizing a s with
  | nil => rfl
  | cons e rest ih =>
    obtain ⟨he, hrest⟩ := List.forall_mem_cons.1 hentries
    refine (answersIn_attachEntry_designation t a he s).bind trivial fun a₁ s₁ _ ha₁ => ?_
    exact (ih hrest a₁ s₁).mono fun a' ha' => ha'.trans ha₁

lemma answersIn_attachAll_designation (t : TypeId) {declared : List (PropertyId × Value)}
    (hdeclared : ∀ b ∈ declared, s.isA b.1 Property.procedure = false) :
    (attachAll t declared none).AnswersIn (fun _ => True) (·.designation = none) s := by
  refine Computation.AnswersIn.get_bind trivial ?_
  refine (Computation.AnswersIn.trivial _ s).bind trivial fun _ s₁ _ _ => ?_
  exact answersIn_attachEntries_designation t
    (fun e he => Store.ne_procedure_of_mem_entries hdeclared he) {} s₁

/-- What is attached for a prefab declaration designates nothing. -/
lemma Plan.answersIn_attachment_designation (plan : Plan) (hr : s.prefabRestriction? d = none)
    (hs : s.LeavesProperties s') :
    (plan.attachment d).AnswersIn (fun _ => True) (·.designation = none) s' := by
  obtain ⟨hprocedure, hdeclared⟩ := Store.procedure_of_prefabRestriction? hr
  have hdeclared : ∀ b ∈ d.properties, s'.isA b.1 Property.procedure = false := by
    intro b hb
    rw [hs.isA]
    exact hdeclared b hb
  cases plan with
  | keep t => rfl
  | attach t =>
    rw [Plan.attachment, hprocedure]
    exact answersIn_attachAll_designation t hdeclared
  | compare t c => exact answersIn_attachAll_designation c hdeclared

/-! ### Publishing without a designation -/

/-- A type that takes on no designation has none if its super type has none. -/
lemma procedure?_publish_eq_none (ht : (s.type t).procedure? = none) (ha : a.designation = none)
    (hsuper : ∀ u, (s.type t).superType = some u → (s.type u).procedure? = none) :
    ((s.type t).publish (s.resolve t a)).procedure? = none := by
  cases hresolution : (s.type t).resolution with
  | some r =>
    rw [RecordType.publish, hresolution]
    exact ht
  | none =>
    rw [Session.procedure?_publish hresolution, ha]
    cases hu : (s.type t).superType with
    | none => rfl
    | some u => exact hsuper u hu

namespace Session

variable {S S' : Session} {levels : List PrefabLevel} {attachment : Computation Attached}

/-! ### Sessions -/

/-- The types that a registry knows are bare and designate nothing, and the definitions of prefab
types that are underway will designate nothing. -/
structure Plain (r : RegistryId) (S : Session) : Prop where
  bare : ∀ t, S.store.Registers r t → S.store.IsBare t
  undesignated : ∀ t, S.store.Registers r t → (S.store.type t).procedure? = none
  underway : ∀ u ∈ S.underway, u.declaration.inspector = .prefab → ∀ results s,
    (u.resume results).AnswersIn (fun _ => True) (·.designation = none) s

namespace Plain

/-- The store may grow, as long as the types that become known are bare. -/
lemma of_grows (h : Plain r S) (hs : S.store.Coherent r) (hgrows : S.store.Grows r s)
    (hnew : ∀ t, s.Registers r t → S.store.types.size ≤ t.index → s.IsBare t) :
    Plain r { S with store := s } where
  bare t ht := by
    rcases ht.of_grows hs hgrows with hold | ⟨hsize, -⟩
    · exact (h.bare t hold).evolves hgrows.enlarges.evolves (hold.lt hs)
    · exact hnew t ht hsize
  undesignated t ht := by
    rcases ht.of_grows hs hgrows with hold | ⟨-, hpending⟩
    · show (s.type t).procedure? = none
      rw [hgrows.enlarges.type t (hold.lt hs)]
      exact h.undesignated t hold
    · show (s.type t).procedure? = none
      rw [RecordType.procedure?, hpending]
      rfl
  underway := h.underway

lemma of_addsBare (h : Plain r S) (hs : S.store.Coherent r) (hgrows : S.store.Grows r s)
    (hadds : S.store.AddsBare s) : Plain r { S with store := s } :=
  h.of_grows hs hgrows fun t _ hsize => hadds.bare t hsize

/-- If the registry is left alone, no type becomes known. -/
lemma of_catalog_eq (h : Plain r S) (hs : S.store.Coherent r) (hgrows : S.store.Grows r s)
    (hc : s.catalog r = S.store.catalog r) : Plain r { S with store := s } := by
  refine h.of_grows hs hgrows fun t ht hsize => ?_
  have hold : S.store.Registers r t := by
    rw [Store.Registers, hc] at ht
    exact ht
  exact absurd (hold.lt hs) (Nat.not_lt.2 hsize)

lemma of_subset (h : Plain r S) {underway : List Underway} (hsubset : underway ⊆ S.underway) :
    Plain r { S with underway } :=
  ⟨h.bare, h.undesignated, fun u hu => h.underway u (hsubset hu)⟩

/-- A type that a definition publishes is known only if the definition is that of a prefab type. -/
lemma isPrefab_of_target (hplan : plan.Valid s r d levels) (htarget : plan.target? = some t)
    (ht : s.Registers r t) : d.inspector = .prefab := by
  by_contra hd
  have hown : plan.own? d = some t := by
    cases plan with
    | keep t' => cases htarget
    | attach t' =>
      cases htarget
      exact if_neg hd
    | compare t' c => exact absurd (hplan.compared t' c rfl).1 hd
  obtain ⟨k, -, hk⟩ := ht
  exact (hplan.own t hown).unregistered k hk

/-- Publishing brings in no designation. -/
lemma publish (h : Plain r S) (hs : S.store.Coherent r) (hplan : plan.Valid S.store r d levels)
    (htarget : plan.target? = some t) (ha : d.inspector = .prefab → a.designation = none) :
    Plain r { S with store := S.store.publish t (S.store.resolve t a) } where
  bare u hu :=
    (h.bare u hu).evolves (.publish S.store t _) (Store.Registers.lt hu hs)
  undesignated u hu := by
    have hu : S.store.Registers r u := hu
    show ((S.store.publish t (S.store.resolve t a)).type u).procedure? = none
    rw [Store.type_publish]
    split
    · rename_i heq
      obtain ⟨rfl, -⟩ := heq
      refine procedure?_publish_eq_none (h.undesignated t hu)
        (ha (isPrefab_of_target hplan htarget hu)) fun v hv => ?_
      exact h.undesignated v (hu.super hs hv).1
    · exact h.undesignated u hu
  underway := h.underway

lemma conclude (h : Plain r S) (hs : S.store.Coherent r) (hplan : plan.Valid S.store r d levels)
    (ha : d.inspector = .prefab → a.designation = none) :
    Plain r (S.conclude d levels plan a) := by
  have hstore := store_conclude S d levels plan a
  have hunderway := underway_conclude S d levels plan a
  have hplain : Plain r { S with store := (S.conclude d levels plan a).store } := by
    rw [hstore]
    cases htarget : plan.target? with
    | none => exact h
    | some t => exact h.publish hs hplan htarget ha
  refine ⟨hplain.bare, hplain.undesignated, ?_⟩
  rw [hunderway]
  exact hplain.underway

/-- Going on with a definition. -/
lemma proceed (h : Plain r S) (hs : S.store.Coherent r) (hplan : plan.Valid S.store r d levels)
    (hreads : attachment.OnlyReads S.store)
    (hanswers : d.inspector = .prefab →
      attachment.AnswersIn (fun _ => True) (·.designation = none) S.store) :
    Plain r (S.proceed d levels plan attachment) := by
  rcases proceed_cases d levels plan hreads with
    ⟨_, -, hend⟩ | ⟨a, hrun, hend⟩ | ⟨_, _, resume, hrun, -, hend⟩
  · rw [hend]
    exact h
  · rw [hend]
    exact h.conclude hs hplan fun hd => (hanswers hd).advance.1 a (by rw [hrun])
  · rw [hend]
    refine ⟨h.bare, h.undesignated, List.forall_mem_cons.2 ⟨fun hd results s => ?_, h.underway⟩⟩
    exact (hanswers hd).advance.2 _ _ resume (by rw [hrun]) results s trivial

/-- Making a plan for any other declaration adds a type that the registry does not know. -/
lemma catalog_prepare (hd : d.inspector ≠ .prefab) (s : Store) :
    ((prepare r d).advance.run s).2.catalog r = s.catalog r := by
  rw [prepare, if_neg hd]
  show (((Computation.ofStoreM (declare d)).bind _).advance.run s).2.catalog r = _
  rw [Computation.run_advance_bind, Computation.run_advance_ofStoreM, run_declare]
  cases s.layOut d <;> rfl

lemma prepare (h : Plain r S) (hs : S.store.Coherent r)
    {result : Except Failure (Records.Step Plan (List Value → Computation Plan))}
    (hrun : (Records.prepare r d).advance.run S.store = (result, s)) (hgrows : S.store.Grows r s) :
    Plain r { S with store := s } := by
  by_cases hd : d.inspector = .prefab
  · have hadds := (addsBare_prepare r hd S.store).1
    rw [hrun] at hadds
    exact h.of_addsBare hs hgrows hadds
  · have hcatalog := catalog_prepare (r := r) hd S.store
    rw [hrun] at hcatalog
    exact h.of_catalog_eq hs hgrows hcatalog

lemma begin (h : Plain r S) (hsound : Sound r S)
    (hsuper : d.inspector = .prefab → ∀ t, d.superType = some t → S.Returned t) :
    Plain r (S.begin r d) := by
  have hs := hsound.coherent
  rcases begin_cases hs fun hd => hsound.superRegistered (hsuper hd) with
    ⟨_, s, hrun, hgrows, hend⟩ | ⟨plan, s, hrun, hgrows, hplan, -, hend⟩
  · rw [hend]
    exact h.prepare hs hrun hgrows
  · rw [hend]
    refine (h.prepare hs hrun hgrows).proceed hgrows.coherent hplan
      (plan.onlyReads_attachment d s) fun hd => ?_
    have hruns : (Records.prepare r d).Runs Store.LeavesProperties S.store [] (.ok plan) s := by
      rw [Computation.runs_iff_of_advance, hrun]
      exact ⟨rfl, rfl, rfl⟩
    obtain ⟨hleaves, hprepared⟩ := (ensures_prepare_laidOut r d S.store).of_runs hruns
    exact plan.answersIn_attachment_designation ((hprepared plan rfl).1 hd) hleaves

/-- Asking the registry. -/
lemma ask {α : Type} {Q : α → Store → Prop} (h : Plain r S) (hs : S.store.Coherent r)
    {m : StoreM α} (hm : m.Ensures (Store.Advances r) Q S.store) (hbare : m.AddsBare)
    (found : α → Store → List (List PrefabLevel × TypeId)) : Plain r (S.ask m found) := by
  obtain ⟨hadvances, -⟩ := hm
  obtain ⟨hadds, -⟩ := hbare S.store
  unfold Session.ask
  rcases hrun : m.run S.store with ⟨_ | a, s⟩ <;> rw [hrun] at hadvances hadds
  · exact h.of_addsBare hs (hadvances hs) hadds
  · have hplain := h.of_addsBare hs (hadvances hs) hadds
    exact ⟨hplain.bare, hplain.undesignated, hplain.underway⟩

/-- Every step keeps the types of a registry free of guards and designations. -/
lemma step (h : Plain r S) (hsound : Sound r S) (hstep : Session.Step r S S') : Plain r S' := by
  have hs := hsound.coherent
  cases hstep with
  | begin d hsuper => exact h.begin hsound hsuper
  | resume u hu results =>
    have hmem := mem_underway hu
    exact (h.of_subset (subset_underway hu)).proceed hs (hsound.underway u hmem)
      (hsound.onlyReads u hmem results _) fun hd => h.underway u hmem hd results _
  | abandon u hu => exact h.of_subset (subset_underway hu)
  | keyOfType t => exact h.ask hs (keyOfType_ensures hs t) (addsBare_keyOfType r t) _
  | keyOfDeclaration d =>
    exact h.ask hs (keyOfDeclaration_ensures hs d) (addsBare_keyOfDeclaration r d) _
  | keyOfDatum datum total =>
    exact h.ask hs (keyOfDatum_ensures hs datum total) (addsBare_keyOfDatum r datum total) _
  | prefabType k hk => exact h.ask hs (prefabType_ensures hs hk) (addsBare_prefabType r k) _
  | prefabTypeOfDatum datum total =>
    exact h.ask hs (prefabTypeOfDatum_ensures hs datum total)
      (addsBare_prefabTypeOfDatum r datum total) _
  | prefabInstance datum values =>
    exact h.ask hs (prefabInstance_ensures hs datum values)
      (addsBare_prefabInstance r datum values) _
  | other henlarges hregistries hc =>
    exact h.of_catalog_eq hs (Store.Advances.of_enlarges henlarges hregistries hc hs) hc

end Plain

lemma Reachable.plain (h : S.Reachable r) : Plain r S := by
  induction h with
  | @start s hr hkeys htypes =>
    have hnone : ∀ t, ¬s.Registers r t := by
      rintro t ⟨k, hk, -⟩
      rw [hkeys] at hk
      cases hk
    exact ⟨fun t ht => absurd ht (hnone t), fun t ht => absurd ht (hnone t), nofun⟩
  | step h hstep ih => exact ih.step h.sound hstep

/-- A prefab type that was answered is known to the registry. -/
lemma Reachable.registers (h : S.Reachable r) (ht : S.Returned t)
    (hprefab : (S.store.type t).isPrefab) : S.store.Registers r t := by
  obtain ⟨levels, k, ⟨hk, -⟩, hkt⟩ : ∃ levels, S.store.IsTypeOf r levels t := by
    rcases ht with ⟨c, hc, rfl⟩ | ⟨n, hn, rfl⟩
    · exact (h.sound.completed c hc).registered hprefab
    · exact ⟨n.1, h.sound.named n hn⟩
  exact ⟨k, hk, hkt⟩

end Session

/-! ### Construction without guards -/

lemma guarded_of_unguarded {types : List RecordType} (h : ∀ t ∈ types, t.guard = none)
    (args : List Value) : Guarded types args [] (.ok (List.replicate types.length args)) := by
  induction types with
  | nil => exact .root
  | cons t supers ih =>
    obtain ⟨ht, hsupers⟩ := List.forall_mem_cons.1 h
    exact .free ht (ih hsupers)

/-- Without guards, a constructor makes its instance at once. -/
lemma run_construct_of_unguarded (hguard : ∀ u ∈ s.ancestry t, (s.type u).guard = none)
    (hexact : s.Exact t) (htotal : (s.type t).totalCount = fieldCount (s.chain t))
    {args : List Value} (hlen : args.length = s.constructorArity t) :
    (construct t args).advance.run s =
      (.ok (.returned (.record ⟨s.instances.size⟩)),
        s.withRecord t (storage (s.chain t) (List.replicate (s.chain t).length args))) := by
  have hcount : args.length = argumentCount (s.chain t) := by
    rw [hlen, hexact.constructorArity_eq]
  have hle := Nat.le_of_eq hcount.symm
  have hguarded := guarded_of_unguarded (List.forall_mem_map.2 hguard) args
  have hrow : (buildStorage (s.chain t) args).Runs Store.Evolves s []
      (.ok (storage (s.chain t) (List.replicate (s.chain t).length args))) s := by
    rw [runs_buildStorage_iff [] hcount, List.append_nil]
    exact ⟨.inl ⟨rfl, rfl⟩, _, hguarded, rfl⟩
  have hnew : (newInstance t (storage (s.chain t) (List.replicate (s.chain t).length args))).run s =
      (.ok ⟨s.instances.size⟩,
        s.withRecord t (storage (s.chain t) (List.replicate (s.chain t).length args))) := by
    rw [run_newInstance, if_pos]
    · rfl
    · exact (length_storage (hguarded.snapshots hle) hle).trans htotal.symm
  refine Computation.run_advance_of_runs (R := Store.Evolves) ?_
  show Computation.Runs _ (if args.length = s.constructorArity t then _ else _) s _ _ _
  rw [if_pos hlen]
  show Computation.Runs _ ((buildStorage (s.chain t) args).bind _) s _ _ _
  refine Computation.runs_bind_iff.2 (.inr ⟨_, s, [], [], hrow, ?_, rfl⟩)
  refine Computation.runs_map_iff.2 ⟨.ok ⟨s.instances.size⟩, ?_, rfl⟩
  exact Computation.runs_ofStoreM_iff.2 ⟨rfl, hnew⟩

/-! ### Restrictions -/

/-- A prefab declaration does not keep to the restrictions. -/
def Store.Restricts (s : Store) (d : Declaration) : Prop :=
  (∃ u, d.superType = some u ∧ (s.type u).isPrefab = false) ∨ d.guard.isSome ∨
    d.procedure.isSome ∨ ∃ b ∈ d.properties, s.isA b.1 Property.procedure

lemma Store.exists_prefabRestriction? (h : s.Restricts d) :
    ∃ what, s.prefabRestriction? d = some what := by
  unfold prefabRestriction?
  split
  · exact ⟨_, rfl⟩
  · rename_i hsuper
    split
    · exact ⟨_, rfl⟩
    · rename_i hguard
      rw [if_pos]
      · exact ⟨_, rfl⟩
      · rw [Bool.or_eq_true, List.any_eq_true]
        rcases h with ⟨u, hu, hplain⟩ | h | h | h
        · rw [hu, Option.any_some, hplain] at hsuper
          exact absurd rfl hsuper
        · exact absurd h hguard
        · exact .inl h
        · exact .inr h

/-- A prefab definition that does not keep to the restrictions is refused, and leaves the store
alone. -/
lemma run_define_of_prefabRestriction? (r : RegistryId) (hd : d.inspector = .prefab)
    {what : String} (h : s.prefabRestriction? d = some what) :
    (define r d).advance.run s =
      (.error (.condition (.prefabRestriction d.name.name what)), s) := by
  rw [define, if_pos hd]
  show ((Computation.ofStoreM (prefabTypeOfDeclaration r d)).bind _).advance.run s = _
  rw [Computation.run_advance_bind, Computation.run_advance_ofStoreM, run_prefabTypeOfDeclaration,
    h]

lemma run_define_of_restricts (r : RegistryId) (hd : d.inspector = .prefab)
    (h : s.Restricts d) : ∃ what, (define r d).advance.run s =
      (.error (.condition (.prefabRestriction d.name.name what)), s) := by
  obtain ⟨what, hwhat⟩ := Store.exists_prefabRestriction? h
  exact ⟨what, run_define_of_prefabRestriction? r hd hwhat⟩

/-! ### Pure structure -/

/-- A prefab type is pure structure: it and its ancestors are prefab types without guards and
designations, so none of its instances can be applied, and its constructor makes an instance at
once of the right number of arguments. -/
structure Store.Structural (s : Store) (t : TypeId) : Prop where
  ancestors : ∀ u ∈ s.ancestry t,
    (s.type u).isPrefab ∧ (s.type u).guard = none ∧ (s.type u).procedure? = none
  uncallable : ∀ i, (s.record i).type = t → s.isCallable (.record i) = false
  constructs : ∀ args, args.length = s.constructorArity t →
    (construct t args).advance.run s =
      (.ok (.returned (.record ⟨s.instances.size⟩)),
        s.withRecord t (storage (s.chain t) (List.replicate (s.chain t).length args)))

namespace Session

variable {S : Session}

/-- In every state of a session a prefab type that was answered is pure structure, and prefab
definitions that would make it more than that are refused, and change nothing. -/
theorem Reachable.structural (h : S.Reachable r) :
    (∀ t, S.Returned t → (S.store.type t).isPrefab → S.store.Structural t) ∧
    ∀ d, d.inspector = .prefab → S.store.Restricts d → ∃ what,
      (define r d).advance.run S.store =
        (.error (.condition (.prefabRestriction d.name.name what)), S.store) := by
  refine ⟨fun t ht hprefab => ?_, fun d hd hrestricts => run_define_of_restricts r hd hrestricts⟩
  have hs := h.sound.coherent
  have hplain := h.plain
  have hregisters := h.registers ht hprefab
  have hancestors : ∀ u ∈ S.store.ancestry t, (S.store.type u).isPrefab ∧
      (S.store.type u).guard = none ∧ (S.store.type u).procedure? = none := by
    intro u hu
    have hu := hregisters.of_mem_ancestry hs hu
    exact ⟨hu.isPrefab hs, (hplain.bare u hu).guard, hplain.undesignated u hu⟩
  refine ⟨hancestors, ?_, fun args hlen => ?_⟩
  · rintro i rfl
    show ((S.store.typeOf i).procedure?).isSome = false
    rw [Store.typeOf, hplain.undesignated _ hregisters]
    rfl
  · have hexact := Store.exact_of_isPrefab fun u hu => (hancestors u hu).1
    exact run_construct_of_unguarded (fun u hu => (hancestors u hu).2.1) hexact
      (hregisters.totalCount_eq hs hplain.bare) hlen

/-- A prefab type is defined. -/
def flatSession : Session :=
  Session.initial.begin ⟨0⟩ { name := ⟨"pt"⟩, initCount := 2, inspector := .prefab }

/-- Another one is defined below it. -/
def layeredSession : Session :=
  flatSession.begin ⟨0⟩
    { name := ⟨"pt3"⟩, superType := some ⟨0⟩, initCount := 1, autoCount := 1,
      inspector := .prefab }

lemma reachable_layeredSession : layeredSession.Reachable ⟨0⟩ := by
  have hflat : flatSession.Reachable ⟨0⟩ :=
    Session.reachable_initial.step (.begin _ fun _ t ht => by cases ht)
  refine hflat.step (.begin _ fun _ t ht => ?_)
  cases ht
  exact .inr ⟨_, List.mem_singleton_self _, rfl⟩

/-- A declaration of a third one has a guard. -/
def guardedDeclaration : Declaration where
  name := ⟨"pt4"⟩
  superType := some ⟨1⟩
  inspector := .prefab
  guard := some .void

/-- The lower type is pure structure, and one below it with a guard is refused. -/
theorem Reachable.structural_layered :
    layeredSession.Reachable ⟨0⟩ ∧ layeredSession.store.Structural ⟨1⟩ ∧ ∃ what,
      (define ⟨0⟩ guardedDeclaration).advance.run layeredSession.store =
        (.error (.condition (.prefabRestriction "pt4" what)), layeredSession.store) := by
  obtain ⟨hstructural, hrefused⟩ := reachable_layeredSession.structural
  exact ⟨reachable_layeredSession, hstructural ⟨1⟩ (.inr ⟨_, List.mem_cons_self, rfl⟩) rfl,
    hrefused _ rfl (.inr (.inl rfl))⟩

end Session

end Records
