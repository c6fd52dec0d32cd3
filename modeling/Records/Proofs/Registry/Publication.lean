import Records.Proofs.Registry.Identity

/-!
# What becomes of declared properties

A definition attaches its properties first and publishes them at the end. A pending prefab type
is shared by all definitions of its structure, and the first of them to end resolves it. One
that ends later is answered with the type as it is, and what it has attached itself is held by
the type only if the first one attached the same.
-/

namespace Records

variable {r : RegistryId} {S S' : Session} {s : Store} {c : Settled}

/-- A definition resolved a type: the type was pending then, and got what was attached. -/
structure Settled.Resolves (c : Settled) (t : TypeId) (resolution : Resolution) : Prop where
  type : c.type = t
  previous : c.previous = none
  bindings : c.bindings <+: resolution.properties

/-- Resolved prefab types were resolved by definitions, and a definition that found its type
resolved came after the one that resolved it. -/
structure Session.Attributed (r : RegistryId) (S : Session) : Prop where
  resolved : ∀ k t resolution, (S.store.catalog r).typeFor? k = some t →
    (S.store.type t).resolution = some resolution → ∃ w ∈ S.completed, w.Resolves t resolution
  earlier : ∀ c earlier, c :: earlier <:+ S.completed → ∀ resolution,
    c.previous = some resolution → ∃ w ∈ earlier, w.Resolves c.type resolution

lemma Store.bindings_prefix_resolve (s : Store) (t : TypeId) (a : Attached) :
    a.bindings <+: (s.resolve t a).properties :=
  List.prefix_append a.bindings _

namespace Session.Attributed

/-- No registered type has been resolved since. -/
lemma mono {T : Session} (h : S.Attributed r) (hcompleted : T.completed = S.completed)
    (hresolved : ∀ k t resolution, (T.store.catalog r).typeFor? k = some t →
      (T.store.type t).resolution = some resolution →
        (S.store.catalog r).typeFor? k = some t ∧
          (S.store.type t).resolution = some resolution) : T.Attributed r where
  resolved k t resolution ht hresolution := by
    rw [hcompleted]
    obtain ⟨ht, hresolution⟩ := hresolved k t resolution ht hresolution
    exact h.resolved k t resolution ht hresolution
  earlier := by
    rw [hcompleted]
    exact h.earlier

/-- Types that were registered since are pending. -/
lemma of_grows {T : Session} (h : S.Attributed r) (hcoherent : S.store.Coherent r)
    (hs : S.store.Grows r T.store) (hcompleted : T.completed = S.completed) :
    T.Attributed r := by
  refine h.mono hcompleted fun k t resolution ht hresolution => ?_
  rcases hs.registered k t ht with hold | ⟨-, hpending⟩
  · rw [hs.enlarges.type t (hcoherent.catalog.lt_of_typeFor? hold)] at hresolution
    exact ⟨hold, hresolution⟩
  · rw [hpending] at hresolution
    cases hresolution

/-- One more definition has ended. -/
lemma finish (h : S.Attributed r) (hs : s.catalog r = S.store.catalog r) {d : Declaration}
    {levels : List PrefabLevel}
    (hresolved : ∀ k t resolution, (S.store.catalog r).typeFor? k = some t →
      (s.type t).resolution = some resolution →
        c.Resolves t resolution ∨ (S.store.type t).resolution = some resolution)
    (hprevious : ∀ resolution, c.previous = some resolution →
      ∃ k, (S.store.catalog r).typeFor? k = some c.type ∧
        (S.store.type c.type).resolution = some resolution) :
    ({ S with store := s }.finish d levels c).Attributed r where
  resolved k t resolution ht hresolution := by
    rw [← hs] at hresolved
    rcases hresolved k t resolution ht hresolution with hc | hresolution
    · exact ⟨c, List.mem_cons_self, hc⟩
    · obtain ⟨w, hw, hresolves⟩ := h.resolved k t resolution (hs ▸ ht) hresolution
      exact ⟨w, List.mem_cons_of_mem c hw, hresolves⟩
  earlier c' earlier hsuffix resolution hc' := by
    rcases List.suffix_cons_iff.1 hsuffix with heq | hsuffix
    · cases heq
      obtain ⟨k, ht, hresolution⟩ := hprevious resolution hc'
      exact h.resolved k c.type resolution ht hresolution
    · exact h.earlier c' earlier hsuffix resolution hc'

/-- Only the plan to attach resolves a registered type, and it says what the type had been
resolved to before. -/
lemma conclude (h : S.Attributed r) {d : Declaration}
    {levels : List PrefabLevel} {plan : Plan} (hplan : plan.Valid S.store r d levels)
    (a : Attached) : (S.conclude d levels plan a).Attributed r := by
  unfold Session.conclude
  rw [Plan.run_conclude]
  cases plan with
  | keep t => exact h.finish (s := S.store) rfl (fun _ _ _ _ ht => .inr ht) nofun
  | attach t =>
    refine h.finish (s := S.store.publish t (S.store.resolve t a)) rfl
      (fun k u resolution _ hu => ?_) fun resolution hprevious => ?_
    · by_cases htu : t = u
      · subst htu
        have hlt : t.index < S.store.types.size := hplan.answers.lt
        rw [Store.type_publish_self hlt] at hu
        cases hpending : (S.store.type t).resolution with
        | some _ =>
          simp only [RecordType.publish, hpending] at hu
          exact .inr hu
        | none =>
          simp only [RecordType.publish, hpending, Option.some.injEq] at hu
          subst hu
          exact .inl ⟨rfl, rfl, S.store.bindings_prefix_resolve t a⟩
      · rw [Store.type_publish_of_ne htu] at hu
        exact .inr hu
    · by_cases hd : d.inspector = .prefab
      · obtain ⟨k, -, hk⟩ := hplan.answers.registered hd
        exact ⟨k, hk, hprevious⟩
      · have hpending := (hplan.own t (if_neg hd)).pending
        rw [hpending] at hprevious
        cases hprevious
  | compare t candidate =>
    have hprivate := hplan.own candidate rfl
    have hother : ∀ k u, (S.store.catalog r).typeFor? k = some u →
        (S.store.publish candidate (S.store.resolve candidate a)).type u = S.store.type u := by
      intro k u hk
      refine Store.type_publish_of_ne ?_ _
      rintro rfl
      exact hprivate.unregistered k hk
    by_cases hsame : ((S.store.publish candidate (S.store.resolve candidate a)).type
        candidate).sameProperties ((S.store.publish candidate (S.store.resolve candidate a)).type t)
    · simp only [hsame, if_true]
      refine h.finish (s := S.store.publish candidate (S.store.resolve candidate a)) rfl
        (fun k u resolution hk hu => ?_) fun resolution hprevious => ?_
      · rw [hother k u hk] at hu
        exact .inr hu
      · rw [hprivate.pending] at hprevious
        cases hprevious
    · simp only [hsame, Bool.false_eq_true, if_false]
      refine h.mono rfl fun k u resolution hk hu => ⟨hk, ?_⟩
      rw [← hother k u hk]
      exact hu

lemma step (h : S.Attributed r) (hs : S.Sound r) (hstep : Session.Step r S S') :
    S'.Attributed r := by
  obtain ⟨T, hgrows, hcompleted, hend⟩ := hs.advanced_step hstep
  have hT := h.of_grows hs.coherent hgrows hcompleted
  rcases hend with rfl | ⟨d, levels, plan, a, hplan, rfl⟩
  · exact hT
  · exact hT.conclude hplan a

end Session.Attributed

lemma Session.Reachable.attributed (h : S.Reachable r) : S.Attributed r := by
  induction h with
  | start hr hkeys htypes =>
    refine ⟨fun k t resolution ht => ?_, fun c earlier hsuffix => ?_⟩
    · simp [PrefabCatalog.typeFor?, htypes] at ht
    · simp at hsuffix
  | step h hstep ih => exact ih.step h.sound hstep

/-- In every state of a session, the type a definition was answered with holds what the definition
attached exactly if the type was pending when it came to be published, or had been resolved to
something that holds it. Only a prefab type can have been resolved before, and it was a definition
that ended earlier that resolved it. -/
theorem Session.Reachable.covers_iff {earlier : List Settled} (h : S.Reachable r)
    (hc : c :: earlier <:+ S.completed) :
    (Covers (S.store.type c.type).properties c.bindings ↔
      ∀ resolution, c.previous = some resolution → Covers resolution.properties c.bindings) ∧
    ∀ resolution, c.previous = some resolution →
      (S.store.type c.type).isPrefab ∧ ∃ w ∈ earlier, w.Resolves c.type resolution := by
  have hkept := h.sound.completed c (hc.subset List.mem_cons_self)
  refine ⟨hkept.covers, fun resolution hprevious => ⟨hkept.shared ?_, ?_⟩⟩
  · rw [hprevious]
    rfl
  · exact h.attributed.earlier c earlier hc resolution hprevious

/-! ### A race -/

/-- A session with two guarded properties. -/
def Session.guarded : Session where
  store := { Session.initial.store with
    properties := Session.initial.store.properties ++
      #[⟨⟨"pa"⟩, some .void, [], false⟩, ⟨⟨"pb"⟩, some .void, [], false⟩] }

lemma Session.reachable_guarded : Session.guarded.Reachable ⟨0⟩ := .start (by decide) rfl rfl

/-- A prefab type of one field with one property. -/
def markedDeclaration (p : PropertyId) (v : Value) : Declaration where
  name := ⟨"pt"⟩
  initCount := 1
  properties := [(p, v)]
  inspector := .prefab

/-- The latest definition goes on with one result. -/
def Session.resumeLatest (S : Session) (result : Value) : Session :=
  match S.underway with
  | [] => S
  | u :: rest =>
    { S with underway := rest }.proceed u.declaration u.levels u.plan (u.resume [result])

lemma Session.Reachable.resumeLatest (h : S.Reachable r) (result : Value) :
    (S.resumeLatest result).Reachable r := by
  unfold Session.resumeLatest
  cases hu : S.underway with
  | nil => exact h
  | cons u rest => exact h.step (@Step.resume r S [] rest u hu [result])

/-- Two definitions of one structure wait for a guard each; the second one ends first. -/
def raceSession : Session :=
  (((Session.guarded.begin ⟨0⟩ (markedDeclaration ⟨6⟩ (.ofNat 1))).begin ⟨0⟩
    (markedDeclaration ⟨7⟩ (.ofNat 2))).resumeLatest (.ofNat 2)).resumeLatest (.ofNat 1)

lemma reachable_raceSession : raceSession.Reachable ⟨0⟩ := by
  have hfirst := Session.reachable_guarded.step
    (.begin (markedDeclaration ⟨6⟩ (.ofNat 1)) fun _ t ht => by cases ht)
  have hsecond := hfirst.step (.begin (markedDeclaration ⟨7⟩ (.ofNat 2)) fun _ t ht => by cases ht)
  exact (hsecond.resumeLatest _).resumeLatest _

/-- The definition that ends last finds the type resolved by the other one. -/
theorem Session.Reachable.covers_iff_race :
    ∃ c earlier, c :: earlier <:+ raceSession.completed ∧ c.previous.isSome ∧
      (Covers (raceSession.store.type c.type).properties c.bindings ↔
        ∀ resolution, c.previous = some resolution → Covers resolution.properties c.bindings) ∧
      ∀ resolution, c.previous = some resolution →
        (raceSession.store.type c.type).isPrefab ∧ ∃ w ∈ earlier, w.Resolves c.type resolution := by
  have hall : raceSession.completed.head (by decide) :: raceSession.completed.tail <:+
      raceSession.completed := ⟨[], List.cons_head_tail _⟩
  exact ⟨_, _, hall, by decide, reachable_raceSession.covers_iff hall⟩

/-- What the first definition of the race attached is lost. -/
theorem Session.exists_lost_property :
    ∃ S : Session, S.Reachable ⟨0⟩ ∧ ∃ c ∈ S.completed,
      ¬Covers (S.store.type c.type).properties c.bindings := by
  refine ⟨raceSession, reachable_raceSession, raceSession.completed.head (by decide), ?_, ?_⟩
  · exact List.head_mem _
  · intro h
    obtain ⟨w, hw, -⟩ := h ⟨6⟩ (.ofNat 1) (by rfl)
    cases hw

end Records
