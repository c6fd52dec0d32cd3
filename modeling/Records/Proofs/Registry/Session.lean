import Records.Proofs.Registry.Plan

/-!
# Sessions with a registry

A session is a registry in use. Definitions wait at their calls and go on in any order, or never;
in between, keys and types are looked up, literals are made, and whatever else happens to the
store.

## Main statements

* `Session.Sound.follows_begin`, `Session.Sound.follows_proceed`: a session begins and goes on
  with a definition as `define` does.
* `Session.Sound.step`: what every step preserves.
* `Session.Reachable.sound`: what holds after any number of steps.
-/

namespace Records

/-- A definition that waits at a call of its attachment. -/
structure Underway where
  declaration : Declaration
  levels : List PrefabLevel
  plan : Plan
  resume : List Value → Computation Attached

/-- The type that only this definition is about. -/
def Underway.own? (u : Underway) : Option TypeId := u.plan.own? u.declaration

/-- The state of a session, with all answers so far. -/
structure Session where
  store : Store
  underway : List Underway := []
  completed : List Settled := []
  /-- The prefab types that were answered, each with the structure that was asked for. -/
  named : List (List PrefabLevel × TypeId) := []

namespace Session

/-- What is left of a definition after its attachment. -/
def answer (d : Declaration) (plan : Plan) (a : Attached) : Computation (List Value) := do
  let c ← plan.conclude d a
  return definition c.type

/-- A type was answered before. -/
def Returned (S : Session) (t : TypeId) : Prop :=
  (∃ c ∈ S.completed, c.type = t) ∨ ∃ n ∈ S.named, n.2 = t

/-- Complete a definition. -/
def finish (S : Session) (d : Declaration) (levels : List PrefabLevel) (c : Settled) :
    Session :=
  { S with
    completed := c :: S.completed
    named := if d.inspector = .prefab then (levels, c.type) :: S.named else S.named }

/-- Publish what a definition attached. -/
def conclude (S : Session) (d : Declaration) (levels : List PrefabLevel) (plan : Plan)
    (a : Attached) : Session :=
  match (plan.conclude d a).advance.run S.store with
  | (.ok (.returned c), s) => { S with store := s }.finish d levels c
  | (_, s) => { S with store := s }

/-- Go on with a definition, up to its next call or to its end. -/
def proceed (S : Session) (d : Declaration) (levels : List PrefabLevel) (plan : Plan)
    (attachment : Computation Attached) : Session :=
  match attachment.advance.run S.store with
  | (.error _, s) => { S with store := s }
  | (.ok (.suspended _ _ resume), s) =>
    { S with store := s, underway := ⟨d, levels, plan, resume⟩ :: S.underway }
  | (.ok (.returned a), s) => { S with store := s }.conclude d levels plan a

/-- The second session is the first one after a definition went on to its next call or to its
end. -/
def Follows (d : Declaration) (levels : List PrefabLevel) (c : Computation (List Value))
    (S S' : Session) : Prop :=
  match c.advance.run S.store with
  | (.error _, s) => S' = { S with store := s }
  | (.ok (.returned values), s) =>
    ∃ c : Settled, values = definition c.type ∧ S' = { S with store := s }.finish d levels c
  | (.ok (.suspended _ _ rest), s) =>
    ∃ plan resume, (rest = fun results => (resume results).bind (answer d plan)) ∧
      S' = { S with store := s, underway := ⟨d, levels, plan, resume⟩ :: S.underway }

/-- Begin a definition. -/
def begin (S : Session) (r : RegistryId) (d : Declaration) : Session :=
  match (prepare r d).advance.run S.store with
  | (.ok (.returned plan), s) =>
    { S with store := s }.proceed d (S.store.declaredLevels d) plan (plan.attachment d)
  | (_, s) => { S with store := s }

/-- Run an operation of the registry. -/
def ask {α : Type} (S : Session) (m : StoreM α)
    (found : α → Store → List (List PrefabLevel × TypeId)) : Session :=
  match m.run S.store with
  | (.ok a, s) => { S with store := s, named := found a s ++ S.named }
  | (.error _, s) => { S with store := s }

/-- A step of a session with a registry. -/
inductive Step (r : RegistryId) : Session → Session → Prop where
  | begin {S : Session} (d : Declaration)
      (hsuper : d.inspector = .prefab → ∀ t, d.superType = some t → S.Returned t) :
      Step r S (S.begin r d)
  | resume {S : Session} {before after : List Underway} (u : Underway)
      (hu : S.underway = before ++ u :: after) (results : List Value) :
      Step r S <| { S with underway := before ++ after }.proceed u.declaration u.levels u.plan
        (u.resume results)
  | abandon {S : Session} {before after : List Underway} (u : Underway)
      (hu : S.underway = before ++ u :: after) :
      Step r S { S with underway := before ++ after }
  | keyOfType {S : Session} (t : TypeId) :
      Step r S (S.ask (keyOfType r t) fun _ _ => [])
  | keyOfDeclaration {S : Session} (d : Declaration) :
      Step r S (S.ask (keyOfDeclaration r d) fun _ _ => [])
  | keyOfDatum {S : Session} (datum : Value) (total : Nat) :
      Step r S (S.ask (keyOfDatum r datum total) fun _ _ => [])
  | prefabType {S : Session} (k : PrefabKey) (hk : k ∈ (S.store.catalog r).keys) :
      Step r S (S.ask (prefabType r k) fun t _ => [(k.levels, t)])
  | prefabTypeOfDatum {S : Session} (datum : Value) (total : Nat) :
      Step r S <| S.ask (prefabTypeOfDatum r datum total) fun t _ =>
        [((PrefabDatum.levelsFor? datum total).getD [], t)]
  | prefabInstance {S : Session} (datum : Value) (values : List Value) :
      Step r S <| S.ask (prefabInstance r datum values) fun i s =>
        [((PrefabDatum.levelsFor? datum values.length).getD [], (s.record i).type)]
  | other {S : Session} {s : Store} (hs : S.store.Enlarges s)
      (hr : S.store.registries.size ≤ s.registries.size)
      (hc : s.catalog r = S.store.catalog r) :
      Step r S { S with store := s }

/-- The states of a session that began with a new registry. -/
inductive Reachable (r : RegistryId) : Session → Prop where
  | start {s : Store} (hr : r.index < s.registries.size) (hkeys : (s.catalog r).keys = [])
      (htypes : (s.catalog r).types = []) : Reachable r { store := s }
  | step {S S' : Session} : Reachable r S → Step r S S' → Reachable r S'

/-! ### How operations end -/

variable {r : RegistryId} {S S' : Session} {s : Store} {d : Declaration}
  {levels : List PrefabLevel} {plan : Plan}

lemma mem_underway {u : Underway} {before after : List Underway}
    (hu : S.underway = before ++ u :: after) : u ∈ S.underway := by
  rw [hu]
  exact List.mem_append_right _ List.mem_cons_self

/-- Going on with a definition leaves the store to its end, if it ends. -/
lemma proceed_cases (d : Declaration) (levels : List PrefabLevel) (plan : Plan)
    {attachment : Computation Attached} (hreads : attachment.OnlyReads S.store) :
    (∃ e, attachment.advance.run S.store = (.error e, S.store) ∧
      S.proceed d levels plan attachment = S) ∨
    (∃ a, attachment.advance.run S.store = (.ok (.returned a), S.store) ∧
      S.proceed d levels plan attachment = S.conclude d levels plan a) ∨
    ∃ p args resume, attachment.advance.run S.store = (.ok (.suspended p args resume), S.store) ∧
      (∀ results s, (resume results).OnlyReads s) ∧
      S.proceed d levels plan attachment =
        { S with underway := ⟨d, levels, plan, resume⟩ :: S.underway } := by
  obtain ⟨hstore, hresume⟩ := hreads.advance
  rw [Session.proceed]
  rcases hrun : attachment.advance.run S.store with ⟨e | a | ⟨p, args, resume⟩, s⟩
  · rw [hrun] at hstore
    cases hstore
    exact .inl ⟨e, rfl, rfl⟩
  · rw [hrun] at hstore
    cases hstore
    exact .inr (.inl ⟨a, rfl, rfl⟩)
  · rw [hrun] at hstore hresume
    cases hstore
    exact .inr (.inr ⟨p, args, resume, rfl, hresume p args resume rfl, rfl⟩)

/-- Beginning a definition fails, or goes on with it as planned. -/
lemma begin_cases (hs : S.store.Coherent r)
    (hsuper : d.inspector = .prefab → S.store.SuperRegistered r d) :
    (∃ e s, (prepare r d).advance.run S.store = (.error e, s) ∧ S.store.Grows r s ∧
      S.begin r d = { S with store := s }) ∨
    ∃ plan s, (prepare r d).advance.run S.store = (.ok (.returned plan), s) ∧
      S.store.Grows r s ∧ plan.Valid s r d (S.store.declaredLevels d) ∧
      (∀ c, plan.own? d = some c → S.store.types.size ≤ c.index) ∧
      S.begin r d = { S with store := s }.proceed d (S.store.declaredLevels d) plan
        (plan.attachment d) := by
  obtain ⟨hadv, hresult⟩ := prepare_ensures hs hsuper
  rw [Session.begin]
  rcases hrun : (prepare r d).advance.run S.store with ⟨e | step, s⟩
  · rw [hrun] at hadv
    exact .inl ⟨e, s, rfl, hadv hs, rfl⟩
  · rw [hrun] at hadv hresult
    obtain ⟨plan, rfl, hplan, hnew⟩ := hresult step rfl
    exact .inr ⟨plan, s, rfl, hadv hs, hplan, hnew, rfl⟩

/-- Asking the registry fails, or finds what it ensures. -/
lemma ask_cases {α : Type} {Q : α → Store → Prop} (hs : S.store.Coherent r) {m : StoreM α}
    (hm : m.Ensures (Store.Advances r) Q S.store)
    (found : α → Store → List (List PrefabLevel × TypeId)) :
    ∃ s, S.store.Grows r s ∧ (S.ask m found = { S with store := s } ∨
      ∃ a, Q a s ∧ S.ask m found = { S with store := s, named := found a s ++ S.named }) := by
  obtain ⟨hadv, hresult⟩ := hm
  rw [Session.ask]
  rcases hrun : m.run S.store with ⟨_ | a, s⟩
  · rw [hrun] at hadv
    exact ⟨s, hadv hs, .inl rfl⟩
  · rw [hrun] at hadv hresult
    exact ⟨s, hadv hs, .inr ⟨a, hresult a rfl, rfl⟩⟩

/-! ### Soundness -/

/-- What holds of a session. No two definitions have the same type for their own. -/
structure Sound (r : RegistryId) (S : Session) : Prop where
  coherent : S.store.Coherent r
  named : ∀ n ∈ S.named, S.store.IsTypeOf r n.1 n.2
  completed : ∀ c ∈ S.completed, c.Kept r S.store
  underway : ∀ u ∈ S.underway, u.plan.Valid S.store r u.declaration u.levels
  onlyReads : ∀ u ∈ S.underway, ∀ results s, (u.resume results).OnlyReads s
  apart : S.underway.Pairwise fun u v => ∀ c, u.own? = some c → v.own? ≠ some c

namespace Sound

lemma superRegistered (h : Sound r S) (hsuper : ∀ t, d.superType = some t → S.Returned t) :
    S.store.SuperRegistered r d := by
  intro t ht hprefab
  rcases hsuper t ht with ⟨c, hc, rfl⟩ | ⟨n, hn, rfl⟩
  · exact (h.completed c hc).registered hprefab
  · exact ⟨n.1, h.named n hn⟩

/-- The store may evolve, as long as private types stay as they are. -/
lemma of_evolves (h : Sound r S) (hs : s.Coherent r) (he : S.store.Evolves s)
    (hc : (S.store.catalog r).Extends (s.catalog r))
    (hown : ∀ u ∈ S.underway, ∀ c, u.own? = some c → s.IsPrivate r c) :
    Sound r { S with store := s } where
  coherent := hs
  named n hn := (h.named n hn).mono hc
  completed c hmem := (h.completed c hmem).mono he hc
  underway u hu := (h.underway u hu).mono he hc (hown u hu)
  onlyReads := h.onlyReads
  apart := h.apart

lemma of_grows (h : Sound r S) (hs : S.store.Grows r s) : Sound r { S with store := s } := by
  refine h.of_evolves hs.coherent hs.enlarges.evolves hs.catalog fun u hu c hc => ?_
  exact ((h.underway u hu).own c hc).grows hs

lemma finish (h : Sound r S) {c : Settled} (hc : c.Kept r S.store)
    (hlevels : d.inspector = .prefab → S.store.IsTypeOf r levels c.type) :
    Sound r (S.finish d levels c) where
  coherent := h.coherent
  named n hn := by
    by_cases hd : d.inspector = .prefab
    · rw [Session.finish, if_pos hd] at hn
      rcases List.mem_cons.1 hn with rfl | hn
      · exact hlevels hd
      · exact h.named n hn
    · rw [Session.finish, if_neg hd] at hn
      exact h.named n hn
  completed c' hmem := by
    rcases List.mem_cons.1 hmem with rfl | hmem
    · exact hc
    · exact h.completed c' hmem
  underway := h.underway
  onlyReads := h.onlyReads
  apart := h.apart

/-- Publishing disturbs no definition that is underway. -/
lemma conclude (h : Sound r S) (hplan : plan.Valid S.store r d levels)
    (hapart : ∀ c, plan.own? d = some c → ∀ u ∈ S.underway, u.own? ≠ some c) (a : Attached) :
    Sound r (S.conclude d levels plan a) := by
  obtain ⟨⟨he, hregistries, hprivate⟩, hresult⟩ := plan.conclude_ensures h.coherent hplan a
  unfold Session.conclude
  rcases hrun : (plan.conclude d a).advance.run S.store with ⟨result, s⟩
  rw [hrun] at he hregistries hprivate hresult
  have hcatalog : s.catalog r = S.store.catalog r := by
    rw [Store.catalog, Store.registry, hregistries, Store.catalog, Store.registry]
  have hext : (S.store.catalog r).Extends (s.catalog r) := by
    rw [hcatalog]
    exact PrefabCatalog.Extends.refl _
  have hs : s.Coherent r := by
    refine ⟨?_, ?_⟩
    · rw [hregistries]
      exact h.coherent.exists_registry
    · rw [hcatalog]
      exact h.coherent.catalog.of_evolves he
  have hsound : Sound r { S with store := s } := by
    refine h.of_evolves hs he hext fun u hu c hc => ?_
    have hown := (h.underway u hu).own c hc
    refine ⟨he.lt hown.lt, ?_, ?_⟩
    · rw [hprivate c (fun hplan => hapart c hplan u hu hc) hown]
      exact hown.pending
    · rw [hcatalog]
      exact hown.unregistered
  rcases result with e | step
  · exact hsound
  · obtain ⟨c, rfl, htype, hkept⟩ := hresult step rfl
    refine hsound.finish hkept fun hd => ?_
    rw [htype]
    exact (hplan.answers.registered hd).mono hext

/-- Going on with a definition. -/
lemma proceed (h : Sound r S) (hplan : plan.Valid S.store r d levels)
    (hapart : ∀ c, plan.own? d = some c → ∀ u ∈ S.underway, u.own? ≠ some c)
    {attachment : Computation Attached} (hreads : attachment.OnlyReads S.store) :
    Sound r (S.proceed d levels plan attachment) := by
  rcases proceed_cases d levels plan hreads with
    ⟨_, -, hend⟩ | ⟨a, -, hend⟩ | ⟨_, _, resume, -, hresume, hend⟩
  · rw [hend]
    exact h
  · rw [hend]
    exact h.conclude hplan hapart a
  · rw [hend]
    refine ⟨h.coherent, h.named, h.completed, ?_, ?_, ?_⟩
    · intro u hu
      rcases List.mem_cons.1 hu with rfl | hu
      · exact hplan
      · exact h.underway u hu
    · intro u hu
      rcases List.mem_cons.1 hu with rfl | hu
      · exact hresume
      · exact h.onlyReads u hu
    · refine List.pairwise_cons.2 ⟨fun u hu c hc => ?_, h.apart⟩
      exact hapart c hc u hu

/-- Asking the registry. -/
lemma ask {α : Type} (h : Sound r S) {m : StoreM α}
    {found : α → Store → List (List PrefabLevel × TypeId)}
    (hm : m.Ensures (Store.Advances r)
      (fun a s => ∀ n ∈ found a s, s.IsTypeOf r n.1 n.2) S.store) :
    Sound r (S.ask m found) := by
  obtain ⟨s, hgrows, hend | ⟨a, hfound, hend⟩⟩ := ask_cases h.coherent hm found
  · rw [hend]
    exact h.of_grows hgrows
  · rw [hend]
    have hsound := h.of_grows hgrows
    refine ⟨hsound.coherent, fun n hn => ?_, hsound.completed, hsound.underway,
      hsound.onlyReads, hsound.apart⟩
    rcases List.mem_append.1 hn with hn | hn
    · exact hfound n hn
    · exact hsound.named n hn

/-- Beginning a definition: the type it has for its own is new. -/
lemma begin (h : Sound r S)
    (hsuper : d.inspector = .prefab → ∀ t, d.superType = some t → S.Returned t) :
    Sound r (S.begin r d) := by
  rcases begin_cases h.coherent fun hd => h.superRegistered (hsuper hd) with
    ⟨_, s, -, hgrows, hend⟩ | ⟨plan, s, -, hgrows, hplan, hnew, hend⟩
  · rw [hend]
    exact h.of_grows hgrows
  · rw [hend]
    refine (h.of_grows hgrows).proceed hplan ?_ (plan.onlyReads_attachment d s)
    intro c hc u hu hown
    have hlt := ((h.underway u hu).own c hown).lt
    exact absurd hlt (Nat.not_lt.2 (hnew c hc))

/-- Taking a definition out of those that are underway. -/
lemma take {u : Underway} {before after : List Underway} (h : Sound r S)
    (hu : S.underway = before ++ u :: after) :
    Sound r { S with underway := before ++ after } ∧
      ∀ c, u.own? = some c → ∀ v ∈ before ++ after, v.own? ≠ some c := by
  have hmem : ∀ v ∈ before ++ after, v ∈ S.underway := by
    intro v hv
    rw [hu]
    rcases List.mem_append.1 hv with hv | hv
    · exact List.mem_append_left _ hv
    · exact List.mem_append_right _ (List.mem_cons_of_mem _ hv)
  have hapart := h.apart
  rw [hu, List.pairwise_append, List.pairwise_cons] at hapart
  obtain ⟨hbefore, ⟨hu_after, hafter⟩, hcross⟩ := hapart
  refine ⟨⟨h.coherent, h.named, h.completed, fun v hv => h.underway v (hmem v hv),
    fun v hv => h.onlyReads v (hmem v hv), ?_⟩, fun c hc v hv => ?_⟩
  · refine List.pairwise_append.2 ⟨hbefore, hafter, fun v hv w hw => ?_⟩
    exact hcross v hv w (List.mem_cons_of_mem _ hw)
  · rcases List.mem_append.1 hv with hv | hv
    · exact fun hown => hcross v hv u List.mem_cons_self c hown hc
    · exact hu_after v hv c hc

/-- A session goes on with a definition as its computation says. -/
theorem follows_proceed (h : Sound r S) (hplan : plan.Valid S.store r d levels)
    {attachment : Computation Attached} (hreads : attachment.OnlyReads S.store) :
    Follows d levels (attachment.bind (answer d plan)) S
      (S.proceed d levels plan attachment) := by
  rw [Follows, Computation.run_advance_bind]
  rcases proceed_cases d levels plan hreads with
    ⟨_, hrun, hend⟩ | ⟨a, hrun, hend⟩ | ⟨_, _, resume, hrun, -, hend⟩
  · rw [hrun, hend]
  · obtain ⟨-, hresult⟩ := plan.conclude_ensures h.coherent hplan a
    rw [hrun, hend]
    simp only [answer, Session.conclude, Computation.bind_eq, Computation.run_advance_bind]
    rcases hconclude : (plan.conclude d a).advance.run S.store with ⟨_ | step, s'⟩
    · exact rfl
    · rw [hconclude] at hresult
      obtain ⟨c, rfl, -⟩ := hresult step rfl
      exact ⟨c, rfl, rfl⟩
  · rw [hrun, hend]
    exact ⟨plan, resume, rfl, rfl⟩

/-- A session begins a definition as `define` does. -/
theorem follows_begin (h : Sound r S)
    (hsuper : d.inspector = .prefab → ∀ t, d.superType = some t → S.Returned t) :
    Follows d (S.store.declaredLevels d) (define r d) S (S.begin r d) := by
  have hdefine : define r d = (prepare r d).bind fun plan =>
      (plan.attachment d).bind (answer d plan) := define_eq_phases r d
  rw [hdefine, Follows, Computation.run_advance_bind]
  rcases begin_cases h.coherent fun hd => h.superRegistered (hsuper hd) with
    ⟨_, s, hrun, -, hend⟩ | ⟨plan, s, hrun, hgrows, hplan, -, hend⟩
  · rw [hrun, hend]
  · rw [hrun, hend]
    exact (h.of_grows hgrows).follows_proceed hplan (plan.onlyReads_attachment d s)

/-- Every step keeps a session sound. -/
theorem step (h : Sound r S) (hstep : Step r S S') : Sound r S' := by
  cases hstep with
  | begin d hsuper => exact h.begin hsuper
  | resume u hu results =>
    obtain ⟨hsound, hapart⟩ := h.take hu
    have hmem := mem_underway hu
    exact hsound.proceed (h.underway u hmem) hapart (h.onlyReads u hmem results _)
  | abandon u hu => exact (h.take hu).1
  | keyOfType t => exact h.ask ((keyOfType_ensures h.coherent t).mono fun _ _ _ _ => nofun)
  | keyOfDeclaration d =>
    exact h.ask ((keyOfDeclaration_ensures h.coherent d).mono fun _ _ _ _ => nofun)
  | keyOfDatum datum total =>
    exact h.ask ((keyOfDatum_ensures h.coherent datum total).mono fun _ _ _ _ => nofun)
  | prefabType k hk =>
    refine h.ask ((prefabType_ensures h.coherent hk).mono fun t s' _ ht n hn => ?_)
    rw [List.mem_singleton.1 hn]
    exact ⟨k, ⟨ht.1, SameChain.refl _⟩, ht.2⟩
  | prefabTypeOfDatum datum total =>
    refine h.ask ((prefabTypeOfDatum_ensures h.coherent datum total).mono
      fun t s' _ ⟨levels, hlevels, ht⟩ n hn => ?_)
    rw [List.mem_singleton.1 hn, hlevels]
    exact ht
  | prefabInstance datum values =>
    refine h.ask ((prefabInstance_ensures h.coherent datum values).mono
      fun t s' _ ⟨levels, hlevels, ht⟩ n hn => ?_)
    rw [List.mem_singleton.1 hn, hlevels]
    exact ht
  | other hs hr hc => exact h.of_grows (Store.Advances.of_enlarges hs hr hc h.coherent)

/-- In a session the store has grown, and then at most one definition has ended. -/
def Advanced (r : RegistryId) (S S' : Session) : Prop :=
  ∃ T : Session, S.store.Grows r T.store ∧ T.completed = S.completed ∧
    (S' = T ∨ ∃ d levels plan a, plan.Valid T.store r d levels ∧ S' = T.conclude d levels plan a)

lemma advanced_ask {α : Type} {Q : α → Store → Prop} (h : Sound r S) {m : StoreM α}
    (hm : m.Ensures (Store.Advances r) Q S.store)
    (found : α → Store → List (List PrefabLevel × TypeId)) : Advanced r S (S.ask m found) := by
  obtain ⟨s, hgrows, hend | ⟨a, -, hend⟩⟩ := ask_cases h.coherent hm found
  · rw [hend]
    exact ⟨{ S with store := s }, hgrows, rfl, .inl rfl⟩
  · rw [hend]
    exact ⟨{ S with store := s, named := found a s ++ S.named }, hgrows, rfl, .inl rfl⟩

lemma advanced_proceed {T : Session} (hgrows : S.store.Grows r T.store)
    (hcompleted : T.completed = S.completed) (hplan : plan.Valid T.store r d levels)
    {attachment : Computation Attached} (hreads : attachment.OnlyReads T.store) :
    Advanced r S (T.proceed d levels plan attachment) := by
  rcases proceed_cases d levels plan hreads with
    ⟨_, -, hend⟩ | ⟨a, -, hend⟩ | ⟨_, _, resume, -, -, hend⟩
  · rw [hend]
    exact ⟨T, hgrows, hcompleted, .inl rfl⟩
  · exact ⟨T, hgrows, hcompleted, .inr ⟨d, levels, plan, a, hplan, hend⟩⟩
  · rw [hend]
    exact ⟨{ T with underway := ⟨d, levels, plan, resume⟩ :: T.underway }, hgrows, hcompleted,
      .inl rfl⟩

lemma advanced_step (h : Sound r S) (hstep : Step r S S') : Advanced r S S' := by
  cases hstep with
  | begin d hsuper =>
    rcases begin_cases h.coherent fun hd => h.superRegistered (hsuper hd) with
      ⟨_, s, -, hgrows, hend⟩ | ⟨plan, s, -, hgrows, hplan, -, hend⟩
    · rw [hend]
      exact ⟨{ S with store := s }, hgrows, rfl, .inl rfl⟩
    · rw [hend]
      exact advanced_proceed (T := { S with store := s }) hgrows rfl hplan
        (plan.onlyReads_attachment d s)
  | @resume before after u hu results =>
    have hmem := mem_underway hu
    exact advanced_proceed (T := { S with underway := before ++ after }) h.coherent.grows_refl rfl
      (h.underway u hmem) (h.onlyReads u hmem results _)
  | @abandon before after u hu =>
    exact ⟨{ S with underway := before ++ after }, h.coherent.grows_refl, rfl, .inl rfl⟩
  | keyOfType t => exact h.advanced_ask (keyOfType_ensures h.coherent t) _
  | keyOfDeclaration d => exact h.advanced_ask (keyOfDeclaration_ensures h.coherent d) _
  | keyOfDatum datum total => exact h.advanced_ask (keyOfDatum_ensures h.coherent datum total) _
  | prefabType k hk => exact h.advanced_ask (prefabType_ensures h.coherent hk) _
  | prefabTypeOfDatum datum total =>
    exact h.advanced_ask (prefabTypeOfDatum_ensures h.coherent datum total) _
  | prefabInstance datum values =>
    exact h.advanced_ask (prefabInstance_ensures h.coherent datum values) _
  | @other s hs hr hc =>
    exact ⟨{ S with store := s }, Store.Advances.of_enlarges hs hr hc h.coherent, rfl, .inl rfl⟩

end Sound

/-- A registry without keys and types is coherent. -/
lemma coherent_of_empty (hr : r.index < s.registries.size) (hkeys : (s.catalog r).keys = [])
    (htypes : (s.catalog r).types = []) : s.Coherent r := by
  refine ⟨hr, ⟨?_, ?_, ?_, ?_, ?_⟩, ?_, ?_⟩ <;> simp [hkeys, htypes]

/-- Every session that began with a new registry is sound. -/
theorem Reachable.sound (h : Reachable r S) : Sound r S := by
  induction h with
  | start hr hkeys htypes =>
    exact ⟨coherent_of_empty hr hkeys htypes, nofun, nofun, nofun, nofun, .nil⟩
  | step _ hstep ih => exact ih.step hstep

end Session

end Records
