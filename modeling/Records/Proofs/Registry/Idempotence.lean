import Records.Proofs.Registry.Settlement

/-!
# Defining a prefab type again

A definition that was answered is answered again, with the same type, whatever was done in
between: the declared properties come to the same bindings, as far as guards and derivations
answer by the value alone, and what the type was finalized with matches what it is compared with
later. The super type has to hold what it held, though; it may have been pending when the type was
finalized.

## Main definitions

* `Store.Accepts`: what a declaration needs in order to be answered with a certain type.

## Main statements

* `accepts_of_runs`: a definition that was answered leaves that behind.
* `Store.Accepts.answered_of_ne_nil`: a declaration that is accepted is answered.
* `define_again`: a declaration that was answered is answered again.
-/

namespace Records

variable {r : RegistryId} {s s' s₂ : Store} {d : Declaration} {t c : TypeId}
  {R : Store → Store → Prop} {calls : List Exchange} {reply : Value → Option Value → List Value}

/-! ### The first definition -/

/-- What a declaration needs in order to be answered with a type: the type is registered for its
key and finalized, and what the declared properties come to matches what the type holds, in front
of certain inherited ones. -/
structure Store.Accepts (s : Store) (r : RegistryId) (reply : Value → Option Value → List Value)
    (d : Declaration) (t : TypeId) (inherited : List (PropertyId × Value)) : Prop where
  super : ∀ u, d.superType = some u → u.index < s.types.size
  declared : ∀ b ∈ d.properties, b.1.index < s.properties.size
  unrestricted : s.prefabRestriction? d = none
  registered : s.typeFor? r (s.declaredKey r d) = some t
  finalized : (s.type t).isFinalized
  matching : d.properties ≠ [] → ∃ bindings,
    Matches (bindings ++ inherited) (s.type t).properties ∧
    ∀ s' x, s.KeepsProperties s' → (s'.type x).totalCount = s.declaredCount d →
      s'.replay reply x d.properties = some bindings

/-- A definition that was answered leaves behind what its declaration needs in order to be
answered again. -/
theorem accepts_of_runs {answer : Settled} (hs : s.Tabled r) (hd : d.inspector = .prefab)
    (hsuper : ∀ u, d.superType = some u → u.index < s.types.size)
    (hdeclared : ∀ b ∈ d.properties, b.1.index < s.properties.size)
    (h : (settleDeclaration r d).Runs (Store.Retains r) s calls (.ok answer) s')
    (hcalls : Conforms reply calls) (hprevious : answer.previous = none)
    (hrepresents : d.properties ≠ [] → s'.Represents d answer.type)
    (hlater : s'.Retains r s₂) (hs₂ : s₂.Tabled r) (hbuilt : s₂.Built) :
    s₂.Accepts r reply d answer.type (s'.inherited d.superType) := by
  obtain ⟨plan, a, s₁, T, hphases⟩ := exists_phases hs hd hsuper h
  -- the stores on the way, from the end of the attachment back to the beginning
  have hT : T.Retains r s₂ := trans_of (Store.Retains r) hphases.concluded hlater
  have hs₁ : s₁.Retains r s₂ := trans_of (Store.Retains r) hphases.attached hT
  have hs₀ : s.Retains r s₂ := trans_of (Store.Retains r) hphases.planned hs₁
  have hordered := hbuilt.laidOut.ordered
  have hkey := hs₁.catalog.keys _ hphases.plans.key
  have himplies := hs₀.properties.implies hbuilt
  have hsuper₁ : ∀ u, d.superType = some u → u.index < s₁.types.size :=
    fun u hu => hphases.planned.evolves.lt (hsuper u hu)
  have hfinal := hphases.isFinalized
  have hlt : answer.type.index < s'.types.size := Store.lt_of_isFinalized hfinal
  have hfixed := hlater.evolves.finalized answer.type hlt hfinal
  refine ⟨fun u hu => hs₀.evolves.lt (hsuper u hu), fun b hb => ?_, ?_, ?_, ?_, fun hne => ?_⟩
  · exact Nat.lt_of_lt_of_le (hdeclared b hb) hs₀.properties.size
  · exact (hs₀.prefabRestriction? himplies hsuper hdeclared).trans hphases.plans.unrestricted
  · rw [hs.declaredKey_eq hs₂ hs₀.evolves hordered hsuper hkey, hphases.type_eq]
    exact hs₁.catalog.types _ hphases.plans.key _ hphases.plans.registered
  · rw [hfixed]
    exact hfinal
  · refine ⟨a.bindings, ?_, fun s₃ x hs₃ hx => ?_⟩
    · rw [hfixed]
      exact hphases.matching hsuper₁ (hT.evolves.ordered hordered) hne hprevious (hrepresents hne)
    · have hs₁' : s₁.Retains r s' :=
        trans_of (Store.Retains r) hphases.attached hphases.concluded
      have hcount₁ : (s₁.type plan.type).totalCount = s₁.declaredCount d := by
        have hlayout := hs₁'.evolves.layout plan.type hphases.plans.lt
        have hsame := RecordType.eq_of_layout (·.totalCount) (fun _ => rfl) hlayout
        rw [← hsame, ← hphases.type_eq, (hrepresents hne).totalCount,
          hs₁'.evolves.declaredCount_eq hsuper₁]
      rw [hs₁.evolves.declaredCount_eq hsuper₁] at hx
      exact hphases.replay_eq hcalls hne himplies (hs₁.properties.implies hbuilt) hdeclared hcount₁
        (trans_of Store.KeepsProperties hs₁.properties hs₃) hx

/-! ### Later definitions -/

namespace Store.Accepts

variable {inherited : List (PropertyId × Value)} {out : Except Failure Settled}

/-- A declaration without properties is answered with the type as it is. -/
lemma answered_of_nil (h : s.Accepts r reply d t inherited) (hd : d.inspector = .prefab)
    (hempty : d.properties = []) (hruns : (settleDeclaration r d).Runs R s calls out s') :
    out = .ok ⟨t, [], none⟩ := by
  have hfinal : ((s.internDeclared r d).type t).isFinalized := h.finalized
  have hprepare := run_prepare_of_typeFor? hd h.registered
  simp only [h.unrestricted, run_planFor, hfinal, hempty, if_true, List.isEmpty_nil] at hprepare
  obtain ⟨-, rfl, -⟩ := (runs_settleDeclaration_iff hprepare).1 hruns
  rfl

/-- Declared properties are attached to a candidate, come to what they came to before, and match
what the type holds if the super type holds what it held. -/
lemma answered_of_ne_nil (h : s.Accepts r reply d t inherited) (hs : s.HasTable r)
    (hbuilt : s.Built) (hd : d.inspector = .prefab) (hne : d.properties ≠ [])
    (himmutables : ∀ i ∈ d.immutables, i < d.initCount)
    (hR : ∀ s₁ s₂, R s₁ s₂ → s₁.KeepsProperties s₂ ∧ s₁.Spares ⟨s.types.size⟩ s₂)
    (hcalls : Conforms reply calls) (hruns : (settleDeclaration r d).Runs R s calls out s')
    (hinherited : s'.inherited d.superType = inherited) :
    ∃ bindings, out = .ok ⟨t, bindings, none⟩ := by
  have hdesignations := (prefabRestriction?_eq_none h.unrestricted).2
  have hl := layOut_eq_ok_iff.2
    ⟨_, (s.internDeclared r d).declaredImmutables_of_lt hdesignations himmutables, rfl⟩
  obtain ⟨bindings, hmatches, hreplay⟩ := h.matching hne
  obtain ⟨s₁, attached, T, hs₁, hsame, hcandidate, hattach, -, -, hok⟩ :=
    runs_redefinition hs hd h.super hne h.registered h.finalized h.unrestricted hl
      (fun _ _ hmove => (hR _ _ hmove).2) hruns
  have himplies := (refl_of KeepsProperties s).implies hbuilt
  -- the candidate is laid out by now, but the properties are those of before
  have himplies₁ : s₁.Implies := by
    intro p hp b hb
    rw [property, hsame] at hb
    rw [hsame] at hp ⊢
    exact himplies p hp b hb
  have hprocedures := (procedure_of_prefabRestriction? h.unrestricted).2
  have hbindings := bindings_of_runs_attachAll himplies₁
    (fun b hb => Nat.lt_of_lt_of_le (h.declared b hb) hs₁.properties.size)
    (fun b hb => (hs₁.properties.isA himplies (h.declared b hb)).trans (hprocedures b hb))
    (fun _ _ hmove => (hR _ _ hmove).1) hcalls hattach
  have hcount := hcandidate.totalCount.trans (hs₁.evolves.declaredCount_eq h.super)
  rw [hreplay s₁ _ hs₁.properties hcount] at hbindings
  cases attached with
  | error e => cases hbindings
  | ok a =>
    obtain rfl : a.bindings = bindings := Option.some.inj hbindings
    rcases hok a rfl with ⟨-, hout⟩ | ⟨hnot, -⟩
    · exact ⟨_, hout⟩
    · rw [hinherited] at hnot
      exact absurd hmatches hnot

end Store.Accepts

/-! ### Again and again -/

/-- What may be done to a store while a definition waits that has a candidate. -/
structure Store.Meanwhile (r : RegistryId) (c : TypeId) (s s' : Store) : Prop where
  retains : s.Retains r s'
  spares : s.Spares c s'

lemma Store.Meanwhile.refl (s : Store) : s.Meanwhile r c s :=
  ⟨refl_of (Store.Retains r) s, refl_of (Store.Spares c) s⟩

/-- A prefab declaration that was answered is answered again, and with the same type, whenever
its calls are replied to as before. Meanwhile anything may happen that retains what there is, as
long as the candidate of the later definition is spared. If the declaration has properties, its
immutable fields have to be init fields, its type has to represent it, and its super type has to
hold in the end what it held before. -/
theorem define_again {answer : Settled} (hs : s.Tabled r) (hd : d.inspector = .prefab)
    (hsuper : ∀ u, d.superType = some u → u.index < s.types.size)
    (hdeclared : ∀ b ∈ d.properties, b.1.index < s.properties.size)
    (himmutables : d.properties ≠ [] → ∀ i ∈ d.immutables, i < d.initCount)
    (hfirst : (settleDeclaration r d).Runs (Store.Retains r) s calls (.ok answer) s')
    (hcalls : Conforms reply calls) (hprevious : answer.previous = none)
    (hrepresents : d.properties ≠ [] → s'.Represents d answer.type)
    (hlater : s'.Retains r s₂) (hs₂ : s₂.Tabled r) (hbuilt : s₂.Built) :
    (∃ calls out s₂', (define r d).Runs (Store.Meanwhile r ⟨s₂.types.size⟩) s₂ calls out s₂' ∧
      Conforms reply calls) ∧
    ∀ calls out s₂', (define r d).Runs (Store.Meanwhile r ⟨s₂.types.size⟩) s₂ calls out s₂' →
      Conforms reply calls →
      (d.properties ≠ [] → s₂'.inherited d.superType = s'.inherited d.superType) →
      out = .ok (definition answer.type) := by
  have haccepts := accepts_of_runs hs hd hsuper hdeclared hfirst hcalls hprevious hrepresents
    hlater hs₂ hbuilt
  refine ⟨Computation.exists_runs_conforms Store.Meanwhile.refl reply _ s₂, ?_⟩
  intro calls out s₂' hruns hcalls hinherited
  rw [define_eq_settleDeclaration, Computation.runs_map_iff] at hruns
  obtain ⟨result, hruns, rfl⟩ := hruns
  by_cases hempty : d.properties = []
  · rw [haccepts.answered_of_nil hd hempty hruns]
    rfl
  · obtain ⟨bindings, rfl⟩ := haccepts.answered_of_ne_nil hs₂.toHasTable hbuilt hd hempty
      (himmutables hempty) (fun _ _ hmove => ⟨hmove.retains.properties, hmove.spares⟩) hcalls
      hruns (hinherited hempty)
    rfl

/-! ### A guarded property -/

/-- A prefab type with a property. -/
def guardedBase : Session := Session.guarded.begin ⟨0⟩ baseDeclaration

/-- A type below it with a guarded property, whose guard replies with another value. -/
def guardedHeir : Session :=
  (guardedBase.begin ⟨0⟩ (heirDeclaration ⟨6⟩ (.ofNat 1))).resumeLatest (.ofNat 2)

/-- A third type is defined next. -/
def guardedLater : Session := guardedHeir.begin ⟨0⟩ (markedDeclaration ⟨4⟩ (.ofNat 3))

/-- The type with the guarded property is defined again. -/
def guardedAgain : Session :=
  (guardedLater.begin ⟨0⟩ (heirDeclaration ⟨6⟩ (.ofNat 1))).resumeLatest (.ofNat 2)

lemma reachable_guardedBase : guardedBase.Reachable ⟨0⟩ :=
  Session.reachable_guarded.step (.begin baseDeclaration fun _ t ht => by cases ht)

lemma reachable_guardedHeir : guardedHeir.Reachable ⟨0⟩ := by
  refine (reachable_guardedBase.step (.begin _ fun _ t ht => ?_)).resumeLatest _
  cases ht
  exact .inr ⟨_, List.mem_cons_self, rfl⟩

lemma reachable_guardedLater : guardedLater.Reachable ⟨0⟩ :=
  reachable_guardedHeir.step (.begin _ fun _ t ht => by cases ht)

lemma built_guardedHeir : guardedHeir.store.Built := by
  have hguarded : Session.guarded.store.Built :=
    .other (.property ⟨⟨"pb"⟩, some .void, [], false⟩
      (.property ⟨⟨"pa"⟩, some .void, [], false⟩ .initial nofun) nofun) rfl rfl
  have hbase : guardedBase.store.Built :=
    .other (.publish ⟨0⟩ ⟨[(⟨3⟩, .ofNat 1)], none⟩ (.declare baseDeclaration hguarded nofun))
      rfl rfl
  have hsuper : ∀ u, (heirDeclaration ⟨6⟩ (.ofNat 1)).superType = some u →
      u.index < guardedBase.store.types.size := by
    rintro u ⟨⟩
    decide
  exact .other (.publish ⟨1⟩ ⟨[(⟨6⟩, .ofNat 2), (⟨3⟩, .ofNat 1)], none⟩
    (.declare (heirDeclaration ⟨6⟩ (.ofNat 1)) hbase hsuper)) rfl rfl

lemma built_guardedLater : guardedLater.store.Built :=
  .other (.publish ⟨2⟩ ⟨[(⟨4⟩, .ofNat 3)], none⟩
    (.declare (markedDeclaration ⟨4⟩ (.ofNat 3)) built_guardedHeir nofun)) rfl rfl

lemma represents_guardedHeir :
    guardedHeir.store.Represents (heirDeclaration ⟨6⟩ (.ofNat 1)) ⟨1⟩ := by
  have hsound := reachable_guardedHeir.sound
  refine hsound.coherent.represents (hsound.named _ List.mem_cons_self) ?_ rfl built_guardedHeir ?_
  · rintro u ⟨⟩
    exact ⟨_, hsound.named _ (List.mem_cons_of_mem _ List.mem_cons_self)⟩
  · have hproperties : (guardedHeir.store.type ⟨1⟩).properties =
        [(⟨6⟩, .ofNat 2), (⟨3⟩, .ofNat 1)] := rfl
    rw [hproperties]
    intro b hb
    rcases List.mem_cons.1 hb with rfl | hb
    · exact ⟨_, rfl, rfl⟩
    · cases List.mem_singleton.1 hb
      exact ⟨_, rfl, rfl⟩

lemma retains_guardedLater : guardedHeir.store.Retains ⟨0⟩ guardedLater.store := by
  have hruns : (define ⟨0⟩ (markedDeclaration ⟨4⟩ (.ofNat 3))).Runs (Store.Retains ⟨0⟩)
      guardedHeir.store [] (.ok (definition ⟨2⟩)) guardedLater.store := by
    rw [define_eq_phases]
    exact Computation.runs_iff_of_advance.2 ⟨rfl, rfl, rfl⟩
  exact ((ensures_define_retains ⟨0⟩ ⟨0⟩ _ _).of_runs hruns).1

/-- Both definitions of the type wait for the guard once. -/
lemma exists_runs_guarded {R : Store → Store → Prop} (hR : ∀ s, R s s) :
    (∃ calls, (settleDeclaration ⟨0⟩ (heirDeclaration ⟨6⟩ (.ofNat 1))).Runs R guardedBase.store
        calls (.ok ⟨⟨1⟩, [(⟨6⟩, .ofNat 2)], none⟩) guardedHeir.store ∧
      Conforms (fun _ _ => [.ofNat 2]) calls ∧ calls.length = 1) ∧
    ∃ calls, (define ⟨0⟩ (heirDeclaration ⟨6⟩ (.ofNat 1))).Runs R guardedLater.store
        calls (.ok (definition ⟨1⟩)) guardedAgain.store ∧
      Conforms (fun _ _ => [.ofNat 2]) calls ∧ calls.length = 1 := by
  constructor
  · exact ⟨[⟨_, _, .ok [.ofNat 2]⟩], Computation.runs_of_suspended rfl (hR _) rfl,
      List.forall_mem_singleton.2 rfl, rfl⟩
  · rw [define_eq_phases]
    exact ⟨[⟨_, _, .ok [.ofNat 2]⟩], Computation.runs_of_suspended rfl (hR _) rfl,
      List.forall_mem_singleton.2 rfl, rfl⟩

/-- The guard answers as it did before, after another type was defined in between. -/
theorem define_again_guardedHeir :
    (∃ calls, (define ⟨0⟩ (heirDeclaration ⟨6⟩ (.ofNat 1))).Runs
        (Store.Meanwhile ⟨0⟩ ⟨guardedLater.store.types.size⟩)
        guardedLater.store calls (.ok (definition ⟨1⟩)) guardedAgain.store ∧
      Conforms (fun _ _ => [.ofNat 2]) calls ∧ calls.length = 1) ∧
    guardedAgain.store.inherited (some ⟨0⟩) = guardedHeir.store.inherited (some ⟨0⟩) ∧
    (∃ calls out s, (define ⟨0⟩ (heirDeclaration ⟨6⟩ (.ofNat 1))).Runs
        (Store.Meanwhile ⟨0⟩ ⟨guardedLater.store.types.size⟩)
        guardedLater.store calls out s ∧
      Conforms (fun _ _ => [.ofNat 2]) calls) ∧
    ∀ calls out s, (define ⟨0⟩ (heirDeclaration ⟨6⟩ (.ofNat 1))).Runs
        (Store.Meanwhile ⟨0⟩ ⟨guardedLater.store.types.size⟩)
        guardedLater.store calls out s →
      Conforms (fun _ _ => [.ofNat 2]) calls →
      s.inherited (some ⟨0⟩) = guardedHeir.store.inherited (some ⟨0⟩) →
      out = .ok (definition ⟨1⟩) := by
  have hsuper : ∀ u, (heirDeclaration ⟨6⟩ (.ofNat 1)).superType = some u →
      u.index < guardedBase.store.types.size := by
    rintro u ⟨⟩
    decide
  have hdeclared : ∀ b ∈ (heirDeclaration ⟨6⟩ (.ofNat 1)).properties,
      b.1.index < guardedBase.store.properties.size := by
    decide
  obtain ⟨⟨calls, hfirst, hcalls, -⟩, -⟩ :=
    exists_runs_guarded fun s => refl_of (Store.Retains ⟨0⟩) s
  obtain ⟨-, hsecond⟩ := exists_runs_guarded
    (Store.Meanwhile.refl (r := ⟨0⟩) (c := ⟨guardedLater.store.types.size⟩))
  obtain ⟨hexists, hall⟩ := define_again reachable_guardedBase.sound.coherent.tabled rfl hsuper
    hdeclared (fun _ => nofun) hfirst hcalls rfl (fun _ => represents_guardedHeir)
    retains_guardedLater reachable_guardedLater.sound.coherent.tabled built_guardedLater
  refine ⟨hsecond, rfl, hexists, fun calls out s hruns hcalls hinherited => ?_⟩
  exact hall calls out s hruns hcalls fun _ => hinherited

/-! ### A super type that was pending -/

/-- A type is defined below a pending one, which was asked for by its key. -/
def askedHeirSession : Session := Session.askedSession.begin ⟨0⟩ (heirDeclaration ⟨3⟩ (.ofNat 1))

/-- The pending type is defined then. -/
def askedMarkedSession : Session :=
  askedHeirSession.begin ⟨0⟩ (markedDeclaration ⟨4⟩ (.ofNat 2))

/-- A definition below a pending type is refused once the pending type holds properties. -/
theorem exists_define_again_refused :
    ∃ (S₁ S₁' S₂ : Session) (d : Declaration) (answer : Settled) (e : Failure) (s : Store),
      S₁.Reachable ⟨0⟩ ∧ d.inspector = .prefab ∧ (∀ i ∈ d.immutables, i < d.initCount) ∧
      (∀ u, d.superType = some u → S₁.Returned u) ∧
      (settleDeclaration ⟨0⟩ d).Runs Eq S₁.store [] (.ok answer) S₁'.store ∧
      answer.previous = none ∧ (S₁'.store.type answer.type).isFinalized ∧
      S₁'.store.Represents d answer.type ∧ S₁'.Reachable ⟨0⟩ ∧ Session.Step ⟨0⟩ S₁' S₂ ∧
      (define ⟨0⟩ d).Runs Eq S₂.store [] (.error e) s := by
  have hasked : Session.askedSession.Reachable ⟨0⟩ :=
    Session.reachable_initial.step (.prefabTypeOfDatum Session.markedDatum 1)
  have hreturned : ∀ u, (heirDeclaration ⟨3⟩ (.ofNat 1)).superType = some u →
      Session.askedSession.Returned u := by
    rintro u ⟨⟩
    exact .inr ⟨_, List.mem_cons_self, rfl⟩
  have hconsistent : Consistent (askedHeirSession.store.type ⟨1⟩).properties := by
    have hproperties : (askedHeirSession.store.type ⟨1⟩).properties = [(⟨3⟩, .ofNat 1)] := rfl
    rw [hproperties]
    exact List.forall_mem_singleton.2 ⟨_, rfl, rfl⟩
  have hlater : Session.Step ⟨0⟩ askedHeirSession askedMarkedSession :=
    .begin _ fun _ t ht => by cases ht
  have hagain : ∃ e s, (define ⟨0⟩ (heirDeclaration ⟨3⟩ (.ofNat 1))).Runs Eq
      askedMarkedSession.store [] (.error e) s := by
    rw [define_eq_phases]
    exact ⟨_, _, Computation.runs_iff_of_advance.2 ⟨rfl, rfl, rfl⟩⟩
  obtain ⟨e, s, hagain⟩ := hagain
  exact ⟨Session.askedSession, askedHeirSession, askedMarkedSession,
    heirDeclaration ⟨3⟩ (.ofNat 1), ⟨⟨1⟩, [(⟨3⟩, .ofNat 1)], none⟩, e, s, hasked, rfl, nofun,
    hreturned, Computation.runs_iff_of_advance.2 ⟨rfl, rfl, rfl⟩, rfl, rfl,
    ⟨rfl, rfl, hconsistent⟩, hasked.step (.begin _ fun _ => hreturned), hlater, hagain⟩

end Records
