import Records.Proofs.Application.Refusal

/-!
# Advertised arities

A record shows the arity of the procedure it leads to, without the arguments that are put in front
on the way, and checks its arguments against the arity of what it hands them on to. These are the
same unless the procedure has less room than is put in front: then the record shows that it
accepts no argument at all, and refuses just that.

## Main definitions

* `Store.Advertises`: the arity that a record shows is the one it keeps to.

## Main statements

* `Session.Provided.advertises_iff`: when a record that leads to a procedure keeps to its arity.
* `Session.exists_not_advertises`: a record that refuses what it shows to accept.
-/

namespace Records

namespace Store

variable {s : Store} {i : InstanceId} {v : Value} {a b : Arity}

/-- The arity that a record shows is the one it keeps to. -/
structure Advertises (s : Store) (i : InstanceId) (v : Value) (a : Arity) : Prop where
  /-- It hands on what the arity accepts, and nothing else. -/
  proceeds_iff : ∀ args, (callRecord i args).advance.run s =
      (.ok (.suspended v (s.inFront i ++ args) .done), s) ↔ a.accepts args.length
  /-- A type without arity string refuses anything else in the words of an arity that does not
  accept it. -/
  refuses : (s.typeOf i).propertyValue? Property.arityString = none → ∀ args,
    (callRecord i args).advance.run s ≠ (.ok (.suspended v (s.inFront i ++ args) .done), s) →
      ∃ a' : Arity, ¬a'.accepts args.length ∧ (callRecord i args).advance.run s =
        (.error (.condition
          (.arityMismatch (s.typeOf i).name.name a'.text args.length)), s)

/-- What is shown is what is checked, unless that which arguments are handed on to has less room
than is put in front of them. -/
lemma proceeds_iff_accepts_drop (hv : s.designated? i = some v) (hb : s.arity? v = some b) :
    (∀ args, (callRecord i args).advance.run s =
        (.ok (.suspended v (s.inFront i ++ args) .done), s) ↔
      (b.drop (s.inFront i).length).accepts args.length) ↔
      ¬b.Underrun (s.inFront i).length := by
  have hproceeds : ∀ args, (callRecord i args).advance.run s =
        (.ok (.suspended v (s.inFront i ++ args) .done), s) ↔
      b.accepts (args.length + (s.inFront i).length) := by
    intro args
    rw [run_advance_callRecord_eq_iff hv hb, List.length_append, Nat.add_comm]
  simp only [hproceeds, Arity.accepts_drop_iff]
  constructor
  · intro hsame hunderrun
    have haccepts := (hsame []).2 (.inr ⟨rfl, hunderrun⟩)
    rw [List.length_nil, Nat.zero_add] at haccepts
    exact Arity.not_accepts_of_underrun hunderrun haccepts
  · intro hroom args
    simp [hroom]

end Store

namespace Session

variable {S : Session} {i : InstanceId} {ids : List InstanceId} {p : Procedure} {v : Value}
  {b : Arity}

/-- A record keeps to the arity it shows as long as that which it hands its arguments on to has
room for what is put in front of them. -/
lemma Provided.advertises_drop_iff (h : S.Provided) (hs : S.store.ImpliesOlder)
    (hv : S.store.designated? i = some v) (hb : S.store.arity? v = some b) :
    S.store.Advertises i v (b.drop (S.store.inFront i).length) ↔
      ¬b.Underrun (S.store.inFront i).length := by
  rw [← Store.proceeds_iff_accepts_drop hv hb]
  constructor
  · exact fun hadvertises => hadvertises.proceeds_iff
  · intro hproceeds
    refine ⟨hproceeds, fun hnone args hrefused => ?_⟩
    have hrejects : ¬b.accepts (S.store.inFront i ++ args).length := fun haccepts =>
      hrefused ((Store.run_advance_callRecord_eq_iff hv hb).2 haccepts)
    cases h.refusesBy_none hs hv hb hrejects hnone with
    | plain hstep =>
      exact ⟨_, fun haccepts => hrefused ((hproceeds args).2 haccepts), hstep⟩

/-- A record that leads to a procedure keeps to the arity it shows, unless it puts itself in front
of its arguments and the procedure has less room than is put in front altogether. -/
theorem Provided.advertises_iff (h : S.Provided) (hs : S.store.Built)
    (hl : S.store.LeadsTo (.record i) (i :: ids) p) :
    ∃ v a, S.store.designated? i = some v ∧ S.store.arity? (.record i) = some a ∧
      (S.store.Advertises i v a ↔ ¬(S.store.inFront i ≠ [] ∧
        (S.store.procedureArity p).Underrun (S.store.fronts (i :: ids)).length)) := by
  have ha := hl.arity?_eq
  cases hl with
  | @record _ v _ _ hi hv hrest =>
    have hiff := h.advertises_drop_iff hs.impliesOlder hv hrest.arity?_eq
    rw [Arity.drop_drop, Arity.underrun_drop_iff, List.length_pos_iff, ← List.length_append] at hiff
    exact ⟨v, _, hv, ha, hiff⟩

/-! ### Room for what is put in front -/

lemma provided_applyingSession (arity : Arity) : (applyingSession arity).Provided := by
  have hstart : (procedureSession arity).Provided :=
    .start (Store.resolution_of_types_eq rfl) (Store.LeavesProperties.keepsProperties rfl)
  exact (hstart.step (.begin ⟨0⟩
    { name := ⟨"a"⟩, procedure := some (.procedure (.native ⟨0⟩)) } nofun)).step
    (.withRecord _ ⟨0⟩ [])

lemma provided_relaySession : relaySession.Provided := by
  have hfield := (provided_applyingSession ⟨2, some 3⟩).step (.begin ⟨0⟩
    { name := ⟨"b"⟩, initCount := 1, procedure := some (.ofNat 0) } nofun)
  have hholding : holdingSession.Provided :=
    (hfield.step (.begin ⟨0⟩ { name := ⟨"c"⟩, superType := some ⟨1⟩, autoCount := 1 } nofun)).step
      (.withRecord _ _ _)
  exact (hholding.step (.begin ⟨0⟩
    { name := ⟨"d"⟩, procedure := some (.record ⟨1⟩) } nofun)).step (.withRecord _ _ _)

lemma built_applyingSession (arity : Arity) : (applyingSession arity).store.Built := by
  have hstart : (procedureSession arity).store.Built := .other .initial rfl rfl
  let resolution : Resolution := ⟨[(Property.procedure, .procedure (.native ⟨0⟩))],
    some ⟨.procedure (.procedure (.native ⟨0⟩)), ⟨0⟩⟩⟩
  exact .other (.publish ⟨0⟩ resolution (.declare { name := ⟨"a"⟩ } hstart nofun)) rfl rfl

lemma built_holdingSession : holdingSession.store.Built := by
  let resolution : Resolution := ⟨[(Property.procedure, .ofNat 0)], some ⟨.field 0, ⟨1⟩⟩⟩
  have hfield : ((applyingSession ⟨2, some 3⟩).begin ⟨0⟩
      { name := ⟨"b"⟩, initCount := 1, procedure := some (.ofNat 0) }).store.Built :=
    .other (.publish ⟨1⟩ resolution (.declare
      { name := ⟨"b"⟩, initCount := 1, procedure := some (.ofNat 0) }
      (built_applyingSession ⟨2, some 3⟩) nofun)) rfl rfl
  refine .other (.publish ⟨2⟩ resolution (.declare
    { name := ⟨"c"⟩, superType := some ⟨1⟩, autoCount := 1 } hfield fun u hu => ?_)) rfl rfl
  cases hu
  decide

lemma built_relaySession : relaySession.store.Built := by
  let resolution : Resolution := ⟨[(Property.procedure, .record ⟨1⟩)],
    some ⟨.procedure (.record ⟨1⟩), ⟨3⟩⟩⟩
  exact .other (.publish ⟨3⟩ resolution (.declare { name := ⟨"d"⟩ } built_holdingSession nofun))
    rfl rfl

/-- Two records are put in front of the arguments of a procedure of two or three. -/
theorem Provided.advertises_iff_relay :
    relaySession.Provided ∧ relaySession.store.Built ∧
    relaySession.store.LeadsTo (.record ⟨2⟩) [⟨2⟩, ⟨1⟩, ⟨0⟩] (.native ⟨0⟩) ∧
    ∃ v a, relaySession.store.designated? ⟨2⟩ = some v ∧
      relaySession.store.arity? (.record ⟨2⟩) = some a ∧
      (relaySession.store.Advertises ⟨2⟩ v a ↔ ¬(relaySession.store.inFront ⟨2⟩ ≠ [] ∧
        (relaySession.store.procedureArity (.native ⟨0⟩)).Underrun
          (relaySession.store.fronts [⟨2⟩, ⟨1⟩, ⟨0⟩]).length)) :=
  ⟨provided_relaySession, built_relaySession, leadsTo_relaySession,
    provided_relaySession.advertises_iff built_relaySession leadsTo_relaySession⟩

/-- A record that applies a procedure without arguments shows that it accepts none, and refuses
none. -/
theorem exists_not_advertises :
    ∃ (S : Session) (i : InstanceId) (p : Procedure) (v : Value) (a : Arity),
      S.Provided ∧ S.store.Built ∧ S.store.LeadsTo (.record i) [i] p ∧
      S.store.designated? i = some v ∧ S.store.arity? (.record i) = some a ∧
      (S.store.typeOf i).propertyValue? Property.arityString = none ∧ a.accepts 0 ∧
      (callRecord i []).advance.run S.store =
        (.error (.condition (.arityMismatch (S.store.typeOf i).name.name a.text 0)), S.store) ∧
      ¬S.store.Advertises i v a := by
  have hprovided := provided_applyingSession (.exactly 0)
  have hbuilt := built_applyingSession (.exactly 0)
  have hrefuses : (applyingSession (.exactly 0)).store.RefusesBy ⟨0⟩ (.exactly 0) [] none :=
    hprovided.refusesBy_none hbuilt.impliesOlder (v := .procedure (.native ⟨0⟩))
      (b := .exactly 0) rfl rfl (by decide) rfl
  refine ⟨_, ⟨0⟩, .native ⟨0⟩, .procedure (.native ⟨0⟩), .exactly 0, hprovided, hbuilt,
    .record (by decide) rfl (.procedure _), rfl, rfl, rfl, by decide, ?_, fun hadvertises => ?_⟩
  · cases hrefuses with
    | plain hstep => exact hstep
  · exact hrefuses.not_suspended _ ((hadvertises.proceeds_iff []).2 (by decide))

end Session

end Records
