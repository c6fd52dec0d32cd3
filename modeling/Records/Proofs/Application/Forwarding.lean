import Records.Proofs.Application.Chain
import Records.Proofs.Construction.Fields
import Records.Proofs.Registry.Identity

/-!
# Forwarding

A value that leads to a procedure is as good as the procedure itself. Every record on the way
checks the arguments against the arity of what it hands them on to, and the arities along the
chain fit together: what the procedure accepts is handed on by every record, in one call whose
results are its own. What the procedure does not accept is refused somewhere on the way.

## Main definitions

* `Store.Forwards`: arguments are handed on from record to record.
* `Store.Refuses`: a value refuses arguments on its own.
* `Store.AppliesAs`: applying a value is as good as applying a procedure.

## Main statements

* `Store.Forwards.direct_eq`: handing on makes no difference to the outcome.
* `Store.LeadsTo.appliesAs`: what applying a value that leads to a procedure comes to.
-/

namespace Records

namespace Computation

variable {α : Type} {apply : Value → List Value → StoreM (List Value)}

/-- A computation is run by going on to its next call and running the step that it is at. -/
lemma run_of_advance (c : Computation α) (s : Store) :
    (c.run apply).run s = (c.advance >>= fun step => step.toComputation.run apply).run s := by
  induction c generalizing s with
  | done a => rfl
  | fail e => rfl
  | call p args resume ih => rfl
  | read next ih => exact ih s s
  | write s' next ih => exact ih s'

/-- Computations that go on to the same step come to the same. -/
lemma run_congr_of_advance {c c' : Computation α} {s s' : Store}
    (h : c.advance.run s = c'.advance.run s') : (c.run apply).run s = (c'.run apply).run s' := by
  rw [run_of_advance, StoreM.run_bind, h, ← StoreM.run_bind, ← run_of_advance]

/-- A computation without answers fails, whatever its host does. -/
lemma Answers.exists_error {c : Computation α} (h : c.Answers fun _ => False) (s : Store) :
    ∃ e, ((c.run apply).run s).1 = .error e := by
  induction c generalizing s with
  | done a => exact h.elim
  | fail e => exact ⟨e, rfl⟩
  | call p args resume ih =>
    rw [run_call, StoreM.run_bind]
    rcases (apply p args).run s with ⟨e | results, s'⟩
    · exact ⟨e, rfl⟩
    · exact ih results (h results) s'
  | read next ih => exact ih s (h s) s
  | write s' next ih => exact ih h s'

end Computation

namespace Store

variable {s : Store} {i : InstanceId} {v w : Value} {ids : List InstanceId} {p : Procedure}
  {args args' : List Value}

/-! ### Handing on -/

/-- Arguments are handed on by certain records, the outermost one first, until they reach a value:
each of these records makes one call, and the results of this call are its answer. -/
inductive Forwards (s : Store) :
    List InstanceId → Value → List Value → Value → List Value → Prop where
  | refl (v : Value) (args : List Value) : Forwards s [] v args v args
  | record {i : InstanceId} {ids : List InstanceId} {v w : Value} {args full args' : List Value}
      (hstep : (callRecord i args).advance.run s = (.ok (.suspended v full .done), s))
      (h : Forwards s ids v full w args') : Forwards s (i :: ids) (.record i) args w args'

/-- A record that hands its arguments on is run by running what it hands them on to. -/
lemma direct_of_suspended {full : List Value}
    (hstep : (callRecord i args).advance.run s = (.ok (.suspended v full .done), s))
    (depth : Nat) :
    (direct (depth + 1) (.record i) args).run s = (direct depth v full).run s := by
  show ((callRecord i args).run (direct depth)).run s = _
  rw [Computation.run_of_advance, StoreM.run_bind, hstep]
  show (direct depth v full >>= pure).run s = _
  rw [bind_pure]

namespace Forwards

/-- Handing on makes no difference to the outcome. -/
lemma direct_eq (h : s.Forwards ids v args w args') (depth : Nat) :
    (direct (depth + ids.length) v args).run s = (direct depth w args').run s := by
  induction h with
  | refl v args => rfl
  | record hstep _ ih => exact (direct_of_suspended hstep _).trans ih

/-- Nor does it turn a failure into anything else. -/
lemma exists_error (h : s.Forwards ids v args w args')
    (hw : ∀ depth, ∃ e, ((direct depth w args').run s).1 = .error e) (depth : Nat) :
    ∃ e, ((direct depth v args).run s).1 = .error e := by
  induction h generalizing depth with
  | refl v args => exact hw depth
  | record hstep _ ih =>
    cases depth with
    | zero => exact ⟨.exhausted, rfl⟩
    | succ depth =>
      rw [direct_of_suspended hstep]
      exact ih hw depth

end Forwards

/-! ### Refusing -/

/-- A value refuses arguments on its own: a procedure before it does anything, and a record in its
own name. -/
inductive Refuses (s : Store) : Value → List Value → Prop where
  | procedure {p : Procedure} {args : List Value}
      (hstep : ∀ nested, (applyProcedure nested p args).advance.run s =
        (.error (.condition (s.arityError p args.length)), s)) : Refuses s (.procedure p) args
  | record {i : InstanceId} {args : List Value} {expected : Arity}
      (hstep : (callRecord i args).advance.run s =
        (refuseArity i expected args.length).advance.run s) : Refuses s (.record i) args

/-- Whatever its type words the arity by, a record that refuses arguments has no answer. -/
lemma answers_refuseArity (i : InstanceId) (expected : Arity) (given : Nat) :
    (refuseArity i expected given).Answers fun _ => False := by
  refine Computation.Answers.bind (.trivial _) fun s _ => ?_
  dsimp only
  split
  · exact fun _ => trivial
  · refine Computation.Answers.bind (.trivial _) fun results _ => ?_
    refine Computation.Answers.bind (.trivial _) fun v _ => ?_
    exact Computation.Answers.bind (.trivial _) fun s _ _ => trivial

lemma Refuses.exists_error (h : s.Refuses v args) (depth : Nat) :
    ∃ e, ((direct depth v args).run s).1 = .error e := by
  cases depth with
  | zero => exact ⟨.exhausted, rfl⟩
  | succ depth =>
    cases h with
    | procedure hstep =>
      show ∃ e, (((applyProcedure (direct depth) _ args).run (direct depth)).run s).1 = .error e
      rw [Computation.run_of_advance, StoreM.run_bind, hstep]
      exact ⟨_, rfl⟩
    | record hstep =>
      show ∃ e, (((callRecord _ args).run (direct depth)).run s).1 = .error e
      rw [Computation.run_congr_of_advance hstep]
      exact (answers_refuseArity _ _ _).exists_error s

/-- The body of a procedure is not reached by arguments that its arity does not accept. -/
lemma refuses_procedure (h : ¬(s.procedureArity p).accepts args.length) :
    s.Refuses (.procedure p) args := by
  refine .procedure fun nested => ?_
  show (if !(s.procedureArity p).accepts args.length then _ else _ :
    Computation (List Value)).advance.run s = _
  rw [if_pos (by simpa using h)]
  rfl

/-! ### Applying -/

/-- A record that leads to a procedure hands its arguments on or refuses them, and what the
procedure accepts it hands on. -/
lemma LeadsTo.record_cases (h : s.LeadsTo v ids p) (hv : s.designated? i = some v)
    (args : List Value) :
    (callRecord i args).advance.run s =
      (.ok (.suspended v (s.inFront i ++ args) .done), s) ∨
    ¬(s.procedureArity p).accepts (s.fronts ids ++ (s.inFront i ++ args)).length ∧
      s.Refuses (.record i) args := by
  rw [run_advance_callRecord hv]
  by_cases haccepts : ((s.procedureArity p).drop (s.fronts ids).length).accepts
      (s.inFront i ++ args).length
  · refine .inl ?_
    rw [handOn_of_accepts fun b hb => ?_]
    · rfl
    · rw [h.arity?_eq] at hb
      cases hb
      exact haccepts
  · refine .inr ⟨fun hfull => haccepts (Arity.accepts_drop_of_accepts ?_), ?_⟩
    · rw [List.length_append, Nat.add_comm] at hfull
      exact hfull
    · have hhandOn := run_advance_callRecord hv args
      rw [handOn_of_not_accepts h.arity?_eq haccepts] at hhandOn
      exact .record hhandOn

/-- What the procedure accepts is handed on all the way. -/
lemma LeadsTo.forwards (h : s.LeadsTo v ids p) (args : List Value)
    (haccepts : (s.procedureArity p).accepts (s.fronts ids ++ args).length) :
    s.Forwards ids v args (.procedure p) (s.fronts ids ++ args) := by
  induction h generalizing args with
  | procedure p => exact .refl _ args
  | record _ hv h ih =>
    rw [fronts, List.append_assoc] at haccepts ⊢
    rcases h.record_cases hv args with hstep | ⟨hrejects, -⟩
    · exact .record hstep (ih _ haccepts)
    · exact absurd haccepts hrejects

/-- What the procedure does not accept is refused by one of the records, or by the procedure. -/
lemma LeadsTo.exists_refuses (h : s.LeadsTo v ids p) (args : List Value)
    (hrejects : ¬(s.procedureArity p).accepts (s.fronts ids ++ args).length) :
    ∃ before after w args', ids = before ++ after ∧ s.Forwards before v args w args' ∧
      s.LeadsTo w after p ∧ s.fronts after ++ args' = s.fronts ids ++ args ∧
      s.Refuses w args' := by
  induction h generalizing args with
  | procedure p =>
    exact ⟨[], [], _, args, rfl, .refl _ args, .procedure p, rfl, refuses_procedure hrejects⟩
  | @record i v ids p hi hv h ih =>
    rcases h.record_cases hv args with hstep | ⟨-, hrefuses⟩
    · rw [fronts, List.append_assoc] at hrejects ⊢
      obtain ⟨before, after, w, args', rfl, hforwards, hleads, hfull, hrefuses⟩ := ih _ hrejects
      exact ⟨i :: before, after, w, args', rfl, .record hstep hforwards, hleads, hfull, hrefuses⟩
    · exact ⟨[], i :: ids, _, args, rfl, .refl _ args, .record hi hv h, rfl, hrefuses⟩

/-- Applying a value is as good as applying a procedure to the arguments with others in front of
them. -/
structure AppliesAs (s : Store) (v : Value) (ids : List InstanceId) (p : Procedure)
    (args : List Value) : Prop where
  /-- What the procedure accepts is handed on all the way, and no other call is made. -/
  forwards : (s.procedureArity p).accepts (s.fronts ids ++ args).length →
    s.Forwards ids v args (.procedure p) (s.fronts ids ++ args)
  /-- The outcome is that of the procedure, and so is what becomes of the store. -/
  direct_eq : (s.procedureArity p).accepts (s.fronts ids ++ args).length → ∀ depth,
    (direct (depth + ids.length) v args).run s =
      (direct depth (.procedure p) (s.fronts ids ++ args)).run s
  /-- What the procedure does not accept is refused where the chain has got to, -/
  refused : ¬(s.procedureArity p).accepts (s.fronts ids ++ args).length →
    ∃ before after w args', ids = before ++ after ∧ s.Forwards before v args w args' ∧
      s.LeadsTo w after p ∧ s.fronts after ++ args' = s.fronts ids ++ args ∧ s.Refuses w args'
  /-- at the end of the chain before the procedure does anything, -/
  unreached : ¬(s.procedureArity p).accepts (s.fronts ids ++ args).length →
    s.Refuses (.procedure p) (s.fronts ids ++ args)
  /-- and the outcome is a failure. -/
  fails : ¬(s.procedureArity p).accepts (s.fronts ids ++ args).length → ∀ depth,
    ∃ e, ((direct depth v args).run s).1 = .error e

/-- A value that leads to a procedure is as good as the procedure. -/
theorem LeadsTo.appliesAs (h : s.LeadsTo v ids p) (args : List Value) :
    s.AppliesAs v ids p args where
  forwards := h.forwards args
  direct_eq haccepts := (h.forwards args haccepts).direct_eq
  refused := h.exists_refuses args
  unreached := refuses_procedure
  fails hrejects := by
    obtain ⟨before, after, w, args', -, hforwards, -, -, hrefuses⟩ :=
      h.exists_refuses args hrejects
    exact hforwards.exists_error hrefuses.exists_error

end Store

/-! ### Chains of one and of three records -/

namespace Session

/-- A session with a procedure of a given arity. -/
def procedureSession (arity : Arity) : Session where
  store := { Session.initial.store with
    natives := #[⟨"p", arity, .compute fun call => .ok call.arguments, 0⟩] }

/-- The session with one more instance. -/
def withRecord (S : Session) (t : TypeId) (values : List Value) : Session :=
  { S with store := S.store.withRecord t values }

/-- A session with a record that applies the procedure. -/
def applyingSession (arity : Arity) : Session :=
  ((procedureSession arity).begin ⟨0⟩
    { name := ⟨"a"⟩, procedure := some (.procedure (.native ⟨0⟩)) }).withRecord ⟨0⟩ []

/-- A session with a second record, which applies the first one by a field that its super type
designates. -/
def holdingSession : Session :=
  (((applyingSession ⟨2, some 3⟩).begin ⟨0⟩
    { name := ⟨"b"⟩, initCount := 1, procedure := some (.ofNat 0) }).begin ⟨0⟩
    { name := ⟨"c"⟩, superType := some ⟨1⟩, autoCount := 1 }).withRecord ⟨2⟩
    [.record ⟨0⟩, .bool false]

/-- A session with a third record, which applies the second one. -/
def relaySession : Session :=
  (holdingSession.begin ⟨0⟩
    { name := ⟨"d"⟩, procedure := some (.record ⟨1⟩) }).withRecord ⟨3⟩ []

lemma leadsTo_relaySession :
    relaySession.store.LeadsTo (.record ⟨2⟩) [⟨2⟩, ⟨1⟩, ⟨0⟩] (.native ⟨0⟩) :=
  .record (by decide) rfl (.record (by decide) rfl (.record (by decide) rfl (.procedure _)))

end Session

/-- The procedure is applied to the innermost record, the outermost one and the argument. -/
theorem Store.LeadsTo.appliesAs_relay :
    Session.relaySession.store.fronts [⟨2⟩, ⟨1⟩, ⟨0⟩] = [.record ⟨0⟩, .record ⟨2⟩] ∧
    ((direct 4 (.record ⟨2⟩) [.ofNat 7]).run Session.relaySession.store).1 =
      .ok [.record ⟨0⟩, .record ⟨2⟩, .ofNat 7] ∧
    Session.relaySession.store.AppliesAs (.record ⟨2⟩) [⟨2⟩, ⟨1⟩, ⟨0⟩] (.native ⟨0⟩)
      [.ofNat 7] := by
  exact ⟨rfl, rfl, Session.leadsTo_relaySession.appliesAs _⟩

end Records
