import Records.Proofs.Application.Forwarding
import Records.Proofs.Registry.Implied

/-!
# Refusals

A record that refuses arguments words the arity that it expects: by the value of a property of its
type, which is called with the record, or else in the words of the arity itself. The value is that
of the first property listed that is the property of arity strings, or implies it. A type that
holds no arity string has no such property; but one that holds a property that implies it, with
the arity string derived from its value, has this value called instead of the arity string.

## Main definitions

* `Store.RefusesBy`: a record refuses arguments, in the words of a value or in those of an arity.

## Main statements

* `Store.refusesBy_arityRenderer?`: a record refuses what the procedure it designates refuses.
* `Session.Provided.refusesBy_arityString_iff`: when a refusal is worded by the arity string.
* `Session.exists_refusal_not_by_arityString`: it is not always.
-/

namespace Records

namespace Store

variable {s : Store} {i : InstanceId} {v r : Value} {b expected expected' : Arity}
  {args : List Value} {t : RecordType}

/-- A record refuses arguments: at once in the words of an arity, or in those of the one result of
a value that is called with the record; and no other call is made. -/
inductive RefusesBy (s : Store) (i : InstanceId) (expected : Arity) (args : List Value) :
    Option Value → Prop where
  | plain (hstep : (callRecord i args).advance.run s =
      (.error (.condition (.arityMismatch (s.typeOf i).name.name expected.text args.length)), s)) :
      RefusesBy s i expected args none
  | worded {r : Value} {resume : List Value → Computation (List Value)}
      (hstep : (callRecord i args).advance.run s = (.ok (.suspended r [.record i] resume), s))
      (hsingle : ∀ v s', (resume [v]).advance.run s' = (.error (.condition
        (.arityMismatch (s.typeOf i).name.name (s'.expectation v) args.length)), s'))
      (hresults : ∀ results s', ∃ e, (resume results).advance.run s' = (.error e, s')) :
      RefusesBy s i expected args (some r)

/-- A refusal is worded in one way. -/
lemma RefusesBy.unique {r? r?' : Option Value} (h : s.RefusesBy i expected args r?)
    (h' : s.RefusesBy i expected' args r?') : r? = r?' := by
  cases h with
  | plain hstep =>
    cases h' with
    | plain _ => rfl
    | worded hstep' _ _ =>
      rw [hstep] at hstep'
      cases hstep'
  | worded hstep _ _ =>
    cases h' with
    | plain hstep' =>
      rw [hstep] at hstep'
      cases hstep'
    | worded hstep' _ _ =>
      rw [hstep] at hstep'
      cases hstep'
      rfl

/-- What is left of a refusal when the value that words the arity has answered. -/
def refusal (name : String) (given : Nat) (results : List Value) : Computation (List Value) := do
  let v ← single "prop:arity-string" results
  raise <| .arityMismatch name ((← get : Store).expectation v) given

lemma run_advance_refuseArity_of_none (h : s.arityRenderer? (s.typeOf i) = none)
    (expected : Arity) (given : Nat) :
    (refuseArity i expected given).advance.run s =
      (.error (.condition (.arityMismatch (s.typeOf i).name.name expected.text given)), s) := by
  refine (Computation.run_advance_get_bind _ s).trans ?_
  simp only [h]
  rfl

lemma run_advance_refuseArity_of_some (h : s.arityRenderer? (s.typeOf i) = some r)
    (expected : Arity) (given : Nat) :
    (refuseArity i expected given).advance.run s =
      (.ok (.suspended r [.record i] (refusal (s.typeOf i).name.name given)), s) := by
  refine (Computation.run_advance_get_bind _ s).trans ?_
  simp only [h]
  rfl

/-- A record refuses what the procedure it designates refuses, in words of its type if there are
any. -/
lemma refusesBy_arityRenderer? (hv : s.designated? i = some v) (hb : s.arity? v = some b)
    (hrejects : ¬b.accepts (s.inFront i ++ args).length) :
    s.RefusesBy i (b.drop (s.inFront i).length) args (s.arityRenderer? (s.typeOf i)) := by
  have hstep := run_advance_callRecord hv args
  rw [handOn_of_not_accepts hb hrejects] at hstep
  cases hr : s.arityRenderer? (s.typeOf i) with
  | none => exact .plain (hstep.trans (run_advance_refuseArity_of_none hr _ _))
  | some r =>
    refine .worded (hstep.trans (run_advance_refuseArity_of_some hr _ _)) (fun _ _ => rfl) ?_
    intro results s'
    rcases results with _ | ⟨v, _ | ⟨w, rest⟩⟩
    · exact ⟨_, rfl⟩
    · exact ⟨_, rfl⟩
    · exact ⟨_, rfl⟩

/-- A record that refuses its arguments does not hand them on. -/
lemma RefusesBy.not_suspended {r? : Option Value} (h : s.RefusesBy i expected args r?)
    (full : List Value) :
    (callRecord i args).advance.run s ≠ (.ok (.suspended v full .done), s) := by
  intro hstep
  cases h with
  | plain hstep' =>
    rw [hstep] at hstep'
    cases hstep'
  | worded hstep' hsingle _ =>
    rw [hstep] at hstep'
    cases hstep'
    -- nothing follows a call that hands arguments on, so its results would be the answer
    cases congrArg Prod.fst (hsingle .void s)

/-- A record hands its arguments on exactly if what it hands them on to accepts them. -/
lemma run_advance_callRecord_eq_iff (hv : s.designated? i = some v) (hb : s.arity? v = some b) :
    (callRecord i args).advance.run s =
        (.ok (.suspended v (s.inFront i ++ args) .done), s) ↔
      b.accepts (s.inFront i ++ args).length := by
  constructor
  · intro hstep
    by_contra hrejects
    exact (refusesBy_arityRenderer? hv hb hrejects).not_suspended _ hstep
  · intro haccepts
    rw [run_advance_callRecord hv, handOn_of_accepts]
    · rfl
    · rintro _ hb'
      rw [hb] at hb'
      cases hb'
      exact haccepts

/-! ### The value that words a refusal -/

lemma arityRenderer?_eq_none_iff : s.arityRenderer? t = none ↔
    ∀ b ∈ t.properties, ¬s.isA b.1 Property.arityString := by
  rw [arityRenderer?, Option.map_eq_none_iff, List.find?_eq_none]

/-- The first property listed that is the property of arity strings, or implies it, has its value
called. -/
lemma arityRenderer?_eq_some_iff : s.arityRenderer? t = some r ↔
    ∃ before p after, t.properties = before ++ (p, r) :: after ∧
      s.isA p Property.arityString ∧ ∀ b ∈ before, ¬s.isA b.1 Property.arityString := by
  rw [arityRenderer?, Option.map_eq_some_iff]
  constructor
  · rintro ⟨⟨p, r⟩, hfind, rfl⟩
    obtain ⟨hisA, before, after, hproperties, hbefore⟩ := List.find?_eq_some_iff_append.1 hfind
    exact ⟨before, p, after, hproperties, hisA, fun b hb => by simpa using hbefore b hb⟩
  · rintro ⟨before, p, after, hproperties, hisA, hbefore⟩
    refine ⟨(p, r), List.find?_eq_some_iff_append.2 ?_, rfl⟩
    exact ⟨hisA, before, after, hproperties, fun b hb => by simpa using hbefore b hb⟩

end Store

/-! ### Arity strings -/

/-- The first property listed that is the property of arity strings, or implies it, has the value
of the arity string. -/
def Store.ArityStringFirst (s : Store) (t : RecordType) : Prop :=
  ∀ before p w after, t.properties = before ++ (p, w) :: after →
    s.isA p Property.arityString → (∀ b ∈ before, ¬s.isA b.1 Property.arityString) →
      t.propertyValue? Property.arityString = some w

namespace Session

variable {S : Session} {i : InstanceId} {v : Value} {b : Arity} {args : List Value}

/-- The arity string of a type words its refusals exactly if it is listed first. -/
lemma Provided.arityRenderer?_eq_iff (h : S.Provided) (hs : S.store.ImpliesOlder) (t : TypeId) :
    S.store.arityRenderer? (S.store.type t) =
        (S.store.type t).propertyValue? Property.arityString ↔
      S.store.ArityStringFirst (S.store.type t) := by
  constructor
  · intro heq before p w after hproperties hisA hbefore
    rw [← heq, Store.arityRenderer?_eq_some_iff]
    exact ⟨before, p, after, hproperties, hisA, hbefore⟩
  · intro hfirst
    cases hr : S.store.arityRenderer? (S.store.type t) with
    | none =>
      rw [Store.arityRenderer?_eq_none_iff] at hr
      exact ((h.propertyValue?_eq_none_iff hs).2 hr).symm
    | some w =>
      obtain ⟨before, p, after, hproperties, hisA, hbefore⟩ := Store.arityRenderer?_eq_some_iff.1 hr
      exact (hfirst before p w after hproperties hisA hbefore).symm

/-- A type without arity string refuses arguments at once. -/
lemma Provided.refusesBy_none (h : S.Provided) (hs : S.store.ImpliesOlder)
    (hv : S.store.designated? i = some v) (hb : S.store.arity? v = some b)
    (hrejects : ¬b.accepts (S.store.inFront i ++ args).length)
    (hnone : (S.store.typeOf i).propertyValue? Property.arityString = none) :
    S.store.RefusesBy i (b.drop (S.store.inFront i).length) args none := by
  have hplain : S.store.arityRenderer? (S.store.typeOf i) = none :=
    Store.arityRenderer?_eq_none_iff.2 ((h.propertyValue?_eq_none_iff hs).1 hnone)
  have hrefuses := Store.refusesBy_arityRenderer? hv hb hrejects
  rw [hplain] at hrefuses
  exact hrefuses

/-- What the designated procedure refuses is refused, and no call is made but that of a value that
words the refusal. A type without arity string refuses at once; and the value that is called is
the arity string exactly if no other one is listed in front of it for a property that implies the
property of arity strings. -/
theorem Provided.refusesBy_arityString_iff (h : S.Provided) (hs : S.store.Built)
    (hv : S.store.designated? i = some v) (hb : S.store.arity? v = some b)
    (hrejects : ¬b.accepts (S.store.inFront i ++ args).length) :
    let type := S.store.typeOf i
    let expected := b.drop (S.store.inFront i).length
    (∃ r?, S.store.RefusesBy i expected args r?) ∧
    (type.propertyValue? Property.arityString = none →
      S.store.RefusesBy i expected args none) ∧
    (S.store.RefusesBy i expected args (type.propertyValue? Property.arityString) ↔
      S.store.ArityStringFirst type) := by
  have hrefuses := Store.refusesBy_arityRenderer? hv hb hrejects
  refine ⟨⟨_, hrefuses⟩, h.refusesBy_none hs.impliesOlder hv hb hrejects, ?_⟩
  rw [Store.typeOf, ← h.arityRenderer?_eq_iff hs.impliesOlder, ← Store.typeOf]
  constructor
  · exact fun hworded => hrefuses.unique hworded
  · intro heq
    rw [heq] at hrefuses
    exact hrefuses

/-! ### An arity string that is derived -/

lemma ProvidedStep.resumeLatest (S : Session) (result : Value) :
    ProvidedStep S (S.resumeLatest result) := by
  unfold Session.resumeLatest
  cases hu : S.underway with
  | nil =>
    exact .still (refl_of Store.AddsPending _) (refl_of Store.KeepsProperties _)
      (List.Subset.refl _)
  | cons u rest => exact @ProvidedStep.resume S [] rest u hu [result]

lemma ProvidedStep.withRecord (S : Session) (t : TypeId) (values : List Value) :
    ProvidedStep S (S.withRecord t values) :=
  .still (.of_types_eq rfl) (Store.LeavesProperties.keepsProperties rfl) (List.Subset.refl _)

/-- A session with two values that word arities, a procedure that derives the first one, a
procedure of two arguments, and a property that derives arity strings. -/
def derivingSession : Session :=
  let S : Session :=
    { store := { Session.initial.store with
        natives := #[
          ⟨"render", .atLeast 0, .compute fun _ => .ok [.string "derived words"], 0⟩,
          ⟨"w", .atLeast 0, .compute fun _ => .ok [.string "own words"], 0⟩,
          ⟨"d", .atLeast 1, .compute fun _ => .ok [.procedure (.native ⟨0⟩)], 0⟩,
          ⟨"p", .exactly 2, .compute fun call => .ok call.arguments, 0⟩] } }
  let q : Property :=
    ⟨⟨"q"⟩, none, [(Property.arityString, .procedure (.native ⟨2⟩))], false⟩
  { S with store := ((newProperty q).run S.store).2 }

/-- A type is defined with this property, the derived arity string is handed back, and an instance
is made. -/
def derivedSession : Session :=
  ((derivingSession.begin ⟨0⟩
    { name := ⟨"t"⟩, properties := [(⟨6⟩, .procedure (.native ⟨1⟩))],
      procedure := some (.procedure (.native ⟨3⟩)) }).resumeLatest
    (.procedure (.native ⟨0⟩))).withRecord ⟨0⟩ []

lemma provided_derivedSession : derivedSession.Provided := by
  have hstart : Provided { derivingSession with store := { derivingSession.store with
      properties := Store.initial.properties } } :=
    .start (Store.resolution_of_types_eq rfl) (Store.LeavesProperties.keepsProperties rfl)
  have hderiving : derivingSession.Provided := hstart.step (.property _ _)
  refine .step (.step (.step hderiving (.begin ⟨0⟩ _ ?_)) (.resumeLatest _ _)) (.withRecord _ _ _)
  decide

lemma built_derivedSession : derivedSession.store.Built := by
  have hderiving : derivingSession.store.Built := .property _ (.other .initial rfl rfl) (by decide)
  let resolution : Resolution :=
    ⟨[(⟨6⟩, .procedure (.native ⟨1⟩)), (Property.arityString, .procedure (.native ⟨0⟩)),
      (Property.procedure, .procedure (.native ⟨3⟩))],
      some ⟨.procedure (.procedure (.native ⟨3⟩)), ⟨0⟩⟩⟩
  exact .other (.publish ⟨0⟩ resolution (.declare { name := ⟨"t"⟩ } hderiving nofun)) rfl rfl

/-- The property that derives the arity string is listed in front of it, so the arity string does
not word the refusal. -/
theorem Provided.refusesBy_arityString_iff_derived :
    derivedSession.Provided ∧ derivedSession.store.Built ∧
    derivedSession.store.designated? ⟨0⟩ = some (.procedure (.native ⟨3⟩)) ∧
    derivedSession.store.arity? (.procedure (.native ⟨3⟩)) = some (.exactly 2) ∧
    ¬(Arity.exactly 2).accepts (derivedSession.store.inFront ⟨0⟩ ++ []).length ∧
    ∃ r, (derivedSession.store.typeOf ⟨0⟩).propertyValue? Property.arityString = some r ∧
      (derivedSession.store.RefusesBy ⟨0⟩ (.exactly 1) [] (some r) ↔
        derivedSession.store.ArityStringFirst (derivedSession.store.typeOf ⟨0⟩)) := by
  have hrejects : ¬(Arity.exactly 2).accepts (derivedSession.store.inFront ⟨0⟩ ++ []).length := by
    decide
  obtain ⟨-, -, hiff⟩ := provided_derivedSession.refusesBy_arityString_iff built_derivedSession
    (i := ⟨0⟩) (v := .procedure (.native ⟨3⟩)) rfl rfl hrejects
  exact ⟨provided_derivedSession, built_derivedSession, rfl, rfl, hrejects, _, rfl, hiff⟩

/-- A value that is no arity string is called for the words of a refusal. -/
theorem exists_refusal_not_by_arityString :
    ∃ (S : Session) (i : InstanceId) (v : Value) (b : Arity) (args : List Value) (r : Value),
      S.Provided ∧ S.store.Built ∧ S.store.designated? i = some v ∧ S.store.arity? v = some b ∧
      ¬b.accepts (S.store.inFront i ++ args).length ∧
      (S.store.typeOf i).propertyValue? Property.arityString = some r ∧
      ¬∃ expected, S.store.RefusesBy i expected args (some r) := by
  have hrejects : ¬(Arity.exactly 2).accepts (derivedSession.store.inFront ⟨0⟩ ++ []).length := by
    decide
  refine ⟨derivedSession, ⟨0⟩, .procedure (.native ⟨3⟩), .exactly 2, [], .procedure (.native ⟨0⟩),
    provided_derivedSession, built_derivedSession, rfl, rfl, hrejects, rfl, ?_⟩
  rintro ⟨expected, hworded⟩
  have hrefuses : derivedSession.store.RefusesBy ⟨0⟩ _ [] (some (.procedure (.native ⟨1⟩))) :=
    Store.refusesBy_arityRenderer? (v := .procedure (.native ⟨3⟩)) rfl rfl hrejects
  cases hrefuses.unique hworded

end Session

end Records
