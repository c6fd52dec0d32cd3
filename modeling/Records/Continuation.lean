import Records.Computation

/-!
# Continuations

What goes on with the results of a call is a state of any kind, that says what comes of the results:
a failure, an answer, or another call with another state behind it. So nothing bounds the calls
that a step leads to; a continuation may ask again until it likes the answer.

A step is sequenced with a continuation. If it has returned, the continuation is resumed at once;
if it waits for a call, the continuation is put behind the one that waits.

## Main definitions

* `Resume` is what makes states go on with results.
* `Continuation` is a state, or two continuations in sequence.
* `Step.andThen` sequences a step with a continuation.
* `Protocol` is the kind of states that computations leave at their calls.
-/

namespace Records

/-- What goes on with the results of a call: a state of its own, or two of these in sequence. -/
inductive Continuation (κ : Type) : Type where
  | own (state : κ)
  | compose (first next : Continuation κ)

/-- States that go on with the results of a call. -/
class Resume (κ : Type) where
  resume : κ → List Value → StoreM (Step (List Value) (Continuation κ))

variable {κ : Type}

/-- Go on with the results of a call. In a sequence, the second part goes on where the first one
returns. -/
def Continuation.resume [Resume κ] :
    Continuation κ → List Value → StoreM (Step (List Value) (Continuation κ))
  | .own state, results => Resume.resume state results
  | .compose first next, results => do
    match ← first.resume results with
    | .returned results => next.resume results
    | .suspended p args first => return .suspended p args (.compose first next)

/-- Sequence a continuation after a step. -/
def Step.andThen [Resume κ] (s : Step (List Value) (Continuation κ)) (next : Continuation κ) :
    StoreM (Step (List Value) (Continuation κ)) :=
  match s with
  | .returned results => next.resume results
  | .suspended p args first => return .suspended p args (.compose first next)

theorem Continuation.resume_compose [Resume κ] (first next : Continuation κ)
    (results : List Value) :
    (compose first next).resume results = first.resume results >>= (·.andThen next) := rfl

/-! ### Computations -/

/-- What is left of a computation at a call. -/
abbrev Protocol := List Value → Computation (List Value)

/-- The step of a computation as one that continuations can follow. -/
def Step.own : Step (List Value) Protocol → Step (List Value) (Continuation Protocol)
  | .returned results => .returned results
  | .suspended p args resume => .suspended p args (.own resume)

/-- The step of a computation that needs nothing but the results of a call. -/
def Computation.steps (c : Computation (List Value)) :
    StoreM (Step (List Value) (Continuation Protocol)) :=
  return (← c.advance).own

instance : Resume Protocol where
  resume k results := (k results).steps

end Records
