import Records.Store.Basic

/-!
# Computations with calls

Where the record system needs a procedure to run, it does not run it. It asks for the call and
says how it goes on with the results; who runs the computation decides when and how the call is
made. Between calls a computation looks at the store and replaces it.

A computation is run in one go by `Computation.run`, or step by step: `Computation.advance` goes
on to the next call, where what is left depends on its results.

## Main statements

* `Computation.instLawfulMonad`: sequencing is associative, with finished computations as units.
* `Computation.run_bind`: running a sequence is running its parts in sequence.
-/

namespace Records

/-- A computation that may call procedures on its way to an answer. -/
inductive Computation (α : Type) : Type where
  /-- Finished with an answer. -/
  | done (answer : α)
  /-- Finished without one. -/
  | fail (failure : Failure)
  /-- Apply a procedure to arguments and go on with its results. -/
  | call (procedure : Value) (arguments : List Value) (resume : List Value → Computation α)
  /-- Look at the store. -/
  | read (next : Store → Computation α)
  /-- Replace the store. -/
  | write (s : Store) (next : Computation α)

namespace Computation

variable {α β γ : Type}

/-- Go on with the answer of a computation. -/
def bind : Computation α → (α → Computation β) → Computation β
  | .done a, f => f a
  | .fail e, _ => .fail e
  | .call p args resume, f => .call p args fun results => (resume results).bind f
  | .read next, f => .read fun s => (next s).bind f
  | .write s next, f => .write s (next.bind f)

instance : Monad Computation where
  pure := .done
  bind := bind

/-! ### Sequencing -/

@[simp] theorem pure_eq (a : α) : (pure a : Computation α) = .done a := rfl

@[simp] theorem bind_eq (c : Computation α) (f : α → Computation β) : c >>= f = c.bind f := rfl

@[simp] theorem done_bind (a : α) (f : α → Computation β) : (done a).bind f = f a := rfl

@[simp] theorem fail_bind (e : Failure) (f : α → Computation β) :
    (fail e : Computation α).bind f = .fail e := rfl

@[simp] theorem call_bind (p : Value) (args : List Value) (resume : List Value → Computation α)
    (f : α → Computation β) :
    (call p args resume).bind f = .call p args fun results => (resume results).bind f := rfl

@[simp] theorem read_bind (next : Store → Computation α) (f : α → Computation β) :
    (read next).bind f = .read fun s => (next s).bind f := rfl

@[simp] theorem write_bind (s : Store) (next : Computation α) (f : α → Computation β) :
    (write s next).bind f = .write s (next.bind f) := rfl

theorem bind_done (c : Computation α) : c.bind .done = c := by
  induction c with
  | done a => rfl
  | fail e => rfl
  | call p args resume ih => simp [ih]
  | read next ih => simp [ih]
  | write s next ih => simp [ih]

theorem bind_assoc (c : Computation α) (f : α → Computation β) (g : β → Computation γ) :
    (c.bind f).bind g = c.bind fun a => (f a).bind g := by
  induction c with
  | done a => rfl
  | fail e => rfl
  | call p args resume ih => simp [ih]
  | read next ih => simp [ih]
  | write s next ih => simp [ih]

instance instLawfulMonad : LawfulMonad Computation :=
  LawfulMonad.mk' Computation
    (fun c => bind_done c)
    (fun _ _ => rfl)
    (fun c f g => bind_assoc c f g)

/-- An operation on the store, as a computation without calls. -/
def ofStoreM (m : StoreM α) : Computation α :=
  .read fun s =>
    match m.run s with
    | (.ok a, s') => .write s' (.done a)
    | (.error e, s') => .write s' (.fail e)

instance : MonadLift StoreM Computation where
  monadLift := ofStoreM

/-- Call a procedure; its results are the answer. -/
def apply (procedure : Value) (arguments : List Value) : Computation (List Value) :=
  .call procedure arguments .done

/-! ### Running -/

/-- Run a computation, with `apply` making its calls. -/
def run {m : Type → Type} [Monad m] [MonadLiftT StoreM m]
    (apply : Value → List Value → m (List Value)) : Computation α → m α
  | .done a => pure a
  | .fail e => liftM (throw e : StoreM α)
  | .call p args resume => do (resume (← apply p args)).run apply
  | .read next => do (next (← liftM (get : StoreM Store))).run apply
  | .write s next => do
    liftM (set s : StoreM Unit)
    next.run apply

section Run

variable {m : Type → Type} [Monad m] [MonadLiftT StoreM m]
  (apply : Value → List Value → m (List Value))

@[simp] theorem run_done (a : α) : (done a).run apply = pure a := rfl

@[simp] theorem run_fail (e : Failure) :
    (fail e : Computation α).run apply = liftM (throw e : StoreM α) := rfl

@[simp] theorem run_call (p : Value) (args : List Value)
    (resume : List Value → Computation α) :
    (call p args resume).run apply = apply p args >>= fun results =>
      (resume results).run apply := rfl

@[simp] theorem run_read (next : Store → Computation α) :
    (read next).run apply = liftM (get : StoreM Store) >>= fun s => (next s).run apply := rfl

@[simp] theorem run_write (s : Store) (next : Computation α) :
    (write s next).run apply = liftM (set s : StoreM Unit) >>= fun _ => next.run apply := rfl

/-- Running a sequence is running its parts in sequence, in every monad where a failed operation
on the store ends what follows it. -/
theorem run_bind [LawfulMonad m] (c : Computation α) (f : α → Computation β)
    (hfail : ∀ (e : Failure) (k : α → m β),
      liftM (throw e : StoreM α) >>= k = liftM (throw e : StoreM β)) :
    (c.bind f).run apply = c.run apply >>= fun a => (f a).run apply := by
  induction c with
  | done a => simp
  | fail e => simp [hfail]
  | call p args resume ih => simp [ih]
  | read next ih => simp [ih]
  | write s next ih => simp [ih]

end Run

end Computation

/-- Where work stands that needs nothing but the results of a call. -/
inductive Step (α κ : Type) : Type where
  /-- Finished with an answer. -/
  | returned (answer : α)
  /-- Waiting for the results of a call. -/
  | suspended (procedure : Value) (arguments : List Value) (resume : κ)

namespace Step

variable {α κ : Type}

/-- The computation that is left. -/
def toComputation : Step α (List Value → Computation α) → Computation α
  | .returned a => .done a
  | .suspended p args resume => .call p args resume

/-- Whether the step waits for a call. -/
def isSuspended : Step α κ → Bool
  | .returned _ => false
  | .suspended .. => true

end Step

/-- Go on to the next call, or to the end. -/
def Computation.advance {α : Type} :
    Computation α → StoreM (Step α (List Value → Computation α))
  | .done a => return .returned a
  | .fail e => throw e
  | .call p args resume => return .suspended p args resume
  | .read next => do (next (← get)).advance
  | .write s next => do
    set s
    next.advance

/-- Extract the single result of a call. -/
def single (context : String) : List Value → Except Condition Value
  | [v] => .ok v
  | values => .error (.resultCount context 1 values.length)

end Records
