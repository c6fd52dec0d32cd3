import Records.Host
import Records.Proofs.Computation.Trace

/-!
# Steps in sequence

A host of any kind drives a step: its calls have results or fail, and they change the state of the
host and the store in any way. What goes on with the results may ask for another call, and so on,
without end if it likes. A transcript tells what happens in a number of calls: the calls, how they
were answered, and what the run has come to by then.

`Step.andThen` goes on with a step that has returned at once, and with one that waits later. For
every number of calls, the transcript is the same as if the step had been driven to its end first.
A failure ends a run wherever it comes, and where a step never returns, nothing follows.

## Main definitions

* `Step.transcript`: what a host does with a step in a number of calls.
* `Step.Ends`: what a host does with a step until its run ends.
* `Step.Sequences`: sequences of steps are driven part by part.
* `Computation.Driven`: computations are run by driving their steps.

## Main statements

* `Step.sequences`: every host drives sequences of steps part by part, and runs computations so.
* `Insisting.transcript_eq`: a step may ask for calls without end.
-/

namespace Records

variable {σ κ : Type}

/-! ### Transcripts -/

/-- What happens in a number of calls: the calls in order, the failure or the results that the run
ends with, or neither while another call is to be made, and what is left of the state of the host
and of the store. -/
structure Transcript (σ : Type) where
  calls : List Exchange
  outcome : Except Failure (Option (List Value))
  host : σ
  store : Store

namespace Transcript

/-- The transcript behind calls that were made before. -/
def after (calls : List Exchange) (T : Transcript σ) : Transcript σ :=
  { T with calls := calls ++ T.calls }

/-- Go on with the results of a transcript of at most `limit` calls, for as many calls as are left.
A transcript that is open, or ends in a failure, stays as it is. -/
def andThen (limit : Nat) (f : Nat → List Value → σ → Store → Transcript σ) :
    Transcript σ → Transcript σ
  | ⟨calls, .ok (some results), x, s⟩ => (f (limit - calls.length) results x s).after calls
  | T => T

lemma after_append (before calls : List Exchange) (T : Transcript σ) :
    T.after (before ++ calls) = (T.after calls).after before := by
  rw [after, List.append_assoc]
  rfl

variable (limit : Nat) (f g : Nat → List Value → σ → Store → Transcript σ)

/-- Whether calls were made before makes no difference to what follows. -/
lemma andThen_after (calls : List Exchange) (T : Transcript σ) :
    (T.after calls).andThen (limit + calls.length) f = (T.andThen limit f).after calls := by
  rcases T with ⟨calls', _ | _ | results, x, s⟩
  · rfl
  · rfl
  · have hleft : limit + calls.length - (calls ++ calls').length = limit - calls'.length := by
      rw [List.length_append]
      omega
    show (f _ results x s).after (calls ++ calls') = ((f _ results x s).after calls').after calls
    rw [hleft, after_append]

lemma andThen_assoc (T : Transcript σ) :
    (T.andThen limit f).andThen limit g =
      T.andThen limit fun left results x s => (f left results x s).andThen left g := by
  rcases T with ⟨calls, _ | _ | results, x, s⟩
  · rfl
  · rfl
  · show ((f (limit - calls.length) results x s).after calls).andThen limit g =
      ((f (limit - calls.length) results x s).andThen (limit - calls.length) g).after calls
    rcases f (limit - calls.length) results x s with ⟨calls', _ | _ | results', x', s'⟩
    · rfl
    · rfl
    · show (g (limit - (calls ++ calls').length) results' x' s').after (calls ++ calls') =
        ((g (limit - calls.length - calls'.length) results' x' s').after calls').after calls
      rw [List.length_append, Nat.sub_add_eq, after_append]

end Transcript

/-- What comes of an operation of a host. -/
lemma HostM.run_bind {α β : Type} (m : HostM σ α) (f : α → HostM σ β) (x : σ) (s : Store) :
    (m >>= f).run x s =
      match m.run x s with
      | ((.ok a, x'), s') => (f a).run x' s'
      | ((.error e, x'), s') => ((.error e, x'), s') := by
  show ExceptT.bindCont f (m.run x s).1.1 (m.run x s).1.2 (m.run x s).2 = _
  rcases m.run x s with ⟨⟨_ | a, x'⟩, s'⟩ <;> rfl

/-- An operation on the store leaves the state of the host alone. -/
lemma HostM.run_liftM {α : Type} (m : StoreM α) (x : σ) (s : Store) :
    (liftM m : HostM σ α).run x s = (((m.run s).1, x), (m.run s).2) := rfl

namespace Step

/-- What a host does with a step in at most `limit` calls. -/
def transcript [Resume κ] (apply : Value → List Value → HostM σ (List Value)) :
    (limit : Nat) → Step (List Value) (Continuation κ) → σ → Store → Transcript σ
  | _, .returned results, x, t => ⟨[], .ok (some results), x, t⟩
  | 0, .suspended _ _ _, x, t => ⟨[], .ok none, x, t⟩
  | limit + 1, .suspended p args k, x, t =>
    match (apply p args).run x t with
    | ((.error e, x'), t') => ⟨[⟨p, args, .error e⟩], .error e, x', t'⟩
    | ((.ok results, x'), t') =>
      Transcript.after [⟨p, args, .ok results⟩] <|
        match (k.resume results).run t' with
        | (.error e, t'') => ⟨[], .error e, x', t''⟩
        | (.ok s, t'') => s.transcript apply limit x' t''

/-- What a host does with the step that an operation on the store comes to. -/
def transcriptOf [Resume κ] (apply : Value → List Value → HostM σ (List Value)) (limit : Nat)
    (m : StoreM (Step (List Value) (Continuation κ))) (x : σ) (t : Store) : Transcript σ :=
  match m.run t with
  | (.error e, t') => ⟨[], .error e, x, t'⟩
  | (.ok s, t') => s.transcript apply limit x t'

/-- The calls that a host makes for the step that an operation comes to, until its run ends with
results or with a failure. -/
def Ends [Resume κ] (apply : Value → List Value → HostM σ (List Value))
    (m : StoreM (Step (List Value) (Continuation κ))) (x : σ) (t : Store) (calls : List Exchange)
    (out : Except Failure (List Value)) (x' : σ) (t' : Store) : Prop :=
  ∃ limit, transcriptOf apply limit m x t = ⟨calls, out.map some, x', t'⟩

/-- How a host drives steps in sequence. Their continuations may wait for calls without end. -/
structure Sequences (κ : Type) [Resume κ] (apply : Value → List Value → HostM σ (List Value)) :
    Prop where
  /-- A host that drives a step finds what the transcript tells. -/
  drive_eq : ∀ (s : Step (List Value) (Continuation κ)) limit x t, (s.drive apply limit).run x t =
    (((s.transcript apply limit x t).outcome, (s.transcript apply limit x t).host),
      (s.transcript apply limit x t).store)
  /-- All calls that are allowed are made while a run is open. -/
  length_eq : ∀ (s : Step (List Value) (Continuation κ)) limit x t,
    (s.transcript apply limit x t).outcome = .ok none →
      (s.transcript apply limit x t).calls.length = limit
  /-- If more calls are allowed, the same calls come first. -/
  grows : ∀ (s : Step (List Value) (Continuation κ)) limit more x t,
    (s.transcript apply limit x t).calls <+: (s.transcript apply (limit + more) x t).calls
  /-- No call is made after one that failed, and its failure is the outcome. -/
  stops : ∀ (s : Step (List Value) (Continuation κ)) limit x t before after p args e,
    (s.transcript apply limit x t).calls = before ++ ⟨p, args, .error e⟩ :: after →
      after = [] ∧ (s.transcript apply limit x t).outcome = .error e
  /-- However many calls are allowed, a sequence makes the calls of the step, and those that the
  continuation leads to once the step has returned. A failure ends it where it comes. -/
  andThen : ∀ (s : Step (List Value) (Continuation κ)) k limit x t,
    transcriptOf apply limit (s.andThen k) x t =
      (s.transcript apply limit x t).andThen limit fun left results x t =>
        transcriptOf apply left (k.resume results) x t
  /-- A sequence ends if the step fails, or if the step returns and what the continuation makes of
  its results ends. -/
  ends_iff : ∀ (s : Step (List Value) (Continuation κ)) k x t calls out x' t',
    Ends apply (s.andThen k) x t calls out x' t' ↔
      (∃ e, Ends apply (pure s) x t calls (.error e) x' t' ∧ out = .error e) ∨
      ∃ before results y u after, Ends apply (pure s) x t before (.ok results) y u ∧
        Ends apply (k.resume results) y u after out x' t' ∧ calls = before ++ after
  /-- Sequencing is associative: two continuations may follow one after the other, or as one that
  resumes the first and puts the second behind the step that comes of it. -/
  assoc : ∀ (s : Step (List Value) (Continuation κ)) j k l,
    (∀ results, l.resume results = j.resume results >>= (·.andThen k)) → ∀ limit x t,
      transcriptOf apply limit (s.andThen j >>= (·.andThen k)) x t =
        transcriptOf apply limit (s.andThen l) x t

variable [Resume κ] {apply : Value → List Value → HostM σ (List Value)}
  {s : Step (List Value) (Continuation κ)} {limit : Nat} {x x' : σ} {t t' : Store}

/-! ### One call -/

/-- A call that fails ends the run, and the results of one that does not are gone on with. -/
lemma transcript_suspended (p : Value) (args : List Value) (k : Continuation κ) :
    (suspended p args k).transcript apply (limit + 1) x t =
      match (apply p args).run x t with
      | ((.error e, x'), t') => ⟨[⟨p, args, .error e⟩], .error e, x', t'⟩
      | ((.ok results, x'), t') =>
        (transcriptOf apply limit (k.resume results) x' t').after [⟨p, args, .ok results⟩] := rfl

lemma transcriptOf_pure (s : Step (List Value) (Continuation κ)) :
    transcriptOf apply limit (pure s) x t = s.transcript apply limit x t := rfl

lemma transcriptOf_bind (m : StoreM (Step (List Value) (Continuation κ)))
    (f : Step (List Value) (Continuation κ) → StoreM (Step (List Value) (Continuation κ))) :
    transcriptOf apply limit (m >>= f) x t =
      match m.run t with
      | (.error e, t') => ⟨[], .error e, x, t'⟩
      | (.ok s, t') => transcriptOf apply limit (f s) x t' := by
  rw [transcriptOf, StoreM.run_bind]
  rcases m.run t with ⟨_ | s, t'⟩ <;> rfl

lemma transcript_returned (results : List Value) (limit : Nat) :
    (returned results : Step (List Value) (Continuation κ)).transcript apply limit x t =
      ⟨[], .ok (some results), x, t⟩ := by
  cases limit <;> rfl

lemma drive_eq_transcript (s : Step (List Value) (Continuation κ)) (limit : Nat) (x : σ)
    (t : Store) : (s.drive apply limit).run x t =
      (((s.transcript apply limit x t).outcome, (s.transcript apply limit x t).host),
        (s.transcript apply limit x t).store) := by
  induction limit generalizing s x t with
  | zero => cases s <;> rfl
  | succ limit ih =>
    cases s with
    | returned results => rfl
    | suspended p args k =>
      rw [drive, HostM.run_bind, transcript]
      rcases (apply p args).run x t with ⟨⟨_ | results, x'⟩, t'⟩
      · rfl
      · dsimp only
        rw [HostM.run_bind, HostM.run_liftM]
        rcases (k.resume results).run t' with ⟨_ | s, t''⟩
        · rfl
        · exact ih s x' t''

/-- A call ends the run with a failure, of its own or of what goes on with its results, or it leads
to another step. -/
lemma transcript_suspended_cases (apply : Value → List Value → HostM σ (List Value)) (p : Value)
    (args : List Value) (k : Continuation κ) (x : σ) (t : Store) :
    (∃ reply e x' t', (∀ e', reply = .error e' → e' = e) ∧
      ∀ limit, (suspended p args k).transcript apply (limit + 1) x t =
        ⟨[⟨p, args, reply⟩], .error e, x', t'⟩) ∨
    ∃ results, ∃ s : Step (List Value) (Continuation κ), ∃ x' t', ∀ limit,
      (suspended p args k).transcript apply (limit + 1) x t =
        (s.transcript apply limit x' t').after [⟨p, args, .ok results⟩] := by
  simp only [transcript_suspended, transcriptOf]
  rcases (apply p args).run x t with ⟨⟨e | results, x'⟩, t'⟩
  · exact .inl ⟨.error e, e, x', t', fun e' h => (Except.error.inj h).symm, fun _ => rfl⟩
  · rcases hresume : (k.resume results).run t' with ⟨e | s, t''⟩
    · refine .inl ⟨.ok results, e, x', t'', nofun, fun limit => ?_⟩
      simp only [hresume]
      rfl
    · refine .inr ⟨results, s, x', t'', fun limit => ?_⟩
      simp only [hresume]

/-! ### More calls -/

lemma length_transcript (h : (s.transcript apply limit x t).outcome = .ok none) :
    (s.transcript apply limit x t).calls.length = limit := by
  induction limit generalizing s x t with
  | zero =>
    cases s with
    | returned results => cases h
    | suspended p args k => rfl
  | succ limit ih =>
    cases s with
    | returned results => cases h
    | suspended p args k =>
      rcases transcript_suspended_cases apply p args k x t with
        ⟨reply, e, x', t', -, heq⟩ | ⟨results, s, x', t', heq⟩
      · rw [heq] at h
        cases h
      · rw [heq] at h ⊢
        exact congrArg Nat.succ (ih h)

lemma transcript_prefix (s : Step (List Value) (Continuation κ)) (limit more : Nat) (x : σ)
    (t : Store) :
    (s.transcript apply limit x t).calls <+: (s.transcript apply (limit + more) x t).calls := by
  induction limit generalizing s x t with
  | zero => cases s <;> exact List.nil_prefix
  | succ limit ih =>
    cases s with
    | returned results =>
      rw [transcript_returned]
      exact List.nil_prefix
    | suspended p args k =>
      rw [Nat.succ_add]
      rcases transcript_suspended_cases apply p args k x t with
        ⟨reply, e, x', t', -, heq⟩ | ⟨results, s, x', t', heq⟩
      · simp only [heq, List.prefix_rfl]
      · rw [heq, heq]
        exact (List.prefix_append_right_inj _).2 (ih s x' t')

/-- A run that has ended makes no more calls, even if they are allowed. -/
lemma transcript_settled (h : (s.transcript apply limit x t).outcome ≠ .ok none) (more : Nat) :
    s.transcript apply (limit + more) x t = s.transcript apply limit x t := by
  induction limit generalizing s x t with
  | zero =>
    cases s with
    | returned results => rw [transcript_returned, transcript_returned]
    | suspended p args k => exact absurd rfl h
  | succ limit ih =>
    cases s with
    | returned results => rw [transcript_returned, transcript_returned]
    | suspended p args k =>
      rw [Nat.succ_add]
      rcases transcript_suspended_cases apply p args k x t with
        ⟨reply, e, x', t', -, heq⟩ | ⟨results, s, x', t', heq⟩
      · rw [heq, heq]
      · rw [heq] at h
        rw [heq, heq, ih h]

lemma transcriptOf_settled {m : StoreM (Step (List Value) (Continuation κ))}
    (h : (transcriptOf apply limit m x t).outcome ≠ .ok none) (more : Nat) :
    transcriptOf apply (limit + more) m x t = transcriptOf apply limit m x t := by
  unfold transcriptOf at h ⊢
  revert h
  rcases m.run t with ⟨_ | s, t'⟩
  · exact fun _ => rfl
  · exact fun h => transcript_settled h more

/-- A failed call is the last one of a run. -/
lemma nil_of_failed_call {before after : List Exchange} {p : Value} {args : List Value}
    {e : Failure}
    (h : (s.transcript apply limit x t).calls = before ++ ⟨p, args, .error e⟩ :: after) :
    after = [] ∧ (s.transcript apply limit x t).outcome = .error e := by
  induction limit generalizing s x t before with
  | zero => cases s <;> exact absurd h.symm (List.append_ne_nil_of_right_ne_nil _ nofun)
  | succ limit ih =>
    cases s with
    | returned results => exact absurd h.symm (List.append_ne_nil_of_right_ne_nil _ nofun)
    | suspended p' args' k =>
      rcases transcript_suspended_cases apply p' args' k x t with
        ⟨reply, e', x', t', hreply, heq⟩ | ⟨results, s, x', t', heq⟩ <;> rw [heq] at h ⊢
      · cases before with
        | nil =>
          obtain ⟨hcall, rfl⟩ := List.cons.inj h
          obtain rfl := hreply e (Exchange.mk.inj hcall).2.2
          exact ⟨rfl, rfl⟩
        | cons call before =>
          exact absurd (List.cons.inj h).2.symm (List.append_ne_nil_of_right_ne_nil _ nofun)
      · cases before with
        | nil => cases (List.cons.inj h).1
        | cons call before => exact ih (List.cons.inj h).2

/-! ### Sequences -/

/-- What follows a step follows its transcript. -/
lemma transcriptOf_andThen (s : Step (List Value) (Continuation κ)) (k : Continuation κ)
    (limit : Nat) (x : σ) (t : Store) :
    transcriptOf apply limit (s.andThen k) x t =
      (s.transcript apply limit x t).andThen limit fun left results x t =>
        transcriptOf apply left (k.resume results) x t := by
  induction limit generalizing s x t with
  | zero => cases s <;> rfl
  | succ limit ih =>
    cases s with
    | returned results => rfl
    | suspended p args first =>
      show (suspended p args (first.compose k)).transcript apply (limit + 1) x t = _
      rw [transcript_suspended, transcript_suspended]
      rcases (apply p args).run x t with ⟨⟨_ | results, x'⟩, t'⟩
      · rfl
      · dsimp only
        rw [Continuation.resume_compose, transcriptOf_bind, transcriptOf]
        refine Eq.trans ?_ (Transcript.andThen_after limit _ [_] _).symm
        rcases (first.resume results).run t' with ⟨_ | s, t''⟩
        · rfl
        · exact congrArg _ (ih s x' t'')

/-- What follows an operation follows its transcript. -/
lemma transcriptOf_bind_andThen (m : StoreM (Step (List Value) (Continuation κ)))
    (k : Continuation κ) (limit : Nat) (x : σ) (t : Store) :
    transcriptOf apply limit (m >>= (·.andThen k)) x t =
      (transcriptOf apply limit m x t).andThen limit fun left results x t =>
        transcriptOf apply left (k.resume results) x t := by
  rw [transcriptOf_bind, transcriptOf]
  rcases m.run t with ⟨_ | s, t'⟩
  · rfl
  · exact transcriptOf_andThen s k limit x t'

lemma transcriptOf_andThen_assoc (s : Step (List Value) (Continuation κ)) (j k l : Continuation κ)
    (hl : ∀ results, l.resume results = j.resume results >>= (·.andThen k)) (limit : Nat) (x : σ)
    (t : Store) :
    transcriptOf apply limit (s.andThen j >>= (·.andThen k)) x t =
      transcriptOf apply limit (s.andThen l) x t := by
  rw [transcriptOf_bind_andThen, transcriptOf_andThen, transcriptOf_andThen,
    Transcript.andThen_assoc]
  simp only [hl, transcriptOf_bind_andThen]

/-! ### Runs that end -/

lemma outcome_ne_none {out : Except Failure (List Value)} : out.map some ≠ .ok none := by
  cases out <;> nofun

lemma ends_andThen_iff (s : Step (List Value) (Continuation κ)) (k : Continuation κ) (x : σ)
    (t : Store) (calls : List Exchange) (out : Except Failure (List Value)) (x' : σ) (t' : Store) :
    Ends apply (s.andThen k) x t calls out x' t' ↔
      (∃ e, Ends apply (pure s) x t calls (.error e) x' t' ∧ out = .error e) ∨
      ∃ before results y u after, Ends apply (pure s) x t before (.ok results) y u ∧
        Ends apply (k.resume results) y u after out x' t' ∧ calls = before ++ after := by
  constructor
  · rintro ⟨limit, h⟩
    rw [transcriptOf_andThen] at h
    rcases hs : s.transcript apply limit x t with ⟨calls', e | _ | results, y, u⟩ <;> rw [hs] at h
    · obtain ⟨rfl, hout, rfl, rfl⟩ := Transcript.mk.inj h
      refine .inl ⟨e, ⟨limit, hs⟩, ?_⟩
      cases out <;> cases hout
      rfl
    · exact absurd (Transcript.mk.inj h).2.1.symm outcome_ne_none
    · obtain ⟨rfl, hout, rfl, rfl⟩ := Transcript.mk.inj h
      refine .inr ⟨calls', results, y, u, _, ⟨limit, hs⟩, ⟨limit - calls'.length, ?_⟩, rfl⟩
      rw [← hout]
  · rintro (⟨e, ⟨limit, hs⟩, rfl⟩ | ⟨before, results, y, u, after, ⟨limit, hs⟩, ⟨left, hk⟩, rfl⟩)
    · refine ⟨limit, ?_⟩
      rw [transcriptOf_pure] at hs
      rw [transcriptOf_andThen, hs]
      rfl
    · -- as many calls as both runs make, and those that the first one had left
      refine ⟨limit + (left + before.length), ?_⟩
      rw [transcriptOf_pure] at hs
      rw [transcriptOf_andThen, transcript_settled (by rw [hs]; nofun), hs]
      have hleft : limit + (left + before.length) - before.length = left + limit := by omega
      show (transcriptOf apply (limit + (left + before.length) - before.length) _ y u).after
        before = _
      rw [hleft, transcriptOf_settled (by rw [hk]; exact outcome_ne_none), hk]
      rfl

end Step

/-! ### Computations as steps -/

namespace Computation

variable {apply : Value → List Value → HostM σ (List Value)}

/-- How a host runs computations by driving their steps. -/
structure Driven (apply : Value → List Value → HostM σ (List Value)) : Prop where
  /-- Driving the steps of a computation ends, and it ends as running the computation does. -/
  ends : ∀ (c : Computation (List Value)) x t, ∃ calls,
    Step.Ends apply c.steps x t calls ((c.run apply).run x t).1.1 ((c.run apply).run x t).1.2
      ((c.run apply).run x t).2
  /-- The steps of a sequence of computations are those of the first one, in sequence with what
  goes on with its answer. -/
  bind : ∀ (c : Computation (List Value)) f limit x t,
    Step.transcriptOf apply limit (c.bind f).steps x t =
      Step.transcriptOf apply limit (c.steps >>= (·.andThen (.own f))) x t

lemma exists_ends (c : Computation (List Value)) (x : σ) (t : Store) :
    ∃ calls, Step.Ends apply c.steps x t calls ((c.run apply).run x t).1.1
      ((c.run apply).run x t).1.2 ((c.run apply).run x t).2 := by
  induction c generalizing x t with
  | done results => exact ⟨[], 0, rfl⟩
  | fail e => exact ⟨[], 0, rfl⟩
  | call p args resume ih =>
    rw [run_call, HostM.run_bind]
    have hcall : ∀ limit, Step.transcriptOf apply (limit + 1) (call p args resume).steps x t = _ :=
      fun limit => Step.transcript_suspended p args (.own resume)
    simp only [Step.Ends]
    rcases hreply : (apply p args).run x t with ⟨⟨e | results, x'⟩, t'⟩
    · refine ⟨[⟨p, args, .error e⟩], 1, ?_⟩
      rw [hcall, hreply]
      rfl
    · obtain ⟨calls, limit, h⟩ := ih results x' t'
      refine ⟨⟨p, args, .ok results⟩ :: calls, limit + 1, ?_⟩
      rw [hcall, hreply]
      exact congrArg (Transcript.after _) h
  | read next ih => exact ih t x t
  | write s next ih => exact ih x s

lemma transcriptOf_steps_bind (c : Computation (List Value)) (f : Protocol) (limit : Nat) (x : σ)
    (t : Store) :
    Step.transcriptOf apply limit (c.bind f).steps x t =
      Step.transcriptOf apply limit (c.steps >>= (·.andThen (.own f))) x t := by
  induction c generalizing limit x t with
  | done results => rfl
  | fail e => rfl
  | call p args resume ih =>
    cases limit with
    | zero => rfl
    | succ limit =>
      show Step.transcript apply (limit + 1) (.suspended p args (.own _)) x t =
        Step.transcript apply (limit + 1) (.suspended p args (.compose (.own resume) (.own f))) x t
      rw [Step.transcript_suspended, Step.transcript_suspended]
      rcases (apply p args).run x t with ⟨⟨_ | results, x'⟩, t'⟩
      · rfl
      · exact congrArg (Transcript.after _) (ih results limit x' t')
  | read next ih => exact ih t limit x t
  | write s next ih => exact ih limit x s

end Computation

/-- Every host drives sequences of steps part by part, whatever their continuations are, and runs
computations by driving their steps. -/
theorem Step.sequences (apply : Value → List Value → HostM σ (List Value)) :
    (∀ (κ : Type) [Resume κ], Step.Sequences κ apply) ∧ Computation.Driven apply := by
  refine ⟨fun κ _ => ?_, ⟨Computation.exists_ends, Computation.transcriptOf_steps_bind⟩⟩
  exact
    { drive_eq := drive_eq_transcript
      length_eq := fun _ _ _ _ => length_transcript
      grows := transcript_prefix
      stops := fun _ _ _ _ _ _ _ _ _ => nil_of_failed_call
      andThen := transcriptOf_andThen
      ends_iff := ends_andThen_iff
      assoc := transcriptOf_andThen_assoc }

/-! ### Calls without end -/

/-- A call that is made again until its results are accepted. -/
structure Insisting where
  procedure : Value
  arguments : List Value

instance : Resume Insisting where
  resume
    | _, [.bool true] => return .returned [.bool true]
    | k, _ => return .suspended k.procedure k.arguments (.own k)

/-- A host that never accepts is asked as often as it allows. -/
theorem Insisting.transcript_eq (k : Insisting) (limit : Nat) (t : Store) :
    (Step.suspended k.procedure k.arguments (.own k)).transcript
        (fun _ _ => return [.bool false]) limit () t =
      ⟨List.replicate limit ⟨k.procedure, k.arguments, .ok [.bool false]⟩, .ok none, (), t⟩ := by
  induction limit with
  | zero => rfl
  | succ limit ih =>
    rw [Step.transcript_suspended]
    exact congrArg (Transcript.after _) ih

end Records
