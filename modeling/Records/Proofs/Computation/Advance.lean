import Records.Proofs.Store.Operation

/-!
# Going on to the next call

How far a sequence gets is told by its parts: the first part is gone through up to its next call,
and the second part is reached only when the first one has an answer. A computation that *only
reads* never replaces the store by another one, neither before its first call nor after any
other.

## Main statements

* `Computation.run_advance_bind`: going on with a sequence.
* `Computation.OnlyReads.advance`: going on with a computation that only reads.
* `Computation.AnswersIn.advance`: what answers have that depend on the stores between calls.
-/

namespace Records

namespace Computation

variable {α β : Type}

lemma run_advance_bind (c : Computation α) (f : α → Computation β) (s : Store) :
    (c.bind f).advance.run s =
      match c.advance.run s with
      | (.ok (.returned a), s') => (f a).advance.run s'
      | (.ok (.suspended p args resume), s') =>
        (.ok (.suspended p args fun results => (resume results).bind f), s')
      | (.error e, s') => (.error e, s') := by
  induction c generalizing s with
  | done a => rfl
  | fail e => rfl
  | call p args resume ih => rfl
  | read next ih => exact ih s s
  | write s' next ih => exact ih s'

lemma run_advance_ofStoreM (m : StoreM α) (s : Store) :
    (ofStoreM m).advance.run s =
      match m.run s with
      | (.ok a, s') => (.ok (.returned a), s')
      | (.error e, s') => (.error e, s') := by
  rw [ofStoreM, advance]
  rw [StoreM.run_bind]
  simp only [StoreM.run_get]
  rcases m.run s with ⟨_ | a, s'⟩ <;> rfl

/-- An operation on the store in front of a computation runs first. -/
lemma advance_ofStoreM_bind (m : StoreM α) (f : α → Computation β) :
    ((ofStoreM m).bind f).advance = m >>= fun a => (f a).advance := by
  have hrun : ∀ s, ((ofStoreM m).bind f).advance.run s =
      (m >>= fun a => (f a).advance).run s := by
    intro s
    rw [run_advance_bind, run_advance_ofStoreM, StoreM.run_bind]
    rcases m.run s with ⟨_ | a, s'⟩ <;> rfl
  exact funext hrun

/-! ### Computations that only read -/

/-- Continued from a store, a computation writes back nothing but the store it finds. -/
def OnlyReads : Computation α → Store → Prop
  | .done _, _ => True
  | .fail _, _ => True
  | .call _ _ resume, _ => ∀ results s, (resume results).OnlyReads s
  | .read next, s => (next s).OnlyReads s
  | .write s' next, s => s' = s ∧ next.OnlyReads s

namespace OnlyReads

lemma bind {c : Computation α} {f : α → Computation β} {s : Store} (h : c.OnlyReads s)
    (hf : ∀ a s, (f a).OnlyReads s) : (c.bind f).OnlyReads s := by
  induction c generalizing s with
  | done a => exact hf a s
  | fail e => trivial
  | call p args resume ih =>
    intro results s'
    exact ih results (h results s')
  | read next ih => exact ih s h
  | write s' next ih =>
    obtain ⟨hs, hnext⟩ := h
    exact ⟨hs, ih hnext⟩

/-- A check does not touch the store. -/
lemma liftM (r : Except Condition α) (s : Store) :
    (ofStoreM (monadLift r : StoreM α)).OnlyReads s := by
  cases r with
  | error e => exact ⟨rfl, trivial⟩
  | ok a => exact ⟨rfl, trivial⟩

/-- Nor does a look at what may be out of bounds. -/
lemma look (r : Except Failure α) (s : Store) :
    (ofStoreM (monadLift r : StoreM α)).OnlyReads s := by
  cases r with
  | error e => exact ⟨rfl, trivial⟩
  | ok a => exact ⟨rfl, trivial⟩

lemma get_bind {f : Store → Computation β} {s : Store} (h : (f s).OnlyReads s) :
    ((ofStoreM (get : StoreM Store)).bind f).OnlyReads s :=
  ⟨rfl, h⟩

/-- Up to the next call the store stays as it is, and what is left only reads again. -/
lemma advance {c : Computation α} {s : Store} (h : c.OnlyReads s) :
    (c.advance.run s).2 = s ∧ ∀ p args resume,
      (c.advance.run s).1 = .ok (.suspended p args resume) →
        ∀ results s', (resume results).OnlyReads s' := by
  induction c generalizing s with
  | done a => exact ⟨rfl, fun p args resume hstep => by cases hstep⟩
  | fail e => exact ⟨rfl, fun p args resume hstep => by cases hstep⟩
  | call p args resume ih =>
    refine ⟨rfl, fun p' args' resume' hstep => ?_⟩
    cases hstep
    exact h
  | read next ih => exact ih s h
  | write s' next ih =>
    obtain ⟨rfl, hnext⟩ := h
    exact ih hnext

end OnlyReads

/-! ### Answers -/

/-- Whatever the results of its calls are, a computation has no answer without the property. -/
def Answers (P : α → Prop) : Computation α → Prop
  | .done a => P a
  | .fail _ => True
  | .call _ _ resume => ∀ results, (resume results).Answers P
  | .read next => ∀ s, (next s).Answers P
  | .write _ next => next.Answers P

namespace Answers

variable {P : α → Prop} {Q : β → Prop}

lemma bind {c : Computation α} {f : α → Computation β} (h : c.Answers P)
    (hf : ∀ a, P a → (f a).Answers Q) : (c.bind f).Answers Q := by
  induction c with
  | done a => exact hf a h
  | fail e => trivial
  | call p args resume ih => exact fun results => ih results (h results)
  | read next ih => exact fun s => ih s (h s)
  | write s next ih => exact ih h

/-- Every computation has some answers or others. -/
lemma trivial (c : Computation α) : c.Answers fun _ => True := by
  induction c with
  | done a => exact True.intro
  | fail e => exact True.intro
  | call p args resume ih => exact ih
  | read next ih => exact ih
  | write s next ih => exact ih

/-- An answer has the property, and so have those that calls are still made for. -/
lemma advance {c : Computation α} (h : c.Answers P) (s : Store) :
    (∀ a, (c.advance.run s).1 = .ok (.returned a) → P a) ∧ ∀ p args resume,
      (c.advance.run s).1 = .ok (.suspended p args resume) →
        ∀ results, (resume results).Answers P := by
  induction c generalizing s with
  | done a =>
    refine ⟨fun a' hstep => ?_, fun p args resume hstep => by cases hstep⟩
    cases hstep
    exact h
  | fail e =>
    constructor
    · intro a hstep
      cases hstep
    · intro p args resume hstep
      cases hstep
  | call p args resume ih =>
    constructor
    · intro a hstep
      cases hstep
    · intro p' args' resume' hstep
      cases hstep
      exact h
  | read next ih => exact ih s (h s) s
  | write s' next ih => exact ih h s'

/-- What follows a computation matters for its answers only. -/
lemma bind_congr {c : Computation α} {f g : α → Computation β} (h : c.Answers P)
    (hfg : ∀ a, P a → f a = g a) : c.bind f = c.bind g := by
  induction c with
  | done a => exact hfg a h
  | fail e => rfl
  | call p args resume ih =>
    rw [call_bind, call_bind]
    exact congrArg (Computation.call p args) (funext fun results => ih results (h results))
  | read next ih =>
    rw [read_bind, read_bind]
    exact congrArg Computation.read (funext fun s => ih s (h s))
  | write s next ih =>
    rw [write_bind, write_bind, ih h]

end Answers

/-! ### Answers in stores of a kind -/

/-- Continued from a store, a computation has no answer without `Q`, whatever the results of its
calls are, as long as the stores that are left by them have `P`. -/
def AnswersIn (P : Store → Prop) (Q : α → Prop) : Computation α → Store → Prop
  | .done a, _ => Q a
  | .fail _, _ => True
  | .call _ _ resume, _ => ∀ results s, P s → (resume results).AnswersIn P Q s
  | .read next, s => (next s).AnswersIn P Q s
  | .write s' next, _ => P s' ∧ next.AnswersIn P Q s'

namespace AnswersIn

variable {P : Store → Prop} {Q : α → Prop} {Q' : β → Prop} {s : Store}

lemma mono {Q₂ : α → Prop} {c : Computation α} (h : c.AnswersIn P Q s)
    (hQ : ∀ a, Q a → Q₂ a) : c.AnswersIn P Q₂ s := by
  induction c generalizing s with
  | done a => exact hQ a h
  | fail e => trivial
  | call p args resume ih => exact fun results s hs => ih results (h results s hs)
  | read next ih => exact ih s h
  | write s' next ih =>
    obtain ⟨hs', hnext⟩ := h
    exact ⟨hs', ih hnext⟩

lemma bind {c : Computation α} {f : α → Computation β} (hs : P s) (h : c.AnswersIn P Q s)
    (hf : ∀ a s, P s → Q a → (f a).AnswersIn P Q' s) : (c.bind f).AnswersIn P Q' s := by
  induction c generalizing s with
  | done a => exact hf a s hs h
  | fail e => trivial
  | call p args resume ih =>
    intro results s' hs'
    exact ih results hs' (h results s' hs')
  | read next ih => exact ih s hs h
  | write s' next ih =>
    obtain ⟨hs', hnext⟩ := h
    exact ⟨hs', ih hs' hnext⟩

lemma get_bind {f : Store → Computation β} (hs : P s) (h : (f s).AnswersIn P Q' s) :
    ((ofStoreM (get : StoreM Store)).bind f).AnswersIn P Q' s :=
  ⟨hs, h⟩

/-- A check has the answer it finds. -/
lemma liftM {r : Except Condition α} (hs : P s) (h : ∀ a, r = .ok a → Q a) :
    (ofStoreM (monadLift r : StoreM α)).AnswersIn P Q s := by
  cases r with
  | error e => exact ⟨hs, trivial⟩
  | ok a => exact ⟨hs, h a rfl⟩

/-- Every computation has some answers or others. -/
lemma trivial (c : Computation α) (s : Store) :
    c.AnswersIn (fun _ => True) (fun _ => True) s := by
  induction c generalizing s with
  | done a => exact True.intro
  | fail e => exact True.intro
  | call p args resume ih => exact fun results s _ => ih results s
  | read next ih => exact ih s s
  | write s₁ next ih => exact ⟨True.intro, ih s₁⟩

/-- An answer has the property, and so have those that calls are still made for. -/
lemma advance {c : Computation α} (h : c.AnswersIn P Q s) :
    (∀ a, (c.advance.run s).1 = .ok (.returned a) → Q a) ∧ ∀ p args resume,
      (c.advance.run s).1 = .ok (.suspended p args resume) →
        ∀ results s', P s' → (resume results).AnswersIn P Q s' := by
  induction c generalizing s with
  | done a =>
    refine ⟨fun a' hstep => ?_, fun p args resume hstep => by cases hstep⟩
    cases hstep
    exact h
  | fail e =>
    constructor
    · intro a hstep
      cases hstep
    · intro p args resume hstep
      cases hstep
  | call p args resume ih =>
    constructor
    · intro a hstep
      cases hstep
    · intro p' args' resume' hstep
      cases hstep
      exact h
  | read next ih => exact ih s h
  | write s' next ih => exact ih h.2

end AnswersIn

end Computation

end Records
