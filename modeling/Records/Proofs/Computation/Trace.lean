import Records.Proofs.Computation.Advance

/-!
# Traces of computations

`Runs R c s calls out s'` says that a computation, started from a store, may make certain calls
in this order and end with an outcome and a store. A host answers a call with any results or
with a failure, and meanwhile the store moves along `R`. A failed call ends the computation.

## Main statements

* `Computation.runs_bind_iff`: the trace of a sequence is made of traces of its parts.
* `Computation.runs_iff_of_advance`: a trace begins with going on to the first call.
* `Computation.Ensures.of_runs`: what a computation guarantees of its own writes holds of its
  trace, if the host keeps to it as well.
-/

namespace Records

/-- A call and what came of it. -/
structure Exchange where
  procedure : Value
  arguments : List Value
  reply : Except Failure (List Value)

namespace Computation

variable {α β : Type} {R : Store → Store → Prop} {s s' : Store} {calls : List Exchange}

/-- The traces of a computation. -/
def Runs (R : Store → Store → Prop) :
    Computation α → Store → List Exchange → Except Failure α → Store → Prop
  | .done a, s, calls, out, s' => calls = [] ∧ out = .ok a ∧ s' = s
  | .fail e, s, calls, out, s' => calls = [] ∧ out = .error e ∧ s' = s
  | .call p args resume, s, calls, out, s' =>
    (∃ e, R s s' ∧ calls = [⟨p, args, .error e⟩] ∧ out = .error e) ∨
      ∃ s₁ results rest, R s s₁ ∧ calls = ⟨p, args, .ok results⟩ :: rest ∧
        (resume results).Runs R s₁ rest out s'
  | .read next, s, calls, out, s' => (next s).Runs R s calls out s'
  | .write s₁ next, _, calls, out, s' => next.Runs R s₁ calls out s'

/-- A sequence either fails in its first part or goes on with the answer of it. -/
lemma runs_bind_iff {c : Computation α} {f : α → Computation β} {out : Except Failure β} :
    (c.bind f).Runs R s calls out s' ↔
      (∃ e, c.Runs R s calls (.error e) s' ∧ out = .error e) ∨
      ∃ a s₁ before after, c.Runs R s before (.ok a) s₁ ∧ (f a).Runs R s₁ after out s' ∧
        calls = before ++ after := by
  induction c generalizing s calls with
  | done a =>
    constructor
    · intro h
      exact .inr ⟨a, s, [], calls, ⟨rfl, rfl, rfl⟩, h, rfl⟩
    · rintro (⟨e, ⟨-, he, -⟩, -⟩ | ⟨a', s₁, before, after, ⟨rfl, ha, rfl⟩, h, rfl⟩)
      · cases he
      · cases ha
        exact h
  | fail e =>
    constructor
    · rintro ⟨rfl, rfl, rfl⟩
      exact .inl ⟨e, ⟨rfl, rfl, rfl⟩, rfl⟩
    · rintro (⟨e', ⟨rfl, he, rfl⟩, rfl⟩ | ⟨a, s₁, before, after, ⟨-, ha, -⟩, -⟩)
      · cases he
        exact ⟨rfl, rfl, rfl⟩
      · cases ha
  | call p args resume ih =>
    constructor
    · rintro (⟨e, hR, rfl, rfl⟩ | ⟨s₁, results, rest, hR, rfl, h⟩)
      · exact .inl ⟨e, .inl ⟨e, hR, rfl, rfl⟩, rfl⟩
      · rcases (ih results).1 h with ⟨e, he, rfl⟩ | ⟨a, s₂, before, after, ha, hf, rfl⟩
        · exact .inl ⟨e, .inr ⟨s₁, results, rest, hR, rfl, he⟩, rfl⟩
        · exact .inr ⟨a, s₂, _ :: before, after, .inr ⟨s₁, results, before, hR, rfl, ha⟩, hf, rfl⟩
    · rintro (⟨e, ⟨e', hR, rfl, he⟩ | ⟨s₁, results, rest, hR, rfl, h⟩, rfl⟩ |
        ⟨a, s₂, before, after, ⟨e, -, -, ha⟩ | ⟨s₁, results, rest, hR, rfl, h⟩, hf, rfl⟩)
      · cases he
        exact .inl ⟨e, hR, rfl, rfl⟩
      · exact .inr ⟨s₁, results, rest, hR, rfl, (ih results).2 (.inl ⟨e, h, rfl⟩)⟩
      · cases ha
      · exact .inr ⟨s₁, results, rest ++ after, hR, rfl,
          (ih results).2 (.inr ⟨a, s₂, rest, after, h, hf, rfl⟩)⟩
  | read next ih => exact ih s
  | write s₁ next ih => exact ih

/-- What is made of the answer of a computation. -/
lemma runs_map_iff {c : Computation α} {f : α → β} {out : Except Failure β} :
    (c.bind fun a => .done (f a)).Runs R s calls out s' ↔
      ∃ result, c.Runs R s calls result s' ∧ out = result.map f := by
  rw [runs_bind_iff]
  constructor
  · rintro (⟨e, he, rfl⟩ | ⟨a, s₁, before, after, ha, ⟨rfl, rfl, rfl⟩, rfl⟩)
    · exact ⟨.error e, he, rfl⟩
    · rw [List.append_nil]
      exact ⟨.ok a, ha, rfl⟩
  · rintro ⟨e | a, hresult, rfl⟩
    · exact .inl ⟨e, hresult, rfl⟩
    · exact .inr ⟨a, s', calls, [], hresult, ⟨rfl, rfl, rfl⟩, (List.append_nil calls).symm⟩

/-- An operation on the store makes no calls. -/
lemma runs_ofStoreM_iff {m : StoreM α} {out : Except Failure α} :
    (ofStoreM m).Runs R s calls out s' ↔ calls = [] ∧ m.run s = (out, s') := by
  simp only [ofStoreM, Runs]
  rcases m.run s with ⟨_ | _, s₁⟩
  all_goals
    constructor
    · rintro ⟨rfl, rfl, rfl⟩
      exact ⟨rfl, rfl⟩
    · rintro ⟨rfl, h⟩
      cases h
      exact ⟨rfl, rfl, rfl⟩

/-- Up to its first call a computation runs on its own. -/
lemma runs_iff_of_advance {c : Computation α} {out : Except Failure α} :
    c.Runs R s calls out s' ↔
      match c.advance.run s with
      | (.error e, s₁) => calls = [] ∧ out = .error e ∧ s' = s₁
      | (.ok step, s₁) => step.toComputation.Runs R s₁ calls out s' := by
  induction c generalizing s with
  | done a => exact Iff.rfl
  | fail e => exact Iff.rfl
  | call p args resume ih => exact Iff.rfl
  | read next ih => exact ih s
  | write s₁ next ih => exact ih

/-- A computation that comes to an answer without a call has it at once. -/
lemma run_advance_of_runs {c : Computation α} {v : α} (h : c.Runs R s [] (.ok v) s') :
    c.advance.run s = (.ok (.returned v), s') := by
  rw [runs_iff_of_advance] at h
  rcases hrun : c.advance.run s with ⟨e | w | ⟨p, args, resume⟩, s₁⟩ <;> rw [hrun] at h
  · cases h.2.1
  · obtain ⟨-, heq, rfl⟩ := h
    cases heq
    rfl
  · rcases h with ⟨_, -, hcalls, -⟩ | ⟨_, _, _, -, hcalls, -⟩
    · cases hcalls
    · cases hcalls

/-- A computation with one call, which is answered while the host leaves the store alone. -/
lemma runs_of_suspended {c : Computation α} {p : Value} {args results : List Value}
    {resume : List Value → Computation α} {a : α} {s₁ : Store}
    (hcall : c.advance.run s = (.ok (.suspended p args resume), s₁)) (hR : R s₁ s₁)
    (hanswer : (resume results).advance.run s₁ = (.ok (.returned a), s')) :
    c.Runs R s [⟨p, args, .ok results⟩] (.ok a) s' := by
  rw [runs_iff_of_advance, hcall]
  refine .inr ⟨s₁, results, [], hR, rfl, ?_⟩
  rw [runs_iff_of_advance, hanswer]
  exact ⟨rfl, rfl, rfl⟩

/-- A computation that only reads leaves to its host what becomes of the store. -/
lemma OnlyReads.of_runs {P : Store → Prop} (hR : ∀ s s', R s s' → P s → P s')
    {c : Computation α} {out : Except Failure α} (h : c.OnlyReads s)
    (hruns : c.Runs R s calls out s') (hP : P s) : P s' := by
  induction c generalizing s calls with
  | done a =>
    obtain ⟨-, -, rfl⟩ := hruns
    exact hP
  | fail e =>
    obtain ⟨-, -, rfl⟩ := hruns
    exact hP
  | call p args resume ih =>
    rcases hruns with ⟨e, hmove, -⟩ | ⟨s₁, results, rest, hmove, -, hrest⟩
    · exact hR s s' hmove hP
    · exact ih results (h results s₁) hrest (hR s s₁ hmove hP)
  | read next ih => exact ih s h hruns hP
  | write s₁ next ih =>
    obtain ⟨rfl, hnext⟩ := h
    exact ih hnext hruns hP

/-- What follows a computation that only reads starts from a store that its host has kept. -/
lemma OnlyReads.runs_bind_congr {P : Store → Prop}
    (hR : ∀ s s', R s s' → P s → P s') {c : Computation α} {f g : α → Computation β}
    (h : c.OnlyReads s) (hP : P s) {out : Except Failure β}
    (hfg : ∀ a s₁ calls, P s₁ → ((f a).Runs R s₁ calls out s' ↔ (g a).Runs R s₁ calls out s')) :
    (c.bind f).Runs R s calls out s' ↔ (c.bind g).Runs R s calls out s' := by
  rw [runs_bind_iff, runs_bind_iff]
  refine or_congr_right ⟨?_, ?_⟩
  · rintro ⟨a, s₁, before, after, ha, hf, rfl⟩
    exact ⟨a, s₁, before, after, ha, (hfg a s₁ after (h.of_runs hR ha hP)).1 hf, rfl⟩
  · rintro ⟨a, s₁, before, after, ha, hg, rfl⟩
    exact ⟨a, s₁, before, after, ha, (hfg a s₁ after (h.of_runs hR ha hP)).2 hg, rfl⟩

/-! ### Guarantees -/

/-- Continued from a store, a computation replaces stores along `R` only, wherever its host moves
them in the calls, and `Q` holds of its answer if there is one. -/
def Ensures (R : Store → Store → Prop) (Q : α → Store → Prop) : Computation α → Store → Prop
  | .done a, s => Q a s
  | .fail _, _ => True
  | .call _ _ resume, _ => ∀ results s, (resume results).Ensures R Q s
  | .read next, s => (next s).Ensures R Q s
  | .write s₁ next, s => R s s₁ ∧ next.Ensures R Q s₁

namespace Ensures

variable {Q : α → Store → Prop} {Q' : β → Store → Prop} {c : Computation α}

lemma bind {f : α → Computation β} (h : c.Ensures R Q s)
    (hf : ∀ a s, Q a s → (f a).Ensures R Q' s) : (c.bind f).Ensures R Q' s := by
  induction c generalizing s with
  | done a => exact hf a s h
  | fail e => trivial
  | call p args resume ih => exact fun results s => ih results (h results s)
  | read next ih => exact ih s h
  | write s₁ next ih =>
    obtain ⟨hR, hnext⟩ := h
    exact ⟨hR, ih hnext⟩

lemma ofStoreM {m : StoreM α} (h : m.Ensures R Q s) :
    (Computation.ofStoreM m).Ensures R Q s := by
  obtain ⟨hR, hQ⟩ := h
  rw [Computation.ofStoreM, Ensures]
  rcases hrun : m.run s with ⟨_ | a, s₁⟩ <;> rw [hrun] at hR hQ
  · exact ⟨hR, trivial⟩
  · exact ⟨hR, hQ a rfl⟩

/-- Up to its first call a computation moves the store along `R`. -/
lemma advance [IsPreorder Store R] (h : c.Ensures R Q s) : R s (c.advance.run s).2 := by
  induction c generalizing s with
  | done a => exact refl_of R s
  | fail e => exact refl_of R s
  | call p args resume ih => exact refl_of R s
  | read next ih => exact ih s h
  | write s₁ next ih =>
    obtain ⟨hR, hnext⟩ := h
    exact trans_of R hR (ih hnext)

/-- What is left of a computation at a call guarantees the same. -/
lemma resume (h : c.Ensures R Q s) {p : Value} {args : List Value}
    {resume : List Value → Computation α}
    (hstep : (c.advance.run s).1 = .ok (.suspended p args resume)) (results : List Value) :
    ∀ s', (resume results).Ensures R Q s' := by
  induction c generalizing s with
  | done a => cases hstep
  | fail e => cases hstep
  | call p' args' resume' ih =>
    cases hstep
    exact h results
  | read next ih => exact ih s h hstep
  | write s₁ next ih => exact ih h.2 hstep

/-- A host that moves the store along `R` itself finds it moved along `R` in the end. -/
theorem of_runs [IsPreorder Store R] {out : Except Failure α} (h : c.Ensures R Q s)
    (hruns : c.Runs R s calls out s') : R s s' ∧ ∀ a, out = .ok a → Q a s' := by
  induction c generalizing s calls with
  | done a =>
    obtain ⟨-, rfl, rfl⟩ := hruns
    refine ⟨refl_of R s', ?_⟩
    rintro _ ⟨⟩
    exact h
  | fail e =>
    obtain ⟨-, rfl, rfl⟩ := hruns
    exact ⟨refl_of R s', nofun⟩
  | call p args resume ih =>
    rcases hruns with ⟨e, hmove, -, rfl⟩ | ⟨s₁, results, rest, hmove, -, hrest⟩
    · exact ⟨hmove, nofun⟩
    · obtain ⟨hR, hQ⟩ := ih results (h results s₁) hrest
      exact ⟨trans_of R hmove hR, hQ⟩
  | read next ih => exact ih s h hruns
  | write s₁ next ih =>
    obtain ⟨hR, hnext⟩ := h
    obtain ⟨hR', hQ⟩ := ih hnext hruns
    exact ⟨trans_of R hR hR', hQ⟩

end Ensures

/-- A computation that only reads replaces no store by another one. -/
lemma OnlyReads.ensures [IsPreorder Store R] {c : Computation α} (h : c.OnlyReads s) :
    c.Ensures R (fun _ _ => True) s := by
  induction c generalizing s with
  | done a => trivial
  | fail e => trivial
  | call p args resume ih => exact fun results s => ih results (h results s)
  | read next ih => exact ih s h
  | write s₁ next ih =>
    obtain ⟨rfl, hnext⟩ := h
    exact ⟨refl_of R s₁, ih hnext⟩

end Computation

end Records
