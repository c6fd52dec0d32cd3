import Records.Proofs.Computation.Trace

/-!
# Relying on a host

Between its calls a computation relies on its host: the host moves the store along a relation, and
the results that it gives back are of a kind. What holds of the answers of a computation may rest
on this. On the other side, a computation hands on the failures of its calls, and has failures of
its own.

## Main definitions

* `Computation.Relies R V Q`: with the host moving the store along `R` and giving back results
  that have `V`, the answers have `Q`.
* `Computation.Raises P`: the failures that are not those of a call have `P`.

## Main statements

* `Computation.Relies.advance`: what is left of a computation at a call relies on the same.
* `Computation.Raises.of_runs`: a failure without `P` is that of a call.
-/

namespace Records

namespace Computation

variable {α β : Type} {s : Store}

/-! ### Results of a kind -/

/-- Continued from a store, a computation replaces stores along `R` only and has no answer without
`Q`, as long as its host moves the store along `R` in the calls and gives back results that have
`V` in the store they come with. -/
def Relies (R : Store → Store → Prop) (V : Store → Value → Prop) (Q : α → Store → Prop) :
    Computation α → Store → Prop
  | .done a, s => Q a s
  | .fail _, _ => True
  | .call _ _ resume, s => ∀ results s', R s s' → (∀ v ∈ results, V s' v) →
    (resume results).Relies R V Q s'
  | .read next, s => (next s).Relies R V Q s
  | .write s' next, s => R s s' ∧ next.Relies R V Q s'

namespace Relies

variable {R : Store → Store → Prop} {V : Store → Value → Prop} {Q : α → Store → Prop}
  {Q' : β → Store → Prop}

lemma mono {Q₂ : α → Store → Prop} {c : Computation α} (h : c.Relies R V Q s)
    (hQ : ∀ a s, Q a s → Q₂ a s) : c.Relies R V Q₂ s := by
  induction c generalizing s with
  | done a => exact hQ a s h
  | fail e => trivial
  | call p args resume ih =>
    exact fun results s' hs' hresults => ih results (h results s' hs' hresults)
  | read next ih => exact ih s h
  | write s₁ next ih =>
    obtain ⟨hmove, hnext⟩ := h
    exact ⟨hmove, ih hnext⟩

/-- An answer has the property, and so have those that calls are still made for. -/
lemma advance {c : Computation α} (h : c.Relies R V Q s) :
    (∀ a, (c.advance.run s).1 = .ok (.returned a) → Q a (c.advance.run s).2) ∧
      ∀ p args resume, (c.advance.run s).1 = .ok (.suspended p args resume) →
        ∀ results s', R (c.advance.run s).2 s' → (∀ v ∈ results, V s' v) →
          (resume results).Relies R V Q s' := by
  induction c generalizing s with
  | done a =>
    refine ⟨fun a' hstep => ?_, fun p args resume hstep => by cases hstep⟩
    cases hstep
    exact h
  | fail e =>
    constructor
    · intro a hstep
      cases hstep
    · intro p args resume hstep
      cases hstep
  | call p args resume ih =>
    constructor
    · intro a hstep
      cases hstep
    · intro p' args' resume' hstep
      cases hstep
      exact h
  | read next ih => exact ih s h
  | write s₁ next ih => exact ih h.2

variable [IsPreorder Store R]

lemma bind {c : Computation α} {f : α → Computation β} (h : c.Relies R V Q s)
    (hf : ∀ a s', R s s' → Q a s' → (f a).Relies R V Q' s') : (c.bind f).Relies R V Q' s := by
  induction c generalizing s with
  | done a => exact hf a s (refl_of R s) h
  | fail e => trivial
  | call p args resume ih =>
    intro results s₁ hmove hresults
    exact ih results (h results s₁ hmove hresults) fun a s' hs' => hf a s' (trans_of R hmove hs')
  | read next ih => exact ih s h hf
  | write s₁ next ih =>
    obtain ⟨hmove, hnext⟩ := h
    exact ⟨hmove, ih hnext fun a s' hs' => hf a s' (trans_of R hmove hs')⟩

lemma get_bind {f : Store → Computation β} (h : (f s).Relies R V Q' s) :
    ((ofStoreM (get : StoreM Store)).bind f).Relies R V Q' s :=
  ⟨refl_of R s, h⟩

/-- A check has the answer it finds. -/
lemma liftM {r : Except Condition α} (h : ∀ a, r = .ok a → Q a s) :
    (ofStoreM (monadLift r : StoreM α)).Relies R V Q s := by
  cases r with
  | error e => exact ⟨refl_of R s, trivial⟩
  | ok a => exact ⟨refl_of R s, h a rfl⟩

end Relies

/-! ### Failures of its own -/

/-- Continued from a store, a computation fails by itself with `P` only, whatever comes of its
calls. -/
def Raises (P : Failure → Prop) : Computation α → Store → Prop
  | .done _, _ => True
  | .fail e, _ => P e
  | .call _ _ resume, _ => ∀ results s, (resume results).Raises P s
  | .read next, s => (next s).Raises P s
  | .write s' next, _ => next.Raises P s'

namespace Raises

variable {P : Failure → Prop}

lemma get_bind {f : Store → Computation β} (h : (f s).Raises P s) :
    ((ofStoreM (get : StoreM Store)).bind f).Raises P s := h

lemma raise {c : Condition} (h : P (.condition c)) :
    (ofStoreM (Records.raise c : StoreM α)).Raises P s := h

/-- A check fails with the condition it finds. -/
lemma liftM_bind {r : Except Condition α} {f : α → Computation β}
    (hr : ∀ c, r = .error c → P (.condition c)) (hf : ∀ a, r = .ok a → (f a).Raises P s) :
    ((ofStoreM (monadLift r : StoreM α)).bind f).Raises P s := by
  cases r with
  | error c => exact hr c rfl
  | ok a => exact hf a rfl

/-- A look-up that fails, fails by itself. -/
lemma look_bind {r : Except Failure α} {f : α → Computation β} (hr : ∀ e, r = .error e → P e)
    (hf : ∀ a, r = .ok a → (f a).Raises P s) :
    ((ofStoreM (monadLift r : StoreM α)).bind f).Raises P s := by
  cases r with
  | error e => exact hr e rfl
  | ok a => exact hf a rfl

lemma liftM {r : Except Condition α} (hr : ∀ c, r = .error c → P (.condition c)) :
    (ofStoreM (monadLift r : StoreM α)).Raises P s := by
  cases r with
  | error c => exact hr c rfl
  | ok a => trivial

/-- An operation on the store fails by itself, and so does what follows its answer. -/
lemma ofStoreM_bind {m : StoreM α} {f : α → Computation β}
    (he : ∀ e, (m.run s).1 = .error e → P e)
    (hf : ∀ a, (m.run s).1 = .ok a → (f a).Raises P (m.run s).2) :
    ((ofStoreM m).bind f).Raises P s := by
  rw [ofStoreM, read_bind, Raises]
  rcases hm : m.run s with ⟨e | a, s'⟩ <;> rw [hm] at he hf
  · exact he e rfl
  · exact hf a rfl

/-- What follows may begin in any store, with any answer. -/
lemma bind {c : Computation α} {f : α → Computation β} (h : c.Raises P s)
    (hf : ∀ a s, (f a).Raises P s) : (c.bind f).Raises P s := by
  induction c generalizing s with
  | done a => exact hf a s
  | fail e => exact h
  | call p args resume ih => exact fun results s => ih results (h results s)
  | read next ih => exact ih s h
  | write s₁ next ih => exact ih h

/-- Going on to the next call fails by itself only. -/
lemma advance {c : Computation α} {e : Failure} (h : c.Raises P s)
    (hrun : (c.advance.run s).1 = .error e) : P e := by
  induction c generalizing s with
  | done a => cases hrun
  | fail e' =>
    cases hrun
    exact h
  | call p args resume ih => cases hrun
  | read next ih => exact ih s h hrun
  | write s₁ next ih => exact ih h hrun

/-- A failure is one of its own, or that of a call. -/
theorem of_runs {R : Store → Store → Prop} {c : Computation α} {calls : List Exchange}
    {e : Failure} {s' : Store} (h : c.Raises P s) (hruns : c.Runs R s calls (.error e) s') :
    P e ∨ ∃ x ∈ calls, x.reply = .error e := by
  induction c generalizing s calls with
  | done a => cases hruns.2.1
  | fail e' =>
    obtain ⟨-, heq, -⟩ := hruns
    cases heq
    exact .inl h
  | call p args resume ih =>
    rcases hruns with ⟨e', -, rfl, heq⟩ | ⟨s₁, results, rest, -, rfl, hrest⟩
    · cases heq
      exact .inr ⟨_, List.mem_singleton_self _, rfl⟩
    · refine (ih results (h results s₁) hrest).imp_right ?_
      rintro ⟨x, hx, hreply⟩
      exact ⟨x, List.mem_cons_of_mem _ hx, hreply⟩
  | read next ih => exact ih s h hruns
  | write s₁ next ih => exact ih h hruns

end Raises

end Computation

end Records
