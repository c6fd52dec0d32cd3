import Records.Host
import Records.Proofs.Application.Guarantee
import Records.Proofs.Store.Built

/-!
# Sequences of applications

A store is reached from another one by applying values to arguments, in any order and
interleaved in any way: an application goes on to its next call, waits there for as long as it
takes, and is resumed with any results. What a procedure of the host does by itself is a sequence
of applications again. Instances may be made in between, and anything may happen that leaves the
instances alone.

## Main definitions

* `Remains nested c`: a computation is what is left of an application.
* `Store.Reaches`: a store is reached from another one by applications.

## Main statements

* `Store.reaches_run`: a host that makes its calls by applications only applies values.
* `Store.reaches_direct`: so does the host that applies values in place.
* `Store.Reaches.along`: a relation that holds along every step holds along the sequence.
-/

namespace Records

/-- What is left of an application, from its beginning or from one of its calls on. -/
inductive Remains (nested : Value → List Value → StoreM (List Value)) :
    Computation (List Value) → Prop where
  | start (v : Value) (args : List Value) : Remains nested (v.apply nested args)
  | resume {c : Computation (List Value)} {s : Store} {p : Value} {args : List Value}
      {resume : List Value → Computation (List Value)} (h : Remains nested c)
      (hstep : (c.advance.run s).1 = .ok (.suspended p args resume)) (results : List Value) :
      Remains nested (resume results)

namespace Store

/-- A store is reached from another one without writing to an instance but by applications. -/
inductive Reaches : Store → Store → Prop where
  | refl (s : Store) : Reaches s s
  | trans {s s' s'' : Store} (h : Reaches s s') (h' : Reaches s' s'') : Reaches s s''
  /-- An application goes on to its next call, or to its end. -/
  | advance {nested : Value → List Value → StoreM (List Value)} {c : Computation (List Value)}
      (hnested : ∀ v args s, Reaches s ((nested v args).run s).2) (hc : Remains nested c)
      (s : Store) : Reaches s (c.advance.run s).2
  /-- An instance is made. -/
  | make (t : TypeId) (values : List Value) (s : Store) :
      Reaches s ((newInstance t values).run s).2
  /-- Types and properties are added or resolved, or anything else but instances changes. -/
  | other {s s' : Store} (hbuilt : s'.Built) (hevolves : s.Evolves s')
      (hinstances : s'.instances = s.instances) : Reaches s s'

variable {nested host : Value → List Value → StoreM (List Value)}

/-- An application is run in one go by a host that makes its calls by applications. -/
theorem reaches_run (hnested : ∀ v args s, Reaches s ((nested v args).run s).2)
    (hhost : ∀ v args s, Reaches s ((host v args).run s).2) {c : Computation (List Value)}
    (hc : Remains nested c) (s : Store) : Reaches s ((c.run host).run s).2 := by
  -- the part up to the first call is a step; the induction is on what comes after the call
  have hrun : ∀ s₀ s, Reaches s₀ (c.advance.run s).2 →
      (∀ p args resume, (c.advance.run s).1 = .ok (.suspended p args resume) →
        ∀ results, Remains nested (resume results)) → Reaches s₀ ((c.run host).run s).2 := by
    clear hc s
    induction c with
    | done a => exact fun _ _ h _ => h
    | fail e => exact fun _ _ h _ => h
    | call p args resume ih =>
      intro s₀ s h hleft
      have hcall := h.trans (hhost p args s)
      rw [Computation.run_call, StoreM.run_bind]
      rcases hreply : (host p args).run s with ⟨e | results, s₁⟩ <;> rw [hreply] at hcall
      · exact hcall
      · have hresume := hleft p args resume rfl results
        exact hcall.trans <| ih results s₁ s₁ (.advance hnested hresume s₁)
          fun _ _ _ hstep => hresume.resume hstep
    | read next ih => exact fun s₀ s => ih s s₀ s
    | write s₁ next ih => exact fun s₀ s => ih s₀ s₁
  exact hrun s s (.advance hnested hc s) fun _ _ _ hstep => hc.resume hstep

/-- Applying a value in place is a sequence of applications, however deep they nest. -/
theorem reaches_direct (depth : Nat) (v : Value) (args : List Value) (s : Store) :
    Reaches s ((direct depth v args).run s).2 := by
  induction depth generalizing v args s with
  | zero => exact .refl s
  | succ depth ih => exact reaches_run ih ih (.start v args) s

/-- A relation that holds along all that is done by applications themselves, along making an
instance, and along everything that leaves instances alone, holds along a sequence. -/
theorem Reaches.along {R : Store → Store → Prop} [IsPreorder Store R]
    (hR : ∀ nested, (∀ v args, (nested v args).Along R) → AppliesAlong R nested)
    (hother : ∀ s s' : Store, s'.Built → s.Evolves s' → s'.instances = s.instances → R s s')
    {s s' : Store} (h : s.Reaches s') : R s s' := by
  induction h with
  | refl s => exact refl_of R s
  | trans _ _ ih ih' => exact trans_of R ih ih'
  | @advance nested c hnested hc s ih =>
    have happly := hR nested fun v args s => ⟨ih v args s, fun _ _ => trivial⟩
    have halong : c.Along R := by
      clear ih
      induction hc with
      | start v args => exact happly.along_apply v args
      | resume _ hstep results ih => exact (ih _).resume hstep results
    exact (halong s).advance
  | make t values s =>
    exact ((hR (fun _ _ => pure []) fun _ _ => .pure _).made t values s).1
  | other hbuilt hevolves hinstances => exact hother _ _ hbuilt hevolves hinstances

end Store

end Records
