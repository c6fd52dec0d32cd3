import Records.Application
import Records.Proofs.Registry.Guarantee

/-!
# What applications do to a store

Up to its calls, an application changes a store in four ways only: it counts that a procedure of
the host runs, it lets this procedure hand its arguments on, it makes an instance, and it writes a
field that is not immutable. Everything else it does is looking.

## Main definitions

* `AppliesAlong R nested`: these four ways move a store along `R`.

## Main statements

* `AppliesAlong.along_apply`: then every application moves it along `R`.
-/

namespace Records

/-! ### Computations that move a store along a relation -/

/-- Wherever it starts, a computation replaces stores along a relation. -/
abbrev Computation.Along {α : Type} (R : Store → Store → Prop) (c : Computation α) : Prop :=
  ∀ s, c.Ensures R (fun _ _ => True) s

variable {R : Store → Store → Prop} {α β : Type}

namespace Computation.Along

lemma pure (a : α) : (Pure.pure a : Computation α).Along R := fun _ => trivial

/-- The results of a call are the answer. -/
lemma apply (v : Value) (args : List Value) : (Computation.apply v args).Along R :=
  fun _ _ _ => trivial

lemma ofStoreM {m : StoreM α} (h : m.Along R) : (Computation.ofStoreM m).Along R :=
  fun s => Computation.Ensures.ofStoreM (h s)

lemma bind {c : Computation α} {f : α → Computation β} (h : c.Along R)
    (hf : ∀ a, (f a).Along R) : (c.bind f).Along R :=
  fun s => (h s).bind fun a s _ => hf a s

variable [IsPreorder Store R]

lemma get_bind {f : Store → Computation β} (hf : ∀ s, (f s).Along R) :
    ((Computation.ofStoreM (get : StoreM Store)).bind f).Along R :=
  bind (ofStoreM fun s => (StoreM.ensures_get s).mono fun _ _ _ _ => trivial) hf

/-- A check does not touch the store. -/
lemma liftM (r : Except Condition α) :
    (Computation.ofStoreM (monadLift r : StoreM α)).Along R :=
  fun s => (Computation.OnlyReads.liftM r s).ensures

/-- Nor does a look at what may be out of bounds. -/
lemma look (r : Except Failure α) :
    (Computation.ofStoreM (monadLift r : StoreM α)).Along R :=
  fun s => (Computation.OnlyReads.look r s).ensures

lemma raise (c : Condition) : (Computation.ofStoreM (Records.raise c : StoreM α)).Along R :=
  ofStoreM (StoreM.Along.raise c)

end Computation.Along

/-! ### Applications -/

lemma onlyReads_guardArguments (t : RecordType) (args : List Value) (s : Store) :
    (guardArguments t args).OnlyReads s := by
  unfold guardArguments
  cases t.guard with
  | none => trivial
  | some guard =>
    intro results s
    show Computation.OnlyReads (if _ then _ else if _ then _ else _) s
    split
    · trivial
    · split
      · trivial
      · exact ⟨rfl, trivial⟩

/-- Until its instance is made a constructor only looks at the store. -/
lemma onlyReads_buildStorage (types : List RecordType) (args : List Value) (s : Store) :
    (buildStorage types args).OnlyReads s := by
  induction types generalizing args s with
  | nil => trivial
  | cons t supers ih =>
    refine (onlyReads_guardArguments t args s).bind fun args s => ?_
    show Computation.OnlyReads (if _ then _ else _) s
    split
    · trivial
    · exact (ih _ s).bind fun _ _ => trivial

variable [IsPreorder Store R]

/-- A record refuses arguments in its own name, or in words of its type that it calls for. -/
lemma along_refuseArity (i : InstanceId) (expected : Arity) (given : Nat) :
    (refuseArity i expected given).Along R := by
  refine .get_bind fun s => ?_
  dsimp only
  split
  · exact .raise _
  · refine .bind (.apply _ _) fun results => .bind (.liftM _) fun v => ?_
    exact .get_bind fun s => .raise _

lemma along_callRecord (i : InstanceId) (args : List Value) : (callRecord i args).Along R := by
  refine .get_bind fun s => ?_
  split
  · exact .raise _
  · refine .bind (.look _) fun procedure => ?_
    split
    · exact .apply _ _
    · split
      · exact .apply _ _
      · exact along_refuseArity _ _ _
  · dsimp only
    split
    · exact .apply _ _
    · split
      · exact .apply _ _
      · exact along_refuseArity _ _ _

/-- What an application does to a store by itself moves it along `R`. -/
structure AppliesAlong (R : Store → Store → Prop)
    (nested : Value → List Value → StoreM (List Value)) : Prop where
  counted : ∀ s natives, R s { s with natives }
  nested : ∀ v args, (nested v args).Along R
  made : ∀ t values, (newInstance t values).Along R
  mutated : ∀ t v field new, (mutate t v field new).Along R

namespace AppliesAlong

variable {nested : Value → List Value → StoreM (List Value)}
  (h : AppliesAlong R nested)

include h

lemma along_runNative (id : NativeId) (args : List Value) :
    (runNative nested id args).Along R := by
  intro s
  have hcounted : ∀ natives, StoreM.Ensures R (fun _ _ => True)
      (set { s with natives } : StoreM PUnit) s :=
    fun natives => ⟨h.counted s natives, fun _ _ => trivial⟩
  refine StoreM.ensures_get_bind ((hcounted _).bind fun _ s₁ _ _ => ?_)
  split
  · rename_i f hbody
    cases f ⟨(s.native id).name, args, (s.native id).calls, s.display⟩ with
    | error e => exact StoreM.ensures_raise e s₁
    | ok results => exact StoreM.ensures_pure trivial
  · exact h.nested _ args s₁

lemma along_construct (t : TypeId) (args : List Value) : (construct t args).Along R := by
  refine .get_bind fun s => ?_
  show Computation.Along R (if args.length = s.constructorArity t then _ else _)
  split
  · refine .bind (fun s' => (onlyReads_buildStorage _ args s').ensures) fun storage => ?_
    exact .bind (.ofStoreM (h.made t storage)) fun i => .pure _
  · exact .raise _

omit [IsPreorder Store R] in
lemma along_mutate (t : TypeId) (v : Value) (field : Nat) (new : Value) :
    (do mutate t v field new; return [.void] : Computation (List Value)).Along R :=
  .bind (.ofStoreM (h.mutated t v field new)) fun _ => .pure _

lemma along_applyProcedure (p : Procedure) (args : List Value) :
    (applyProcedure nested p args).Along R := by
  refine .get_bind fun s => ?_
  split
  · exact .raise _
  · split
    · exact .ofStoreM (h.along_runNative _ _)
    · exact .bind (h.along_construct _ _) fun _ => .pure _
    · exact .pure _
    · exact .bind (.liftM _) fun _ => .bind (.look _) fun _ => .pure _
    · exact .bind (.liftM _) fun _ => h.along_mutate _ _ _ _
    · exact .bind (.look _) fun _ => .pure _
    · exact h.along_mutate _ _ _ _
    · exact .pure _
    · exact .bind (.liftM _) fun _ => .pure _
    · exact .raise _

lemma along_apply (v : Value) (args : List Value) : (v.apply nested args).Along R := by
  cases v
  case procedure p => exact h.along_applyProcedure p args
  case record i => exact along_callRecord i args
  all_goals exact .get_bind fun s => .raise _

end AppliesAlong

end Records
