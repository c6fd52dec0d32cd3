import Records.Application
import Records.Continuation

/-!
# Hosts

A host makes the calls of a computation, or those of a step and of the steps that it leads to. The
direct host applies the called value in place and runs what that comes to. The tracing host does
the same and notes every call it makes.

Applications nest as deep as the values at hand make them; a bound on the depth stands in for
the room a host has, and reaching it is a failure of its own kind.
-/

namespace Records

/-- Apply a value in place, with applications nested at most `depth` deep. -/
def direct : (depth : Nat) → Value → List Value → StoreM (List Value)
  | 0, _, _ => throw .exhausted
  | depth + 1, v, args => (v.apply (direct depth) args).run (direct depth)

/-! ### Hosts with a state of their own -/

/-- Operations on a store by a host that keeps a state of its own. Like the store, the state
survives a failure. -/
abbrev HostM (σ : Type) := ExceptT Failure (StateT σ (StateM Store))

instance {σ : Type} : MonadLift StoreM (HostM σ) where
  monadLift m := ExceptT.mk (StateT.lift m.run)

/-- Drive a step until it returns, with `apply` making its calls. Where it has not returned after
`limit` calls, there are no results. -/
def Step.drive {σ κ : Type} [Resume κ] (apply : Value → List Value → HostM σ (List Value)) :
    (limit : Nat) → Step (List Value) (Continuation κ) → HostM σ (Option (List Value))
  | _, .returned results => return some results
  | 0, .suspended _ _ _ => return none
  | limit + 1, .suspended p args k => do
    let results ← apply p args
    let s ← liftM (k.resume results)
    s.drive apply limit

/-- Operations on a store that keep a trace of calls. -/
abbrev TraceM := HostM (Array String)

/-- Note a call. -/
def note (entry : String) : TraceM Unit := modifyThe (Array String) (·.push entry)

/-- Note a call and apply the value in place, with applications nested at most `depth` deep. -/
def traced : (depth : Nat) → Value → List Value → TraceM (List Value)
  | 0, _, _ => throw .exhausted
  | depth + 1, v, args => do
    let s ← liftM (get : StoreM Store)
    note (s.display v ++ " " ++ s.display (.list args))
    (v.apply (direct depth) args).run (traced depth)

/-- How deep applications nest unless said otherwise. -/
def defaultDepth : Nat := 10000

end Records
