import Records.Arity
import Records.Condition
import Records.Text.Quoted
import Records.Value.Basic

/-!
# Procedures of the host

A native procedure stands for code outside the record system. It either computes its results
from what it is given, or hands its arguments to another value.
-/

namespace Records

/-- What a native procedure is given when it runs. -/
structure Invocation where
  /-- The name of the procedure. -/
  name : String
  arguments : List Value
  /-- How often the procedure ran before. -/
  calls : Nat
  /-- The printed form of a value at this moment. -/
  display : Value → String

/-- How a native procedure gets its results. -/
inductive Body where
  | compute (f : Invocation → Except Condition (List Value))
  | delegate (procedure : Value)

/-- A procedure of the host. -/
structure Native where
  name : String
  arity : Arity
  body : Body
  calls : Nat := 0

instance : Inhabited Native := ⟨⟨"", .atLeast 0, .compute fun _ => .ok [], 0⟩⟩

/-- The procedure with its parts, for inspection. -/
def Native.describe (p : Native) : String :=
  let max := match p.arity.max with
    | some max => s!"Some({max})"
    | none => "None"
  s!"NativeProcedure \x7b name: {quoteText p.name}, arity: Arity \x7b min: {p.arity.min}, " ++
    s!"max: {max} \x7d, .. \x7d"

end Records
