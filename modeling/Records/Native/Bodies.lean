import Records.Native.Basic
import Records.Value.Word

/-!
# A vocabulary of procedure bodies

Small procedures to drive guards, derivations and designations with.
-/

namespace Records.Body

/-- Run `f` on the first argument, which has to be there. -/
def onFirst (call : Invocation) (f : Value → Except Condition (List Value)) :
    Except Condition (List Value) :=
  match call.arguments with
  | [] => .error (.raised "no argument")
  | v :: _ => f v

/-- All arguments, as that many results. -/
def arguments : Body := .compute fun call => .ok call.arguments

/-- One list of the arguments. -/
def gather : Body := .compute fun call => .ok [.list call.arguments]

/-- The first argument. -/
def first : Body := .compute fun call => onFirst call fun v => .ok [v]

/-- The last argument. -/
def last : Body := .compute fun call =>
  onFirst call fun v => .ok [call.arguments.getLastD v]

/-- All arguments but the last, as that many results. -/
def butLast : Body := .compute fun call => onFirst call fun _ => .ok call.arguments.dropLast

/-- One list that holds the first argument. -/
def wrap : Body := .compute fun call => onFirst call fun v => .ok [.list [v]]

/-- The number of arguments. -/
def count : Body := .compute fun call => .ok [.ofNat call.arguments.length]

/-- The printed form of the first argument, as a string. -/
def display : Body := .compute fun call =>
  onFirst call fun v => .ok [.string (call.display v)]

/-- Run `f` on the first argument, which has to be a fixnum. -/
def onFixnum (call : Invocation) (f : Int64 → Except Condition (List Value)) :
    Except Condition (List Value) :=
  onFirst call fun v =>
    match v with
    | .fixnum n => f n
    | _ => .error (.contractViolation call.name "fixnum?" (call.display v))

/-- A number that has to fit a fixnum. -/
def fit (n : Int) : Except Condition Value :=
  match word? n with
  | some w => .ok (.fixnum w)
  | none => .error (.raised "overflow")

/-- The first argument, which has to be a fixnum. -/
def fixnum : Body := .compute fun call => onFixnum call fun n => .ok [.fixnum n]

/-- The first argument and `n` together. -/
def add (n : Int64) : Body := .compute fun call =>
  onFixnum call fun m => do return [← fit (m.toInt + n.toInt)]

/-- All arguments but the last, fixnums multiplied by `n`. -/
def scale (n : Int64) : Body := .compute fun call =>
  onFirst call fun _ =>
    call.arguments.dropLast.mapM fun v =>
      match v with
      | .fixnum m => fit (m.toInt * n.toInt)
      | _ => .ok v

/-- One list: `v`, then the arguments. -/
def tag (v : Value) : Body := .compute fun call => .ok [.list (v :: call.arguments)]

/-- Element `i` of the second argument, which has to be a list that has one. -/
def info (i : Nat) : Body := .compute fun call =>
  match call.arguments[1]?.bind Value.list? |>.bind (·[i]?) with
  | some v => .ok [v]
  | none => .error (.raised "no info")

/-- These values, whatever the arguments. -/
def const (values : List Value) : Body := .compute fun _ => .ok values

/-- The values one after the other, one at each call, the last one from then on. -/
def sequence (values : List Value) : Body := .compute fun call =>
  .ok (values[min call.calls (values.length - 1)]?).toList

/-- Raise a condition of the host. -/
def raise (message : String) : Body := .compute fun _ => .error (.raised message)

/-- Refuse the first argument, as not being what is expected. -/
def contract (expected : String) : Body := .compute fun call =>
  onFirst call fun v => .error (.contractViolation call.name expected (call.display v))

end Records.Body
