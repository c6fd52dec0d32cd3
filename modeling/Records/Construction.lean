import Records.Computation
import Records.Instance.Access

/-!
# Construction

A constructor takes the init fields of the whole chain, the root's first. Each type's guard sees
the arguments that are left for its part of the chain, followed by the name of the type, and may
replace them; the most derived guard runs first. What remains of the arguments at the root are
its own fields; on the way back every type appends its own init fields and its auto values,
which is the order in which an instance stores them. Where the arguments are fewer than a type has
init fields, because the fields of its chain are too many to be counted, the program stops.
-/

namespace Records

/-- The arguments of a constructor as a guard leaves them. -/
def guardArguments (t : RecordType) (args : List Value) : Computation (List Value) :=
  match t.guard with
  | none => return args
  | some guard => do
    let results ← Computation.apply guard (args ++ [.symbol t.name])
    if results.isEmpty then
      return args
    else if results.length = args.length then
      return results
    else
      raise <| .resultCount (t.name.name ++ " guard") args.length results.length

/-- The contents of an instance of a chain of types, most derived first. -/
def buildStorage : List RecordType → List Value → Computation (List Value)
  | [], _ => return []
  | t :: supers, args => do
    let args ← guardArguments t args
    if args.length < t.initCount then
      .fail .outOfBounds
    else
      let inheritedCount := args.length - t.initCount
      let inherited ← buildStorage supers (args.take inheritedCount)
      return inherited ++ args.drop inheritedCount ++ t.autoValues

/-- Make an instance from constructor arguments. -/
def construct (t : TypeId) (args : List Value) : Computation Value := do
  let s ← get
  let expected := s.constructorArity t
  if args.length = expected then
    let storage ← buildStorage (s.chain t) args
    return .record (← newInstance t storage)
  else
    raise <| .arityMismatch (s.type t).constructorName.name (toString expected) args.length

end Records
