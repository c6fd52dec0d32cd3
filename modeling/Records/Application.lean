import Records.Capability
import Records.Construction
import Records.Property.Implication

/-!
# Application

A procedure is applied once its arity accepts the arguments. An applicable record hands its
arguments to the procedure its type designates: to a literal procedure behind the record itself,
to the content of a field as they are. If the arity of that procedure is known and refuses
them, the record refuses them in its own name; a type may word the expected arity itself.
-/

namespace Records

namespace Store

/-! ### Arity -/

/-- The arity of a procedure. -/
def procedureArity (s : Store) : Procedure → Arity
  | .native id => (s.native id).arity
  | .constructor t => .exactly (s.constructorArity t)
  | .predicate _ | .fieldAccessor .. | .propertyPredicate _ | .propertyAccessor _ => .exactly 1
  | .accessor _ | .fieldMutator .. => .exactly 2
  | .mutator _ => .exactly 3

/-- The arity of a value, following designations within a number of steps. -/
def arityWithin (s : Store) : Nat → Value → Option Arity
  | _, .procedure p => some (s.procedureArity p)
  | n + 1, .record i =>
    match (s.typeOf i).procedure? with
    | none => none
    | some ⟨.procedure v, _⟩ => (s.arityWithin n v).map (·.dropFirst)
    | some ⟨.field index, source⟩ =>
      match s.read i source index with
      | .ok v => s.arityWithin n v
      | .error _ => none
  | _, _ => none

/-- The arity of a value, if it is known. No chain of distinct records is longer than the number
of records. -/
def arity? (s : Store) (v : Value) : Option Arity := s.arityWithin (s.instances.size + 1) v

/-- Whether a value can be applied. -/
def isCallable (s : Store) : Value → Bool
  | .procedure _ => true
  | .record i => (s.typeOf i).procedure?.isSome
  | _ => false

/-! ### Designations -/

/-- The designation a value stands for. -/
def designation (s : Store) (v : Value) : Except Condition Designation :=
  match v, v.index? with
  | .fixnum _, some index => .ok (.field index)
  | .fixnum _, none =>
    .error (.contractViolation "prop:procedure" "field index" (s.display v))
  | v, _ =>
    if s.isCallable v then .ok (.procedure v)
    else .error <| .contractViolation "prop:procedure"
      "(or/c procedure? exact-nonnegative-integer?)" (s.display v)

/-- An argument that has to be a field index. -/
def fieldIndex (s : Store) (p : Procedure) (v : Value) : Except Condition Nat :=
  match v.index? with
  | some index => .ok index
  | none => .error <|
    .contractViolation (s.procedureName p) "exact-nonnegative-integer?" (s.display v)

/-- The refusal of a number of arguments by a procedure. -/
def arityError (s : Store) (p : Procedure) (given : Nat) : Condition :=
  .arityMismatch (s.procedureName p) (s.procedureArity p).text given

/-- The value that words the arity the records of a type expect. -/
def arityRenderer? (s : Store) (t : RecordType) : Option Value :=
  (t.properties.find? fun b => s.isA b.1 Property.arityString).map (·.2)

end Store

/-! ### Applying -/

/-- Run a procedure of the host; `nested` applies the value it may hand its arguments to. -/
def runNative (nested : Value → List Value → StoreM (List Value)) (id : NativeId)
    (args : List Value) : StoreM (List Value) := do
  let s ← get
  let p := s.native id
  set { s with natives := s.natives.modify id.index fun p => { p with calls := p.calls + 1 } }
  match p.body with
  | .compute f => f ⟨p.name, args, p.calls, s.display⟩
  | .delegate v => nested v args

/-- Apply a procedure. -/
def applyProcedure (nested : Value → List Value → StoreM (List Value)) (p : Procedure)
    (args : List Value) : Computation (List Value) := do
  let s ← get
  if !(s.procedureArity p).accepts args.length then
    raise (s.arityError p args.length)
  else
    match p, args with
    | .native id, args => runNative nested id args
    | .constructor t, args => return [← construct t args]
    | .predicate t, [v] => return [.bool (s.test t v)]
    | .accessor t, [v, field] =>
      let field ← s.fieldIndex p field
      return [← s.access t v field]
    | .mutator t, [v, field, new] =>
      let field ← s.fieldIndex p field
      mutate t v field new
      return [.void]
    | .fieldAccessor t field _, [v] => return [← s.access t v field]
    | .fieldMutator t field _, [v, new] =>
      mutate t v field new
      return [.void]
    | .propertyPredicate property, [v] => return [.bool (s.holds property v)]
    | .propertyAccessor property, [v] => return [← s.propertyValueOf property v]
    | p, args => raise (s.arityError p args.length)

/-- The text that a result stands for as an expected arity. -/
def Store.expectation (s : Store) : Value → String
  | .string text => text
  | v => s.display v

/-- Refuse a number of arguments in the name of a record, in words of its type's own if it has
any. -/
def refuseArity (i : InstanceId) (expected : Arity) (given : Nat) :
    Computation (List Value) := do
  let s ← get
  let type := s.typeOf i
  match s.arityRenderer? type with
  | none => raise <| .arityMismatch type.name.name expected.text given
  | some render =>
    let v ← single "prop:arity-string" (← Computation.apply render [.record i])
    raise <| .arityMismatch type.name.name ((← get : Store).expectation v) given

/-- Apply an instance through the designation of its type. -/
def callRecord (i : InstanceId) (args : List Value) : Computation (List Value) := do
  let s ← get
  match (s.typeOf i).procedure? with
  | none => raise <| .notCallable (s.displayRecord i)
  | some ⟨.field index, source⟩ =>
    let procedure ← s.read i source index
    match s.arity? procedure with
    | none => Computation.apply procedure args
    | some arity =>
      if arity.accepts args.length then Computation.apply procedure args
      else refuseArity i arity args.length
  | some ⟨.procedure procedure, _⟩ =>
    let full := .record i :: args
    match s.arity? procedure with
    | none => Computation.apply procedure full
    | some arity =>
      if arity.accepts full.length then Computation.apply procedure full
      else refuseArity i arity.dropFirst args.length

/-- Apply a value. -/
def Value.apply (nested : Value → List Value → StoreM (List Value)) (v : Value)
    (args : List Value) : Computation (List Value) :=
  match v with
  | .procedure p => applyProcedure nested p args
  | .record i => callRecord i args
  | v => do raise <| .notCallable ((← get : Store).display v)

end Records
