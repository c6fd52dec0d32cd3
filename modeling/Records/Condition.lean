/-!
# Conditions

What a request can be refused for. Every condition carries the texts it names, taken when it
arises, and `Condition.message` words it.
-/

namespace Records

/-- The reasons for which a request fails. -/
inductive Condition where
  /-- A type binds one property twice, to different values. -/
  | duplicateProperty (typeName property : String)
  /-- A checked procedure needs two fields. -/
  | tooFewFieldsForCheckedProcedure (typeName : String) (fields : Nat)
  /-- The instance is not of the type whose field is asked for. -/
  | foreignInstance (typeName instanceType : String)
  /-- The value does not hold the property. -/
  | missingProperty (property value : String)
  /-- The wrong number of arguments. -/
  | arityMismatch (procedure expected : String) (given : Nat)
  /-- The type has no field of this index. -/
  | fieldOutOfRange (typeName : String) (index count : Nat)
  /-- The field cannot be written. -/
  | immutableField (typeName : String) (index : Nat)
  /-- The value cannot be applied. -/
  | notCallable (value : String)
  /-- An argument is not of the kind a procedure expects. -/
  | contractViolation (procedure expected given : String)
  /-- A datum is not the printed form of a prefab key. -/
  | invalidPrefabKey (datum : String)
  /-- Prefab types do not take this part of a declaration. -/
  | prefabRestriction (typeName what : String)
  /-- A procedure gave back the wrong number of results. -/
  | resultCount (context : String) (expected given : Nat)
  /-- A condition raised by a procedure of the host. -/
  | raised (message : String)
deriving DecidableEq, Inhabited

/-- The condition in words. -/
def Condition.message : Condition → String
  | duplicateProperty typeName property =>
    s!"duplicate property binding for {property} on {typeName}"
  | tooFewFieldsForCheckedProcedure typeName fields =>
    s!"{typeName}: prop:checked-procedure needs at least two fields in the structure type, " ++
      s!"found {fields}"
  | foreignInstance typeName instanceType =>
    s!"{typeName}: cannot reference a field of a {instanceType} instance"
  | missingProperty property value =>
    s!"{property}-accessor: expected {property}? but got {value}"
  | arityMismatch procedure expected given =>
    s!"{procedure}: arity mismatch; expected: {expected}, given: {given}"
  | fieldOutOfRange typeName index count =>
    s!"{typeName}: field index {index} out of range for {count} fields"
  | immutableField typeName index =>
    s!"{typeName}: cannot modify value of immutable field {index}"
  | notCallable value => s!"application: not a procedure: {value}"
  | contractViolation procedure expected given =>
    s!"{procedure}: contract violation; expected: {expected}, given: {given}"
  | invalidPrefabKey datum => s!"invalid prefab key: {datum}"
  | prefabRestriction typeName what =>
    s!"{typeName}: {what} not allowed for a prefab structure type"
  | resultCount context expected given =>
    s!"{context}: result arity mismatch; expected: {expected}, received: {given}"
  | raised message => message

/-- How a computation ends without an answer. -/
inductive Failure where
  /-- A condition arose. -/
  | condition (c : Condition)
  /-- A position was asked for that is not there, and the program stopped. -/
  | outOfBounds
  /-- The bound on nested applications was reached. -/
  | exhausted
deriving DecidableEq, Inhabited

end Records
