import Records.Attachment
import Records.Registry.Prefab

/-!
# Definition of record types

A registry defines record types. A prefab declaration is answered with the type registered for
its structure: a finalized one if the declared properties agree with it, a pending one to be
finalized now, or else a new one.

## Main definitions

* `define` answers a declaration.
-/

namespace Records

/-- What a prefab declaration may not hold, in the order it is looked for. -/
def Store.prefabRestriction? (s : Store) (d : Declaration) : Option String :=
  if d.superType.any fun t => !(s.type t).isPrefab then
    some "non-prefab super type"
  else if d.guard.isSome then
    some "guard"
  else if d.procedure.isSome || d.properties.any fun b => s.isA b.1 Property.procedure then
    some "procedure specification"
  else
    none

/-- The type a prefab declaration is about, added pending if there is none. -/
def prefabTypeOfDeclaration (r : RegistryId) (d : Declaration) : StoreM TypeId := do
  match (← get : Store).prefabRestriction? d with
  | some what => raise (.prefabRestriction d.name.name what)
  | none =>
    let k ← keyOfDeclaration r d
    match (← get : Store).typeFor? r k with
    | some t => return t
    | none => registerType r k (← declare d)

/-- Whether two types hold the same properties. -/
def RecordType.sameProperties (a b : RecordType) : Bool :=
  a.properties.length = b.properties.length &&
    a.properties.all fun p => (b.propertyValue? p.1).any (· == p.2)

/-- Answer a declaration with a finalized prefab type. Declared properties are attached to a
type that is made for the comparison. -/
def redefine (t : TypeId) (d : Declaration) : Computation (List Value) := do
  if d.properties.isEmpty then
    return definition t
  else
    let candidate ← declare d
    attach candidate d.properties none
    let s ← get
    if (s.type candidate).sameProperties (s.type t) then
      return definition t
    else
      raise <| .prefabRestriction d.name.name
        "properties differing from the existing definition"

/-- Answer a declaration with a type and its procedures. -/
def define (r : RegistryId) (d : Declaration) : Computation (List Value) := do
  if d.inspector = .prefab then
    let t ← prefabTypeOfDeclaration r d
    if ((← get : Store).type t).isFinalized then
      redefine t d
    else
      attach t d.properties d.procedure
      return definition t
  else
    let t ← declare d
    attach t d.properties d.procedure
    return definition t

end Records
