import Records.Value.Basic
import Records.Store.Basic

/-!
# Types as values

What a type definition answers, and what guards of properties are told about a type.
-/

namespace Records

/-- The procedures of a type behind the type itself: constructor, predicate, accessor, mutator. -/
def definition (t : TypeId) : List Value :=
  [.recordType t, .procedure (.constructor t), .procedure (.predicate t),
    .procedure (.accessor t), .procedure (.mutator t)]

/-- The type that five values define. -/
def definedType : List Value → Except Condition TypeId
  | [.recordType t, _, _, _, _] => .ok t
  | values => .error (.resultCount "make-struct-type" 5 values.length)

/-- The description of a type: its name, counts, accessor, mutator, immutable fields and super
type. Nothing is ever skipped on the way to the super type. -/
def Store.reflectiveInfo (s : Store) (t : TypeId) : List Value :=
  let type := s.type t
  [.symbol type.name, .ofNat type.initCount, .ofNat type.autoCount, .procedure (.accessor t),
    .procedure (.mutator t), .list (type.immutables.indices.map .ofNat),
    type.superType.elim (.bool false) .recordType, .bool false]

end Records
