import Records.Instance.Access
import Records.RecordType.Layout
import Records.Registry.Keys

/-!
# The types of prefab keys

A registry keeps one type for a key. A type that is asked for by its key comes into being
pending, on top of the types of its super keys; a declaration may finalize it later. Literal
instances are made from a printed key and the contents of all fields.
-/

namespace Records

/-- The type registered for a key. -/
def Store.typeFor? (s : Store) (r : RegistryId) (k : PrefabKey) : Option TypeId :=
  (s.registry r).catalog.typeFor? k

/-- Register a type for a key; answers the one registered first. -/
def registerType (r : RegistryId) (k : PrefabKey) (t : TypeId) : StoreM TypeId :=
  withCatalog r (·.register k t)

/-- What a level of a key declares. -/
def PrefabLevel.declaration (l : PrefabLevel) (super : Option TypeId) : Declaration where
  name := l.name
  superType := super
  initCount := l.initCount
  autoCount := l.autoCount
  autoValue := l.autoValue
  inspector := .prefab
  immutables := l.immutables.indices

/-- The type registered for a key; if there is none, a pending one that is added on top of what
`super` answers. -/
def ensureType (r : RegistryId) (k : PrefabKey) (super : StoreM (Option TypeId)) :
    StoreM TypeId := do
  match (← get : Store).typeFor? r k with
  | some t => return t
  | none => registerType r k (← declare (k.level.declaration (← super)))

/-- The type of a level on top of a chain of identified levels. -/
def prefabTypeOfChain (r : RegistryId) (id : KeyId) (level : PrefabLevel) :
    List (KeyId × PrefabLevel) → StoreM TypeId
  | [] => ensureType r ⟨id, level, []⟩ (return none)
  | (superId, superLevel) :: supers =>
    ensureType r ⟨id, level, (superId, superLevel) :: supers⟩ <| some <$>
      prefabTypeOfChain r superId superLevel supers

/-- The type of a key. A type that is not registered yet is added, pending, and so are its
ancestors. -/
def prefabType (r : RegistryId) (k : PrefabKey) : StoreM TypeId :=
  prefabTypeOfChain r k.id k.level k.supers

/-- The type that a printed key denotes for instances of `total` fields. -/
def prefabTypeOfDatum (r : RegistryId) (datum : Value) (total : Nat) : StoreM TypeId := do
  prefabType r (← keyOfDatum r datum total)

/-- The prefab instance with a printed key and the contents of all its fields. -/
def prefabInstance (r : RegistryId) (datum : Value) (values : List Value) :
    StoreM InstanceId := do
  let k ← keyOfDatum r datum values.length
  if values.length = k.totalCount then
    newInstance (← prefabType r k) values
  else
    raise <| .arityMismatch "make-prefab-struct" (toString k.totalCount) values.length

end Records
