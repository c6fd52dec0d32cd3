import Records.Display
import Records.Registry.Basic

/-!
# The keys a registry issues

A registry answers with the key of a structure, whether the structure is that of a type, of a
declaration that has no type yet, or of a printed datum. Equal structures get one key.
-/

namespace Records

/-- Change the catalog of a registry, with an answer. -/
def withCatalog {α : Type} (r : RegistryId) (f : PrefabCatalog → α × PrefabCatalog) :
    StoreM α := do
  let (a, c) := f ((← get : Store).registry r).catalog
  setCatalog r c
  return a

/-- The structure of the chain of an optional super type. -/
def Store.inheritedLevels (s : Store) (super : Option TypeId) : List PrefabLevel :=
  super.elim [] s.prefabLevels

/-- The key of a type's structure. -/
def keyOfType (r : RegistryId) (t : TypeId) : StoreM PrefabKey := do
  let s ← get
  let type := s.type t
  withCatalog r (·.internLevels type.prefabLevel (s.inheritedLevels type.superType))

/-- The key of a declaration's structure, before there is a type for it. -/
def keyOfDeclaration (r : RegistryId) (d : Declaration) : StoreM PrefabKey := do
  let s ← get
  withCatalog r (·.internLevels d.prefabLevel (s.inheritedLevels d.superType))

/-- Refuse a datum as a key. -/
def refuseDatum {α : Type} (datum : Value) : StoreM α := do
  raise <| .invalidPrefabKey ((← get : Store).display datum)

/-- The key a datum denotes for instances of `total` fields. -/
def keyOfDatum (r : RegistryId) (datum : Value) (total : Nat) : StoreM PrefabKey := do
  match PrefabDatum.parse? datum with
  | none => refuseDatum datum
  | some d =>
    match ← withCatalog r (·.internDatum d total) with
    | none => refuseDatum datum
    | some k => return k

/-- The key of a prefab type. -/
def prefabKeyOf? (r : RegistryId) (t : TypeId) : StoreM (Option PrefabKey) := do
  if ((← get : Store).type t).isPrefab then
    return some (← keyOfType r t)
  else
    return none

end Records
