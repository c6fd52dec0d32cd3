import Records.Instance.Basic
import Records.Native.Basic
import Records.Prefab.Catalog
import Records.Property.Basic

/-!
# Stores

A store holds everything that has an identity, one arena for each kind. Things are added and
changed but never removed, so an identity stays good for as long as its store does. A look-up is
total: an identity that no store issued denotes an empty thing.

Operations on a store run in `StoreM`. A failing operation keeps what was stored before it
failed.
-/

namespace Records

/-- A catalog of prefab types and the inspector in force. -/
structure Registry where
  catalog : PrefabCatalog
  inspector : InspectorId
deriving Inhabited

/-- The arenas of everything that has an identity. -/
structure Store where
  natives : Array Native := #[]
  properties : Array Property := #[]
  types : Array RecordType := #[]
  instances : Array Instance := #[]
  cells : Array Value := #[]
  /-- Each inspector's super inspector. -/
  inspectors : Array (Option InspectorId) := #[]
  registries : Array Registry := #[]
deriving Inhabited

namespace Store

/-! ### Look-up -/

/-- A procedure of the host. -/
def native (s : Store) (id : NativeId) : Native := s.natives.getD id.index default

/-- A property. -/
def property (s : Store) (id : PropertyId) : Property := s.properties.getD id.index default

/-- A record type. -/
def type (s : Store) (id : TypeId) : RecordType := s.types.getD id.index default

/-- An instance. -/
def record (s : Store) (id : InstanceId) : Instance := s.instances.getD id.index default

/-- The content of a cell. -/
def cell (s : Store) (id : CellId) : Value := s.cells.getD id.index .void

/-- The super inspector of an inspector. -/
def superInspector? (s : Store) (id : InspectorId) : Option InspectorId :=
  s.inspectors.getD id.index none

/-- A registry. -/
def registry (s : Store) (id : RegistryId) : Registry := s.registries.getD id.index default

/-- The content of a slot. -/
def slotValue (s : Store) : Slot → Value
  | .raw v => v
  | .boxed c => s.cell c

/-- The contents of all fields of an instance. -/
def fieldValues (s : Store) (id : InstanceId) : List Value :=
  (s.record id).slots.toList.map s.slotValue

/-- The exact type of an instance. -/
def typeOf (s : Store) (id : InstanceId) : RecordType := s.type (s.record id).type

end Store

/-! ### Operations -/

/-- Operations on a store, which may fail. -/
abbrev StoreM := ExceptT Failure (StateM Store)

/-- Fail for a reason. -/
def raise {α : Type} (c : Condition) : StoreM α := throw (.condition c)

/-- A check that does not look at the store. -/
instance : MonadLift (Except Condition) StoreM where
  monadLift
    | .ok a => pure a
    | .error c => raise c

/-- A look at the store that may fail. -/
instance : MonadLift (Except Failure) StoreM where
  monadLift
    | .ok a => pure a
    | .error e => throw e

/-- Add a procedure of the host. -/
def newNative (p : Native) : StoreM NativeId :=
  modifyGet fun s => (⟨s.natives.size⟩, { s with natives := s.natives.push p })

/-- Add a property. -/
def newProperty (p : Property) : StoreM PropertyId :=
  modifyGet fun s => (⟨s.properties.size⟩, { s with properties := s.properties.push p })

/-- Add a record type. -/
def newType (t : RecordType) : StoreM TypeId :=
  modifyGet fun s => (⟨s.types.size⟩, { s with types := s.types.push t })

/-- Add an instance. -/
def newRecord (i : Instance) : StoreM InstanceId :=
  modifyGet fun s => (⟨s.instances.size⟩, { s with instances := s.instances.push i })

/-- Add a cell. -/
def newCell (v : Value) : StoreM CellId :=
  modifyGet fun s => (⟨s.cells.size⟩, { s with cells := s.cells.push v })

/-- Add an inspector below another one. -/
def newInspector (super : Option InspectorId) : StoreM InspectorId :=
  modifyGet fun s => (⟨s.inspectors.size⟩, { s with inspectors := s.inspectors.push super })

/-- Change a record type. -/
def modifyType (id : TypeId) (f : RecordType → RecordType) : StoreM Unit :=
  modify fun s => { s with types := s.types.modify id.index f }

/-- Write a cell. -/
def setCell (id : CellId) (v : Value) : StoreM Unit :=
  modify fun s => { s with cells := s.cells.setIfInBounds id.index v }

/-- Replace a slot of an instance. -/
def setSlot (id : InstanceId) (index : Nat) (slot : Slot) : StoreM Unit :=
  modify fun s => { s with
    instances := s.instances.modify id.index fun i =>
      { i with slots := i.slots.setIfInBounds index slot } }

/-- Replace the catalog of a registry. -/
def setCatalog (id : RegistryId) (c : PrefabCatalog) : StoreM Unit :=
  modify fun s => { s with
    registries := s.registries.modify id.index fun r => { r with catalog := c } }

end Records
