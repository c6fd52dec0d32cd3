/-!
# Identities

Everything with an identity of its own lives in an arena of a store, and is named by its
position in that arena. An identity carries the arena it belongs to in its type, so a property
can never be looked up among the record types.
-/

namespace Records

/-- The kinds of things that have an identity. -/
inductive Arena where
  | natives
  | properties
  | types
  | instances
  | cells
  | inspectors
  | registries

/-- The name of one thing: its position in its arena. -/
structure Ident (arena : Arena) where
  index : Nat
deriving DecidableEq, Inhabited

/-- A procedure supplied by the host. -/
abbrev NativeId := Ident .natives

/-- A property that record types may carry. -/
abbrev PropertyId := Ident .properties

/-- A record type. -/
abbrev TypeId := Ident .types

/-- A record instance. -/
abbrev InstanceId := Ident .instances

/-- A shared box around one field. -/
abbrev CellId := Ident .cells

/-- An inspector. -/
abbrev InspectorId := Ident .inspectors

/-- A registry of prefab keys and types. -/
abbrev RegistryId := Ident .registries

end Records
