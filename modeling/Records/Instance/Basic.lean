import Records.Value.Basic

/-!
# Instances

An instance knows its exact type and holds one slot for every field of the whole chain, the
root's fields first. A slot starts out raw and is boxed into a cell by its first write, or when
its cell is asked for; from then on every holder of the cell sees the same content.
-/

namespace Records

/-- The storage of one field. -/
inductive Slot where
  /-- Never written and never shared. -/
  | raw (v : Value)
  /-- Held in a cell. -/
  | boxed (cell : CellId)
deriving Inhabited

/-- An instance of a record type. -/
structure Instance where
  type : TypeId
  slots : Array Slot
deriving Inhabited

end Records
