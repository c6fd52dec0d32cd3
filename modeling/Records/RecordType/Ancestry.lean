import Records.Store.Basic

/-!
# Ancestry

The types from a type to the root of its chain. A super type exists before its subtypes, so the
walk ends within as many steps as there are older types.

## Main statements

* `Store.mem_ancestry_self`: a type is among its own ancestry.
-/

namespace Records

namespace Store

/-- A type and its ancestors, most derived first, within a number of steps. -/
def ancestryWithin (s : Store) : Nat → TypeId → List TypeId
  | 0, t => [t]
  | n + 1, t =>
    t :: match (s.type t).superType with
      | some super => s.ancestryWithin n super
      | none => []

/-- A type and its ancestors, most derived first. -/
def ancestry (s : Store) (t : TypeId) : List TypeId := s.ancestryWithin t.index t

/-- The types of the chain, most derived first. -/
def chain (s : Store) (t : TypeId) : List RecordType := (s.ancestry t).map s.type

/-- Whether a type is another one or descends from it. -/
def isSubtype (s : Store) (t ancestor : TypeId) : Bool := (s.ancestry t).contains ancestor

/-- The number of constructor arguments: the init fields of the whole chain. -/
def constructorArity (s : Store) (t : TypeId) : Nat :=
  (s.type t).count ((s.chain t).foldr (fun t count => t.initCount + count) 0)

/-- The structure of the chain of a type, level by level. -/
def prefabLevels (s : Store) (t : TypeId) : List PrefabLevel :=
  (s.chain t).map (·.prefabLevel)

theorem mem_ancestry_self (s : Store) (t : TypeId) : t ∈ s.ancestry t := by
  unfold ancestry
  cases t.index <;> simp [ancestryWithin]

end Store

end Records
