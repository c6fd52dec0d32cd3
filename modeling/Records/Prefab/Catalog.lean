import Records.Prefab.Datum
import Records.Prefab.Key

/-!
# Catalogs of prefab keys and types

A catalog issues one key per structure and remembers the type that was registered for it. Keys
are looked up by their first level and the number of their super key, types by the number of
their key. Numbers count up for as long as the catalog exists, across resets.

## Main statements

* `PrefabCatalog.find?_intern`: a level that was interned is found from then on.
* `PrefabCatalog.typeFor?_register`: the first type registered for a key is the one it keeps.
-/

namespace Records

/-- The keys and types of one registry. -/
structure PrefabCatalog where
  owner : RegistryId
  /-- The keys that can be found, the latest first. -/
  keys : List PrefabKey := []
  /-- The registered types, by the number of their key. -/
  types : List (Nat × TypeId) := []
  /-- How many keys were ever issued. -/
  issued : Nat := 0
deriving Inhabited

namespace PrefabCatalog

/-- The key of a level on top of a super key, if it is known. -/
def find? (c : PrefabCatalog) (level : PrefabLevel) (super : Option PrefabKey) :
    Option PrefabKey :=
  c.keys.find? fun k => k.level.same level && k.superNumber? = super.map (·.id.number)

/-- The key that is next to be issued. -/
def next (c : PrefabCatalog) (level : PrefabLevel) (super : Option PrefabKey) : PrefabKey where
  id := ⟨c.owner, c.issued⟩
  level := level
  supers := match super with
    | some k => k.chain
    | none => []

/-- The key of a level on top of a super key, issued now if it is not known. -/
def intern (c : PrefabCatalog) (level : PrefabLevel) (super : Option PrefabKey) :
    PrefabKey × PrefabCatalog :=
  match c.find? level super with
  | some k => (k, c)
  | none =>
    let k := c.next level super
    (k, { c with keys := k :: c.keys, issued := c.issued + 1 })

/-- The key of a chain of levels, most derived first; none for the empty chain. -/
def internChain (c : PrefabCatalog) : List PrefabLevel → Option PrefabKey × PrefabCatalog
  | [] => (none, c)
  | level :: supers =>
    let (super, c) := c.internChain supers
    let (k, c) := c.intern level super
    (some k, c)

/-- The key of a level on top of a chain of levels. -/
def internLevels (c : PrefabCatalog) (level : PrefabLevel) (supers : List PrefabLevel) :
    PrefabKey × PrefabCatalog :=
  let (super, c) := c.internChain supers
  c.intern level super

/-- The key a datum denotes for instances of `total` fields. The super levels are interned
before the first level is completed, and their key tells how many fields are inherited. -/
def internDatum (c : PrefabCatalog) (d : PrefabDatum) (total : Nat) :
    Option PrefabKey × PrefabCatalog :=
  let (super, c) := c.internChain d.supers
  match d.levelFor? (super.elim 0 PrefabKey.totalCount) total with
  | none => (none, c)
  | some level =>
    let (k, c) := c.intern level super
    (some k, c)

/-- The type registered for a key. -/
def typeFor? (c : PrefabCatalog) (k : PrefabKey) : Option TypeId :=
  (c.types.find? fun e => e.1 = k.id.number).map (·.2)

/-- Register a type for a key, unless one is registered already; answers the registered one. -/
def register (c : PrefabCatalog) (k : PrefabKey) (t : TypeId) : TypeId × PrefabCatalog :=
  match c.typeFor? k with
  | some existing => (existing, c)
  | none => (t, { c with types := (k.id.number, t) :: c.types })

/-- Forget every key and type. -/
def reset (c : PrefabCatalog) : PrefabCatalog := { c with keys := [], types := [] }

/-- The number of keys that can be found. -/
def keyCount (c : PrefabCatalog) : Nat := c.keys.length

/-- The number of keys with a registered type. -/
def typeCount (c : PrefabCatalog) : Nat := c.types.length

theorem superNumber?_next (c : PrefabCatalog) (level : PrefabLevel) (super : Option PrefabKey) :
    (c.next level super).superNumber? = super.map (·.id.number) := by
  cases super <;> simp [PrefabKey.superNumber?, PrefabKey.superKey?, next, PrefabKey.chain]

/-- A known key is answered, and the catalog stays as it is. -/
theorem intern_of_find? {c : PrefabCatalog} {level : PrefabLevel} {super : Option PrefabKey}
    {k : PrefabKey} (h : c.find? level super = some k) : c.intern level super = (k, c) := by
  rw [intern, h]

/-- An unknown key is issued under the next number. -/
theorem intern_of_find?_eq_none {c : PrefabCatalog} {level : PrefabLevel}
    {super : Option PrefabKey} (h : c.find? level super = none) :
    c.intern level super =
      (c.next level super,
        { c with keys := c.next level super :: c.keys, issued := c.issued + 1 }) := by
  rw [intern, h]

theorem find?_intern (c : PrefabCatalog) (level : PrefabLevel) (super : Option PrefabKey) :
    (c.intern level super).2.find? level super = some (c.intern level super).1 := by
  cases h : c.find? level super with
  | some k => rw [intern_of_find? h, h]
  | none =>
    have hlevel : (c.next level super).level = level := rfl
    rw [intern_of_find?_eq_none h]
    simp only [find?]
    rw [List.find?_cons_of_pos]
    simp [hlevel, superNumber?_next, PrefabLevel.same_refl]

theorem typeFor?_register (c : PrefabCatalog) (k : PrefabKey) (t : TypeId) :
    (c.register k t).2.typeFor? k = some (c.register k t).1 := by
  cases h : c.typeFor? k with
  | some existing => rw [register, h]; exact h
  | none => rw [register, h]; simp [typeFor?]

end PrefabCatalog

end Records
