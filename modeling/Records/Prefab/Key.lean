import Records.Prefab.Level

/-!
# Prefab keys

A key is the structure of a whole chain of prefab types, the most derived level first. Keys are
issued by the catalog of a registry, which numbers them; a super key is part of the key, with
the number it was issued under.
-/

namespace Records

/-- Who issued a key, and under which number. -/
structure KeyId where
  registry : RegistryId
  number : Nat
deriving DecidableEq, Inhabited

/-- An issued key. -/
structure PrefabKey where
  id : KeyId
  level : PrefabLevel
  /-- The levels of the super key, each with the identity of the key that begins there. -/
  supers : List (KeyId × PrefabLevel)
deriving Inhabited

namespace PrefabKey

/-- Keys compare by number. -/
instance : BEq PrefabKey := ⟨fun a b => a.id.number == b.id.number⟩

/-- All levels of the key, its own first. -/
def levels (k : PrefabKey) : List PrefabLevel := k.level :: k.supers.map (·.2)

/-- The key of the chain without its most derived level. -/
def superKey? (k : PrefabKey) : Option PrefabKey :=
  match k.supers with
  | [] => none
  | (id, level) :: supers => some ⟨id, level, supers⟩

/-- The identity and level of the key, in front of those of its super key. -/
def chain (k : PrefabKey) : List (KeyId × PrefabLevel) := (k.id, k.level) :: k.supers

/-- The number of the super key. -/
def superNumber? (k : PrefabKey) : Option Nat := k.superKey?.map (·.id.number)

/-- The fields of an instance, inherited ones included. -/
def totalCount (k : PrefabKey) : Nat := PrefabLevel.totalCount k.levels

@[simp] theorem levels_of_superKey? {k s : PrefabKey} (h : k.superKey? = some s) :
    k.levels = k.level :: s.levels := by
  cases hs : k.supers with
  | nil => simp [superKey?, hs] at h
  | cons head rest =>
    simp only [superKey?, hs, Option.some.injEq] at h
    subst h
    simp [levels, hs]

end PrefabKey

end Records
