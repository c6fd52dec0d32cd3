import Records.Shape.Basic
import Mathlib.Data.List.Nodup
import Mathlib.Tactic.Lemma

/-!
# Names in a map and in a list

A shape has its names both in a map and in a list, and each extension adds to both of them. So the
map has the names of the list, and as many; where it tells positions, these are the positions in
the list.

## Main definitions

* `NameMap.Lists`: a map has the names of a list.
* `NameMap.Indexes`: a map tells the position of each name in a list.

## Main statements

* `NameMap.Lists.insert`, `NameMap.Indexes.insert`: both are kept when a new name is added to the
  map and to the list.
-/

namespace Records

namespace NameMap

variable {κ β : Type} [DecidableEq κ] {keys : List κ} {name : κ}

/-- The map has the names of the list, none of which comes twice. -/
structure Lists (m : NameMap κ β) (keys : List κ) : Prop where
  contains_iff : ∀ name, m.contains name ↔ name ∈ keys
  nodup : keys.Nodup
  size_eq : m.size = keys.length

/-- The map tells the position of each name in the list. -/
structure Indexes (m : NameMap κ Nat) (keys : List κ) : Prop extends m.Lists keys where
  find?_eq_some_iff : ∀ name i, m.find? name = some i ↔ keys[i]? = some name

namespace Lists

variable {m : NameMap κ β}

lemma empty : (empty : NameMap κ β).Lists [] :=
  ⟨fun _ => ⟨nofun, nofun⟩, List.nodup_nil, rfl⟩

lemma find?_eq_none_iff (h : m.Lists keys) : m.find? name = none ↔ name ∉ keys := by
  rw [← h.contains_iff, contains, Option.not_isSome_iff_eq_none]

/-- A new name is added to the map and to the list. -/
lemma insert (h : m.Lists keys) (hname : name ∉ keys) (value : β) :
    (m.insert name value).Lists (keys ++ [name]) where
  contains_iff other := by
    have hother := h.contains_iff other
    rw [contains] at hother
    rw [contains, find?_insert, List.mem_append, List.mem_singleton, ← hother]
    by_cases heq : name = other
    · simp [heq]
    · simp [heq, Ne.symm heq]
  nodup := by
    rw [← List.concat_eq_append]
    exact h.nodup.concat hname
  size_eq := by
    rw [size_insert (h.find?_eq_none_iff.2 hname), h.size_eq, List.length_append,
      List.length_singleton]

end Lists

namespace Indexes

variable {m : NameMap κ Nat}

lemma empty : (NameMap.empty : NameMap κ Nat).Indexes [] :=
  ⟨.empty, fun _ _ => ⟨nofun, nofun⟩⟩

/-- A new name is the last one in the list. -/
lemma insert (h : m.Indexes keys) (hname : name ∉ keys) :
    (m.insert name keys.length).Indexes (keys ++ [name]) where
  toLists := h.toLists.insert hname keys.length
  find?_eq_some_iff other i := by
    rw [find?_insert]
    by_cases heq : name = other
    · subst heq
      have hnew : ∀ j, keys[j]? ≠ some name := fun j hj => hname (List.mem_of_getElem? hj)
      rw [if_pos rfl, Option.some_inj, List.getElem?_append]
      split
      · rename_i hi
        exact ⟨fun heq => absurd heq.symm (Nat.ne_of_lt hi), fun hi => absurd hi (hnew i)⟩
      · rename_i hi
        rw [List.getElem?_singleton]
        split <;> simp <;> omega
    · rw [if_neg heq, h.find?_eq_some_iff, List.getElem?_append]
      split
      · rfl
      · rename_i hi
        rw [List.getElem?_eq_none (Nat.le_of_not_lt hi), List.getElem?_singleton]
        split <;> simp [heq]

end Indexes

end NameMap

end Records
