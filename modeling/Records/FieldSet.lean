/-!
# Sets of field indices

A set of field indices is kept as its strictly ascending list, so that equal sets are equal
lists and print alike.

## Main statements

* `FieldSet.mem_ofList`: building a set keeps the members.
* `FieldSet.mem_complement`: the complement below `n` holds exactly the indices left out.
* `FieldSet.ext_mem`: two sets with the same members are equal.
-/

namespace Records

/-- A set of field indices, listed in strictly ascending order. -/
structure FieldSet where
  indices : List Nat
  ascending : indices.Pairwise (· < ·) := by simp

namespace FieldSet

instance : Inhabited FieldSet := ⟨⟨[], List.Pairwise.nil⟩⟩

instance : DecidableEq FieldSet := fun a b =>
  decidable_of_iff (a.indices = b.indices) <| by
    cases a; cases b; simp

/-- The empty set. -/
def empty : FieldSet := ⟨[], List.Pairwise.nil⟩

/-- Whether an index belongs to the set. -/
def contains (s : FieldSet) (i : Nat) : Bool := s.indices.contains i

instance : Membership Nat FieldSet := ⟨fun s i => i ∈ s.indices⟩

theorem mem_def {s : FieldSet} {i : Nat} : i ∈ s ↔ i ∈ s.indices := Iff.rfl

@[simp] theorem contains_iff {s : FieldSet} {i : Nat} : s.contains i ↔ i ∈ s := by
  simp [contains, mem_def]

/-- Add an index to an ascending list, in its place. -/
def insertInto (i : Nat) : List Nat → List Nat
  | [] => [i]
  | j :: rest =>
    if i < j then i :: j :: rest
    else if i = j then j :: rest
    else j :: insertInto i rest

theorem mem_insertInto {i x : Nat} {l : List Nat} : x ∈ insertInto i l ↔ x = i ∨ x ∈ l := by
  induction l with
  | nil => simp [insertInto]
  | cons j rest ih =>
    simp only [insertInto]
    split
    · simp
    · split
      · rename_i h; simp [h]
      · simp only [List.mem_cons, ih]
        constructor
        · rintro (h | h | h) <;> simp [h]
        · rintro (h | h | h) <;> simp [h]

theorem pairwise_insertInto {i : Nat} {l : List Nat} (h : l.Pairwise (· < ·)) :
    (insertInto i l).Pairwise (· < ·) := by
  induction l with
  | nil => simp [insertInto]
  | cons j rest ih =>
    obtain ⟨hj, hrest⟩ := List.pairwise_cons.1 h
    simp only [insertInto]
    split
    · rename_i hij
      refine List.pairwise_cons.2 ⟨fun x hx => ?_, h⟩
      rcases List.mem_cons.1 hx with rfl | hx
      · exact hij
      · exact Nat.lt_trans hij (hj x hx)
    · split
      · exact h
      · refine List.pairwise_cons.2 ⟨fun x hx => ?_, ih hrest⟩
        rcases mem_insertInto.1 hx with rfl | hx
        · omega
        · exact hj x hx

/-- Add one index. -/
def insert (s : FieldSet) (i : Nat) : FieldSet :=
  ⟨insertInto i s.indices, pairwise_insertInto s.ascending⟩

@[simp] theorem mem_insert {s : FieldSet} {i x : Nat} : x ∈ s.insert i ↔ x = i ∨ x ∈ s :=
  mem_insertInto

/-- The set of the indices in a list, in any order and with repetitions. -/
def ofList (l : List Nat) : FieldSet := l.foldr (fun i s => s.insert i) empty

@[simp] theorem mem_ofList {l : List Nat} {x : Nat} : x ∈ ofList l ↔ x ∈ l := by
  induction l with
  | nil => simp [ofList, mem_def, empty]
  | cons i rest ih =>
    show x ∈ (ofList rest).insert i ↔ _
    rw [mem_insert, ih, List.mem_cons]

/-- The indices below `n` that are not in the set. -/
def complement (s : FieldSet) (n : Nat) : FieldSet :=
  ⟨(List.range n).filter fun i => !s.contains i,
    List.Pairwise.filter _ List.pairwise_lt_range⟩

@[simp] theorem mem_complement {s : FieldSet} {n x : Nat} :
    x ∈ s.complement n ↔ x < n ∧ x ∉ s := by
  simp [complement, mem_def, contains]

/-- A set is empty when it has no members. -/
def isEmpty (s : FieldSet) : Bool := s.indices.isEmpty

theorem ext_mem {s t : FieldSet} (h : ∀ x, x ∈ s ↔ x ∈ t) : s = t := by
  have hl : s.indices = t.indices :=
    List.Perm.eq_of_pairwise
      (fun _ _ _ _ hab hba => absurd hab (Nat.lt_asymm hba)) s.ascending t.ascending
      ((List.perm_ext_iff_of_nodup (s.ascending.imp Nat.ne_of_lt)
        (t.ascending.imp Nat.ne_of_lt)).2 h)
  cases s; cases t; simpa using hl

end FieldSet

end Records
