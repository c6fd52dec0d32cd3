import Records.Interning
import Records.Proofs.Entries
import Mathlib.Data.List.Perm.Subperm

/-!
# The search for a free number

A text is given its hash as a number, or the next number that no other text has. Numbers wrap
around, so the search may come to the least number behind the greatest one. Among one more numbers
in a row than there are texts, one is free; so the search ends wherever it starts, as long as there
are fewer texts than numbers, which are `2 ^ 64`.

## Main definitions

* `TextTable.Searches`: the search, one number after the other.

## Main statements

* `TextTable.searches_probe`: the search ends within as many steps as there are texts.
* `TextTable.exists_searches_iff`: it ends exactly if there are fewer texts than numbers.
-/

namespace Records

namespace TextTable

variable {t : TextTable} {id found found' : UInt64} {steps steps' : Nat}

/-- The search stays at a free number, and goes on to the next one from a number that is taken.
How often it does so is counted. -/
inductive Searches (t : TextTable) : UInt64 → Nat → UInt64 → Prop
  | stay {id : UInt64} : t.text? id = none → Searches t id 0 id
  | next {id found : UInt64} {steps : Nat} :
      (t.text? id).isSome → Searches t (id + 1) steps found → Searches t id (steps + 1) found

/-- The numbers that were given. -/
def ids (t : TextTable) : List UInt64 := t.texts.map Prod.fst

lemma text?_eq_none_iff : t.text? id = none ↔ id ∉ t.ids := find?_key_eq_none_iff

lemma Searches.text?_eq_none (h : t.Searches id steps found) : t.text? found = none := by
  induction h with
  | stay hfree => exact hfree
  | next _ _ ih => exact ih

/-- The search is determined by where it starts. -/
lemma Searches.unique (h : t.Searches id steps found) (h' : t.Searches id steps' found') :
    steps = steps' ∧ found = found' := by
  induction h generalizing steps' with
  | stay hfree =>
    cases h' with
    | stay _ => exact ⟨rfl, rfl⟩
    | next htaken _ => rw [hfree] at htaken; cases htaken
  | next htaken _ ih =>
    cases h' with
    | stay hfree => rw [hfree] at htaken; cases htaken
    | next _ h' =>
      obtain ⟨rfl, rfl⟩ := ih h'
      exact ⟨rfl, rfl⟩

lemma Searches.iff (h : t.Searches id steps found) :
    t.Searches id steps' found' ↔ steps' = steps ∧ found' = found := by
  constructor
  · intro h'
    exact h'.unique h
  · rintro ⟨rfl, rfl⟩
    exact h

/-- The search ends at the first free number, if there is one within some steps. -/
lemma exists_searches_probe {n : Nat} (h : ∃ k ≤ n, t.text? (id + .ofNat k) = none) :
    ∃ steps ≤ n, t.Searches id steps (t.probe n id) := by
  obtain ⟨k, hk, hfree⟩ := h
  induction n generalizing id k with
  | zero =>
    obtain rfl := Nat.le_zero.1 hk
    have hfree : t.text? id = none := by simpa using hfree
    exact ⟨0, hk, .stay hfree⟩
  | succ n ih =>
    rw [probe]
    split
    · rename_i htaken
      cases k with
      | zero =>
        have hfree : t.text? id = none := by simpa using hfree
        rw [hfree] at htaken
        cases htaken
      | succ k =>
        rw [Nat.add_comm, UInt64.ofNat_add, ← UInt64.add_assoc] at hfree
        obtain ⟨steps, hsteps, h⟩ := ih k (Nat.le_of_succ_le_succ hk) hfree
        exact ⟨steps + 1, Nat.succ_le_succ hsteps, .next htaken h⟩
    · rename_i hfree
      exact ⟨0, Nat.zero_le _, .stay (Option.not_isSome_iff_eq_none.1 hfree)⟩

/-- Numbers in a row are different as long as they are not more than there are numbers. -/
lemma nodup_row (id : UInt64) {n : Nat} (h : n ≤ UInt64.size) :
    ((List.range n).map fun k => id + UInt64.ofNat k).Nodup := by
  refine List.nodup_range.map_on fun a ha b hb heq => ?_
  have ha := Nat.lt_of_lt_of_le (List.mem_range.1 ha) h
  have hb := Nat.lt_of_lt_of_le (List.mem_range.1 hb) h
  have heq := congrArg UInt64.toNat ((UInt64.add_right_inj id).1 heq)
  rwa [UInt64.toNat_ofNat_of_lt' ha, UInt64.toNat_ofNat_of_lt' hb] at heq

/-- One of the numbers behind a number is free, no further away than there are texts. -/
lemma exists_free (h : t.size < UInt64.size) (id : UInt64) :
    ∃ k ≤ t.size, t.text? (id + .ofNat k) = none := by
  by_contra hall
  have hsubset : ((List.range (t.size + 1)).map fun k => id + UInt64.ofNat k) ⊆ t.ids := by
    intro a ha
    obtain ⟨k, hk, rfl⟩ := List.mem_map.1 ha
    by_contra hfree
    exact hall ⟨k, Nat.le_of_lt_succ (List.mem_range.1 hk), text?_eq_none_iff.2 hfree⟩
  have hlength := ((nodup_row id h).subperm hsubset).length_le
  rw [List.length_map, List.length_range, ids, List.length_map] at hlength
  exact Nat.lt_irrefl _ hlength

/-- The search ends within as many steps as there are texts. -/
lemma searches_probe (h : t.size < UInt64.size) (id : UInt64) :
    ∃ steps ≤ t.size, t.Searches id steps (t.probe t.size id) :=
  exists_searches_probe (exists_free h id)

/-- There are not more different numbers than there are numbers. -/
lemma length_le_of_nodup {l : List UInt64} (h : l.Nodup) : l.length ≤ UInt64.size := by
  have hnodup : (l.map UInt64.toNat).Nodup := h.map fun _ _ => UInt64.toNat_inj.1
  have hsubset : l.map UInt64.toNat ⊆ List.range UInt64.size := by
    intro n hn
    obtain ⟨id, -, rfl⟩ := List.mem_map.1 hn
    exact List.mem_range.2 id.toNat_lt
  have hlength := (hnodup.subperm hsubset).length_le
  rwa [List.length_map, List.length_range] at hlength

/-- The search ends exactly if there are fewer texts than numbers. -/
lemma exists_searches_iff (hnodup : t.ids.Nodup) :
    (∃ steps found, t.Searches id steps found) ↔ t.size < UInt64.size := by
  constructor
  · rintro ⟨steps, found, h⟩
    have hfree := text?_eq_none_iff.1 h.text?_eq_none
    have hlength := length_le_of_nodup (List.nodup_cons.2 ⟨hfree, hnodup⟩)
    rwa [List.length_cons, ids, List.length_map] at hlength
  · intro h
    obtain ⟨steps, -, hsearch⟩ := searches_probe h id
    exact ⟨steps, _, hsearch⟩

end TextTable

end Records
