import Mathlib.Data.List.Nodup
import Mathlib.Tactic.Lemma

/-!
# Tables as lists of entries

A table is a list of keys with their values, of which the first entry of a key counts. What was
added to it, repetitions aside, is in the order of the first additions.

## Main statements

* `find?_key_eq_some_iff`: without repetitions every entry counts.
* `eraseDups_append_singleton`: one more item is kept unless an equal one is there.
-/

namespace Records

variable {α β : Type} [DecidableEq α] {l : List (α × β)} {a : α} {b : β}

/-- What is found for a key is an entry of it. -/
lemma mem_of_find?_key (h : (l.find? fun e => e.1 = a).map (·.2) = some b) : (a, b) ∈ l := by
  obtain ⟨e, he, rfl⟩ := Option.map_eq_some_iff.1 h
  obtain rfl : e.1 = a := by simpa using List.find?_some he
  exact List.mem_of_find?_eq_some he

lemma find?_key_eq_none_iff :
    (l.find? fun e => e.1 = a).map (·.2) = none ↔ a ∉ l.map Prod.fst := by
  rw [Option.map_eq_none_iff, List.find?_eq_none, List.mem_map]
  constructor
  · rintro h ⟨e, he, rfl⟩
    exact h e he (decide_eq_true rfl)
  · intro h e he heq
    exact h ⟨e, he, of_decide_eq_true heq⟩

/-- If no key comes twice, every entry is found. -/
lemma find?_key_eq_some_iff (hl : (l.map Prod.fst).Nodup) :
    (l.find? fun e => e.1 = a).map (·.2) = some b ↔ (a, b) ∈ l := by
  refine ⟨mem_of_find?_key, fun hmem => ?_⟩
  cases hfind : (l.find? fun e => e.1 = a).map (·.2) with
  | none => exact absurd (List.mem_map_of_mem hmem) (find?_key_eq_none_iff.1 hfind)
  | some c =>
    have heq := List.inj_on_of_nodup_map hl (mem_of_find?_key hfind) hmem rfl
    exact congrArg some (congrArg Prod.snd heq)

/-! ### Repetitions -/

/-- One more item is kept unless an equal one is there. -/
lemma eraseDups_append_singleton {γ : Type} [BEq γ] (l : List γ) (a : γ) :
    (l ++ [a]).eraseDups =
      if l.eraseDups.any (a == ·) then l.eraseDups else l.eraseDups ++ [a] := by
  -- `kept` has what came before `l`, the last item first
  have hloop : ∀ kept : List γ, List.eraseDupsBy.loop (· == ·) (l ++ [a]) kept =
      if (List.eraseDupsBy.loop (· == ·) l kept).any (a == ·)
        then List.eraseDupsBy.loop (· == ·) l kept
        else List.eraseDupsBy.loop (· == ·) l kept ++ [a] := by
    induction l with
    | nil =>
      intro kept
      rw [List.nil_append, List.eraseDupsBy.loop, List.eraseDupsBy.loop, List.any_reverse]
      split <;> rename_i h <;> simp [h, List.eraseDupsBy.loop]
    | cons b l ih =>
      intro kept
      rw [List.cons_append, List.eraseDupsBy.loop, List.eraseDupsBy.loop]
      split
      · exact ih kept
      · exact ih (b :: kept)
  exact hloop []

/-- The same for items that are compared by their identity. -/
lemma eraseDups_concat (l : List α) (a : α) :
    (l ++ [a]).eraseDups = if a ∈ l.eraseDups then l.eraseDups else l.eraseDups ++ [a] := by
  rw [eraseDups_append_singleton]
  simp

end Records
