import Records.Proofs.Interning.Search
import Mathlib.Data.List.Induction
import Mathlib.Data.List.ProdSigma

/-!
# Numbers stand for texts

Every text that is added has a number of its own, whatever the hashes of the texts are: a number
is given to a text only if it is free, and neither is taken back. So the numbers of the texts and
the texts of the numbers are the same entries, read from both sides. As symbols are compared by
the numbers of their names, they are equal exactly if their names are.

## Main definitions

* `TextTable.after`: the table after texts were added in order.
* `TextTable.Interned`: numbers stand for texts at every moment of a sequence of additions.

## Main statements

* `TextTable.interned_of_length_le`: so they do if there are no more different texts than numbers.
-/

namespace Records

namespace TextTable

variable {hash : String → UInt64} {t : TextTable} {text : String} {id : UInt64}
  {before now texts : List String}

/-- The table after texts were added in order. -/
def after (hash : String → UInt64) (texts : List String) : TextTable :=
  texts.foldl (fun t text => (t.add hash text).2) .empty

/-- The number that is answered when a text is added behind others. -/
def answer (hash : String → UInt64) (before : List String) (text : String) : UInt64 :=
  ((after hash before).add hash text).1

/-- Numbers stand for texts at every moment of a sequence of additions. A moment is told by the
texts that were added up to it, a call by the texts that were added before it and its own. -/
structure Interned (hash : String → UInt64) (texts : List String) : Prop where
  /-- The search for the number of a new text ends, and nowhere else than at the answer. -/
  searches_iff : ∀ before text, before ++ [text] <+: texts → text ∉ before →
    ∃ steps ≤ (after hash before).size, ∀ n found,
      (after hash before).Searches (hash text) n found ↔
        n = steps ∧ found = answer hash before text
  /-- Wherever a search starts, it ends exactly if a number is left. -/
  exists_searches_iff : ∀ now id, now <+: texts →
    ((∃ steps found, (after hash now).Searches id steps found) ↔
      (after hash now).size < UInt64.size)
  /-- Two calls answer one number exactly if their texts are equal. -/
  answer_eq_iff : ∀ before text before' text', before ++ [text] <+: texts →
    before' ++ [text'] <+: texts →
    (answer hash before text = answer hash before' text' ↔ text = text')
  /-- From a call on, its answer is found for its text, and its text for its answer. -/
  kept : ∀ before text now, before ++ [text] <+: now → now <+: texts →
    (after hash now).lookup? text = some (answer hash before text) ∧
      (after hash now).text? (answer hash before text) = some text
  lookup?_eq_some_iff : ∀ now text id, now <+: texts →
    ((after hash now).lookup? text = some id ↔ (after hash now).text? id = some text)
  lookup?_eq_none_iff : ∀ now text, now <+: texts →
    ((after hash now).lookup? text = none ↔ text ∉ now)
  /-- There are as many texts in the table as different ones were added. -/
  size_eq : ∀ now, now <+: texts → (after hash now).size = now.eraseDups.length
  /-- The symbol of a name has its number and the name. -/
  intern_eq : ∀ before name, before ++ [name] <+: texts →
    (after hash before).intern hash name =
      (some ⟨answer hash before name, name⟩, after hash (before ++ [name]))
  /-- Symbols are equal exactly if their names are. -/
  beq_iff : ∀ before name before' name' s s', before ++ [name] <+: texts →
    before' ++ [name'] <+: texts → ((after hash before).intern hash name).1 = some s →
    ((after hash before').intern hash name').1 = some s' →
    (s == s' ↔ name = name') ∧ (s == s' ↔ s.symbol = s'.symbol)

/-! ### One addition -/

/-- The table with one more text. -/
def insert (t : TextTable) (text : String) (id : UInt64) : TextTable where
  numbers := (text, id) :: t.numbers
  texts := (id, text) :: t.texts

lemma add_of_lookup? (h : t.lookup? text = some id) : t.add hash text = (id, t) := by
  rw [add, h]

lemma add_of_new (h : t.lookup? text = none) :
    t.add hash text =
      (t.probe t.size (hash text), t.insert text (t.probe t.size (hash text))) := by
  rw [add, h]
  rfl

lemma lookup?_eq_none_iff_notMem : t.lookup? text = none ↔ text ∉ t.numbers.map Prod.fst :=
  find?_key_eq_none_iff

lemma numbers_suffix_add (hash : String → UInt64) (t : TextTable) (text : String) :
    t.numbers <:+ (t.add hash text).2.numbers := by
  cases h : t.lookup? text with
  | some id =>
    rewrite [add_of_lookup? h]
    exact List.suffix_rfl
  | none =>
    rw [add_of_new h]
    exact List.suffix_cons _ _

/-! ### Both sides -/

/-- Both lists have the same entries, in which no text and no number comes twice. -/
structure Paired (t : TextTable) : Prop where
  texts_eq : t.texts = t.numbers.map Prod.swap
  nodup_texts : (t.numbers.map Prod.fst).Nodup
  nodup_ids : t.ids.Nodup

lemma paired_empty : (empty : TextTable).Paired := ⟨rfl, List.nodup_nil, List.nodup_nil⟩

namespace Paired

lemma size_eq (ht : t.Paired) : t.size = (t.numbers.map Prod.fst).length := by
  rw [size, ht.texts_eq, List.length_map, List.length_map]

lemma lookup?_eq_some_iff (ht : t.Paired) :
    t.lookup? text = some id ↔ (text, id) ∈ t.numbers :=
  find?_key_eq_some_iff ht.nodup_texts

lemma text?_eq_some_iff (ht : t.Paired) : t.text? id = some text ↔ (text, id) ∈ t.numbers := by
  rw [← List.mem_map_swap, ← ht.texts_eq]
  exact find?_key_eq_some_iff ht.nodup_ids

/-- No number is given to two texts, and no text has two numbers. -/
lemma id_eq_iff (ht : t.Paired) {text' : String} {id' : UInt64} (h : (text, id) ∈ t.numbers)
    (h' : (text', id') ∈ t.numbers) : id = id' ↔ text = text' := by
  rw [← ht.lookup?_eq_some_iff] at h h'
  have h₁ := (ht.lookup?_eq_some_iff.trans ht.text?_eq_some_iff.symm).1 h
  have h₁' := (ht.lookup?_eq_some_iff.trans ht.text?_eq_some_iff.symm).1 h'
  constructor
  · rintro rfl
    exact Option.some.inj (h₁.symm.trans h₁')
  · rintro rfl
    exact Option.some.inj (h.symm.trans h')

/-- A text that is new is given a number that is free. -/
lemma add (ht : t.Paired) (hfree : t.lookup? text = none → t.size < UInt64.size) :
    (t.add hash text).2.Paired := by
  cases h : t.lookup? text with
  | some id => rwa [add_of_lookup? h]
  | none =>
    obtain ⟨steps, -, hsearch⟩ := searches_probe (hfree h) (hash text)
    rw [add_of_new h]
    exact
      { texts_eq := congrArg (_ :: ·) ht.texts_eq
        nodup_texts := List.nodup_cons.2 ⟨lookup?_eq_none_iff_notMem.1 h, ht.nodup_texts⟩
        nodup_ids := List.nodup_cons.2
          ⟨text?_eq_none_iff.1 hsearch.text?_eq_none, ht.nodup_ids⟩ }

end Paired

/-! ### Sequences of additions -/

lemma after_concat (hash : String → UInt64) (before : List String) (text : String) :
    after hash (before ++ [text]) = ((after hash before).add hash text).2 :=
  List.foldl_concat _ _ _ _

lemma numbers_suffix_after (h : before <+: now) :
    (after hash before).numbers <:+ (after hash now).numbers := by
  obtain ⟨more, rfl⟩ := h
  induction more using List.reverseRecOn with
  | nil =>
    rewrite [List.append_nil]
    exact List.suffix_rfl
  | append_singleton more text ih =>
    rw [← List.append_assoc, after_concat]
    exact ih.trans (numbers_suffix_add hash _ text)

/-- There are no more different texts than numbers before either. -/
lemma length_eraseDups_le (hnow : now <+: texts) (h : texts.eraseDups.length ≤ UInt64.size) :
    now.eraseDups.length ≤ UInt64.size := by
  obtain ⟨more, rfl⟩ := hnow
  rw [List.eraseDups_append, List.length_append] at h
  exact Nat.le_trans (Nat.le_add_right _ _) h

/-- The table has the texts added, the last new one first, each with a number of its own. -/
lemma paired_and_texts_after (hash : String → UInt64) (h : texts.eraseDups.length ≤ UInt64.size) :
    (after hash texts).Paired ∧
      (after hash texts).numbers.map Prod.fst = texts.eraseDups.reverse := by
  induction texts using List.reverseRecOn with
  | nil => exact ⟨paired_empty, rfl⟩
  | append_singleton before text ih =>
    obtain ⟨hpaired, htexts⟩ := ih (length_eraseDups_le (List.prefix_append _ _) h)
    rw [eraseDups_concat] at h ⊢
    rw [after_concat]
    by_cases hmem : text ∈ before.eraseDups
    · have hold : (after hash before).lookup? text ≠ none := by
        rw [Ne, lookup?_eq_none_iff_notMem, htexts, List.mem_reverse, not_not]
        exact hmem
      obtain ⟨id, hid⟩ := Option.ne_none_iff_exists'.1 hold
      rw [add_of_lookup? hid, if_pos hmem]
      exact ⟨hpaired, htexts⟩
    · rw [if_neg hmem, List.length_append, List.length_singleton] at h
      have hnew : (after hash before).lookup? text = none := by
        rw [lookup?_eq_none_iff_notMem, htexts, List.mem_reverse]
        exact hmem
      have hsize : (after hash before).size < UInt64.size := by
        rw [hpaired.size_eq, htexts, List.length_reverse]
        exact h
      refine ⟨hpaired.add fun _ => hsize, ?_⟩
      rw [add_of_new hnew, if_neg hmem, List.reverse_append, ← htexts]
      rfl

section

variable (hash : String → UInt64) (h : texts.eraseDups.length ≤ UInt64.size)
include h

lemma paired_after : (after hash texts).Paired := (paired_and_texts_after hash h).1

lemma size_after : (after hash texts).size = texts.eraseDups.length := by
  rw [(paired_after hash h).size_eq, (paired_and_texts_after hash h).2, List.length_reverse]

lemma lookup?_after_eq_none_iff : (after hash texts).lookup? text = none ↔ text ∉ texts := by
  rw [lookup?_eq_none_iff_notMem, (paired_and_texts_after hash h).2, List.mem_reverse,
    List.mem_eraseDups]

/-- From a call on, its text and its answer are an entry. -/
lemma mem_numbers_after (hcall : before ++ [text] <+: texts) :
    (text, answer hash before text) ∈ (after hash texts).numbers := by
  refine (numbers_suffix_after hcall).subset ?_
  rw [← (paired_after hash (length_eraseDups_le hcall h)).lookup?_eq_some_iff, after_concat]
  exact lookup?_add hash _ text

lemma answer_eq_answer_iff {before' : List String} {text' : String}
    (hcall : before ++ [text] <+: texts) (hcall' : before' ++ [text'] <+: texts) :
    answer hash before text = answer hash before' text' ↔ text = text' :=
  (paired_after hash h).id_eq_iff (mem_numbers_after hash h hcall) (mem_numbers_after hash h hcall')

/-- While a new text is added, a number is left. -/
lemma size_lt_of_new (hcall : before ++ [text] <+: texts) (hnew : text ∉ before) :
    (after hash before).size < UInt64.size := by
  have hbefore := length_eraseDups_le ((List.prefix_append _ _).trans hcall) h
  have hlength := length_eraseDups_le hcall h
  rw [eraseDups_concat, if_neg (mt List.mem_eraseDups.1 hnew), List.length_append]
    at hlength
  rw [size_after hash hbefore]
  exact hlength

lemma intern_after (hcall : before ++ [text] <+: texts) :
    (after hash before).intern hash text =
      (some ⟨answer hash before text, text⟩, after hash (before ++ [text])) := by
  have hlength := length_eraseDups_le hcall h
  have htext := (paired_after hash hlength).text?_eq_some_iff.2
    (mem_numbers_after hash hlength List.prefix_rfl)
  rw [after_concat] at htext ⊢
  exact Prod.ext (congrArg (Option.map _) htext) rfl

end

/-- Numbers stand for texts if no more different texts are added than there are numbers. -/
theorem interned_of_length_le (hash : String → UInt64) (texts : List String)
    (h : texts.eraseDups.length ≤ UInt64.size) : Interned hash texts where
  searches_iff before text hcall hnew := by
    have hbefore := length_eraseDups_le ((List.prefix_append _ _).trans hcall) h
    obtain ⟨steps, hsteps, hsearch⟩ :=
      searches_probe (size_lt_of_new hash h hcall hnew) (hash text)
    rw [answer, add_of_new ((lookup?_after_eq_none_iff hash hbefore).2 hnew)]
    exact ⟨steps, hsteps, fun _ _ => hsearch.iff⟩
  exists_searches_iff _ _ hnow :=
    TextTable.exists_searches_iff (paired_after hash (length_eraseDups_le hnow h)).nodup_ids
  answer_eq_iff _ _ _ _ hcall hcall' := answer_eq_answer_iff hash h hcall hcall'
  kept before text now hcall hnow := by
    have hpaired := paired_after hash (length_eraseDups_le hnow h)
    have hmem := mem_numbers_after hash (length_eraseDups_le hnow h) hcall
    exact ⟨hpaired.lookup?_eq_some_iff.2 hmem, hpaired.text?_eq_some_iff.2 hmem⟩
  lookup?_eq_some_iff now text id hnow := by
    have hpaired := paired_after hash (length_eraseDups_le hnow h)
    rw [hpaired.lookup?_eq_some_iff, hpaired.text?_eq_some_iff]
  lookup?_eq_none_iff _ _ hnow := lookup?_after_eq_none_iff hash (length_eraseDups_le hnow h)
  size_eq _ hnow := size_after hash (length_eraseDups_le hnow h)
  intern_eq _ _ hcall := intern_after hash h hcall
  beq_iff before name before' name' s s' hcall hcall' hs hs' := by
    rw [intern_after hash h hcall] at hs
    rw [intern_after hash h hcall'] at hs'
    obtain rfl := Option.some.inj hs
    obtain rfl := Option.some.inj hs'
    rw [InternedSymbol.beq_iff, answer_eq_answer_iff hash h hcall hcall', InternedSymbol.symbol,
      InternedSymbol.symbol, Symbol.mk.injEq]
    exact ⟨Iff.rfl, Iff.rfl⟩

/-- All texts have the greatest number as their hash. -/
theorem interned_of_length_le_colliding :
    ["a", "b", "a", "c"].eraseDups.length ≤ UInt64.size ∧
      Interned (fun _ => 0xFFFFFFFFFFFFFFFF) ["a", "b", "a", "c"] := by
  have hfew : ["a", "b", "a", "c"].eraseDups.length ≤ UInt64.size := by decide
  exact ⟨hfew, interned_of_length_le _ _ hfew⟩

/-- Behind the greatest number the search goes on with the least one. -/
example : answer (fun _ => 0xFFFFFFFFFFFFFFFF) ["a"] "b" = 0 := by decide

end TextTable

end Records
