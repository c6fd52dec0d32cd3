import Records.Proofs.Entries
import Records.Proofs.Shape.Index
import Records.Shape.Plain
import Mathlib.Logic.Relation
import Mathlib.Tactic.Lemma

/-!
# Shapes stand for sequences of names

Every shape but the empty one has one parent and one name that it adds to it, and the transition
for this name leads from the parent to the shape. So a table issues one shape for each sequence
of names, in whatever order the extensions come and whoever asks for them. The index of each shape
tells the positions in its list of names.

## Main definitions

* `PlainTable.Reachable`: the tables that calls lead to.
* `PlainTable.Walks`: names are added in order, while others extend the table.
* `PlainTable.Fills`: an object gains attributes, while others extend the table.
* `PlainTable.Exact`: shapes stand for sequences of names without repetitions.

## Main statements

* `PlainTable.Reachable.exact`: in every reachable table shapes stand for sequences of names.
-/

namespace Records

lemma getElem?_push_eq_some_iff {α : Type} {l : Array α} {a b : α} {i : Nat} :
    (l.push a)[i]? = some b ↔ l[i]? = some b ∨ i = l.size ∧ b = a := by
  rw [Array.getElem?_push]
  split
  · rename_i hi
    rw [Array.getElem?_eq_none (Nat.le_of_eq hi.symm), Option.some_inj]
    simp [hi, eq_comm]
  · rename_i hi
    simp [hi]

namespace PlainTable

variable {κ ν : Type} [DecidableEq κ] {t t' u u' : PlainTable κ} {m m' n : PlainShape}
  {node node' : PlainNode κ} {name name' : κ} {keys names names' : List κ} {storage : List ν}
  {stored : List (κ × ν)}

/-! ### Calls -/

/-- A call that succeeds. A call that fails leaves the table as it is. -/
inductive Step : PlainTable κ → PlainTable κ → Prop
  | extend {t t' : PlainTable κ} {m m' : PlainShape} {name : κ} :
      t.extend m name = .ok (m', t') → Step t t'
  | path {t t' : PlainTable κ} {m' : PlainShape} (names : List κ) :
      t.path names = .ok (m', t') → Step t t'

/-- Later states of a table. -/
def Later : PlainTable κ → PlainTable κ → Prop := Relation.ReflTransGen Step

/-- The tables that calls lead to. -/
def Reachable (t : PlainTable κ) : Prop := Later .empty t

/-- Names are added to a shape in order, while others extend the table. -/
inductive Walks : PlainTable κ → PlainShape → List κ → PlainTable κ → PlainShape → Prop
  | done (t : PlainTable κ) (m : PlainShape) : Walks t m [] t m
  | other {t u t' : PlainTable κ} {m m' : PlainShape} {names : List κ} :
      Step t u → Walks u m names t' m' → Walks t m names t' m'
  | add {t u t' : PlainTable κ} {m n m' : PlainShape} {name : κ} {names : List κ} :
      t.extend m name = .ok (n, u) → Walks u n names t' m' → Walks t m (name :: names) t' m'

/-- An object has a shape and values in storage. It gains attributes one after the other, and
pushes a value for each one that is new, while others extend the table. The last list says which
value was stored for which name. -/
inductive Fills : PlainTable κ → PlainShape → List ν → List (κ × ν) → Prop
  | start {t : PlainTable κ} : t.Reachable → Fills t .empty [] []
  | other {t t' : PlainTable κ} {m : PlainShape} {storage : List ν} {stored : List (κ × ν)} :
      Fills t m storage stored → Step t t' → Fills t' m storage stored
  | known {t t' : PlainTable κ} {m : PlainShape} {storage : List ν} {stored : List (κ × ν)}
      {name : κ} :
      Fills t m storage stored → t.extend m name = .ok (m, t') → Fills t' m storage stored
  | new {t t' : PlainTable κ} {m m' : PlainShape} {storage : List ν} {stored : List (κ × ν)}
      {name : κ} (value : ν) :
      Fills t m storage stored → t.extend m name = .ok (m', t') → m' ≠ m →
      Fills t' m' (storage ++ [value]) (stored ++ [(name, value)])

/-- Shapes stand for sequences of names without repetitions. -/
structure Exact (t : PlainTable κ) : Prop where
  /-- The shapes issued so far are the numbers below their count. -/
  issued_iff : ∀ m, (t.keys? m).isSome ↔ m.number < t.size
  nodup : ∀ m keys, t.keys? m = some keys → keys.Nodup
  index?_eq_some_iff : ∀ m keys name i, t.keys? m = some keys →
    (t.index? m name = some i ↔ keys[i]? = some name)
  index?_eq_none_iff : ∀ m keys name, t.keys? m = some keys →
    (t.index? m name = none ↔ name ∉ keys)
  storageSize? : ∀ m keys, t.keys? m = some keys → t.storageSize? m = some keys.length
  /-- Distinct shapes stand for distinct sequences. -/
  inj : ∀ m n keys, t.keys? m = some keys → t.keys? n = some keys → m = n
  /-- What a shape stands for never changes. -/
  kept : ∀ t' m keys, Later t t' → t.keys? m = some keys →
    t'.keys? m = some keys ∧ t'.storageSize? m = t.storageSize? m ∧
      (∀ name, t'.index? m name = t.index? m name) ∧
      ∀ {ν : Type} (name : κ) (storage : List ν) fallback,
        t'.lookup m name storage fallback = t.lookup m name storage fallback
  empty : t.keys? .empty = some []
  /-- A name that is there adds nothing. -/
  extend_mem : ∀ m keys name, t.keys? m = some keys → name ∈ keys → t.extend m name = .ok (m, t)
  /-- A name that is not there leads to the one shape with the name behind the others. -/
  extend_notMem : ∀ m keys name, t.keys? m = some keys → name ∉ keys →
    ∃ m' t', t.extend m name = .ok (m', t') ∧
      ∀ n, t'.keys? n = some (keys ++ [name]) ↔ n = m'
  /-- A path leads to the one shape with the names, each where it comes first. -/
  path : ∀ names, ∃ m t', t.path names = .ok (m, t') ∧
    ∀ n, t'.keys? n = some names.eraseDups ↔ n = m
  path_eq_iff : ∀ names names' m m' u u' t', t.path names = .ok (m, u) → Later u u' →
    u'.path names' = .ok (m', t') → (m = m' ↔ names.eraseDups = names'.eraseDups)
  /-- Others may extend the table also while the names of a path are added. -/
  walks_eq_iff : ∀ names names' m m' u u' t', Walks t .empty names u m → Later u u' →
    Walks u' .empty names' t' m' → (m = m' ↔ names.eraseDups = names'.eraseDups)
  /-- An object stores one value for each name of its shape, and reads it back. -/
  fills : ∀ {ν : Type} {m : PlainShape} {storage : List ν} {stored : List (κ × ν)},
    Fills t m storage stored → t.keys? m = some (stored.map Prod.fst) ∧
      ∀ name fallback,
        (∀ value, (name, value) ∈ stored → t.lookup m name storage fallback = value) ∧
        (name ∉ stored.map Prod.fst → t.lookup m name storage fallback = fallback)

/-! ### One extension -/

/-- The table after a new shape was issued. -/
def issue (t : PlainTable κ) (m : PlainShape) (node : PlainNode κ) (name : κ) : PlainTable κ where
  nodes := t.nodes.push (node.add name)
  transitions := ((m, name), ⟨t.size⟩) :: t.transitions

omit [DecidableEq κ] in
lemma keys?_eq_some_iff :
    t.keys? m = some keys ↔ ∃ node, t.node? m = some node ∧ node.keys = keys :=
  Option.map_eq_some_iff

omit [DecidableEq κ] in
lemma keys?_of_node? (h : t.node? m = some node) : t.keys? m = some node.keys :=
  keys?_eq_some_iff.2 ⟨node, h, rfl⟩

omit [DecidableEq κ] in
lemma number_lt_of_node? (h : t.node? m = some node) : m.number < t.size :=
  (Array.getElem?_eq_some_iff.1 h).1

omit [DecidableEq κ] in
lemma isSome_keys?_iff : (t.keys? m).isSome ↔ m.number < t.size := by
  rw [keys?, Option.isSome_map, Option.isSome_iff_exists]
  exact ⟨fun ⟨_, h⟩ => number_lt_of_node? h, fun h => ⟨_, Array.getElem?_eq_getElem h⟩⟩

lemma node?_issue :
    (t.issue m node name).node? n = some node' ↔
      t.node? n = some node' ∨ n = ⟨t.size⟩ ∧ node' = node.add name := by
  cases n
  rw [PlainShape.mk.injEq]
  exact getElem?_push_eq_some_iff

lemma keys?_issue :
    (t.issue m node name).keys? n = some keys ↔
      t.keys? n = some keys ∨ n = ⟨t.size⟩ ∧ keys = node.keys ++ [name] := by
  simp only [keys?_eq_some_iff, node?_issue, or_and_right, exists_or]
  refine or_congr_right ⟨?_, ?_⟩
  · rintro ⟨_, ⟨hn, rfl⟩, rfl⟩
    exact ⟨hn, rfl⟩
  · rintro ⟨hn, rfl⟩
    exact ⟨_, ⟨hn, rfl⟩, rfl⟩

lemma transition?_issue :
    (t.issue m node name).transition? n name' =
      if (m, name) = (n, name') then some ⟨t.size⟩ else t.transition? n name' := by
  unfold transition? issue
  rw [List.find?_cons]
  by_cases h : (m, name) = (n, name')
  · rw [if_pos h, decide_eq_true h]
    rfl
  · rw [if_neg h, decide_eq_false h]

/-- What an extension answers, and the table behind it. -/
lemma extend_eq_ok_iff :
    t.extend m name = .ok (m', t') ↔ ∃ node, t.node? m = some node ∧
      (node.indexes.contains name ∧ m' = m ∧ t' = t ∨
        ¬node.indexes.contains name ∧ (t.transition? m name = some m' ∧ t' = t ∨
          t.transition? m name = none ∧ m' = ⟨t.size⟩ ∧ t' = t.issue m node name)) := by
  unfold extend
  cases hm : t.node? m with
  | none => simp
  | some node =>
    simp only [Option.some.injEq, exists_eq_left']
    cases hname : node.indexes.contains name with
    | true => simp [eq_comm]
    | false =>
      cases htransition : t.transition? m name with
      | none => simp [issue, size, eq_comm]
      | some child => simp [eq_comm]

/-- Shapes that are there stay as they are. -/
def Kept (t t' : PlainTable κ) : Prop := ∀ n node, t.node? n = some node → t'.node? n = some node

omit [DecidableEq κ] in
lemma Kept.trans (h : t.Kept u) (h' : u.Kept t') : t.Kept t' :=
  fun n node hn => h' n node (h n node hn)

omit [DecidableEq κ] in
lemma Kept.keys? (h : t.Kept t') (hm : t.keys? m = some keys) : t'.keys? m = some keys := by
  obtain ⟨node, hnode, rfl⟩ := keys?_eq_some_iff.1 hm
  exact keys?_of_node? (h m node hnode)

/-! ### The tree of shapes -/

/-- Every shape but the empty one has one parent, and a transition leads from it to the shape. The
index of a shape tells the positions of its names. -/
structure Rooted (t : PlainTable κ) : Prop where
  empty : t.node? .empty = some {}
  indexes : ∀ m node, t.node? m = some node → node.indexes.Indexes node.keys
  inj : ∀ m n keys, t.keys? m = some keys → t.keys? n = some keys → m = n
  parent : ∀ n keys name, t.keys? n = some (keys ++ [name]) →
    ∃ m, t.keys? m = some keys ∧ t.transition? m name = some n
  child : ∀ m name n, t.transition? m name = some n →
    ∃ keys, t.keys? m = some keys ∧ t.keys? n = some (keys ++ [name])

lemma rooted_empty : (empty : PlainTable κ).Rooted := by
  have hnode : ∀ m node, (empty : PlainTable κ).node? m = some node → m = .empty ∧ node = {} := by
    intro m node h
    have hm : m.number = 0 := Nat.lt_one_iff.1 (number_lt_of_node? h)
    obtain rfl : m = .empty := congrArg PlainShape.mk hm
    exact ⟨rfl, (Option.some.inj h).symm⟩
  refine ⟨rfl, ?_, ?_, ?_, nofun⟩
  · intro m node h
    rw [(hnode m node h).2]
    exact .empty
  · intro m n keys hm hn
    obtain ⟨node, hm, -⟩ := keys?_eq_some_iff.1 hm
    obtain ⟨node', hn, -⟩ := keys?_eq_some_iff.1 hn
    rw [(hnode m node hm).1, (hnode n node' hn).1]
  · intro n keys name h
    obtain ⟨node, hn, hkeys⟩ := keys?_eq_some_iff.1 h
    rw [(hnode n node hn).2] at hkeys
    exact absurd hkeys.symm (List.append_ne_nil_of_right_ne_nil _ nofun)

namespace Rooted

variable (h : t.Rooted)
include h

lemma keys?_empty : t.keys? .empty = some [] := keys?_of_node? h.empty

lemma nodup (hm : t.keys? m = some keys) : keys.Nodup := by
  obtain ⟨node, hnode, rfl⟩ := keys?_eq_some_iff.1 hm
  exact (h.indexes m node hnode).nodup

/-- A sequence that no transition leads to is that of no shape. -/
lemma keys?_ne (hkeys : t.keys? m = some keys) (hnone : t.transition? m name = none)
    (n : PlainShape) : t.keys? n ≠ some (keys ++ [name]) := by
  intro hn
  obtain ⟨m', hm', htransition⟩ := h.parent n keys name hn
  rw [h.inj m' m keys hm' hkeys, hnone] at htransition
  cases htransition

lemma issue (hm : t.node? m = some node) (hname : name ∉ node.keys)
    (hnone : t.transition? m name = none) : (t.issue m node name).Rooted where
  empty := node?_issue.2 (.inl h.empty)
  indexes n node' hn := by
    rcases node?_issue.1 hn with hn | ⟨-, rfl⟩
    · exact h.indexes n node' hn
    · exact (h.indexes m node hm).insert hname
  inj n n' keys hn hn' := by
    have hne := h.keys?_ne (keys?_of_node? hm) hnone
    rcases keys?_issue.1 hn with hn | ⟨rfl, rfl⟩ <;> rcases keys?_issue.1 hn' with hn' | ⟨rfl, heq⟩
    · exact h.inj n n' keys hn hn'
    · exact absurd (heq ▸ hn) (hne n)
    · exact absurd hn' (hne n')
    · rfl
  parent n keys name' hn := by
    rcases keys?_issue.1 hn with hn | ⟨rfl, heq⟩
    · obtain ⟨m', hm', htransition⟩ := h.parent n keys name' hn
      refine ⟨m', keys?_issue.2 (.inl hm'), ?_⟩
      rw [transition?_issue, if_neg, htransition]
      rintro heq
      obtain ⟨rfl, rfl⟩ := Prod.mk.inj heq
      rw [hnone] at htransition
      cases htransition
    · obtain ⟨rfl, hsingle⟩ := List.append_inj' heq rfl
      obtain rfl := List.singleton_inj.1 hsingle
      exact ⟨m, keys?_issue.2 (.inl (keys?_of_node? hm)), by rw [transition?_issue, if_pos rfl]⟩
  child m' name' n hn := by
    rw [transition?_issue] at hn
    split at hn
    · rename_i heq
      obtain ⟨rfl, rfl⟩ := Prod.mk.inj heq
      exact ⟨node.keys, keys?_issue.2 (.inl (keys?_of_node? hm)),
        keys?_issue.2 (.inr ⟨(Option.some.inj hn).symm, rfl⟩)⟩
    · obtain ⟨keys', hm', hn⟩ := h.child m' name' n hn
      exact ⟨keys', keys?_issue.2 (.inl hm'), keys?_issue.2 (.inl hn)⟩

/-- An extension answers the shape with the name behind the others, unless it is there. Other
shapes stay as they are. -/
lemma of_extend (hextend : t.extend m name = .ok (m', t')) :
    t'.Rooted ∧ t.Kept t' ∧ ∃ keys, t.keys? m = some keys ∧
      t'.keys? m' = some (if name ∈ keys then keys else keys ++ [name]) := by
  obtain ⟨node, hm, hcases⟩ := extend_eq_ok_iff.1 hextend
  have hkeys := keys?_of_node? hm
  rw [(h.indexes m node hm).contains_iff] at hcases
  rcases hcases with ⟨hname, rfl, rfl⟩ | ⟨hname, ⟨htransition, rfl⟩ | ⟨hnone, rfl, rfl⟩⟩
  · exact ⟨h, fun _ _ => id, node.keys, hkeys, by rwa [if_pos hname]⟩
  · obtain ⟨keys, hkeys', hm'⟩ := h.child m name m' htransition
    obtain rfl := Option.some.inj (hkeys.symm.trans hkeys')
    exact ⟨h, fun _ _ => id, node.keys, hkeys, by rwa [if_neg hname]⟩
  · refine ⟨h.issue hm hname hnone, fun n node' hn => node?_issue.2 (.inl hn), node.keys, hkeys, ?_⟩
    rw [if_neg hname]
    exact keys?_issue.2 (.inr ⟨rfl, rfl⟩)

end Rooted

/-- A shape of the table can be extended. -/
lemma exists_extend_eq_ok (hkeys : t.keys? m = some keys) (name : κ) :
    ∃ m' t', t.extend m name = .ok (m', t') := by
  obtain ⟨node, hm, -⟩ := keys?_eq_some_iff.1 hkeys
  unfold extend
  rw [hm]
  dsimp only
  split
  · exact ⟨_, _, rfl⟩
  · split
    · exact ⟨_, _, rfl⟩
    · exact ⟨_, _, rfl⟩

/-! ### Names in order -/

/-- An extension adds a name to those of a shape, unless it is there. -/
lemma Rooted.keys?_of_extend (h : t.Rooted) (hextend : t.extend m name = .ok (m', t'))
    (hm : t.keys? m = some names.eraseDups) : t'.keys? m' = some (names ++ [name]).eraseDups := by
  obtain ⟨-, -, keys, hkeys, hm'⟩ := h.of_extend hextend
  obtain rfl := Option.some.inj (hm.symm.trans hkeys)
  rw [hm', eraseDups_concat]

lemma extendAll_cons_eq_ok_iff :
    t.extendAll m (name :: names) = .ok (m', t') ↔
      ∃ n u, t.extend m name = .ok (n, u) ∧ u.extendAll n names = .ok (m', t') := by
  rw [extendAll]
  cases t.extend m name with
  | error e => exact ⟨nofun, nofun⟩
  | ok r =>
    obtain ⟨n, u⟩ := r
    exact ⟨fun h => ⟨n, u, rfl, h⟩, fun ⟨_, _, h, h'⟩ => by cases h; exact h'⟩

lemma walks_of_extendAll (h : t.extendAll m names = .ok (m', t')) : Walks t m names t' m' := by
  induction names generalizing t m with
  | nil =>
    obtain ⟨rfl, rfl⟩ := Prod.mk.inj (Except.ok.inj h)
    exact .done t m
  | cons name names ih =>
    obtain ⟨n, u, hextend, hnames⟩ := extendAll_cons_eq_ok_iff.1 h
    exact .add hextend (ih hnames)

/-- Adding names in order never fails at a shape of the table. -/
lemma Rooted.exists_extendAll_eq_ok (h : t.Rooted) (hkeys : t.keys? m = some keys)
    (names : List κ) : ∃ m' t', t.extendAll m names = .ok (m', t') := by
  induction names generalizing t m keys with
  | nil => exact ⟨m, t, rfl⟩
  | cons name names ih =>
    obtain ⟨n, u, hextend⟩ := exists_extend_eq_ok hkeys name
    obtain ⟨hu, -, keys', -, hn⟩ := h.of_extend hextend
    obtain ⟨m', t', hnames⟩ := ih hu hn
    exact ⟨m', t', extendAll_cons_eq_ok_iff.2 ⟨n, u, hextend, hnames⟩⟩

lemma Rooted.of_extendAll (h : t.Rooted) (hextend : t.extendAll m names = .ok (m', t')) :
    t'.Rooted ∧ t.Kept t' := by
  induction names generalizing t m with
  | nil =>
    obtain ⟨rfl, rfl⟩ := Prod.mk.inj (Except.ok.inj hextend)
    exact ⟨h, fun _ _ => id⟩
  | cons name names ih =>
    obtain ⟨n, u, hextend, hnames⟩ := extendAll_cons_eq_ok_iff.1 hextend
    obtain ⟨hu, hkept, -⟩ := h.of_extend hextend
    obtain ⟨ht', hkept'⟩ := ih hu hnames
    exact ⟨ht', hkept.trans hkept'⟩

/-! ### Later tables -/

lemma Rooted.step (h : t.Rooted) (hstep : Step t t') : t'.Rooted ∧ t.Kept t' := by
  cases hstep with
  | extend hextend =>
    obtain ⟨ht', hkept, -⟩ := h.of_extend hextend
    exact ⟨ht', hkept⟩
  | path _ hpath => exact h.of_extendAll hpath

lemma Rooted.later (h : t.Rooted) (hlater : Later t t') : t'.Rooted ∧ t.Kept t' := by
  induction hlater with
  | refl => exact ⟨h, fun _ _ => id⟩
  | tail _ hstep ih =>
    obtain ⟨ht', hkept⟩ := ih.1.step hstep
    exact ⟨ht', ih.2.trans hkept⟩

lemma Reachable.rooted (h : t.Reachable) : t.Rooted := (rooted_empty.later h).1

/-- Adding names to a shape leads to the shape with all of them, each where it comes first. -/
lemma Rooted.keys?_of_walks (h : t.Rooted) (hwalks : Walks t m names t' m') (seen : List κ)
    (hm : t.keys? m = some seen.eraseDups) :
    t'.Rooted ∧ t.Kept t' ∧ t'.keys? m' = some (seen ++ names).eraseDups := by
  induction hwalks generalizing seen with
  | done t m => exact ⟨h, fun _ _ => id, by rwa [List.append_nil]⟩
  | other hstep _ ih =>
    obtain ⟨hu, hkept⟩ := h.step hstep
    obtain ⟨ht', hkept', hm'⟩ := ih hu seen (hkept.keys? hm)
    exact ⟨ht', hkept.trans hkept', hm'⟩
  | @add t u t' m n m' name names hextend _ ih =>
    obtain ⟨hu, hkept, -⟩ := h.of_extend hextend
    obtain ⟨ht', hkept', hm'⟩ := ih hu (seen ++ [name]) (h.keys?_of_extend hextend hm)
    rw [List.append_assoc, List.singleton_append] at hm'
    exact ⟨ht', hkept.trans hkept', hm'⟩

/-- Two walks from the empty shape meet exactly if their names come first in the same order. -/
lemma Rooted.walks_eq_iff (h : t.Rooted) (hwalks : Walks t .empty names u m) (hlater : Later u u')
    (hwalks' : Walks u' .empty names' t' m') :
    m = m' ↔ names.eraseDups = names'.eraseDups := by
  obtain ⟨hu, -, hm⟩ := h.keys?_of_walks hwalks [] h.keys?_empty
  obtain ⟨hu', hkept⟩ := hu.later hlater
  obtain ⟨ht', hkept', hm'⟩ := hu'.keys?_of_walks hwalks' [] hu'.keys?_empty
  rw [List.nil_append] at hm hm'
  have hm := hkept'.keys? (hkept.keys? hm)
  constructor
  · rintro rfl
    exact Option.some.inj (hm.symm.trans hm')
  · intro heq
    exact ht'.inj m m' _ hm (heq ▸ hm')

/-! ### Positions -/

lemma Rooted.index?_eq_some_iff (h : t.Rooted) (hkeys : t.keys? m = some keys) (i : Nat) :
    t.index? m name = some i ↔ keys[i]? = some name := by
  obtain ⟨node, hm, rfl⟩ := keys?_eq_some_iff.1 hkeys
  rw [index?, hm, Option.bind_some, (h.indexes m node hm).find?_eq_some_iff]

lemma Rooted.index?_eq_none_iff (h : t.Rooted) (hkeys : t.keys? m = some keys) :
    t.index? m name = none ↔ name ∉ keys := by
  obtain ⟨node, hm, rfl⟩ := keys?_eq_some_iff.1 hkeys
  rw [index?, hm, Option.bind_some, (h.indexes m node hm).find?_eq_none_iff]

/-! ### Objects -/

/-- The values of an object are in the order of the names of its shape. -/
lemma Fills.aligned (h : Fills t m storage stored) :
    t.Rooted ∧ t.keys? m = some (stored.map Prod.fst) ∧ storage = stored.map Prod.snd := by
  induction h with
  | start h => exact ⟨h.rooted, h.rooted.keys?_empty, rfl⟩
  | other _ hstep ih =>
    obtain ⟨ht, hm, hstorage⟩ := ih
    obtain ⟨ht', hkept⟩ := ht.step hstep
    exact ⟨ht', hkept.keys? hm, hstorage⟩
  | known _ hextend ih =>
    obtain ⟨ht, hm, hstorage⟩ := ih
    obtain ⟨ht', hkept, -⟩ := ht.of_extend hextend
    exact ⟨ht', hkept.keys? hm, hstorage⟩
  | new value _ hextend hne ih =>
    obtain ⟨ht, hm, rfl⟩ := ih
    obtain ⟨ht', hkept, keys, hkeys, hm'⟩ := ht.of_extend hextend
    obtain rfl := Option.some.inj (hm.symm.trans hkeys)
    rw [List.map_append, List.map_append]
    refine ⟨ht', ?_, rfl⟩
    rw [hm']
    refine congrArg some (if_neg fun hname => hne ?_)
    rw [if_pos hname] at hm'
    exact ht'.inj _ _ _ hm' (hkept.keys? hm)

lemma Fills.lookup_of_mem (h : Fills t m storage stored) {value : ν}
    (hmem : (name, value) ∈ stored) (fallback : ν) : t.lookup m name storage fallback = value := by
  obtain ⟨ht, hkeys, rfl⟩ := h.aligned
  obtain ⟨i, hi⟩ := List.mem_iff_getElem?.1 hmem
  have hname : (stored.map Prod.fst)[i]? = some name := by rw [List.getElem?_map, hi]; rfl
  rw [lookup, (ht.index?_eq_some_iff hkeys i).2 hname, Option.bind_some, List.getElem?_map, hi]
  rfl

lemma Fills.lookup_of_notMem (h : Fills t m storage stored) (hname : name ∉ stored.map Prod.fst)
    (fallback : ν) : t.lookup m name storage fallback = fallback := by
  obtain ⟨ht, hkeys, -⟩ := h.aligned
  rw [lookup, (ht.index?_eq_none_iff hkeys).2 hname]
  rfl

/-- What a table answers for a shape is read off its node. -/
lemma Kept.answers (h : t.Kept t') (hm : t.node? m = some node) :
    t'.storageSize? m = t.storageSize? m ∧ (∀ name, t'.index? m name = t.index? m name) ∧
      ∀ {ν : Type} (name : κ) (storage : List ν) fallback,
        t'.lookup m name storage fallback = t.lookup m name storage fallback := by
  have heq : t'.node? m = t.node? m := (h m node hm).trans hm.symm
  have hindex : ∀ name, t'.index? m name = t.index? m name := fun name => by
    rw [index?, index?, heq]
  exact ⟨by rw [storageSize?, storageSize?, heq], hindex, fun name storage fallback => by
    rw [lookup, lookup, hindex]⟩

/-- In every reachable table shapes stand for sequences of names. -/
theorem Reachable.exact (h : t.Reachable) : t.Exact where
  issued_iff _ := isSome_keys?_iff
  nodup _ _ hkeys := h.rooted.nodup hkeys
  index?_eq_some_iff _ _ _ i hkeys := h.rooted.index?_eq_some_iff hkeys i
  index?_eq_none_iff _ _ _ hkeys := h.rooted.index?_eq_none_iff hkeys
  storageSize? m keys hkeys := by
    obtain ⟨node, hm, rfl⟩ := keys?_eq_some_iff.1 hkeys
    rw [PlainTable.storageSize?, hm, Option.map_some]
  inj := h.rooted.inj
  kept t' m keys hlater hkeys := by
    have hkept : t.Kept t' := (h.rooted.later hlater).2
    obtain ⟨node, hm, -⟩ := keys?_eq_some_iff.1 hkeys
    exact ⟨hkept.keys? hkeys, hkept.answers hm⟩
  empty := h.rooted.keys?_empty
  extend_mem m keys name hkeys hname := by
    obtain ⟨node, hm, rfl⟩ := keys?_eq_some_iff.1 hkeys
    exact extend_of_contains hm (((h.rooted.indexes m node hm).contains_iff name).2 hname)
  extend_notMem m keys name hkeys hname := by
    obtain ⟨m', t', hextend⟩ := exists_extend_eq_ok hkeys name
    obtain ⟨ht', -, keys', hkeys', hm'⟩ := h.rooted.of_extend hextend
    obtain rfl := Option.some.inj (hkeys.symm.trans hkeys')
    rw [if_neg hname] at hm'
    refine ⟨m', t', hextend, fun n => ⟨fun hn => ht'.inj n m' _ hn hm', ?_⟩⟩
    rintro rfl
    exact hm'
  path names := by
    obtain ⟨m, t', hpath⟩ := h.rooted.exists_extendAll_eq_ok h.rooted.keys?_empty names
    obtain ⟨ht', -, hm⟩ :=
      h.rooted.keys?_of_walks (walks_of_extendAll hpath) [] h.rooted.keys?_empty
    rw [List.nil_append] at hm
    refine ⟨m, t', hpath, fun n => ⟨fun hn => ht'.inj n m _ hn hm, ?_⟩⟩
    rintro rfl
    exact hm
  path_eq_iff _ _ _ _ _ _ _ hpath hlater hpath' :=
    h.rooted.walks_eq_iff (walks_of_extendAll hpath) hlater (walks_of_extendAll hpath')
  walks_eq_iff _ _ _ _ _ _ _ hwalks hlater hwalks' :=
    h.rooted.walks_eq_iff hwalks hlater hwalks'
  fills hfills := ⟨hfills.aligned.2.1, fun _ fallback =>
    ⟨fun _ hmem => hfills.lookup_of_mem hmem fallback,
      fun hname => hfills.lookup_of_notMem hname fallback⟩⟩

/-- The names of two attributes are added in both orders, and one of them a second time. -/
def crossed : PlainTable String where
  nodes :=
    #[{}, { indexes := ⟨[("a", 0)]⟩, keys := ["a"] },
      { indexes := ⟨[("b", 1), ("a", 0)]⟩, keys := ["a", "b"] },
      { indexes := ⟨[("b", 0)]⟩, keys := ["b"] },
      { indexes := ⟨[("a", 1), ("b", 0)]⟩, keys := ["b", "a"] }]
  transitions :=
    [((⟨3⟩, "a"), ⟨4⟩), ((⟨0⟩, "b"), ⟨3⟩), ((⟨1⟩, "b"), ⟨2⟩), ((⟨0⟩, "a"), ⟨1⟩)]

lemma reachable_crossed : crossed.Reachable :=
  .tail (.tail .refl (.path ["a", "b"] rfl)) (.path ["b", "a", "b"] rfl)

/-- The two orders of the names lead to two shapes. -/
theorem Reachable.exact_crossed : crossed.Reachable ∧ crossed.Exact :=
  ⟨reachable_crossed, reachable_crossed.exact⟩

end PlainTable

end Records
