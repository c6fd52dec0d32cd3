import Records.Proofs.Shape.Caching
import Records.Shape.Composite

/-!
# Composite shapes stand for tuples

A table of composites keeps the tuple of each number and the number of each tuple. Each of the two
undoes the other one, whatever calls came before: a tuple that is equal to one met before has the
number of that one, and a number stands for the first of the equal tuples it was given to.

Where the components of the tuples are shapes of a plain and of a caching table, a composite
stands for the attributes that an object has gained in both.

## Main definitions

* `CompositeTable.Reachable`: the tables that calls lead to, with the tuples asked for.
* `CompositeTable.Numbered`: numbers stand for the tuples met.
* `ShapeTables.Object`: an object gains attributes of both kinds of tables, while others do.

## Main statements

* `CompositeTable.Reachable.numbered`: in every reachable table numbers stand for tuples.
* `ShapeTables.Object.composite_eq_iff`: two objects share a composite exactly if they have the
  same history in both tables.
-/

namespace Records

namespace CompositeTable

variable {τ : Type} [BEq τ] {t t' : CompositeTable τ} {c d : CompositeShape} {p q : τ}
  {met : List τ}

/-! ### Calls -/

/-- The tables that calls lead to, with the tuples that were asked for, in order. -/
inductive Reachable : CompositeTable τ → List τ → Prop
  | empty : Reachable .empty []
  | instantiate {t : CompositeTable τ} {met : List τ} (parts : τ) :
      Reachable t met → Reachable (t.instantiate parts).2 (met ++ [parts])

/-- A call. -/
inductive Step : CompositeTable τ → CompositeTable τ → Prop
  | instantiate (t : CompositeTable τ) (parts : τ) : Step t (t.instantiate parts).2

/-- Later states of a table. -/
def Later : CompositeTable τ → CompositeTable τ → Prop := Relation.ReflTransGen Step

/-- Numbers stand for the tuples met, the first one of those that are equal. -/
structure Numbered (t : CompositeTable τ) (met : List τ) : Prop where
  /-- There are as many numbers as different tuples. -/
  size_eq : t.size = met.eraseDups.length
  /-- A number stands for the tuple that it was given to first. -/
  parts?_eq : ∀ c, t.parts? c = met.eraseDups[c.number]?
  /-- The numbers issued so far are those below their count. -/
  parts?_eq_none_iff : ∀ c, t.parts? c = none ↔ t.size ≤ c.number
  /-- A tuple that was met has a number, which stands for an equal tuple. -/
  known : ∀ p q, q ∈ met → q == p →
    ∃ c r, t.instantiate p = (c, t) ∧ t.parts? c = some r ∧ r == p
  /-- A tuple that was not met is given the next number. -/
  fresh : ∀ p, (∀ q ∈ met, ¬q == p) → (t.instantiate p).1 = ⟨t.size⟩ ∧
    (t.instantiate p).2.size = t.size + 1 ∧ (t.instantiate p).2.parts? ⟨t.size⟩ = some p
  /-- Two calls answer one number exactly if their tuples are equal, whatever was called between
  them. -/
  eq_iff : ∀ p q t', Later (t.instantiate p).2 t' →
    ((t.instantiate p).1 = (t'.instantiate q).1 ↔ p == q)
  /-- What a number stands for never changes. -/
  kept : ∀ t' c p, Later t t' → t.parts? c = some p → t'.parts? c = some p

/-! ### One call -/

/-- The table after a new tuple was given a number. -/
def issue (t : CompositeTable τ) (p : τ) : CompositeTable τ where
  parts := t.parts ++ [p]
  ids := (p, ⟨t.size⟩) :: t.ids

omit [BEq τ] in
lemma parts?_issue : (t.issue p).parts? c = some q ↔
    t.parts? c = some q ∨ c = ⟨t.size⟩ ∧ q = p := by
  cases c
  rw [CompositeShape.mk.injEq, parts?, issue, List.getElem?_append]
  simp only [parts?, size]
  split
  · rename_i h
    simp [Nat.ne_of_lt h]
  · rename_i h
    rw [List.getElem?_eq_none (Nat.le_of_not_lt h), List.getElem?_singleton]
    split <;> simp [eq_comm] <;> omega

lemma id?_issue : (t.issue p).id? q = if p == q then some ⟨t.size⟩ else t.id? q := by
  unfold id? issue
  rw [List.find?_cons]
  split <;> simp_all

/-- What a call answers, and the table behind it. -/
lemma instantiate_cases (t : CompositeTable τ) (p : τ) :
    (∃ c, t.id? p = some c ∧ t.instantiate p = (c, t)) ∨
      t.id? p = none ∧ t.instantiate p = (⟨t.size⟩, t.issue p) := by
  cases h : t.id? p with
  | some c => exact .inl ⟨c, rfl, instantiate_of_id? h⟩
  | none => exact .inr ⟨rfl, instantiate_of_new h⟩

/-! ### Both directions -/

/-- A tuple has a number exactly if the number stands for an equal tuple. -/
def Mirrored (t : CompositeTable τ) : Prop :=
  ∀ p c, t.id? p = some c ↔ ∃ q, t.parts? c = some q ∧ q == p

lemma mirrored_empty : (empty : CompositeTable τ).Mirrored := by
  intro p c
  constructor
  · intro h
    cases h
  · rintro ⟨q, hq, -⟩
    cases hq

variable [EquivBEq τ]

/-- Equal tuples have one number. -/
lemma Mirrored.eq_of_parts? (ht : t.Mirrored) (hc : t.parts? c = some p) (hd : t.parts? d = some q)
    (hpq : p == q) : c = d := by
  have hp : t.id? q = some c := (ht q c).2 ⟨p, hc, hpq⟩
  have hq : t.id? q = some d := (ht q d).2 ⟨q, hd, BEq.rfl⟩
  exact Option.some.inj (hp.symm.trans hq)

lemma Mirrored.issue (ht : t.Mirrored) (hnew : t.id? p = none) : (t.issue p).Mirrored := by
  intro q c
  rw [id?_issue]
  simp only [parts?_issue]
  split
  · rename_i hpq
    constructor
    · rintro h
      exact ⟨p, .inr ⟨(Option.some.inj h).symm, rfl⟩, hpq⟩
    · rintro ⟨r, hr | ⟨rfl, rfl⟩, hrq⟩
      · -- an older number would stand for a tuple equal to the new one
        have hp : t.id? p = some c := (ht p c).2 ⟨r, hr, BEq.trans hrq (BEq.symm hpq)⟩
        rw [hnew] at hp
        cases hp
      · rfl
  · rename_i hpq
    rw [ht q c]
    constructor
    · rintro ⟨r, hr, hrq⟩
      exact ⟨r, .inl hr, hrq⟩
    · rintro ⟨r, hr | ⟨rfl, rfl⟩, hrq⟩
      · exact ⟨r, hr, hrq⟩
      · exact absurd hrq hpq

/-- A call answers a number that stands for an equal tuple from then on. -/
lemma Mirrored.instantiate (ht : t.Mirrored) (p : τ) :
    (t.instantiate p).2.Mirrored ∧
      (∀ c q, t.parts? c = some q → (t.instantiate p).2.parts? c = some q) ∧
      ∃ q, (t.instantiate p).2.parts? (t.instantiate p).1 = some q ∧ q == p := by
  rcases t.instantiate_cases p with ⟨c, hc, h⟩ | ⟨hnew, h⟩
  · rw [h]
    exact ⟨ht, fun _ _ => id, (ht p c).1 hc⟩
  · rw [h]
    exact ⟨ht.issue hnew, fun _ _ hc => parts?_issue.2 (.inl hc), p,
      parts?_issue.2 (.inr ⟨rfl, rfl⟩), BEq.rfl⟩

lemma Mirrored.later (ht : t.Mirrored) (hlater : Later t t') :
    t'.Mirrored ∧ ∀ c p, t.parts? c = some p → t'.parts? c = some p := by
  induction hlater with
  | refl => exact ⟨ht, fun _ _ => id⟩
  | tail _ hstep ih =>
    cases hstep with
    | instantiate q =>
      obtain ⟨hmirrored, hkept, -⟩ := ih.1.instantiate q
      exact ⟨hmirrored, fun c p hc => hkept c p (ih.2 c p hc)⟩

/-- Two calls answer one number exactly if their tuples are equal. -/
lemma Mirrored.eq_iff (ht : t.Mirrored) (p q : τ) (hlater : Later (t.instantiate p).2 t') :
    (t.instantiate p).1 = (t'.instantiate q).1 ↔ p == q := by
  obtain ⟨hfirst, -, r, hr, hrp⟩ := ht.instantiate p
  obtain ⟨ht', hkept⟩ := hfirst.later hlater
  obtain ⟨hsecond, hkept', s, hs, hsq⟩ := ht'.instantiate q
  have hr : (t'.instantiate q).2.parts? (t.instantiate p).1 = some r :=
    hkept' _ r (hkept _ r hr)
  constructor
  · intro heq
    rw [heq, hs] at hr
    obtain rfl := Option.some.inj hr
    exact BEq.trans (BEq.symm hrp) hsq
  · intro hpq
    exact hsecond.eq_of_parts? hr hs (BEq.trans (BEq.trans hrp hpq) (BEq.symm hsq))

/-! ### The tuples met -/

omit [EquivBEq τ] in
lemma Mirrored.id?_eq_none_iff (ht : t.Mirrored) : t.id? p = none ↔ ∀ q ∈ t.parts, ¬q == p := by
  rw [Option.eq_none_iff_forall_not_mem]
  constructor
  · intro h q hq hqp
    obtain ⟨i, hi⟩ := List.mem_iff_getElem?.1 hq
    exact h ⟨i⟩ ((ht p ⟨i⟩).2 ⟨q, hi, hqp⟩)
  · intro h c hc
    obtain ⟨q, hq, hqp⟩ := (ht p c).1 hc
    exact h q (List.mem_of_getElem? hq) hqp

/-- A call adds its tuple unless an equal one is there. -/
lemma Mirrored.parts_instantiate (ht : t.Mirrored) (p : τ) :
    (t.instantiate p).2.parts =
      if t.parts.any (p == ·) then t.parts else t.parts ++ [p] := by
  rcases t.instantiate_cases p with ⟨c, hc, h⟩ | ⟨hnew, h⟩
  · obtain ⟨q, hq, hqp⟩ := (ht p c).1 hc
    rw [h, if_pos (List.any_eq_true.2 ⟨q, List.mem_of_getElem? hq, BEq.symm hqp⟩)]
  · have hany : ¬t.parts.any (p == ·) := by
      rw [List.any_eq_true]
      rintro ⟨q, hq, hpq⟩
      exact ht.id?_eq_none_iff.1 hnew q hq (BEq.symm hpq)
    rw [h, if_neg hany]
    rfl

lemma Reachable.mirrored (h : Reachable t met) : t.Mirrored := by
  induction h with
  | empty => exact mirrored_empty
  | instantiate p _ ih => exact (ih.instantiate p).1

/-- The table has the tuples met, each where it comes first. -/
lemma Reachable.parts_eq (h : Reachable t met) : t.parts = met.eraseDups := by
  induction h with
  | empty => rfl
  | instantiate p h ih => rw [h.mirrored.parts_instantiate, eraseDups_append_singleton, ih]

/-- The table has a tuple equal to a given one exactly if such a tuple was met. -/
lemma Reachable.exists_mem_parts_iff (h : Reachable t met) :
    (∃ q ∈ t.parts, q == p) ↔ ∃ q ∈ met, q == p := by
  induction h with
  | empty => exact Iff.rfl
  | @instantiate t met r h ih =>
    have hsplit : ∀ l : List τ, (∃ q ∈ l ++ [r], q == p) ↔ (∃ q ∈ l, q == p) ∨ r == p := by
      intro l
      simp only [List.mem_append, List.mem_singleton, or_and_right, exists_or, exists_eq_left]
    rw [hsplit, ← ih, h.mirrored.parts_instantiate]
    split
    · rename_i hr
      obtain ⟨q, hq, hrq⟩ := List.any_eq_true.1 hr
      constructor
      · exact .inl
      · rintro (hp | hrp)
        · exact hp
        · exact ⟨q, hq, BEq.trans (BEq.symm hrq) hrp⟩
    · exact hsplit t.parts

/-- In every reachable table numbers stand for tuples. -/
lemma Reachable.numbered (h : Reachable t met) : t.Numbered met where
  size_eq := by rw [size, h.parts_eq]
  parts?_eq c := by rw [parts?, h.parts_eq]
  parts?_eq_none_iff c := List.getElem?_eq_none_iff
  known p q hq hqp := by
    rcases t.instantiate_cases p with ⟨c, hc, hcall⟩ | ⟨hnew, -⟩
    · obtain ⟨r, hr, hrp⟩ := (h.mirrored p c).1 hc
      exact ⟨c, r, hcall, hr, hrp⟩
    · obtain ⟨r, hr, hrp⟩ := h.exists_mem_parts_iff.2 ⟨q, hq, hqp⟩
      exact absurd hrp (h.mirrored.id?_eq_none_iff.1 hnew r hr)
  fresh p hp := by
    have hnew : t.id? p = none := by
      refine h.mirrored.id?_eq_none_iff.2 fun r hr hrp => ?_
      obtain ⟨q, hq, hqp⟩ := h.exists_mem_parts_iff.1 ⟨r, hr, hrp⟩
      exact hp q hq hqp
    rw [instantiate_of_new hnew]
    exact ⟨rfl, List.length_append, parts?_issue.2 (.inr ⟨rfl, rfl⟩)⟩
  eq_iff p q t' hlater := h.mirrored.eq_iff p q hlater
  kept t' c p hlater hc := (h.mirrored.later hlater).2 c p hc

end CompositeTable

/-! ### Objects with shapes in two tables -/

/-- Tables for the two shapes of an object, and for both together. -/
structure ShapeTables (κ κ' ν : Type) where
  plain : PlainTable κ := .empty
  caching : CachingTable κ' ν := .empty
  composite : CompositeTable (PlainShape × CachingShape) := .empty

namespace ShapeTables

variable {κ κ' ν : Type} [DecidableEq κ] [DecidableEq κ'] [BEq ν] {render : κ' → String}
  {s s' u : ShapeTables κ κ' ν} {m m' : PlainShape} {n n' : CachingShape}
  {names names' : List κ} {h h' : List (Attribute κ' ν)}

/-- A call at one of the tables. -/
inductive Step (render : κ' → String) : ShapeTables κ κ' ν → ShapeTables κ κ' ν → Prop
  | plain {s : ShapeTables κ κ' ν} {t : PlainTable κ} :
      PlainTable.Step s.plain t → Step render s { s with plain := t }
  | caching {s : ShapeTables κ κ' ν} {t : CachingTable κ' ν} :
      CachingTable.Step render s.caching t → Step render s { s with caching := t }
  | composite {s : ShapeTables κ κ' ν} {t : CompositeTable (PlainShape × CachingShape)} :
      CompositeTable.Step s.composite t → Step render s { s with composite := t }

/-- Later states of the tables. -/
def Later (render : κ' → String) : ShapeTables κ κ' ν → ShapeTables κ κ' ν → Prop :=
  Relation.ReflTransGen (Step render)

/-- An object gains names and attributes one after the other, while others use the tables. The
last four parts are its two shapes and what it gained, in order. -/
inductive Object (render : κ' → String) : ShapeTables κ κ' ν → PlainShape → CachingShape →
    List κ → List (Attribute κ' ν) → Prop
  | start {s : ShapeTables κ κ' ν} : Later render {} s → Object render s .empty .empty [] []
  | other {s s' : ShapeTables κ κ' ν} {m : PlainShape} {n : CachingShape} {names : List κ}
      {h : List (Attribute κ' ν)} :
      Object render s m n names h → Step render s s' → Object render s' m n names h
  | addName {s : ShapeTables κ κ' ν} {m m' : PlainShape} {n : CachingShape} {names : List κ}
      {h : List (Attribute κ' ν)} {name : κ} {t : PlainTable κ} :
      Object render s m n names h → s.plain.extend m name = .ok (m', t) →
      Object render { s with plain := t } m' n (names ++ [name]) h
  | addAttribute {s : ShapeTables κ κ' ν} {m : PlainShape} {n n' : CachingShape} {names : List κ}
      {h : List (Attribute κ' ν)} {a : Attribute κ' ν} {t : CachingTable κ' ν} :
      Object render s m n names h → s.caching.extend render n a = .ok (n', t) →
      Object render { s with caching := t } m n' names (h ++ [a])

lemma Later.each (h : Later render s s') :
    PlainTable.Later s.plain s'.plain ∧ CachingTable.Later render s.caching s'.caching ∧
      CompositeTable.Later s.composite s'.composite := by
  induction h with
  | refl => exact ⟨.refl, .refl, .refl⟩
  | tail _ hstep ih =>
    obtain ⟨hplain, hcaching, hcomposite⟩ := ih
    cases hstep with
    | plain h => exact ⟨hplain.tail h, hcaching, hcomposite⟩
    | caching h => exact ⟨hplain, hcaching.tail h, hcomposite⟩
    | composite h => exact ⟨hplain, hcaching, hcomposite.tail h⟩

namespace Object

lemma reachable (ho : Object render s m n names h) : Later render {} s := by
  induction ho with
  | start hs => exact hs
  | other _ hstep ih => exact ih.tail hstep
  | addName _ hextend ih => exact ih.tail (.plain (.extend hextend))
  | addAttribute _ hextend ih => exact ih.tail (.caching (.extend hextend))

/-- The plain shape of an object has the names that it gained, each where it comes first. -/
lemma keys?_eq (ho : Object render s m n names h) :
    s.plain.keys? m = some names.eraseDups := by
  induction ho with
  | @start s hs =>
    have hplain : PlainTable.Reachable s.plain := hs.each.1
    exact hplain.rooted.keys?_empty
  | @other s s' m n names h ho hstep ih =>
    have hplain : PlainTable.Reachable s.plain := ho.reachable.each.1
    cases hstep with
    | plain h => exact (hplain.rooted.step h).2.keys? ih
    | caching _ => exact ih
    | composite _ => exact ih
  | @addName s m m' n names h name t ho hextend ih =>
    have hplain : PlainTable.Reachable s.plain := ho.reachable.each.1
    exact hplain.rooted.keys?_of_extend hextend ih
  | addAttribute _ _ ih => exact ih

/-- The caching shape of an object is that of the attributes that it gained. -/
lemma chain (ho : Object render s m n names h) : CachingTable.Chain render s.caching n h := by
  induction ho with
  | start hs => exact .start hs.each.2.1
  | other _ hstep ih =>
    cases hstep with
    | plain _ => exact ih
    | caching h => exact .other ih h
    | composite _ => exact ih
  | addName _ _ ih => exact ih
  | addAttribute _ hextend ih => exact .add ih hextend

variable [EquivBEq ν]

/-- Two objects have one composite exactly if they gained the same names, repetitions aside, and
the same attributes, both in the same order. -/
lemma composite_eq_iff (ho : Object render s m n names h)
    (hlater : Later render { s with composite := (s.composite.instantiate (m, n)).2 } s')
    (ho' : Object render s' m' n' names' h') :
    (s.composite.instantiate (m, n)).1 = (s'.composite.instantiate (m', n')).1 ↔
      names.eraseDups = names'.eraseDups ∧ SameHistory h h' := by
  obtain ⟨hplain, hcaching, hcomposite⟩ := hlater.each
  have hs : PlainTable.Reachable s.plain := ho.reachable.each.1
  have hs' : PlainTable.Reachable s'.plain := ho'.reachable.each.1
  have hm : s'.plain.keys? m = some names.eraseDups := (hs.rooted.later hplain).2.keys? ho.keys?_eq
  have hmirrored := (CompositeTable.mirrored_empty.later ho.reachable.each.2.2).1
  have hcaching' : CachingTable.Reachable render s'.caching := ho'.reachable.each.2.1
  rw [hmirrored.eq_iff _ _ hcomposite, beq_iff_eq, Prod.mk.injEq,
    hcaching'.historical.eq_iff n n' h h' (ho.chain.later hcaching) ho'.chain]
  refine and_congr_left fun _ => ⟨?_, fun heq => ?_⟩
  · rintro rfl
    exact Option.some.inj (hm.symm.trans ho'.keys?_eq)
  · exact hs'.rooted.inj m m' _ hm (heq ▸ ho'.keys?_eq)

end Object

end ShapeTables

/-- Numbers stand for the tuples that calls asked for. Where the tuples are shapes of two other
tables, numbers stand for what objects gained in both. -/
theorem composites_correspond :
    (∀ {τ : Type} [BEq τ] [EquivBEq τ] (t : CompositeTable τ) (met : List τ),
      t.Reachable met → t.Numbered met) ∧
    ∀ {κ κ' ν : Type} [DecidableEq κ] [DecidableEq κ'] [BEq ν] [EquivBEq ν]
      (render : κ' → String) (s s' : ShapeTables κ κ' ν) (m m' : PlainShape)
      (n n' : CachingShape) (names names' : List κ) (h h' : List (Attribute κ' ν)),
      s.Object render m n names h →
      ShapeTables.Later render { s with composite := (s.composite.instantiate (m, n)).2 } s' →
      s'.Object render m' n' names' h' →
      ((s.composite.instantiate (m, n)).1 = (s'.composite.instantiate (m', n')).1 ↔
        names.eraseDups = names'.eraseDups ∧ SameHistory h h') :=
  ⟨fun _ _ h => h.numbered, fun _ _ _ _ _ _ _ _ _ _ _ ho hlater ho' =>
    ho.composite_eq_iff hlater ho'⟩

/-- Two pairs were met, one of them twice. -/
def pairs : CompositeTable (Nat × Nat) where
  parts := [(1, 2), (3, 4)]
  ids := [((3, 4), ⟨1⟩), ((1, 2), ⟨0⟩)]

lemma reachable_pairs : pairs.Reachable [(1, 2), (3, 4), (1, 2)] :=
  .instantiate (1, 2) (.instantiate (3, 4) (.instantiate (1, 2) .empty))

/-- An object has gained a name and a static attribute. -/
def attired : ShapeTables String String Bool where
  plain :=
    { nodes := #[{}, { indexes := ⟨[("x", 0)]⟩, keys := ["x"] }]
      transitions := [((⟨0⟩, "x"), ⟨1⟩)] }
  caching :=
    { nodes := #[{}, { statics := ⟨[("get", true)]⟩, staticKeys := ["get"] }]
      staticTransitions := [((⟨0⟩, "get", true), ⟨1⟩)] }

lemma object_attired : attired.Object id ⟨1⟩ ⟨1⟩ ["x"] [.static "get" true] :=
  .addAttribute (s := { plain := attired.plain }) (.addName (s := {}) (.start .refl) rfl) rfl

/-- Its composite has been asked for. -/
def combined : ShapeTables String String Bool :=
  { attired with composite := { parts := [(⟨1⟩, ⟨1⟩)], ids := [((⟨1⟩, ⟨1⟩), ⟨0⟩)] } }

lemma object_combined : combined.Object id ⟨1⟩ ⟨1⟩ ["x", "x"] [.static "get" true] :=
  have hs : ShapeTables.Later id {} combined :=
    object_attired.reachable.tail (.composite (.instantiate attired.composite (⟨1⟩, ⟨1⟩)))
  .addAttribute (s := combined) (.addName (s := combined) (.addName (s := combined)
    (.start hs) rfl) rfl) rfl

/-- A second object gains the name twice, and shares the composite of the first one. -/
theorem composites_correspond_attired :
    pairs.Numbered [(1, 2), (3, 4), (1, 2)] ∧
      ((attired.composite.instantiate (⟨1⟩, ⟨1⟩)).1 =
          (combined.composite.instantiate (⟨1⟩, ⟨1⟩)).1 ↔
        ["x"].eraseDups = ["x", "x"].eraseDups ∧
          SameHistory [Attribute.static "get" true] [Attribute.static "get" true]) :=
  ⟨composites_correspond.1 pairs _ reachable_pairs,
    composites_correspond.2 id attired combined _ _ _ _ _ _ _ _ object_attired .refl
      object_combined⟩

end Records
