import Records.Proofs.Shape.Caching

/-!
# Shapes that a table did not issue

A table issues the empty shape and those that extensions answer. No transition starts at any other
shape: so an extension of it is refused, although transitions are looked up before the table looks
at the shape itself, and a question about it finds nothing. The exception is the comparison of
such a shape with itself, which looks at the table only if the two shapes are different.

## Main definitions

* `PlainTable.Issued`, `CachingTable.Issued`: the shapes that a table has issued.
* `PlainTable.Inert`, `CachingTable.Inert`: a table knows nothing of a shape.

## Main statements

* `inert_iff_not_issued`: a table knows nothing of exactly the shapes that it has not issued.
* `sameShape_not_issued`: such a shape has the same names as itself.
-/

namespace Records

/-- What a call answers, with the table behind it. A call that is refused leaves the table as it
is. -/
def settled {σ τ ε : Type} (t : τ) : Except ε (σ × τ) → Except ε σ × τ
  | .ok (m, t') => (.ok m, t')
  | .error e => (.error e, t)

/-! ### Plain shapes -/

namespace PlainTable

variable {κ : Type} [DecidableEq κ] {t : PlainTable κ} {m : PlainShape} {name : κ}
  {keys : List κ}

/-- The empty shape is issued from the start, every other one by an extension that answered it. -/
inductive Issued : PlainTable κ → PlainShape → Prop
  | empty (t : PlainTable κ) : Issued t .empty
  | answered {t u u' : PlainTable κ} {m n : PlainShape} {name : κ} :
      u.Reachable → u.extend n name = .ok (m, u') → Later u' t → Issued t m

/-- A table knows nothing of a shape. -/
structure Inert (t : PlainTable κ) (m : PlainShape) : Prop where
  extend : ∀ name, settled t (t.extend m name) = (.error (.unknownShape m.number), t)
  index? : ∀ name, t.index? m name = none
  lookup : ∀ {ν : Type} (name : κ) (storage : List ν) (fallback : ν),
    t.lookup m name storage fallback = fallback
  storageSize? : t.storageSize? m = none
  keys? : t.keys? m = none

/-- The extension that issued a shape answers it again. -/
lemma Rooted.exists_extend_eq (ht : t.Rooted) (hm : t.keys? m = some keys) (hne : m ≠ .empty) :
    ∃ n name, t.extend n name = .ok (m, t) := by
  rcases List.eq_nil_or_concat' keys with rfl | ⟨before, name, rfl⟩
  · exact absurd (ht.inj m .empty [] hm ht.keys?_empty) hne
  · obtain ⟨n, hn, htransition⟩ := ht.parent m before name hm
    obtain ⟨node, hnode, rfl⟩ := keys?_eq_some_iff.1 hn
    have hname : name ∉ node.keys := fun hmem =>
      (List.nodup_append.1 (ht.nodup hm)).2.2 name hmem name (List.mem_singleton_self name) rfl
    rw [← (ht.indexes n node hnode).contains_iff] at hname
    exact ⟨n, name, extend_eq_ok_iff.2 ⟨node, hnode, .inr ⟨hname, .inl ⟨htransition, rfl⟩⟩⟩⟩

/-- The shapes that a table has issued are those it has names for. -/
lemma Reachable.issued_iff (ht : t.Reachable) : t.Issued m ↔ ∃ keys, t.keys? m = some keys := by
  constructor
  · intro hissued
    cases hissued with
    | empty => exact ⟨[], ht.rooted.keys?_empty⟩
    | answered hu hextend hlater =>
      obtain ⟨hu', -, _, -, hm⟩ := hu.rooted.of_extend hextend
      exact ⟨_, (hu'.later hlater).2.keys? hm⟩
  · rintro ⟨keys, hm⟩
    by_cases hne : m = .empty
    · exact hne ▸ .empty t
    · obtain ⟨n, name, hextend⟩ := ht.rooted.exists_extend_eq hm hne
      exact .answered ht hextend .refl

lemma inert_of_node? (hm : t.node? m = none) : t.Inert m where
  extend name := congrArg (settled t) (extend_of_unknown name hm)
  index? name := by rw [PlainTable.index?, hm]; rfl
  lookup name storage fallback := by rw [PlainTable.lookup, PlainTable.index?, hm]; rfl
  storageSize? := by rw [PlainTable.storageSize?, hm]; rfl
  keys? := by rw [PlainTable.keys?, hm]; rfl

lemma Reachable.inert_iff (ht : t.Reachable) : t.Inert m ↔ ¬t.Issued m := by
  rw [ht.issued_iff]
  constructor
  · rintro hinert ⟨keys, hm⟩
    rw [hinert.keys?] at hm
    cases hm
  · intro hm
    exact inert_of_node? (Option.eq_none_iff_forall_not_mem.2 fun node hnode =>
      hm ⟨node.keys, keys?_of_node? hnode⟩)

end PlainTable

/-! ### Caching shapes -/

namespace CachingTable

variable {κ ν : Type} [DecidableEq κ] [BEq ν] {render : κ → String} {t : CachingTable κ ν}
  {m : CachingShape}

/-- The empty shape is issued from the start, every other one by an extension that answered it. -/
inductive Issued (render : κ → String) : CachingTable κ ν → CachingShape → Prop
  | empty (t : CachingTable κ ν) : Issued render t .empty
  | answered {t u u' : CachingTable κ ν} {m n : CachingShape} {a : Attribute κ ν} :
      u.Reachable render → u.extend render n a = .ok (m, u') → Later render u' t →
      Issued render t m

/-- A table knows nothing of a shape, but that it has the same names as itself. -/
structure Inert (render : κ → String) (t : CachingTable κ ν) (m : CachingShape) : Prop where
  extendDynamic : ∀ name,
    settled t (t.extendDynamic render m name) = (.error (.unknownShape m.number), t)
  extendStatic : ∀ name value,
    settled t (t.extendStatic render m name value) = (.error (.unknownShape m.number), t)
  dynamicIndex? : ∀ name, t.dynamicIndex? m name = none
  static? : ∀ name, t.static? m name = none
  lookup : ∀ name storage fallback, t.lookup m name storage fallback = fallback
  storageSize? : t.storageSize? m = none
  keys? : t.keys? m = none
  has : ∀ name, t.has m name = false
  isLeaf : t.isLeaf m = false
  /-- The shape has not the names of any shape but itself, whether issued or not. -/
  sameShape_left : ∀ n, t.sameShape m n = false ↔ n ≠ m
  sameShape_right : ∀ n, t.sameShape n m = false ↔ n ≠ m

/-- The shapes that a table has issued are those it has attributes for. -/
lemma Reachable.issued_iff [EquivBEq ν] (ht : t.Reachable render) :
    t.Issued render m ↔ ∃ node, t.node? m = some node := by
  constructor
  · intro hissued
    cases hissued with
    | empty => exact ⟨{}, ht.rooted.empty⟩
    | @answered _ u' _ n a hu hextend hlater =>
      obtain ⟨hu', -, hm⟩ := hu.rooted.of_extend hextend
      obtain ⟨_, _, -, -, -, hnode⟩ := hu'.child n a m hm
      exact ⟨_, (hu'.later hlater).2.node? m _ hnode⟩
  · rintro ⟨node, hm⟩
    by_cases hne : m = .empty
    · exact hne ▸ .empty t
    · obtain ⟨n, a, -, ha⟩ := ht.rooted.parent m hne (number_lt_of_node? hm)
      exact .answered ht (extend_of_transition? ha) .refl

/-- The extensions of a shape are looked up before the shape itself, but there are none. -/
lemma Rooted.extend_of_unknown (ht : t.Rooted) (hm : t.node? m = none) (a : Attribute κ ν) :
    t.extend render m a = .error (.unknownShape m.number) := by
  have hnone : t.transition? m a = none := by
    rw [Option.eq_none_iff_forall_not_mem]
    intro n hn
    obtain ⟨node, _, hnode, -⟩ := ht.child m a n hn
    rw [hm] at hnode
    cases hnode
  rw [extend_eq, hnone, free, hm]
  rfl

omit [BEq ν] in
lemma sameShape_of_unknown (hm : t.node? m = none) (n : CachingShape) :
    (t.sameShape m n = false ↔ n ≠ m) ∧ (t.sameShape n m = false ↔ n ≠ m) := by
  by_cases heq : n = m
  · subst heq
    simp [sameShape]
  · simp [sameShape, hm, heq, Ne.symm heq]

lemma Rooted.inert (ht : t.Rooted) (hm : t.node? m = none) : t.Inert render m where
  extendDynamic name := congrArg (settled t) (ht.extend_of_unknown hm (.dynamic name))
  extendStatic name value := congrArg (settled t) (ht.extend_of_unknown hm (.static name value))
  dynamicIndex? name := by rw [CachingTable.dynamicIndex?, hm]; rfl
  static? name := by rw [CachingTable.static?, hm]; rfl
  lookup name storage fallback := by
    rw [CachingTable.lookup, CachingTable.dynamicIndex?, CachingTable.static?, hm]
    rfl
  storageSize? := by rw [CachingTable.storageSize?, hm]; rfl
  keys? := by rw [CachingTable.keys?, hm]; rfl
  has name := by rw [CachingTable.has, hm]; rfl
  isLeaf := by rw [CachingTable.isLeaf, hm]; rfl
  sameShape_left n := (sameShape_of_unknown hm n).1
  sameShape_right n := (sameShape_of_unknown hm n).2

lemma Reachable.inert_iff [EquivBEq ν] (ht : t.Reachable render) :
    t.Inert render m ↔ ¬t.Issued render m := by
  rw [ht.issued_iff]
  constructor
  · rintro hinert ⟨node, hm⟩
    have hkeys := hinert.keys?
    rw [CachingTable.keys?, hm] at hkeys
    cases hkeys
  · intro hm
    exact ht.rooted.inert
      (Option.eq_none_iff_forall_not_mem.2 fun node hnode => hm ⟨node, hnode⟩)

end CachingTable

/-! ### Both kinds of shapes -/

/-- Tables that calls led to know nothing of exactly the shapes that they have not issued. -/
theorem inert_iff_not_issued {κ κ' ν : Type} [DecidableEq κ] [DecidableEq κ'] [BEq ν] [EquivBEq ν]
    (render : κ' → String) (t : PlainTable κ) (t' : CachingTable κ' ν) (m : PlainShape)
    (m' : CachingShape) (ht : t.Reachable) (ht' : t'.Reachable render) :
    (t.Inert m ↔ ¬t.Issued m) ∧ (t'.Inert render m' ↔ ¬t'.Issued render m') :=
  ⟨ht.inert_iff, ht'.inert_iff⟩

/-- A shape with the number that either table would give out next. -/
theorem inert_iff_not_issued_next :
    PlainTable.crossed.Reachable ∧ ¬PlainTable.crossed.Issued ⟨5⟩ ∧
      PlainTable.crossed.Inert ⟨5⟩ ∧
      CachingTable.mixed.Reachable id ∧ ¬CachingTable.mixed.Issued id ⟨5⟩ ∧
      CachingTable.mixed.Inert id ⟨5⟩ := by
  have hplain : ¬PlainTable.crossed.Issued ⟨5⟩ := by
    rw [PlainTable.reachable_crossed.issued_iff]
    rintro ⟨keys, hkeys⟩
    cases hkeys
  have hcaching : ¬CachingTable.mixed.Issued id ⟨5⟩ := by
    rw [CachingTable.reachable_mixed.issued_iff]
    rintro ⟨node, hnode⟩
    cases hnode
  obtain ⟨hinert, hinert'⟩ := inert_iff_not_issued id _ _ ⟨5⟩ ⟨5⟩ PlainTable.reachable_crossed
    CachingTable.reachable_mixed
  exact ⟨PlainTable.reachable_crossed, hplain, hinert.2 hplain,
    CachingTable.reachable_mixed, hcaching, hinert'.2 hcaching⟩

/-- A new table is asked to compare a shape of another one with itself, and has not issued it. -/
theorem sameShape_not_issued :
    (CachingTable.empty : CachingTable String Value).Reachable id ∧
      ¬(CachingTable.empty : CachingTable String Value).Issued id ⟨1⟩ ∧
      (CachingTable.empty : CachingTable String Value).sameShape ⟨1⟩ ⟨1⟩ := by
  have hempty : (CachingTable.empty : CachingTable String Value).Reachable id := .refl
  refine ⟨hempty, ?_, rfl⟩
  rw [hempty.issued_iff]
  rintro ⟨node, hnode⟩
  cases hnode

end Records
