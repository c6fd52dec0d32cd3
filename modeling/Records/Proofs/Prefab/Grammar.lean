import Records.Proofs.Prefab.Chain
import Mathlib.Algebra.Group.Nat.Defs
import Mathlib.Data.Option.Basic

/-!
# The grammar of written keys

A key is written as a bare name, or as a list of levels. A level is a name, then its init count, a
list of auto count and auto value, and a vector of mutable fields. All three may be left out, the
init count at the first level only. Counts and fields are words, and mutable fields are below the
init count if it is written.

The reader splits a list at its symbols and reads the three parts one after the other. Each part is
told by the kind of value that comes next, so a datum is written in one way at most.

## Main definitions

* `WrittenLevel`, `WrittenKey`: levels and keys as they are written.
* `WrittenKey.datum`: the datum that a key is written as.
* `WrittenKey.Fits`, `WrittenKey.levels`: what a written key denotes.

## Main statements

* `WrittenKey.datum_injective`: a datum is written in one way at most.
* `PrefabDatum.isKey_iff`: the written keys are recognised.
* `PrefabDatum.parse?_eq_some_iff`: they are read, and nothing else is.
* `PrefabDatum.levelsFor?_eq_some_iff`: what is read denotes what is written.
-/

namespace Records

/-! ### Counts -/

namespace Value

lemma index?_ofNat {n : Nat} (h : n < 2 ^ 63) : (ofNat n).index? = some n :=
  index?_eq_some_iff.2 ⟨Int64.ofNat n, rfl, Int64.toInt_ofNat_of_lt h⟩

/-- An index is a word. -/
lemma lt_of_index?_eq_some {v : Value} {n : Nat} (h : v.index? = some n) : n < 2 ^ 63 := by
  obtain ⟨w, -, hw⟩ := index?_eq_some_iff.1 h
  have hlt := w.toInt_lt
  omega

/-- The indices are the counts that are words. -/
lemma index?_eq_some_iff_ofNat {v : Value} {n : Nat} :
    v.index? = some n ↔ v = ofNat n ∧ n < 2 ^ 63 := by
  constructor
  · intro h
    refine ⟨?_, lt_of_index?_eq_some h⟩
    obtain ⟨w, rfl, hw⟩ := index?_eq_some_iff.1 h
    refine congrArg fixnum (Int64.toInt_inj.1 ?_)
    rw [hw, Int64.toInt_ofNat_of_lt (lt_of_index?_eq_some h)]
  · rintro ⟨rfl, h⟩
    exact index?_ofNat h

lemma mapM_index?_eq_some_iff {vs : List Value} {l : List Nat} :
    vs.mapM index? = some l ↔ vs = l.map ofNat ∧ ∀ i ∈ l, i < 2 ^ 63 := by
  induction vs generalizing l with
  | nil => cases l <;> simp
  | cons v vs ih =>
    simp only [List.mapM_cons, Option.bind_eq_bind, Option.bind_eq_some_iff, Option.pure_def,
      Option.some.injEq, index?_eq_some_iff_ofNat, ih]
    constructor
    · rintro ⟨i, ⟨rfl, hi⟩, l, ⟨rfl, hl⟩, rfl⟩
      exact ⟨rfl, List.forall_mem_cons.2 ⟨hi, hl⟩⟩
    · rintro ⟨hvs, hl⟩
      cases l with
      | nil => cases hvs
      | cons i l =>
        obtain ⟨rfl, rfl⟩ := List.cons.inj hvs
        obtain ⟨hi, hl⟩ := List.forall_mem_cons.1 hl
        exact ⟨i, ⟨rfl, hi⟩, l, ⟨rfl, hl⟩, rfl⟩

end Value

/-! ### What is written -/

/-- A level as it is written. -/
@[ext]
structure WrittenLevel where
  name : Symbol
  initCount : Option Nat := none
  /-- The auto count and the auto value. -/
  auto : Option (Nat × Value) := none
  mutables : Option (List Nat) := none
  initCount_lt : ∀ n ∈ initCount, n < 2 ^ 63
  auto_lt : ∀ a ∈ auto, a.1 < 2 ^ 63
  mutables_lt : ∀ l ∈ mutables, ∀ i ∈ l, i < 2 ^ 63
  bounded : ∀ n ∈ initCount, ∀ l ∈ mutables, ∀ i ∈ l, i < n

namespace WrittenLevel

/-- A level of which only the name is written. -/
def ofName (name : Symbol) : WrittenLevel where
  name := name
  initCount_lt := by simp
  auto_lt := by simp
  mutables_lt := by simp
  bounded := by simp

/-- How auto count and auto value are written. -/
def writeAuto (a : Nat × Value) : Value := .list [.ofNat a.1, a.2]

/-- How mutable fields are written. -/
def writeMutables (l : List Nat) : Value := .vector (l.map .ofNat)

/-- What is written behind the name. -/
def parts (l : WrittenLevel) : List Value :=
  (l.initCount.map Value.ofNat).toList ++
    ((l.auto.map writeAuto).toList ++ (l.mutables.map writeMutables).toList)

/-- What is written of a level. -/
def elements (l : WrittenLevel) : List Value := .symbol l.name :: l.parts

/-- The auto count, which is 0 if it is not written. -/
def autoCount (l : WrittenLevel) : Nat := l.auto.elim 0 Prod.fst

/-- The auto value, which is "no" if it is not written. -/
def autoValue (l : WrittenLevel) : Value := l.auto.elim (.bool false) Prod.snd

/-- The mutable fields as they are written, in any order and with repetitions. -/
def indices (l : WrittenLevel) : List Nat := l.mutables.getD []

/-- The written mutable fields are below the written init count. -/
lemma lt_of_mem_indices (l : WrittenLevel) {init i : Nat} (hinit : l.initCount = some init)
    (hi : i ∈ l.indices) : i < init := by
  rw [indices] at hi
  cases hmutables : l.mutables with
  | none =>
    rw [hmutables] at hi
    cases hi
  | some m =>
    rw [hmutables] at hi
    exact l.bounded init hinit m hmutables i hi

/-- What is read of a level. -/
def read (l : WrittenLevel) : PrefabDatum where
  name := l.name
  initCount := l.initCount
  autoCount := l.autoCount
  autoValue := l.autoValue
  mutables := .ofList l.indices
  supers := []

/-- The level that is meant, with an init count. -/
def toLevel (l : WrittenLevel) (init : Nat) : PrefabLevel where
  name := l.name
  initCount := init
  autoCount := l.autoCount
  autoValue := l.autoValue
  mutables := .ofList l.indices

end WrittenLevel

/-- A super level as it is written, with its init count. -/
abbrev WrittenSuper := {l : WrittenLevel // l.initCount.isSome}

/-- The super level that is meant. -/
def WrittenSuper.level (l : WrittenSuper) : PrefabLevel := l.1.toLevel (l.1.initCount.get l.2)

/-- A key as it is written. -/
inductive WrittenKey where
  | bare (name : Symbol)
  | levels (first : WrittenLevel) (supers : List WrittenSuper)

namespace WrittenKey

/-- The datum that a key is written as. -/
def datum : WrittenKey → Value
  | .bare name => .symbol name
  | .levels first supers => .list (first.elements ++ supers.flatMap fun l => l.1.elements)

/-- The first level. -/
def first : WrittenKey → WrittenLevel
  | .bare name => .ofName name
  | .levels first _ => first

/-- The super levels that are meant. -/
def superLevels : WrittenKey → List PrefabLevel
  | .bare _ => []
  | .levels _ supers => supers.map WrittenSuper.level

/-- The number of inherited fields. -/
def inherited (w : WrittenKey) : Nat := PrefabLevel.totalCount w.superLevels

/-- The first init count for instances of `total` fields: as it is written, or what the inherited
fields and the auto fields leave. -/
def initCount (w : WrittenKey) (total : Nat) : Nat :=
  w.first.initCount.getD (total - w.inherited - w.first.autoCount)

/-- Instances of `total` fields leave enough for the first level, if its init count is not
written. -/
def Fits (w : WrittenKey) (total : Nat) : Prop :=
  w.first.initCount = none → w.inherited + w.first.autoCount ≤ total ∧
    ∀ i ∈ w.first.indices, i < w.initCount total

/-- The chain of levels that is meant for instances of `total` fields. -/
def levelsFor (w : WrittenKey) (total : Nat) : List PrefabLevel :=
  w.first.toLevel (w.initCount total) :: w.superLevels

/-- What is read of a key. -/
def read (w : WrittenKey) : PrefabDatum := { w.first.read with supers := w.superLevels }

end WrittenKey

namespace PrefabDatum

open WrittenLevel

/-! ### Reading one level -/

section

variable {α : Type} {write : α → Value} {part : Option α} {v : Value} {vs tail rest : List Value}

/-- A value that does not come next behind a part that is left out is the part. -/
lemma exists_of_cons_eq_append (hnext : part = none → rest.head? ≠ some v)
    (h : v :: tail = (part.map write).toList ++ rest) :
    ∃ a, part = some a ∧ v = write a ∧ tail = rest := by
  cases part with
  | none => exact absurd (congrArg List.head? h).symm (hnext rfl)
  | some a =>
    obtain ⟨hv, htail⟩ := List.cons.inj h
    exact ⟨a, rfl, hv, htail⟩

/-- A part is left out if what comes next is not written as one. -/
lemma eq_none_of_eq_append (hother : ∀ a tail, vs ≠ write a :: tail)
    (h : vs = (part.map write).toList ++ rest) : part = none ∧ vs = rest := by
  cases part with
  | none => exact ⟨rfl, h⟩
  | some a => exact absurd h (hother a rest)

lemma head?_ne_of_ne_cons (hother : ∀ tail, vs ≠ v :: tail) : vs.head? ≠ some v := by
  intro hhead
  obtain ⟨tail, htail⟩ := List.head?_eq_some_iff.1 hhead
  exact hother tail htail

/-- A fixnum that comes next is the init count. -/
lemma readInit_eq_some_iff {init : Option Nat} :
    readInit vs = some (init, rest) ↔
      vs = (init.map Value.ofNat).toList ++ rest ∧ (∀ n ∈ init, n < 2 ^ 63) ∧
        (init = none → ∀ n, rest.head? ≠ some (.fixnum n)) := by
  unfold readInit
  split
  · rename_i n tail
    simp only [Option.bind_eq_bind, Option.bind_eq_some_iff, Option.pure_def, Option.some.injEq,
      Prod.mk.injEq, Value.index?_eq_some_iff_ofNat]
    constructor
    · rintro ⟨i, ⟨hn, hi⟩, rfl, rfl⟩
      refine ⟨congrArg (· :: tail) hn, ?_, nofun⟩
      rintro _ ⟨⟩
      exact hi
    · rintro ⟨hvs, hlt, hnext⟩
      obtain ⟨i, rfl, hn, rfl⟩ := exists_of_cons_eq_append (fun h => hnext h n) hvs
      exact ⟨i, ⟨hn, hlt i rfl⟩, rfl, rfl⟩
  · rename_i hother
    simp only [Option.some.injEq, Prod.mk.injEq]
    constructor
    · rintro ⟨rfl, rfl⟩
      exact ⟨rfl, nofun, fun _ n => head?_ne_of_ne_cons (hother n)⟩
    · rintro ⟨hvs, -, -⟩
      obtain ⟨rfl, rfl⟩ := eq_none_of_eq_append (fun _ => hother _) hvs
      exact ⟨rfl, rfl⟩

/-- A list that comes next holds auto count and auto value. -/
lemma readAuto_eq_some_iff {a : Nat × Value} :
    readAuto vs = some (a, rest) ↔ ∃ auto : Option (Nat × Value),
      vs = (auto.map writeAuto).toList ++ rest ∧ (∀ b ∈ auto, b.1 < 2 ^ 63) ∧
        (auto = none → ∀ items, rest.head? ≠ some (.list items)) ∧
        a = auto.getD (0, .bool false) := by
  unfold readAuto
  split
  · rename_i count value tail
    simp only [Option.bind_eq_bind, Option.bind_eq_some_iff, Option.pure_def, Option.some.injEq,
      Prod.mk.injEq, Value.index?_eq_some_iff_ofNat]
    constructor
    · rintro ⟨i, ⟨rfl, hi⟩, rfl, rfl⟩
      refine ⟨some (i, value), rfl, ?_, nofun, rfl⟩
      rintro _ ⟨⟩
      exact hi
    · rintro ⟨auto, hvs, hlt, hnext, rfl⟩
      obtain ⟨b, rfl, hb, rfl⟩ := exists_of_cons_eq_append (fun h => hnext h _) hvs
      cases hb
      exact ⟨b.1, ⟨rfl, hlt b rfl⟩, rfl, rfl⟩
  · rename_i items tail hother
    refine ⟨nofun, ?_⟩
    rintro ⟨auto, hvs, -, hnext, -⟩
    obtain ⟨b, -, hb, -⟩ := exists_of_cons_eq_append (fun h => hnext h _) hvs
    exact absurd (Value.list.inj hb) (hother _ _)
  · rename_i hpair hother
    simp only [Option.some.injEq, Prod.mk.injEq]
    constructor
    · rintro ⟨rfl, rfl⟩
      exact ⟨none, rfl, nofun, fun _ items => head?_ne_of_ne_cons (hother items), rfl⟩
    · rintro ⟨auto, hvs, -, -, rfl⟩
      obtain ⟨rfl, rfl⟩ := eq_none_of_eq_append (fun _ => hother _) hvs
      exact ⟨rfl, rfl⟩

/-- A vector that comes next holds the mutable fields. -/
lemma readMutables_eq_some_iff {m : FieldSet} :
    readMutables vs = some (m, rest) ↔ ∃ mutables : Option (List Nat),
      vs = (mutables.map writeMutables).toList ++ rest ∧
        (∀ l ∈ mutables, ∀ i ∈ l, i < 2 ^ 63) ∧
        (mutables = none → ∀ items, rest.head? ≠ some (.vector items)) ∧
        m = .ofList (mutables.getD []) := by
  unfold readMutables
  split
  · rename_i items tail
    simp only [Option.bind_eq_bind, Option.bind_eq_some_iff, Option.pure_def, Option.some.injEq,
      Prod.mk.injEq, Value.mapM_index?_eq_some_iff]
    constructor
    · rintro ⟨l, ⟨rfl, hl⟩, rfl, rfl⟩
      refine ⟨some l, rfl, ?_, nofun, rfl⟩
      rintro _ ⟨⟩
      exact hl
    · rintro ⟨mutables, hvs, hlt, hnext, rfl⟩
      obtain ⟨l, rfl, hl, rfl⟩ := exists_of_cons_eq_append (fun h => hnext h _) hvs
      exact ⟨l, ⟨Value.vector.inj hl, hlt l rfl⟩, rfl, rfl⟩
  · rename_i hother
    simp only [Option.some.injEq, Prod.mk.injEq]
    constructor
    · rintro ⟨rfl, rfl⟩
      exact ⟨none, rfl, nofun, fun _ items => head?_ne_of_ne_cons (hother items), rfl⟩
    · rintro ⟨mutables, hvs, -, -, rfl⟩
      obtain ⟨rfl, rfl⟩ := eq_none_of_eq_append (fun _ => hother _) hvs
      exact ⟨rfl, rfl⟩

end

lemma readInit_parts (l : WrittenLevel) :
    readInit l.parts = some
      (l.initCount, (l.auto.map writeAuto).toList ++ (l.mutables.map writeMutables).toList) := by
  refine readInit_eq_some_iff.2 ⟨rfl, l.initCount_lt, fun _ n => ?_⟩
  cases l.auto <;> cases l.mutables <;> nofun

lemma readAuto_parts (l : WrittenLevel) :
    readAuto ((l.auto.map writeAuto).toList ++ (l.mutables.map writeMutables).toList) =
      some ((l.autoCount, l.autoValue), (l.mutables.map writeMutables).toList) := by
  refine readAuto_eq_some_iff.2 ⟨l.auto, rfl, l.auto_lt, fun _ items => ?_, ?_⟩
  · cases l.mutables <;> nofun
  · rw [WrittenLevel.autoCount, WrittenLevel.autoValue]
    cases l.auto <;> rfl

lemma readMutables_parts (l : WrittenLevel) :
    readMutables (l.mutables.map writeMutables).toList = some (.ofList l.indices, []) :=
  readMutables_eq_some_iff.2 ⟨l.mutables, (List.append_nil _).symm, l.mutables_lt, nofun, rfl⟩

/-- The levels that are read are those that are written. -/
lemma parseLevel?_eq_some_iff {name : Symbol} {vs : List Value} {d : PrefabDatum} :
    parseLevel? name vs = some d ↔
      ∃ l : WrittenLevel, l.name = name ∧ l.parts = vs ∧ l.read = d := by
  simp only [parseLevel?, Option.bind_eq_bind, Option.bind_eq_some_iff, Option.guard_eq_some',
    Option.pure_def, Option.some.injEq]
  constructor
  · rintro ⟨⟨init, afterInit⟩, hinit, ⟨⟨count, value⟩, afterAuto⟩, hauto, ⟨m, rest⟩, hmutables, -,
      hrest, -, hall, rfl⟩
    obtain rfl := List.isEmpty_iff.1 hrest
    obtain ⟨rfl, hwords, -⟩ := readInit_eq_some_iff.1 hinit
    obtain ⟨auto, rfl, hcount, -, hvalue⟩ := readAuto_eq_some_iff.1 hauto
    obtain ⟨mutables, rfl, hfields, -, rfl⟩ := readMutables_eq_some_iff.1 hmutables
    have hbounded : ∀ n ∈ init, ∀ l ∈ mutables, ∀ i ∈ l, i < n := by
      rintro n ⟨⟩ l ⟨⟩ i hi
      exact of_decide_eq_true (List.all_eq_true.1 hall i (FieldSet.mem_ofList.2 hi))
    refine ⟨⟨name, init, auto, mutables, hwords, hcount, hfields, hbounded⟩, rfl, ?_, ?_⟩
    · rw [parts, List.append_nil]
    · cases auto <;> cases hvalue <;> rfl
  · rintro ⟨l, rfl, rfl, rfl⟩
    refine ⟨_, readInit_parts l, _, readAuto_parts l, _, readMutables_parts l, (), rfl, (), ?_, rfl⟩
    cases hinit : l.initCount with
    | none => rfl
    | some init =>
      refine List.all_eq_true.2 fun i hi => decide_eq_true ?_
      exact l.lt_of_mem_indices hinit (FieldSet.mem_ofList.1 hi)

/-! ### Splitting at symbols -/

/-- Symbols, each with what follows it. -/
def flatten (groups : List (Symbol × List Value)) : List Value :=
  groups.flatMap fun g => .symbol g.1 :: g.2

/-- Nothing is lost in a split. -/
lemma append_flatten_splitAtSymbols (vs : List Value) :
    (splitAtSymbols vs).1 ++ flatten (splitAtSymbols vs).2 = vs := by
  induction vs with
  | nil => rfl
  | cons v vs ih =>
    rw [splitAtSymbols]
    cases v <;> exact congrArg (_ :: ·) ih

/-- Values without a symbol stand before the first symbol of what follows. -/
lemma splitAtSymbols_append {front rest : List Value}
    (h : ∀ v ∈ front, ∀ name, v ≠ .symbol name) :
    splitAtSymbols (front ++ rest) =
      (front ++ (splitAtSymbols rest).1, (splitAtSymbols rest).2) := by
  induction front with
  | nil => rfl
  | cons v front ih =>
    obtain ⟨hv, hfront⟩ := List.forall_mem_cons.1 h
    rw [List.cons_append, splitAtSymbols, ih hfront]
    cases v <;> first | rfl | exact absurd rfl (hv _)

/-- Symbols are split from each other if no other symbols are among what follows them. -/
lemma splitAtSymbols_flatten {groups : List (Symbol × List Value)}
    (h : ∀ g ∈ groups, ∀ v ∈ g.2, ∀ name, v ≠ .symbol name) :
    splitAtSymbols (flatten groups) = ([], groups) := by
  induction groups with
  | nil => rfl
  | cons g groups ih =>
    obtain ⟨hg, hgroups⟩ := List.forall_mem_cons.1 h
    show splitAtSymbols (.symbol g.1 :: (g.2 ++ flatten groups)) = _
    rw [splitAtSymbols, splitAtSymbols_append hg, ih hgroups, List.append_nil]

/-! ### Reading keys -/

/-- What is written behind a name holds no symbol. -/
lemma ne_symbol_of_mem_parts (l : WrittenLevel) : ∀ v ∈ l.parts, ∀ name, v ≠ .symbol name := by
  rintro v hv name rfl
  rw [parts, List.mem_append, List.mem_append, Option.mem_toList, Option.mem_toList,
    Option.mem_toList, Option.map_eq_some_iff, Option.map_eq_some_iff, Option.map_eq_some_iff] at hv
  rcases hv with ⟨_, -, heq⟩ | ⟨_, -, heq⟩ | ⟨_, -, heq⟩ <;> cases heq

/-- A written level as it is split from the others. -/
def group (l : WrittenLevel) : Symbol × List Value := (l.name, l.parts)

/-- The written levels of a list are split from each other. -/
lemma splitAtSymbols_levels (first : WrittenLevel) (supers : List WrittenSuper) :
    splitAtSymbols (first.elements ++ supers.flatMap fun l => l.1.elements) =
      ([], group first :: supers.map fun l => group l.1) := by
  have hflatten : first.elements ++ supers.flatMap (fun l => l.1.elements) =
      flatten (group first :: supers.map fun l => group l.1) := by
    rw [flatten, List.flatMap_cons, List.flatMap_map]
    rfl
  rw [hflatten, splitAtSymbols_flatten]
  refine List.forall_mem_cons.2 ⟨ne_symbol_of_mem_parts first, List.forall_mem_map.2 ?_⟩
  exact fun l _ => ne_symbol_of_mem_parts l.1

/-- A super level is read if its init count is written. -/
lemma parseSuper?_eq_some_iff {g : Symbol × List Value} {level : PrefabLevel} :
    parseSuper? g = some level ↔ ∃ l : WrittenSuper, group l.1 = g ∧ l.level = level := by
  simp only [parseSuper?, Option.bind_eq_bind, Option.bind_eq_some_iff, Option.pure_def,
    Option.some.injEq, parseLevel?_eq_some_iff]
  constructor
  · rintro ⟨_, ⟨l, hname, hparts, rfl⟩, init, hinit, rfl⟩
    have hsome : l.initCount = some init := hinit
    refine ⟨⟨l, by rw [hsome]; rfl⟩, Prod.ext hname hparts, ?_⟩
    simp only [WrittenSuper.level, hsome, Option.get_some]
    rfl
  · rintro ⟨⟨l, hsome⟩, rfl, rfl⟩
    obtain ⟨init, hinit⟩ := Option.isSome_iff_exists.1 hsome
    refine ⟨l.read, ⟨l, rfl, rfl, rfl⟩, init, hinit, ?_⟩
    simp only [WrittenSuper.level, hinit, Option.get_some]
    rfl

lemma mapM_parseSuper?_eq_some_iff {groups : List (Symbol × List Value)}
    {levels : List PrefabLevel} :
    groups.mapM parseSuper? = some levels ↔ ∃ ls : List WrittenSuper,
      ls.map (fun l => group l.1) = groups ∧ ls.map WrittenSuper.level = levels := by
  induction groups generalizing levels with
  | nil =>
    simp only [List.mapM_nil, Option.pure_def, Option.some.injEq, List.map_eq_nil_iff]
    exact ⟨fun h => ⟨[], rfl, h⟩, by rintro ⟨_, rfl, h⟩; exact h⟩
  | cons g groups ih =>
    simp only [List.mapM_cons, Option.bind_eq_bind, Option.bind_eq_some_iff, Option.pure_def,
      Option.some.injEq, parseSuper?_eq_some_iff, ih]
    constructor
    · rintro ⟨_, ⟨l, rfl, rfl⟩, _, ⟨ls, rfl, rfl⟩, rfl⟩
      exact ⟨l :: ls, rfl, rfl⟩
    · rintro ⟨ls, hgroups, rfl⟩
      cases ls with
      | nil => cases hgroups
      | cons l ls =>
        obtain ⟨rfl, rfl⟩ := List.cons.inj hgroups
        exact ⟨_, ⟨l, rfl, rfl⟩, _, ⟨ls, rfl, rfl⟩, rfl⟩

/-- The keys that are read are those that are written. -/
theorem parse?_eq_some_iff {datum : Value} {d : PrefabDatum} :
    parse? datum = some d ↔ ∃ w : WrittenKey, w.datum = datum ∧ w.read = d := by
  constructor
  · intro h
    unfold parse? at h
    split at h
    · rename_i name
      exact ⟨.bare name, rfl, Option.some.inj h⟩
    · rename_i items
      split at h
      · rename_i name vs supers hsplit
        simp only [Option.bind_eq_bind, Option.bind_eq_some_iff, Option.pure_def,
          Option.some.injEq, parseLevel?_eq_some_iff, mapM_parseSuper?_eq_some_iff] at h
        obtain ⟨_, ⟨first, rfl, rfl, rfl⟩, _, ⟨ls, rfl, rfl⟩, rfl⟩ := h
        have hitems := append_flatten_splitAtSymbols items
        rw [hsplit, List.nil_append, flatten, List.flatMap_cons, List.flatMap_map] at hitems
        exact ⟨.levels first ls, congrArg Value.list hitems, rfl⟩
      · cases h
    · cases h
  · rintro ⟨w, rfl, rfl⟩
    cases w with
    | bare name => rfl
    | levels first supers =>
      rw [WrittenKey.datum, parse?, splitAtSymbols_levels]
      simp only [Option.bind_eq_bind, Option.bind_eq_some_iff, Option.pure_def, Option.some.injEq]
      exact ⟨_, parseLevel?_eq_some_iff.2 ⟨first, rfl, rfl, rfl⟩, _,
        mapM_parseSuper?_eq_some_iff.2 ⟨supers, rfl, rfl⟩, rfl⟩

lemma isKey_iff {datum : Value} : isKey datum ↔ ∃ w : WrittenKey, w.datum = datum := by
  rw [isKey, Option.isSome_iff_exists]
  simp only [parse?_eq_some_iff]
  exact ⟨fun ⟨_, w, hw, _⟩ => ⟨w, hw⟩, fun ⟨w, hw⟩ => ⟨_, w, hw, rfl⟩⟩

/-! ### Unique reading -/

lemma eq_of_toList_map_eq {α β : Type} {f : α → β} {a b : Option α}
    (hf : ∀ x ∈ a, ∀ y ∈ b, f x = f y → x = y) (h : (a.map f).toList = (b.map f).toList) :
    a = b := by
  cases a with
  | none =>
    cases b with
    | none => rfl
    | some y => cases h
  | some x =>
    cases b with
    | none => cases h
    | some y => rw [hf x rfl y rfl (List.cons.inj h).1]

lemma writeAuto_inj {a b : Nat × Value} (ha : a.1 < 2 ^ 63) (hb : b.1 < 2 ^ 63)
    (h : writeAuto a = writeAuto b) : a = b := by
  obtain ⟨hcount, hvalue⟩ := List.cons.inj (Value.list.inj h)
  refine Prod.ext (Option.some.inj ?_) (List.cons.inj hvalue).1
  rw [← Value.index?_ofNat ha, hcount, Value.index?_ofNat hb]

lemma writeMutables_inj {l m : List Nat} (hl : ∀ i ∈ l, i < 2 ^ 63) (hm : ∀ i ∈ m, i < 2 ^ 63)
    (h : writeMutables l = writeMutables m) : l = m := by
  have hread := Value.mapM_index?_eq_some_iff.2 ⟨Value.vector.inj h, hm⟩
  exact Option.some.inj ((Value.mapM_index?_eq_some_iff.2 ⟨rfl, hl⟩).symm.trans hread)

/-- The kinds of the values tell the parts of a level apart. -/
lemma group_injective : Function.Injective group := by
  intro l m h
  obtain ⟨hname, hparts⟩ := Prod.mk.inj h
  -- each reader leaves the parts behind its own, so the parts agree one after the other
  have hinit := congrArg readInit hparts
  rw [readInit_parts, readInit_parts] at hinit
  obtain ⟨hinit, hauto⟩ := Prod.mk.inj (Option.some.inj hinit)
  have hmutables := congrArg readAuto hauto
  rw [readAuto_parts, readAuto_parts] at hmutables
  obtain ⟨-, hmutables⟩ := Prod.mk.inj (Option.some.inj hmutables)
  rw [hmutables] at hauto
  refine WrittenLevel.ext hname hinit ?_ ?_
  · refine eq_of_toList_map_eq (fun a ha b hb => ?_) (List.append_cancel_right hauto)
    exact writeAuto_inj (l.auto_lt a ha) (m.auto_lt b hb)
  · refine eq_of_toList_map_eq (fun a ha b hb => ?_) hmutables
    exact writeMutables_inj (l.mutables_lt a ha) (m.mutables_lt b hb)

end PrefabDatum

namespace WrittenKey

/-- A datum is written in one way at most. -/
lemma datum_injective : Function.Injective datum := by
  intro w w' h
  cases w with
  | bare name =>
    cases w' with
    | bare name' => exact congrArg bare (Value.symbol.inj h)
    | levels _ _ => cases h
  | levels first supers =>
    cases w' with
    | bare _ => cases h
    | levels first' supers' =>
      have hsplit := congrArg PrefabDatum.splitAtSymbols (Value.list.inj h)
      rw [PrefabDatum.splitAtSymbols_levels, PrefabDatum.splitAtSymbols_levels] at hsplit
      obtain ⟨hfirst, hsupers⟩ := List.cons.inj (Prod.mk.inj hsplit).2
      have hinj : Function.Injective fun l : WrittenSuper => PrefabDatum.group l.1 :=
        PrefabDatum.group_injective.comp Subtype.val_injective
      rw [PrefabDatum.group_injective hfirst, hinj.list_map hsupers]

/-! ### What is meant -/

variable {w : WrittenKey} {total : Nat}

/-- Instances have as many fields as they have to have for the key. -/
lemma totalCount_levelsFor (hw : w.Fits total) (hnone : w.first.initCount = none) :
    PrefabLevel.totalCount (w.levelsFor total) = total := by
  obtain ⟨hle, -⟩ := hw hnone
  show w.initCount total + w.first.autoCount + w.inherited = total
  rw [initCount, hnone, Option.getD_none]
  omega

/-- The first level is completed exactly for instances that leave enough for it. -/
lemma levelFor?_eq_some_iff {level : PrefabLevel} :
    w.read.levelFor? w.inherited total = some level ↔
      w.Fits total ∧ w.first.toLevel (w.initCount total) = level := by
  have hread : w.read.initCount = w.first.initCount := rfl
  simp only [PrefabDatum.levelFor?, Option.bind_eq_bind, Option.bind_eq_some_iff,
    Option.guard_eq_some', Option.pure_def, Option.some.injEq, List.all_eq_true,
    decide_eq_true_eq]
  have hmem : ∀ i, i ∈ w.read.mutables.indices ↔ i ∈ w.first.indices := fun _ =>
    FieldSet.mem_ofList
  simp only [hmem]
  cases hinit : w.first.initCount with
  | some init =>
    have hcount : w.initCount total = init := by rw [initCount, hinit, Option.getD_some]
    have hfits : w.Fits total := fun hnone => by rw [hinit] at hnone; cases hnone
    have hbelow : ∀ i ∈ w.first.indices, i < init := fun i hi =>
      w.first.lt_of_mem_indices hinit hi
    simp only [PrefabDatum.initCountFor?, hread, hinit, hcount, hfits, Option.some.injEq, true_and]
    exact ⟨fun ⟨_, rfl, _, _, h⟩ => h, fun h => ⟨init, rfl, (), hbelow, h⟩⟩
  | none =>
    have hcount : w.initCount total = total - (w.inherited + w.first.autoCount) := by
      rw [initCount, hinit, Option.getD_none, Nat.sub_sub]
    have hauto : w.read.autoCount = w.first.autoCount := rfl
    simp only [PrefabDatum.initCountFor?, hread, hinit, Fits, hcount, hauto,
      Option.ite_none_right_eq_some, Option.some.injEq, true_implies]
    constructor
    · rintro ⟨_, ⟨hle, rfl⟩, _, hall, h⟩
      exact ⟨⟨hle, hall⟩, h⟩
    · rintro ⟨⟨hle, hall⟩, h⟩
      exact ⟨_, ⟨hle, rfl⟩, (), hall, h⟩

end WrittenKey

namespace PrefabDatum

/-- The chain of levels that a datum denotes for instances of `total` fields. -/
def levelsFor? (datum : Value) (total : Nat) : Option (List PrefabLevel) := do
  let d ← parse? datum
  let level ← d.levelFor? (PrefabLevel.totalCount d.supers) total
  return level :: d.supers

/-- What is read denotes what is written. -/
theorem levelsFor?_eq_some_iff {datum : Value} {total : Nat} {levels : List PrefabLevel} :
    levelsFor? datum total = some levels ↔
      ∃ w : WrittenKey, w.datum = datum ∧ w.Fits total ∧ w.levelsFor total = levels := by
  simp only [levelsFor?, Option.bind_eq_bind, Option.bind_eq_some_iff, Option.pure_def,
    Option.some.injEq, parse?_eq_some_iff]
  constructor
  · rintro ⟨_, ⟨w, hw, rfl⟩, level, hlevel, rfl⟩
    obtain ⟨hfits, rfl⟩ := WrittenKey.levelFor?_eq_some_iff.1 hlevel
    exact ⟨w, hw, hfits, rfl⟩
  · rintro ⟨w, hw, hfits, rfl⟩
    exact ⟨_, ⟨w, hw, rfl⟩, _, WrittenKey.levelFor?_eq_some_iff.2 ⟨hfits, rfl⟩, rfl⟩

/-! ### Mutable fields -/

/-- The mutable fields of the first level are init fields. -/
lemma bounded_of_levelFor? {d : PrefabDatum} {inherited total : Nat} {l : PrefabLevel}
    (h : d.levelFor? inherited total = some l) : l.Bounded := by
  simp only [levelFor?, Option.bind_eq_bind, Option.bind_eq_some_iff, Option.guard_eq_some',
    Option.pure_def, Option.some.injEq] at h
  obtain ⟨init, -, -, hall, rfl⟩ := h
  intro i hi
  exact of_decide_eq_true (List.all_eq_true.1 hall i hi)

/-- The mutable fields of super levels are init fields. -/
lemma bounded_of_parse? {datum : Value} {d : PrefabDatum} (h : parse? datum = some d) :
    ∀ l ∈ d.supers, l.Bounded := by
  obtain ⟨w, -, rfl⟩ := parse?_eq_some_iff.1 h
  cases w with
  | bare name => exact fun _ hl => absurd hl List.not_mem_nil
  | levels first supers =>
    refine List.forall_mem_map.2 fun l _ i hi => ?_
    exact l.1.lt_of_mem_indices (Option.some_get l.2).symm (FieldSet.mem_ofList.1 hi)

end PrefabDatum

end Records
