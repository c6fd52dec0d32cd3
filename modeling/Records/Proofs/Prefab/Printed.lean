import Records.Proofs.Prefab.Grammar

/-!
# Reading printed chains

A printed chain of levels is written by the grammar, and read as it was written. Counts are printed
as words, and an auto value is printed only with auto fields, so a level comes back as it was
exactly if its counts are words and it has no other auto value than "no" without auto fields.

## Main definitions

* `PrefabLevel.Printable`: what the printed form of a level does not lose.

## Main statements

* `PrefabDatum.levelsFor?_full`: a chain of such levels is read as it was.
* `PrefabDatum.levelsFor?_short`: so is a chain without its first init count, for instances of
  its number of fields.
* `PrefabDatum.printable_of_levelsFor?_full`: no other chain is.
-/

namespace Records

/-- A truth value is the same as no other value. -/
lemma Value.eq_bool_of_same {b : Bool} {v : Value} (h : (bool b).same v) : v = bool b := by
  cases v <;> simp_all [same]

/-- The counts are words, and there is no auto value without auto fields. -/
structure PrefabLevel.Printable (l : PrefabLevel) : Prop where
  initCount : l.initCount < 2 ^ 63
  autoCount : l.autoCount < 2 ^ 63
  autoValue : l.autoCount = 0 → l.autoValue = .bool false

/-- What the printed form loses of a level, it loses of every level that is the same. -/
lemma PrefabLevel.Printable.of_same {l m : PrefabLevel} (h : l.Printable) (hs : l.same m) :
    m.Printable := by
  obtain ⟨-, hi, ha, hv, -⟩ := same_iff.1 hs
  refine ⟨hi ▸ h.initCount, ha ▸ h.autoCount, fun hzero => ?_⟩
  rw [h.autoValue (ha.trans hzero)] at hv
  exact Value.eq_bool_of_same hv

lemma SameChain.printable_iff {a b : List PrefabLevel} (h : SameChain a b) :
    (∀ l ∈ a, l.Printable) ↔ ∀ l ∈ b, l.Printable := by
  induction h with
  | nil => exact Iff.rfl
  | cons hl _ ih =>
    rw [List.forall_mem_cons, List.forall_mem_cons, ih]
    exact and_congr_left' ⟨fun h => h.of_same hl, fun h => h.of_same (PrefabLevel.same_symm hl)⟩

namespace PrefabDatum

open WrittenLevel

variable {l : PrefabLevel} {levels supers : List PrefabLevel}

/-! ### What is printed is written -/

/-- A printable level is written as it is printed, with its init count or without. -/
lemma exists_written (hl : l.Printable) (hb : l.Bounded) (init : Option Nat)
    (hinit : ∀ n ∈ init, n = l.initCount) :
    ∃ w : WrittenLevel, w.name = l.name ∧ w.initCount = init ∧
      w.parts = (init.map Value.ofNat).toList ++ l.options ∧ w.toLevel l.initCount = l := by
  have hmutables : ∀ i ∈ l.mutables.indices, i < l.initCount := hb
  refine ⟨⟨l.name, init, if l.autoCount = 0 then none else some (l.autoCount, l.autoValue),
    if l.mutables.isEmpty then none else some l.mutables.indices, ?_, ?_, ?_, ?_⟩, rfl, rfl, ?_, ?_⟩
  · intro n hn
    rw [hinit n hn]
    exact hl.initCount
  · intro a ha
    split at ha <;> cases ha
    exact hl.autoCount
  · intro m hm i hi
    split at hm <;> cases hm
    exact Nat.lt_trans (hmutables i hi) hl.initCount
  · intro n hn m hm i hi
    split at hm <;> cases hm
    rw [hinit n hn]
    exact hmutables i hi
  · rw [parts, PrefabLevel.options]
    congr 1
    split <;> split <;> rfl
  · have hcount : (if l.autoCount = 0 then none else some (l.autoCount, l.autoValue)).elim 0
        Prod.fst = l.autoCount := by
      split
      · exact Eq.symm ‹_›
      · rfl
    have hvalue : (if l.autoCount = 0 then none else some (l.autoCount, l.autoValue)).elim
        (.bool false) Prod.snd = l.autoValue := by
      split
      · exact (hl.autoValue ‹_›).symm
      · rfl
    have hset : FieldSet.ofList
        ((if l.mutables.isEmpty then none else some l.mutables.indices).getD []) = l.mutables := by
      have hindices := FieldSet.ofList_indices l.mutables
      split
      · rename_i hempty
        rw [List.isEmpty_iff.1 hempty] at hindices
        exact hindices
      · exact hindices
    rw [WrittenLevel.toLevel, WrittenLevel.autoCount, WrittenLevel.autoValue, indices]
    simp only [hcount, hvalue, hset]

lemma exists_written_supers (hl : ∀ l ∈ levels, l.Printable) (hb : ∀ l ∈ levels, l.Bounded) :
    ∃ ws : List WrittenSuper, ws.flatMap (fun w => w.1.elements) =
      levels.flatMap PrefabLevel.elements ∧ ws.map WrittenSuper.level = levels := by
  induction levels with
  | nil => exact ⟨[], rfl, rfl⟩
  | cons l levels ih =>
    obtain ⟨hl, hls⟩ := List.forall_mem_cons.1 hl
    obtain ⟨hb, hbs⟩ := List.forall_mem_cons.1 hb
    obtain ⟨w, hname, hinit, hparts, hlevel⟩ := exists_written hl hb (some l.initCount)
      fun n hn => (Option.some.inj hn).symm
    obtain ⟨ws, helements, hlevels⟩ := ih hls hbs
    refine ⟨⟨w, by rw [hinit]; rfl⟩ :: ws, ?_, ?_⟩
    · rw [List.flatMap_cons, List.flatMap_cons, helements, elements, hname, hparts]
      rfl
    · rw [List.map_cons, hlevels]
      simp only [WrittenSuper.level, hinit, Option.get_some, hlevel]

/-- A printed chain is read as it was, for instances of any number of fields. -/
theorem levelsFor?_full (hl : ∀ m ∈ l :: supers, m.Printable)
    (hb : ∀ m ∈ l :: supers, m.Bounded) (total : Nat) :
    levelsFor? (full (l :: supers)) total = some (l :: supers) := by
  obtain ⟨hl, hls⟩ := List.forall_mem_cons.1 hl
  obtain ⟨hb, hbs⟩ := List.forall_mem_cons.1 hb
  obtain ⟨w, hname, hinit, hparts, hlevel⟩ := exists_written hl hb (some l.initCount)
    fun n hn => (Option.some.inj hn).symm
  obtain ⟨ws, helements, hlevels⟩ := exists_written_supers hls hbs
  refine levelsFor?_eq_some_iff.2 ⟨.levels w ws, ?_, fun hnone => ?_, ?_⟩
  · rw [WrittenKey.datum, helements, elements, hname, hparts]
    rfl
  · cases hinit.symm.trans hnone
  · show w.toLevel (w.initCount.getD _) :: ws.map WrittenSuper.level = l :: supers
    rw [hinit, hlevels]
    exact congrArg (· :: supers) hlevel

/-- A chain printed without its first init count is read as it was, for instances with as many
fields as the chain has. -/
theorem levelsFor?_short (hl : ∀ m ∈ l :: supers, m.Printable)
    (hb : ∀ m ∈ l :: supers, m.Bounded) :
    levelsFor? (short (l :: supers)) (PrefabLevel.totalCount (l :: supers)) =
      some (l :: supers) := by
  obtain ⟨hl, hls⟩ := List.forall_mem_cons.1 hl
  obtain ⟨hb, hbs⟩ := List.forall_mem_cons.1 hb
  obtain ⟨w, hname, hinit, hparts, hlevel⟩ := exists_written hl hb none nofun
  obtain ⟨ws, helements, hlevels⟩ := exists_written_supers hls hbs
  obtain ⟨k, hdatum, hfirst, hsupers⟩ : ∃ k : WrittenKey,
      k.datum = short (l :: supers) ∧ k.first = w ∧ k.superLevels = supers := by
    rw [short]
    split
    · -- a bare name is written for a level with nothing behind its name
      rename_i hrest
      obtain ⟨hoptions, hsupers⟩ := List.append_eq_nil_iff.1 hrest
      cases supers with
      | cons m supers => cases hsupers
      | nil =>
        have hgroup : group (.ofName l.name) = group w :=
          Prod.ext hname.symm (by rw [group, group, hparts, hoptions]; rfl)
        exact ⟨.bare l.name, rfl, group_injective hgroup, rfl⟩
    · refine ⟨.levels w ws, ?_, rfl, hlevels⟩
      rw [WrittenKey.datum, helements, elements, hname, hparts]
      rfl
  have htotal : PrefabLevel.totalCount (l :: supers) =
      l.initCount + l.autoCount + PrefabLevel.totalCount supers := rfl
  have hinherited : k.inherited = PrefabLevel.totalCount supers := by
    rw [WrittenKey.inherited, hsupers]
  have hauto : k.first.autoCount = l.autoCount := by
    rw [hfirst]
    exact congrArg PrefabLevel.autoCount hlevel
  have hcount : k.initCount (PrefabLevel.totalCount (l :: supers)) = l.initCount := by
    rw [WrittenKey.initCount, hinherited, hauto, hfirst, hinit, Option.getD_none]
    omega
  refine levelsFor?_eq_some_iff.2 ⟨k, hdatum, fun _ => ⟨by omega, fun i hi => ?_⟩, ?_⟩
  · rw [hcount]
    refine hb i ?_
    rw [← congrArg PrefabLevel.mutables hlevel, ← hfirst]
    exact FieldSet.mem_ofList.2 hi
  · rw [WrittenKey.levelsFor, hcount, hsupers, hfirst, hlevel]

/-! ### What cannot be read -/

/-- A level as it is printed: its name, and what follows it. -/
def printedGroup (l : PrefabLevel) : Symbol × List Value :=
  (l.name, .ofNat l.initCount :: l.options)

/-- A printed chain is split into its levels. -/
lemma splitAtSymbols_elements (levels : List PrefabLevel) :
    splitAtSymbols (levels.flatMap PrefabLevel.elements) = ([], levels.map printedGroup) := by
  have hflatten : levels.flatMap PrefabLevel.elements = flatten (levels.map printedGroup) := by
    rw [flatten, List.flatMap_map]
    rfl
  rw [hflatten, splitAtSymbols_flatten]
  rw [List.forall_mem_map]
  rintro l - v hv name rfl
  rcases List.mem_cons.1 hv with hv | hv
  · cases hv
  · rw [PrefabLevel.options] at hv
    split at hv <;> split at hv <;> simp at hv

/-- A level that is written as another one is printed, and is the same, can be printed. -/
lemma printable_of_group_eq {w : WrittenLevel} (hw : group w = printedGroup l) {n : Nat}
    (hs : (w.toLevel (w.initCount.getD n)).same l) : l.Printable := by
  obtain ⟨-, hparts⟩ := Prod.mk.inj hw
  rw [parts] at hparts
  cases hinit : w.initCount with
  | none =>
    -- no fixnum comes next
    rw [hinit] at hparts
    cases hauto : w.auto <;> cases hmutables : w.mutables <;> rw [hauto, hmutables] at hparts <;>
      cases hparts
  | some init =>
    rw [hinit] at hparts hs
    obtain ⟨-, hoptions⟩ := List.cons.inj hparts
    refine PrefabLevel.Printable.of_same ⟨w.initCount_lt init hinit, ?_, fun hzero => ?_⟩ hs
    · show w.auto.elim 0 Prod.fst < 2 ^ 63
      cases hauto : w.auto with
      | none => exact Nat.two_pow_pos 63
      | some a => exact w.auto_lt a hauto
    · -- without auto fields no list is printed, so none was written
      obtain ⟨-, -, hcount, -⟩ := PrefabLevel.same_iff.1 hs
      rw [PrefabLevel.options, if_pos (hcount.symm.trans hzero)] at hoptions
      show w.auto.elim (.bool false) Prod.snd = .bool false
      cases hauto : w.auto with
      | none => rfl
      | some a =>
        rw [hauto] at hoptions
        split at hoptions <;> cases hoptions

lemma printable_of_groups_eq {ws : List WrittenSuper}
    (hw : ws.map (fun w => group w.1) = levels.map printedGroup)
    (hs : SameChain (ws.map WrittenSuper.level) levels) : ∀ l ∈ levels, l.Printable := by
  induction levels generalizing ws with
  | nil => exact fun _ hl => absurd hl List.not_mem_nil
  | cons l levels ih =>
    cases ws with
    | nil => cases hw
    | cons w ws =>
      obtain ⟨hw, hws⟩ := List.cons.inj hw
      obtain ⟨hs, hss⟩ := SameChain.cons_iff.1 hs
      have hlevel : w.level = w.1.toLevel (w.1.initCount.getD 0) :=
        congrArg w.1.toLevel (Option.get_eq_getD w.1.initCount)
      rw [hlevel] at hs
      exact List.forall_mem_cons.2 ⟨printable_of_group_eq hw hs, ih hws hss⟩

/-- A chain that is read as it was can be printed. -/
theorem printable_of_levelsFor?_full {total : Nat} {levels' : List PrefabLevel}
    (h : levelsFor? (full levels) total = some levels') (hs : SameChain levels' levels) :
    ∀ l ∈ levels, l.Printable := by
  obtain ⟨k, hk, -, rfl⟩ := levelsFor?_eq_some_iff.1 h
  cases k with
  | bare name => cases hk
  | levels first supers =>
    have hsplit := congrArg splitAtSymbols (Value.list.inj hk)
    rw [splitAtSymbols_levels, splitAtSymbols_elements] at hsplit
    have hgroups := (Prod.mk.inj hsplit).2
    cases levels with
    | nil => exact fun _ hl => absurd hl List.not_mem_nil
    | cons l levels =>
      obtain ⟨hfirst, hsupers⟩ := List.cons.inj hgroups
      obtain ⟨hs, hss⟩ := SameChain.cons_iff.1 hs
      exact List.forall_mem_cons.2
        ⟨printable_of_group_eq hfirst hs, printable_of_groups_eq hsupers hss⟩

end PrefabDatum

end Records
