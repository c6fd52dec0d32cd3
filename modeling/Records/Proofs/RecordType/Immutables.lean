import Records.RecordType.Layout
import Mathlib.Tactic.Lemma

/-!
# The immutable fields of a declared type

The immutable fields are those that are listed and those that are designated by a number. All of
them have to be init fields.

## Main statements

* `Store.mem_declaredImmutables`: which fields of a declared type are immutable.
-/

namespace Records

namespace Declaration

variable {d : Declaration}

lemma initField_eq_ok_iff {i j : Nat} : d.initField i = .ok j ↔ j = i ∧ i < d.initCount := by
  unfold initField
  split
  · rename_i h
    simp [h, eq_comm]
  · rename_i h
    simp [h]

/-- A list of fields passes as a whole if each of them is an init field. -/
lemma mapM_initField_eq_ok_iff {l l' : List Nat} :
    l.mapM d.initField = .ok l' ↔ l' = l ∧ ∀ i ∈ l, i < d.initCount := by
  induction l generalizing l' with
  | nil => simp [pure, Except.pure, eq_comm]
  | cons i l ih =>
    rw [List.mapM_cons]
    constructor
    · intro h
      cases hi : d.initField i with
      | error e =>
        rw [hi] at h
        cases h
      | ok j =>
        cases hl : l.mapM d.initField with
        | error e =>
          rw [hi, hl] at h
          cases h
        | ok js =>
          rw [hi, hl] at h
          cases h
          obtain ⟨rfl, hlt⟩ := initField_eq_ok_iff.1 hi
          obtain ⟨rfl, hall⟩ := ih.1 hl
          exact ⟨rfl, List.forall_mem_cons.2 ⟨hlt, hall⟩⟩
    · rintro ⟨rfl, hall⟩
      obtain ⟨hi, hl⟩ := List.forall_mem_cons.1 hall
      rw [initField_eq_ok_iff.2 ⟨rfl, hi⟩, ih.2 ⟨rfl, hl⟩]
      rfl

end Declaration

namespace Store

variable {s : Store} {d : Declaration}

/-- A list of designations passes as a whole if each of them is the number of an init field. -/
lemma mapM_designatedField_eq_ok {l : List Value} {l' : List Nat}
    (h : l.mapM (s.designatedField d) = .ok l') :
    l.map Value.index? = l'.map some ∧ ∀ i ∈ l', i < d.initCount := by
  induction l generalizing l' with
  | nil =>
    cases h
    exact ⟨rfl, nofun⟩
  | cons v l ih =>
    rw [List.mapM_cons] at h
    cases hv : s.designatedField d v with
    | error e =>
      rw [hv] at h
      cases h
    | ok i =>
      cases hl : l.mapM (s.designatedField d) with
      | error e =>
        rw [hv, hl] at h
        cases h
      | ok is =>
        rw [hv, hl] at h
        cases h
        obtain ⟨hindices, hall⟩ := ih hl
        unfold designatedField at hv
        cases hindex : v.index? with
        | none =>
          rw [hindex] at hv
          cases hv
        | some j =>
          rw [hindex] at hv
          obtain ⟨rfl, hlt⟩ := Declaration.initField_eq_ok_iff.1 hv
          exact ⟨by rw [List.map_cons, List.map_cons, hindex, hindices],
            List.forall_mem_cons.2 ⟨hlt, hall⟩⟩

/-- The immutable fields of a declared type are init fields: those that are listed and those that
are designated by a number. -/
lemma mem_declaredImmutables {immutables : FieldSet}
    (h : s.declaredImmutables d = .ok immutables) :
    (∀ i ∈ immutables, i < d.initCount) ∧
      ∀ i, i ∈ immutables ↔ i ∈ d.immutables ∨ ∃ v ∈ d.designations, v.index? = some i := by
  rw [declaredImmutables] at h
  cases hl : d.immutables.mapM d.initField with
  | error e =>
    rw [hl] at h
    cases h
  | ok declared =>
    cases hm : (d.designations.filter (·.fixnum?.isSome)).mapM (s.designatedField d) with
    | error e =>
      simp only [hl, hm] at h
      cases h
    | ok designated =>
      simp only [hl, hm] at h
      cases h
      obtain ⟨rfl, hlisted⟩ := Declaration.mapM_initField_eq_ok_iff.1 hl
      obtain ⟨hindices, hdesignated⟩ := mapM_designatedField_eq_ok hm
      have hmem : ∀ i, i ∈ designated ↔ ∃ v ∈ d.designations, v.index? = some i := by
        intro i
        have hsome : i ∈ designated ↔ some i ∈ designated.map some := by simp
        rw [hsome, ← hindices, List.mem_map]
        constructor
        · rintro ⟨v, hv, hi⟩
          exact ⟨v, (List.mem_filter.1 hv).1, hi⟩
        · rintro ⟨v, hv, hi⟩
          refine ⟨v, List.mem_filter.2 ⟨hv, ?_⟩, hi⟩
          obtain ⟨n, rfl, -⟩ := Value.index?_eq_some_iff.1 hi
          rfl
      constructor
      · intro i hi
        rw [FieldSet.mem_ofList, List.mem_append] at hi
        exact hi.elim (hlisted i) (hdesignated i)
      · intro i
        rw [FieldSet.mem_ofList, List.mem_append, hmem]

end Store

lemma Store.declaredImmutables_eq_ok {s : Store} {d : Declaration} {immutables : FieldSet}
    (h : s.declaredImmutables d = .ok immutables) (hd : d.designations = []) :
    immutables = .ofList d.immutables ∧ ∀ i ∈ d.immutables, i < d.initCount := by
  rw [declaredImmutables, hd] at h
  cases hl : d.immutables.mapM d.initField with
  | error e =>
    rw [hl] at h
    cases h
  | ok declared =>
    obtain ⟨rfl, hall⟩ := Declaration.mapM_initField_eq_ok_iff.1 hl
    rw [hl] at h
    cases h
    exact ⟨by simp, hall⟩

/-- Without a designated field, listed init fields are accepted. -/
lemma Store.declaredImmutables_of_lt (s : Store) {d : Declaration} (hd : d.designations = [])
    (h : ∀ i ∈ d.immutables, i < d.initCount) :
    s.declaredImmutables d = .ok (.ofList d.immutables) := by
  rw [declaredImmutables, hd, Declaration.mapM_initField_eq_ok_iff.2 ⟨rfl, h⟩]
  show Except.ok (FieldSet.ofList (d.immutables ++ [])) = _
  rw [List.append_nil]

end Records
