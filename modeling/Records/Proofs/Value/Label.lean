import Records.Proofs.Instance.Printing
import Records.Prefab.Datum
import Records.Proofs.Store.Built
import Mathlib.Data.List.Forall2

/-!
# Labels and printed forms

Equality of values looks at everything that is printed of them but the labels of field accessors
and mutators. So equal values are printed alike if their labels are. Where no label could be
mistaken for what surrounds it, they are printed alike only then.

## Main definitions

* `Value.labels`: the labels that are printed of a value.

## Main statements

* `Store.printedByLabel`: what equality of values says about their printed forms.
-/

namespace Records

/-! ### Labels -/

/-- The label that is printed in the name of a procedure. -/
def Procedure.labels : Procedure → List String
  | .fieldAccessor _ field label => [fieldLabel field label]
  | .fieldMutator _ field label => [fieldLabel field label]
  | _ => []

namespace Value

mutual

/-- The labels that are printed of a value itself, from left to right. -/
def labels : Value → List String
  | .list items => labelsAll items
  | .vector items => labelsAll items
  | .procedure p => p.labels
  | _ => []

/-- The labels that are printed of some values. -/
def labelsAll : List Value → List String
  | [] => []
  | v :: vs => v.labels ++ labelsAll vs

end

end Value

/-- Equal procedures are the same up to the label of a field accessor or mutator. -/
lemma Procedure.same_cases {p q : Procedure} (h : p == q) :
    p = q ∨ (∃ t field l m, p = .fieldAccessor t field l ∧ q = .fieldAccessor t field m) ∨
      ∃ t field l m, p = .fieldMutator t field l ∧ q = .fieldMutator t field m := by
  rw [same_iff] at h
  cases p <;> cases q <;> cases h
  case fieldAccessor.fieldAccessor => exact .inr (.inl ⟨_, _, _, _, rfl, rfl⟩)
  case fieldMutator.fieldMutator => exact .inr (.inr ⟨_, _, _, _, rfl, rfl⟩)
  all_goals exact .inl rfl

lemma Procedure.length_labels_of_same {p q : Procedure} (h : p == q) :
    p.labels.length = q.labels.length := by
  obtain rfl | ⟨t, field, l, m, rfl, rfl⟩ | ⟨t, field, l, m, rfl, rfl⟩ := same_cases h <;> rfl

namespace Value

mutual

/-- Equal values have their labels at the same places. -/
lemma length_labels_of_same : (v w : Value) → v.same w → v.labels.length = w.labels.length
  | .list items, w, h => by
    cases w with
    | list others => exact length_labelsAll_of_sameAll items others h
    | _ => cases h
  | .vector items, w, h => by
    cases w with
    | vector others => exact length_labelsAll_of_sameAll items others h
    | _ => cases h
  | .procedure p, w, h => by
    cases w with
    | procedure q => exact Procedure.length_labels_of_same h
    | _ => cases h
  | .void, w, h | .bool _, w, h | .fixnum _, w, h | .symbol _, w, h | .string _, w, h
  | .record _, w, h | .recordType _, w, h | .property _, w, h => by
    cases w <;> first | rfl | cases h

lemma length_labelsAll_of_sameAll : (vs ws : List Value) → sameAll vs ws →
    (labelsAll vs).length = (labelsAll ws).length
  | [], ws, h => by
    cases ws with
    | nil => rfl
    | cons => cases h
  | v :: vs, ws, h => by
    cases ws with
    | nil => cases h
    | cons w ws =>
      rw [sameAll, Bool.and_eq_true] at h
      rw [labelsAll, labelsAll, List.length_append, List.length_append,
        length_labels_of_same v w h.1, length_labelsAll_of_sameAll vs ws h.2]

end

end Value

namespace Store

variable {s : Store} {record : InstanceId → String}

/-- Equal procedures have one name exactly if their labels are the same. -/
lemma procedureName_eq_iff {p q : Procedure} (h : p == q) :
    s.procedureName p = s.procedureName q ↔ p.labels = q.labels := by
  obtain rfl | ⟨t, field, l, m, rfl, rfl⟩ | ⟨t, field, l, m, rfl, rfl⟩ := Procedure.same_cases h
  · exact iff_of_true rfl rfl
  · simp [procedureName, Procedure.labels]
  · simp [procedureName, Procedure.labels]

mutual

/-- Equal values with the same labels are printed alike. -/
lemma displayWith_congr (s : Store) (record : InstanceId → String) : (v w : Value) → v.same w →
    v.labels = w.labels → s.displayWith record v = s.displayWith record w
  | .list items, w, h, hl => by
    cases w with
    | list others =>
      rw [displayWith_list, displayWith_list, displayAllWith_congr s record items others h hl]
    | _ => cases h
  | .vector items, w, h, hl => by
    cases w with
    | vector others =>
      rw [displayWith_vector, displayWith_vector, displayAllWith_congr s record items others h hl]
    | _ => cases h
  | .procedure p, w, h, hl => by
    cases w with
    | procedure q =>
      rw [displayWith_procedure, displayWith_procedure, (procedureName_eq_iff h).2 hl]
    | _ => cases h
  | .void, w, h, _ | .bool _, w, h, _ | .fixnum _, w, h, _ | .symbol _, w, h, _
  | .string _, w, h, _ | .record _, w, h, _ | .recordType _, w, h, _ | .property _, w, h, _ => by
    rw [Value.same_iff] at h
    cases w <;> first | cases h; rfl | cases h

lemma displayAllWith_congr (s : Store) (record : InstanceId → String) :
    (vs ws : List Value) → Value.sameAll vs ws → Value.labelsAll vs = Value.labelsAll ws →
    s.displayAllWith record vs = s.displayAllWith record ws
  | [], ws, h, _ => by
    cases ws with
    | nil => rfl
    | cons => cases h
  | v :: vs, ws, h, hl => by
    cases ws with
    | nil => cases h
    | cons w ws =>
      rw [Value.sameAll, Bool.and_eq_true] at h
      obtain ⟨hv, hvs⟩ := List.append_inj hl (Value.length_labels_of_same v w h.1)
      rw [displayAllWith_cons, displayAllWith_cons, displayWith_congr s record v w h.1 hv,
        displayAllWith_congr s record vs ws h.2 hvs]

end

/-! ### Labels that end where they seem to -/

/-- What stands in front of the first bracket is told by the whole text. -/
lemma eq_of_append_bracket {a b x y : String} (ha : '>' ∉ a.toList) (hb : '>' ∉ b.toList)
    (h : a ++ ">" ++ x = b ++ ">" ++ y) : a = b ∧ x = y := by
  have hlist : ∀ (l m : List Char), '>' ∉ l → '>' ∉ m →
      l ++ '>' :: x.toList = m ++ '>' :: y.toList → l = m ∧ x.toList = y.toList := by
    intro l
    induction l with
    | nil =>
      intro m _ hm heq
      cases m with
      | nil => exact ⟨rfl, (List.cons.inj heq).2⟩
      | cons c m => exact absurd ((List.cons.inj heq).1 ▸ List.mem_cons_self) hm
    | cons c l ih =>
      intro m hl hm heq
      cases m with
      | nil => exact absurd ((List.cons.inj heq).1 ▸ List.mem_cons_self) hl
      | cons d m =>
        obtain ⟨rfl, htail⟩ := List.cons.inj heq
        obtain ⟨rfl, hxy⟩ := ih m (fun hc => hl (List.mem_cons_of_mem c hc))
          (fun hc => hm (List.mem_cons_of_mem c hc)) htail
        exact ⟨rfl, hxy⟩
  have htext := congrArg String.toList h
  simp only [String.toList_append, List.append_assoc] at htext
  obtain ⟨hab, hxy⟩ := hlist a.toList b.toList ha hb htext
  exact ⟨String.toList_inj.1 hab, String.toList_inj.1 hxy⟩

/-- Labels without a bracket are told by the printed form of a procedure and what follows it. -/
lemma labels_eq_of_displayWith_procedure {p q : Procedure} {x y : String} (h : p == q)
    (hp : ∀ l ∈ p.labels, '>' ∉ l.toList) (hq : ∀ l ∈ q.labels, '>' ∉ l.toList)
    (heq : s.displayWith record (.procedure p) ++ x = s.displayWith record (.procedure q) ++ y) :
    p.labels = q.labels ∧ x = y := by
  rw [displayWith_procedure, displayWith_procedure] at heq
  obtain rfl | ⟨t, field, l, m, rfl, rfl⟩ | ⟨t, field, l, m, rfl, rfl⟩ := Procedure.same_cases h
  · exact ⟨rfl, (String.append_right_inj _).1 heq⟩
  · have hl : '>' ∉ (fieldLabel field l).toList := hp _ List.mem_cons_self
    have hm : '>' ∉ (fieldLabel field m).toList := hq _ List.mem_cons_self
    simp only [procedureName, String.append_assoc, String.append_right_inj] at heq
    simp only [← String.append_assoc] at heq
    obtain ⟨hlabel, hxy⟩ := eq_of_append_bracket hl hm heq
    exact ⟨congrArg (fun label => [label]) hlabel, hxy⟩
  · have hl : '>' ∉ (fieldLabel field l ++ "!").toList := by
      simpa using hp _ List.mem_cons_self
    have hm : '>' ∉ (fieldLabel field m ++ "!").toList := by
      simpa using hq _ List.mem_cons_self
    simp only [procedureName, String.append_assoc, String.append_right_inj] at heq
    simp only [← String.append_assoc] at heq
    obtain ⟨hlabel, hxy⟩ := eq_of_append_bracket hl hm heq
    exact ⟨congrArg (fun label => [label]) ((String.append_left_inj "!").1 hlabel), hxy⟩

mutual

/-- Labels without a bracket are told by the printed form of a value and what follows it. -/
lemma labels_eq_of_displayWith (s : Store) (record : InstanceId → String) : (v w : Value) →
    v.same w → (∀ l ∈ v.labels, '>' ∉ l.toList) → (∀ l ∈ w.labels, '>' ∉ l.toList) →
    ∀ x y, s.displayWith record v ++ x = s.displayWith record w ++ y → v.labels = w.labels ∧ x = y
  | .list items, w, h, hv, hw => by
    cases w with
    | list others =>
      intro x y heq
      simp only [displayWith_list, String.append_assoc, String.append_right_inj] at heq
      obtain ⟨hlabels, hxy⟩ := labels_eq_of_displayAllWith s record items others h hv hw _ _ heq
      exact ⟨hlabels, (String.append_right_inj _).1 hxy⟩
    | _ => cases h
  | .vector items, w, h, hv, hw => by
    cases w with
    | vector others =>
      intro x y heq
      simp only [displayWith_vector, String.append_assoc, String.append_right_inj] at heq
      obtain ⟨hlabels, hxy⟩ := labels_eq_of_displayAllWith s record items others h hv hw _ _ heq
      exact ⟨hlabels, (String.append_right_inj _).1 hxy⟩
    | _ => cases h
  | .procedure p, w, h, hv, hw => by
    cases w with
    | procedure q => exact fun x y heq => labels_eq_of_displayWith_procedure h hv hw heq
    | _ => cases h
  | .void, w, h, _, _ | .bool _, w, h, _, _ | .fixnum _, w, h, _, _ | .symbol _, w, h, _, _
  | .string _, w, h, _, _ | .record _, w, h, _, _ | .recordType _, w, h, _, _
  | .property _, w, h, _, _ => by
    rw [Value.same_iff] at h
    cases w <;> first
      | cases h; exact fun x y heq => ⟨rfl, (String.append_right_inj _).1 heq⟩
      | cases h

lemma labels_eq_of_displayAllWith (s : Store) (record : InstanceId → String) :
    (vs ws : List Value) → Value.sameAll vs ws → (∀ l ∈ Value.labelsAll vs, '>' ∉ l.toList) →
    (∀ l ∈ Value.labelsAll ws, '>' ∉ l.toList) → ∀ x y,
    " ".intercalate (s.displayAllWith record vs) ++ x =
      " ".intercalate (s.displayAllWith record ws) ++ y →
    Value.labelsAll vs = Value.labelsAll ws ∧ x = y
  | [], ws, h, _, _ => by
    cases ws with
    | nil => exact fun x y heq => ⟨rfl, (String.append_right_inj _).1 heq⟩
    | cons => cases h
  | v :: vs, ws, h, hvs, hws => by
    cases ws with
    | nil => cases h
    | cons w ws =>
      rw [Value.sameAll, Bool.and_eq_true] at h
      obtain ⟨hv, hvs⟩ := List.forall_mem_append.1 hvs
      obtain ⟨hw, hws⟩ := List.forall_mem_append.1 hws
      have hfirst := labels_eq_of_displayWith s record v w h.1 hv hw
      have hrest := labels_eq_of_displayAllWith s record vs ws h.2 hvs hws
      intro x y heq
      rw [displayAllWith_cons, displayAllWith_cons] at heq
      cases vs with
      | nil =>
        cases ws with
        | nil =>
          obtain ⟨hlabels, hxy⟩ := hfirst x y heq
          exact ⟨congrArg (· ++ []) hlabels, hxy⟩
        | cons => cases h.2
      | cons v' vs =>
        cases ws with
        | nil => cases h.2
        | cons w' ws =>
          simp only [displayAllWith_cons, String.intercalate_cons_cons, String.append_assoc] at heq
          obtain ⟨hlabels, hspace⟩ := hfirst _ _ heq
          obtain ⟨hothers, hxy⟩ := hrest x y ((String.append_right_inj _).1 hspace)
          exact ⟨congrArg₂ (· ++ ·) hlabels hothers, hxy⟩

end

/-! ### Keys -/

lemma displayAllWith_append (s : Store) (record : InstanceId → String) (vs ws : List Value) :
    s.displayAllWith record (vs ++ ws) =
      s.displayAllWith record vs ++ s.displayAllWith record ws := by
  induction vs with
  | nil => rfl
  | cons v vs ih =>
    rw [List.cons_append, displayAllWith_cons, ih, displayAllWith_cons, List.cons_append]

/-- Two chains of the same structure whose auto values are printed alike. -/
def LevelsAlike (s : Store) : List PrefabLevel → List PrefabLevel → Prop :=
  List.Forall₂ fun l m => l.same m ∧ s.display l.autoValue = s.display m.autoValue

lemma displayAllWith_options {l m : PrefabLevel} (h : l.same m)
    (hauto : s.display l.autoValue = s.display m.autoValue) :
    s.displayAllWith s.displayRecord l.options = s.displayAllWith s.displayRecord m.options := by
  obtain ⟨-, -, hcount, -, hmutables⟩ := PrefabLevel.same_iff.1 h
  have hauto : s.displayWith s.displayRecord l.autoValue =
      s.displayWith s.displayRecord m.autoValue := hauto
  rw [PrefabLevel.options, PrefabLevel.options, displayAllWith_append, displayAllWith_append,
    hcount, hmutables]
  split
  · rfl
  · simp only [displayAllWith_cons, displayWith_list, hauto]

lemma displayAllWith_elements {a b : List PrefabLevel} (h : s.LevelsAlike a b) :
    s.displayAllWith s.displayRecord (a.flatMap PrefabLevel.elements) =
      s.displayAllWith s.displayRecord (b.flatMap PrefabLevel.elements) := by
  induction h with
  | nil => rfl
  | @cons l m a b hl _ ih =>
    obtain ⟨hname, hinit, -⟩ := PrefabLevel.same_iff.1 hl.1
    rw [List.flatMap_cons, List.flatMap_cons, displayAllWith_append, displayAllWith_append, ih,
      PrefabLevel.elements, PrefabLevel.elements, hname, hinit]
    simp only [displayAllWith_cons, displayAllWith_options hl.1 hl.2]

/-- Keys of one structure are printed alike, in both forms, if their auto values are. -/
lemma display_full_eq {a b : List PrefabLevel} (h : s.LevelsAlike a b) :
    s.display (PrefabDatum.full a) = s.display (PrefabDatum.full b) := by
  rw [display, display, PrefabDatum.full, PrefabDatum.full, displayWith_list, displayWith_list,
    displayAllWith_elements h]

lemma display_short_eq {a b : List PrefabLevel} (h : s.LevelsAlike a b) :
    s.display (PrefabDatum.short a) = s.display (PrefabDatum.short b) := by
  cases h with
  | nil => rfl
  | @cons l m a b hl hrest =>
    have hparts : s.displayAllWith s.displayRecord (l.options ++ a.flatMap PrefabLevel.elements) =
        s.displayAllWith s.displayRecord (m.options ++ b.flatMap PrefabLevel.elements) := by
      rw [displayAllWith_append, displayAllWith_append, displayAllWith_options hl.1 hl.2,
        displayAllWith_elements hrest]
    have hname := (PrefabLevel.same_iff.1 hl.1).1
    rw [PrefabDatum.short, PrefabDatum.short, hname]
    cases hx : l.options ++ a.flatMap PrefabLevel.elements with
    | nil =>
      cases hy : m.options ++ b.flatMap PrefabLevel.elements with
      | nil => rfl
      | cons y ys =>
        rw [hx, hy] at hparts
        cases hparts
    | cons x xs =>
      cases hy : m.options ++ b.flatMap PrefabLevel.elements with
      | nil =>
        rw [hx, hy] at hparts
        cases hparts
      | cons y ys =>
        rw [hx, hy] at hparts
        simp only [display, displayWith_list, displayAllWith_cons s _ (.symbol m.name), hparts]

/-! ### Equality and printed forms -/

/-- What equality of values says about their printed forms. -/
structure PrintedByLabel (s : Store) : Prop where
  /-- Equal values are printed alike if their labels are the same. -/
  display_eq : ∀ v w : Value, v == w → v.labels = w.labels → s.display v = s.display w
  /-- In particular values that print no label. -/
  display_eq_of_nil : ∀ v w : Value, v == w → v.labels = [] → s.display v = s.display w
  /-- Equal procedures are printed alike exactly if their labels are the same. -/
  display_procedure_iff : ∀ p q : Procedure, p == q →
    (s.display (.procedure p) = s.display (.procedure q) ↔ p.labels = q.labels)
  /-- So are equal values of any depth, where no label could be taken for what follows one. -/
  display_iff : ∀ v w : Value, v == w → (∀ l ∈ v.labels, '>' ∉ l.toList) →
    (∀ l ∈ w.labels, '>' ∉ l.toList) → (s.display v = s.display w ↔ v.labels = w.labels)
  /-- Keys that a catalog takes for one are printed alike if their auto values are. -/
  display_key_eq : ∀ a b, s.LevelsAlike a b →
    s.display (PrefabDatum.full a) = s.display (PrefabDatum.full b) ∧
      s.display (PrefabDatum.short a) = s.display (PrefabDatum.short b)

/-- In every store equal values are printed alike up to labels. -/
theorem printedByLabel (s : Store) : s.PrintedByLabel where
  display_eq v w h hl := displayWith_congr s s.displayRecord v w h hl
  display_eq_of_nil v w h hv := by
    have hlength := Value.length_labels_of_same v w h
    rw [hv, List.length_nil, eq_comm, List.length_eq_zero_iff] at hlength
    exact displayWith_congr s s.displayRecord v w h (hv.trans hlength.symm)
  display_procedure_iff p q h := by
    rw [display, display, displayWith_procedure, displayWith_procedure, String.append_left_inj,
      String.append_right_inj, procedureName_eq_iff h]
  display_iff v w h hv hw := by
    refine ⟨fun heq => ?_, displayWith_congr s s.displayRecord v w h⟩
    exact (labels_eq_of_displayWith s s.displayRecord v w h hv hw "" ""
      (congrArg (· ++ "") heq)).1
  display_key_eq _ _ h := ⟨display_full_eq h, display_short_eq h⟩

/-- A type of one field. -/
def slotStore : Store := ((declare { name := ⟨"t"⟩, initCount := 1 }).run Store.initial).2

lemma built_slotStore : slotStore.Built := .declare _ .initial nofun

/-- A field without a label is called by its number, in a list as well. -/
theorem printedByLabel_slotStore :
    slotStore.display (.list [.procedure (.fieldAccessor ⟨0⟩ 0 none)]) =
      slotStore.display (.list [.procedure (.fieldAccessor ⟨0⟩ 0 (some ⟨"field0"⟩))]) :=
  (printedByLabel slotStore).display_eq _ _ (by decide) (by decide)

/-- Two accessors of one field are equal, and printed with a label of their own. -/
theorem exists_equal_printed_apart :
    ∃ s : Store, s.Built ∧ ∃ v w : Value, v == w ∧ s.display v = "#<procedure:t-x>" ∧
      s.display w = "#<procedure:t-y>" :=
  ⟨slotStore, built_slotStore, .procedure (.fieldAccessor ⟨0⟩ 0 (some ⟨"x"⟩)),
    .procedure (.fieldAccessor ⟨0⟩ 0 (some ⟨"y"⟩)), by decide, by decide, by decide⟩

end Store

end Records
