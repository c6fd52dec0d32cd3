import Records.Proofs.Attachment.Reading

/-!
# Bindings of different properties

A definition binds a property once. Bindings that several definitions have made may bind one
property again and again; the first of them is the one that counts.

## Main statements

* `answers_attachAll`: no property is attached twice.
* `distinct_flatten_iff`: when layers of bindings bind no property twice.
-/

namespace Records

/-- No property is bound twice. -/
def Distinct (bindings : List (PropertyId × Value)) : Prop := (bindings.map (·.1)).Nodup

/-- No property is bound by both. -/
def Apart (bindings bindings' : List (PropertyId × Value)) : Prop :=
  ∀ b ∈ bindings, ∀ b' ∈ bindings', b.1 ≠ b'.1

/-! ### Layers -/

lemma distinct_append_iff (bindings inherited : List (PropertyId × Value)) :
    Distinct (bindings ++ inherited) ↔
      Distinct bindings ∧ Distinct inherited ∧ Apart bindings inherited := by
  simp only [Distinct, Apart, List.map_append, List.nodup_append, List.forall_mem_map]

/-- Layers without a property that is bound twice share none exactly if there is none bound twice
in all of them together. -/
lemma distinct_flatten_iff {layers : List (List (PropertyId × Value))}
    (h : ∀ l ∈ layers, Distinct l) : Distinct layers.flatten ↔ layers.Pairwise Apart := by
  induction layers with
  | nil => simp [Distinct]
  | cons l rest ih =>
    obtain ⟨hl, hrest⟩ := List.forall_mem_cons.1 h
    have hapart : Apart l rest.flatten ↔ ∀ l' ∈ rest, Apart l l' := by
      simp only [Apart, List.mem_flatten]
      constructor
      · intro hall l' hl' b hb b' hb'
        exact hall b hb b' ⟨l', hl', hb'⟩
      · rintro hall b hb b' ⟨l', hl', hb'⟩
        exact hall l' hl' b hb b' hb'
    rw [List.flatten_cons, distinct_append_iff, ih hrest, List.pairwise_cons, hapart]
    constructor
    · rintro ⟨-, hpairwise, hshare⟩
      exact ⟨hshare, hpairwise⟩
    · rintro ⟨hshare, hpairwise⟩
      exact ⟨hl, hpairwise, hshare⟩

/-! ### Attachment -/

/-- A property that is bound already is not bound again. -/
lemma Store.distinct_bindProperty {s : Store} {t : TypeId} {a a' : Attached} {p : PropertyId}
    {v : Value} (h : s.bindProperty t a p v = .ok a') (ha : Distinct a.bindings) :
    Distinct a'.bindings := by
  rcases bindProperty_eq_ok h with rfl | ⟨hp, hbindings, -⟩
  · exact ha
  · rw [hbindings, distinct_append_iff]
    refine ⟨ha, by simp [Distinct], ?_⟩
    intro b hb b' hb'
    rw [List.mem_singleton.1 hb']
    exact bindingOf_eq_none_iff.1 hp b hb

lemma answers_attachEntry (t : TypeId) {a : Attached} (e : Entry) (ha : Distinct a.bindings) :
    (attachEntry t a e).Answers fun a => Distinct a.bindings := by
  refine (Computation.Answers.trivial _).bind fun v _ => ?_
  refine (Computation.Answers.trivial _).bind fun v _ s => ?_
  show (Computation.ofStoreM (monadLift (s.bindProperty t a e.property v) : StoreM _)).Answers _
  cases hb : s.bindProperty t a e.property v with
  | error c => exact fun _ => True.intro
  | ok a' => exact fun _ => Store.distinct_bindProperty hb ha

lemma answers_attachEntries (t : TypeId) (entries : List Entry) {a : Attached}
    (ha : Distinct a.bindings) :
    (attachEntries t entries a).Answers fun a => Distinct a.bindings := by
  induction entries generalizing a with
  | nil => exact ha
  | cons e rest ih => exact (answers_attachEntry t e ha).bind fun a ha => ih ha

/-- Whatever guards and derivations answer, no property is attached twice. -/
lemma answers_attachAll (t : TypeId) (declared : List (PropertyId × Value))
    (procedure : Option Value) :
    (attachAll t declared procedure).Answers fun a => Distinct a.bindings := by
  refine (Computation.Answers.trivial _).bind fun s _ => ?_
  refine (Computation.Answers.trivial _).bind fun _ _ => ?_
  exact answers_attachEntries t _ List.nodup_nil

end Records
