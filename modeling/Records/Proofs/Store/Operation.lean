import Records.Registry.Definition
import Mathlib.Order.Defs.Unbundled
import Mathlib.Tactic.Lemma

/-!
# Running operations on a store

What an operation answers and leaves behind, one equation for each operation. The judgement
`StoreM.Ensures R Q` says that an operation moves the store along a relation `R` whatever comes
of it, and that `Q` holds of its answer if there is one.
-/

namespace Records

variable {α β : Type}

/-! ### Results of the operations -/

namespace StoreM

@[simp] lemma run_get (s : Store) : (get : StoreM Store).run s = (.ok s, s) := rfl

/-- An error ends a sequence; otherwise the second part starts where the first one ended. -/
lemma run_bind (m : StoreM α) (f : α → StoreM β) (s : Store) :
    (m >>= f).run s =
      match m.run s with
      | (.ok a, s') => (f a).run s'
      | (.error e, s') => (.error e, s') := by
  show ExceptT.bindCont f (m.run s).1 (m.run s).2 = _
  rcases m.run s with ⟨_ | _, s'⟩ <;> rfl

end StoreM

@[simp] lemma run_modifyType (t : TypeId) (f : RecordType → RecordType) (s : Store) :
    (modifyType t f).run s = (.ok (), { s with types := s.types.modify t.index f }) := rfl

/-- A declaration that can be laid out adds one type; any other leaves the store alone. -/
lemma run_declare (d : Declaration) (s : Store) :
    (declare d).run s =
      match s.layOut d with
      | .ok t => (.ok ⟨s.types.size⟩, { s with types := s.types.push t })
      | .error c => (.error (.condition c), s) := by
  rw [declare, StoreM.run_bind]
  simp only [StoreM.run_get]
  rw [StoreM.run_bind]
  cases s.layOut d <;> rfl

/-- Making an instance asks for one value per field of the whole chain. -/
lemma run_newInstance (t : TypeId) (values : List Value) (s : Store) :
    (newInstance t values).run s =
      if values.length = (s.type t).totalCount then
        (.ok ⟨s.instances.size⟩,
          { s with instances := s.instances.push ⟨t, (values.map Slot.raw).toArray⟩ })
      else
        (.error (.condition (.arityMismatch (s.type t).constructorName.name
          (toString (s.type t).totalCount) values.length)), s) := by
  rw [newInstance, StoreM.run_bind]
  simp only [StoreM.run_get]
  split <;> rfl

/-! ### Guarantees of operations -/

/-- Run from `s`, an operation moves the store along `R`, and `Q` holds of its answer. -/
def StoreM.Ensures (R : Store → Store → Prop) (Q : α → Store → Prop) (m : StoreM α)
    (s : Store) : Prop :=
  R s (m.run s).2 ∧ ∀ a, (m.run s).1 = .ok a → Q a (m.run s).2

namespace StoreM

variable {R : Store → Store → Prop} {Q : α → Store → Prop} {Q' : β → Store → Prop}

lemma ensures_pure [IsPreorder Store R] {a : α} {s : Store} (h : Q a s) :
    (pure a : StoreM α).Ensures R Q s :=
  ⟨refl_of R s, fun _ hb => by cases hb; exact h⟩

lemma ensures_raise [IsPreorder Store R] (c : Condition) (s : Store) :
    (raise c : StoreM α).Ensures R Q s :=
  ⟨refl_of R s, fun _ hb => by cases hb⟩

lemma Ensures.mono {Q₂ : α → Store → Prop} {m : StoreM α} {s : Store} (h : m.Ensures R Q s)
    (hQ : ∀ a s', R s s' → Q a s' → Q₂ a s') : m.Ensures R Q₂ s :=
  ⟨h.1, fun a ha => hQ a _ h.1 (h.2 a ha)⟩

lemma Ensures.bind [IsPreorder Store R] {m : StoreM α} {f : α → StoreM β} {s : Store}
    (h : m.Ensures R Q s) (hf : ∀ a s', R s s' → Q a s' → (f a).Ensures R Q' s') :
    (m >>= f).Ensures R Q' s := by
  obtain ⟨hR, hQ⟩ := h
  rw [StoreM.Ensures, run_bind]
  rcases hm : m.run s with ⟨_ | a, s'⟩ <;> rw [hm] at hR hQ
  · exact ⟨hR, fun b hb => by cases hb⟩
  · obtain ⟨hR', hQ'⟩ := hf a s' hR (hQ a rfl)
    exact ⟨trans_of R hR hR', hQ'⟩

lemma ensures_get [IsPreorder Store R] (s : Store) :
    (get : StoreM Store).Ensures R (fun s₁ s' => s₁ = s ∧ s' = s) s := by
  refine ⟨refl_of R s, ?_⟩
  rintro _ ⟨⟩
  exact ⟨rfl, rfl⟩

/-- Looking at the store first changes nothing. -/
lemma ensures_get_bind {f : Store → StoreM β} {s : Store} (h : (f s).Ensures R Q' s) :
    (get >>= f : StoreM β).Ensures R Q' s := by
  rw [StoreM.Ensures, run_bind]
  exact h

end StoreM

end Records
