import Records.Proofs.Store.Operation

/-!
# Evolution of a store

What a store never takes back. Types are added behind the types there are; the layout of a type
is fixed when the type is added, and nothing about it changes any more once its properties are
resolved.

## Main statements

* `Store.Enlarges.push_type`: adding a type changes none of the others.
* `Store.Evolves.publish`: resolving a type keeps the layouts and the resolved types.
-/

namespace Records

/-! ### Layouts -/

/-- What is fixed of a type from the start: everything but the resolution of its properties. -/
def RecordType.layout (t : RecordType) : RecordType := { t with resolution := none }

@[simp] lemma RecordType.layout_publish (t : RecordType) (r : Resolution) :
    (t.publish r).layout = t.layout := by
  unfold publish
  split <;> rfl

/-- Types of one layout agree in all that does not depend on the resolution. -/
lemma RecordType.eq_of_layout {α : Type} {t u : RecordType} (f : RecordType → α)
    (hf : ∀ t, f t.layout = f t) (h : t.layout = u.layout) : f t = f u := by
  rw [← hf t, h, hf]

namespace Store

/-! ### Look-up after a change -/

/-- An identity that no type has denotes a pending type without super type. -/
lemma type_of_size_le {s : Store} {t : TypeId} (h : s.types.size ≤ t.index) :
    s.type t = default := by
  simp [type, Array.getD_eq_getD_getElem?, Array.getElem?_eq_none h]

lemma type_push (s : Store) (t : RecordType) (id : TypeId) :
    ({ s with types := s.types.push t } : Store).type id =
      if id.index = s.types.size then t else s.type id := by
  simp only [type, Array.getD_eq_getD_getElem?, Array.getElem?_push]
  split <;> rfl

lemma type_push_of_lt {s : Store} {t : RecordType} {id : TypeId}
    (h : id.index < s.types.size) :
    ({ s with types := s.types.push t } : Store).type id = s.type id := by
  rw [type_push, if_neg (Nat.ne_of_lt h)]

@[simp] lemma type_push_self (s : Store) (t : RecordType) :
    ({ s with types := s.types.push t } : Store).type ⟨s.types.size⟩ = t := by
  rw [type_push, if_pos rfl]

/-- The store with the properties of a type resolved. -/
def publish (s : Store) (t : TypeId) (r : Resolution) : Store :=
  { s with types := s.types.modify t.index (·.publish r) }

lemma run_publish (t : TypeId) (r : Resolution) (s : Store) :
    (modifyType t (·.publish r)).run s = (.ok (), s.publish t r) := rfl

lemma type_publish (s : Store) (t id : TypeId) (r : Resolution) :
    (s.publish t r).type id =
      if t = id ∧ t.index < s.types.size then (s.type id).publish r else s.type id := by
  have ht : t = id ↔ t.index = id.index := by
    cases t
    cases id
    simp
  simp only [publish, type, Array.getD_eq_getD_getElem?, Array.getElem?_modify, ht]
  by_cases h : t.index = id.index
  · by_cases hlt : t.index < s.types.size
    · rw [h] at hlt
      simp [h, hlt]
    · rw [h] at hlt
      simp [h, hlt]
  · simp [h]

lemma type_publish_self {s : Store} {t : TypeId} (h : t.index < s.types.size)
    (r : Resolution) : (s.publish t r).type t = (s.type t).publish r := by
  rw [type_publish, if_pos ⟨rfl, h⟩]

lemma type_publish_of_ne {s : Store} {t id : TypeId} (h : t ≠ id) (r : Resolution) :
    (s.publish t r).type id = s.type id := by
  rw [type_publish, if_neg fun hc => h hc.1]

lemma layout_publish (s : Store) (t id : TypeId) (r : Resolution) :
    ((s.publish t r).type id).layout = (s.type id).layout := by
  rw [type_publish]
  split
  · rw [RecordType.layout_publish]
  · rfl

/-! ### Adding types -/

/-- A later state of a store in which no type has changed. -/
structure Enlarges (s s' : Store) : Prop where
  size : s.types.size ≤ s'.types.size
  type : ∀ t : TypeId, t.index < s.types.size → s'.type t = s.type t

namespace Enlarges

variable {s s' s'' : Store}

lemma refl (s : Store) : s.Enlarges s := ⟨Nat.le_refl _, fun _ _ => rfl⟩

lemma trans (h : s.Enlarges s') (h' : s'.Enlarges s'') : s.Enlarges s'' where
  size := Nat.le_trans h.size h'.size
  type t ht := by rw [h'.type t (Nat.lt_of_lt_of_le ht h.size), h.type t ht]

lemma of_types_eq (h : s'.types = s.types) : s.Enlarges s' :=
  ⟨Nat.le_of_eq (by rw [h]), fun t _ => by rw [Store.type, h, Store.type]⟩

lemma push_type (s : Store) (t : RecordType) :
    s.Enlarges { s with types := s.types.push t } :=
  ⟨by simp, fun _ ht => type_push_of_lt ht⟩

end Enlarges

/-! ### Resolving types -/

/-- A later state of a store. -/
structure Evolves (s s' : Store) : Prop where
  size : s.types.size ≤ s'.types.size
  layout : ∀ t : TypeId, t.index < s.types.size → (s'.type t).layout = (s.type t).layout
  finalized : ∀ t : TypeId, t.index < s.types.size → (s.type t).isFinalized →
    s'.type t = s.type t

lemma Enlarges.evolves {s s' : Store} (h : s.Enlarges s') : s.Evolves s' where
  size := h.size
  layout t ht := by rw [h.type t ht]
  finalized t ht _ := h.type t ht

namespace Evolves

variable {s s' s'' : Store} {t : TypeId}

lemma refl (s : Store) : s.Evolves s := (Enlarges.refl s).evolves

lemma trans (h : s.Evolves s') (h' : s'.Evolves s'') : s.Evolves s'' where
  size := Nat.le_trans h.size h'.size
  layout t ht := by
    rw [h'.layout t (Nat.lt_of_lt_of_le ht h.size), h.layout t ht]
  finalized t ht hfinal := by
    have ht' := Nat.lt_of_lt_of_le ht h.size
    rw [h'.finalized t ht' (by rw [h.finalized t ht hfinal]; exact hfinal),
      h.finalized t ht hfinal]

instance : IsPreorder Store Evolves where
  refl := Evolves.refl
  trans _ _ _ := Evolves.trans

lemma lt (h : s.Evolves s') (ht : t.index < s.types.size) : t.index < s'.types.size :=
  Nat.lt_of_lt_of_le ht h.size

lemma publish (s : Store) (t : TypeId) (r : Resolution) : s.Evolves (s.publish t r) where
  size := by simp [Store.publish]
  layout id _ := layout_publish s t id r
  finalized id _ hfinal := by
    rw [type_publish]
    split
    · rw [RecordType.publish_of_finalized hfinal]
    · rfl

end Evolves

end Store

end Records
