import Records.Proofs.Registry.Guarantee

/-!
# Adding pending types

Looking up keys and types, making literals and preparing a definition may add types to a store.
All types that they add are pending, and no other type changes.

## Main statements

* `addsPending_prefabInstance`, `addsPending_prefabTypeOfDatum`: look-ups and literals.
* `addsPending_prepare`: the plan of a definition.
-/

namespace Records

lemma RecordType.isFinalized_of_procedure? {type : RecordType} {b : ProcedureBinding}
    (h : type.procedure? = some b) : type.isFinalized := by
  cases hr : type.resolution with
  | none =>
    rw [procedure?, hr] at h
    cases h
  | some resolution =>
    rw [isFinalized, hr]
    rfl

/-! ### Adding pending types -/

/-- A later state of a store in which types were added, all of them pending. -/
structure Store.AddsPending (s s' : Store) : Prop where
  enlarges : s.Enlarges s'
  pending : ∀ t : TypeId, s.types.size ≤ t.index → (s'.type t).resolution = none

namespace Store

variable {s s' s'' : Store} {t : TypeId} {r : RegistryId}

lemma lt_of_isFinalized (h : (s.type t).isFinalized) : t.index < s.types.size := by
  rcases Nat.lt_or_ge t.index s.types.size with hlt | hge
  · exact hlt
  · rw [type_of_size_le hge] at h
    cases h

lemma resolution_of_types_eq (h : s.types = #[]) (t : TypeId) : (s.type t).resolution = none := by
  rw [type_of_size_le (by simp [h])]
  rfl

namespace AddsPending

instance : IsPreorder Store AddsPending where
  refl s := ⟨Enlarges.refl s, fun t ht => by rw [type_of_size_le ht]; rfl⟩
  trans s s' s'' h h' := by
    refine ⟨h.enlarges.trans h'.enlarges, fun t ht => ?_⟩
    rcases Nat.lt_or_ge t.index s'.types.size with hlt | hge
    · rw [h'.enlarges.type t hlt]
      exact h.pending t ht
    · exact h'.pending t hge

lemma of_types_eq (h : s'.types = s.types) : s.AddsPending s' := by
  refine ⟨Enlarges.of_types_eq h, fun t ht => ?_⟩
  rw [← h] at ht
  rw [type_of_size_le ht]
  rfl

/-- Resolutions stay the same, those of types that are not there included. -/
lemma resolution_eq (h : s.AddsPending s') (t : TypeId) :
    (s'.type t).resolution = (s.type t).resolution := by
  rcases Nat.lt_or_ge t.index s.types.size with hlt | hge
  · rw [h.enlarges.type t hlt]
  · rw [h.pending t hge, type_of_size_le hge]
    rfl

lemma properties_eq (h : s.AddsPending s') (t : TypeId) :
    (s'.type t).properties = (s.type t).properties := by
  rw [RecordType.properties, h.resolution_eq, RecordType.properties]

end AddsPending

end Store

/-! ### Operations that add pending types -/

/-- An operation adds pending types at most. -/
abbrev StoreM.AddsPending {α : Type} (m : StoreM α) : Prop := m.Along Store.AddsPending

lemma permits_addsPending : Store.Permits Store.AddsPending where
  catalog _ _ _ _ := .of_types_eq rfl
  type s d type hl := by
    refine ⟨Store.Enlarges.push_type s type, fun t ht => ?_⟩
    obtain ⟨-, -, rfl⟩ := Store.layOut_eq_ok_iff.1 hl
    rw [Store.type_push]
    split
    · rfl
    · rw [Store.type_of_size_le ht]
      rfl
  record _ _ := .of_types_eq rfl

lemma addsPending_keyOfType (r : RegistryId) (t : TypeId) : (keyOfType r t).AddsPending :=
  along_keyOfType permits_addsPending r t

lemma addsPending_keyOfDeclaration (r : RegistryId) (d : Declaration) :
    (keyOfDeclaration r d).AddsPending :=
  along_keyOfDeclaration permits_addsPending r d

lemma addsPending_keyOfDatum (r : RegistryId) (datum : Value) (total : Nat) :
    (keyOfDatum r datum total).AddsPending :=
  along_keyOfDatum permits_addsPending r datum total

lemma addsPending_prefabType (r : RegistryId) (k : PrefabKey) : (prefabType r k).AddsPending :=
  along_prefabType permits_addsPending r k

lemma addsPending_prefabTypeOfDatum (r : RegistryId) (datum : Value) (total : Nat) :
    (prefabTypeOfDatum r datum total).AddsPending :=
  along_prefabTypeOfDatum permits_addsPending r datum total

lemma addsPending_prefabInstance (r : RegistryId) (datum : Value) (values : List Value) :
    (prefabInstance r datum values).AddsPending :=
  along_prefabInstance permits_addsPending r datum values

/-- Making a plan adds pending types at most. -/
lemma addsPending_prepare (r : RegistryId) (d : Declaration) :
    (prepare r d).advance.AddsPending :=
  fun s => ⟨(ensures_prepare permits_addsPending r d s).advance, fun _ _ => trivial⟩

end Records
