import Records.Proofs.Application.Reaches
import Records.Proofs.Instance.Slots
import Records.Proofs.Registry.Pending

/-!
# Instances that persist

An instance that was made is there for good, and stays an instance of its exact type. So what can
be applied can be applied ever after.

## Main definitions

* `Store.Persists`: a later store in which instances are of the types they were made of.
* `Store.Has`: a value that is no record, or one that is there.

## Main statements

* `Store.Persists.of_reaches`: instances persist, whatever is applied to whatever.
* `Store.Persists.isCallable`: what can be applied can be applied later on.
-/

namespace Records

namespace Store

variable {s s' s'' : Store} {i : InstanceId} {t : TypeId} {v : Value}

/-- A later state of a store, in which the instances that were there are still of the types they
were made of. -/
structure Persists (s s' : Store) : Prop where
  evolves : s.Evolves s'
  size : s.instances.size ≤ s'.instances.size
  type : ∀ i : InstanceId, i.index < s.instances.size → (s'.record i).type = (s.record i).type

/-- A value is no record, or one that is there. -/
def Has (s : Store) (v : Value) : Prop := ∀ i, v.record? = some i → i.index < s.instances.size

namespace Persists

instance : IsPreorder Store Persists where
  refl s := ⟨.refl s, Nat.le_refl _, fun _ _ => rfl⟩
  trans s s' s'' h h' := by
    refine ⟨h.evolves.trans h'.evolves, Nat.le_trans h.size h'.size, fun i hi => ?_⟩
    rw [h'.type i (Nat.lt_of_lt_of_le hi h.size), h.type i hi]

/-- Instances persist as long as they are left alone. -/
lemma of_instances_eq (he : s.Evolves s') (hi : s'.instances = s.instances) : s.Persists s' where
  evolves := he
  size := Nat.le_of_eq (by rw [hi])
  type i _ := by rw [record, hi, record]

lemma of_types_eq (ht : s'.types = s.types) (hi : s'.instances = s.instances) :
    s.Persists s' := of_instances_eq (Enlarges.of_types_eq ht).evolves hi

/-- Making an instance changes none of the others. -/
lemma push (s : Store) (new : Instance) :
    s.Persists { s with instances := s.instances.push new } where
  evolves := Enlarges.evolves (Enlarges.of_types_eq rfl)
  size := by simp
  type i hi := by
    simp [record, Array.getD_eq_getD_getElem?, Array.getElem?_push, Nat.ne_of_lt hi]

lemma publish (s : Store) (t : TypeId) (r : Resolution) : s.Persists (s.publish t r) :=
  of_instances_eq (.publish s t r) rfl

lemma written (s : Store) (i : InstanceId) (index : Nat) (w : Value) :
    s.Persists (s.written i index w) where
  evolves := Enlarges.evolves (Enlarges.of_types_eq (by rw [refills_written s i index w]))
  size := Nat.le_of_eq (size_written s i index w).symm
  type j _ := type_written s i j index w

lemma mutate (t : TypeId) (target : Value) (field : Nat) (w : Value) (s : Store) :
    s.Persists ((Records.mutate t target field w).run s).2 := by
  rw [run_mutate]
  cases target.record? with
  | none => exact refl_of Persists s
  | some i =>
    show Persists s (if (s.type t).isImmutable field then _ else _ : _ × Store).2
    split
    · exact refl_of Persists s
    · rw [run_writeField]
      cases s.locate i t field with
      | error e => exact refl_of Persists s
      | ok index => exact written s i index w

/-- Instances persist in an application if they do in that which a procedure of the host does by
itself. -/
lemma appliesAlong {nested : Value → List Value → StoreM (List Value)}
    (h : ∀ v args, (nested v args).Along Persists) : AppliesAlong Persists nested where
  counted s natives := of_types_eq rfl rfl
  nested := h
  made t values s := by
    refine ⟨?_, fun _ _ => trivial⟩
    rw [run_newInstance]
    split
    · exact push s _
    · exact refl_of Persists s
  mutated t v field new s := ⟨mutate t v field new s, fun _ _ => trivial⟩

/-- Whatever is applied to whatever, instances persist. -/
theorem of_reaches (h : s.Reaches s') : s.Persists s' :=
  h.along (fun _ => appliesAlong) fun _ _ _ => of_instances_eq

/-! ### Values -/

lemma has (h : s.Persists s') (hv : s.Has v) : s'.Has v :=
  fun i hi => Nat.lt_of_lt_of_le (hv i hi) h.size

/-- The type of an instance stays as it is once it is finalized. -/
lemma typeOf_eq (h : s.Persists s') (hi : i.index < s.instances.size)
    (hfinal : (s.typeOf i).isFinalized) : s'.typeOf i = s.typeOf i := by
  rw [typeOf, h.type i hi]
  exact h.evolves.finalized _ (lt_of_isFinalized hfinal) hfinal

/-- What can be applied can be applied later on. -/
lemma isCallable (h : s.Persists s') (hv : s.Has v) (hcallable : s.isCallable v) :
    s'.isCallable v := by
  cases v
  case procedure p => rfl
  case record i =>
    obtain ⟨b, hb⟩ := Option.isSome_iff_exists.1 hcallable
    have htype := h.typeOf_eq (hv i rfl) (RecordType.isFinalized_of_procedure? hb)
    show (s'.typeOf i).procedure?.isSome
    rw [htype, hb]
    rfl
  all_goals cases hcallable

end Persists

end Store

lemma permits_persists : Store.Permits Store.Persists where
  catalog _ _ _ _ := .of_types_eq rfl rfl
  type s _ type _ := .of_instances_eq (Store.Enlarges.push_type s type).evolves rfl
  record s i := .push s i

end Records
