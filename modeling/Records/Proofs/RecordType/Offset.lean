import Records.Proofs.RecordType.Chain
import Mathlib.Algebra.GroupWithZero.Nat

/-!
# Where fields are stored

The table of offsets of a type agrees with its chain: the own fields of an ancestor begin at one
position in all its descendants. Unless the fields of the chain are so many that counting them
wraps around, that is behind the fields of all types above it.

## Main definitions

* `Store.Fits`: a word can count the fields of a chain.
* `Store.Exact`: counting the fields of a chain does not wrap around.
* `Store.LaidOut`: how every type is laid out behind its super type.

## Main statements

* `Store.LaidOut.offsets_eq`: the table of offsets.
* `Store.LaidOut.totalCount_eq`: the number of fields of a chain.
* `Store.LaidOut.ownBase_eq`: the number of fields above a type.
-/

namespace Records

/-- The fields of some types. -/
def fieldCount (types : List RecordType) : Nat :=
  (types.map fun t => t.initCount + t.autoCount).sum

@[simp] lemma fieldCount_cons (t : RecordType) (types : List RecordType) :
    fieldCount (t :: types) = t.initCount + t.autoCount + fieldCount types := by
  simp [fieldCount]

lemma fieldCount_append (types types' : List RecordType) :
    fieldCount (types ++ types') = fieldCount types + fieldCount types' := by
  simp [fieldCount]

namespace Store

variable {s s' : Store} {t u : TypeId} {below above : List TypeId}

/-! ### Counting -/

/-- A word can count the fields of a chain. -/
def Fits (s : Store) (t : TypeId) : Prop := fieldCount (s.chain t) < UInt64.size

instance (s : Store) (t : TypeId) : Decidable (s.Fits t) := inferInstanceAs (Decidable (_ < _))

/-- The fields of a type are counted as they are, and so are those of its ancestors. -/
def Exact (s : Store) (t : TypeId) : Prop :=
  ∀ u ∈ s.ancestry t, (s.type u).count (fieldCount (s.chain u)) = fieldCount (s.chain u)

lemma Ordered.fieldCount_chain_le (hs : s.Ordered) (hu : u ∈ s.ancestry t) :
    fieldCount (s.chain u) ≤ fieldCount (s.chain t) := by
  obtain ⟨below, above, heq⟩ := List.append_of_mem hu
  rw [chain, chain, hs.ancestry_of_eq_append heq, heq, List.map_append, fieldCount_append]
  exact Nat.le_add_left _ _

/-- The number of fields of a chain depends on the layouts of its types alone. -/
lemma Ordered.fits_iff (hs : s.Ordered)
    (h : ∀ u : TypeId, u.index ≤ t.index → (s'.type u).layout = (s.type u).layout) :
    s'.Fits t ↔ s.Fits t := by
  have hanc : s'.ancestry t = s.ancestry t := hs.ancestry_congr fun u hu =>
    RecordType.eq_of_layout (·.superType) (fun _ => rfl) (h u hu)
  have hcount : fieldCount (s'.chain t) = fieldCount (s.chain t) := by
    rw [fieldCount, fieldCount, chain, chain, hanc, List.map_map, List.map_map]
    refine congrArg List.sum (List.map_congr_left fun u hu => ?_)
    exact RecordType.eq_of_layout (fun t => t.initCount + t.autoCount) (fun _ => rfl)
      (h u (hs.le_of_mem_ancestry hu))
  rw [Fits, Fits, hcount]

lemma Fits.toExact (h : s.Fits t) (hs : s.Ordered) : s.Exact t := fun u hu =>
  (s.type u).inspector.count_eq_of_lt (Nat.lt_of_le_of_lt (hs.fieldCount_chain_le hu) h)

/-- The fields of prefab types are always counted as they are. -/
lemma exact_of_isPrefab (h : ∀ u ∈ s.ancestry t, (s.type u).isPrefab) : s.Exact t :=
  fun u hu => RecordType.count_of_isPrefab (h u hu) _

namespace Exact

lemma of_mem_ancestry (h : s.Exact t) (hs : s.Ordered) (hu : u ∈ s.ancestry t) : s.Exact u := by
  obtain ⟨below, above, heq⟩ := List.append_of_mem hu
  intro v hv
  rw [hs.ancestry_of_eq_append heq] at hv
  exact h v (heq ▸ List.mem_append_right below hv)

lemma superType (h : s.Exact t) (hs : s.Ordered) (hu : (s.type t).superType = some u) :
    s.Exact u := by
  refine h.of_mem_ancestry hs ?_
  rw [hs.ancestry_eq, hu]
  exact List.mem_cons_of_mem t (s.mem_ancestry_self u)

/-- No part of the fields of a chain wraps around. -/
lemma count_eq (h : s.Exact t) {n : Nat} (hn : n ≤ fieldCount (s.chain t)) :
    (s.type t).count n = n :=
  Inspector.count_eq_of_le (h t (s.mem_ancestry_self t)) hn

lemma ownCount (h : s.Exact t) (hs : s.Ordered) :
    (s.type t).ownCount = (s.type t).initCount + (s.type t).autoCount := by
  refine h.count_eq ?_
  rw [chain, hs.ancestry_eq, List.map_cons, fieldCount_cons]
  exact Nat.le_add_right _ _

end Exact

/-! ### Layouts -/

lemma inheritedCount_congr {super : Option TypeId}
    (h : ∀ u, super = some u → (s'.type u).layout = (s.type u).layout) :
    s'.inheritedCount super = s.inheritedCount super := by
  cases super with
  | none => rfl
  | some u => exact RecordType.eq_of_layout (·.totalCount) (fun _ => rfl) (h u rfl)

/-- Each type has its fields behind those of its super type. -/
structure LaidOut (s : Store) : Prop where
  ordered : s.Ordered
  totalCount : ∀ t : TypeId, (s.type t).totalCount =
    (s.type t).count (s.inheritedCount (s.type t).superType +
      ((s.type t).initCount + (s.type t).autoCount))
  offsets : ∀ t : TypeId, t.index < s.types.size → (s.type t).offsets =
    (t, (s.type t).count (s.inheritedCount (s.type t).superType)) ::
      s.inheritedOffsets (s.type t).superType

namespace LaidOut

lemma ownBase (hs : s.LaidOut) (t : TypeId) :
    (s.type t).ownBase = (s.type t).count (s.inheritedCount (s.type t).superType) := by
  rw [RecordType.ownBase, hs.totalCount]
  exact Inspector.countWithout_count_add _ _ _

lemma offsets_eq (hs : s.LaidOut) (ht : t.index < s.types.size) :
    (s.type t).offsets = (s.ancestry t).map fun a => (a, (s.type a).ownBase) := by
  rw [hs.offsets t ht, hs.ordered.ancestry_eq, List.map_cons, hs.ownBase]
  cases hsuper : (s.type t).superType with
  | none => rfl
  | some u => rfl

lemma totalCount_eq (hs : s.LaidOut) (h : s.Exact t) :
    (s.type t).totalCount = fieldCount (s.chain t) := by
  revert h
  refine hs.ordered.induction_on
    (P := fun t => s.Exact t → (s.type t).totalCount = fieldCount (s.chain t)) t fun t ih h => ?_
  rw [← h t (s.mem_ancestry_self t), hs.totalCount]
  congr 1
  rw [chain, hs.ordered.ancestry_eq, List.map_cons, fieldCount_cons, Nat.add_comm]
  congr 1
  cases hsuper : (s.type t).superType with
  | none => rfl
  | some u => exact ih u hsuper (h.superType hs.ordered hsuper)

/-- A type has the fields of its ancestors. -/
lemma totalCount_le (hs : s.LaidOut) (h : s.Exact t) (hu : u ∈ s.ancestry t) :
    (s.type u).totalCount ≤ (s.type t).totalCount := by
  rw [hs.totalCount_eq h, hs.totalCount_eq (h.of_mem_ancestry hs.ordered hu)]
  exact hs.ordered.fieldCount_chain_le hu

/-- The own fields of a type are behind all fields above it. -/
lemma ownBase_eq (hs : s.LaidOut) (h : s.Exact t) (hanc : s.ancestry t = t :: above) :
    (s.type t).ownBase = fieldCount (above.map s.type) := by
  have hinherited : s.inheritedCount (s.type t).superType = fieldCount (above.map s.type) := by
    have hchain := hanc
    rw [hs.ordered.ancestry_eq] at hchain
    cases hsuper : (s.type t).superType with
    | none =>
      rw [hsuper] at hchain
      cases hchain
      rfl
    | some v =>
      rw [hsuper] at hchain
      cases hchain
      exact hs.totalCount_eq (h.superType hs.ordered hsuper)
  rw [hs.ownBase, hinherited]
  refine h.count_eq ?_
  rw [chain, hanc, List.map_cons, fieldCount_cons]
  exact Nat.le_add_left _ _

end LaidOut

end Store

end Records
