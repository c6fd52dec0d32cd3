import Records.Proofs.RecordType.Partition
import Mathlib.Data.List.Basic

/-!
# The way to the root

In an instance the own fields of a super type are in front of those of the type itself, and next
to them, as long as a word can count the fields of the chain. A super type therefore begins earlier
than its subtype if it has fields of its own, and at the same place if it has none.

## Main definitions

* `Store.Descending`: how the offsets of a chain go down to the root.

## Main statements

* `Store.Built.descending`: the offsets of every chain whose fields can be counted.
-/

namespace Records

namespace Store

variable {s : Store} {t u d : TypeId}

/-- With a type a chain has its super type. -/
lemma Ordered.superType_mem_ancestry (hs : s.Ordered) (ht : t ∈ s.ancestry d)
    (hu : (s.type t).superType = some u) : u ∈ s.ancestry d := by
  obtain ⟨below, above, heq⟩ := List.append_of_mem ht
  have htail := hs.ancestry_of_eq_append heq
  rw [hs.ancestry_eq, hu] at htail
  rw [heq, ← (List.cons.inj htail).2]
  exact List.mem_append_right below (List.mem_cons_of_mem t (s.mem_ancestry_self u))

namespace LaidOut

/-- A type begins behind the own fields of its super type. -/
lemma ownBase_eq_add (hs : s.LaidOut) (h : s.Exact t) (hu : (s.type t).superType = some u) :
    (s.type t).ownBase = (s.type u).ownBase + (s.type u).ownCount := by
  have hsuper := h.superType hs.ordered hu
  have hanc := hs.ordered.ancestry_eq u
  rw [hs.ownBase_eq h (hs.ordered.ancestry_eq t), hu, Option.elim_some, hanc, List.map_cons,
    fieldCount_cons, hs.ownBase_eq hsuper hanc, hsuper.ownCount hs.ordered, Nat.add_comm]

/-- An ancestor does not begin later than a type. -/
lemma ownBase_le_of_mem_ancestry (hs : s.LaidOut) (h : s.Exact d) (hu : u ∈ s.ancestry d) :
    (s.type u).ownBase ≤ (s.type d).ownBase := by
  revert h hu
  refine hs.ordered.induction_on
    (P := fun d => s.Exact d → u ∈ s.ancestry d → (s.type u).ownBase ≤ (s.type d).ownBase) d
    fun d ih h hu => ?_
  rw [hs.ordered.ancestry_eq] at hu
  rcases List.mem_cons.1 hu with rfl | hu
  · exact Nat.le_refl _
  · cases hsuper : (s.type d).superType with
    | none =>
      rw [hsuper] at hu
      cases hu
    | some v =>
      rw [hsuper] at hu
      rw [hs.ownBase_eq_add h hsuper]
      exact Nat.le_trans (ih v hsuper (h.superType hs.ordered hsuper) hu) (Nat.le_add_right _ _)

/-- The table of offsets lists the first own fields of the chain. -/
lemma filterMap_offsetOf? (hs : s.LaidOut) (hd : d.index < s.types.size) :
    (s.ancestry d).filterMap (s.type d).offsetOf? =
      (s.ancestry d).map fun a => (s.type a).ownBase :=
  List.filterMap_eq_map_iff_forall_eq_some.2 fun _ ha => hs.offsetOf?_of_mem hd ha

/-- Up the chain no type begins later than one before it. -/
lemma pairwise_ownBase (hs : s.LaidOut) (h : s.Exact d) :
    ((s.ancestry d).map fun a => (s.type a).ownBase).Pairwise (· ≥ ·) := by
  revert h
  refine hs.ordered.induction_on
    (P := fun d => s.Exact d →
      ((s.ancestry d).map fun a => (s.type a).ownBase).Pairwise (· ≥ ·)) d fun d ih h => ?_
  have hle : ∀ a ∈ s.ancestry d, (s.type a).ownBase ≤ (s.type d).ownBase :=
    fun a ha => hs.ownBase_le_of_mem_ancestry h ha
  rw [hs.ordered.ancestry_eq] at hle ⊢
  rw [List.map_cons, List.pairwise_cons]
  refine ⟨fun base hbase => ?_, ?_⟩
  · obtain ⟨a, ha, rfl⟩ := List.mem_map.1 hbase
    exact hle a (List.mem_cons_of_mem d ha)
  · cases hsuper : (s.type d).superType with
    | none => exact List.Pairwise.nil
    | some v => exact ih v hsuper (h.superType hs.ordered hsuper)

/-- Up the chain every type begins earlier than those before it exactly when no ancestor is
without fields of its own. -/
lemma pairwise_ownBase_iff (hs : s.LaidOut) (h : s.Exact d) :
    ((s.ancestry d).map fun a => (s.type a).ownBase).Pairwise (· > ·) ↔
      ∀ a ∈ (s.ancestry d).tail, 0 < (s.type a).ownCount := by
  revert h
  refine hs.ordered.induction_on
    (P := fun d => s.Exact d →
      (((s.ancestry d).map fun a => (s.type a).ownBase).Pairwise (· > ·) ↔
        ∀ a ∈ (s.ancestry d).tail, 0 < (s.type a).ownCount)) d fun d ih h => ?_
  rw [hs.ordered.ancestry_eq d, List.map_cons, List.pairwise_cons, List.tail_cons]
  cases hsuper : (s.type d).superType with
  | none => simp
  | some v =>
    have hbase := hs.ownBase_eq_add h hsuper
    have hexact := h.superType hs.ordered hsuper
    have hfirst : s.ancestry v = v :: (s.ancestry v).tail := by
      rw [hs.ordered.ancestry_eq v, List.tail_cons]
    -- the whole chain of `v` begins below `d` exactly when `v` itself does
    have hbelow : (∀ base ∈ (s.ancestry v).map fun a => (s.type a).ownBase,
        (s.type d).ownBase > base) ↔ 0 < (s.type v).ownCount := by
      constructor
      · intro h
        have hv := h _ (List.mem_map_of_mem (s.mem_ancestry_self v))
        omega
      · intro hpos base hmem
        obtain ⟨a, ha, rfl⟩ := List.mem_map.1 hmem
        have hle := hs.ownBase_le_of_mem_ancestry hexact ha
        show (s.type a).ownBase < (s.type d).ownBase
        omega
    rw [Option.elim_some, hbelow, ih v hsuper hexact, hfirst, List.tail_cons, List.forall_mem_cons]

end LaidOut

/-- The offsets of the types of a chain, in the instances of its lowest type. -/
structure Descending (s : Store) (d : TypeId) : Prop where
  /-- A super type has its own fields right in front of those of its subtype, so that its offset
  is the lower one if it owns a field. -/
  step : ∀ t ∈ s.ancestry d, ∀ u, (s.type t).superType = some u → ∃ upper lower,
    (s.type d).offsetOf? u = some upper ∧ (s.type d).offsetOf? t = some lower ∧
      lower = upper + (s.type u).ownCount ∧ (upper < lower ↔ 0 < (s.type u).ownCount)
  /-- On the way to the root no offset increases. -/
  antitone : ((s.ancestry d).filterMap (s.type d).offsetOf?).Pairwise (· ≥ ·)
  /-- On the way to the root every offset decreases if all super types own a field. -/
  strict_iff : ((s.ancestry d).filterMap (s.type d).offsetOf?).Pairwise (· > ·) ↔
    ∀ a ∈ (s.ancestry d).tail, 0 < (s.type a).ownCount

/-- On the way to the root, the own fields of every super type are what an offset goes down by, as
long as a word can count the fields of the chain. -/
theorem Built.descending (hs : s.Built) (hd : d.index < s.types.size) (hfits : s.Fits d) :
    s.Descending d := by
  have hl := hs.laidOut
  have hexact := hfits.toExact hl.ordered
  refine ⟨?_, ?_, ?_⟩
  · intro t ht u hu
    have hmem : u ∈ s.ancestry d := hl.ordered.superType_mem_ancestry ht hu
    have hbase := hl.ownBase_eq_add (hexact.of_mem_ancestry hl.ordered ht) hu
    refine ⟨_, _, hl.offsetOf?_of_mem hd hmem, hl.offsetOf?_of_mem hd ht, hbase, ?_⟩
    rw [hbase]
    omega
  · rw [hl.filterMap_offsetOf? hd]
    exact hl.pairwise_ownBase hexact
  · rw [hl.filterMap_offsetOf? hd]
    exact hl.pairwise_ownBase_iff hexact

/-- The super type in the middle has no fields of its own, so the way to the root is not strict. -/
theorem Built.descending_sparseChain :
    sparseChain.Descending ⟨2⟩ ∧
      ¬((sparseChain.ancestry ⟨2⟩).filterMap (sparseChain.type ⟨2⟩).offsetOf?).Pairwise (· > ·) :=
  ⟨built_sparseChain.descending (by decide) (by decide), by decide⟩

/-- A super type without fields of its own begins where its subtype does. -/
theorem not_forall_offset_lt :
    ¬∀ (s : Store) (d t u : TypeId), s.Built → d.index < s.types.size → t ∈ s.ancestry d →
      (s.type t).superType = some u → ∃ upper lower, (s.type d).offsetOf? u = some upper ∧
        (s.type d).offsetOf? t = some lower ∧ upper < lower := by
  intro h
  obtain ⟨upper, lower, hupper, hlower, hlt⟩ :=
    h sparseChain ⟨2⟩ ⟨2⟩ ⟨1⟩ built_sparseChain (by decide) (by decide) (by decide)
  have hupper' : (sparseChain.type ⟨2⟩).offsetOf? ⟨1⟩ = some 2 := by decide
  have hlower' : (sparseChain.type ⟨2⟩).offsetOf? ⟨2⟩ = some 2 := by decide
  cases hupper.symm.trans hupper'
  cases hlower.symm.trans hlower'
  exact Nat.lt_irrefl 2 hlt

end Store

end Records
