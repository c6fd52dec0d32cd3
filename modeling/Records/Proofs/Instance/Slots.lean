import Records.Proofs.Construction.Fields

/-!
# Slots

A slot is boxed at its first write, or when its cell is asked for, and keeps that cell for good.
No two slots share a cell, so a write is seen through one slot only.

## Main definitions

* `Store.Unaliased`: no two slots share a cell.
* `Store.written`: what a write leaves behind.

## Main statements

* `Store.Unaliased.valueAt?_written`: a write is seen through the slot that was written.
* `Store.slot?_written`: a boxed slot keeps its cell.
-/

namespace Records

namespace Store

variable {s : Store} {i j : InstanceId} {index k : Nat} {v : Value} {c : CellId}

/-- The slot at an absolute position. -/
def slot? (s : Store) (i : InstanceId) (index : Nat) : Option Slot := (s.record i).slots[index]?

/-- The store with a cell written. -/
def poke (s : Store) (c : CellId) (v : Value) : Store :=
  { s with cells := s.cells.setIfInBounds c.index v }

/-- The store with a slot boxed into a new cell. -/
def box (s : Store) (i : InstanceId) (index : Nat) (v : Value) : Store :=
  { s with
    cells := s.cells.push v
    instances := s.instances.modify i.index fun r =>
      { r with slots := r.slots.setIfInBounds index (.boxed ⟨s.cells.size⟩) } }

lemma valueAt?_eq (s : Store) (i : InstanceId) (index : Nat) :
    s.valueAt? i index = (s.slot? i index).map s.slotValue := rfl

lemma getElem?_fieldValues (s : Store) (i : InstanceId) (index : Nat) :
    (s.fieldValues i)[index]? = s.valueAt? i index := by
  simp [fieldValues, valueAt?]

lemma record_of_size_le (h : s.instances.size ≤ i.index) : s.record i = default := by
  simp [record, Array.getD_eq_getD_getElem?, Array.getElem?_eq_none h]

/-- A position is that of a slot if its instance is there. -/
lemma lt_of_slot? {slot : Slot} (h : s.slot? i index = some slot) :
    i.index < s.instances.size := by
  rcases Nat.lt_or_ge i.index s.instances.size with hlt | hge
  · exact hlt
  · rw [slot?, record_of_size_le hge] at h
    cases h

lemma cell_poke (s : Store) (c d : CellId) (v : Value) :
    (s.poke c v).cell d = if c = d ∧ c.index < s.cells.size then v else s.cell d := by
  have hc : c = d ↔ c.index = d.index := by
    cases c
    cases d
    simp
  simp only [poke, cell, Array.getD_eq_getD_getElem?, Array.getElem?_setIfInBounds, hc]
  by_cases h : c.index = d.index
  · by_cases hlt : d.index < s.cells.size <;> simp [h, hlt]
  · simp [h]

lemma cell_box (s : Store) (i : InstanceId) (index : Nat) (v : Value) (c : CellId) :
    (s.box i index v).cell c = if c.index = s.cells.size then v else s.cell c := by
  simp only [box, cell, Array.getD_eq_getD_getElem?, Array.getElem?_push]
  split <;> rfl

lemma record_box (s : Store) (i j : InstanceId) (index : Nat) (v : Value) :
    (s.box i index v).record j =
      if i = j ∧ i.index < s.instances.size then
        { s.record j with
          slots := (s.record j).slots.setIfInBounds index (.boxed ⟨s.cells.size⟩) }
      else s.record j := by
  have hi : i = j ↔ i.index = j.index := by
    cases i
    cases j
    simp
  simp only [box, record, Array.getD_eq_getD_getElem?, Array.getElem?_modify, hi]
  by_cases h : i.index = j.index
  · by_cases hlt : i.index < s.instances.size <;> rw [h] at hlt <;> simp [h, hlt]
  · simp [h]

lemma slot?_box (s : Store) (i j : InstanceId) (index k : Nat) (v : Value) :
    (s.box i index v).slot? j k =
      if i = j ∧ index = k ∧ (s.slot? i index).isSome then some (.boxed ⟨s.cells.size⟩)
      else s.slot? j k := by
  by_cases hi : i = j
  · subst hi
    by_cases hk : index = k
    · subst hk
      cases hslot : s.slot? i index with
      | none =>
        rw [slot?] at hslot
        rw [slot?, record_box]
        split <;> simp_all
      | some slot =>
        have hlt := lt_of_slot? hslot
        rw [slot?, Array.getElem?_eq_some_iff] at hslot
        obtain ⟨hindex, -⟩ := hslot
        simp [slot?, record_box, hlt, hindex]
    · rw [slot?, record_box]
      split <;> simp [slot?, hk]
  · simp [slot?, record_box, hi]

lemma record_withRecord (s : Store) (t : TypeId) (values : List Value) (i : InstanceId) :
    (s.withRecord t values).record i =
      if i.index = s.instances.size then ⟨t, (values.map Slot.raw).toArray⟩ else s.record i := by
  simp only [withRecord, record, Array.getD_eq_getD_getElem?, Array.getElem?_push]
  split <;> rfl

/-- The slots of a new instance are raw. -/
lemma slot?_withRecord (s : Store) (t : TypeId) (values : List Value) (i : InstanceId)
    (index : Nat) :
    (s.withRecord t values).slot? i index =
      if i.index = s.instances.size then values[index]?.map Slot.raw else s.slot? i index := by
  rw [slot?, record_withRecord]
  split
  · simp
  · rfl

/-! ### Slots that share no cell -/

/-- The store with a slot written: into its cell, or into a new one. -/
def written (s : Store) (i : InstanceId) (index : Nat) (v : Value) : Store :=
  match s.slot? i index with
  | none => s
  | some (.boxed c) => s.poke c v
  | some (.raw _) => s.box i index v

lemma written_of_slot?_eq_none (h : s.slot? i index = none) (v : Value) :
    s.written i index v = s := by
  rw [written, h]

/-- Boxed slots are in cells that are there, and no two of them are in one cell. -/
structure Unaliased (s : Store) : Prop where
  held : ∀ i index c, s.slot? i index = some (.boxed c) → c.index < s.cells.size
  unshared : ∀ i index j k c, s.slot? i index = some (.boxed c) →
    s.slot? j k = some (.boxed c) → i = j ∧ index = k

namespace Unaliased

/-- A new cell is nobody else's. -/
lemma box (hs : s.Unaliased) (i : InstanceId) (index : Nat) (v : Value) :
    (s.box i index v).Unaliased where
  held j k c hc := by
    rw [slot?_box] at hc
    show c.index < (s.cells.push v).size
    rw [Array.size_push]
    split at hc
    · cases hc
      exact Nat.lt_succ_self _
    · exact Nat.lt_succ_of_lt (hs.held j k c hc)
  unshared i' index' j k c hc hc' := by
    rw [slot?_box] at hc hc'
    split at hc <;> split at hc'
    · rename_i h h'
      exact ⟨h.1.symm.trans h'.1, h.2.1.symm.trans h'.2.1⟩
    · cases hc
      exact absurd (hs.held j k _ hc') (Nat.lt_irrefl _)
    · cases hc'
      exact absurd (hs.held i' index' _ hc) (Nat.lt_irrefl _)
    · exact hs.unshared i' index' j k c hc hc'

lemma poke (hs : s.Unaliased) (c : CellId) (v : Value) : (s.poke c v).Unaliased where
  held i index d hd := by simpa [Store.poke] using hs.held i index d hd
  unshared := hs.unshared

lemma written (hs : s.Unaliased) (i : InstanceId) (index : Nat) (v : Value) :
    (s.written i index v).Unaliased := by
  unfold Store.written
  split
  · exact hs
  · exact hs.poke _ v
  · exact hs.box i index v

lemma withRecord (hs : s.Unaliased) (t : TypeId) (values : List Value) :
    (s.withRecord t values).Unaliased := by
  have hold : ∀ i index c, (s.withRecord t values).slot? i index = some (.boxed c) →
      s.slot? i index = some (.boxed c) := by
    intro i index c hc
    rw [slot?_withRecord] at hc
    split at hc
    · obtain ⟨v, -, hv⟩ := Option.map_eq_some_iff.1 hc
      cases hv
    · exact hc
  refine ⟨fun i index c hc => hs.held i index c (hold i index c hc), ?_⟩
  intro i index j k c hc hc'
  exact hs.unshared i index j k c (hold i index c hc) (hold j k c hc')

/-- A new cell changes the content of no other slot. -/
lemma valueAt?_box (hs : s.Unaliased) (i j : InstanceId) (index k : Nat) (v : Value) :
    (s.box i index v).valueAt? j k =
      if i = j ∧ index = k ∧ (s.slot? i index).isSome then some v else s.valueAt? j k := by
  rw [valueAt?_eq, slot?_box]
  split
  · simp [slotValue, cell_box]
  · rw [valueAt?_eq]
    rcases hslot : s.slot? j k with _ | w | c
    · rfl
    · rfl
    · have hne : c.index ≠ s.cells.size := Nat.ne_of_lt (hs.held j k c hslot)
      simp [slotValue, cell_box, hne]

/-- A cell is seen through one slot only. -/
lemma valueAt?_poke (hs : s.Unaliased) (hc : s.slot? i index = some (.boxed c)) (j : InstanceId)
    (k : Nat) (v : Value) :
    (s.poke c v).valueAt? j k = if i = j ∧ index = k then some v else s.valueAt? j k := by
  have hlt := hs.held i index c hc
  have hsame : (s.poke c v).slot? j k = s.slot? j k := rfl
  rw [valueAt?_eq, hsame]
  split
  · rename_i h
    obtain ⟨rfl, rfl⟩ := h
    simp [hc, slotValue, cell_poke, hlt]
  · rename_i h
    rw [valueAt?_eq]
    rcases hslot : s.slot? j k with _ | w | d
    · rfl
    · rfl
    · have hne : c ≠ d := by
        rintro rfl
        exact h (hs.unshared i index j k c hc hslot)
      simp [slotValue, cell_poke, hne]

/-- A write is seen through the slot that was written, and through no other. -/
lemma valueAt?_written (hs : s.Unaliased) (i j : InstanceId) (index k : Nat) (v : Value) :
    (s.written i index v).valueAt? j k =
      if i = j ∧ index = k ∧ (s.slot? i index).isSome then some v else s.valueAt? j k := by
  unfold Store.written
  rcases hslot : s.slot? i index with _ | w | c
  · simp
  · rw [hs.valueAt?_box, hslot]
  · rw [hs.valueAt?_poke hslot]
    simp

end Unaliased

/-- A slot is never boxed again. -/
lemma slot?_written (hc : s.slot? j k = some (.boxed c)) (i : InstanceId) (index : Nat)
    (v : Value) : (s.written i index v).slot? j k = some (.boxed c) := by
  unfold Store.written
  rcases hslot : s.slot? i index with _ | w | d
  · exact hc
  · have hne : ¬(i = j ∧ index = k ∧ (s.slot? i index).isSome) := by
      rintro ⟨rfl, rfl, -⟩
      rw [hc] at hslot
      cases hslot
    rw [slot?_box, if_neg hne]
    exact hc
  · exact hc

/-- A store that differs from another one in instances and cells only. -/
def Refills (s s' : Store) : Prop :=
  s' = { s with instances := s'.instances, cells := s'.cells }

lemma Refills.trans {s s' s'' : Store} (h : s.Refills s') (h' : s'.Refills s'') :
    s.Refills s'' := by
  rw [Refills] at h h' ⊢
  rw [h', h]

lemma refills_written (s : Store) (i : InstanceId) (index : Nat) (v : Value) :
    s.Refills (s.written i index v) := by
  unfold written
  split <;> rfl

lemma size_written (s : Store) (i : InstanceId) (index : Nat) (v : Value) :
    (s.written i index v).instances.size = s.instances.size := by
  unfold written
  split
  · rfl
  · rfl
  · simp [box]

lemma type_box (s : Store) (i j : InstanceId) (index : Nat) (v : Value) :
    ((s.box i index v).record j).type = (s.record j).type := by
  rw [record_box]
  split <;> rfl

lemma type_written (s : Store) (i j : InstanceId) (index : Nat) (v : Value) :
    ((s.written i index v).record j).type = (s.record j).type := by
  unfold written
  split
  · rfl
  · rfl
  · exact type_box s i j index v

/-! ### Operations on slots -/

lemma run_writeAt (i : InstanceId) (index : Nat) (v : Value) (s : Store) :
    (writeAt i index v).run s = (.ok (s.slot? i index).isSome, s.written i index v) := by
  rw [writeAt, StoreM.run_bind]
  simp only [StoreM.run_get, written, slot?]
  rcases (s.record i).slots[index]? with _ | _ | c <;> rfl

/-- A write to a slot that is not there stops the program. -/
lemma run_writeField (i : InstanceId) (t : TypeId) (field : Nat) (v : Value) (s : Store) :
    (writeField i t field v).run s =
      match s.locate i t field with
      | .error e => (.error (.condition e), s)
      | .ok index =>
        (if (s.slot? i index).isSome then .ok () else .error .outOfBounds,
          s.written i index v) := by
  rw [writeField, StoreM.run_bind]
  simp only [StoreM.run_get]
  rw [StoreM.run_bind]
  cases s.locate i t field with
  | error e => rfl
  | ok index =>
    show (writeAt i index v >>= fun there => unless there do throw .outOfBounds :
      StoreM Unit).run s = _
    rw [StoreM.run_bind, run_writeAt]
    cases hslot : (s.slot? i index).isSome <;> simp only [hslot] <;> rfl

/-- The cell of a boxed slot is the one it was boxed into. -/
lemma run_cellOf (i : InstanceId) (t : TypeId) (field : Nat) (s : Store) :
    (cellOf i t field).run s =
      match s.locate i t field with
      | .error e => (.error (.condition e), s)
      | .ok index =>
        match s.slot? i index with
        | none => (.error .outOfBounds, s)
        | some (.boxed c) => (.ok c, s)
        | some (.raw v) => (.ok ⟨s.cells.size⟩, s.box i index v) := by
  rw [cellOf, StoreM.run_bind]
  simp only [StoreM.run_get]
  rw [StoreM.run_bind]
  cases s.locate i t field with
  | error e => rfl
  | ok index =>
    simp only [slot?]
    show StateT.run _ _ = _
    rcases (s.record i).slots[index]? with _ | _ | c <;> rfl

/-- Obtaining a cell boxes a slot, or leaves all slots as they are. -/
lemma run_cellOf_cases (i : InstanceId) (t : TypeId) (field : Nat) (s : Store) :
    ((cellOf i t field).run s).2 = s ∨
      ∃ index v, ((cellOf i t field).run s).2 = s.box i index v := by
  rw [run_cellOf]
  split
  · exact .inl rfl
  · split
    · exact .inl rfl
    · exact .inl rfl
    · exact .inr ⟨_, _, rfl⟩

lemma run_read (i : InstanceId) (t : TypeId) (field : Nat) (s : Store) :
    (do (← get : Store).read i t field : StoreM Value).run s = (s.read i t field, s) := by
  rw [StoreM.run_bind]
  simp only [StoreM.run_get]
  cases s.read i t field <;> rfl

/-- Only a field of an instance is written, and only if it is not immutable. -/
lemma run_mutate (t : TypeId) (target : Value) (field : Nat) (v : Value) (s : Store) :
    (mutate t target field v).run s =
      match target.record? with
      | none => (.error (.condition (.contractViolation (s.typeName t ++ "-set!")
          (s.typeName t ++ "?") (s.display target))), s)
      | some i =>
        if (s.type t).isImmutable field then
          (.error (.condition (.immutableField (s.typeName t) field)), s)
        else (writeField i t field v).run s := by
  rw [mutate, StoreM.run_bind]
  simp only [StoreM.run_get]
  rw [StoreM.run_bind, expectRecord]
  cases target.record? with
  | none => rfl
  | some i =>
    show StateT.run _ _ = _
    cases (s.type t).isImmutable field <;> rfl

/-- A write that fails writes nothing. -/
lemma eq_of_run_writeField {field : Nat} {t : TypeId} {e : Failure} {s' : Store}
    (h : (writeField i t field v).run s = (.error e, s')) : s' = s := by
  rw [run_writeField] at h
  cases hl : s.locate i t field with
  | error e =>
    rw [hl] at h
    cases h
    rfl
  | ok index =>
    simp only [hl] at h
    cases hslot : s.slot? i index with
    | none =>
      rw [written_of_slot?_eq_none hslot] at h
      exact (Prod.mk.inj h).2.symm
    | some slot =>
      rw [hslot] at h
      cases h

lemma eq_of_run_mutate {field : Nat} {t : TypeId} {target : Value} {e : Failure} {s' : Store}
    (h : (mutate t target field v).run s = (.error e, s')) : s' = s := by
  rw [run_mutate] at h
  cases hi : target.record? with
  | none =>
    rw [hi] at h
    cases h
    rfl
  | some i =>
    simp only [hi] at h
    split at h
    · cases h
      rfl
    · exact eq_of_run_writeField h

lemma run_fieldMutator (t : TypeId) (field : Nat) (label : Option Symbol) (m : StoreM Unit)
    (s : Store) :
    (do
      let _ ← (← get : Store).fieldMutator t field label
      m : StoreM Unit).run s =
      if field < (s.type t).ownCount then m.run s
      else (.error (.condition (.fieldOutOfRange (s.typeName t) field (s.type t).ownCount)), s)
    := by
  rw [StoreM.run_bind]
  simp only [StoreM.run_get, fieldMutator, checkField]
  rw [StoreM.run_bind]
  by_cases h : field < (s.type t).ownCount
  · rw [if_pos h, if_pos h]
    rfl
  · rw [if_neg h, if_neg h]
    rfl

end Store

end Records
