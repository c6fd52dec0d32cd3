import Records.Proofs.Instance.Printing
import Records.Proofs.Instance.Slots
import Records.Proofs.Instance.Storage
import Records.Proofs.RecordType.Partition

/-!
# A store as plain arrays

A store cannot be told from plain arrays by accesses to its instances. Whether a slot is raw or
boxed does not show, and a cell is as good as the place it was obtained from.

## Main definitions

* `Storage.Represents`: a store holds the contents of plain arrays.
* `Storage.Faithful`: what plain arrays tell of a store.

## Main statements

* `Storage.Represents.perform`: an access keeps a store and plain arrays together.
* `Storage.observe_eq`: accesses to a store show what accesses to plain arrays show.
-/

namespace Records

namespace Storage

variable {s : Store} {S : Storage} {A : Arrays} {i : InstanceId} {t : TypeId}
  {index field : Nat} {v : Value} {c : CellId}

/-- A store that came about from another one by accesses holds the contents of plain arrays. -/
structure Represents (s : Store) (S : Storage) (A : Arrays) : Prop where
  refills : s.Refills S.store
  unaliased : S.store.Unaliased
  count : A.rows.length = S.store.instances.size
  type : ∀ i, (A.row i).type = (S.store.record i).type
  values : ∀ i index, A.value? i index = S.store.valueAt? i index
  /-- An instance has the fields of its type. -/
  full : ∀ i : InstanceId, i.index < A.rows.length → (A.row i).type.index < s.types.size ∧
    (A.row i).values.length = (s.type (A.row i).type).totalCount
  /-- A cell is still the one of the slot it was obtained from. -/
  handles : A.cells.map (fun p => S.store.slot? p.1 p.2) = S.cells.map fun c => some (.boxed c)

namespace Represents

lemma type_eq (h : Represents s S A) (t : TypeId) : S.store.type t = s.type t := by
  rw [h.refills]
  rfl

lemma typeName_eq (h : Represents s S A) (t : TypeId) : S.store.typeName t = s.typeName t := by
  rw [h.refills]
  rfl

lemma contents_eq (h : Represents s S A) (i : InstanceId) :
    (A.row i).values = S.store.fieldValues i := by
  refine List.ext_getElem? fun index => ?_
  rw [Store.getElem?_fieldValues]
  exact h.values i index

lemma isSome_slot?_iff (h : Represents s S A) :
    (S.store.slot? i index).isSome ↔ index < (A.row i).values.length := by
  have hvalue : (A.value? i index).isSome = (S.store.slot? i index).isSome := by
    rw [h.values, Store.valueAt?_eq, Option.isSome_map]
  rw [← hvalue, Arrays.value?]
  simp

lemma slot?_eq_none (h : Represents s S A) (hle : (A.row i).values.length ≤ index) :
    S.store.slot? i index = none := by
  rw [← Option.not_isSome_iff_eq_none, h.isSome_slot?_iff]
  exact Nat.not_lt.2 hle

lemma length_cells (h : Represents s S A) : A.cells.length = S.cells.length := by
  simpa using congrArg List.length h.handles

/-- The place of a cell is a slot in this cell. -/
lemma slot?_of_getElem? (h : Represents s S A) {n : Nat} {p : InstanceId × Nat}
    (hp : A.cells[n]? = some p) :
    ∃ c, S.cells[n]? = some c ∧ S.store.slot? p.1 p.2 = some (.boxed c) := by
  have hn := congrArg (·[n]?) h.handles
  simp only [List.getElem?_map, hp, Option.map_some] at hn
  obtain ⟨c, hc, hslot⟩ := Option.map_eq_some_iff.1 hn.symm
  exact ⟨c, hc, hslot.symm⟩

/-- What is printed depends on the contents of the instances alone. -/
lemma display_eq (h : Represents s S A) (v : Value) :
    S.store.display v = (A.toStore s).display v := by
  have hrecord : ∀ i, (A.toStore s).record i =
      ⟨(A.row i).type, ((A.row i).values.map Slot.raw).toArray⟩ := by
    intro i
    simp only [Store.record, Arrays.toStore, Arrays.row, Array.getD_eq_getD_getElem?,
      List.getElem?_toArray, List.getElem?_map, List.getD_eq_getElem?_getD]
    cases A.rows[i.index]? <;> rfl
  refine Store.Alike.display_eq ⟨?_, ?_, ?_, ?_, ?_, ?_⟩ v
  · rw [h.refills]
    rfl
  · rw [h.refills]
    rfl
  · rw [h.refills]
    rfl
  · simp [Arrays.toStore, h.count]
  · intro i
    rw [hrecord, ← h.type]
  · intro i
    rw [← h.contents_eq, Store.fieldValues, hrecord]
    simp [Function.comp_def, Store.slotValue]

/-! ### Positions -/

/-- The table of offsets leads to the field that is counted from the type itself. -/
lemma locate_eq (hs : s.LaidOut) (h : Represents s S A) (hi : i.index < A.rows.length)
    (t : TypeId) (field : Nat) : S.store.locate i t field = A.position s i t field := by
  obtain ⟨htype, -⟩ := h.full i hi
  rw [Store.locate, Arrays.position, Store.typeOf, ← h.type, h.type_eq, h.type_eq, h.typeName_eq,
    h.typeName_eq, hs.offsetOf?_eq_ite htype, Store.isSubtype]
  by_cases ht : t ∈ s.ancestry (A.row i).type <;> simp [ht]

/-! ### One operation -/

/-- Both write at a position, or neither does. -/
lemma put (h : Represents s S A) (i : InstanceId) (index : Nat) (v : Value) :
    Represents s { S with store := S.store.written i index v } (A.put i index v) where
  refills := h.refills.trans (S.store.refills_written i index v)
  unaliased := h.unaliased.written i index v
  count := by
    show _ = (S.store.written i index v).instances.size
    rw [Store.size_written, ← h.count]
    simp [Arrays.put]
  type j := by
    show _ = ((S.store.written i index v).record j).type
    rw [Arrays.type_put, Store.type_written, h.type]
  values j k := by
    show _ = (S.store.written i index v).valueAt? j k
    rw [Arrays.value?_put, h.unaliased.valueAt?_written, h.values, h.values, Store.valueAt?_eq,
      Option.isSome_map]
  full j hj := by
    have hj : j.index < A.rows.length := by simpa [Arrays.put] using hj
    rw [Arrays.type_put, Arrays.length_put]
    exact h.full j hj
  handles := by
    show A.cells.map _ = _
    rw [← h.handles]
    refine List.map_congr_left fun p hp => ?_
    obtain ⟨n, hn⟩ := List.getElem?_of_mem hp
    obtain ⟨c, -, hslot⟩ := h.slot?_of_getElem? hn
    rw [hslot]
    exact Store.slot?_written hslot i index v

/-- A cell that a slot is in may be handed out. -/
lemma obtain (h : Represents s S A) (hslot : S.store.slot? i index = some (.boxed c)) :
    Represents s ⟨S.store, S.cells ++ [c]⟩ { A with cells := A.cells ++ [(i, index)] } :=
  { h with
    handles := by
      rw [List.map_append, List.map_append, h.handles]
      simp [hslot] }

/-- Boxing a slot with its content changes nothing. -/
lemma box (h : Represents s S A) (hslot : S.store.slot? i index = some (.raw v)) :
    Represents s { S with store := S.store.box i index v } A := by
  have hwritten : S.store.written i index v = S.store.box i index v := by
    rw [Store.written, hslot]
  have hput := h.put i index v
  rw [hwritten] at hput
  have hvalue : A.value? i index = some v := by
    rw [h.values, Store.valueAt?_eq, hslot]
    rfl
  rw [Arrays.put_self hvalue] at hput
  exact hput

/-- An instance is added to both. -/
lemma make (h : Represents s S A) (ht : t.index < s.types.size) {values : List Value}
    (hlen : values.length = (s.type t).totalCount) :
    Represents s { S with store := S.store.withRecord t values }
      { A with rows := A.rows ++ [⟨t, values⟩] } := by
  have hslot := Store.slot?_withRecord S.store t values
  have hcell : ∀ c, (S.store.withRecord t values).cell c = S.store.cell c := fun _ => rfl
  refine ⟨h.refills.trans rfl, h.unaliased.withRecord t values, ?_, ?_, ?_, ?_, ?_⟩
  · simp [Store.withRecord, h.count]
  · intro i
    rw [Arrays.row_append, Store.record_withRecord, h.count]
    split
    · rfl
    · exact h.type i
  · intro i index
    rw [Arrays.value?, Arrays.row_append, Store.valueAt?_eq, hslot, h.count]
    split
    · cases values[index]? <;> rfl
    · exact h.values i index
  · intro i hi
    rw [Arrays.row_append]
    split
    · exact ⟨ht, hlen⟩
    · rename_i hne
      have hi : i.index < A.rows.length + 1 := by simpa using hi
      exact h.full i (by omega)
  · show A.cells.map _ = _
    rw [← h.handles]
    refine List.map_congr_left fun p hp => ?_
    obtain ⟨n, hn⟩ := List.getElem?_of_mem hp
    obtain ⟨c, -, hc⟩ := h.slot?_of_getElem? hn
    rw [hslot, if_neg (Nat.ne_of_lt (Store.lt_of_slot? hc))]

end Represents

/-! ### Accesses -/

/-- An access shows the same of a store and of plain arrays, and keeps them together. -/
def Matches (s : Store) (x : Observation × Storage) (y : Observation × Arrays) : Prop :=
  x.1 = y.1 ∧ Represents s x.2 y.2

lemma run_ok {α : Type} {m : StoreM α} {a : α} {s' : Store} (h : m.run S.store = (.ok a, s'))
    (observed : α → Observation) : S.run m observed = (observed a, { S with store := s' }) := by
  rw [run, h]

lemma run_error {α : Type} {m : StoreM α} {e : Failure} {s' : Store}
    (h : m.run S.store = (.error e, s')) (observed : α → Observation) :
    S.run m observed = (.refused e, { S with store := s' }) := by
  rw [run, h]

namespace Represents

lemma matches_make (h : Represents s S A) (ht : t.index < s.types.size)
    (values : List Value) :
    Matches s (S.respond (.make t values)) (A.respond s (.make t values)) := by
  have hrun := run_newInstance t values S.store
  rw [h.type_eq] at hrun
  rw [respond, Arrays.respond]
  split
  · rename_i hlen
    rw [if_pos hlen] at hrun
    rw [run_ok hrun, ← h.count]
    exact ⟨rfl, h.make ht hlen⟩
  · rename_i hlen
    rw [if_neg hlen] at hrun
    rw [run_error hrun]
    exact ⟨rfl, h⟩

lemma matches_read (hs : s.LaidOut) (h : Represents s S A) (hi : i.index < A.rows.length)
    (t : TypeId) (field : Nat) :
    Matches s (S.respond (.read i t field)) (A.respond s (.read i t field)) := by
  have hlocate := h.locate_eq hs hi t field
  have hrun := Store.run_read i t field S.store
  rw [respond, Arrays.respond]
  cases hp : A.position s i t field with
  | error e =>
    rw [Store.read_of_locate_eq_error (hlocate.trans hp)] at hrun
    rw [run_error hrun]
    exact ⟨rfl, h⟩
  | ok index =>
    rw [Store.read_of_locate (hlocate.trans hp), ← h.values] at hrun
    simp only [Arrays.look]
    cases hvalue : A.value? i index with
    | none =>
      rw [hvalue] at hrun
      rw [run_error hrun]
      exact ⟨rfl, h⟩
    | some v =>
      rw [hvalue] at hrun
      rw [run_ok hrun]
      exact ⟨rfl, h⟩

lemma matches_write (hs : s.LaidOut) (h : Represents s S A) (hi : i.index < A.rows.length)
    (t : TypeId) (field : Nat) (v : Value) :
    Matches s (S.run (writeField i t field v) fun _ => .written) (A.write s i t field v) := by
  have hrun := Store.run_writeField i t field v S.store
  rw [h.locate_eq hs hi] at hrun
  rw [Arrays.write]
  cases hp : A.position s i t field with
  | error e =>
    simp only [hp] at hrun
    rw [run_error hrun]
    exact ⟨rfl, h⟩
  | ok index =>
    simp only [hp, h.isSome_slot?_iff] at hrun
    have hput := h.put i index v
    show Matches s _ (A.update i index v)
    rw [Arrays.update]
    by_cases hlt : index < (A.row i).values.length
    · rw [if_pos hlt] at hrun ⊢
      rw [run_ok hrun]
      exact ⟨rfl, hput⟩
    · rw [if_neg hlt] at hrun ⊢
      have hnone := h.slot?_eq_none (Nat.le_of_not_lt hlt)
      rw [Store.written_of_slot?_eq_none hnone] at hrun
      rw [run_error hrun]
      exact ⟨rfl, h⟩

lemma matches_cell (hs : s.LaidOut) (h : Represents s S A) (hi : i.index < A.rows.length)
    (t : TypeId) (field : Nat) :
    Matches s (S.respond (.cell i t field)) (A.respond s (.cell i t field)) := by
  have hrun := Store.run_cellOf i t field S.store
  rw [h.locate_eq hs hi] at hrun
  rw [respond, Arrays.respond, Storage.obtain, hrun]
  cases hp : A.position s i t field with
  | error e => exact ⟨rfl, h⟩
  | ok index =>
    have hlt : (S.store.slot? i index).isSome ↔ index < (A.row i).values.length :=
      h.isSome_slot?_iff
    have hcell : Observation.cell S.cells.length = .cell A.cells.length := by
      rw [h.length_cells]
    rcases hslot : S.store.slot? i index with _ | v | c <;> rw [hslot] at hlt
    · have hge : ¬index < (A.row i).values.length := fun h => Bool.noConfusion (hlt.2 h)
      simp only [hslot, if_neg hge]
      exact ⟨rfl, h⟩
    · -- a raw slot is boxed with its content
      simp only [hslot, if_pos (hlt.1 rfl)]
      refine ⟨hcell, (h.box hslot).obtain ?_⟩
      show (S.store.box i index v).slot? i index = _
      rw [Store.slot?_box, if_pos ⟨rfl, rfl, by rw [hslot]; rfl⟩]
    · simp only [hslot, if_pos (hlt.1 rfl)]
      exact ⟨hcell, h.obtain hslot⟩

lemma matches_writeAt (h : Represents s S A) (i : InstanceId) (index : Nat) (v : Value) :
    Matches s (S.respond (.writeAt i index v)) (A.respond s (.writeAt i index v)) := by
  rw [respond, Arrays.respond, run_ok (Store.run_writeAt i index v S.store)]
  by_cases hlt : index < (A.row i).values.length
  · rw [if_pos hlt, h.isSome_slot?_iff.2 hlt]
    exact ⟨rfl, h.put i index v⟩
  · have hnone := h.slot?_eq_none (Nat.le_of_not_lt hlt)
    rw [if_neg hlt, Store.written_of_slot?_eq_none hnone, hnone]
    exact ⟨rfl, h⟩

lemma matches_mutate (hs : s.LaidOut) (h : Represents s S A) (t : TypeId) {target : Value}
    (htarget : ∀ i, target.record? = some i → i.index < A.rows.length) (field : Nat)
    (v : Value) :
    Matches s (S.run (Records.mutate t target field v) fun _ => .written)
      (A.mutate s t target field v) := by
  have hrun := Store.run_mutate t target field v S.store
  rw [h.typeName_eq, h.type_eq, h.display_eq] at hrun
  rw [Arrays.mutate]
  cases hi : target.record? with
  | none =>
    rw [hi] at hrun
    rw [run_error hrun]
    exact ⟨rfl, h⟩
  | some i =>
    simp only [hi] at hrun
    simp only
    split
    · rename_i himmutable
      rw [if_pos himmutable] at hrun
      rw [run_error hrun]
      exact ⟨rfl, h⟩
    · rename_i himmutable
      rw [if_neg himmutable] at hrun
      have hwrite := h.matches_write hs (htarget i hi) t field v
      rw [run, hrun]
      exact hwrite

lemma matches_cells (h : Represents s S A) (n : Nat) (v : Value) :
    Matches s (S.respond (.readCell n)) (A.respond s (.readCell n)) ∧
      Matches s (S.respond (.writeCell n v)) (A.respond s (.writeCell n v)) := by
  simp only [respond, Arrays.respond]
  rcases hp : A.cells[n]? with _ | ⟨i, index⟩
  · have hnone : S.cells[n]? = none := by
      rw [List.getElem?_eq_none_iff] at hp ⊢
      rw [← h.length_cells]
      exact hp
    rw [hnone]
    exact ⟨⟨rfl, h⟩, rfl, h⟩
  · obtain ⟨c, hc, hslot⟩ := h.slot?_of_getElem? hp
    have hvalue : A.value? i index = some (S.store.cell c) := by
      rw [h.values, Store.valueAt?_eq, hslot]
      rfl
    have hlt : index < (A.row i).values.length := by
      rw [← h.isSome_slot?_iff, hslot]
      rfl
    simp only [hc, Arrays.look, hvalue, Arrays.update, if_pos hlt]
    refine ⟨⟨rfl, h⟩, rfl, ?_⟩
    have hput := h.put i index v
    rw [Store.written, hslot] at hput
    exact hput

/-- An access shows the same and keeps the store and the arrays together. -/
lemma perform (hs : s.LaidOut) (h : Represents s S A) (a : Access) :
    Matches s (S.perform a) (A.perform s a) := by
  have hsize : S.store.types.size = s.types.size := by rw [h.refills]
  rw [Storage.perform, Arrays.perform, hsize, ← h.count]
  by_cases hknown : a.known s.types.size A.rows.length
  · rw [if_pos hknown, if_pos hknown]
    cases a with
    | make t values => exact h.matches_make (of_decide_eq_true hknown) values
    | read i t field => exact h.matches_read hs (of_decide_eq_true hknown) t field
    | write i t field v => exact h.matches_write hs (of_decide_eq_true hknown) t field v
    | cell i t field => exact h.matches_cell hs (of_decide_eq_true hknown) t field
    | readAt i index => exact ⟨congrArg _ (h.values i index).symm, h⟩
    | writeAt i index v => exact h.matches_writeAt i index v
    | values i => exact ⟨congrArg _ (h.contents_eq i).symm, h⟩
    | mutate t target field v =>
      refine h.matches_mutate hs t (fun i hi => ?_) field v
      simpa [Access.known, hi] using hknown
    | mutateField t field label target v =>
      have htarget : ∀ i, target.record? = some i → i.index < A.rows.length := fun i hi => by
        simpa [Access.known, hi] using hknown
      have hmutate := h.matches_mutate hs t htarget field v
      have hrun := Store.run_fieldMutator t field label (Records.mutate t target field v) S.store
      rw [h.type_eq, h.typeName_eq] at hrun
      rw [respond, Arrays.respond]
      split
      · rename_i hfield
        rw [if_pos hfield] at hrun
        rw [run, hrun]
        exact hmutate
      · rename_i hfield
        rw [if_neg hfield] at hrun
        rw [run_error hrun]
        exact ⟨rfl, h⟩
    | readCell n => exact (h.matches_cells n .void).1
    | writeCell n v => exact (h.matches_cells n v).2
  · rw [if_neg hknown, if_neg hknown]
    exact ⟨rfl, h⟩

/-- So do accesses in a row. -/
lemma observe (hs : s.LaidOut) (h : Represents s S A) (accesses : List Access) :
    (observe Storage.perform accesses S).1 = (observe (Arrays.perform s) accesses A).1 ∧
      Represents s (observe Storage.perform accesses S).2
        (observe (Arrays.perform s) accesses A).2 := by
  induction accesses generalizing S A with
  | nil => exact ⟨rfl, h⟩
  | cons a rest ih =>
    obtain ⟨hshown, hnext⟩ := h.perform hs a
    obtain ⟨hshow, hlast⟩ := ih hnext
    exact ⟨List.cons_eq_cons.2 ⟨hshown, hshow⟩, hlast⟩

/-- A store and plain arrays without instances. -/
lemma of_empty (hnone : s.instances = #[]) : Represents s ⟨s, []⟩ {} := by
  have hrecord : ∀ i, s.record i = default := by
    intro i
    refine Store.record_of_size_le ?_
    rw [hnone]
    exact Nat.zero_le _
  have hslot : ∀ i index, s.slot? i index = none := by
    intro i index
    rw [Store.slot?, hrecord]
    rfl
  refine ⟨rfl, ⟨?_, ?_⟩, ?_, ?_, ?_, ?_, rfl⟩
  · intro i index c hc
    rw [hslot] at hc
    cases hc
  · intro i index j k c hc
    rw [hslot] at hc
    cases hc
  · rw [hnone]
    rfl
  · intro i
    rw [hrecord]
    rfl
  · intro i index
    rw [Store.valueAt?_eq, hslot]
    rfl
  · intro i hi
    cases hi

end Represents

/-! ### What the arrays tell of the store -/

/-- An access leaves everything alone if it fails. -/
def Leaves (S : Storage) (x : Observation × Storage) : Prop := x.1.IsFailure → x.2 = S

/-- An operation that leaves the store alone if it fails, and whose answer is no failure. -/
lemma leaves_run {α : Type} {m : StoreM α} {observed : α → Observation}
    (hm : ∀ e s', m.run S.store = (.error e, s') → s' = S.store)
    (hobserved : ∀ a, ¬(observed a).IsFailure) : S.Leaves (S.run m observed) := by
  intro h
  rcases hrun : m.run S.store with ⟨e | a, s'⟩
  · rw [run_error hrun, hm e s' hrun]
  · rw [run_ok hrun] at h
    exact absurd h (hobserved a)

lemma leaves_respond (S : Storage) (a : Access) : S.Leaves (S.respond a) := by
  cases a with
  | make t values =>
    refine leaves_run (fun e s' hrun => ?_) fun _ => not_false
    rw [run_newInstance] at hrun
    split at hrun <;> cases hrun
    rfl
  | read i t field =>
    refine leaves_run (fun e s' hrun => ?_) fun _ => not_false
    rw [Store.run_read] at hrun
    exact (Prod.mk.inj hrun).2.symm
  | write i t field v => exact leaves_run (fun _ _ => Store.eq_of_run_writeField) fun _ => not_false
  | cell i t field =>
    intro h
    rw [respond, Storage.obtain, Store.run_cellOf] at h ⊢
    cases hl : S.store.locate i t field with
    | error e => rfl
    | ok index =>
      simp only [hl] at h
      rcases hslot : S.store.slot? i index with _ | v | c <;> simp only [hslot] at h ⊢ <;> cases h
  | readAt i index => exact fun _ => rfl
  | writeAt i index v =>
    intro h
    rw [respond, run_ok (Store.run_writeAt i index v S.store)] at h ⊢
    rcases hslot : S.store.slot? i index with _ | slot
    · rw [Store.written, hslot]
    · rw [hslot] at h
      cases h
  | values i => exact fun _ => rfl
  | mutate t target field v =>
    exact leaves_run (fun _ _ => Store.eq_of_run_mutate) fun _ => not_false
  | mutateField t field label target v =>
    refine leaves_run (fun e s' hrun => ?_) fun _ => not_false
    rw [Store.run_fieldMutator] at hrun
    split at hrun
    · exact Store.eq_of_run_mutate hrun
    · cases hrun
      rfl
  | readCell n =>
    rw [respond]
    cases S.cells[n]? <;> exact fun _ => rfl
  | writeCell n v =>
    rw [respond]
    cases S.cells[n]? with
    | none => exact fun _ => rfl
    | some c => exact fun h => h.elim

/-- An access that fails leaves the store alone, and the cells. -/
lemma leaves_perform (S : Storage) (a : Access) : S.Leaves (S.perform a) := by
  rw [perform]
  split
  · exact S.leaves_respond a
  · exact fun _ => rfl

/-- What plain arrays tell of a store that is accessed in the same ways. -/
structure Faithful (S : Storage) (A : Arrays) : Prop where
  /-- Each place holds the value that was last written to it by any access. -/
  contents : ∀ i index, S.store.valueAt? i index = A.value? i index
  count : S.cells.length = A.cells.length
  /-- Cells are one exactly if they were obtained from one place. -/
  same : ∀ n m, n < S.cells.length → m < S.cells.length →
    (S.cells[n]? = S.cells[m]? ↔ A.cells[n]? = A.cells[m]?)
  /-- A type's own field is read at its absolute position, which is out of bounds if there is no
  such position. -/
  agree : ∀ (i : InstanceId) (t : TypeId) (field offset : Nat),
    (S.store.typeOf i).offsetOf? t = some offset → field < (S.store.type t).ownCount →
      S.store.read i t field =
        (S.store.valueAt? i ((S.store.typeOf i).count (offset + field))).elim
          (.error .outOfBounds) .ok
  /-- There is one as long as a word can count the fields of the chain. -/
  found : ∀ (i : InstanceId) (t : TypeId) (field offset : Nat),
    i.index < S.store.instances.size → S.store.Fits (S.store.record i).type →
    (S.store.typeOf i).offsetOf? t = some offset → field < (S.store.type t).ownCount →
      ∃ v, S.store.read i t field = .ok v ∧ S.store.valueAt? i (offset + field) = some v
  /-- An access that fails changes nothing. -/
  refused : ∀ a, (S.perform a).1.IsFailure → (S.perform a).2 = S

lemma Represents.faithful (hs : s.LaidOut) (h : Represents s S A) : S.Faithful A where
  contents i index := (h.values i index).symm
  count := h.length_cells.symm
  same n m hn hm := by
    rw [← h.length_cells] at hn hm
    obtain ⟨c, hc, hslot⟩ := h.slot?_of_getElem? (List.getElem?_eq_getElem hn)
    obtain ⟨d, hd, hslot'⟩ := h.slot?_of_getElem? (List.getElem?_eq_getElem hm)
    rw [hc, hd, List.getElem?_eq_getElem hn, List.getElem?_eq_getElem hm, Option.some_inj,
      Option.some_inj]
    constructor
    · rintro rfl
      obtain ⟨hi, hindex⟩ := h.unaliased.unshared _ _ _ _ c hslot hslot'
      exact Prod.ext hi hindex
    · intro hp
      rw [hp, hslot'] at hslot
      cases hslot
      rfl
  agree i t field offset hoffset hfield :=
    Store.read_of_locate (Store.locate_eq_ok_iff.2 ⟨offset, hoffset, hfield, rfl⟩)
  found i t field offset hi hfits hoffset hfield := by
    have hl : S.store.LaidOut :=
      hs.of_layout_eq (by rw [h.refills]) fun t => by rw [h.type_eq]
    obtain ⟨htype, hlength⟩ := h.full i (by rw [h.count]; exact hi)
    have hsize : S.store.types.size = s.types.size := by rw [h.refills]
    rw [h.type, ← hsize] at htype
    have hplace := hl.place_lt (hfits.toExact hl.ordered) htype hoffset hfield
    obtain ⟨v, hv⟩ : ∃ v, A.value? i (offset + field) = some v := by
      refine ⟨_, List.getElem?_eq_getElem ?_⟩
      rw [hlength, h.type, ← h.type_eq]
      exact hplace.2
    rw [h.values] at hv
    refine ⟨v, ?_, hv⟩
    have hlocate : S.store.locate i t field = .ok (offset + field) :=
      Store.locate_eq_ok_iff.2 ⟨offset, hoffset, hfield, hplace.1.symm⟩
    rw [Store.read_of_locate hlocate, hv]
    rfl
  refused := S.leaves_perform

/-- An instance whose first field is reached through its type, its position and two cells. -/
def aliasedField : List Access :=
  [.make ⟨2⟩ [.ofNat 1, .ofNat 2, .void, .void, .void], .cell ⟨0⟩ ⟨0⟩ 0, .cell ⟨0⟩ ⟨0⟩ 1,
    .cell ⟨0⟩ ⟨0⟩ 0, .write ⟨0⟩ ⟨0⟩ 0 (.ofNat 3), .readCell 0, .writeCell 2 (.ofNat 4),
    .read ⟨0⟩ ⟨0⟩ 0, .readAt ⟨0⟩ 0, .read ⟨0⟩ ⟨0⟩ 1, .writeAt ⟨0⟩ 5 .void]

/-- Fields that wrapped around are found behind the end of the storage. -/
example : (observe Storage.perform [.make ⟨1⟩ [], .read ⟨0⟩ ⟨0⟩ 0, .readAt ⟨0⟩ 0]
    ⟨Store.wrappingChain, []⟩).1 = [.made ⟨0⟩, .refused .outOfBounds, .content none] := rfl

end Storage

end Records
