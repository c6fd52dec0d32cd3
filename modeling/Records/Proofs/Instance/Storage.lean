import Records.Capability
import Records.Proofs.RecordType.Offset

/-!
# Accesses to the fields of instances

The ways in which fields are reached: through a type and a field index, through an absolute
position, through the capabilities of a type, and through cells that were obtained earlier. Some
accesses in a row are made to a store, whose slots are raw or boxed, and to plain arrays, where
an instance is the list of its contents and a cell is but the place it was obtained from. A field
whose position is behind the end of an array stops the program in either case.

## Main definitions

* `Storage.perform` makes an access to a store.
* `Arrays.perform` makes an access to plain arrays.
* `observe` makes accesses one after the other.
-/

namespace Records

/-- An access to the fields of instances. A cell is named by the number of cells that were
obtained before it. -/
inductive Access where
  /-- Make an instance from the contents of all its fields. -/
  | make (t : TypeId) (values : List Value)
  /-- Read a type's own field. -/
  | read (i : InstanceId) (t : TypeId) (field : Nat)
  /-- Write a type's own field. -/
  | write (i : InstanceId) (t : TypeId) (field : Nat) (v : Value)
  /-- Obtain the cell of a type's own field. -/
  | cell (i : InstanceId) (t : TypeId) (field : Nat)
  /-- Read at an absolute position. -/
  | readAt (i : InstanceId) (index : Nat)
  /-- Write at an absolute position. -/
  | writeAt (i : InstanceId) (index : Nat) (v : Value)
  /-- Read all fields. -/
  | values (i : InstanceId)
  /-- Write a field of a value through the mutator of a type. -/
  | mutate (t : TypeId) (target : Value) (field : Nat) (v : Value)
  /-- Write a field of a value through the mutator of that field. -/
  | mutateField (t : TypeId) (field : Nat) (label : Option Symbol) (target v : Value)
  /-- Read a cell. -/
  | readCell (cell : Nat)
  /-- Write a cell. -/
  | writeCell (cell : Nat) (v : Value)

/-- What is observed of an access. -/
inductive Observation where
  | made (i : InstanceId)
  | value (v : Value)
  /-- The content at an absolute position, if there is such a position. -/
  | content (v : Option Value)
  | contents (values : List Value)
  | written
  /-- Whether there was an absolute position to write at. -/
  | reached (there : Bool)
  | cell (number : Nat)
  | refused (e : Failure)
  /-- The access names something that is not there. -/
  | unknown

/-- The access failed. -/
def Observation.IsFailure : Observation → Prop
  | .refused _ | .unknown | .reached false => True
  | _ => False

/-- Whether the type and the instance that an access names are there, from the numbers of types
and instances. -/
def Access.known (types instances : Nat) : Access → Bool
  | .make t _ => t.index < types
  | .read i _ _ | .write i _ _ _ | .cell i _ _ | .readAt i _ | .writeAt i _ _ | .values i =>
    i.index < instances
  | .mutate _ target _ _ | .mutateField _ _ _ target _ =>
    target.record?.all fun i => i.index < instances
  | .readCell _ | .writeCell _ _ => true

/-- Make accesses one after the other, with what is observed of each. -/
def observe {σ : Type} (perform : σ → Access → Observation × σ) :
    List Access → σ → List Observation × σ
  | [], x => ([], x)
  | a :: rest, x =>
    let (o, x) := perform x a
    let (os, x) := observe perform rest x
    (o :: os, x)

/-! ### Accesses to a store -/

/-- A store and the cells that were obtained from it, the first one first. -/
structure Storage where
  store : Store
  cells : List CellId := []

namespace Storage

/-- Run an operation on the store. -/
def run {α : Type} (S : Storage) (m : StoreM α) (observed : α → Observation) :
    Observation × Storage :=
  match m.run S.store with
  | (.ok a, s) => (observed a, { S with store := s })
  | (.error e, s) => (.refused e, { S with store := s })

/-- Obtain a cell. -/
def obtain (S : Storage) (m : StoreM CellId) : Observation × Storage :=
  match m.run S.store with
  | (.ok c, s) => (.cell S.cells.length, ⟨s, S.cells ++ [c]⟩)
  | (.error e, s) => (.refused e, { S with store := s })

/-- Make an access that names only what is there. -/
def respond (S : Storage) : Access → Observation × Storage
  | .make t values => S.run (newInstance t values) .made
  | .read i t field => S.run (do (← get : Store).read i t field) .value
  | .write i t field v => S.run (writeField i t field v) fun _ => .written
  | .cell i t field => S.obtain (cellOf i t field)
  | .readAt i index => (.content (S.store.valueAt? i index), S)
  | .writeAt i index v => S.run (Records.writeAt i index v) .reached
  | .values i => (.contents (S.store.fieldValues i), S)
  | .mutate t target field v => S.run (Records.mutate t target field v) fun _ => .written
  | .mutateField t field label target v =>
    S.run (do
      let _ ← (← get : Store).fieldMutator t field label
      Records.mutate t target field v) fun _ => .written
  | .readCell n =>
    match S.cells[n]? with
    | some c => (.value (S.store.cell c), S)
    | none => (.unknown, S)
  | .writeCell n v =>
    match S.cells[n]? with
    | some c => S.run (setCell c v) fun _ => .written
    | none => (.unknown, S)

/-- Make an access. -/
def perform (S : Storage) (a : Access) : Observation × Storage :=
  if a.known S.store.types.size S.store.instances.size then S.respond a else (.unknown, S)

end Storage

/-! ### Accesses to plain arrays -/

/-- An instance: its exact type, and the contents of its fields. -/
structure Row where
  type : TypeId
  values : List Value
deriving Inhabited

/-- Instances, and the places that cells were obtained from: an instance and a position. -/
structure Arrays where
  rows : List Row := []
  cells : List (InstanceId × Nat) := []

namespace Arrays

/-- An instance. -/
def row (A : Arrays) (i : InstanceId) : Row := A.rows.getD i.index default

/-- The content at a position. -/
def value? (A : Arrays) (i : InstanceId) (index : Nat) : Option Value := (A.row i).values[index]?

/-- Write at a position. -/
def put (A : Arrays) (i : InstanceId) (index : Nat) (v : Value) : Arrays :=
  { A with rows := A.rows.modify i.index fun r => { r with values := r.values.set index v } }

/-- A store in which the instances have these contents. -/
def toStore (A : Arrays) (s : Store) : Store :=
  { s with instances :=
      (A.rows.map fun r => ⟨r.type, (r.values.map Slot.raw).toArray⟩).toArray }

/-- The position of a type's own field: it comes behind the fields that the type inherits, in
whatever instance. -/
def position (A : Arrays) (s : Store) (i : InstanceId) (t : TypeId) (field : Nat) :
    Except Condition Nat :=
  if s.isSubtype (A.row i).type t then
    if field < (s.type t).ownCount then
      .ok ((s.type (A.row i).type).count ((s.type t).ownBase + field))
    else .error (.fieldOutOfRange (s.typeName t) field (s.type t).ownCount)
  else
    .error (.foreignInstance (s.typeName t) (s.typeName (A.row i).type))

/-- Read at a position, which has to be there. -/
def look (A : Arrays) (i : InstanceId) (index : Nat) : Observation :=
  match A.value? i index with
  | some v => .value v
  | none => .refused .outOfBounds

/-- Write at a position, which has to be there. -/
def update (A : Arrays) (i : InstanceId) (index : Nat) (v : Value) : Observation × Arrays :=
  if index < (A.row i).values.length then (.written, A.put i index v)
  else (.refused .outOfBounds, A)

/-- Write a type's own field. -/
def write (A : Arrays) (s : Store) (i : InstanceId) (t : TypeId) (field : Nat) (v : Value) :
    Observation × Arrays :=
  match A.position s i t field with
  | .ok index => A.update i index v
  | .error c => (.refused (.condition c), A)

/-- Write a type's own field of a value, which has to be an instance, unless it is immutable. -/
def mutate (A : Arrays) (s : Store) (t : TypeId) (target : Value) (field : Nat) (v : Value) :
    Observation × Arrays :=
  match target.record? with
  | none =>
    (.refused (.condition (.contractViolation (s.typeName t ++ "-set!") (s.typeName t ++ "?")
      ((A.toStore s).display target))), A)
  | some i =>
    if (s.type t).isImmutable field then
      (.refused (.condition (.immutableField (s.typeName t) field)), A)
    else
      A.write s i t field v

/-- Make an access that names only what is there; the types are those of a store. -/
def respond (s : Store) (A : Arrays) : Access → Observation × Arrays
  | .make t values =>
    if values.length = (s.type t).totalCount then
      (.made ⟨A.rows.length⟩, { A with rows := A.rows ++ [⟨t, values⟩] })
    else
      (.refused (.condition (.arityMismatch (s.type t).constructorName.name
        (toString (s.type t).totalCount) values.length)), A)
  | .read i t field =>
    match A.position s i t field with
    | .ok index => (A.look i index, A)
    | .error c => (.refused (.condition c), A)
  | .write i t field v => A.write s i t field v
  | .cell i t field =>
    match A.position s i t field with
    | .ok index =>
      if index < (A.row i).values.length then
        (.cell A.cells.length, { A with cells := A.cells ++ [(i, index)] })
      else (.refused .outOfBounds, A)
    | .error c => (.refused (.condition c), A)
  | .readAt i index => (.content (A.value? i index), A)
  | .writeAt i index v =>
    if index < (A.row i).values.length then (.reached true, A.put i index v)
    else (.reached false, A)
  | .values i => (.contents (A.row i).values, A)
  | .mutate t target field v => A.mutate s t target field v
  | .mutateField t field _ target v =>
    if field < (s.type t).ownCount then A.mutate s t target field v
    else (.refused (.condition (.fieldOutOfRange (s.typeName t) field (s.type t).ownCount)), A)
  | .readCell n =>
    match A.cells[n]? with
    | some (i, index) => (A.look i index, A)
    | none => (.unknown, A)
  | .writeCell n v =>
    match A.cells[n]? with
    | some (i, index) => A.update i index v
    | none => (.unknown, A)

/-- Make an access. -/
def perform (s : Store) (A : Arrays) (a : Access) : Observation × Arrays :=
  if a.known s.types.size A.rows.length then A.respond s a else (.unknown, A)

/-! ### Contents of plain arrays -/

variable {A : Arrays} {i j : InstanceId} {index k : Nat} {v : Value}

lemma row_put (A : Arrays) (i j : InstanceId) (index : Nat) (v : Value) :
    (A.put i index v).row j =
      if i = j ∧ i.index < A.rows.length then
        { A.row j with values := (A.row j).values.set index v }
      else A.row j := by
  have hi : i = j ↔ i.index = j.index := by
    cases i
    cases j
    simp
  simp only [put, row, List.getD_eq_getElem?_getD, List.getElem?_modify, hi]
  by_cases h : i.index = j.index
  · by_cases hlt : i.index < A.rows.length <;> rw [h] at hlt <;> simp [h, hlt]
  · simp [h]

/-- There are contents only of instances that are there. -/
lemma lt_of_value? (h : A.value? i index = some v) : i.index < A.rows.length := by
  rcases Nat.lt_or_ge i.index A.rows.length with hlt | hge
  · exact hlt
  · have hnone : A.row i = default := by
      simp [row, List.getD_eq_getElem?_getD, List.getElem?_eq_none hge]
    rw [value?, hnone] at h
    cases h

lemma row_append (A : Arrays) (r : Row) (i : InstanceId) :
    ({ A with rows := A.rows ++ [r] } : Arrays).row i =
      if i.index = A.rows.length then r else A.row i := by
  simp only [row, List.getD_eq_getElem?_getD, List.getElem?_append]
  split
  · rename_i hlt
    rw [if_neg (Nat.ne_of_lt hlt)]
  · rename_i hge
    split
    · rename_i heq
      simp [heq]
    · rename_i hne
      have hbehind : A.rows.length ≤ i.index := Nat.le_of_not_lt hge
      have hout : [r].length ≤ i.index - A.rows.length := by
        rw [List.length_singleton]
        omega
      rw [List.getElem?_eq_none hbehind, List.getElem?_eq_none hout]

@[simp] lemma type_put (A : Arrays) (i j : InstanceId) (index : Nat) (v : Value) :
    ((A.put i index v).row j).type = (A.row j).type := by
  rw [row_put]
  split <;> rfl

@[simp] lemma length_put (A : Arrays) (i j : InstanceId) (index : Nat) (v : Value) :
    ((A.put i index v).row j).values.length = (A.row j).values.length := by
  rw [row_put]
  split
  · exact List.length_set
  · rfl

lemma value?_put (A : Arrays) (i j : InstanceId) (index k : Nat) (v : Value) :
    (A.put i index v).value? j k =
      if i = j ∧ index = k ∧ (A.value? i index).isSome then some v else A.value? j k := by
  by_cases hi : i = j
  · subst hi
    by_cases hk : index = k
    · subst hk
      cases hvalue : A.value? i index with
      | none =>
        rw [value?] at hvalue
        rw [value?, row_put]
        split <;> simp_all
      | some w =>
        have hlt := lt_of_value? hvalue
        rw [value?, List.getElem?_eq_some_iff] at hvalue
        obtain ⟨hindex, -⟩ := hvalue
        simp [value?, row_put, hlt, hindex]
    · rw [value?, row_put]
      split <;> simp [value?, hk]
  · simp [value?, row_put, hi]

/-- Writing what is there anyway. -/
lemma put_self (h : A.value? i index = some v) : A.put i index v = A := by
  have hrows : A.rows.modify i.index (fun r => { r with values := r.values.set index v }) =
      A.rows := by
    refine List.ext_getElem? fun n => ?_
    rw [List.getElem?_modify]
    rcases hr : A.rows[n]? with _ | r
    · rfl
    · by_cases hn : i.index = n
      · have hrow : A.row i = r := by
          rw [row, List.getD_eq_getElem?_getD, hn, hr]
          rfl
        rw [value?, hrow] at h
        obtain ⟨hlt, rfl⟩ := List.getElem?_eq_some_iff.1 h
        simp [hn]
      · simp [hn]
  rw [put, hrows]

end Arrays

end Records
