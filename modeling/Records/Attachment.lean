import Records.Application
import Records.RecordType.Reflection

/-!
# Attachment of properties

A pending type takes on its declared properties in order, each followed by the properties it
implies. The value of an implied property is derived from the value just attached; a guard then
checks or replaces it. What the type does not bind itself it inherits from its super type, and
the whole list becomes visible at once.

All properties are first listed, each in front of those that it implies. An attachment then walks
the list. Where the current entry needs a procedure, the attachment waits for the call, and what
goes on with the results writes the value into the entry and takes up the walk there again.

## Main definitions

* `Store.expand` lists the entries that one declared property comes to.
* `Attachment` is where the walk stands.
* `Attachment.proceed` goes on with the current entry, and `SaveProperty.resume` with the results
  of its call.
* `attach` resolves a type.
-/

namespace Records

/-- A property about to be attached. -/
structure Entry where
  property : PropertyId
  /-- Its value, or the procedure that derives it. -/
  value : Value
  /-- The property the value is derived from. -/
  source : Option PropertyId := none

/-- What has been attached so far. -/
structure Attached where
  bindings : List (PropertyId × Value) := []
  designation : Option Designation := none

namespace Store

/-- An entry in front of the entries it implies, within a number of steps. -/
def expandWithin (s : Store) : Nat → Entry → List Entry
  | 0, e => [e]
  | n + 1, e =>
    e :: (s.property e.property).supers.flatMap fun b =>
      s.expandWithin n ⟨b.1, b.2, some e.property⟩

/-- An entry in front of the entries it implies. -/
def expand (s : Store) (e : Entry) : List Entry := s.expandWithin e.property.index e

/-- The entries of declared properties, and of a designation declared by itself, which binds the
property of procedures. -/
def entries (s : Store) (declared : List (PropertyId × Value)) (procedure : Option Value) :
    List Entry :=
  (declared.flatMap fun b => s.expand ⟨b.1, b.2, none⟩) ++
    (procedure.elim [] fun v => s.expand ⟨Property.procedure, v, none⟩)

/-- The refusal of a second binding. -/
def duplicateBinding (s : Store) (t : TypeId) (p : PropertyId) : Condition :=
  .duplicateProperty (s.typeName t) (s.propertyName p)

/-- A type binds the property of procedures once at most, and a checked procedure has two
fields; `bound` tells whether a procedure is bound already. -/
def checkDeclared (s : Store) (t : TypeId) : (bound : Bool) → List PropertyId →
    Except Condition Unit
  | _, [] => .ok ()
  | bound, p :: rest =>
    let procedure := s.isA p Property.procedure
    let total := (s.type t).totalCount
    if procedure && bound then
      .error (s.duplicateBinding t Property.procedure)
    else if s.isA p Property.checkedProcedure && total < 2 then
      .error (.tooFewFieldsForCheckedProcedure (s.typeName t) total)
    else
      s.checkDeclared t (bound || procedure) rest

/-- The designation a type takes on with a value of the property of procedures; a designated
field is an init field of its own. -/
def ownDesignation (s : Store) (t : TypeId) (v : Value) : Except Condition Designation := do
  let d ← s.designation v
  match d with
  | .procedure _ => return d
  | .field index =>
    if index < (s.type t).initCount then return d
    else .error (.fieldOutOfRange (s.typeName t) index (s.type t).initCount)

/-- Attach a value, unless the property has this value already. -/
def bindProperty (s : Store) (t : TypeId) (a : Attached) (p : PropertyId) (v : Value) :
    Except Condition Attached :=
  match bindingOf a.bindings p with
  | some existing =>
    if existing == v then .ok a else .error (s.duplicateBinding t p)
  | none => do
    let bindings := a.bindings ++ [(p, v)]
    if p = Property.procedure then
      return ⟨bindings, some (← s.ownDesignation t v)⟩
    else
      return { a with bindings }

end Store

/-- Own bindings in front of inherited ones, and the designation of the super type where the
type has none of its own. -/
def Store.resolve (s : Store) (t : TypeId) (a : Attached) : Resolution :=
  let super := (s.type t).superType.map s.type
  { properties := a.bindings ++ super.elim [] (·.properties)
    procedure :=
      match a.designation with
      | some d => some ⟨d, t⟩
      | none => super.bind (·.procedure?) }

/-! ### The walk -/

/-- Where the attachment of properties to a type stands. -/
structure Attachment where
  type : TypeId
  /-- The entries of all properties; those before the current one are settled. -/
  entries : List Entry
  /-- The position of the current entry. -/
  index : Nat := 0
  /-- Whether the guard of the current entry has had its say. -/
  checked : Bool := false
  attached : Attached := {}

/-- What goes on with the results of a call: an attachment waits for the value of its current
entry, which the guard has had its say about or not. -/
structure SaveProperty where
  state : Attachment
  checked : Bool

namespace Attachment

/-- The current entry, which has a value of its own from now on. -/
def save (m : Attachment) (v : Value) (checked : Bool) : Attachment :=
  { m with
    entries := m.entries.modify m.index fun e => { e with value := v, source := none }
    checked }

/-- The next entry, once the current one is settled. -/
def next (m : Attachment) (a : Attached) : Attachment :=
  { m with index := m.index + 1, checked := false, attached := a }

/-- Bind the value of an entry. -/
def finalize (m : Attachment) (e : Entry) : Computation Attached := do
  (← get : Store).bindProperty m.type m.attached e.property e.value

/-- Resolve the type, once all entries are settled. -/
def inherit (m : Attachment) : Computation Unit := do
  let s ← get
  modifyType m.type (·.publish (s.resolve m.type m.attached))

/-- What the current entry has yet to go through: to be derived, and to be guarded. -/
def phase (m : Attachment) : Nat :=
  (if (m.entries[m.index]?.bind (·.source)).isSome then 2 else 0) + if m.checked then 0 else 1

/-- A measure of what is left to do. -/
def work (m : Attachment) : Nat := 4 * (m.entries.length - m.index) + m.phase

theorem work_next_lt {m : Attachment} {e : Entry} (h : m.entries[m.index]? = some e)
    (a : Attached) : (m.next a).work < m.work := by
  have hindex := (List.getElem?_eq_some_iff.1 h).1
  have hphase : (m.next a).phase ≤ 3 := by
    unfold phase
    split <;> split <;> decide
  show 4 * (m.entries.length - (m.index + 1)) + (m.next a).phase < m.work
  rw [work]
  omega

end Attachment

namespace SaveProperty

/-- What names the call whose results are awaited. -/
def context (k : SaveProperty) (s : Store) : String :=
  match k.state.entries[k.state.index]? with
  | some e => s.propertyName e.property ++ " guard"
  | none => "property guard"

/-- A measure of what is left to do behind the call. -/
def work (k : SaveProperty) : Nat :=
  4 * (k.state.entries.length - k.state.index) + if k.checked then 0 else 1

theorem work_derived_lt {m : Attachment} {e : Entry} (h : m.entries[m.index]? = some e)
    (hsource : e.source.isSome) : (mk m false).work < m.work := by
  have hphase : 2 ≤ m.phase := by simp [Attachment.phase, h, hsource]
  show 4 * (m.entries.length - m.index) + 1 < m.work
  rw [Attachment.work]
  omega

theorem work_guarded_lt {m : Attachment} (h : ¬m.checked) : (mk m true).work < m.work := by
  have hphase : 1 ≤ m.phase := by simp [Attachment.phase, h]
  show 4 * (m.entries.length - m.index) + 0 < m.work
  rw [Attachment.work]
  omega

theorem work_save_le (k : SaveProperty) (v : Value) :
    (k.state.save v k.checked).work ≤ k.work := by
  have hsource : ((k.state.save v k.checked).entries[k.state.index]?.bind (·.source)) = none := by
    rw [Attachment.save, List.getElem?_modify_eq]
    cases k.state.entries[k.state.index]? <;> rfl
  have hphase : (k.state.save v k.checked).phase = if k.checked then 0 else 1 := by
    show (if ((k.state.save v k.checked).entries[k.state.index]?.bind _).isSome then 2 else 0) +
      _ = _
    rw [hsource]
    exact Nat.zero_add _
  refine Nat.le_of_eq ?_
  rw [Attachment.work, hphase, work, Attachment.save, List.length_modify]

end SaveProperty

mutual

/-- Go on with the current entry: derive its value, guard it, bind it, and turn to the next one. -/
def Attachment.proceed (m : Attachment) : Computation Unit :=
  match _h : m.entries[m.index]? with
  | none => m.inherit
  | some e =>
    match _hinput : e.source.bind (bindingOf m.attached.bindings) with
    | some input => do
      SaveProperty.resume ⟨m, false⟩ (← Computation.apply e.value [input])
    | none =>
      if _hchecked : m.checked then do
        Attachment.proceed (m.next (← m.finalize e))
      else do
        let s ← get
        match (s.property e.property).guard with
        | some guard =>
          let info := s.reflectiveInfo m.type
          SaveProperty.resume ⟨m, true⟩ (← Computation.apply guard [e.value, .list info])
        | none => Attachment.proceed (m.next (← m.finalize e))
termination_by 2 * m.work
decreasing_by
  · have hsource : e.source.isSome := by
      obtain ⟨source, hsource, -⟩ := Option.bind_eq_some_iff.1 _hinput
      exact Option.isSome_of_eq_some hsource
    have hwork := SaveProperty.work_derived_lt _h hsource
    omega
  · exact Nat.mul_lt_mul_of_pos_left (Attachment.work_next_lt _h _) (by decide)
  · have hwork := SaveProperty.work_guarded_lt _hchecked
    omega
  · exact Nat.mul_lt_mul_of_pos_left (Attachment.work_next_lt _h _) (by decide)

/-- Go on with the results of the call: save the value and take up the walk again. -/
def SaveProperty.resume (k : SaveProperty) (results : List Value) : Computation Unit := do
  let v ← single (k.context (← get)) results
  Attachment.proceed (k.state.save v k.checked)
termination_by 2 * k.work + 1
decreasing_by
  have hwork := k.work_save_le v
  omega

end

/-- Attach declared properties, and a designation declared by itself, to a type. A type that was
resolved in the meantime keeps what it has. -/
def attach (t : TypeId) (declared : List (PropertyId × Value)) (procedure : Option Value) :
    Computation Unit := do
  let s ← get
  s.checkDeclared t procedure.isSome (declared.map (·.1))
  Attachment.proceed { type := t, entries := s.entries declared procedure }

end Records
