import Records.Attachment
import Records.Proofs.Computation.Advance

/-!
# Entries settled one after the other

An attachment keeps its place in a list of entries, writes values into it and takes up its walk
behind each call. This comes to settling the entries in order: what is left of the list tells all
that is still to do, and an entry that was written to is settled as one whose value was never to be
derived.

## Main definitions

* `attachEntry` settles one entry, `attachEntries` a list of them.

## Main statements

* `Attachment.proceed_eq`: from the current entry on, the walk settles what is left of the list.
-/

namespace Records

/-! ### Settling an entry -/

/-- The single result of a call that settles the value of a property. -/
def settle (p : PropertyId) (procedure : Value) (args : List Value) : Computation Value := do
  let results ← Computation.apply procedure args
  single ((← get : Store).propertyName p ++ " guard") results

/-- The value of an entry, derived from its source if it has one. -/
def deriveValue (a : Attached) (e : Entry) : Computation Value :=
  match e.source.bind (bindingOf a.bindings) with
  | some input => settle e.property e.value [input]
  | none => return e.value

/-- The value of a property as its guard leaves it. -/
def guardValue (t : TypeId) (p : PropertyId) (v : Value) : Computation Value := do
  let s ← get
  match (s.property p).guard with
  | some guard => settle p guard [v, .list (s.reflectiveInfo t)]
  | none => return v

/-- Settle one entry: derive its value, guard it, and bind it. -/
def attachEntry (t : TypeId) (a : Attached) (e : Entry) : Computation Attached := do
  let v ← deriveValue a e
  let v ← guardValue t e.property v
  (← get : Store).bindProperty t a e.property v

/-- Settle entries one after the other. -/
def attachEntries (t : TypeId) : List Entry → Attached → Computation Attached
  | [], a => return a
  | e :: rest, a => do attachEntries t rest (← attachEntry t a e)

namespace Attachment

variable {m : Attachment} {e : Entry} {rest : List Entry} {v : Value} {checked : Bool}

/-! ### What is left of the list -/

/-- The entries from the current one on. -/
def ahead (m : Attachment) : List Entry := m.entries.drop m.index

lemma getElem?_of_ahead (h : m.ahead = e :: rest) : m.entries[m.index]? = some e := by
  rw [← List.head?_drop, ← ahead, h, List.head?_cons]

lemma ahead_next (h : m.ahead = e :: rest) (a : Attached) : (m.next a).ahead = rest := by
  show m.entries.drop (m.index + 1) = rest
  rw [← List.drop_drop, ← ahead, h, List.drop_one, List.tail_cons]

/-- A value that is saved takes the place of the one that the current entry had. -/
lemma ahead_save (h : m.ahead = e :: rest) :
    (m.save v checked).ahead = { e with value := v, source := none } :: rest := by
  have hentry := getElem?_of_ahead h
  show (m.entries.modify m.index _).drop m.index = _
  refine List.ext_getElem? fun i => ?_
  rw [List.getElem?_drop, List.getElem?_modify]
  cases i with
  | zero => simp [hentry]
  | succ i =>
    have hrest := congrArg (·[i + 1]?) h
    rw [ahead, List.getElem?_drop] at hrest
    simp [hrest]

/-! ### One entry -/

lemma proceed_of_none (h : m.entries[m.index]? = none) : m.proceed = m.inherit := by
  rw [proceed]
  split
  · rfl
  · rename_i heq
    rw [h] at heq
    cases heq

/-- What the walk does at an entry. -/
lemma proceed_of_some (h : m.entries[m.index]? = some e) :
    m.proceed = (match e.source.bind (bindingOf m.attached.bindings) with
      | some input => Computation.apply e.value [input] >>= SaveProperty.resume ⟨m, false⟩
      | none =>
        if m.checked then m.finalize e >>= fun a => (m.next a).proceed
        else (do
          let s ← get
          match (s.property e.property).guard with
          | some guard =>
            Computation.apply guard [e.value, .list (s.reflectiveInfo m.type)] >>=
              SaveProperty.resume ⟨m, true⟩
          | none => m.finalize e >>= fun a => (m.next a).proceed)) := by
  rw [proceed]
  split
  · rename_i heq
    rw [h] at heq
    cases heq
  · rename_i heq
    obtain rfl := Option.some.inj (h.symm.trans heq)
    split
    · rename_i hinput
      rw [hinput]
    · rename_i hinput
      rw [hinput]
      split <;> rfl

/-- What goes on with a call settles its single result, and takes up the walk. -/
lemma resume_eq (h : m.entries[m.index]? = some e) (procedure : Value) (args : List Value)
    (checked : Bool) :
    Computation.apply procedure args >>= SaveProperty.resume ⟨m, checked⟩ =
      settle e.property procedure args >>= fun v => (m.save v checked).proceed := by
  simp only [settle, bind_assoc]
  refine bind_congr fun results => ?_
  rw [SaveProperty.resume]
  simp only [SaveProperty.context, h]

section

-- what becomes of the rest of the list, once the current entry is settled
variable {next : Attached → Computation Unit} (h : m.ahead = e :: rest)
  (hnext : ∀ m' : Attachment, m'.type = m.type → m'.ahead = rest → m'.checked = false →
    m'.proceed = next m'.attached)
include h hnext

lemma finalize_bind_proceed :
    (m.finalize e >>= fun a => (m.next a).proceed) = m.finalize e >>= next :=
  bind_congr fun a => hnext (m.next a) rfl (ahead_next h a) rfl

/-- A value that its guard has had its say about is bound. -/
lemma proceed_of_checked (hsource : e.source = none) (hchecked : m.checked) :
    m.proceed = m.finalize e >>= next := by
  rw [proceed_of_some (getElem?_of_ahead h), hsource, Option.bind_none,
    ← finalize_bind_proceed h hnext]
  exact if_pos hchecked

/-- The current entry with a value that its guard has had its say about. -/
lemma proceed_save_checked (v : Value) :
    (m.save v true).proceed =
      (do (← get : Store).bindProperty m.type m.attached e.property v) >>= next :=
  proceed_of_checked (m := m.save v true) (ahead_save h) hnext rfl rfl

/-- A value that is not to be derived any more is guarded and bound. -/
lemma proceed_of_underived (hsource : e.source.bind (bindingOf m.attached.bindings) = none)
    (hchecked : m.checked = false) :
    m.proceed = (do
      let v ← guardValue m.type e.property e.value
      (← get : Store).bindProperty m.type m.attached e.property v) >>= next := by
  rw [proceed_of_some (getElem?_of_ahead h), hsource, hchecked, finalize_bind_proceed h hnext]
  simp only [guardValue, bind_assoc]
  refine bind_congr fun s => ?_
  cases (s.property e.property).guard with
  | none => rfl
  | some guard =>
    simp only [resume_eq (getElem?_of_ahead h)]
    refine bind_congr fun v => ?_
    rw [proceed_save_checked h hnext, bind_assoc]

/-- An entry is settled, whether its value is saved on the way or not. -/
lemma proceed_of_entry (hchecked : m.checked = false) :
    m.proceed = attachEntry m.type m.attached e >>= next := by
  rw [attachEntry]
  cases hsource : e.source.bind (bindingOf m.attached.bindings) with
  | none =>
    rw [proceed_of_underived h hnext hsource hchecked, deriveValue, hsource]
    rfl
  | some input =>
    rw [proceed_of_some (getElem?_of_ahead h), hsource, deriveValue, hsource]
    simp only [resume_eq (getElem?_of_ahead h), bind_assoc]
    refine bind_congr fun v => ?_
    rw [proceed_of_underived (m := m.save v false) (ahead_save h) hnext rfl rfl]
    simp only [bind_assoc]
    rfl

end

/-- From the current entry on, the walk settles what is left of the list, and resolves the type. -/
theorem proceed_eq (hchecked : m.checked = false) :
    m.proceed = (do
      let a ← attachEntries m.type m.ahead m.attached
      let s ← get
      modifyType m.type (·.publish (s.resolve m.type a))) := by
  generalize hahead : m.ahead = entries
  induction entries generalizing m with
  | nil =>
    have hnone : m.entries[m.index]? = none := by
      rw [← List.head?_drop, ← ahead, hahead, List.head?_nil]
    rw [proceed_of_none hnone]
    rfl
  | cons e rest ih =>
    rw [attachEntries, bind_assoc]
    refine proceed_of_entry hahead (fun m' htype hrest hchecked' => ?_) hchecked
    rw [ih hchecked' hrest, htype]

end Attachment

end Records
