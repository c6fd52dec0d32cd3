import Records.Proofs.Attachment.Machine

/-!
# Attaching without publishing

Up to its end, attachment makes calls and looks at the store, and changes nothing.

## Main statements

* `attach_eq`: attachment ends with publishing what was attached.
* `Store.bindProperty_eq_ok`: what comes of binding a value.
* `onlyReads_attachAll`: until then it only reads.
-/

namespace Records

/-- Attach properties to a type without publishing them. -/
def attachAll (t : TypeId) (declared : List (PropertyId × Value)) (procedure : Option Value) :
    Computation Attached := do
  let s ← get
  s.checkDeclared t procedure.isSome (declared.map (·.1))
  attachEntries t (s.entries declared procedure) {}

lemma attach_eq (t : TypeId) (declared : List (PropertyId × Value)) (procedure : Option Value) :
    attach t declared procedure = (do
      let a ← attachAll t declared procedure
      let s ← get
      modifyType t (·.publish (s.resolve t a))) := by
  simp only [attach, attachAll, bind_assoc]
  refine bind_congr fun s => bind_congr fun _ => ?_
  exact Attachment.proceed_eq rfl

/-- A value that is bound stands behind the others, and a value of the property of procedures is
taken on as the designation; a property that has the value already is left as it is. -/
lemma Store.bindProperty_eq_ok {s : Store} {t : TypeId} {a a' : Attached} {p : PropertyId}
    {v : Value} (h : s.bindProperty t a p v = .ok a') :
    a' = a ∨ bindingOf a.bindings p = none ∧ a'.bindings = a.bindings ++ [(p, v)] ∧
      (a'.designation = a.designation ∨
        p = Property.procedure ∧ ∃ d, s.ownDesignation t v = .ok d ∧ a'.designation = some d) := by
  unfold bindProperty at h
  cases hp : bindingOf a.bindings p with
  | some existing =>
    simp only [hp] at h
    split at h
    · cases h
      exact .inl rfl
    · cases h
  | none =>
    simp only [hp] at h
    split at h
    · rename_i hprocedure
      cases hd : s.ownDesignation t v with
      | error c =>
        rw [hd] at h
        cases h
      | ok d =>
        rw [hd] at h
        cases h
        exact .inr ⟨rfl, rfl, .inr ⟨hprocedure, d, rfl, rfl⟩⟩
    · cases h
      exact .inr ⟨rfl, rfl, .inl rfl⟩

/-! ### Only reading -/

lemma onlyReads_settle (p : PropertyId) (procedure : Value) (args : List Value) (s : Store) :
    (settle p procedure args).OnlyReads s := by
  intro results s'
  exact Computation.OnlyReads.get_bind (Computation.OnlyReads.liftM _ s')

lemma onlyReads_attachEntry (t : TypeId) (a : Attached) (e : Entry) (s : Store) :
    (attachEntry t a e).OnlyReads s := by
  refine Computation.OnlyReads.bind ?_ fun v s => Computation.OnlyReads.bind ?_ fun v s => ?_
  · unfold deriveValue
    cases e.source.bind (bindingOf a.bindings) with
    | none => trivial
    | some input => exact onlyReads_settle _ _ _ s
  · refine Computation.OnlyReads.get_bind ?_
    cases (s.property e.property).guard with
    | none => trivial
    | some guard => exact onlyReads_settle _ _ _ s
  · exact Computation.OnlyReads.get_bind (Computation.OnlyReads.liftM _ s)

lemma onlyReads_attachEntries (t : TypeId) (entries : List Entry) (a : Attached) (s : Store) :
    (attachEntries t entries a).OnlyReads s := by
  induction entries generalizing a s with
  | nil => trivial
  | cons e rest ih => exact (onlyReads_attachEntry t a e s).bind fun a s => ih a s

lemma onlyReads_attachAll (t : TypeId) (declared : List (PropertyId × Value))
    (procedure : Option Value) (s : Store) : (attachAll t declared procedure).OnlyReads s := by
  refine Computation.OnlyReads.get_bind ?_
  exact (Computation.OnlyReads.liftM _ s).bind fun _ s => onlyReads_attachEntries t _ _ s

end Records
