import Records.Proofs.Attachment.Designation
import Records.Proofs.Computation.Relying
import Records.Proofs.Instance.Persistence
import Records.Proofs.Registry.Closed

/-!
# Designations that agree with properties

A type records twice how its instances are applied: as the value of the property of procedures and
as its designation. Attachment takes both from one value, which is checked at that moment. A field
index stays in range, and what can be applied can be applied later on, so what was checked holds
for good; a subtype without a value of its own takes both records over from its super type.

## Main definitions

* `Attached.Agrees`: the two records of what was attached so far.
* `Store.Agrees`: the two records of a type.

## Main statements

* `reliesOnHost_attachAll`: attachment keeps the two records in step, as long as values that are
  handed in are there.
* `Store.Agrees.publish`: they are in step when what was attached becomes visible.
-/

namespace Records

variable {s s' : Store} {t : TypeId} {a a' : Attached} {p : PropertyId} {v : Value}
  {d : Designation} {i : Nat} {plan : Plan}

/-! ### Values that designate -/

lemma Value.ofNat_of_index? (h : v.index? = some i) : Value.ofNat i = v := by
  obtain ⟨n, rfl, hn⟩ := Value.index?_eq_some_iff.1 h
  rw [Value.ofNat, ← Int64.ofInt_eq_ofNat, ← hn, Int64.ofInt_toInt]

namespace Store

/-- A designation is declared by the value it stands for, which is the number of the field or can
be applied. -/
lemma designation_eq_ok (h : s.designation v = .ok d) :
    d.toValue = v ∧ ∀ w, d = .procedure w → s.isCallable w := by
  unfold designation at h
  split at h
  · rename_i hindex
    cases h
    exact ⟨Value.ofNat_of_index? hindex, nofun⟩
  · cases h
  · split at h
    · rename_i hcallable
      cases h
      refine ⟨rfl, ?_⟩
      rintro _ ⟨⟩
      exact hcallable
    · cases h

/-- A value of the property of procedures is bound together with the designation it stands for. -/
lemma bindProperty_procedure_eq_ok (h : s.bindProperty t a Property.procedure v = .ok a') :
    a' = a ∨ bindingOf a.bindings Property.procedure = none ∧
      ∃ d, s.ownDesignation t v = .ok d ∧
        a' = ⟨a.bindings ++ [(Property.procedure, v)], some d⟩ := by
  unfold bindProperty at h
  cases hbound : bindingOf a.bindings Property.procedure with
  | some existing =>
    simp only [hbound] at h
    split at h
    · cases h
      exact .inl rfl
    · cases h
  | none =>
    simp only [hbound, if_true] at h
    cases hd : s.ownDesignation t v with
    | error c =>
      rw [hd] at h
      cases h
    | ok d =>
      rw [hd] at h
      cases h
      exact .inr ⟨rfl, d, rfl, rfl⟩

/-- Any other value leaves the two records alone. -/
lemma bindProperty_eq_ok_of_ne (hp : p ≠ Property.procedure)
    (h : s.bindProperty t a p v = .ok a') :
    bindingOf a'.bindings Property.procedure = bindingOf a.bindings Property.procedure ∧
      a'.designation = a.designation := by
  rcases bindProperty_eq_ok h with rfl | ⟨-, hbindings, hsame | ⟨hprocedure, -⟩⟩
  · exact ⟨rfl, rfl⟩
  · have hnone : bindingOf [(p, v)] Property.procedure = none :=
      bindingOf_eq_none_iff.2 (List.forall_mem_singleton.2 hp)
    refine ⟨?_, hsame⟩
    rw [hbindings, bindingOf_append, hnone, Option.or_none]
  · exact absurd hprocedure hp

end Store

/-! ### Attachment -/

/-- What was attached to a type so far has a designation exactly if the property of procedures is
bound, to the value of the designation; and the designation is good. -/
structure Attached.Agrees (a : Attached) (s : Store) (t : TypeId) : Prop where
  value : bindingOf a.bindings Property.procedure = a.designation.map Designation.toValue
  field : ∀ i, a.designation = some (.field i) → i < (s.type t).initCount
  callable : ∀ v, a.designation = some (.procedure v) → s.isCallable v ∧ s.Has v

/-- A type with init fields is there, and has the same ones later on. -/
lemma Store.Evolves.lt_initCount (hs : s.Evolves s') (hi : i < (s.type t).initCount) :
    i < (s'.type t).initCount := by
  have hlt : t.index < s.types.size := by
    by_contra hge
    rw [type_of_size_le (Nat.not_lt.1 hge)] at hi
    cases hi
  rw [RecordType.eq_of_layout (·.initCount) (fun _ => rfl) (hs.layout t hlt)]
  exact hi

namespace Attached.Agrees

lemma empty (s : Store) (t : TypeId) : ({} : Attached).Agrees s t := ⟨rfl, nofun, nofun⟩

lemma persists (h : a.Agrees s t) (hs : s.Persists s') : a.Agrees s' t where
  value := h.value
  field i hi := hs.evolves.lt_initCount (h.field i hi)
  callable v hv := by
    obtain ⟨hcallable, hhas⟩ := h.callable v hv
    exact ⟨hs.isCallable hhas hcallable, hs.has hhas⟩

/-- Binding a value keeps the two records in step. -/
lemma bindProperty (h : a.Agrees s t) (hv : s.Has v) (hbind : s.bindProperty t a p v = .ok a') :
    a'.Agrees s t := by
  by_cases hp : p = Property.procedure
  · subst hp
    rcases Store.bindProperty_procedure_eq_ok hbind with rfl | ⟨hnone, d, hd, rfl⟩
    · exact h
    · obtain ⟨hdesignation, hfield⟩ := Store.ownDesignation_eq_ok hd
      obtain ⟨hvalue, hcallable⟩ := Store.designation_eq_ok hdesignation
      refine ⟨?_, ?_, ?_⟩
      · show bindingOf (a.bindings ++ [(Property.procedure, v)]) Property.procedure = some d.toValue
        rw [bindingOf_append, hnone, Option.none_or, hvalue]
        rfl
      · rintro i ⟨⟩
        exact hfield i rfl
      · rintro w ⟨⟩
        obtain rfl : w = v := hvalue
        exact ⟨hcallable w rfl, hv⟩
  · obtain ⟨hbinding, hdesignation⟩ := Store.bindProperty_eq_ok_of_ne hp hbind
    refine ⟨?_, ?_, ?_⟩
    · rw [hbinding, hdesignation]
      exact h.value
    · rw [hdesignation]
      exact h.field
    · rw [hdesignation]
      exact h.callable

end Attached.Agrees

/-- Hosts let instances persist, and give back values that are there. -/
abbrev Computation.ReliesOnHost {α : Type} (Q : α → Store → Prop) (c : Computation α) (s : Store) :
    Prop :=
  c.Relies Store.Persists Store.Has Q s

lemma reliesOnHost_settle (p : PropertyId) (procedure : Value) (args : List Value) (s : Store) :
    (settle p procedure args).ReliesOnHost (fun v s => s.Has v) s := by
  intro results s₁ _ hresults
  refine Computation.Relies.get_bind (Computation.Relies.liftM fun v hv => hresults v ?_)
  rcases results with _ | ⟨w, _ | _⟩
  · cases hv
  · cases hv
    exact List.mem_singleton_self _
  · cases hv

/-- The value of an entry is there when it is bound, be it derived or replaced by a guard. -/
lemma reliesOnHost_attachEntry (ha : a.Agrees s t) {e : Entry} (he : s.Has e.value) :
    (attachEntry t a e).ReliesOnHost (fun a' s => a'.Agrees s t) s := by
  refine Computation.Relies.bind (Q := fun v s => s.Has v) ?_ fun v s₁ hs₁ hv =>
    Computation.Relies.bind (Q := fun v s => s.Has v) ?_ fun w s₂ hs₂ hw => ?_
  · unfold deriveValue
    cases e.source.bind (bindingOf a.bindings) with
    | none => exact he
    | some input => exact reliesOnHost_settle _ _ _ s
  · refine Computation.Relies.get_bind ?_
    cases (s₁.property e.property).guard with
    | none => exact hv
    | some guard => exact reliesOnHost_settle _ _ _ s₁
  · have ha₂ := (ha.persists hs₁).persists hs₂
    exact Computation.Relies.get_bind
      (Computation.Relies.liftM fun a' ha' => ha₂.bindProperty hw ha')

lemma reliesOnHost_attachEntries {entries : List Entry} (ha : a.Agrees s t)
    (hentries : ∀ e ∈ entries, s.Has e.value) :
    (attachEntries t entries a).ReliesOnHost (fun a' s => a'.Agrees s t) s := by
  induction entries generalizing a s with
  | nil => exact ha
  | cons e rest ih =>
    obtain ⟨he, hrest⟩ := List.forall_mem_cons.1 hentries
    refine (reliesOnHost_attachEntry ha he).bind fun a₁ s₁ hs₁ ha₁ => ?_
    exact ih ha₁ fun e' he' => hs₁.has (hrest e' he')

/-- Attachment keeps the two records in step. -/
lemma reliesOnHost_attachAll (t : TypeId) {declared : List (PropertyId × Value)}
    {procedure : Option Value} (hentries : ∀ e ∈ s.entries declared procedure, s.Has e.value) :
    (attachAll t declared procedure).ReliesOnHost (fun a s => a.Agrees s t) s := by
  refine Computation.Relies.get_bind ?_
  refine Computation.Relies.bind (Q := fun _ _ => True)
    (Computation.Relies.liftM fun _ _ => trivial) fun _ s₁ hs₁ _ => ?_
  exact reliesOnHost_attachEntries (.empty s₁ t) fun e he => hs₁.has (hentries e he)

/-- What was attached for a plan agrees with the type it was attached to. -/
def Plan.Agrees (plan : Plan) (a : Attached) (s : Store) : Prop :=
  ∀ t, plan.target? = some t → a.Agrees s t

lemma Plan.reliesOnHost_attachment (plan : Plan) {d : Declaration}
    (hentries : ∀ e ∈ s.entries d.properties d.procedure, s.Has e.value) :
    (plan.attachment d).ReliesOnHost plan.Agrees s := by
  cases plan with
  | keep t => exact fun _ => nofun
  | attach t =>
    refine (reliesOnHost_attachAll t hentries).mono fun a s ha => ?_
    rintro _ ⟨⟩
    exact ha
  | compare t c =>
    have hdeclared : ∀ e ∈ s.entries d.properties none, s.Has e.value := by
      intro e he
      rw [Store.entries, Option.elim_none, List.append_nil] at he
      exact hentries e (List.mem_append_left _ he)
    refine (reliesOnHost_attachAll c hdeclared).mono fun a s ha => ?_
    rintro _ ⟨⟩
    exact ha

/-! ### Publishing -/

/-- A designation that becomes visible was attached, or is the one of the super type. -/
lemma procedure?_publish_eq_some {b : ProcedureBinding} (hpending : (s.type t).resolution = none)
    (h : ((s.type t).publish (s.resolve t a)).procedure? = some b) :
    (∃ d, a.designation = some d ∧ b = ⟨d, t⟩) ∨
      ∃ u, (s.type t).superType = some u ∧ (s.type u).procedure? = some b := by
  rw [Session.procedure?_publish hpending] at h
  cases ha : a.designation with
  | some d =>
    rw [ha] at h
    cases h
    exact .inl ⟨d, rfl, rfl⟩
  | none =>
    rw [ha] at h
    exact .inr (Option.bind_eq_some_iff.1 h)

/-- So does the value that was bound, or else the one of the super type. -/
lemma propertyValue?_publish (hpending : (s.type t).resolution = none) (a : Attached)
    (p : PropertyId) :
    ((s.type t).publish (s.resolve t a)).propertyValue? p = (bindingOf a.bindings p).or
      ((s.type t).superType.bind fun u => (s.type u).propertyValue? p) := by
  have hsuper : ((s.type t).publish (s.resolve t a)).superType = (s.type t).superType :=
    RecordType.eq_of_layout (·.superType) (fun _ => rfl) (RecordType.layout_publish _ _)
  rw [RecordType.propertyValue?, Session.properties_publish hpending, bindingOf_append, hsuper]
  cases (s.type t).superType with
  | none => rfl
  | some u => rfl

namespace Store

/-- The two records of a type are in step, and its designation is good: it is of the type itself or
the one of the super type, a designated field is an init field of its source, and a designated
procedure can be applied. -/
structure Agrees (s : Store) (t : TypeId) : Prop where
  value : (s.type t).procedure?.map (·.designation.toValue) =
    (s.type t).propertyValue? Property.procedure
  origin : ∀ b, (s.type t).procedure? = some b → b.source = t ∨
    ∃ u, (s.type t).superType = some u ∧ (s.type u).procedure? = some b
  field : ∀ i source, (s.type t).procedure? = some ⟨.field i, source⟩ →
    i < (s.type source).initCount
  callable : ∀ v source, (s.type t).procedure? = some ⟨.procedure v, source⟩ →
    s.isCallable v ∧ s.Has v

namespace Agrees

/-- A pending type has neither record. -/
lemma of_pending (h : (s.type t).resolution = none) : s.Agrees t := by
  have hprocedure : (s.type t).procedure? = none := by
    rw [RecordType.procedure?, h]
    rfl
  have hproperties : (s.type t).properties = [] := by
    rw [RecordType.properties, h]
  refine ⟨?_, ?_, ?_, ?_⟩
  · rw [hprocedure, RecordType.propertyValue?, hproperties]
    rfl
  all_goals simp [hprocedure]

lemma persists (h : s.Agrees t) (hs : s.Persists s') (htype : s'.type t = s.type t) :
    s'.Agrees t where
  value := by
    rw [htype]
    exact h.value
  origin b hb := by
    rw [htype] at hb ⊢
    refine (h.origin b hb).imp_right ?_
    rintro ⟨u, hu, hub⟩
    have hfinal := RecordType.isFinalized_of_procedure? hub
    refine ⟨u, hu, ?_⟩
    rw [hs.evolves.finalized u (lt_of_isFinalized hfinal) hfinal]
    exact hub
  field i source hi := by
    rw [htype] at hi
    exact hs.evolves.lt_initCount (h.field i source hi)
  callable v source hv := by
    rw [htype] at hv
    obtain ⟨hcallable, hhas⟩ := h.callable v source hv
    exact ⟨hs.isCallable hhas hcallable, hs.has hhas⟩

/-- Pending types that are added leave all types in step. -/
lemma addsPending (h : s.Agrees t) (hs : s.Persists s') (hadds : s.AddsPending s') :
    s'.Agrees t := by
  rcases Nat.lt_or_ge t.index s.types.size with hlt | hge
  · exact h.persists hs (hadds.enlarges.type t hlt)
  · exact of_pending (hadds.pending t hge)

/-- What becomes visible of a pending type is in step: what was attached to it is, and so is what it
takes over from its super type. -/
lemma publish_self (h : ∀ u, s.Agrees u) (ha : a.Agrees s t) (hlt : t.index < s.types.size)
    (hpending : (s.type t).resolution = none) : (s.publish t (s.resolve t a)).Agrees t := by
  have hpersists := Persists.publish s t (s.resolve t a)
  have htype := type_publish_self hlt (s.resolve t a)
  have hcases : ∀ b, ((s.publish t (s.resolve t a)).type t).procedure? = some b →
      (∃ d, a.designation = some d ∧ b = ⟨d, t⟩) ∨
        ∃ u, (s.type t).superType = some u ∧ (s.type u).procedure? = some b := by
    intro b hb
    rw [htype] at hb
    exact procedure?_publish_eq_some hpending hb
  refine ⟨?_, fun b hb => ?_, fun i source hi => ?_, fun v source hv => ?_⟩
  · rw [htype, Session.procedure?_publish hpending, propertyValue?_publish hpending, ha.value]
    cases a.designation with
    | some d => rfl
    | none =>
      cases (s.type t).superType with
      | none => rfl
      | some u => exact (h u).value
  · rcases hcases b hb with ⟨d, -, rfl⟩ | ⟨u, hu, hub⟩
    · exact .inl rfl
    · have hfinal := RecordType.isFinalized_of_procedure? hub
      refine .inr ⟨u, ?_, ?_⟩
      · rw [RecordType.eq_of_layout (·.superType) (fun _ => rfl) (layout_publish _ _ _ _)]
        exact hu
      · rw [hpersists.evolves.finalized u (lt_of_isFinalized hfinal) hfinal]
        exact hub
  · refine hpersists.evolves.lt_initCount ?_
    rcases hcases _ hi with ⟨d, hd, heq⟩ | ⟨u, -, hu⟩
    · cases heq
      exact ha.field i hd
    · exact (h u).field i source hu
  · have hgood : s.isCallable v ∧ s.Has v := by
      rcases hcases _ hv with ⟨d, hd, heq⟩ | ⟨u, -, hu⟩
      · cases heq
        exact ha.callable v hd
      · exact (h u).callable v source hu
    obtain ⟨hcallable, hhas⟩ := hgood
    exact ⟨hpersists.isCallable hhas hcallable, hpersists.has hhas⟩

/-- All types are in step after one was resolved, be it for the first time or once more. -/
lemma publish (h : ∀ u, s.Agrees u) (ha : a.Agrees s t) (u : TypeId) :
    (s.publish t (s.resolve t a)).Agrees u := by
  by_cases hnew : t = u ∧ t.index < s.types.size ∧ (s.type t).resolution = none
  · obtain ⟨rfl, hlt, hpending⟩ := hnew
    exact publish_self h ha hlt hpending
  · refine (h u).persists (.publish s t _) ?_
    rw [type_publish]
    split
    · rename_i heq
      obtain ⟨rfl, hlt⟩ := heq
      refine RecordType.publish_of_finalized ?_ _
      rw [RecordType.isFinalized, Option.isSome_iff_ne_none]
      exact fun hpending => hnew ⟨rfl, hlt, hpending⟩
    · rfl

/-- The source of a designation is in the chain of the type. -/
lemma source_mem_ancestry (h : ∀ u, s.Agrees u) (hs : s.Ordered) {b : ProcedureBinding}
    (hb : (s.type t).procedure? = some b) : b.source ∈ s.ancestry t := by
  revert hb
  refine hs.induction_on (P := fun t => (s.type t).procedure? = some b → b.source ∈ s.ancestry t) t
    fun t ih hb => ?_
  rw [hs.ancestry_eq]
  rcases (h t).origin b hb with hsource | ⟨u, hu, hub⟩
  · rw [hsource]
    exact List.mem_cons_self
  · rw [hu]
    exact List.mem_cons_of_mem _ (ih u hu hub)

end Agrees

end Store

end Records
