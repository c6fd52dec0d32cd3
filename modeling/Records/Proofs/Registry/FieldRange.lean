import Records.Proofs.Attachment.Designation
import Records.Proofs.Computation.Relying
import Records.Proofs.Registry.Identity
import Records.Proofs.Registry.Settlement

/-!
# Immutable fields that are out of range

An immutable field has to be an init field of its type. That is checked when a type is laid out,
and a declaration may be answered without laying one out: with the pending type of its structure,
or with the finalized one if there are no properties to compare. The structure leaves out the
fields that are out of range, so they pass unnoticed then.

## Main definitions

* `Declaration.inRange`: a declaration without the immutable fields that are out of range.
* `Store.SkipsLayout`: a declaration is answered without laying out a type.

## Main statements

* `define_fieldOutOfRange_iff`: a field that is out of range is refused exactly if a type is laid
  out for the declaration, and is as good as not listed otherwise.
-/

namespace Records

variable {s : Store} {r : RegistryId} {d : Declaration} {i : Nat} {t : TypeId}

/-! ### Laying out -/

/-- The first field of a list that is out of range is the one that is reported. -/
lemma Declaration.mapM_initField_eq_error {l : List Nat}
    (h : l.find? (d.initCount ≤ ·) = some i) :
    l.mapM d.initField = .error (.fieldOutOfRange d.name.name i d.initCount) := by
  induction l with
  | nil => cases h
  | cons j l ih =>
    rw [List.mapM_cons, initField]
    by_cases hj : d.initCount ≤ j
    · rw [List.find?_cons_of_pos (by simpa using hj)] at h
      cases h
      rw [if_neg (Nat.not_lt.2 hj)]
      rfl
    · rw [List.find?_cons_of_neg (by simpa using hj)] at h
      rw [if_pos (Nat.not_le.1 hj), ih h]
      rfl

/-- Immutable fields are the first thing that is checked of a declared type. -/
lemma Store.layOut_eq_error (s : Store) (h : d.immutables.find? (d.initCount ≤ ·) = some i) :
    s.layOut d = .error (.fieldOutOfRange d.name.name i d.initCount) := by
  rw [layOut, declaredImmutables, Declaration.mapM_initField_eq_error h]
  rfl

/-! ### Failures of attachment -/

/-- A field is reported as out of range. -/
def Failure.IsFieldRange : Failure → Prop
  | .condition (.fieldOutOfRange _ _ _) => True
  | _ => False

lemma raises_settle (p : PropertyId) (procedure : Value) (args : List Value) (s : Store) :
    (settle p procedure args).Raises (¬·.IsFieldRange) s := by
  intro results s'
  refine Computation.Raises.get_bind ?_
  rcases results with _ | ⟨v, _ | _⟩
  · exact id
  · trivial
  · exact id

/-- Only a designation is a field that may be out of range. -/
lemma Store.not_isFieldRange_bindProperty {a : Attached} {p : PropertyId} {v : Value}
    {c : Condition} (hp : p ≠ Property.procedure) (h : s.bindProperty t a p v = .error c) :
    ¬(Failure.condition c).IsFieldRange := by
  unfold bindProperty at h
  cases hexisting : bindingOf a.bindings p with
  | some existing =>
    simp only [hexisting] at h
    split at h
    · cases h
    · cases h
      exact id
  | none =>
    simp only [hexisting, hp, if_false] at h
    cases h

lemma raises_attachEntries (t : TypeId) {entries : List Entry}
    (hentries : ∀ e ∈ entries, e.property ≠ Property.procedure) (a : Attached) (s : Store) :
    (attachEntries t entries a).Raises (¬·.IsFieldRange) s := by
  induction entries generalizing a s with
  | nil => trivial
  | cons e rest ih =>
    obtain ⟨he, hrest⟩ := List.forall_mem_cons.1 hentries
    refine Computation.Raises.bind ?_ fun a s => ih hrest a s
    refine Computation.Raises.bind ?_ fun v s => Computation.Raises.bind ?_ fun v s => ?_
    · unfold deriveValue
      cases e.source.bind (bindingOf a.bindings) with
      | none => trivial
      | some input => exact raises_settle _ _ _ s
    · refine Computation.Raises.get_bind ?_
      cases (s.property e.property).guard with
      | none => trivial
      | some guard => exact raises_settle _ _ _ s
    · refine Computation.Raises.get_bind ?_
      exact Computation.Raises.liftM fun c hc => Store.not_isFieldRange_bindProperty he hc

lemma Store.not_isFieldRange_checkDeclared {bound : Bool} {declared : List PropertyId}
    {c : Condition} (h : s.checkDeclared t bound declared = .error c) :
    ¬(Failure.condition c).IsFieldRange := by
  induction declared generalizing bound with
  | nil => cases h
  | cons p rest ih =>
    rw [checkDeclared] at h
    split at h
    · cases h
      exact id
    · split at h
      · cases h
        exact id
      · exact ih h

/-- Without the property of procedures, attachment never finds a field out of range. -/
lemma raises_attach (t : TypeId) {declared : List (PropertyId × Value)}
    (hdeclared : ∀ b ∈ declared, s.isA b.1 Property.procedure = false) :
    (attach t declared none).Raises (¬·.IsFieldRange) s := by
  rw [attach_eq, attachAll]
  simp only [bind_assoc]
  refine Computation.Raises.get_bind ?_
  refine Computation.Raises.liftM_bind (fun c => Store.not_isFieldRange_checkDeclared) fun _ _ => ?_
  refine Computation.Raises.bind (raises_attachEntries t (fun e he =>
    Store.ne_procedure_of_mem_entries hdeclared he) {} s) fun a s => ?_
  trivial

/-! ### Declarations that are answered without laying out a type -/

/-- The declaration with those of its immutable fields that are there. -/
def Declaration.inRange (d : Declaration) : Declaration :=
  { d with immutables := d.immutables.filter (· < d.initCount) }

/-- Fields that are out of range take no part in the structure of a type. -/
@[simp] lemma Declaration.prefabLevel_inRange (d : Declaration) :
    d.inRange.prefabLevel = d.prefabLevel := by
  have hmutables : (FieldSet.ofList d.inRange.immutables).complement d.initCount =
      (FieldSet.ofList d.immutables).complement d.initCount := by
    refine FieldSet.ext_mem fun i => ?_
    simp only [FieldSet.mem_complement, FieldSet.mem_ofList, inRange, List.mem_filter,
      decide_eq_true_eq]
    constructor
    · rintro ⟨hlt, hnot⟩
      exact ⟨hlt, fun hi => hnot ⟨hi, hlt⟩⟩
    · rintro ⟨hlt, hnot⟩
      exact ⟨hlt, fun hi => hnot hi.1⟩
  exact congrArg (PrefabLevel.mk d.name d.initCount d.autoCount d.autoValue) hmutables

/-- A prefab declaration is answered with the type that is registered for its structure: with a
pending one, or with a finalized one that no properties have to be compared with. -/
structure Store.SkipsLayout (s : Store) (r : RegistryId) (d : Declaration) : Prop where
  prefabType : d.inspector = .prefab
  registered : ∃ t, s.typeFor? r (s.declaredKey r d) = some t ∧
    ((s.type t).isFinalized → d.properties = [])

namespace Store

/-- The plan is made without laying out a type. -/
lemma SkipsLayout.run_prepare (h : s.SkipsLayout r d) (hr : s.prefabRestriction? d = none) :
    ∃ t, s.typeFor? r (s.declaredKey r d) = some t ∧
      (prepare r d).advance.run s =
        (.ok (.returned (if (s.type t).isFinalized then .keep t else .attach t)),
          s.internDeclared r d) := by
  obtain ⟨hd, t, ht, hempty⟩ := h
  refine ⟨t, ht, ?_⟩
  rw [run_prepare_of_typeFor? hd ht, hr]
  dsimp only
  rw [run_planFor]
  have htype : (s.internDeclared r d).type t = s.type t := rfl
  rw [htype]
  by_cases hfinal : (s.type t).isFinalized
  · simp only [hfinal, if_true, hempty hfinal, List.isEmpty_nil]
  · simp only [hfinal, Bool.false_eq_true, if_false]

lemma SkipsLayout.inRange (h : s.SkipsLayout r d) : s.SkipsLayout r d.inRange where
  prefabType := h.prefabType
  registered := by
    have hkey : s.declaredKey r d.inRange = s.declaredKey r d := by
      rw [declaredKey, d.prefabLevel_inRange]
      rfl
    rw [hkey]
    exact h.registered

/-- Fields that are out of range make no difference to the answer. -/
lemma SkipsLayout.run_define (h : s.SkipsLayout r d) (hr : s.prefabRestriction? d = none) :
    (define r d).advance.run s = (define r d.inRange).advance.run s := by
  have hkey : s.declaredKey r d.inRange = s.declaredKey r d := by
    rw [declaredKey, d.prefabLevel_inRange]
    rfl
  have hintern : s.internDeclared r d.inRange = s.internDeclared r d := by
    rw [internDeclared, d.prefabLevel_inRange]
    rfl
  obtain ⟨t, ht, hplan⟩ := h.run_prepare hr
  obtain ⟨t', ht', hplan'⟩ := h.inRange.run_prepare (show s.prefabRestriction? d.inRange = none
    from hr)
  rw [hkey, ht] at ht'
  cases ht'
  rw [define_eq_phases, define_eq_phases, Computation.bind_eq, Computation.bind_eq,
    Computation.run_advance_bind, Computation.run_advance_bind, hplan, hplan', hintern]
  cases (s.type t).isFinalized <;> rfl

/-- Such a definition never reports a field as out of range by itself. -/
lemma SkipsLayout.raises_define (h : s.SkipsLayout r d) (hr : s.prefabRestriction? d = none) :
    (define r d).Raises (¬·.IsFieldRange) s := by
  obtain ⟨hd, t, ht, hempty⟩ := h
  obtain ⟨hprocedure, hdeclared⟩ := procedure_of_prefabRestriction? hr
  have hfind : (prefabTypeOfDeclaration r d).run s = (.ok t, s.internDeclared r d) := by
    rw [run_prefabTypeOfDeclaration, hr, ht]
  unfold define
  rw [if_pos hd]
  show ((Computation.ofStoreM (prefabTypeOfDeclaration r d)).bind _).Raises _ s
  refine Computation.Raises.ofStoreM_bind (fun e he => ?_) fun u hu => ?_
  · rw [hfind] at he
    cases he
  · rw [hfind] at hu ⊢
    cases hu
    refine Computation.Raises.get_bind ?_
    have htype : (s.internDeclared r d).type t = s.type t := rfl
    rw [htype]
    by_cases hfinal : (s.type t).isFinalized
    · rw [if_pos hfinal, redefine, hempty hfinal]
      trivial
    · rw [if_neg hfinal, hprocedure]
      have hleaves : s.LeavesProperties (s.internDeclared r d) := rfl
      refine Computation.Raises.bind (raises_attach t fun b hb => ?_) fun _ _ => trivial
      rw [hleaves.isA]
      exact hdeclared b hb

/-- A declaration that a type is laid out for is refused. -/
lemma run_define_eq_error (hi : d.immutables.find? (d.initCount ≤ ·) = some i)
    (hr : d.inspector = .prefab → s.prefabRestriction? d = none) (h : ¬s.SkipsLayout r d) :
    ∃ s', (define r d).advance.run s =
      (.error (.condition (.fieldOutOfRange d.name.name i d.initCount)), s') := by
  -- it is enough that there is no plan
  suffices hplan : ∃ s', (prepare r d).advance.run s =
      (.error (.condition (.fieldOutOfRange d.name.name i d.initCount)), s') by
    obtain ⟨s', hplan⟩ := hplan
    refine ⟨s', ?_⟩
    rw [define_eq_phases, Computation.bind_eq, Computation.run_advance_bind, hplan]
  by_cases hd : d.inspector = .prefab
  · cases ht : s.typeFor? r (s.declaredKey r d) with
    | some t =>
      have hfinal : (s.type t).isFinalized := by
        by_contra hpending
        exact h ⟨hd, t, ht, fun hfinal => absurd hfinal hpending⟩
      have hne : d.properties ≠ [] := fun hempty => h ⟨hd, t, ht, fun _ => hempty⟩
      refine ⟨s.internDeclared r d, ?_⟩
      rw [run_prepare_of_finalized hd hne ht hfinal, hr hd]
      dsimp only
      rw [layOut_eq_error _ hi]
    | none =>
      refine ⟨s.internDeclared r d, ?_⟩
      rw [prepare, if_pos hd, Computation.bind_eq]
      show ((Computation.ofStoreM (prefabTypeOfDeclaration r d)).bind _).advance.run s = _
      rw [Computation.run_advance_bind, Computation.run_advance_ofStoreM,
        run_prefabTypeOfDeclaration, hr hd, ht]
      dsimp only
      rw [StoreM.run_bind, run_declare, layOut_eq_error _ hi]
  · refine ⟨s, ?_⟩
    rw [prepare, if_neg hd]
    show ((Computation.ofStoreM (declare d)).bind _).advance.run s = _
    rw [Computation.run_advance_bind, Computation.run_advance_ofStoreM, run_declare,
      layOut_eq_error _ hi]

end Store

/-- A declaration, prefab or not, that keeps to the restrictions and lists an immutable field that
is out of range is refused for the first such field exactly if a type is laid out for it. If none
is, the definition never reports a field by itself, and goes as that of the fields that are
there. -/
theorem define_fieldOutOfRange_iff (hi : d.immutables.find? (d.initCount ≤ ·) = some i)
    (hr : d.inspector = .prefab → s.prefabRestriction? d = none) :
    ((∃ s', (define r d).advance.run s =
        (.error (.condition (.fieldOutOfRange d.name.name i d.initCount)), s')) ↔
      ¬s.SkipsLayout r d) ∧
    (s.SkipsLayout r d → (define r d).Raises (¬·.IsFieldRange) s ∧
      (define r d).advance.run s = (define r d.inRange).advance.run s) := by
  refine ⟨⟨?_, Store.run_define_eq_error hi hr⟩, fun hskips => ?_⟩
  · rintro ⟨s', hrun⟩ hskips
    exact (hskips.raises_define (hr hskips.prefabType)).advance (congrArg Prod.fst hrun) trivial
  · have hr := hr hskips.prefabType
    exact ⟨hskips.raises_define hr, hskips.run_define hr⟩

/-! ### A point with a field too many -/

/-- The point, which lists a field it does not have. -/
def strayDeclaration : Declaration := { pointDeclaration with immutables := [1, 7] }

/-- A session in which the point was declared. -/
def Session.pointed : Session := Session.initial.begin ⟨0⟩ pointDeclaration

lemma Session.reachable_pointed : Session.pointed.Reachable ⟨0⟩ :=
  .step Session.reachable_initial (.begin pointDeclaration fun _ t ht => by cases ht)

lemma Session.skipsLayout_pointed : Session.pointed.store.SkipsLayout ⟨0⟩ strayDeclaration :=
  ⟨rfl, ⟨0⟩, rfl, fun _ => rfl⟩

/-- The field is reported in a new session, and not once the point was declared. -/
theorem define_fieldOutOfRange_iff_stray :
    (strayDeclaration.immutables.find? (strayDeclaration.initCount ≤ ·) = some 7 ∧
      ∀ S ∈ [Session.initial, Session.pointed], strayDeclaration.inspector = .prefab →
        S.store.prefabRestriction? strayDeclaration = none) ∧
    (∃ s', (define ⟨0⟩ strayDeclaration).advance.run Session.initial.store =
      (.error (.condition (.fieldOutOfRange "point" 7 2)), s')) ∧
    ¬∃ s', (define ⟨0⟩ strayDeclaration).advance.run Session.pointed.store =
      (.error (.condition (.fieldOutOfRange "point" 7 2)), s') := by
  have hi : strayDeclaration.immutables.find? (strayDeclaration.initCount ≤ ·) = some 7 := rfl
  refine ⟨⟨hi, ?_⟩, ?_, ?_⟩
  · intro S hS _
    rcases List.mem_pair.1 hS with rfl | rfl <;> rfl
  · refine (define_fieldOutOfRange_iff (r := ⟨0⟩) hi fun _ => rfl).1.2 ?_
    rintro ⟨-, t, ht, -⟩
    cases ht
  · intro hrefused
    exact (define_fieldOutOfRange_iff hi fun _ => rfl).1.1 hrefused Session.skipsLayout_pointed

/-- A prefab declaration that lists a field it does not have is answered in a session. -/
theorem Session.exists_stray_field_accepted :
    ∃ S : Session, S.Reachable ⟨0⟩ ∧ strayDeclaration.inspector = .prefab ∧
      S.store.prefabRestriction? strayDeclaration = none ∧
      7 ∈ strayDeclaration.immutables ∧ ¬7 < strayDeclaration.initCount ∧
      ∃ s', (define ⟨0⟩ strayDeclaration).advance.run S.store =
        (.ok (.returned (definition ⟨0⟩)), s') :=
  ⟨Session.pointed, Session.reachable_pointed, rfl, rfl, by decide, by decide, _, rfl⟩

end Records
