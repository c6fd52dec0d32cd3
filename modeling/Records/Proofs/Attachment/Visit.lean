import Records.Proofs.Attachment.Reading
import Records.Proofs.Computation.Trace
import Records.Proofs.Store.Built
import Mathlib.Data.List.Basic

/-!
# Attachment as a visit of implied properties

What attachment comes to, said by recursion on the properties: a property is visited with a value,
its guard checks or replaces the value, the value is bound, and then each implied property is
visited with what is derived from the bound value.

## Main definitions

* `visit` visits a property and everything it implies.
* `attachByVisits` resolves a type.

## Main statements

* `attachEntries_expand`: settling the entries of a property is visiting it.
* `runs_attach_iff_runs_visits`: attachment is what the visits come to.
-/

namespace Records

/-- Bind a value to a property, with the value that is bound then: a property that is bound to an
equal value keeps the one it has. -/
def Store.bindOnce (s : Store) (t : TypeId) (a : Attached) (p : PropertyId) (v : Value) :
    Except Condition (Value × Attached) :=
  match bindingOf a.bindings p with
  | some existing =>
    if existing == v then .ok (existing, a)
    else .error (.duplicateProperty (s.typeName t) (s.propertyName p))
  | none =>
    if p = Property.procedure then
      (s.ownDesignation t v).map fun d => (v, ⟨a.bindings ++ [(p, v)], some d⟩)
    else
      .ok (v, { a with bindings := a.bindings ++ [(p, v)] })

/-- Visit a property with a value, and then the properties it implies. Implied properties are
older, so the visits come to an end. -/
def visit (s : Store) (t : TypeId) (p : PropertyId) (v : Value) (a : Attached) :
    Computation Attached := do
  let v ← guardValue t p v
  let (bound, a) ← (← get : Store).bindOnce t a p v
  (s.property p).supers.foldlM (fun a b => do
    let w ← settle b.1 b.2 [bound]
    if b.1.index < p.index then visit s t b.1 w a else return a) a
termination_by p.index

/-- Why a declared property is refused behind others: it is a second procedure, or it checks the
arguments of a procedure on a type with less than two fields. -/
def Store.refusalBehind? (s : Store) (t : TypeId) (designated : Bool) (before : List PropertyId)
    (p : PropertyId) : Option Condition :=
  if s.isA p Property.procedure && (designated || before.any (s.isA · Property.procedure)) then
    some (.duplicateProperty (s.typeName t) (s.propertyName Property.procedure))
  else if s.isA p Property.checkedProcedure && (s.type t).totalCount < 2 then
    some (.tooFewFieldsForCheckedProcedure (s.typeName t) (s.type t).totalCount)
  else
    none

/-- Why a declaration is refused: because of the first of its properties that is. -/
def Store.refusal? (s : Store) (t : TypeId) (designated : Bool) (declared : List PropertyId) :
    Option Condition :=
  declared.zipIdx.findSome? fun (p, i) => s.refusalBehind? t designated (declared.take i) p

/-- The own bindings in front of those of the super type, and the own designation or else that of
the super type. -/
def Store.outcome (s : Store) (t : TypeId) (a : Attached) : Resolution :=
  match (s.type t).superType with
  | none => ⟨a.bindings, a.designation.map (⟨·, t⟩)⟩
  | some u =>
    ⟨a.bindings ++ (s.type u).properties, (a.designation.map (⟨·, t⟩)).or (s.type u).procedure?⟩

/-- Resolve a type: refuse what cannot be declared, visit the declared properties in order and the
property of procedures last, and set what they come to. -/
def attachByVisits (t : TypeId) (declared : List (PropertyId × Value))
    (procedure : Option Value) : Computation Unit := do
  let s ← get
  match s.refusal? t procedure.isSome (declared.map (·.1)) with
  | some c => raise c
  | none =>
    let visits := declared ++ procedure.toList.map (Property.procedure, ·)
    let a ← visits.foldlM (fun a b => visit s t b.1 b.2 a) {}
    let s ← get
    modifyType t fun type => { type with resolution := some (s.outcome t a) }

/-! ### Binding and refusal -/

variable {s : Store} {t : TypeId}

lemma Store.bindProperty_eq (s : Store) (t : TypeId) (a : Attached) (p : PropertyId)
    (v : Value) : s.bindProperty t a p v = (s.bindOnce t a p v).map (·.2) := by
  unfold bindProperty bindOnce
  cases bindingOf a.bindings p with
  | some existing =>
    by_cases hsame : existing == v
    · simp only [hsame, if_true]
      rfl
    · simp only [hsame]
      rfl
  | none =>
    by_cases hp : p = Property.procedure
    · simp only [hp, if_true]
      cases s.ownDesignation t v <;> rfl
    · simp only [hp, if_false]
      rfl

/-- Whatever is bound stays bound. -/
def Attached.Extends (a a' : Attached) : Prop :=
  ∀ p v, bindingOf a.bindings p = some v → bindingOf a'.bindings p = some v

lemma Attached.Extends.trans {a a' a'' : Attached} (h : a.Extends a') (h' : a'.Extends a'') :
    a.Extends a'' :=
  fun p v hv => h' p v (h p v hv)

lemma Store.bindOnce_eq_ok {a a' : Attached} {p : PropertyId} {v bound : Value}
    (h : s.bindOnce t a p v = .ok (bound, a')) :
    a.Extends a' ∧ bindingOf a'.bindings p = some bound := by
  unfold bindOnce at h
  cases hb : bindingOf a.bindings p with
  | some existing =>
    simp only [hb] at h
    split at h
    · cases h
      exact ⟨fun _ _ h => h, hb⟩
    · cases h
  | none =>
    simp only [hb] at h
    have hextends : ∀ d : Option Designation,
        a.Extends ⟨a.bindings ++ [(p, v)], d⟩ ∧
          bindingOf (a.bindings ++ [(p, v)]) p = some v := by
      intro d
      constructor
      · intro q w hq
        rw [bindingOf_append, hq]
        rfl
      · rw [bindingOf_append, hb]
        simp [bindingOf]
    split at h
    · cases hd : s.ownDesignation t v with
      | error c =>
        rw [hd] at h
        cases h
      | ok d =>
        rw [hd] at h
        cases h
        exact hextends (some d)
    · cases h
      exact hextends a.designation

/-- Looking at the properties in turn finds the first refusal. -/
lemma Store.checkDeclared_append (s : Store) (t : TypeId) (designated : Bool)
    (before rest : List PropertyId) :
    s.checkDeclared t (designated || before.any (s.isA · Property.procedure)) rest =
      match (rest.zipIdx before.length).findSome? fun (p, i) =>
        s.refusalBehind? t designated ((before ++ rest).take i) p with
      | some c => .error c
      | none => .ok () := by
  induction rest generalizing before with
  | nil => rfl
  | cons p rest ih =>
    have hbefore : (before ++ p :: rest).take before.length = before := List.take_left
    simp only [List.zipIdx_cons, List.findSome?_cons, hbefore]
    rw [checkDeclared]
    by_cases hprocedure : (s.isA p Property.procedure &&
        (designated || before.any (s.isA · Property.procedure))) = true
    · have hrefusal : s.refusalBehind? t designated before p = some _ := if_pos hprocedure
      rw [hrefusal]
      exact if_pos hprocedure
    · by_cases hchecked : (s.isA p Property.checkedProcedure &&
          decide ((s.type t).totalCount < 2)) = true
      · have hrefusal : s.refusalBehind? t designated before p = some _ :=
          (if_neg hprocedure).trans (if_pos hchecked)
        rw [hrefusal]
        exact (if_neg hprocedure).trans (if_pos hchecked)
      · have hrefusal : s.refusalBehind? t designated before p = none :=
          (if_neg hprocedure).trans (if_neg hchecked)
        have hih := ih (before ++ [p])
        rw [List.any_append, List.length_append, List.append_assoc, ← Bool.or_assoc] at hih
        rw [hrefusal]
        refine ((if_neg hprocedure).trans (if_neg hchecked)).trans ?_
        simpa using hih

lemma Store.checkDeclared_eq (s : Store) (t : TypeId) (designated : Bool)
    (declared : List PropertyId) : s.checkDeclared t designated declared =
      match s.refusal? t designated declared with
      | some c => .error c
      | none => .ok () := by
  have happend := s.checkDeclared_append t designated [] declared
  rw [List.any_nil, Bool.or_false] at happend
  exact happend

lemma Store.outcome_eq (s : Store) (t : TypeId) (a : Attached) : s.outcome t a = s.resolve t a := by
  unfold outcome resolve
  cases (s.type t).superType with
  | none =>
    cases a.designation <;> simp
  | some u =>
    cases a.designation <;> simp

/-! ### Visits -/

/-- Visits keep what is bound, those of the implied properties included. -/
lemma visit_answers (s : Store) (t : TypeId) (p : PropertyId) (v : Value) (a : Attached) :
    (visit s t p v a).Answers a.Extends := by
  rw [visit]
  refine (Computation.Answers.trivial _).bind fun v _ s' => ?_
  show ((Computation.ofStoreM (monadLift (s'.bindOnce t a p v) : StoreM _)).bind _).Answers _
  cases hbound : s'.bindOnce t a p v with
  | error c => exact fun _ => True.intro
  | ok result =>
    obtain ⟨bound, a₁⟩ := result
    intro s''
    obtain ⟨hextends, -⟩ := Store.bindOnce_eq_ok hbound
    show Computation.Answers a.Extends (List.foldlM _ a₁ (s.property p).supers)
    clear hbound
    induction (s.property p).supers generalizing a₁ with
    | nil => exact hextends
    | cons b supers ih =>
      rw [List.foldlM_cons]
      refine Computation.Answers.bind (P := fun a₂ => a₁.Extends a₂) ?_ fun a₂ ha₂ =>
        ih a₂ (hextends.trans ha₂)
      refine (Computation.Answers.trivial _).bind fun w _ => ?_
      split
      · exact visit_answers s t b.1 w a₁
      · exact fun _ _ h => h
termination_by p.index

/-- The bound in the recursion is never met: implied properties are older. -/
lemma visit_eq (hs : s.Built) (t : TypeId) (p : PropertyId) (v : Value) (a : Attached) :
    visit s t p v a = (do
      let v ← guardValue t p v
      let (bound, a) ← (← get : Store).bindOnce t a p v
      (s.property p).supers.foldlM (fun a b => do
        visit s t b.1 (← settle b.1 b.2 [bound]) a) a) := by
  rw [visit]
  refine bind_congr fun v => bind_congr fun s' => bind_congr fun result => ?_
  have hlt : ∀ b ∈ (s.property p).supers, b.1.index < p.index := fun b hb => hs.property_lt hb
  obtain ⟨bound, a₁⟩ := result
  show List.foldlM _ a₁ (s.property p).supers = List.foldlM _ a₁ (s.property p).supers
  generalize (s.property p).supers = supers at hlt ⊢
  induction supers generalizing a₁ with
  | nil => rfl
  | cons b supers ih =>
    have hb := hlt b List.mem_cons_self
    have hrest := fun a₂ => ih a₂ fun c hc => hlt c (List.mem_cons_of_mem _ hc)
    simp only [List.foldlM_cons, hb, if_true]
    exact bind_congr hrest

/-! ### The entries of a property -/

/-- Steps beyond the number of older properties add no entries. -/
lemma Store.expandWithin_eq_expand (hs : s.Built) {n : Nat} {e : Entry}
    (h : e.property.index ≤ n) : s.expandWithin n e = s.expand e := by
  suffices ∀ n m e, e.property.index ≤ n → e.property.index ≤ m →
      s.expandWithin n e = s.expandWithin m e from this n _ e h (Nat.le_refl _)
  have hnone : ∀ e : Entry, e.property.index = 0 → (s.property e.property).supers = [] := by
    intro e he
    refine List.eq_nil_iff_forall_not_mem.2 fun b hb => ?_
    exact Nat.not_lt_zero _ (he ▸ hs.property_lt hb)
  intro n
  induction n with
  | zero =>
    intro m e hn _
    have hsupers := hnone e (Nat.le_zero.1 hn)
    cases m with
    | zero => rfl
    | succ m => simp [expandWithin, hsupers]
  | succ n ih =>
    intro m e hn hm
    cases m with
    | zero => simp [expandWithin, hnone e (Nat.le_zero.1 hm)]
    | succ m =>
      simp only [expandWithin]
      refine congrArg (e :: ·) (List.flatMap_congr fun b hb => ?_)
      have hlt := hs.property_lt hb
      exact ih m _ (Nat.le_of_lt_succ (Nat.lt_of_lt_of_le hlt hn))
        (Nat.le_of_lt_succ (Nat.lt_of_lt_of_le hlt hm))

/-- An entry comes first, and then what it implies, each with what that implies in turn. -/
lemma Store.expand_eq (hs : s.Built) (e : Entry) :
    s.expand e = e :: (s.property e.property).supers.flatMap fun b =>
      s.expand ⟨b.1, b.2, some e.property⟩ := by
  rw [← s.expandWithin_eq_expand hs (Nat.le_succ e.property.index), expandWithin]
  refine congrArg (e :: ·) (List.flatMap_congr fun b hb => ?_)
  exact s.expandWithin_eq_expand hs (Nat.le_of_lt (hs.property_lt hb))

/-- Settling the entries of a property and then others is visiting the property first. The value
that an implied property is derived from is bound by then, and stays bound. -/
lemma attachEntries_expand (hs : s.Built) (t : TypeId) (e : Entry) (rest : List Entry)
    (a : Attached) :
    attachEntries t (s.expand e ++ rest) a = (do
      let v ← deriveValue a e
      let a ← visit s t e.property v a
      attachEntries t rest a) := by
  rw [s.expand_eq hs, List.cons_append, attachEntries, attachEntry]
  simp only [bind_assoc]
  refine bind_congr fun v => ?_
  rw [visit_eq hs]
  simp only [bind_assoc]
  refine bind_congr fun v => bind_congr fun s' => ?_
  rw [Store.bindProperty_eq]
  cases hbind : s'.bindOnce t a e.property v with
  | error c => rfl
  | ok result =>
    obtain ⟨bound, a₁⟩ := result
    obtain ⟨-, hbound⟩ := Store.bindOnce_eq_ok hbind
    refine congrArg Computation.read (funext fun s'' => congrArg (Computation.write s'') ?_)
    have hlt : ∀ b ∈ (s.property e.property).supers, b.1.index < e.property.index :=
      fun b hb => hs.property_lt hb
    show attachEntries t _ a₁ = List.foldlM _ a₁ (s.property e.property).supers >>= _
    clear hbind
    generalize (s.property e.property).supers = supers at hlt ⊢
    induction supers generalizing a₁ with
    | nil => rfl
    | cons b supers ih =>
      have hb := hlt b List.mem_cons_self
      have hderive : deriveValue a₁ ⟨b.1, b.2, some e.property⟩ = settle b.1 b.2 [bound] := by
        simp only [deriveValue, Option.bind_some, hbound]
      rw [List.flatMap_cons, List.append_assoc, attachEntries_expand hs, hderive,
        List.foldlM_cons]
      simp only [bind_assoc]
      refine bind_congr fun w => ?_
      refine (visit_answers s t b.1 w a₁).bind_congr fun a₂ ha₂ => ?_
      exact ih a₂ (ha₂ _ _ hbound) fun c hc => hlt c (List.mem_cons_of_mem _ hc)
termination_by e.property.index

lemma attachEntries_flatMap_expand (hs : s.Built) (t : TypeId)
    (visits : List (PropertyId × Value)) (a : Attached) :
    attachEntries t (visits.flatMap fun b => s.expand ⟨b.1, b.2, none⟩) a =
      visits.foldlM (fun a b => visit s t b.1 b.2 a) a := by
  induction visits generalizing a with
  | nil => rfl
  | cons b visits ih =>
    rw [List.flatMap_cons, attachEntries_expand hs, List.foldlM_cons]
    exact bind_congr ih

lemma Store.entries_eq (s : Store) (declared : List (PropertyId × Value))
    (procedure : Option Value) : s.entries declared procedure =
      (declared ++ procedure.toList.map (Property.procedure, ·)).flatMap fun b =>
        s.expand ⟨b.1, b.2, none⟩ := by
  rw [entries, List.flatMap_append]
  cases procedure with
  | none => rfl
  | some v => simp

/-! ### Refinement -/

/-- What is published for a pending type is what it is resolved to. -/
lemma Store.publish_of_pending (h : (s.type t).resolution = none) (r : Resolution) :
    s.types.modify t.index (·.publish r) =
      s.types.modify t.index fun type => { type with resolution := some r } := by
  refine Array.ext_getElem? fun i => ?_
  simp only [Array.getElem?_modify]
  by_cases hi : t.index = i
  · simp only [hi, if_true]
    cases htype : s.types[i]? with
    | none => rfl
    | some type =>
      have hr : type.resolution = none := by
        rw [Store.type, Array.getD_eq_getD_getElem?, hi, htype] at h
        exact h
      simp [RecordType.publish, hr]
  · simp only [hi, if_false]

/-- On a type that is pending, and that nobody else resolves in the meantime, attachment does
what the visits do: it makes the same calls in the same order, and ends in the same way with the
same store, whatever the calls result in. -/
theorem runs_attach_iff_runs_visits {R : Store → Store → Prop} (hs : s.Built)
    (hpending : (s.type t).resolution = none)
    (hR : ∀ s s', R s s' → (s.type t).resolution = none → (s'.type t).resolution = none)
    (declared : List (PropertyId × Value)) (procedure : Option Value) (calls : List Exchange)
    (out : Except Failure Unit) (s' : Store) :
    (attach t declared procedure).Runs R s calls out s' ↔
      (attachByVisits t declared procedure).Runs R s calls out s' := by
  rw [attach_eq, attachAll]
  simp only [bind_assoc]
  show ((Computation.ofStoreM (monadLift (s.checkDeclared t procedure.isSome
      (declared.map (·.1))) : StoreM Unit)).bind fun _ =>
        (attachEntries t (s.entries declared procedure) {}).bind _).Runs R s calls out s' ↔
    Computation.Runs R (match s.refusal? t procedure.isSome (declared.map (·.1)) with
      | some c => Computation.ofStoreM (raise c)
      | none => Computation.bind (List.foldlM _ ({} : Attached) _) _) s calls out s'
  rw [s.checkDeclared_eq]
  cases s.refusal? t procedure.isSome (declared.map (·.1)) with
  | some c => exact Iff.rfl
  | none =>
    have hreads := onlyReads_attachEntries t (s.entries declared procedure) {} s
    have hvisits : attachEntries t (s.entries declared procedure) {} =
        (declared ++ procedure.toList.map (Property.procedure, ·)).foldlM
          (fun a b => visit s t b.1 b.2 a) {} := by
      rw [s.entries_eq, attachEntries_flatMap_expand hs]
    rw [← hvisits]
    refine hreads.runs_bind_congr (P := fun s => (s.type t).resolution = none) hR hpending
      fun a s₁ calls h => ?_
    show (Computation.ofStoreM (modifyType t _)).Runs R s₁ calls out s' ↔
      (Computation.ofStoreM (modifyType t _)).Runs R s₁ calls out s'
    rw [Computation.runs_ofStoreM_iff, Computation.runs_ofStoreM_iff, run_modifyType,
      run_modifyType, Store.publish_of_pending h, Store.outcome_eq]

/-- A type with one field, and a guarded property that implies another one. -/
def impliedPair : Store :=
  ((declare { name := ⟨"t"⟩, initCount := 1 }).run
    ((newProperty ⟨⟨"p"⟩, some (.ofName "guard"), [(⟨6⟩, .ofName "derive")], false⟩).run
      ((newProperty ⟨⟨"q"⟩, none, [], false⟩).run Store.initial).2).2).2

lemma built_impliedPair : impliedPair.Built := by
  refine .declare _ (.property _ (.property _ .initial nofun) ?_) nofun
  intro b hb
  rw [List.mem_singleton.1 hb]
  decide

/-- The guard replaces the value, and what the host derives from that goes to the other property. -/
theorem runs_attach_iff_runs_visits_impliedPair :
    ∃ calls s', calls =
        [⟨.ofName "guard", [.ofNat 1, .list (impliedPair.reflectiveInfo ⟨0⟩)], .ok [.ofNat 2]⟩,
          ⟨.ofName "derive", [.ofNat 2], .ok [.ofNat 3]⟩] ∧
      s' = impliedPair.publish ⟨0⟩ ⟨[(⟨7⟩, .ofNat 2), (⟨6⟩, .ofNat 3)], none⟩ ∧
      (impliedPair.type ⟨0⟩).resolution = none ∧
      (attach ⟨0⟩ [(⟨7⟩, .ofNat 1)] none).Runs (fun s s' => s'.type ⟨0⟩ = s.type ⟨0⟩)
        impliedPair calls (.ok ()) s' ∧
      (attachByVisits ⟨0⟩ [(⟨7⟩, .ofNat 1)] none).Runs (fun s s' => s'.type ⟨0⟩ = s.type ⟨0⟩)
        impliedPair calls (.ok ()) s' := by
  have hR : ∀ s s' : Store, s'.type ⟨0⟩ = s.type ⟨0⟩ → (s.type ⟨0⟩).resolution = none →
      (s'.type ⟨0⟩).resolution = none := by
    intro s s' hmove h
    rw [hmove]
    exact h
  refine ⟨_, _, rfl, rfl, rfl, ?runs,
    (runs_attach_iff_runs_visits built_impliedPair rfl hR _ _ _ _ _).1 ?runs⟩
  rw [attach_eq]
  exact .inr ⟨impliedPair, [.ofNat 2], _, rfl, rfl,
    .inr ⟨impliedPair, [.ofNat 3], [], rfl, rfl, rfl, rfl, rfl⟩⟩

end Records
