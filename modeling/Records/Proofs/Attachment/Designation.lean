import Records.Proofs.Attachment.Replay
import Mathlib.Data.List.Pairwise

/-!
# Where designations come from

A type that takes on a designation does so with a value of the property of procedures. As long as
this property has no guard, a value that is declared for it is the one that is taken on. A type
that declares such a value takes on no other one: the properties of a declaration that imply the
property of procedures are refused beside it.

## Main definitions

* `Store.Unguarded`: the property of procedures has no guard.

## Main statements

* `Store.Built.unguarded`: it never gets one.
* `answersIn_attachAll`: a designated field is the number that an entry declares, unless it is
  derived.
* `Store.designates_of_mem_entries`: a declared designation is not derived.
-/

namespace Records

/-- The property of procedures has no guard. -/
def Store.Unguarded (s : Store) : Prop := (s.property Property.procedure).guard = none

variable {s s' : Store} {t : TypeId} {a a' : Attached} {e : Entry}

/-! ### Properties that stay what they are -/

/-- The properties are the same. -/
def Store.LeavesProperties (s s' : Store) : Prop := s'.properties = s.properties

instance : IsPreorder Store Store.LeavesProperties where
  refl _ := rfl
  trans _ _ _ h h' := h'.trans h

namespace Store.LeavesProperties

lemma property (h : s.LeavesProperties s') (p : PropertyId) : s'.property p = s.property p := by
  rw [Store.property, h, Store.property]

lemma isAWithin (h : s.LeavesProperties s') (n : Nat) (p q : PropertyId) :
    s'.isAWithin n p q = s.isAWithin n p q := by
  induction n generalizing p with
  | zero => rfl
  | succ n ih => simp only [Store.isAWithin, h.property, ih]

lemma isA (h : s.LeavesProperties s') (p q : PropertyId) : s'.isA p q = s.isA p q :=
  h.isAWithin p.index p q

lemma expandWithin (h : s.LeavesProperties s') (n : Nat) (e : Entry) :
    s'.expandWithin n e = s.expandWithin n e := by
  induction n generalizing e with
  | zero => rfl
  | succ n ih => simp only [Store.expandWithin, h.property, ih]

lemma entries (h : s.LeavesProperties s') (declared : List (PropertyId × Value))
    (procedure : Option Value) :
    s'.entries declared procedure = s.entries declared procedure := by
  simp only [Store.entries, Store.expand, h.expandWithin]

lemma unguarded (h : s.LeavesProperties s') (hs : s.Unguarded) : s'.Unguarded := by
  rw [Unguarded, h.property]
  exact hs

end Store.LeavesProperties

/-- The property of procedures is there from the start, and nothing replaces it. -/
lemma Store.Built.unguarded (h : s.Built) : s.Unguarded := by
  have hrun : 0 < s.properties.size ∧ s.Unguarded := by
    induction h with
    | initial => exact ⟨by decide, rfl⟩
    | @property s p _ _ ih =>
      obtain ⟨hlt, hs⟩ := ih
      have hold : Property.procedure.index ≠ s.properties.size := Nat.ne_of_lt hlt
      rw [run_newProperty, Unguarded, property_push, if_neg hold, Array.size_push]
      exact ⟨Nat.succ_pos _, hs⟩
    | @declare s d _ _ ih =>
      have hleaves : s.LeavesProperties ((Records.declare d).run s).2 := properties_declare d s
      exact ⟨hleaves ▸ ih.1, hleaves.unguarded ih.2⟩
    | publish t r _ ih => exact ih
    | other _ _ hleaves ih => exact ⟨hleaves ▸ ih.1, LeavesProperties.unguarded hleaves ih.2⟩
  exact hrun.2

/-! ### Entries of procedures -/

namespace Store

/-- The property of procedures is declared once at most, be it by a property that implies it. -/
lemma checkDeclared_eq_ok {bound : Bool} {declared : List PropertyId}
    (h : s.checkDeclared t bound declared = .ok ()) :
    (bound → ∀ p ∈ declared, ¬s.isA p Property.procedure) ∧
      declared.Pairwise fun p q => s.isA p Property.procedure → ¬s.isA q Property.procedure := by
  induction declared generalizing bound with
  | nil => exact ⟨fun _ => nofun, .nil⟩
  | cons p rest ih =>
    rw [checkDeclared] at h
    split at h
    · cases h
    · rename_i hfirst
      split at h
      · cases h
      · obtain ⟨hrest, hpairwise⟩ := ih h
        rw [Bool.and_eq_true] at hfirst
        refine ⟨fun hbound => List.forall_mem_cons.2 ⟨fun hp => hfirst ⟨hp, hbound⟩, ?_⟩,
          List.pairwise_cons.2 ⟨fun q hq hp => ?_, hpairwise⟩⟩
        · exact hrest (by rw [hbound, Bool.true_or])
        · exact hrest (by rw [hp, Bool.or_true]) q hq

/-- A declared designation is the only value that is attached to the property of procedures, and
it is not derived from another one. -/
lemma designates_of_mem_entries {d : Declaration}
    (hcheck : s.checkDeclared t d.procedure.isSome (d.properties.map (·.1)) = .ok ())
    (hd : d.designations ≠ []) (he : e ∈ s.entries d.properties d.procedure)
    (hprocedure : e.property = Property.procedure) :
    e.source = none ∧ e.value ∈ d.designations := by
  obtain ⟨hbound, hpairwise⟩ := checkDeclared_eq_ok hcheck
  have hdeclared : ∀ b ∈ d.properties, e ∈ s.expand ⟨b.1, b.2, none⟩ →
      s.isA b.1 Property.procedure := by
    intro b _ he
    rw [← hprocedure]
    exact isAWithin_of_mem_expandWithin he
  rw [entries, List.mem_append, List.mem_flatMap] at he
  cases hp : d.procedure with
  | some v =>
    rw [hp] at hbound he
    rcases he with ⟨b, hb, he⟩ | he
    · exact absurd (hdeclared b hb he) (hbound rfl b.1 (List.mem_map_of_mem hb))
    · rw [List.mem_singleton.1 he]
      exact ⟨rfl, by simp [Declaration.designations, hp]⟩
  | none =>
    rw [hp] at he
    rw [Declaration.designations, hp, Option.toList_none, List.nil_append] at hd ⊢
    rcases he with ⟨b, hb, he⟩ | he
    · -- the declaration binds the property of procedures, and no other property implies it
      obtain ⟨v, hv⟩ := List.exists_mem_of_ne_nil _ hd
      obtain ⟨b', hb', rfl⟩ := List.mem_map.1 hv
      obtain ⟨hb', hb'procedure⟩ := List.mem_filter.1 hb'
      have hb'procedure := of_decide_eq_true hb'procedure
      have hsame : b = b' := by
        by_contra hne
        rw [List.pairwise_map] at hpairwise
        have : Std.Symm fun b b' : PropertyId × Value =>
            s.isA b.1 Property.procedure → ¬s.isA b'.1 Property.procedure :=
          ⟨fun _ _ h hb' hb => h hb hb'⟩
        refine hpairwise.forall hb hb' hne (hdeclared b hb he) ?_
        rw [hb'procedure]
        exact s.isA_refl _
      subst hsame
      rw [hb'procedure] at he
      rw [List.mem_singleton.1 he]
      exact ⟨rfl, hv⟩
    · cases he

/-- A designated field is an init field of the type itself. -/
lemma ownDesignation_eq_ok {v : Value} {d : Designation} (h : s.ownDesignation t v = .ok d) :
    s.designation v = .ok d ∧ ∀ i, d = .field i → i < (s.type t).initCount := by
  rw [ownDesignation] at h
  cases hv : s.designation v with
  | error c =>
    rw [hv] at h
    cases h
  | ok d' =>
    rw [hv] at h
    cases d' with
    | procedure w =>
      cases h
      refine ⟨rfl, fun i hi => ?_⟩
      cases hi
    | field j =>
      have h : (if j < (s.type t).initCount then Except.ok (.field j) else .error _ :
        Except Condition Designation) = .ok d := h
      split at h
      · rename_i hlt
        cases h
        refine ⟨rfl, ?_⟩
        rintro _ ⟨⟩
        exact hlt
      · cases h

/-- A field is designated by its number. -/
lemma index?_of_ownDesignation {v : Value} {i : Nat}
    (h : s.ownDesignation t v = .ok (.field i)) : v.index? = some i := by
  obtain ⟨hdesignation, -⟩ := ownDesignation_eq_ok h
  unfold designation at hdesignation
  split at hdesignation
  · rename_i hindex
    cases hdesignation
    exact hindex
  · cases hdesignation
  · split at hdesignation
    · cases hdesignation
    · cases hdesignation

end Store

/-! ### Attachment -/

/-- An entry designates a field: it is about the property of procedures, and unless its value is
derived the value is the number of the field. -/
structure Entry.Designates (e : Entry) (i : Nat) : Prop where
  procedure : e.property = Property.procedure
  declared : e.source = none → e.value.index? = some i

lemma answersIn_settle {P : Store → Prop} {Q : Value → Prop} (h : ∀ v, Q v) (p : PropertyId)
    (procedure : Value) (args : List Value) : (settle p procedure args).AnswersIn P Q s := by
  intro results s' hs'
  exact Computation.AnswersIn.get_bind hs' (Computation.AnswersIn.liftM hs' fun v _ => h v)

/-- A field that is designated from now on is designated by the entry. -/
lemma answersIn_attachEntry (hs : s.Unguarded) (t : TypeId) (a : Attached) (e : Entry) :
    (attachEntry t a e).AnswersIn Store.Unguarded (fun a' => ∀ i,
      a'.designation = some (.field i) → a.designation = some (.field i) ∨ e.Designates i) s := by
  refine Computation.AnswersIn.bind (Q := fun v => e.source = none → v = e.value) hs ?_
    fun v s hs hv => Computation.AnswersIn.bind
      (Q := fun w => e.property = Property.procedure → w = v) hs ?_ fun w s hs hw => ?_
  · unfold deriveValue
    cases hsource : e.source with
    | none => exact fun _ => rfl
    | some p =>
      rw [Option.bind_some]
      cases bindingOf a.bindings p with
      | none => exact nofun
      | some input => exact answersIn_settle (fun _ => nofun) _ _ _
  · refine Computation.AnswersIn.get_bind hs ?_
    cases hguard : (s.property e.property).guard with
    | none => exact fun _ => rfl
    | some guard =>
      refine answersIn_settle (fun w hprocedure => ?_) _ _ _
      rw [hprocedure, hs] at hguard
      cases hguard
  · refine Computation.AnswersIn.get_bind hs (Computation.AnswersIn.liftM hs fun a' ha' i hi => ?_)
    rcases Store.bindProperty_eq_ok ha' with
      rfl | ⟨-, -, hsame | ⟨hprocedure, d, hd, hnew⟩⟩
    · exact .inl hi
    · exact .inl (hsame ▸ hi)
    · rw [hnew, Option.some.injEq] at hi
      subst hi
      refine .inr ⟨hprocedure, fun hsource => ?_⟩
      rw [← hv hsource, ← hw hprocedure]
      exact Store.index?_of_ownDesignation hd

lemma answersIn_attachEntries (hs : s.Unguarded) (t : TypeId) (entries : List Entry)
    (a : Attached) :
    (attachEntries t entries a).AnswersIn Store.Unguarded (fun a' => ∀ i,
      a'.designation = some (.field i) →
        a.designation = some (.field i) ∨ ∃ e ∈ entries, e.Designates i) s := by
  induction entries generalizing a s with
  | nil => exact fun i hi => .inl hi
  | cons e rest ih =>
    refine (answersIn_attachEntry hs t a e).bind hs fun a₁ s₁ hs₁ ha₁ => ?_
    refine (ih hs₁ a₁).mono fun a' ha' i hi => ?_
    rcases ha' i hi with hi | ⟨e', he', hdesignates⟩
    · exact (ha₁ i hi).imp_right fun hdesignates => ⟨e, List.mem_cons_self, hdesignates⟩
    · exact .inr ⟨e', List.mem_cons_of_mem e he', hdesignates⟩

/-- A declaration that is not refused has a field designated by one of its entries, if at all. -/
lemma answersIn_attachAll (hs : s.Unguarded) (t : TypeId) (declared : List (PropertyId × Value))
    (procedure : Option Value) :
    (attachAll t declared procedure).AnswersIn Store.Unguarded (fun a =>
      s.checkDeclared t procedure.isSome (declared.map (·.1)) = .ok () ∧ ∀ i,
        a.designation = some (.field i) →
          ∃ e ∈ s.entries declared procedure, e.Designates i) s := by
  refine Computation.AnswersIn.get_bind hs ?_
  refine Computation.AnswersIn.bind (Q := fun _ => s.checkDeclared t procedure.isSome
    (declared.map (·.1)) = .ok ()) hs ?_ fun _ s₁ hs₁ hcheck => ?_
  · exact Computation.AnswersIn.liftM hs fun _ h => h
  · refine (answersIn_attachEntries hs₁ t _ {}).mono fun a ha => ⟨hcheck, fun i hi => ?_⟩
    exact (ha i hi).resolve_left nofun

end Records
