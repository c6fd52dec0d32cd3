import Records.Proofs.Attachment.Implied

/-!
# Fields of checked procedures

A type with the property of checked procedures needs two fields. Attachment looks for the property
among what is declared, be it there by implication, and this is before guards and derivations are
called. They have no say in which properties are attached, so looking once is enough.

## Main definitions

* `Suffices`: there are enough fields for the properties that are bound.
* `Store.DeclaresChecked`: a declaration asks for a checked procedure.

## Main statements

* `answersIn_attachAll_suffices`: what is attached to a type has fields enough.
* `run_attachAll_of_declaresChecked`: otherwise attachment is refused before the first call.
-/

namespace Records

/-- There are enough fields for the properties that are bound: two if one of them is the property
of checked procedures. -/
def Suffices (count : Nat) (bindings : List (PropertyId × Value)) : Prop :=
  Property.checkedProcedure ∈ bindings.map (·.1) → 2 ≤ count

variable {s s' : Store} {t : TypeId} {d : Declaration} {declared : List (PropertyId × Value)}
  {count count' : Nat} {bindings : List (PropertyId × Value)}

lemma Suffices.mono (h : Suffices count bindings) (hcount : count ≤ count') :
    Suffices count' bindings :=
  fun hchecked => Nat.le_trans (h hchecked) hcount

namespace Store

/-- A declaration asks for a checked procedure, be it by a property that implies one. -/
def DeclaresChecked (s : Store) (d : Declaration) : Prop :=
  ∃ b ∈ d.properties, s.isA b.1 Property.checkedProcedure

lemma LeavesProperties.declaresChecked (h : s.LeavesProperties s') (hd : s.DeclaresChecked d) :
    s'.DeclaresChecked d := by
  obtain ⟨b, hb, hisA⟩ := hd
  exact ⟨b, hb, by rwa [h.isA]⟩

/-! ### What is checked -/

/-- A property that is a checked procedure passes the check only on a type of two fields. -/
lemma two_le_of_checkDeclared {bound : Bool} {declared : List PropertyId} {p : PropertyId}
    (h : s.checkDeclared t bound declared = .ok ()) (hp : p ∈ declared)
    (hchecked : s.isA p Property.checkedProcedure) : 2 ≤ (s.type t).totalCount := by
  induction declared generalizing bound with
  | nil => cases hp
  | cons q rest ih =>
    rw [checkDeclared] at h
    split at h
    · cases h
    · split at h
      · cases h
      · rename_i hfields
        rcases List.mem_cons.1 hp with rfl | hp
        · rw [hchecked, Bool.true_and, decide_eq_true_eq] at hfields
          exact Nat.not_lt.1 hfields
        · exact ih h hp

/-- Besides a designation, a property that entries are about is one that a declared property is. -/
lemma exists_isA_of_mem_entries {procedure : Option Value} {e : Entry}
    (he : e ∈ s.entries declared procedure) (hne : e.property ≠ Property.procedure) :
    ∃ b ∈ declared, s.isA b.1 e.property := by
  rw [entries, List.mem_append] at he
  rcases he with he | he
  · obtain ⟨b, hb, he⟩ := List.mem_flatMap.1 he
    exact ⟨b, hb, isAWithin_of_mem_expandWithin he⟩
  · cases procedure with
    | none => cases he
    | some v =>
      rw [List.mem_singleton.1 he] at hne
      exact absurd rfl hne

end Store

/-! ### Attachment -/

/-- Whatever guards and derivations answer, the type has fields enough for what is attached. -/
lemma answersIn_attachAll_suffices (t : TypeId) (declared : List (PropertyId × Value))
    (procedure : Option Value) (s : Store) :
    (attachAll t declared procedure).AnswersIn (fun _ => True)
      (fun a => Suffices (s.type t).totalCount a.bindings) s := by
  refine Computation.AnswersIn.get_bind trivial ?_
  refine Computation.AnswersIn.bind (Q := fun _ => s.checkDeclared t procedure.isSome
    (declared.map (·.1)) = .ok ()) trivial ?_ fun _ s₁ _ hcheck => ?_
  · exact Computation.AnswersIn.liftM trivial fun _ h => h
  · refine (answersIn_attachEntries_mem t _ {} s₁).mono fun a ha hchecked => ?_
    have hentry := ((ha _).1 hchecked).resolve_left List.not_mem_nil
    obtain ⟨e, he, hproperty⟩ := List.mem_map.1 hentry
    -- a designation that is declared by itself is about another property
    have hne : e.property ≠ Property.procedure := by
      rw [hproperty]
      nofun
    obtain ⟨b, hb, hisA⟩ := Store.exists_isA_of_mem_entries he hne
    rw [hproperty] at hisA
    exact Store.two_le_of_checkDeclared hcheck (List.mem_map_of_mem hb) hisA

/-- A checked procedure is refused on a smaller type before anything is called. -/
lemma run_attachAll_of_declaresChecked (hd : s.DeclaresChecked d)
    (hcount : (s.type t).totalCount < 2) (procedure : Option Value) :
    ∃ c, (attachAll t d.properties procedure).advance.run s = (.error (.condition c), s) := by
  obtain ⟨b, hb, hisA⟩ := hd
  cases hcheck : s.checkDeclared t procedure.isSome (d.properties.map (·.1)) with
  | ok u =>
    have := Store.two_le_of_checkDeclared hcheck (List.mem_map_of_mem hb) hisA
    omega
  | error c =>
    refine ⟨c, ?_⟩
    show ((Computation.ofStoreM (monadLift (s.checkDeclared t procedure.isSome
      (d.properties.map (·.1))) : StoreM Unit)).bind _).advance.run s = _
    rw [hcheck]
    rfl

end Records
