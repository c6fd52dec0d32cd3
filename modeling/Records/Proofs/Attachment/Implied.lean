import Records.Proofs.Attachment.Designation
import Records.Proofs.Attachment.Visit

/-!
# Implied properties are attached

A declared property comes to entries for all that it implies, and an entry that is settled leaves
its property bound. So what is attached is closed under implication, whatever values guards and
derivations come up with.

## Main definitions

* `Store.ImpliesOlder`: properties imply older ones.
* `Store.Complete`: properties that are there, with all that they imply.

## Main statements

* `Store.Complete.mem_of_isA`: a complete list has all that its properties are.
* `Store.complete_entries`: the entries of a declaration are complete.
* `answersIn_attachAll_complete`: and so is what comes of them.
-/

namespace Records

variable {s s' : Store} {t : TypeId} {a a' : Attached} {e : Entry} {p q : PropertyId} {v : Value}
  {ps qs : List PropertyId}

namespace Store

/-! ### Older properties -/

/-- The properties that are there imply older ones. -/
def ImpliesOlder (s : Store) : Prop :=
  ∀ p : PropertyId, p.index < s.properties.size →
    ∀ b ∈ (s.property p).supers, b.1.index < p.index

lemma Built.impliesOlder (hs : s.Built) : s.ImpliesOlder := fun _ _ _ => hs.property_lt

/-- They did so before. -/
lemma KeepsProperties.impliesOlder (h : s.KeepsProperties s') (hs : s'.ImpliesOlder) :
    s.ImpliesOlder := by
  intro p hp b hb
  rw [← h.property p hp] at hb
  exact hs p (Nat.lt_of_lt_of_le hp h.size) b hb

lemma LeavesProperties.keepsProperties (h : s.LeavesProperties s') : s.KeepsProperties s' :=
  ⟨Nat.le_of_eq (by rw [h]), fun p _ => h.property p⟩

/-! ### Complete lists of properties -/

/-- Properties are there, and with each of them comes all that it implies. -/
def Complete (s : Store) (ps : List PropertyId) : Prop :=
  ∀ p ∈ ps, p.index < s.properties.size ∧ ∀ b ∈ (s.property p).supers, b.1 ∈ ps

namespace Complete

lemma nil (s : Store) : s.Complete [] := nofun

lemma of_mem_iff (h : s.Complete ps) (hmem : ∀ p, p ∈ qs ↔ p ∈ ps) : s.Complete qs := by
  intro p hp
  obtain ⟨hlt, hsupers⟩ := h p ((hmem p).1 hp)
  exact ⟨hlt, fun b hb => (hmem b.1).2 (hsupers b hb)⟩

lemma append (h : s.Complete ps) (h' : s.Complete qs) : s.Complete (ps ++ qs) := by
  intro p hp
  rcases List.mem_append.1 hp with hp | hp
  · exact (h p hp).imp_right fun hsupers b hb => List.mem_append_left _ (hsupers b hb)
  · exact (h' p hp).imp_right fun hsupers b hb => List.mem_append_right _ (hsupers b hb)

lemma flatMap {α : Type} {l : List α} {f : α → List PropertyId}
    (h : ∀ x ∈ l, s.Complete (f x)) : s.Complete (l.flatMap f) := by
  intro p hp
  obtain ⟨x, hx, hp⟩ := List.mem_flatMap.1 hp
  exact (h x hx p hp).imp_right fun hsupers b hb => List.mem_flatMap.2 ⟨x, hx, hsupers b hb⟩

/-- Properties that are there stay what they are. -/
lemma keepsProperties (h : s.Complete ps) (hs : s.KeepsProperties s') : s'.Complete ps := by
  intro p hp
  obtain ⟨hlt, hsupers⟩ := h p hp
  rw [hs.property p hlt]
  exact ⟨Nat.lt_of_lt_of_le hlt hs.size, hsupers⟩

/-- Whatever a property of the list is, is in the list. -/
lemma mem_of_isA (h : s.Complete ps) (hp : p ∈ ps) (hq : s.isA p q) : q ∈ ps := by
  have hwithin : ∀ n p, p ∈ ps → s.isAWithin n p q → q ∈ ps := by
    intro n
    induction n with
    | zero =>
      intro p hp hq
      rw [isAWithin, beq_iff_eq] at hq
      exact hq ▸ hp
    | succ n ih =>
      intro p hp hq
      rw [isAWithin, Bool.or_eq_true, beq_iff_eq, List.any_eq_true] at hq
      rcases hq with rfl | ⟨b, hb, hq⟩
      · exact hp
      · exact ih b.1 ((h p hp).2 b hb) hq
  exact hwithin p.index p hp hq

end Complete

/-! ### Entries -/

/-- Within as many steps as there are older properties, all that is implied is reached. -/
lemma complete_expandWithin (hs : s.ImpliesOlder) {n : Nat}
    (he : e.property.index < s.properties.size) (hn : e.property.index ≤ n) :
    s.Complete ((s.expandWithin n e).map (·.property)) := by
  induction n generalizing e with
  | zero =>
    intro p hp
    obtain rfl : p = e.property := by simpa [expandWithin] using hp
    refine ⟨he, fun b hb => ?_⟩
    have := hs _ he b hb
    omega
  | succ n ih =>
    have himplied : ∀ b ∈ (s.property e.property).supers,
        s.Complete ((s.expandWithin n ⟨b.1, b.2, some e.property⟩).map (·.property)) := by
      intro b hb
      have hlt := hs _ he b hb
      exact ih (Nat.lt_trans hlt he) (by simp only; omega)
    have hself : ∀ e' : Entry, e'.property ∈ (s.expandWithin n e').map (·.property) := by
      intro e'
      cases n <;> simp [expandWithin]
    rw [expandWithin, List.map_cons, List.map_flatMap]
    intro p hp
    rcases List.mem_cons.1 hp with rfl | hp
    · refine ⟨he, fun b hb => List.mem_cons_of_mem _ (List.mem_flatMap.2 ⟨b, hb, ?_⟩)⟩
      exact hself ⟨b.1, b.2, some e.property⟩
    · exact (Complete.flatMap himplied p hp).imp_right
        fun hsupers b hb => List.mem_cons_of_mem _ (hsupers b hb)

/-- A declaration of properties that are there comes to complete entries. -/
lemma complete_entries (hs : s.ImpliesOlder) (hprocedure : 0 < s.properties.size)
    {declared : List (PropertyId × Value)}
    (hdeclared : ∀ b ∈ declared, b.1.index < s.properties.size) (procedure : Option Value) :
    s.Complete ((s.entries declared procedure).map (·.property)) := by
  rw [entries, List.map_append, List.map_flatMap]
  refine .append (.flatMap fun b hb => ?_) ?_
  · exact complete_expandWithin hs (hdeclared b hb) (Nat.le_refl _)
  · cases procedure with
    | none => exact .nil s
    | some v => exact complete_expandWithin hs hprocedure (Nat.le_refl _)

end Store

/-! ### Attachment -/

/-- Binding a value binds its property, and no other one. -/
lemma Store.mem_bindProperty_iff (h : s.bindProperty t a p v = .ok a') :
    q ∈ a'.bindings.map (·.1) ↔ q ∈ a.bindings.map (·.1) ∨ q = p := by
  have hbound : p ∈ a'.bindings.map (·.1) := by
    rw [bindProperty_eq] at h
    cases honce : s.bindOnce t a p v with
    | error c =>
      rw [honce] at h
      cases h
    | ok b =>
      rw [honce] at h
      cases h
      obtain ⟨-, hbinding⟩ := bindOnce_eq_ok honce
      by_contra hnot
      rw [bindingOf_eq_none_iff.2 fun b hb hp => hnot (List.mem_map.2 ⟨b, hb, hp⟩)] at hbinding
      cases hbinding
  rcases bindProperty_eq_ok h with rfl | ⟨-, hbindings, -⟩
  · constructor
    · exact .inl
    · rintro (hq | rfl)
      · exact hq
      · exact hbound
  · rw [hbindings]
    simp

/-- Whatever a guard or a derivation answers, an entry leaves its property bound. -/
lemma answersIn_attachEntry_mem (t : TypeId) (a : Attached) (e : Entry) (s : Store) :
    (attachEntry t a e).AnswersIn (fun _ => True) (fun a' => ∀ q,
      q ∈ a'.bindings.map (·.1) ↔ q ∈ a.bindings.map (·.1) ∨ q = e.property) s := by
  refine Computation.AnswersIn.bind trivial (.trivial _ s) fun v s _ _ => ?_
  refine Computation.AnswersIn.bind trivial (.trivial _ s) fun w s _ _ => ?_
  refine Computation.AnswersIn.get_bind trivial (Computation.AnswersIn.liftM trivial ?_)
  exact fun a' ha' q => Store.mem_bindProperty_iff ha'

lemma answersIn_attachEntries_mem (t : TypeId) (entries : List Entry) (a : Attached) (s : Store) :
    (attachEntries t entries a).AnswersIn (fun _ => True) (fun a' => ∀ q,
      q ∈ a'.bindings.map (·.1) ↔
        q ∈ a.bindings.map (·.1) ∨ q ∈ entries.map (·.property)) s := by
  induction entries generalizing a s with
  | nil => exact fun q => by simp
  | cons e rest ih =>
    refine (answersIn_attachEntry_mem t a e s).bind trivial fun a₁ s₁ _ ha₁ => ?_
    refine (ih a₁ s₁).mono fun a' ha' q => ?_
    rw [ha', ha₁, List.map_cons, List.mem_cons, or_assoc]

/-- With what is declared all that is implied is attached. -/
lemma answersIn_attachAll_complete (hs : s.ImpliesOlder) (hprocedure : 0 < s.properties.size)
    (t : TypeId) {declared : List (PropertyId × Value)}
    (hdeclared : ∀ b ∈ declared, b.1.index < s.properties.size) (procedure : Option Value) :
    (attachAll t declared procedure).AnswersIn (fun _ => True)
      (fun a => s.Complete (a.bindings.map (·.1))) s := by
  refine Computation.AnswersIn.get_bind trivial ?_
  refine Computation.AnswersIn.bind trivial (.trivial _ s) fun _ s₁ _ _ => ?_
  refine (answersIn_attachEntries_mem t _ {} s₁).mono fun a ha => ?_
  exact (Store.complete_entries hs hprocedure hdeclared procedure).of_mem_iff fun q => by
    simpa using ha q

end Records
