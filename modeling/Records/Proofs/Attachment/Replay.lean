import Records.Proofs.Attachment.Reading
import Records.Proofs.Computation.Trace
import Records.Proofs.Store.Built
import Mathlib.Data.List.Basic

/-!
# Attachment with fixed replies

If guards and derivations answer by the value of the property alone, what attachment comes to is
a function of the declared properties: neither the type that they are attached to nor what else is
in the store has a part in it, as long as the properties themselves stay what they are.

## Main definitions

* `Store.KeepsProperties`: later states of a store in which the properties are what they were.
* `Computation.Replays`: what a computation comes to, given fixed replies.
* `Store.replay`: what declared properties come to, given fixed replies.

## Main statements

* `bindings_of_runs_attachAll`: what attachment comes to.
* `Store.KeepsProperties.replay`: it comes to the same as long as the properties are kept.
-/

namespace Records

/-! ### Stores that keep their properties -/

/-- A later state of a store in which no property has changed. -/
structure Store.KeepsProperties (s s' : Store) : Prop where
  size : s.properties.size ≤ s'.properties.size
  property : ∀ p : PropertyId, p.index < s.properties.size → s'.property p = s.property p

instance : IsPreorder Store Store.KeepsProperties where
  refl _ := ⟨Nat.le_refl _, fun _ _ => rfl⟩
  trans _ _ _ h h' := by
    refine ⟨Nat.le_trans h.size h'.size, fun p hp => ?_⟩
    rw [h'.property p (Nat.lt_of_lt_of_le hp h.size), h.property p hp]

/-- What the properties of a store imply is there as well. -/
def Store.Implies (s : Store) : Prop :=
  ∀ p : PropertyId, p.index < s.properties.size →
    ∀ b ∈ (s.property p).supers, b.1.index < s.properties.size

namespace Store

variable {s s' : Store} {p q : PropertyId}

/-- The properties of a store that was built imply older ones, and did so before. -/
lemma KeepsProperties.implies (h : s.KeepsProperties s') (hs : s'.Built) : s.Implies := by
  intro p hp b hb
  rw [← h.property p hp] at hb
  exact Nat.lt_trans (hs.property_lt hb) hp

lemma KeepsProperties.isAWithin (h : s.KeepsProperties s') (hs : s.Implies) (n : Nat)
    (hp : p.index < s.properties.size) : s'.isAWithin n p q = s.isAWithin n p q := by
  induction n generalizing p with
  | zero => rfl
  | succ n ih =>
    rw [Store.isAWithin, Store.isAWithin, h.property p hp]
    refine congrArg (p == q || ·) ?_
    rw [Bool.eq_iff_iff, List.any_eq_true, List.any_eq_true]
    exact exists_congr fun b => and_congr_right fun hb => by rw [ih (hs p hp b hb)]

lemma KeepsProperties.isA (h : s.KeepsProperties s') (hs : s.Implies)
    (hp : p.index < s.properties.size) : s'.isA p q = s.isA p q :=
  h.isAWithin hs p.index hp

/-! ### Entries -/

lemma KeepsProperties.expandWithin (h : s.KeepsProperties s') (hs : s.Implies) (n : Nat)
    {e : Entry} (he : e.property.index < s.properties.size) :
    s'.expandWithin n e = s.expandWithin n e := by
  induction n generalizing e with
  | zero => rfl
  | succ n ih =>
    rw [Store.expandWithin, Store.expandWithin, h.property _ he]
    exact congrArg (e :: ·) (List.flatMap_congr fun b hb => ih (hs _ he b hb))

/-- Properties that are there come to the same entries. -/
lemma KeepsProperties.entries (h : s.KeepsProperties s') (hs : s.Implies)
    {declared : List (PropertyId × Value)}
    (hdeclared : ∀ b ∈ declared, b.1.index < s.properties.size) :
    s'.entries declared none = s.entries declared none := by
  refine congrArg (· ++ []) (List.flatMap_congr fun b hb => ?_)
  exact h.expandWithin hs _ (hdeclared b hb)

/-- An entry that a property comes to is about a property that it is. -/
lemma isAWithin_of_mem_expandWithin {n : Nat} {e e' : Entry} (h : e' ∈ s.expandWithin n e) :
    s.isAWithin n e.property e'.property := by
  induction n generalizing e with
  | zero =>
    rw [List.mem_singleton.1 h]
    simp [isAWithin]
  | succ n ih =>
    rw [isAWithin, Bool.or_eq_true]
    rcases List.mem_cons.1 h with rfl | h
    · exact .inl (by simp)
    · obtain ⟨b, hb, he'⟩ := List.mem_flatMap.1 h
      exact .inr (List.any_eq_true.2 ⟨b, hb, ih he'⟩)

lemma lt_of_mem_expandWithin (hs : s.Implies) {n : Nat} {e e' : Entry}
    (he : e.property.index < s.properties.size) (h : e' ∈ s.expandWithin n e) :
    e'.property.index < s.properties.size := by
  induction n generalizing e with
  | zero =>
    rw [List.mem_singleton.1 h]
    exact he
  | succ n ih =>
    rcases List.mem_cons.1 h with rfl | h
    · exact he
    · obtain ⟨b, hb, he'⟩ := List.mem_flatMap.1 h
      exact ih (hs _ he b hb) he'

/-- What is declared without a procedure comes to entries that are there. -/
lemma lt_of_mem_entries (hs : s.Implies) {declared : List (PropertyId × Value)}
    (hdeclared : ∀ b ∈ declared, b.1.index < s.properties.size) {e : Entry}
    (he : e ∈ s.entries declared none) : e.property.index < s.properties.size := by
  rw [entries, Option.elim_none, List.append_nil] at he
  obtain ⟨b, hb, he⟩ := List.mem_flatMap.1 he
  exact lt_of_mem_expandWithin hs (hdeclared b hb) he

/-- None of these entries is about the property of procedures if no declared property is. -/
lemma ne_procedure_of_mem_entries {declared : List (PropertyId × Value)}
    (hprocedure : ∀ b ∈ declared, s.isA b.1 Property.procedure = false) {e : Entry}
    (he : e ∈ s.entries declared none) : e.property ≠ Property.procedure := by
  intro heq
  rw [entries, Option.elim_none, List.append_nil] at he
  obtain ⟨b, hb, he⟩ := List.mem_flatMap.1 he
  have hisA : s.isA b.1 e.property = true := isAWithin_of_mem_expandWithin he
  rw [heq, hprocedure b hb] at hisA
  cases hisA

/-! ### Checks -/

/-- What is checked of a declaration depends on what its properties are, and on the number of
fields of the type. -/
lemma checkDeclared_congr {t t' : TypeId} (htotal : (s'.type t').totalCount = (s.type t).totalCount)
    {declared : List PropertyId} (hisA : ∀ p ∈ declared, ∀ q, s'.isA p q = s.isA p q)
    (bound : Bool) :
    (s'.checkDeclared t' bound declared).toOption =
      (s.checkDeclared t bound declared).toOption := by
  induction declared generalizing bound with
  | nil => rfl
  | cons p rest ih =>
    obtain ⟨hp, hrest⟩ := List.forall_mem_cons.1 hisA
    rw [checkDeclared, checkDeclared]
    simp only [hp, htotal]
    split
    · rfl
    · split
      · rfl
      · exact ih hrest _

end Store

/-! ### Fixed replies -/

/-- All calls were answered, by the procedure and by the first argument. -/
def Conforms (reply : Value → Option Value → List Value) (calls : List Exchange) : Prop :=
  ∀ x ∈ calls, x.reply = .ok (reply x.procedure x.arguments.head?)

variable {s₀ : Store} {reply : Value → Option Value → List Value}

lemma conforms_append {before after : List Exchange} :
    Conforms reply (before ++ after) ↔ Conforms reply before ∧ Conforms reply after :=
  List.forall_mem_append

namespace Computation

variable {α β γ δ : Type}

/-- A host that leaves the store alone can reply to every call. -/
lemma exists_runs_conforms {R : Store → Store → Prop} (hR : ∀ s, R s s)
    (reply : Value → Option Value → List Value) (c : Computation α) (s : Store) :
    ∃ calls out s', c.Runs R s calls out s' ∧ Conforms reply calls := by
  induction c generalizing s with
  | done a => exact ⟨[], _, _, ⟨rfl, rfl, rfl⟩, List.forall_mem_nil _⟩
  | fail e => exact ⟨[], _, _, ⟨rfl, rfl, rfl⟩, List.forall_mem_nil _⟩
  | call p args resume ih =>
    obtain ⟨rest, out, s', hrest, hconforms⟩ := ih (reply p args.head?) s
    exact ⟨_, out, s', .inr ⟨s, _, rest, hR s, rfl, hrest⟩,
      List.forall_mem_cons.2 ⟨rfl, hconforms⟩⟩
  | read next ih => exact ih s s
  | write s₁ next ih => exact ih s₁

/-- Run from a store with certain properties, with fixed replies and while the properties stay
what they are, a computation has an answer of which a view is given, or none. -/
def Replays (s₀ : Store) (reply : Value → Option Value → List Value) (view : α → β)
    (o : Option β) (c : Computation α) : Prop :=
  ∀ ⦃R : Store → Store → Prop⦄ ⦃s : Store⦄ ⦃calls : List Exchange⦄ ⦃out : Except Failure α⦄
    ⦃s' : Store⦄, (∀ s s', R s s' → s.KeepsProperties s') → s₀.KeepsProperties s →
      Conforms reply calls → c.Runs R s calls out s' →
        s₀.KeepsProperties s' ∧ out.toOption.map view = o

namespace Replays

variable {c : Computation α} {view : α → β} {view' : γ → δ} {o : Option β}

lemma done (a : α) : (Computation.done a).Replays s₀ reply view (some (view a)) := by
  rintro R s calls out s' - hs - ⟨-, rfl, rfl⟩
  exact ⟨hs, rfl⟩

lemma bind {f : α → Computation γ} {k : β → Option δ} (h : c.Replays s₀ reply view o)
    (hf : ∀ a, o = some (view a) → (f a).Replays s₀ reply view' (k (view a))) :
    (c.bind f).Replays s₀ reply view' (o.bind k) := by
  intro R s calls out s' hR hs hcalls hruns
  rcases runs_bind_iff.1 hruns with ⟨e, hc, rfl⟩ | ⟨a, s₁, before, after, hc, hrest, rfl⟩
  · obtain ⟨hs', rfl⟩ := h hR hs hcalls hc
    exact ⟨hs', rfl⟩
  · obtain ⟨hbefore, hafter⟩ := conforms_append.1 hcalls
    obtain ⟨hs₁, rfl⟩ := h hR hs hbefore hc
    exact hf a rfl hR hs₁ hafter hrest

/-- Looking at the store first. -/
lemma get_bind {f : Store → Computation α}
    (h : ∀ s, s₀.KeepsProperties s → (f s).Replays s₀ reply view o) :
    ((ofStoreM (get : StoreM Store)).bind f).Replays s₀ reply view o :=
  fun _ s _ _ _ hR hs hcalls hruns => h s hs hR hs hcalls hruns

/-- A check. -/
lemma check (result : Except Condition α) (h : result.toOption.map view = o) :
    (ofStoreM (monadLift result : StoreM α)).Replays s₀ reply view o := by
  subst h
  intro R s calls out s' _ hs _ hruns
  obtain ⟨-, hrun⟩ := runs_ofStoreM_iff.1 hruns
  cases result with
  | error e =>
    cases hrun
    exact ⟨hs, rfl⟩
  | ok a =>
    cases hrun
    exact ⟨hs, rfl⟩

lemma apply (p : Value) (args : List Value) :
    (Computation.apply p args).Replays s₀ reply id (some (reply p args.head?)) := by
  rintro R s calls out s' hR hs hcalls (⟨e, hmove, rfl, rfl⟩ |
    ⟨s₁, results, rest, hmove, rfl, ⟨rfl, rfl, rfl⟩⟩)
  · cases hcalls _ (List.mem_singleton_self _)
  · have hresults : Except.ok results = Except.ok (reply p args.head?) :=
      hcalls _ (List.mem_singleton_self _)
    obtain rfl := Except.ok.inj hresults
    exact ⟨trans_of Store.KeepsProperties hs (hR s _ hmove), rfl⟩

end Replays

end Computation

/-! ### What attachment comes to -/

/-- The one result of a call. -/
def single? : List Value → Option Value
  | [v] => some v
  | _ => none

/-- The value of an entry, behind certain bindings. -/
def replayDerive (reply : Value → Option Value → List Value)
    (bindings : List (PropertyId × Value)) (e : Entry) : Option Value :=
  match e.source.bind (bindingOf bindings) with
  | some input => single? (reply e.value (some input))
  | none => some e.value

/-- The value of a property as its guard leaves it. -/
def replayGuard (s₀ : Store) (reply : Value → Option Value → List Value) (p : PropertyId)
    (v : Value) : Option Value :=
  match (s₀.property p).guard with
  | some guard => single? (reply guard (some v))
  | none => some v

/-- The bindings with one more, unless the property has an equal value already. -/
def replayBind (bindings : List (PropertyId × Value)) (p : PropertyId) (v : Value) :
    Option (List (PropertyId × Value)) :=
  match bindingOf bindings p with
  | some existing => if existing == v then some bindings else none
  | none => some (bindings ++ [(p, v)])

/-- The bindings that settling entries comes to. -/
def replayEntries (s₀ : Store) (reply : Value → Option Value → List Value) :
    List Entry → List (PropertyId × Value) → Option (List (PropertyId × Value))
  | [], bindings => some bindings
  | e :: rest, bindings => do
    let v ← replayDerive reply bindings e
    let v ← replayGuard s₀ reply e.property v
    replayEntries s₀ reply rest (← replayBind bindings e.property v)

variable {t : TypeId} {a : Attached}

lemma toOption_single (context : String) (results : List Value) :
    (single context results).toOption = single? results := by
  rcases results with _ | ⟨v, _ | ⟨w, rest⟩⟩ <;> rfl

lemma replays_settle (p : PropertyId) (procedure v : Value) (args : List Value) :
    (settle p procedure (v :: args)).Replays s₀ reply id (single? (reply procedure (some v))) := by
  refine (Computation.Replays.apply procedure (v :: args)).bind (k := single?) fun results _ => ?_
  refine .get_bind fun s _ => .check _ ?_
  rw [toOption_single, Option.map_id]
  rfl

lemma replays_deriveValue (e : Entry) :
    (deriveValue a e).Replays s₀ reply id (replayDerive reply a.bindings e) := by
  unfold deriveValue replayDerive
  cases e.source.bind (bindingOf a.bindings) with
  | none => exact .done e.value
  | some input => exact replays_settle _ _ _ _

lemma replays_guardValue {p : PropertyId} (hp : p.index < s₀.properties.size) (v : Value) :
    (guardValue t p v).Replays s₀ reply id (replayGuard s₀ reply p v) := by
  refine .get_bind fun s hs => ?_
  rw [hs.property p hp, replayGuard]
  cases (s₀.property p).guard with
  | none => exact .done v
  | some guard => exact replays_settle _ _ _ _

/-- Binding another property than that of procedures. -/
lemma toOption_bindProperty (s : Store) {p : PropertyId} (hp : p ≠ Property.procedure) (v : Value) :
    (s.bindProperty t a p v).toOption.map (·.bindings) = replayBind a.bindings p v := by
  unfold Store.bindProperty replayBind
  cases bindingOf a.bindings p with
  | some existing =>
    dsimp only
    split <;> rfl
  | none =>
    simp only [if_neg hp]
    rfl

lemma replays_attachEntry {e : Entry} (he : e.property.index < s₀.properties.size)
    (hprocedure : e.property ≠ Property.procedure) :
    (attachEntry t a e).Replays s₀ reply (·.bindings)
      ((replayDerive reply a.bindings e).bind fun v =>
        (replayGuard s₀ reply e.property v).bind (replayBind a.bindings e.property)) := by
  refine (replays_deriveValue e).bind fun v _ => ?_
  refine (replays_guardValue he v).bind fun v _ => ?_
  exact .get_bind fun s _ => .check _ (toOption_bindProperty s hprocedure v)

/-- Settling entries comes to the bindings that the replies determine. -/
lemma replays_attachEntries {entries : List Entry}
    (hentries : ∀ e ∈ entries, e.property.index < s₀.properties.size ∧
      e.property ≠ Property.procedure) (a : Attached) :
    (attachEntries t entries a).Replays s₀ reply (·.bindings)
      (replayEntries s₀ reply entries a.bindings) := by
  induction entries generalizing a with
  | nil => exact .done a
  | cons e rest ih =>
    obtain ⟨⟨he, hprocedure⟩, hrest⟩ := List.forall_mem_cons.1 hentries
    have hentry : (attachEntry t a e).Replays s₀ reply (·.bindings) _ :=
      replays_attachEntry he hprocedure
    have hall := hentry.bind (k := replayEntries s₀ reply rest) fun a _ => ih hrest a
    simp only [Option.bind_assoc] at hall
    exact hall

/-- What declared properties come to on a type, with fixed replies. The type has a part only in
what is checked first. -/
def Store.replay (s : Store) (reply : Value → Option Value → List Value) (t : TypeId)
    (declared : List (PropertyId × Value)) : Option (List (PropertyId × Value)) :=
  (s.checkDeclared t false (declared.map (·.1))).toOption.bind fun _ =>
    replayEntries s reply (s.entries declared none) []

variable {s s' : Store} {declared : List (PropertyId × Value)}

/-- What attachment comes to. -/
theorem bindings_of_runs_attachAll {R : Store → Store → Prop} {calls : List Exchange}
    {out : Except Failure Attached} (hs : s.Implies)
    (hdeclared : ∀ b ∈ declared, b.1.index < s.properties.size)
    (hprocedure : ∀ b ∈ declared, s.isA b.1 Property.procedure = false)
    (hR : ∀ s s', R s s' → s.KeepsProperties s') (hcalls : Conforms reply calls)
    (h : (attachAll t declared none).Runs R s calls out s') :
    out.toOption.map (·.bindings) = s.replay reply t declared := by
  have hentries : (attachEntries t (s.entries declared none) {}).Replays s reply (·.bindings)
      (replayEntries s reply (s.entries declared none) []) :=
    replays_attachEntries (fun e he => ⟨Store.lt_of_mem_entries hs hdeclared he,
      Store.ne_procedure_of_mem_entries hprocedure he⟩) {}
  have hcheck : (Computation.ofStoreM (monadLift
      (s.checkDeclared t false (declared.map (·.1))) : StoreM Unit)).Replays s reply id _ :=
    .check _ rfl
  have hall := hcheck.bind
    (k := fun _ => replayEntries s reply (s.entries declared none) []) (fun _ _ => hentries)
    hR (refl_of Store.KeepsProperties s) hcalls h
  rw [hall.2, Option.map_id]
  rfl

lemma Store.KeepsProperties.replayEntries (h : s.KeepsProperties s') {entries : List Entry}
    (hentries : ∀ e ∈ entries, e.property.index < s.properties.size)
    (bindings : List (PropertyId × Value)) :
    Records.replayEntries s' reply entries bindings =
      Records.replayEntries s reply entries bindings := by
  induction entries generalizing bindings with
  | nil => rfl
  | cons e rest ih =>
    obtain ⟨he, hrest⟩ := List.forall_mem_cons.1 hentries
    simp only [Records.replayEntries, replayGuard, h.property _ he, ih hrest]

/-- Declared properties come to the same on types with equally many fields, whenever that is. -/
lemma Store.KeepsProperties.replay (h : s.KeepsProperties s') (hs : s.Implies)
    (hdeclared : ∀ b ∈ declared, b.1.index < s.properties.size) {t t' : TypeId}
    (htotal : (s'.type t').totalCount = (s.type t).totalCount) :
    s'.replay reply t' declared = s.replay reply t declared := by
  have hisA : ∀ p ∈ declared.map (·.1), ∀ q, s'.isA p q = s.isA p q := by
    intro p hp q
    obtain ⟨b, hb, rfl⟩ := List.mem_map.1 hp
    exact h.isA hs (hdeclared b hb)
  rw [Store.replay, Store.replay, Store.checkDeclared_congr htotal hisA, h.entries hs hdeclared]
  exact congrArg _ <| funext fun _ =>
    h.replayEntries (fun e he => Store.lt_of_mem_entries hs hdeclared he) []

end Records
