import Records.Host
import Records.Proofs.Computation.Advance
import Mathlib.Data.List.Nodup
import Mathlib.Data.List.Perm.Subperm

/-!
# Chains of records

A record hands its arguments on to what its type designates, and this may be another record. A
value leads to a procedure if handing on comes to an end there. The arity of such a value is that
of the procedure, without the arguments that are put in front on the way.

## Main definitions

* `Store.designated?`, `Store.inFront`: what a record hands its arguments on to, and what it puts
  in front of them.
* `Store.LeadsTo`: a value leads to a procedure by way of certain records.
* `Arity.drop`, `Arity.Underrun`: an arity behind a number of arguments, and an arity that does not
  reach so far.

## Main statements

* `Store.LeadsTo.unique`, `Store.LeadsTo.length_le`: a chain is determined by its value, and no
  longer than there are records.
* `Store.LeadsTo.arity?_eq`: the arity of a value that leads to a procedure.
* `Store.run_advance_callRecord`: one link of a chain.
-/

namespace Records

/-! ### Arities behind supplied arguments -/

namespace Arity

variable {a : Arity} {k l n : Nat}

/-- What callers see of an arity once a number of arguments is supplied for them. -/
def drop (k : Nat) (a : Arity) : Arity := ⟨a.min - k, a.max.map (· - k)⟩

/-- More arguments are supplied than are accepted, and not too few of them. -/
def Underrun (a : Arity) (k : Nat) : Prop := a.min ≤ k ∧ ∃ m, a.max = some m ∧ m < k

@[simp] lemma drop_zero (a : Arity) : a.drop 0 = a := by
  cases a
  simp [drop]

@[simp] lemma drop_drop (a : Arity) (k l : Nat) : (a.drop k).drop l = a.drop (k + l) := by
  simp [drop, Nat.sub_sub, Function.comp_def]

/-- Nothing is accepted behind more arguments than the arity has room for, except, by mistake, no
argument at all. -/
lemma accepts_drop_iff :
    (a.drop k).accepts n ↔ a.accepts (n + k) ∨ n = 0 ∧ a.Underrun k := by
  simp only [accepts_iff, drop, Option.map_eq_some_iff, Underrun]
  constructor
  · rintro ⟨hmin, hmax⟩
    by_cases hreach : ∀ m, a.max = some m → n + k ≤ m
    · exact .inl ⟨by omega, hreach⟩
    · push Not at hreach
      obtain ⟨m, hm, hlt⟩ := hreach
      have hle := hmax (m - k) ⟨m, hm, rfl⟩
      exact .inr ⟨by omega, by omega, m, hm, by omega⟩
  · rintro (⟨hmin, hmax⟩ | ⟨rfl, hmin, -⟩)
    · refine ⟨by omega, ?_⟩
      rintro _ ⟨m, hm, rfl⟩
      have := hmax m hm
      omega
    · exact ⟨by omega, fun _ _ => Nat.zero_le _⟩

lemma underrun_drop_iff : (a.drop k).Underrun l ↔ 0 < l ∧ a.Underrun (k + l) := by
  simp only [Underrun, drop, Option.map_eq_some_iff]
  constructor
  · rintro ⟨hmin, _, ⟨m, hm, rfl⟩, hlt⟩
    exact ⟨by omega, by omega, m, hm, by omega⟩
  · rintro ⟨hl, hmin, m, hm, hlt⟩
    exact ⟨by omega, _, ⟨m, hm, rfl⟩, by omega⟩

lemma not_accepts_of_underrun (h : a.Underrun k) : ¬a.accepts k := by
  obtain ⟨-, m, hm, hlt⟩ := h
  rw [accepts_iff]
  exact fun haccepts => absurd (haccepts.2 m hm) (Nat.not_le.2 hlt)

lemma accepts_drop_of_accepts (h : a.accepts (n + k)) : (a.drop k).accepts n :=
  accepts_drop_iff.2 (.inl h)

end Arity

/-- Reading the store leads to what follows at once. -/
lemma Computation.run_advance_get_bind {α : Type} (f : Store → Computation α) (s : Store) :
    ((Computation.ofStoreM (get : StoreM Store)).bind f).advance.run s = (f s).advance.run s :=
  rfl

namespace Store

variable {s : Store} {i : InstanceId} {v : Value} {ids : List InstanceId} {p : Procedure}

/-! ### Links -/

/-- What a record hands its arguments on to. -/
def designated? (s : Store) (i : InstanceId) : Option Value :=
  match (s.typeOf i).procedure? with
  | some ⟨.procedure v, _⟩ => some v
  | some ⟨.field index, source⟩ => (s.read i source index).toOption
  | none => none

/-- What a record puts in front of its arguments: itself, unless it hands them on to a field. -/
def inFront (s : Store) (i : InstanceId) : List Value :=
  match (s.typeOf i).procedure? with
  | some ⟨.procedure _, _⟩ => [.record i]
  | _ => []

lemma inFront_of_procedure {source : TypeId}
    (h : (s.typeOf i).procedure? = some ⟨.procedure v, source⟩) : s.inFront i = [.record i] := by
  rw [inFront, h]

lemma inFront_of_field {index : Nat} {source : TypeId}
    (h : (s.typeOf i).procedure? = some ⟨.field index, source⟩) : s.inFront i = [] := by
  rw [inFront, h]

lemma designated?_eq_some_iff : s.designated? i = some v ↔
    (∃ source, (s.typeOf i).procedure? = some ⟨.procedure v, source⟩) ∨
    ∃ index source, (s.typeOf i).procedure? = some ⟨.field index, source⟩ ∧
      s.read i source index = .ok v := by
  rw [designated?]
  rcases (s.typeOf i).procedure? with _ | ⟨w | index, source⟩
  · simp
  · simp
  · cases hread : s.read i source index <;> simp [hread, Except.toOption]

/-- A record goes on to what it hands its arguments on to. -/
lemma arityWithin_record (hv : s.designated? i = some v) (n : Nat) :
    s.arityWithin (n + 1) (.record i) =
      (s.arityWithin n v).map (·.drop (s.inFront i).length) := by
  rcases designated?_eq_some_iff.1 hv with ⟨source, hb⟩ | ⟨index, source, hb, hread⟩
  · rw [arityWithin, hb, inFront_of_procedure hb]
    rfl
  · rw [arityWithin, hb, inFront_of_field hb]
    simp [hread]

/-- What a record does with its arguments once it knows what to hand them on to: it hands them on,
unless the arity of that is known and refuses them. -/
def handOn (s : Store) (i : InstanceId) (v : Value) (args : List Value) :
    Computation (List Value) :=
  match s.arity? v with
  | none => Computation.apply v (s.inFront i ++ args)
  | some b =>
    if b.accepts (s.inFront i ++ args).length then Computation.apply v (s.inFront i ++ args)
    else refuseArity i (b.drop (s.inFront i).length) args.length

lemma run_advance_callRecord (hv : s.designated? i = some v) (args : List Value) :
    (callRecord i args).advance.run s = (s.handOn i v args).advance.run s := by
  refine (Computation.run_advance_get_bind _ s).trans ?_
  rcases designated?_eq_some_iff.1 hv with ⟨source, hb⟩ | ⟨index, source, hb, hread⟩
  · rw [handOn, inFront_of_procedure hb]
    simp only [hb]
    rfl
  · rw [handOn, inFront_of_field hb]
    simp only [hb, hread, List.nil_append, List.length_nil, Arity.drop_zero]
    rfl

lemma handOn_of_accepts {args : List Value}
    (h : ∀ b, s.arity? v = some b → b.accepts (s.inFront i ++ args).length) :
    s.handOn i v args = Computation.apply v (s.inFront i ++ args) := by
  unfold handOn
  cases hb : s.arity? v with
  | none => rfl
  | some b =>
    dsimp only
    rw [if_pos (h b hb)]

lemma handOn_of_not_accepts {b : Arity} {args : List Value} (hb : s.arity? v = some b)
    (h : ¬b.accepts (s.inFront i ++ args).length) :
    s.handOn i v args = refuseArity i (b.drop (s.inFront i).length) args.length := by
  rw [handOn, hb]
  exact if_neg h

/-! ### Chains -/

/-- A value leads to a procedure by way of certain records, the outermost one first. -/
inductive LeadsTo (s : Store) : Value → List InstanceId → Procedure → Prop where
  | procedure (p : Procedure) : LeadsTo s (.procedure p) [] p
  | record {i : InstanceId} {v : Value} {ids : List InstanceId} {p : Procedure}
      (hi : i.index < s.instances.size) (hv : s.designated? i = some v)
      (h : LeadsTo s v ids p) : LeadsTo s (.record i) (i :: ids) p

/-- What records put in front of the arguments of the outermost one, what the innermost one puts
there first. -/
def fronts (s : Store) : List InstanceId → List Value
  | [] => []
  | i :: ids => s.fronts ids ++ s.inFront i

namespace LeadsTo

/-- A chain is determined by the value it begins with. -/
lemma unique {ids' : List InstanceId} {p' : Procedure} (h : s.LeadsTo v ids p)
    (h' : s.LeadsTo v ids' p') : ids = ids' ∧ p = p' := by
  induction h generalizing ids' with
  | procedure p =>
    cases h'
    exact ⟨rfl, rfl⟩
  | record hi hv _ ih =>
    cases h' with
    | record _ hv' h' =>
      rw [hv] at hv'
      cases hv'
      obtain ⟨rfl, rfl⟩ := ih h'
      exact ⟨rfl, rfl⟩

/-- From every record of a chain on there is a chain that is a part of it. -/
lemma exists_suffix (h : s.LeadsTo v ids p) {i : InstanceId} (hi : i ∈ ids) :
    ∃ before after, ids = before ++ i :: after ∧ s.LeadsTo (.record i) (i :: after) p := by
  induction h with
  | procedure p => cases hi
  | @record j v ids p hj hv h ih =>
    rcases List.mem_cons.1 hi with rfl | hmem
    · exact ⟨[], ids, rfl, .record hj hv h⟩
    · obtain ⟨before, after, rfl, hafter⟩ := ih hmem
      exact ⟨j :: before, after, rfl, hafter⟩

/-- No record is met twice: from there on the chain would have to be longer than itself. -/
lemma nodup (h : s.LeadsTo v ids p) : ids.Nodup := by
  induction h with
  | procedure p => exact List.nodup_nil
  | @record i v ids p hi hv h ih =>
    refine List.nodup_cons.2 ⟨fun hmem => ?_, ih⟩
    obtain ⟨before, after, hids, hagain⟩ := h.exists_suffix hmem
    obtain ⟨hsame, -⟩ := (record hi hv h).unique hagain
    have hlength := congrArg List.length hids
    rw [(List.cons.inj hsame).2, List.length_append, List.length_cons] at hlength
    omega

lemma lt_of_mem (h : s.LeadsTo v ids p) (hi : i ∈ ids) : i.index < s.instances.size := by
  induction h with
  | procedure p => cases hi
  | record hj _ _ ih =>
    rcases List.mem_cons.1 hi with rfl | hmem
    · exact hj
    · exact ih hmem

/-- A chain is no longer than there are records. -/
lemma length_le (h : s.LeadsTo v ids p) : ids.length ≤ s.instances.size := by
  have hinjective : Function.Injective fun i : InstanceId => i.index := by
    rintro ⟨i⟩ ⟨j⟩ (rfl : i = j)
    rfl
  have hnodup : (ids.map (·.index)).Nodup := List.Nodup.map hinjective h.nodup
  have hsubset : ids.map (·.index) ⊆ List.range s.instances.size := by
    intro n hn
    obtain ⟨i, hi, rfl⟩ := List.mem_map.1 hn
    exact List.mem_range.2 (h.lt_of_mem hi)
  simpa using (List.subperm_of_subset hnodup hsubset).length_le

lemma arityWithin_eq (h : s.LeadsTo v ids p) {n : Nat} (hn : ids.length ≤ n) :
    s.arityWithin n v = some ((s.procedureArity p).drop (s.fronts ids).length) := by
  induction h generalizing n with
  | procedure p =>
    rw [arityWithin]
    simp [fronts]
  | record _ hv _ ih =>
    obtain ⟨n, rfl⟩ : ∃ m, n = m + 1 := ⟨n - 1, by simp at hn; omega⟩
    rw [arityWithin_record hv, ih (Nat.le_of_succ_le_succ hn), Option.map_some, Arity.drop_drop,
      fronts, List.length_append]

/-- The arity of a value that leads to a procedure is that of the procedure, behind all that is
put in front of the arguments. -/
theorem arity?_eq (h : s.LeadsTo v ids p) :
    s.arity? v = some ((s.procedureArity p).drop (s.fronts ids).length) :=
  h.arityWithin_eq (Nat.le_succ_of_le h.length_le)

end LeadsTo

end Store

end Records
