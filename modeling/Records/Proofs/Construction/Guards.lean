import Records.Construction
import Records.Proofs.Computation.Trace
import Mathlib.Algebra.GroupWithZero.Nat

/-!
# Guards of constructors

The guards of a chain of types run in turn, the most derived one first, on the arguments of the
whole chain. Each sees the arguments for its own part of the chain as the guards before it left
them, and puts back as many. `Guarded` says so of all the arguments at once; the constructor,
which splits them up level by level, makes the same calls and comes to the same arguments.

## Main statements

* `runs_buildStorage_iff`: the constructor makes exactly the calls of `Guarded`.
-/

namespace Records

/-- The number of constructor arguments for a chain of types. -/
def argumentCount (types : List RecordType) : Nat := (types.map (·.initCount)).sum

/-- What a guard makes of its arguments, by its reply. -/
def guardReply (t : RecordType) (args : List Value) :
    Except Failure (List Value) → Except Failure (List Value)
  | .error e => .error e
  | .ok [] => .ok args
  | .ok results =>
    if results.length = args.length then .ok results
    else .error <| .condition <|
      .resultCount (t.name.name ++ " guard") args.length results.length

/-- The guards of a chain, run on all arguments with the calls and replies that are listed, fail
or leave for each type the arguments that were there after its guard. -/
inductive Guarded :
    List RecordType → List Value → List Exchange → Except Failure (List (List Value)) → Prop where
  | root {args : List Value} : Guarded [] args [] (.ok [])
  | free {t : RecordType} {supers : List RecordType} {args : List Value}
      {calls : List Exchange} {out : Except Failure (List (List Value))}
      (hguard : t.guard = none) (hrest : Guarded supers args calls out) :
      Guarded (t :: supers) args calls (out.map (args :: ·))
  | passed {t : RecordType} {supers : List RecordType} {args left : List Value} {guard : Value}
      {reply : Except Failure (List Value)} {calls : List Exchange}
      {out : Except Failure (List (List Value))}
      (hguard : t.guard = some guard)
      (hreply : guardReply t (args.take (argumentCount (t :: supers))) reply = .ok left)
      (hrest : Guarded supers (left ++ args.drop (argumentCount (t :: supers))) calls out) :
      Guarded (t :: supers) args
        (⟨guard, args.take (argumentCount (t :: supers)) ++ [.symbol t.name], reply⟩ :: calls)
        (out.map ((left ++ args.drop (argumentCount (t :: supers))) :: ·))
  | stopped {t : RecordType} {supers : List RecordType} {args : List Value} {guard : Value}
      {reply : Except Failure (List Value)} {e : Failure}
      (hguard : t.guard = some guard)
      (hreply : guardReply t (args.take (argumentCount (t :: supers))) reply = .error e) :
      Guarded (t :: supers) args
        [⟨guard, args.take (argumentCount (t :: supers)) ++ [.symbol t.name], reply⟩] (.error e)

/-- The row of fields, by the arguments that were there after each guard. -/
def storage : List RecordType → List (List Value) → List Value
  | t :: supers, args :: rest =>
    storage supers rest ++ (args.drop (argumentCount supers)).take t.initCount ++ t.autoValues
  | _, _ => []

/-- Where the store may be after some calls. -/
def Moved (R : Store → Store → Prop) (calls : List Exchange) (s s' : Store) : Prop :=
  (calls = [] ∧ s' = s) ∨ (calls ≠ [] ∧ R s s')

variable {R : Store → Store → Prop} {s s' : Store} {calls : List Exchange}

lemma length_of_guardReply {t : RecordType} {args left : List Value}
    {reply : Except Failure (List Value)} (h : guardReply t args reply = .ok left) :
    left.length = args.length := by
  unfold guardReply at h
  split at h
  · cases h
  · cases h
    rfl
  · split at h
    · cases h
      assumption
    · cases h

/-- What follows the call of a guard. -/
lemma runs_reply_iff {t : RecordType} {args results : List Value}
    {out : Except Failure (List Value)} :
    Computation.Runs R (do
        if results.isEmpty then
          return args
        else if results.length = args.length then
          return results
        else
          raise <| .resultCount (t.name.name ++ " guard") args.length results.length)
      s calls out s' ↔ calls = [] ∧ out = guardReply t args (.ok results) ∧ s' = s := by
  cases results with
  | nil => exact Iff.rfl
  | cons v results =>
    have hreply : guardReply t args (.ok (v :: results)) =
        if (v :: results).length = args.length then .ok (v :: results)
        else .error <| .condition <|
          .resultCount (t.name.name ++ " guard") args.length (v :: results).length := rfl
    rw [if_neg (by simp), hreply]
    by_cases hlen : (v :: results).length = args.length
    · rw [if_pos hlen, if_pos hlen]
      exact Iff.rfl
    · rw [if_neg hlen, if_neg hlen]
      exact Iff.rfl

/-- A guard is one call; without a guard there is none. -/
lemma runs_guardArguments_iff {t : RecordType} {args : List Value}
    {out : Except Failure (List Value)} :
    (guardArguments t args).Runs R s calls out s' ↔
      match t.guard with
      | none => calls = [] ∧ out = .ok args ∧ s' = s
      | some guard => ∃ reply, calls = [⟨guard, args ++ [.symbol t.name], reply⟩] ∧ R s s' ∧
          out = guardReply t args reply := by
  unfold guardArguments
  cases t.guard with
  | none => exact Iff.rfl
  | some guard =>
    constructor
    · rintro (⟨e, hR, rfl, rfl⟩ | ⟨s₁, results, rest, hR, rfl, h⟩)
      · exact ⟨.error e, rfl, hR, rfl⟩
      · obtain ⟨rfl, rfl, rfl⟩ := runs_reply_iff.1 h
        exact ⟨.ok results, rfl, hR, rfl⟩
    · rintro ⟨e | results, rfl, hR, rfl⟩
      · exact .inl ⟨e, hR, rfl, rfl⟩
      · exact .inr ⟨s', results, [], hR, rfl, runs_reply_iff.2 ⟨rfl, rfl, rfl⟩⟩

/-- What follows the arguments of a type starts after the call of its guard. -/
lemma runs_guardArguments_bind_iff {t : RecordType} {guard : Value} (hguard : t.guard = some guard)
    {args : List Value} {f : List Value → Computation (List Value)}
    {out : Except Failure (List Value)} :
    ((guardArguments t args).bind f).Runs R s calls out s' ↔
      ∃ reply after s₁, calls = ⟨guard, args ++ [.symbol t.name], reply⟩ :: after ∧ R s s₁ ∧
        match guardReply t args reply with
        | .error e => after = [] ∧ out = .error e ∧ s' = s₁
        | .ok left => (f left).Runs R s₁ after out s' := by
  rw [Computation.runs_bind_iff]
  simp only [runs_guardArguments_iff, hguard]
  constructor
  · rintro (⟨e, ⟨reply, rfl, hR, hreply⟩, rfl⟩ |
      ⟨left, s₁, before, after, ⟨reply, rfl, hR, hreply⟩, hleft, rfl⟩)
    · refine ⟨reply, [], s', rfl, hR, ?_⟩
      rw [← hreply]
      exact ⟨rfl, rfl, rfl⟩
    · refine ⟨reply, after, s₁, rfl, hR, ?_⟩
      rw [← hreply]
      exact hleft
  · rintro ⟨reply, after, s₁, rfl, hR, hafter⟩
    cases hreply : guardReply t args reply with
    | error e =>
      rw [hreply] at hafter
      obtain ⟨rfl, rfl, rfl⟩ := hafter
      exact .inl ⟨e, ⟨reply, rfl, hR, hreply.symm⟩, rfl⟩
    | ok left =>
      rw [hreply] at hafter
      exact .inr ⟨left, s₁, [_], after, ⟨reply, rfl, hR, hreply.symm⟩, hafter, rfl⟩

lemma argumentCount_cons (t : RecordType) (supers : List RecordType) :
    argumentCount (t :: supers) = t.initCount + argumentCount supers := by
  simp [argumentCount]

/-- What a type appends to the row of its super types. -/
lemma storage_cons {t : RecordType} {supers : List RecordType} {left rest : List Value}
    (hleft : left.length = argumentCount (t :: supers)) (snapshots : List (List Value)) :
    storage (t :: supers) ((left ++ rest) :: snapshots) =
      storage supers snapshots ++ left.drop (argumentCount supers) ++ t.autoValues := by
  rw [argumentCount_cons] at hleft
  have hdrop : ((left ++ rest).drop (argumentCount supers)).take t.initCount =
      left.drop (argumentCount supers) := by
    rw [List.drop_append_of_le_length (by omega), List.take_left']
    rw [List.length_drop]
    omega
  rw [storage, hdrop]

/-- The row of a type on the arguments that its guard has left. -/
def buildOwn (t : RecordType) (supers : List RecordType) (left : List Value) :
    Computation (List Value) :=
  if left.length < t.initCount then
    .fail .outOfBounds
  else do
    let inheritedCount := left.length - t.initCount
    let inherited ← buildStorage supers (left.take inheritedCount)
    return inherited ++ left.drop inheritedCount ++ t.autoValues

/-- A type builds its row on the row of its super types. -/
lemma runs_buildOwn_iff {t : RecordType} {supers : List RecordType} {left rest : List Value}
    {out : Except Failure (List Value)} (hleft : left.length = argumentCount (t :: supers))
    (ih : ∀ {out}, (buildStorage supers (left.take (argumentCount supers))).Runs R s calls out s' ↔
      Moved R calls s s' ∧ ∃ result, Guarded supers (left ++ rest) calls result ∧
        out = result.map (storage supers)) :
    (buildOwn t supers left).Runs R s calls out s' ↔
      Moved R calls s s' ∧ ∃ result, Guarded supers (left ++ rest) calls result ∧
        out = (result.map ((left ++ rest) :: ·)).map (storage (t :: supers)) := by
  rw [argumentCount_cons] at hleft
  have henough : ¬left.length < t.initCount := by omega
  have hcount : left.length - t.initCount = argumentCount supers := by omega
  have hstorage : ∀ result : Except Failure (List (List Value)),
      (result.map (storage supers)).map
          (· ++ left.drop (argumentCount supers) ++ t.autoValues) =
        (result.map ((left ++ rest) :: ·)).map (storage (t :: supers)) := by
    rintro (e | snapshots)
    · rfl
    · show Except.ok _ = Except.ok _
      rw [storage_cons (hleft.trans (argumentCount_cons t supers).symm)]
  rw [buildOwn, if_neg henough]
  show ((buildStorage supers (left.take (left.length - t.initCount))).bind fun inherited =>
    .done (inherited ++ left.drop (left.length - t.initCount) ++ t.autoValues)).Runs R s
      calls out s' ↔ _
  rw [hcount, Computation.runs_map_iff]
  constructor
  · rintro ⟨built, hbuilt, rfl⟩
    obtain ⟨hmoved, result, hresult, rfl⟩ := ih.1 hbuilt
    exact ⟨hmoved, result, hresult, hstorage result⟩
  · rintro ⟨hmoved, result, hresult, rfl⟩
    exact ⟨_, ih.2 ⟨hmoved, result, hresult, rfl⟩, (hstorage result).symm⟩

/-- The calls after a first one. -/
lemma moved_cons_iff [IsPreorder Store R] {call : Exchange} {rest : List Exchange} :
    Moved R (call :: rest) s s' ↔ ∃ s₁, R s s₁ ∧ Moved R rest s₁ s' := by
  constructor
  · rintro (⟨hnil, -⟩ | ⟨-, hR⟩)
    · cases hnil
    · cases rest with
      | nil => exact ⟨s', hR, .inl ⟨rfl, rfl⟩⟩
      | cons call rest => exact ⟨s, refl_of R s, .inr ⟨List.cons_ne_nil _ _, hR⟩⟩
  · rintro ⟨s₁, hR, ⟨-, rfl⟩ | ⟨-, hR'⟩⟩
    · exact .inr ⟨List.cons_ne_nil _ _, hR⟩
    · exact .inr ⟨List.cons_ne_nil _ _, trans_of R hR hR'⟩

namespace Guarded

variable {t : RecordType} {supers : List RecordType} {args rest : List Value} {guard : Value}
  {result : Except Failure (List (List Value))}

lemma unguarded_iff (hguard : t.guard = none) :
    Guarded (t :: supers) args calls result ↔
      ∃ out, Guarded supers args calls out ∧ result = out.map (args :: ·) := by
  constructor
  · intro h
    cases h with
    | free _ hrest => exact ⟨_, hrest, rfl⟩
    | passed hsome => rw [hguard] at hsome; cases hsome
    | stopped hsome => rw [hguard] at hsome; cases hsome
  · rintro ⟨out, hrest, rfl⟩
    exact .free hguard hrest

/-- A guard sees the arguments for its part of the chain. -/
lemma guarded_iff (hguard : t.guard = some guard)
    (hargs : args.length = argumentCount (t :: supers)) :
    Guarded (t :: supers) (args ++ rest) calls result ↔
      ∃ reply after, calls = ⟨guard, args ++ [.symbol t.name], reply⟩ :: after ∧
        match guardReply t args reply with
        | .error e => after = [] ∧ result = .error e
        | .ok left => ∃ out, Guarded supers (left ++ rest) after out ∧
            result = out.map ((left ++ rest) :: ·) := by
  have htake : (args ++ rest).take (argumentCount (t :: supers)) = args := by
    rw [← hargs, List.take_left]
  have hdrop : (args ++ rest).drop (argumentCount (t :: supers)) = rest := by
    rw [← hargs, List.drop_left]
  constructor
  · intro h
    cases h with
    | free hnone => rw [hguard] at hnone; cases hnone
    | passed hsome hreply hrest =>
      rw [hguard] at hsome
      cases hsome
      rw [htake] at hreply ⊢
      rw [hdrop] at hrest ⊢
      refine ⟨_, _, rfl, ?_⟩
      rw [hreply]
      exact ⟨_, hrest, rfl⟩
    | stopped hsome hreply =>
      rw [hguard] at hsome
      cases hsome
      rw [htake] at hreply ⊢
      refine ⟨_, _, rfl, ?_⟩
      rw [hreply]
      exact ⟨rfl, rfl⟩
  · rintro ⟨reply, after, rfl, hafter⟩
    cases hreply : guardReply t args reply with
    | error e =>
      rw [hreply] at hafter
      obtain ⟨rfl, rfl⟩ := hafter
      have hstopped := @stopped t supers (args ++ rest) guard reply e hguard
      rw [htake] at hstopped
      exact hstopped hreply
    | ok left =>
      rw [hreply] at hafter
      obtain ⟨out, hrest, rfl⟩ := hafter
      have hpassed := @passed t supers (args ++ rest) left guard reply after out hguard
      rw [htake, hdrop] at hpassed
      exact hpassed hreply hrest

end Guarded

/-! ### Guards and rows -/

/-- The row of a type comes out as the guards of its super types leave the arguments, whatever
follows the arguments for this part of the chain. -/
def FollowsGuards (R : Store → Store → Prop) (t : RecordType) (supers : List RecordType)
    (rest : List Value) : Prop :=
  ∀ left s s' calls out, left.length = argumentCount (t :: supers) →
    ((buildOwn t supers left).Runs R s calls out s' ↔
      Moved R calls s s' ∧ ∃ result, Guarded supers (left ++ rest) calls result ∧
        out = (result.map ((left ++ rest) :: ·)).map (storage (t :: supers)))

section

variable {t : RecordType} {supers : List RecordType} {args rest : List Value}
  {out : Except Failure (List Value)}

lemma runs_buildStorage_unguarded_iff (hguard : t.guard = none)
    (hargs : args.length = argumentCount (t :: supers)) (hown : FollowsGuards R t supers rest) :
    (buildStorage (t :: supers) args).Runs R s calls out s' ↔
      Moved R calls s s' ∧ ∃ result, Guarded (t :: supers) (args ++ rest) calls result ∧
        out = result.map (storage (t :: supers)) := by
  have hdone : guardArguments t args = .done args := by
    rw [guardArguments, hguard]
    rfl
  show ((guardArguments t args).bind (buildOwn t supers)).Runs R s calls out s' ↔ _
  rw [hdone, Computation.done_bind, hown args s s' calls out hargs]
  simp only [Guarded.unguarded_iff hguard]
  refine and_congr_right fun _ => ?_
  constructor
  · rintro ⟨result, hresult, rfl⟩
    exact ⟨_, ⟨result, hresult, rfl⟩, rfl⟩
  · rintro ⟨_, ⟨result, hresult, rfl⟩, rfl⟩
    exact ⟨result, hresult, rfl⟩

lemma runs_buildStorage_guarded_iff [IsPreorder Store R] {guard : Value}
    (hguard : t.guard = some guard) (hargs : args.length = argumentCount (t :: supers))
    (hown : FollowsGuards R t supers rest) :
    (buildStorage (t :: supers) args).Runs R s calls out s' ↔
      Moved R calls s s' ∧ ∃ result, Guarded (t :: supers) (args ++ rest) calls result ∧
        out = result.map (storage (t :: supers)) := by
  show ((guardArguments t args).bind (buildOwn t supers)).Runs R s calls out s' ↔ _
  rw [runs_guardArguments_bind_iff hguard]
  simp only [Guarded.guarded_iff hguard hargs]
  constructor
  · rintro ⟨reply, after, s₁, rfl, hR, hafter⟩
    rw [moved_cons_iff]
    cases hreply : guardReply t args reply with
    | error e =>
      rw [hreply] at hafter
      obtain ⟨rfl, rfl, rfl⟩ := hafter
      refine ⟨⟨s', hR, .inl ⟨rfl, rfl⟩⟩, .error e, ⟨reply, [], rfl, ?_⟩, rfl⟩
      rw [hreply]
      exact ⟨rfl, rfl⟩
    | ok left =>
      rw [hreply] at hafter
      have hlen := length_of_guardReply hreply
      obtain ⟨hmoved, result, hresult, rfl⟩ := (hown left _ _ _ _ (hlen.trans hargs)).1 hafter
      refine ⟨⟨s₁, hR, hmoved⟩, _, ⟨reply, after, rfl, ?_⟩, rfl⟩
      rw [hreply]
      exact ⟨result, hresult, rfl⟩
  · rintro ⟨hmoved, result, ⟨reply, after, rfl, hafter⟩, rfl⟩
    obtain ⟨s₁, hR, hmoved⟩ := moved_cons_iff.1 hmoved
    refine ⟨reply, after, s₁, rfl, hR, ?_⟩
    cases hreply : guardReply t args reply with
    | error e =>
      rw [hreply] at hafter
      obtain ⟨rfl, rfl⟩ := hafter
      rcases hmoved with ⟨-, rfl⟩ | ⟨hne, -⟩
      · exact ⟨rfl, rfl, rfl⟩
      · exact absurd rfl hne
    | ok left =>
      rw [hreply] at hafter
      obtain ⟨out, hrest, rfl⟩ := hafter
      have hlen := length_of_guardReply hreply
      exact (hown left _ _ _ _ (hlen.trans hargs)).2 ⟨hmoved, out, hrest, rfl⟩

end

/-- The constructor makes the calls of the guards, and no others; what it makes of the arguments
does not depend on what follows them. -/
lemma runs_buildStorage_iff [IsPreorder Store R] {types : List RecordType}
    {args : List Value} (rest : List Value) {out : Except Failure (List Value)}
    (hargs : args.length = argumentCount types) :
    (buildStorage types args).Runs R s calls out s' ↔
      Moved R calls s s' ∧ ∃ result, Guarded types (args ++ rest) calls result ∧
        out = result.map (storage types) := by
  induction types generalizing args rest s s' calls out with
  | nil =>
    constructor
    · rintro ⟨rfl, rfl, rfl⟩
      exact ⟨.inl ⟨rfl, rfl⟩, .ok [], .root, rfl⟩
    · rintro ⟨⟨rfl, rfl⟩ | ⟨hne, -⟩, result, hresult, rfl⟩
      · cases hresult
        exact ⟨rfl, rfl, rfl⟩
      · cases hresult
        exact absurd rfl hne
  | cons t supers ih =>
    have hown : FollowsGuards R t supers rest := by
      intro left s s' calls out hleft
      refine runs_buildOwn_iff hleft ?_
      intro out
      -- the arguments for the super types; those for this type follow them
      have htake : (left.take (argumentCount supers)).length = argumentCount supers := by
        rw [argumentCount_cons] at hleft
        rw [List.length_take]
        omega
      rw [ih (left.drop (argumentCount supers) ++ rest) htake, ← List.append_assoc,
        List.take_append_drop]
    cases hguard : t.guard with
    | none => exact runs_buildStorage_unguarded_iff hguard hargs hown
    | some guard => exact runs_buildStorage_guarded_iff hguard hargs hown

end Records
