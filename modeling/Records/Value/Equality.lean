import Records.Value.Basic

/-!
# Equality of values

Plain data is equal when it has the same parts. Records, record types and properties are equal
when they are the same thing, and procedures when they do the same to the same thing: the label
of a field accessor or mutator takes no part.

## Main statements

* `Procedure.same_iff`: procedures are equal exactly when they agree once labels are dropped.
* `Value.same_iff`: so are values; hence equality of values is an equivalence.
-/

namespace Records

namespace Procedure

/-- The procedure without the label that only serves its name. -/
def unlabelled : Procedure → Procedure
  | .fieldAccessor type field _ => .fieldAccessor type field none
  | .fieldMutator type field _ => .fieldMutator type field none
  | p => p

/-- Equality of procedures. -/
def same (p q : Procedure) : Bool := p.unlabelled = q.unlabelled

instance : BEq Procedure := ⟨same⟩

theorem same_iff {p q : Procedure} : p == q ↔ p.unlabelled = q.unlabelled := by
  simp [BEq.beq, same]

end Procedure

mutual

/-- Equality of values. -/
def Value.same : Value → Value → Bool
  | .void, w => match w with
    | .void => true
    | _ => false
  | .bool a, w => match w with
    | .bool b => a == b
    | _ => false
  | .fixnum a, w => match w with
    | .fixnum b => a == b
    | _ => false
  | .symbol a, w => match w with
    | .symbol b => a == b
    | _ => false
  | .string a, w => match w with
    | .string b => a == b
    | _ => false
  | .list as, w => match w with
    | .list bs => Value.sameAll as bs
    | _ => false
  | .vector as, w => match w with
    | .vector bs => Value.sameAll as bs
    | _ => false
  | .procedure a, w => match w with
    | .procedure b => a == b
    | _ => false
  | .record a, w => match w with
    | .record b => a == b
    | _ => false
  | .recordType a, w => match w with
    | .recordType b => a == b
    | _ => false
  | .property a, w => match w with
    | .property b => a == b
    | _ => false

/-- Equality of sequences of values, item by item. -/
def Value.sameAll : List Value → List Value → Bool
  | [], bs => match bs with
    | [] => true
    | _ :: _ => false
  | a :: as, bs => match bs with
    | [] => false
    | b :: bs => Value.same a b && Value.sameAll as bs

end

instance : BEq Value := ⟨Value.same⟩

namespace Value

theorem beq_def (v w : Value) : (v == w) = v.same w := rfl

/-! ### Canonical forms -/

mutual

/-- The value with every label dropped that only serves the name of a procedure. -/
def unlabelled : Value → Value
  | .list items => .list (unlabelledAll items)
  | .vector items => .vector (unlabelledAll items)
  | .procedure p => .procedure p.unlabelled
  | .void => .void
  | .bool b => .bool b
  | .fixnum n => .fixnum n
  | .symbol s => .symbol s
  | .string text => .string text
  | .record id => .record id
  | .recordType id => .recordType id
  | .property id => .property id

/-- The values with every such label dropped. -/
def unlabelledAll : List Value → List Value
  | [] => []
  | v :: vs => v.unlabelled :: unlabelledAll vs

end

mutual

theorem same_iff : (v w : Value) → (v.same w ↔ v.unlabelled = w.unlabelled)
  | .void, w => by cases w <;> simp [same, unlabelled]
  | .bool _, w => by cases w <;> simp [same, unlabelled]
  | .fixnum _, w => by cases w <;> simp [same, unlabelled]
  | .symbol _, w => by cases w <;> simp [same, unlabelled]
  | .string _, w => by cases w <;> simp [same, unlabelled]
  | .record _, w => by cases w <;> simp [same, unlabelled]
  | .recordType _, w => by cases w <;> simp [same, unlabelled]
  | .property _, w => by cases w <;> simp [same, unlabelled]
  | .procedure _, w => by cases w <;> simp [same, unlabelled, Procedure.same_iff]
  | .list items, w => by
    cases w with
    | list others => simpa [same, unlabelled] using sameAll_iff items others
    | _ => simp [same, unlabelled]
  | .vector items, w => by
    cases w with
    | vector others => simpa [same, unlabelled] using sameAll_iff items others
    | _ => simp [same, unlabelled]

theorem sameAll_iff : (vs ws : List Value) →
    (sameAll vs ws ↔ unlabelledAll vs = unlabelledAll ws)
  | [], ws => by cases ws <;> simp [sameAll, unlabelledAll]
  | v :: vs, ws => by
    cases ws with
    | nil => simp [sameAll, unlabelledAll]
    | cons w ws => simp [sameAll, unlabelledAll, same_iff v w, sameAll_iff vs ws]

end

theorem same_refl (v : Value) : v.same v := (same_iff v v).2 rfl

theorem same_symm {v w : Value} (h : v.same w) : w.same v :=
  (same_iff w v).2 ((same_iff v w).1 h).symm

theorem same_trans {u v w : Value} (h : u.same v) (h' : v.same w) : u.same w :=
  (same_iff u w).2 (((same_iff u v).1 h).trans ((same_iff v w).1 h'))

instance : EquivBEq Value where
  rfl := same_refl _
  symm := same_symm
  trans := same_trans

end Value

end Records
