/-!
# Composite shapes

A table of composites gives every tuple of component shapes one number, in the order in which
the tuples are first met.

## Main statements

* `CompositeTable.instantiate_of_id?`: a tuple that has a number keeps it.
* `CompositeTable.instantiate_of_new`: a tuple without a number is given the next one.
-/

namespace Records

/-- A composite shape of some table. -/
structure CompositeShape where
  number : Nat
deriving DecidableEq, Inhabited

/-- The tuples met so far. -/
structure CompositeTable (τ : Type) where
  /-- The tuple of each number. -/
  parts : List τ := []
  /-- Which number a tuple was given. -/
  ids : List (τ × CompositeShape) := []

namespace CompositeTable

variable {τ : Type}

/-- The table that has met no tuple. -/
def empty : CompositeTable τ := {}

/-- The tuple a number was given to. -/
def parts? (t : CompositeTable τ) (c : CompositeShape) : Option τ := t.parts[c.number]?

/-- The number of different tuples met so far. -/
def size (t : CompositeTable τ) : Nat := t.parts.length

variable [BEq τ]

/-- The composite that a tuple was given before. -/
def id? (t : CompositeTable τ) (parts : τ) : Option CompositeShape :=
  (t.ids.find? fun e => e.1 == parts).map (·.2)

/-- The composite of a tuple. -/
def instantiate (t : CompositeTable τ) (parts : τ) : CompositeShape × CompositeTable τ :=
  match t.id? parts with
  | some c => (c, t)
  | none =>
    let c : CompositeShape := ⟨t.parts.length⟩
    (c, { parts := t.parts ++ [parts], ids := (parts, c) :: t.ids })

theorem instantiate_of_id? {t : CompositeTable τ} {parts : τ} {c : CompositeShape}
    (h : t.id? parts = some c) : t.instantiate parts = (c, t) := by
  simp [instantiate, h]

theorem instantiate_of_new {t : CompositeTable τ} {parts : τ} (h : t.id? parts = none) :
    t.instantiate parts =
      (⟨t.size⟩, { parts := t.parts ++ [parts], ids := (parts, ⟨t.size⟩) :: t.ids }) := by
  simp [instantiate, h, size]

end CompositeTable

end Records
