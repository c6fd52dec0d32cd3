/-!
# Shapes

A shape says which attributes an object has and where their values are. Objects that gain the
same attributes in the same order share a shape. Shapes are numbered by the table that issues
them; a number means nothing to another table, except that it may name an unrelated shape there.
-/

namespace Records

/-- Where the value of an attribute is kept. -/
inductive AttributeKind where
  /-- With the shape, for all objects alike. -/
  | static
  /-- With each object, at a position the shape tells. -/
  | dynamic
deriving DecidableEq, Inhabited

/-- The kind in words. -/
def AttributeKind.text : AttributeKind → String
  | static => "static"
  | dynamic => "dynamic"

/-- The reasons for which a shape cannot be extended. -/
inductive ShapeError where
  /-- An attribute is of one kind, and stays so. -/
  | kindConflict (name : String) (existing : AttributeKind)
  /-- The table did not issue the shape. -/
  | unknownShape (number : Nat)
deriving DecidableEq, Inhabited

/-- The reason in words. -/
def ShapeError.message : ShapeError → String
  | kindConflict name existing =>
    s!"attribute {name} is already attached as {existing.text}"
  | unknownShape number => s!"shape {number} does not belong to this table"

/-! ### Maps from names -/

/-- What names stand for. A name has at most one entry. -/
structure NameMap (κ β : Type) where
  entries : List (κ × β) := []
deriving Inhabited

namespace NameMap

variable {κ β : Type} [DecidableEq κ] {name other : κ} {value : β}

/-- The map without names. -/
def empty : NameMap κ β := {}

/-- The number of names. -/
def size (m : NameMap κ β) : Nat := m.entries.length

/-- What a name stands for. -/
def find? (m : NameMap κ β) (name : κ) : Option β :=
  (m.entries.find? fun e => e.1 = name).map (·.2)

/-- Whether a name stands for anything. -/
def contains (m : NameMap κ β) (name : κ) : Bool := (m.find? name).isSome

/-- Let a name stand for a value, whatever it stood for before. -/
def insert (m : NameMap κ β) (name : κ) (value : β) : NameMap κ β :=
  ⟨(name, value) :: m.entries.filter fun e => e.1 ≠ name⟩

theorem find?_insert (m : NameMap κ β) :
    (m.insert name value).find? other = if name = other then some value else m.find? other := by
  unfold find? insert
  rw [List.find?_cons]
  by_cases h : name = other
  · rw [if_pos h, decide_eq_true h]
    rfl
  · rw [if_neg h, decide_eq_false h, List.find?_filter]
    refine congrArg (fun p => (m.entries.find? p).map (·.2)) (funext fun e => ?_)
    by_cases he : e.1 = other
    · simp [he, Ne.symm h]
    · simp [he]

/-- A name that is new has an entry of its own. -/
theorem size_insert {m : NameMap κ β} (h : m.find? name = none) :
    (m.insert name value).size = m.size + 1 := by
  have hkeep : ∀ e ∈ m.entries, e.1 ≠ name := by
    intro e he heq
    rw [find?, Option.map_eq_none_iff, List.find?_eq_none] at h
    exact h e he (decide_eq_true heq)
  rw [insert, size, List.length_cons, List.filter_eq_self.2 fun e he => decide_eq_true (hkeep e he),
    size]

end NameMap

end Records
