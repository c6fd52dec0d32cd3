import Records.Shape.Basic

/-!
# Plain shapes

A plain shape is a sequence of attribute names, each of which has its value at the same position
of an object's storage. A table issues shapes as they are asked for: extending one shape by one
name leads to one shape, however often it is asked for. Whether a name is there, and where, is
read off the index of the shape; how many there are, and in which order, off the list.

## Main statements

* `PlainTable.extend_of_contains`: a name that is there already adds nothing.
* `PlainTable.extend_of_unknown`: a shape of another table cannot be extended.
-/

namespace Records

/-- A plain shape of some table. -/
structure PlainShape where
  number : Nat
deriving DecidableEq, Inhabited

/-- The shape without attributes. -/
def PlainShape.empty : PlainShape := ⟨0⟩

/-- The attributes of one shape. -/
structure PlainNode (κ : Type) where
  /-- The position of each name in storage. -/
  indexes : NameMap κ Nat := {}
  /-- The names in the order of storage. -/
  keys : List κ := []
deriving Inhabited

/-- The attributes with one more. -/
def PlainNode.add {κ : Type} [DecidableEq κ] (n : PlainNode κ) (name : κ) : PlainNode κ where
  indexes := n.indexes.insert name n.keys.length
  keys := n.keys ++ [name]

/-- The plain shapes issued so far. -/
structure PlainTable (κ : Type) where
  nodes : Array (PlainNode κ) := #[{}]
  /-- Which shape an extension by a name leads to. -/
  transitions : List ((PlainShape × κ) × PlainShape) := []

namespace PlainTable

variable {κ ν : Type}

/-- The table that has issued the empty shape only. -/
def empty : PlainTable κ := {}

/-- The attributes of a shape. -/
def node? (t : PlainTable κ) (m : PlainShape) : Option (PlainNode κ) := t.nodes[m.number]?

/-- The names of a shape, in the order of storage. -/
def keys? (t : PlainTable κ) (m : PlainShape) : Option (List κ) := (t.node? m).map (·.keys)

/-- The number of values an object of a shape stores. -/
def storageSize? (t : PlainTable κ) (m : PlainShape) : Option Nat :=
  (t.node? m).map (·.keys.length)

/-- The number of shapes issued so far, the empty one included. -/
def size (t : PlainTable κ) : Nat := t.nodes.size

variable [DecidableEq κ]

/-- The shape that an extension led to before. -/
def transition? (t : PlainTable κ) (m : PlainShape) (name : κ) : Option PlainShape :=
  (t.transitions.find? fun e => e.1 = (m, name)).map (·.2)

/-- The shape reached from `m` by adding a name. -/
def extend (t : PlainTable κ) (m : PlainShape) (name : κ) :
    Except ShapeError (PlainShape × PlainTable κ) :=
  match t.node? m with
  | none => .error (.unknownShape m.number)
  | some n =>
    if n.indexes.contains name then .ok (m, t)
    else
      match t.transition? m name with
      | some child => .ok (child, t)
      | none =>
        let child : PlainShape := ⟨t.nodes.size⟩
        .ok (child,
          { nodes := t.nodes.push (n.add name)
            transitions := ((m, name), child) :: t.transitions })

/-- The shape reached from `m` by adding names in order. -/
def extendAll (t : PlainTable κ) (m : PlainShape) :
    List κ → Except ShapeError (PlainShape × PlainTable κ)
  | [] => .ok (m, t)
  | name :: names => do
    let (m, t) ← t.extend m name
    t.extendAll m names

/-- The shape reached from the empty one by adding names in order. -/
def path (t : PlainTable κ) (names : List κ) : Except ShapeError (PlainShape × PlainTable κ) :=
  t.extendAll .empty names

/-- The position of a name in storage. -/
def index? (t : PlainTable κ) (m : PlainShape) (name : κ) : Option Nat :=
  (t.node? m).bind (·.indexes.find? name)

/-- The value that an object of a shape has for a name. -/
def lookup (t : PlainTable κ) (m : PlainShape) (name : κ) (storage : List ν) (fallback : ν) : ν :=
  ((t.index? m name).bind (storage[·]?)).getD fallback

theorem extend_of_contains {t : PlainTable κ} {m : PlainShape} {name : κ} {n : PlainNode κ}
    (hm : t.node? m = some n) (hname : n.indexes.contains name) :
    t.extend m name = .ok (m, t) := by
  simp [extend, hm, hname]

theorem extend_of_unknown {t : PlainTable κ} {m : PlainShape} (name : κ)
    (h : t.node? m = none) : t.extend m name = .error (.unknownShape m.number) := by
  simp [extend, h]

end PlainTable

end Records
