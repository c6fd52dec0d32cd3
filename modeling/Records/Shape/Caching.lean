import Records.Shape.Basic

/-!
# Caching shapes

A caching shape has attributes of two kinds. The value of a static one is part of the shape and
shared by its objects; that of a dynamic one is stored with each object. A name is of one kind.

A shape has an index and a list of its dynamic names, and a map and a list of its static ones.
Questions about a name go to the index and the map, and so does the number of attributes; the
names in order, and the number of values in storage, come from the lists.

## Main statements

* `CachingNode.kind?_eq_none_iff`: a name is free exactly when neither map has it.
-/

namespace Records

/-- A caching shape of some table. -/
structure CachingShape where
  number : Nat
deriving DecidableEq, Inhabited

/-- The shape without attributes. -/
def CachingShape.empty : CachingShape := ⟨0⟩

/-- The attributes of one shape. -/
structure CachingNode (κ ν : Type) where
  /-- The position of each dynamic name in storage. -/
  indexes : NameMap κ Nat := {}
  /-- The value of each static name. -/
  statics : NameMap κ ν := {}
  /-- The dynamic names in the order of storage. -/
  dynamicKeys : List κ := []
  /-- The static names in the order of addition. -/
  staticKeys : List κ := []
deriving Inhabited

namespace CachingNode

variable {κ ν : Type}

/-- The names: dynamic ones in the order of storage, then static ones in the order of addition. -/
def keys (n : CachingNode κ ν) : List κ := n.dynamicKeys ++ n.staticKeys

variable [DecidableEq κ]

/-- The number of attributes. -/
def size (n : CachingNode κ ν) : Nat := n.indexes.size + n.statics.size

/-- The kind of an attribute. -/
def kind? (n : CachingNode κ ν) (name : κ) : Option AttributeKind :=
  if n.indexes.contains name then some .dynamic
  else if n.statics.contains name then some .static
  else none

/-- Whether there is such an attribute. -/
def has (n : CachingNode κ ν) (name : κ) : Bool := (n.kind? name).isSome

/-- The attributes with one more that is dynamic. -/
def addDynamic (n : CachingNode κ ν) (name : κ) : CachingNode κ ν :=
  { n with
    indexes := n.indexes.insert name n.dynamicKeys.length
    dynamicKeys := n.dynamicKeys ++ [name] }

/-- The attributes with one more that is static. -/
def addStatic (n : CachingNode κ ν) (name : κ) (value : ν) : CachingNode κ ν :=
  { n with
    statics := n.statics.insert name value
    staticKeys := n.staticKeys ++ [name] }

theorem kind?_eq_none_iff {n : CachingNode κ ν} {name : κ} :
    n.kind? name = none ↔ n.indexes.find? name = none ∧ n.statics.find? name = none := by
  unfold kind? NameMap.contains
  cases n.indexes.find? name <;> cases n.statics.find? name <;> simp

end CachingNode

/-- The caching shapes issued so far. -/
structure CachingTable (κ ν : Type) where
  nodes : Array (CachingNode κ ν) := #[{}]
  /-- Which shape an extension by a dynamic attribute leads to. -/
  dynamicTransitions : List ((CachingShape × κ) × CachingShape) := []
  /-- Which shape an extension by a static attribute leads to. -/
  staticTransitions : List ((CachingShape × κ × ν) × CachingShape) := []

namespace CachingTable

variable {κ ν : Type}

/-- The table that has issued the empty shape only. -/
def empty : CachingTable κ ν := {}

/-- The attributes of a shape. -/
def node? (t : CachingTable κ ν) (m : CachingShape) : Option (CachingNode κ ν) :=
  t.nodes[m.number]?

/-- The number of values an object of a shape stores. -/
def storageSize? (t : CachingTable κ ν) (m : CachingShape) : Option Nat :=
  (t.node? m).map (·.dynamicKeys.length)

/-- The names of a shape. -/
def keys? (t : CachingTable κ ν) (m : CachingShape) : Option (List κ) := (t.node? m).map (·.keys)

/-- The number of shapes issued so far, the empty one included. -/
def size (t : CachingTable κ ν) : Nat := t.nodes.size

variable [DecidableEq κ]

/-- Whether a shape has no attributes at all. -/
def isLeaf (t : CachingTable κ ν) (m : CachingShape) : Bool := (t.node? m).any (·.size = 0)

/-! ### Extension -/

/-- The attributes of a shape that is about to gain a name. -/
def free (render : κ → String) (t : CachingTable κ ν) (m : CachingShape) (name : κ) :
    Except ShapeError (CachingNode κ ν) :=
  match t.node? m with
  | none => .error (.unknownShape m.number)
  | some n =>
    match n.kind? name with
    | some existing => .error (.kindConflict (render name) existing)
    | none => .ok n

/-- The shape that an extension by a dynamic attribute led to before. -/
def dynamicTransition? (t : CachingTable κ ν) (m : CachingShape) (name : κ) :
    Option CachingShape :=
  (t.dynamicTransitions.find? fun e => e.1 = (m, name)).map (·.2)

/-- The shape that an extension by a static attribute led to before. -/
def staticTransition? [BEq ν] (t : CachingTable κ ν) (m : CachingShape) (name : κ) (value : ν) :
    Option CachingShape :=
  (t.staticTransitions.find? fun e => e.1.1 = m && e.1.2.1 = name && e.1.2.2 == value).map (·.2)

/-- The shape reached from `m` by adding a static attribute. -/
def extendStatic [BEq ν] (render : κ → String) (t : CachingTable κ ν) (m : CachingShape)
    (name : κ) (value : ν) : Except ShapeError (CachingShape × CachingTable κ ν) :=
  match t.staticTransition? m name value with
  | some child => .ok (child, t)
  | none => do
    let n ← t.free render m name
    let child : CachingShape := ⟨t.nodes.size⟩
    return (child,
      { t with
        nodes := t.nodes.push (n.addStatic name value)
        staticTransitions := ((m, name, value), child) :: t.staticTransitions })

/-- The shape reached from `m` by adding a dynamic attribute. -/
def extendDynamic (render : κ → String) (t : CachingTable κ ν) (m : CachingShape) (name : κ) :
    Except ShapeError (CachingShape × CachingTable κ ν) :=
  match t.dynamicTransition? m name with
  | some child => .ok (child, t)
  | none => do
    let n ← t.free render m name
    let child : CachingShape := ⟨t.nodes.size⟩
    return (child,
      { t with
        nodes := t.nodes.push (n.addDynamic name)
        dynamicTransitions := ((m, name), child) :: t.dynamicTransitions })

/-! ### Queries -/

/-- The position of a dynamic attribute in storage. -/
def dynamicIndex? (t : CachingTable κ ν) (m : CachingShape) (name : κ) : Option Nat :=
  (t.node? m).bind (·.indexes.find? name)

/-- The value of a static attribute. -/
def static? (t : CachingTable κ ν) (m : CachingShape) (name : κ) : Option ν :=
  (t.node? m).bind (·.statics.find? name)

/-- Whether a shape has an attribute. -/
def has (t : CachingTable κ ν) (m : CachingShape) (name : κ) : Bool :=
  (t.node? m).any (·.has name)

/-- The value that an object of a shape has for a name. -/
def lookup (t : CachingTable κ ν) (m : CachingShape) (name : κ) (storage : List ν)
    (fallback : ν) : ν :=
  match t.dynamicIndex? m name with
  | some index => storage[index]?.getD fallback
  | none => (t.static? m name).getD fallback

/-- Whether two shapes have the same names, whatever their kinds, values and order. -/
def sameShape (t : CachingTable κ ν) (a b : CachingShape) : Bool :=
  if a = b then true
  else
    match t.node? a, t.node? b with
    | some a, some b => a.size = b.size && a.dynamicKeys.all b.has && a.staticKeys.all b.has
    | _, _ => false

end CachingTable

end Records
