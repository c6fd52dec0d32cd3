import Records.Prefab.Level

/-!
# The printed form of prefab keys

A key is written as a list of its levels. Each level is its name, its init count, a list of auto
count and auto value if there are auto fields, and a vector of the mutable init fields if there
are any. The init count of the first level may be left out; then it follows from the number of
fields of an instance.

## Main definitions

* `PrefabDatum.full` and `PrefabDatum.short` write a chain of levels.
* `PrefabDatum.parse?` reads either form.
-/

namespace Records

namespace PrefabDatum

/-- The printed form of a chain, with every init count. -/
def full (levels : List PrefabLevel) : Value := .list (levels.flatMap PrefabLevel.elements)

/-- The printed form without the first init count; a lone name is a bare symbol. -/
def short : List PrefabLevel → Value
  | [] => .null
  | first :: supers =>
    match first.options ++ supers.flatMap PrefabLevel.elements with
    | [] => .symbol first.name
    | rest => .list (.symbol first.name :: rest)

end PrefabDatum

/-- A datum that was read, with the init count of its first level only if it was given. -/
structure PrefabDatum where
  name : Symbol
  initCount : Option Nat
  autoCount : Nat
  autoValue : Value
  mutables : FieldSet
  supers : List PrefabLevel
deriving Inhabited

namespace PrefabDatum

/-- Split a list of elements at its symbols: what stands before the first one, and each symbol
with what follows it. -/
def splitAtSymbols : List Value → List Value × List (Symbol × List Value)
  | [] => ([], [])
  | v :: rest =>
    let (front, groups) := splitAtSymbols rest
    match v with
    | .symbol name => ([], (name, front) :: groups)
    | v => (v :: front, groups)

/-- Read the optional init count. -/
def readInit : List Value → Option (Option Nat × List Value)
  | .fixnum n :: rest => do return (some (← (Value.fixnum n).index?), rest)
  | rest => some (none, rest)

/-- Read the optional list of auto count and auto value. -/
def readAuto : List Value → Option ((Nat × Value) × List Value)
  | .list [count, value] :: rest => do return ((← count.index?, value), rest)
  | .list _ :: _ => none
  | rest => some ((0, .bool false), rest)

/-- Read the optional vector of mutable fields. -/
def readMutables : List Value → Option (FieldSet × List Value)
  | .vector indices :: rest => do return (.ofList (← indices.mapM Value.index?), rest)
  | rest => some (.empty, rest)

/-- Read one level from what follows its name. -/
def parseLevel? (name : Symbol) (elements : List Value) : Option PrefabDatum := do
  let (initCount, rest) ← readInit elements
  let ((autoCount, autoValue), rest) ← readAuto rest
  let (mutables, rest) ← readMutables rest
  guard rest.isEmpty
  guard <| initCount.all fun init => mutables.indices.all (· < init)
  return { name, initCount, autoCount, autoValue, mutables, supers := [] }

/-- The level of a datum whose init count is known to be `init`. -/
def toLevel (d : PrefabDatum) (init : Nat) : PrefabLevel where
  name := d.name
  initCount := init
  autoCount := d.autoCount
  autoValue := d.autoValue
  mutables := d.mutables

/-- Read a level that has to give its init count. -/
def parseSuper? (group : Symbol × List Value) : Option PrefabLevel := do
  let d ← parseLevel? group.1 group.2
  return d.toLevel (← d.initCount)

/-- Read a datum. -/
def parse? : Value → Option PrefabDatum
  | .symbol name => parseLevel? name []
  | .list items =>
    match splitAtSymbols items with
    | ([], (name, elements) :: supers) => do
      let first ← parseLevel? name elements
      return { first with supers := ← supers.mapM parseSuper? }
    | _ => none
  | _ => none

/-- Whether a value is the printed form of a prefab key. -/
def isKey (datum : Value) : Bool := (parse? datum).isSome

/-- The init count of the first level: as given, or what an instance of `total` fields leaves
for it beside the `inherited` ones. -/
def initCountFor? (d : PrefabDatum) (inherited total : Nat) : Option Nat :=
  match d.initCount with
  | some init => some init
  | none =>
    let others := inherited + d.autoCount
    if others ≤ total then some (total - others) else none

/-- The first level, for an instance of `total` fields of which `inherited` ones are inherited. -/
def levelFor? (d : PrefabDatum) (inherited total : Nat) : Option PrefabLevel := do
  let init ← d.initCountFor? inherited total
  guard <| d.mutables.indices.all (· < init)
  return d.toLevel init

end PrefabDatum

end Records
