import Records.Host
import Records.Native.Bodies
import Records.Property.Definition
import Records.Registry.Basic
import Records.Registry.Definition
import Records.Shape.Caching
import Records.Shape.Composite
import Records.Shape.Plain

/-!
# Demonstrations

Short scenarios that exercise record types, prefab types, properties and shapes, each told as
lines of text.
-/

namespace Records

/-- A scenario, or all of them in a row. -/
inductive Demo where
  | points
  | prefab
  | properties
  | shapes
  | all
deriving DecidableEq, Inhabited

namespace Demo

/-- Run a computation with the direct host. -/
def runDirect {α : Type} (c : Computation α) : StoreM α := c.run (direct defaultDepth)

/-- The printed form of a value in the current store. -/
def shown (v : Value) : StoreM String := do return (← get : Store).display v

/-- A truth value in words. -/
def truth (b : Bool) : String := if b then "true" else "false"

/-- Define a type and answer it. -/
def defineType (r : RegistryId) (d : Declaration) : StoreM TypeId := do
  definedType (← runDirect (define r d))

/-- A point in space is a point of the plane with one more field. -/
def pointLines (r : RegistryId) : StoreM (List String) := do
  let point ← defineType r { name := ⟨"point"⟩, initCount := 2 }
  let point3d ← defineType r { name := ⟨"point3d"⟩, superType := some point, initCount := 1 }
  let p ← runDirect (construct point3d [.fixnum 3, .fixnum 4, .fixnum 5])
  let s ← get
  let x ← s.fieldAccessor point 0 (some ⟨"x"⟩)
  let z ← s.fieldAccessor point3d 0 (some ⟨"z"⟩)
  let lines := [
    s.display p,
    "  " ++ s.procedureName x ++ " => " ++ s.display (← s.access point p 0),
    "  " ++ s.procedureName z ++ " => " ++ s.display (← s.access point3d p 0),
    "  point? => " ++ truth (s.test point p)]
  mutate point p 1 (.fixnum 40)
  return lines ++ ["  after point-set! => " ++ (← shown p)]

/-- Two definitions and a literal of one structure share a type. -/
def prefabLines (r : RegistryId) : StoreM (List String) := do
  let pair : Declaration :=
    { name := ⟨"pair"⟩, initCount := 2, inspector := .prefab, immutables := [0, 1] }
  let a ← defineType r pair
  let b ← defineType r pair
  let literal ← prefabInstance r (.ofName "pair") [.fixnum 1, .fixnum 2]
  let literalType := ((← get : Store).record literal).type
  let lines := [
    ← shown (.record literal),
    "  definitions share a type => " ++ truth (a = b),
    "  literal shares it too => " ++ truth (literalType = a)]
  match ← prefabKeyOf? r a with
  | none => return lines
  | some k => return lines ++ ["  key => " ++ (← shown (PrefabDatum.full k.levels))]

/-- A guard that takes a string of plain letters and attaches it in capitals. -/
def capitals : Native where
  name := "upcase-guard"
  arity := .exactly 2
  body := .compute fun call => Body.onFirst call fun v =>
    match v with
    | .string text => .ok [.string text.toUpper]
    | _ => .error (.contractViolation "upcase-guard" "string?" (call.display v))

/-- A record with a guarded label that can be applied. -/
def propertyLines (r : RegistryId) : StoreM (List String) := do
  let guard ← newNative capitals
  let label ← defineProperty "prop:label" (some (.procedure (.native guard))) [] false
  let call ← newNative { name := "widget-call", arity := .exactly 2, body := .gather }
  let widget ← defineType r
    { name := ⟨"widget"⟩
      initCount := 1
      properties := [(label, .string "button")]
      procedure := some (.procedure (.native call)) }
  let w ← runDirect (construct widget [.fixnum 7])
  let held ← direct defaultDepth (.procedure (.propertyAccessor label)) [w]
  let called ← direct defaultDepth w [.ofName "click"]
  return [
    ← shown w,
    "  prop:label => " ++ (← shown (.list held)),
    "  (w 'click) => " ++ (← shown (.list called))]

/-- Shapes depend on the order of attributes, the sets of their names do not. -/
def shapeLines : Except ShapeError (List String) := do
  let layouts : PlainTable String := .empty
  let (ab, layouts) ← layouts.path ["a", "b"]
  let (again, layouts) ← layouts.path ["a", "b"]
  let (ba, _) ← layouts.path ["b", "a"]
  let handlers : CachingTable String Bool := .empty
  let (one, handlers) ← handlers.extendStatic id .empty "get" true
  let (one, handlers) ← handlers.extendDynamic id one "set"
  let (two, handlers) ← handlers.extendDynamic id .empty "set"
  let (two, handlers) ← handlers.extendStatic id two "get" false
  let composites : CompositeTable (PlainShape × CachingShape) := .empty
  let (first, composites) := composites.instantiate (ab, one)
  let (second, _) := composites.instantiate (again, one)
  return [
    "a.b == a.b => " ++ truth (ab = again),
    "a.b == b.a => " ++ truth (ab = ba),
    "same handler shape => " ++ truth (handlers.sameShape one two),
    "composites shared => " ++ truth (first = second)]

/-- The lines of a single scenario. -/
def lines (r : RegistryId) : Demo → StoreM (List String)
  | points => pointLines r
  | prefab => prefabLines r
  | properties => propertyLines r
  | shapes => return shapeLines.toOption.getD []
  | all => do
    let points ← pointLines r
    let prefab ← prefabLines r
    let properties ← propertyLines r
    return "== Points ==" :: points ++ "== Prefab ==" :: prefab ++
      "== Properties ==" :: properties ++ "== Shapes ==" :: shapeLines.toOption.getD []

/-- The lines of a scenario in a store of its own. -/
def output (demo : Demo) : Except Failure (List String) :=
  ((do lines (← newRegistry none) demo : StoreM (List String)).run Store.initial).1

end Demo

end Records
