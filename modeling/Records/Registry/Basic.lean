import Records.Store.Basic

/-!
# Registries and inspectors

A registry keeps the prefab types of one program and the inspector in force. Inspectors form a
hierarchy: a new one is controlled by a given inspector, or shares its parent as a sibling.
-/

namespace Records

/-! ### Inspectors -/

/-- A new inspector below another one, or beside it. Without one to start from it is a root. -/
def makeInspector (base : Option InspectorId) (sibling : Bool) : StoreM InspectorId := do
  let s ← get
  newInspector (if sibling then base.bind s.superInspector? else base)

/-! ### Registries -/

/-- A new registry. Without an inspector to have in force it gets a root of its own. -/
def newRegistry (inspector : Option InspectorId) : StoreM RegistryId := do
  let inspector ← match inspector with
    | some i => pure i
    | none => newInspector none
  modifyGet fun s =>
    let id : RegistryId := ⟨s.registries.size⟩
    (id, { s with registries := s.registries.push ⟨{ owner := id }, inspector⟩ })

/-- Forget the prefab keys and types of a registry. -/
def resetRegistry (r : RegistryId) : StoreM Unit := do
  setCatalog r ((← get : Store).registry r).catalog.reset

/-- A new inspector below the one in force, or beside it. -/
def registryInspector (r : RegistryId) (sibling : Bool) : StoreM InspectorId := do
  makeInspector ((← get : Store).registry r).inspector sibling

/-! ### The first store -/

/-- The store in which only the built-in properties exist. -/
def Store.initial : Store := { properties := (Property.builtinNames.map Property.plain).toArray }

end Records
