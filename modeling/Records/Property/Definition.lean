import Records.Store.Basic

/-!
# Definition of properties

A property comes with a predicate, which recognises the instances that hold it, and an accessor,
which reads the value they hold.
-/

namespace Records

/-- The predicate and the accessor of a property. -/
def propertyProcedures (p : PropertyId) : Procedure × Procedure :=
  (.propertyPredicate p, .propertyAccessor p)

/-- Define a property. Its supers exist already. -/
def defineProperty (name : String) (guard : Option Value) (supers : List (PropertyId × Value))
    (impersonable : Bool) : StoreM PropertyId :=
  newProperty ⟨⟨name⟩, guard, supers, impersonable⟩

end Records
