import Records.Store.Basic

/-!
# Implied properties

A property *is a* property `q` if it is `q` or implies a property that is a `q`. The implied
properties of a property exist before it, so walking down ends within as many steps as there
are older properties.
-/

namespace Records

namespace Store

/-- Whether a property is another one, within a number of steps. -/
def isAWithin (s : Store) : Nat → PropertyId → PropertyId → Bool
  | 0, p, q => p == q
  | n + 1, p, q => p == q || (s.property p).supers.any fun b => s.isAWithin n b.1 q

/-- Whether a property is, or transitively implies, another one. -/
def isA (s : Store) (p q : PropertyId) : Bool := s.isAWithin p.index p q

@[simp] theorem isA_refl (s : Store) (p : PropertyId) : s.isA p p := by
  unfold isA
  cases p.index <;> simp [isAWithin]

end Store

end Records
