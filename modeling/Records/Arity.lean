/-!
# Arities

How many arguments a procedure accepts: at least `min`, and at most `max` when there is one.

## Main statements

* `Arity.accepts_iff`: acceptance is membership of the interval from `min` to `max`.
-/

namespace Records

/-- The interval of accepted argument counts. -/
structure Arity where
  min : Nat
  max : Option Nat
deriving DecidableEq, Inhabited

namespace Arity

/-- Exactly `n` arguments. -/
def exactly (n : Nat) : Arity := ⟨n, some n⟩

/-- Any number of arguments from `n` on. -/
def atLeast (n : Nat) : Arity := ⟨n, none⟩

/-- Whether `count` arguments are accepted. -/
def accepts (a : Arity) (count : Nat) : Bool :=
  a.min ≤ count && a.max.all (count ≤ ·)

/-- What callers see of the arity once a first argument is supplied for them. -/
def dropFirst (a : Arity) : Arity := ⟨a.min - 1, a.max.map (· - 1)⟩

/-- The arity in words. -/
def text (a : Arity) : String :=
  match a.max with
  | some max => if max = a.min then toString a.min else s!"{a.min} to {max}"
  | none => s!"at least {a.min}"

theorem accepts_iff (a : Arity) (count : Nat) :
    a.accepts count ↔ a.min ≤ count ∧ ∀ max, a.max = some max → count ≤ max := by
  cases h : a.max <;> simp [accepts, h]

end Arity

end Records
