/-!
# Word arithmetic

A fixnum holds a signed word. An exact result that is not a word is an overflow. A count is an
unsigned word, and sums and differences of counts wrap around.

## Main statements

* `wrap_eq_self_iff`: only what does not fit into a word changes.
* `wrapSub_wrap_add`: a difference takes back a sum, whether it wrapped or not.
-/

namespace Records

/-- The word of a number, unless the number is out of range. -/
def word? (n : Int) : Option Int64 :=
  if (Int64.ofInt n).toInt = n then some (Int64.ofInt n) else none

/-- A count as a word holds it. -/
def wrap (n : Nat) : Nat := n % UInt64.size

/-- The difference of two counts as a word holds it. -/
def wrapSub (n m : Nat) : Nat := wrap (n + (UInt64.size - wrap m))

theorem wrap_eq_self_iff {n : Nat} : wrap n = n ↔ n < UInt64.size := by
  rw [wrap]
  constructor
  · intro h
    rw [← h]
    exact Nat.mod_lt n (by decide)
  · exact Nat.mod_eq_of_lt

/-- It does not matter whether a part of a sum has wrapped before. -/
theorem wrap_wrap_add (n m : Nat) : wrap (wrap n + m) = wrap (n + m) := Nat.mod_add_mod n _ m

theorem wrapSub_wrap_add (n m : Nat) : wrapSub (wrap (n + m)) m = wrap n := by
  simp only [wrapSub, wrap, UInt64.size]
  omega

end Records
