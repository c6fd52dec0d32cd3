import Records.Symbol

/-!
# Interned texts

A table of texts gives every text a number of its own. The number is the hash of the text, or
the next number that is free when another text has it; so it depends on the order of addition,
but stays the same once it is given. Symbols are compared by the numbers of their names.

## Main statements

* `TextTable.lookup?_add`: a text that was added is found from then on.
-/

namespace Records

/-- The texts added so far and their numbers. -/
structure TextTable where
  numbers : List (String × UInt64) := []
  texts : List (UInt64 × String) := []
deriving Inhabited

namespace TextTable

/-- The table without texts. -/
def empty : TextTable := {}

/-- The number of a text, if the text was added. -/
def lookup? (t : TextTable) (text : String) : Option UInt64 :=
  (t.numbers.find? fun e => e.1 = text).map (·.2)

/-- The text of a number, if the number was given. -/
def text? (t : TextTable) (id : UInt64) : Option String :=
  (t.texts.find? fun e => e.1 = id).map (·.2)

/-- The number of texts added so far. -/
def size (t : TextTable) : Nat := t.texts.length

/-- The first free number from `id` on, within a number of steps. Numbers wrap around. -/
def probe (t : TextTable) : (steps : Nat) → UInt64 → UInt64
  | 0, id => id
  | steps + 1, id => if (t.text? id).isSome then t.probe steps (id + 1) else id

/-- Add a text, whose hash is `hash`, unless it is there; answers its number. Among as many
numbers as there are texts and one more, one is free. -/
def add (hash : String → UInt64) (t : TextTable) (text : String) : UInt64 × TextTable :=
  match t.lookup? text with
  | some id => (id, t)
  | none =>
    let id := t.probe t.size (hash text)
    (id, { numbers := (text, id) :: t.numbers, texts := (id, text) :: t.texts })

theorem lookup?_add (hash : String → UInt64) (t : TextTable) (text : String) :
    (t.add hash text).2.lookup? text = some (t.add hash text).1 := by
  cases h : t.lookup? text with
  | some id => rw [add, h]; exact h
  | none => rw [add, h]; simp [lookup?]

end TextTable

/-! ### Symbols -/

/-- A symbol as a table of texts answers it: the number of a name, and the text that the table
keeps for the number. -/
structure InternedSymbol where
  id : UInt64
  name : String
deriving Inhabited

namespace InternedSymbol

/-- Only the numbers are compared. -/
instance : BEq InternedSymbol := ⟨fun a b => a.id == b.id⟩

theorem beq_iff {a b : InternedSymbol} : a == b ↔ a.id = b.id :=
  beq_iff_eq (a := a.id)

/-- The symbol by its name alone. -/
def symbol (s : InternedSymbol) : Symbol := ⟨s.name⟩

end InternedSymbol

/-- The symbol of a name, which is added unless it is there. A number without a text has none. -/
def TextTable.intern (hash : String → UInt64) (t : TextTable) (name : String) :
    Option InternedSymbol × TextTable :=
  let (id, t) := t.add hash name
  ((t.text? id).map (⟨id, ·⟩), t)

end Records
