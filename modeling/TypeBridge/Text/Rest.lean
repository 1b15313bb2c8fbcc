/-!
# What readers leave

A reader returns what is left of its text together with a proof of progress: some character is
read, or at least none is added.  Progress adds up when one reader follows another.
-/

namespace TypeBridge.Text

/-- What is left of a text after at least one character. -/
abbrev Rest (text : List Char) : Type :=
  { rest : List Char // rest.length < text.length }

/-- What is left of a text. -/
abbrev Tail (text : List Char) : Type :=
  { rest : List Char // rest.length ≤ text.length }

namespace Rest

/-- What is left behind one character. -/
def behind (c : Char) (rest : List Char) : Rest (c :: rest) :=
  ⟨rest, Nat.lt_succ_self _⟩

/-- What is left is also left of a longer text. -/
def within {text : List Char} (c : Char) (rest : Rest text) : Rest (c :: text) :=
  ⟨rest.1, Nat.lt_succ_of_lt rest.2⟩

/-- Forget that something was read. -/
def tail {text : List Char} (rest : Rest text) : Tail text :=
  ⟨rest.1, Nat.le_of_lt rest.2⟩

/-- One reader after another. -/
def andRead {text : List Char} (first : Rest text) (second : Rest first.1) : Rest text :=
  ⟨second.1, Nat.lt_trans second.2 first.2⟩

end Rest

namespace Tail

/-- What is left is less than a longer text. -/
def within {text : List Char} (c : Char) (rest : Tail text) : Rest (c :: text) :=
  ⟨rest.1, Nat.lt_succ_of_le rest.2⟩

/-- Nothing is read. -/
def whole (text : List Char) : Tail text :=
  ⟨text, Nat.le_refl _⟩

/-- One reader after another. -/
def andThen {text : List Char} (first : Tail text) (second : Tail first.1) : Tail text :=
  ⟨second.1, Nat.le_trans second.2 first.2⟩

/-- A reader that reads something after another one. -/
def andRead {text : List Char} (first : Tail text) (second : Rest first.1) : Rest text :=
  ⟨second.1, Nat.lt_of_lt_of_le second.2 first.2⟩

end Tail

/-- How many bytes a text takes. -/
def byteLength : List Char → Nat
  | [] => 0
  | c :: rest => c.utf8Size + byteLength rest

end TypeBridge.Text
