import TypeBridge.Text.Letter.Table

/-!
# Letters and their case

Classification and case mapping of single characters.  ASCII is decided by comparison; every other
character is looked up in the runs of `TypeBridge.Text.Letter.Table`.  Mappings do not depend on
the neighbours of a character, and may give several characters (`ß` is raised to `SS`).
-/

namespace TypeBridge.Text.Letter

/-- Characters whose property is decided by comparison. -/
def isAscii (c : Char) : Bool :=
  c.toNat < 0x80

/-- Membership in a table of runs. -/
def listed (runs : List Run) (c : Char) : Bool :=
  runs.any (·.contains c.toNat)

/-- Letters of every script. -/
def isAlphabetic (c : Char) : Bool :=
  if isAscii c then c.isAlpha else listed alphabetic c

/-- Letters and numbers of every script. -/
def isAlphanumeric (c : Char) : Bool :=
  if isAscii c then c.isAlphanum else listed alphabetic c || listed numeric c

/-- Capital letters. -/
def isUpper (c : Char) : Bool :=
  if isAscii c then c.isUpper else listed upper c

/-- Small letters. -/
def isLower (c : Char) : Bool :=
  if isAscii c then c.isLower else listed lower c

/-- The images of one character under a case mapping given by its two tables. -/
def mapped (wide : List (Nat × List Nat)) (shifts : List Shift) (c : Char) : List Char :=
  match wide.lookup c.toNat with
  | some codes => codes.map Char.ofNat
  | none =>
    match shifts.find? (·.source.contains c.toNat) with
    | some shift => [Char.ofNat (c.toNat + shift.distance).toNat]
    | none => [c]

/-- The small form of a character. -/
def lowered (c : Char) : List Char :=
  if isAscii c then [c.toLower] else mapped wideLowering lowering c

/-- The capital form of a character. -/
def raised (c : Char) : List Char :=
  if isAscii c then [c.toUpper] else mapped wideRaising raising c

theorem isAlphanumeric_of_isAlphabetic {c : Char} (letter : isAlphabetic c = true) :
    isAlphanumeric c = true := by
  unfold isAlphabetic at letter
  unfold isAlphanumeric
  split at letter <;> simp_all [Char.isAlphanum]

end TypeBridge.Text.Letter
