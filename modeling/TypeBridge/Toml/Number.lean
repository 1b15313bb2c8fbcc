import TypeBridge.Toml.Value

/-!
# TOML numbers

Whole numbers and numbers with a fraction or an exponent.  An underscore may part two digits.
-/

namespace TypeBridge.Toml

/-- The value of a hexadecimal digit, and of every smaller base. -/
def digitValue (c : Char) : Nat :=
  if c.isDigit then c.toNat - 0x30 else c.toLower.toNat - 0x57

/-- The number that digits of a base stand for. -/
def digitsValue (base : Nat) (digits : List Char) : Nat :=
  digits.foldl (fun value c => value * base + digitValue c) 0

def isHexDigit (c : Char) : Bool :=
  c.isDigit || (c.isAlpha && digitValue c < 16)

/-- Drop the underscores of a text when each is followed by a digit and stands behind one.  At the
front it counts whether a digit is there already. -/
def joinedBehind? (isDigit : Char → Bool) (behindDigit : Bool) : List Char → Option (List Char)
  | [] => some []
  | c :: rest =>
    if c = '_' then
      if behindDigit && rest.head?.any isDigit then joinedBehind? isDigit false rest else none
    else (joinedBehind? isDigit (isDigit c) rest).map (c :: ·)

/-- A text without its underscores, when each stands between two digits. -/
def joined? (isDigit : Char → Bool) (text : List Char) : Option (List Char) :=
  joinedBehind? isDigit false text

/-- Nothing but decimal digits, and some. -/
def areDigits (text : List Char) : Bool :=
  !text.isEmpty && text.all Char.isDigit

/-- An optional sign, true for minus, and the text behind it. -/
def signed : List Char → Bool × List Char
  | '-' :: rest => (true, rest)
  | '+' :: rest => (false, rest)
  | rest => (false, rest)

/-- Give a magnitude its sign. -/
def withSign (negative : Bool) (magnitude : Nat) : Int :=
  if negative then -magnitude else magnitude

/-- The mark in front of a power of ten. -/
def isPowerMark (c : Char) : Bool :=
  c == 'e' || c == 'E'

/-- Marks of a number that is not written as a whole one. -/
def isDecimalMark (c : Char) : Bool :=
  c == '.' || isPowerMark c

/-- A whole number behind the mark of its base.  A mark without digits is well formed and makes no
number. -/
def based? (base : Nat) (text : List Char) : Option (Option Int) :=
  if text.isEmpty then some none
  else
    match joined? isHexDigit text with
    | none => none
    | some digits =>
      if digits.all (fun c => isHexDigit c && digitValue c < base) then
        some (some (digitsValue base digits))
      else none

/-- A whole number to the base of ten, without a superfluous zero in front.  Once an underscore has
parted digits, what follows is well formed whenever hexadecimal digits surround each underscore; it
makes a number when all of it are decimal digits. -/
def whole? (text : List Char) : Option (Option Int) :=
  let (negative, magnitude) := signed text
  let behind := magnitude.dropWhile Char.isDigit
  if magnitude.isEmpty || (magnitude.head? = some '0' && magnitude.length ≠ 1) then none
  else if behind.head?.any (· ≠ '_') || behind.any (fun c => c == ' ' || isDecimalMark c) then none
  else
    (joined? isHexDigit magnitude).map fun digits =>
      if areDigits digits then some (withSign negative (digitsValue 10 digits)) else none

/-- A whole number; well formed text may make none. -/
def integer? (text : List Char) : Option (Option Int) :=
  match text with
  | '0' :: 'x' :: rest => based? 16 rest
  | '0' :: 'o' :: rest => based? 8 rest
  | '0' :: 'b' :: rest => based? 2 rest
  | _ => whole? text

/-- The power of ten behind `e`, which may have zeros in front. -/
def exponent? (text : List Char) : Option Int :=
  let (negative, magnitude) := signed text
  if areDigits magnitude then some (withSign negative (digitsValue 10 magnitude)) else none

/-- A number with a fraction, an exponent, or both, without a superfluous zero in front; it may be
beyond the greatest one. -/
def decimal? (text : List Char) : Option (Option Text.Binary64) := do
  let (negative, magnitude) := signed text
  if magnitude = ['i', 'n', 'f'] then return some (.infinite negative)
  if magnitude = ['n', 'a', 'n'] then return some .notANumber
  let digits ← joined? Char.isDigit magnitude
  let front := digits.takeWhile (!isPowerMark ·)
  let power ←
    match digits.dropWhile (!isPowerMark ·) with
    | [] => if front.contains '.' then some 0 else none
    | _ :: rest => exponent? rest
  let (whole, places) ←
    match front.splitOn '.' with
    | [whole] => some (whole, [])
    | [whole, places] => if areDigits places then some (whole, places) else none
    | _ => none
  if areDigits whole && !(whole.head? = some '0' && whole.length ≠ 1) then
    return Text.Binary64.ofDecimal negative (digitsValue 10 (whole ++ places))
      (power - places.length)
  else none

end TypeBridge.Toml
