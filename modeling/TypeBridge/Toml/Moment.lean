import TypeBridge.Toml.Number

/-!
# TOML dates and times

Dates, times of day, and both together, in the form that they are kept in.
-/

namespace TypeBridge.Toml

/-- A number of exactly the given count of digits, not above the limit. -/
def field? (count limit : Nat) (text : List Char) : Option Nat :=
  if text.length = count ∧ text.all Char.isDigit ∧ digitsValue 10 text ≤ limit then
    some (digitsValue 10 text)
  else none

/-- Days of a month in the Gregorian calendar. -/
def daysOf (year month : Nat) : Nat :=
  if month = 2 then if year % 4 = 0 ∧ (year % 100 ≠ 0 ∨ year % 400 = 0) then 29 else 28
  else if month = 4 ∨ month = 6 ∨ month = 9 ∨ month = 11 then 30
  else 31

def isDate (text : List Char) : Bool :=
  match text.splitOn '-' with
  | [year, month, day] =>
    match field? 4 9999 year, field? 2 12 month, field? 2 31 day with
    | some y, some m, some d => 1 ≤ m && 1 ≤ d && d ≤ daysOf y m
    | _, _, _ => false
  | _ => false

/-- The fraction of a second as it is kept: nine digits at most, without zeros at the end. -/
def keptFraction (digits : List Char) : List Char :=
  match ((digits.take 9).reverse.dropWhile (· == '0')).reverse with
  | [] => []
  | kept => '.' :: kept

/-- Seconds with an optional fraction. -/
def seconds? (text : List Char) : Option (List Char) :=
  match text.splitOn '.' with
  | [second] => (field? 2 60 second).map fun _ => second
  | [second, fraction] =>
    if (field? 2 60 second).isSome && !fraction.isEmpty && fraction.all Char.isDigit then
      some (second ++ keptFraction fraction)
    else none
  | _ => none

/-- A time of day.  Left out seconds are kept as none passed. -/
def time? (text : List Char) : Option (List Char) :=
  let withSeconds (hour minute second : List Char) : Option (List Char) :=
    if (field? 2 23 hour).isSome && (field? 2 59 minute).isSome then
      (seconds? second).map fun kept => hour ++ ':' :: minute ++ ':' :: kept
    else none
  match text.splitOn ':' with
  | [hour, minute] => withSeconds hour minute ['0', '0']
  | [hour, minute, second] => withSeconds hour minute second
  | _ => none

/-- An optional offset: `Z`, or a sign with hours and minutes of less than a day.  An offset of
nothing is kept with a plus sign. -/
def offset? : List Char → Option (List Char)
  | [] => some []
  | mark :: rest =>
    if mark == 'Z' || mark == 'z' then if rest.isEmpty then some ['Z'] else none
    else
      match rest.splitOn ':' with
      | [hour, minute] =>
        match field? 2 23 hour, field? 2 59 minute with
        | some h, some m => some ((if h = 0 ∧ m = 0 then '+' else mark) :: rest)
        | _, _ => none
      | _ => none

/-- A time of day with an optional offset. -/
def zonedTime? (text : List Char) : Option (List Char) :=
  let isZone (c : Char) : Bool := c == 'Z' || c == 'z' || c == '+' || c == '-'
  match time? (text.takeWhile (!isZone ·)), offset? (text.dropWhile (!isZone ·)) with
  | some time, some offset => some (time ++ offset)
  | _, _ => none

/-- A date, a time, or both parted by `T` or one space, in the form that it is kept in. -/
def moment? (text : List Char) : Option (List Char) :=
  if isDate text then some text
  else
    let date := text.take 10
    (time? text).or <|
      match text.drop 10 with
      | mark :: rest =>
        if isDate date && (mark == 'T' || mark == 't' || mark == ' ') then
          (zonedTime? rest).map fun kept => date ++ 'T' :: kept
        else none
      | [] => none

end TypeBridge.Toml
