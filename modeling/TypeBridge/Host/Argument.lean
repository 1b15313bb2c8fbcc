import TypeBridge.Toml.Scalars

/-!
# Annotation arguments

Which TOML values an annotation can hold, how they are kept as arguments, and the text and the truth
value of an argument.
-/

namespace TypeBridge

/-- The text of a scalar; values with parts, dates and times have none. -/
def Toml.Value.plainText : Toml.Value → String
  | .scalar _ (.text content) => content
  | .scalar _ (.integer value) => (value.map toString).getD ""
  | .scalar _ (.decimal value) => (value.map (·.text)).getD ""
  | .scalar _ (.flag value) => if value then "true" else "false"
  | .scalar _ (.moment _) | .array _ _ | .table _ => ""

/-- The truth value of a scalar. -/
def Toml.Value.flag? : Toml.Value → Option Bool
  | .scalar _ (.flag value) => some value
  | _ => none

namespace Toml

def minInteger : Int := -9223372036854775808

def maxInteger : Int := 9223372036854775807

def maxUnsigned : Int := 18446744073709551615

/-- Whether a scalar can be held: an integer in 64 bits, with a sign or without one. -/
def Scalar.isHeld : Scalar → Bool
  | .integer value => value.any fun number => minInteger ≤ number && number ≤ maxUnsigned
  | .decimal value => value.isSome
  | .text _ | .flag _ | .moment _ => true

mutual

/-- Whether all scalars in a value can be held. -/
def Value.isHeld : Value → Bool
  | .scalar _ content => content.isHeld
  | .array _ items => areHeld items
  | .table fields => fieldsAreHeld fields

def areHeld : List Value → Bool
  | [] => true
  | value :: rest => value.isHeld && areHeld rest

def fieldsAreHeld : Table → Bool
  | [] => true
  | (_, value) :: rest => value.isHeld && fieldsAreHeld rest

end

/-- The key that turns a table into a date or time.  A date or time where a table has to be counts
as a table with this key alone. -/
def momentKey : String := "$__toml_private_datetime"

mutual

/-- A value as an argument.  Integers need a sign bit, and a table that begins with the key of dates
and times is one. -/
def Value.argument? : Value → Option Value
  | .scalar span (.integer value) =>
    if value.any (· ≤ maxInteger) then some (.scalar span (.integer value)) else none
  | .scalar span content => some (.scalar span content)
  | .array span items => (arguments? items).map (.array span)
  | .table fields =>
    match fields with
    | [] => some (.table [])
    | (key, value) :: rest =>
      if key = momentKey then
        match value, rest with
        | .scalar span (.text content), [] =>
          (moment? content.toList).map fun kept => .scalar span (.moment (String.ofList kept))
        | _, _ => none
      else
        match value.argument?, argumentFields? rest with
        | some argument, some arguments => some (.table ((key, argument) :: arguments))
        | _, _ => none

def arguments? : List Value → Option (List Value)
  | [] => some []
  | value :: rest =>
    match value.argument?, arguments? rest with
    | some argument, some arguments => some (argument :: arguments)
    | _, _ => none

def argumentFields? : Table → Option Table
  | [] => some []
  | (key, value) :: rest =>
    match value.argument?, argumentFields? rest with
    | some argument, some arguments => some ((key, argument) :: arguments)
    | _, _ => none

end

end Toml

end TypeBridge
