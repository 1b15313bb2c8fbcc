import TypeBridge.Text.Binary64
import TypeBridge.Text.CodeOrder

/-!
# TOML values

The tree of a TOML document.  Scalars and written arrays know the bytes that they stand at; a
table holds its keys once each, in code point order.
-/

namespace TypeBridge

/-- A stretch of bytes, from `start` up to but not including `stop`. -/
structure Span where
  start : Nat
  stop : Nat
  deriving DecidableEq, Repr

def Span.length (span : Span) : Nat :=
  span.stop - span.start

namespace Toml

/-- A value without parts.  Numbers may be of any size; whoever uses one decides what fits. -/
inductive Scalar where
  | text (content : String)
  /-- A whole number, or none where well formed text makes none. -/
  | integer (value : Option Int)
  /-- A number with a fraction or an exponent, or none beyond the greatest one. -/
  | decimal (value : Option Text.Binary64)
  | flag (value : Bool)
  /-- A date, a time, or both, in the form that they are kept in. -/
  | moment (kept : String)
  deriving DecidableEq, Repr

inductive Value where
  | scalar (span : Span) (content : Scalar)
  /-- Arrays that table headers build up element by element have no span. -/
  | array (span : Option Span) (items : List Value)
  | table (fields : List (String × Value))

/-- The fields of a table. -/
abbrev Table : Type :=
  List (String × Value)

/-- The bytes that a value stands at. -/
def Value.span? : Value → Option Span
  | .scalar span _ => some span
  | .array span _ => span
  | .table _ => none

end Toml

end TypeBridge
