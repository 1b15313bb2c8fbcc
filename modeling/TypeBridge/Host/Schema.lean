import TypeBridge.Host.InputError

/-!
# Reading records out of TOML values

A record is a table with its fields under their keys, or an array with its fields in their order.
It is read on top of its defaults, field by field: those of a table in the order of its keys, those
of an array as they stand.  The first field that is unknown or of the wrong shape decides the
failure; whether all needed fields are there is asked last.  A signature that cannot be read is
reported at the innermost list, record field or positional record around it.
-/

namespace TypeBridge.Schema

open Toml

/-- Why a value is not of the wanted shape; a signature that cannot be read says so. -/
structure Misfit where
  signature : Option BadSignature
  deriving DecidableEq, Repr

def Misfit.shape : Misfit := ⟨none⟩

/-- Say where a signature stands, unless that is known already. -/
def Misfit.placedAt (span : Option Span) (misfit : Misfit) : Misfit :=
  ⟨misfit.signature.map fun bad => { bad with span := bad.span.or span }⟩

/-- What was read at a place. -/
def placed {α : Type} (span : Option Span) (outcome : Except Misfit α) : Except Misfit α :=
  outcome.mapError (·.placedAt span)

def asText : Value → Except Misfit String
  | .scalar _ (.text content) => .ok content
  | _ => .error .shape

def asFlag : Value → Except Misfit Bool
  | .scalar _ (.flag value) => .ok value
  | _ => .error .shape

def asList {α : Type} (item : Value → Except Misfit α) : Value → Except Misfit (List α)
  | .array span items => placed span (items.mapM item)
  | _ => .error .shape

/-- One of some words.  A word may also be the only key of a table, with an empty value. -/
def asWord {α : Type} (words : List (String × α)) (value : Value) : Except Misfit α :=
  let word? :=
    match value with
    | .scalar _ (.text content) => some content
    | .table [(key, .table [])] | .table [(key, .array _ [])] => some key
    | _ => none
  match word?.bind fun word => words.lookup word with
  | some meaning => .ok meaning
  | none => .error .shape

def asSignature (value : Value) : Except Misfit Signature := do
  let written ← asText value
  match Signature.ofText written with
  | .ok signature => .ok signature
  | .error error => .error ⟨some ⟨written, error, none⟩⟩

/-- A signature that may be missing; where it is there, it is reported at its own place. -/
def asOptionalSignature (value : Value) : Except Misfit (Option Signature) :=
  placed value.span? ((asSignature value).map some)

/-- When a field of a record may be missing. -/
inductive Presence where
  /-- Never. -/
  | needed
  /-- In a table. -/
  | tableOptional
  /-- In a table, and at the end of an array. -/
  | optional
  deriving DecidableEq, Repr

/-- The fields of a record in their order. -/
abbrev Outline : Type :=
  List (String × Presence)

/-- Whether a table with some fields has all that are needed. -/
def Outline.fitsTable (outline : Outline) (fields : Table) : Bool :=
  outline.all fun (key, presence) => presence != .needed || (fields.lookup key).isSome

/-- Whether an array of some length has all that are needed. -/
def Outline.fitsArray (outline : Outline) (length : Nat) : Bool :=
  (outline.drop length).all fun (_, presence) => presence == .optional

/-- A record, given its outline, its defaults and its fields.  What an array holds beyond the last
field means nothing. -/
def asRecord {α : Type} (outline : Outline) (defaults : α)
    (field : String → Value → α → Except Misfit α) : Value → Except Misfit α
  | .table fields => do
    let record ← fields.foldlM
      (fun record (key, value) => placed value.span? (field key value record)) defaults
    if outline.fitsTable fields then .ok record else .error .shape
  | .array span items => placed span do
    let record ← (outline.zip items).foldlM
      (fun record ((key, _), value) => field key value record) defaults
    if outline.fitsArray items.length then .ok record else .error .shape
  | .scalar _ _ => .error .shape

end TypeBridge.Schema
