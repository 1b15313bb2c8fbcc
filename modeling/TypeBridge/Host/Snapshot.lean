import TypeBridge.Host.HostType
import TypeBridge.Host.Schema
import TypeBridge.Toml.Document

/-!
# Snapshot files

Reading the types of one snapshot, and the rules that every declared type keeps.
-/

namespace TypeBridge.Snapshot

open Schema
open Toml (Value)

/-- The arguments of an annotation.  A date or time counts as a table with one key. -/
def asArguments : Value → Except Misfit Toml.Table
  | .table fields =>
    match Toml.argumentFields? fields with
    | some args => .ok args
    | none => .error .shape
  | .scalar span (.moment kept) => .ok [(Toml.momentKey, .scalar span (.text kept))]
  | _ => .error .shape

/-- A bare name, or a table with a name and arguments, whose other keys mean nothing; but all that
the table holds can be held. -/
def asAnnotation : Value → Except Misfit Annotation
  | .scalar _ (.text name) => .ok ⟨name, []⟩
  | .table fields =>
    match Toml.fieldsAreHeld fields, fields.lookup "name", fields.lookup "args" with
    | true, some (.scalar _ (.text name)), none => .ok ⟨name, []⟩
    | true, some (.scalar _ (.text name)), some args => return ⟨name, ← asArguments args⟩
    | _, _, _ => .error .shape
  | _ => .error .shape

def asAnnotations : Value → Except Misfit (List Annotation) :=
  asList asAnnotation

def asVisibility : Value → Except Misfit Visibility :=
  asWord [("public", .public), ("protected", .protected), ("package", .package),
    ("private", .private)]

def asGeneric : Value → Except Misfit HostGeneric :=
  asRecord [("name", .needed), ("bound", .tableOptional), ("variance", .tableOptional)]
    ⟨"", none, none⟩ fun key value generic =>
    match key with
    | "name" => return { generic with name := ← asText value }
    | "bound" => return { generic with bound := ← asOptionalSignature value }
    | "variance" =>
      return { generic with
        variance := some (← asWord [("in", .contravariant), ("out", .covariant)] value) }
    | _ => .error .shape

def asParameter : Value → Except Misfit HostParameter :=
  asRecord [("name", .needed), ("type", .needed), ("nullable", .optional),
      ("annotations", .optional)]
    ⟨"", .anything, false, []⟩ fun key value parameter =>
    match key with
    | "name" => return { parameter with name := ← asText value }
    | "type" => return { parameter with type := ← asSignature value }
    | "nullable" => return { parameter with markedNullable := ← asFlag value }
    | "annotations" => return { parameter with annotations := ← asAnnotations value }
    | _ => .error .shape

/-- The defaults of a member. -/
def plainMember : HostMember where
  name := ""
  isMethod := false
  type := .anything
  markedNullable := false
  optional := false
  isStatic := false
  visibility := .public
  doc := none
  parameters := []
  generics := []
  annotations := []

def memberOutline : Outline :=
  [("name", .needed), ("kind", .optional), ("type", .needed), ("nullable", .optional),
    ("optional", .optional), ("static", .optional), ("visibility", .optional),
    ("doc", .tableOptional), ("params", .optional), ("generics", .optional),
    ("annotations", .optional)]

def asMember : Value → Except Misfit HostMember :=
  asRecord memberOutline plainMember fun key value member =>
    match key with
    | "name" => return { member with name := ← asText value }
    | "kind" =>
      return { member with isMethod := ← asWord [("field", false), ("method", true)] value }
    | "type" => return { member with type := ← asSignature value }
    | "nullable" => return { member with markedNullable := ← asFlag value }
    | "optional" => return { member with optional := ← asFlag value }
    | "static" => return { member with isStatic := ← asFlag value }
    | "visibility" => return { member with visibility := ← asVisibility value }
    | "doc" => return { member with doc := some (← asText value) }
    | "params" => return { member with parameters := ← asList asParameter value }
    | "generics" => return { member with generics := ← asList asGeneric value }
    | "annotations" => return { member with annotations := ← asAnnotations value }
    | _ => .error .shape

def asConstructor : Value → Except Misfit HostConstructor :=
  asRecord [("visibility", .optional), ("params", .optional)] ⟨.public, []⟩
    fun key value constructor =>
    match key with
    | "visibility" => return { constructor with visibility := ← asVisibility value }
    | "params" => return { constructor with parameters := ← asList asParameter value }
    | _ => .error .shape

/-- The defaults of a type. -/
def plainType : HostType where
  name := ""
  span := ⟨0, 0⟩
  kind := .interface
  visibility := .public
  doc := none
  generics := []
  supertypes := []
  members := []
  constructors := []
  nested := []
  closed := false
  variants := []
  constants := []
  annotations := []

/-- A name and the bytes that it stands at. -/
def asPlacedName : Value → Except Misfit (String × Span)
  | .scalar span (.text content) => .ok (content, span)
  | _ => .error .shape

/-- A field of a type, nested types apart. -/
def typeField (key : String) (value : Value) (type : HostType) : Except Misfit HostType :=
  match key with
  | "name" => do
    let (name, span) ← asPlacedName value
    return { type with name, span }
  | "kind" =>
    return { type with
      kind := ← asWord [("interface", .interface), ("class", .class), ("enum", .enum)] value }
  | "visibility" => return { type with visibility := ← asVisibility value }
  | "doc" => return { type with doc := some (← asText value) }
  | "generics" => return { type with generics := ← asList asGeneric value }
  | "supertypes" => return { type with supertypes := ← asList asSignature value }
  | "members" => return { type with members := ← asList asMember value }
  | "constructors" => return { type with constructors := ← asList asConstructor value }
  | "closed" => return { type with closed := ← asFlag value }
  | "variants" => return { type with variants := ← asList asText value }
  | "constants" => return { type with constants := ← asList asText value }
  | "annotations" => return { type with annotations := ← asAnnotations value }
  | _ => .error .shape

def typeOutline : Outline :=
  [("name", .needed), ("kind", .optional), ("visibility", .optional), ("doc", .tableOptional),
    ("generics", .optional), ("supertypes", .optional), ("members", .optional),
    ("constructors", .optional), ("nested", .optional), ("closed", .optional),
    ("variants", .optional), ("constants", .optional), ("annotations", .optional)]

mutual

/-- A type with its nested types. -/
def asType : Value → Except Misfit HostType
  | .table fields => do
    let type ← keyedFields fields plainType
    if typeOutline.fitsTable fields then .ok type else .error .shape
  | .array span items => placed span do
    let type ← orderedFields typeOutline items plainType
    if typeOutline.fitsArray items.length then .ok type else .error .shape
  | .scalar _ _ => .error .shape

/-- The fields of a type written as a table, in the order of their keys. -/
def keyedFields : List (String × Value) → HostType → Except Misfit HostType
  | [], type => .ok type
  | (key, value) :: rest, type => do
    let type ← placed value.span? (anyField key value type)
    keyedFields rest type

/-- The fields of a type written as an array. -/
def orderedFields : Outline → List Value → HostType → Except Misfit HostType
  | (key, _) :: outline, value :: rest, type => do
    let type ← anyField key value type
    orderedFields outline rest type
  | _, _, type => .ok type

/-- A field of a type. -/
def anyField (key : String) : Value → HostType → Except Misfit HostType
  | .array span items, type =>
    if key = "nested" then do
      let nested ← placed span (asTypes items)
      return { type with nested }
    else typeField key (.array span items) type
  | value, type => typeField key value type

def asTypes : List Value → Except Misfit (List HostType)
  | [] => .ok []
  | value :: rest => do
    let type ← asType value
    let types ← asTypes rest
    return type :: types

end

def asSnapshot : Value → Except Misfit (List HostType) :=
  asRecord [("types", .optional)] [] fun key value _ =>
    match key, value with
    | "types", .array span items => placed span (asTypes items)
    | _, _ => .error .shape

/-- A nested type continues the name of its parent by one segment. -/
def isChildName (parent name : String) : Bool :=
  match Text.behindFront? (parent.toList ++ ['$']) name.toList with
  | none => false
  | some simple => !simple.isEmpty && simple.all fun c => c != '$' && c != '.'

mutual

/-- The first broken rule of a type and the types inside it. -/
def fault? (parent : Option String) : HostType → Option InputError
  | ⟨name, span, kind, _, _, _, _, _, _, nested, closed, variants, constants, _⟩ =>
    match Name.fault? name with
    | some fault => some (.badName name fault span)
    | none =>
      match parent.filter fun parent => !isChildName parent name with
      | some parent => some (.broken (.nestedName name parent) (some span))
      | none =>
        if !constants.isEmpty && kind != .enum then
          some (.broken (.constantsOutsideEnum name) (some span))
        else if closed && variants.isEmpty then
          some (.broken (.closedWithoutVariants name) (some span))
        else if !closed && !variants.isEmpty then
          some (.broken (.variantsOfOpenType name) (some span))
        else
          match variants.findSome? fun variant =>
              (Name.fault? variant).map fun fault => (variant, fault) with
          | some (variant, fault) => some (.badName variant fault span)
          | none => firstFault? (some name) nested

/-- The first broken rule of a list of types. -/
def firstFault? (parent : Option String) : List HostType → Option InputError
  | [] => none
  | type :: rest => (fault? parent type).or (firstFault? parent rest)

end

def read (file text : String) : Except InputError (List HostType) :=
  match Toml.document? text with
  | none => .error (.malformed file none)
  | some table =>
    match asSnapshot (.table table) with
    | .error misfit => .error (.malformed file misfit.signature)
    | .ok types =>
      match firstFault? none types with
      | some error => .error error
      | none => .ok types

end TypeBridge.Snapshot
