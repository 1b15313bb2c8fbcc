import TypeBridge.Toml.Reader

/-!
# TOML documents

The statements of a document build one table.  A table remembers how it came to be, because that
decides who may still add to it: a table with a header of its own is complete, a table that a
longer header implies may get its own header later, and a table that dotted keys made grows by
dotted keys only.
-/

namespace TypeBridge.Toml

/-- How a table came to be. -/
inductive Origin where
  | header
  | implied
  | dotted
  deriving DecidableEq, Repr

/-- A table under construction. -/
inductive Entry where
  /-- A finished value, which nothing can be added to. -/
  | value (content : Value)
  | table (origin : Origin) (fields : List (String × Entry))
  /-- Array elements made by headers, the latest first. -/
  | elements (tables : List (List (String × Entry)))

/-- The fields of a table under construction. -/
abbrev Fields : Type :=
  List (String × Entry)

def Fields.replace (key : String) (entry : Entry) : Fields → Fields
  | [] => []
  | (k, old) :: rest => if k = key then (k, entry) :: rest else (k, old) :: replace key entry rest

/-- Change the table at the end of a path.  Missing tables on the way are made; an array of tables
is continued in its latest element; a dotted path does not enter a table with its own header. -/
def Fields.edit (dotted : Bool) (change : Origin → Fields → Option Fields) :
    Origin → List String → Fields → Option Fields
  | origin, [], fields => change origin fields
  | _, key :: path, fields =>
    match fields.lookup key with
    | none =>
      let origin := if dotted then Origin.dotted else Origin.implied
      (edit dotted change origin path []).map fun inner => fields ++ [(key, .table origin inner)]
    | some (.value _) => none
    | some (.elements []) => none
    | some (.elements (latest :: earlier)) =>
      (edit dotted change .header path latest).map fun inner =>
        replace key (.elements (inner :: earlier)) fields
    | some (.table origin inner) =>
      if dotted && origin == .header then none
      else
        (edit dotted change origin path inner).map fun changed =>
          replace key (.table origin changed) fields

/-- Add a value under a dotted key.  Keys are given once, and only dotted keys add to a table that
dotted keys made. -/
def Fields.insert (path : List String) (key : String) (content : Value) (fields : Fields) :
    Option Fields :=
  edit true (fun origin inner =>
    if (origin == .dotted) == path.isEmpty then none
    else if (inner.lookup key).isSome then none
    else some (inner ++ [(key, .value content)])) .header path fields

/-- Begin the table of a header. -/
def Fields.openTable (path : List String) (key : String) (fields : Fields) : Option Fields :=
  edit false (fun _ inner =>
    match inner.lookup key with
    | none => some (inner ++ [(key, .table .header [])])
    | some (.table .implied content) => some (replace key (.table .header content) inner)
    | some _ => none) .header path fields

/-- Begin a further element of an array of tables. -/
def Fields.openElement (path : List String) (key : String) (fields : Fields) : Option Fields :=
  edit false (fun _ inner =>
    match inner.lookup key with
    | none => some (inner ++ [(key, .elements [[]])])
    | some (.elements tables) => some (replace key (.elements ([] :: tables)) inner)
    | some _ => none) .header path fields

mutual

/-- A table under construction as a value. -/
def Entry.finish : Entry → Value
  | .value content => content
  | .table _ fields => .table (finishFields fields)
  | .elements tables => .array none (finishElements tables [])

/-- Finished fields in code point order. -/
def finishFields : Fields → Table
  | [] => []
  | (key, entry) :: rest => Text.insertByKey key entry.finish (finishFields rest)

/-- Finished elements in the order of their headers. -/
def finishElements : List Fields → List Value → List Value
  | [], later => later
  | latest :: earlier, later => finishElements earlier (.table (finishFields latest) :: later)

end

mutual

/-- The value that a text writes down. -/
def Written.value? : Written → Option Value
  | .scalar span content => some (.scalar span content)
  | .array span items => (itemValues? items).map (.array (some span))
  | .table pairs => (inlineFields? pairs []).map fun fields => .table (finishFields fields)

/-- The values of array items. -/
def itemValues? : List Written → Option (List Value)
  | [] => some []
  | item :: rest =>
    match item.value?, itemValues? rest with
    | some value, some values => some (value :: values)
    | _, _ => none

/-- The fields that the pairs of an inline table build. -/
def inlineFields? : List (List String × String × Written) → Fields → Option Fields
  | [], fields => some fields
  | (path, key, written) :: rest, fields =>
    match written.value? with
    | none => none
    | some content =>
      match fields.insert path key content with
      | none => none
      | some fields => inlineFields? rest fields

end

/-- The root table, and the path of the table that pairs are added to. -/
structure Progress where
  root : Fields
  here : List String

/-- Add one statement. -/
def Progress.step (progress : Progress) : Statement → Option Progress
  | .header false path key =>
    (progress.root.openTable path key).map fun root => ⟨root, path ++ [key]⟩
  | .header true path key =>
    (progress.root.openElement path key).map fun root => ⟨root, path ++ [key]⟩
  | .pair path key written =>
    match written.value? with
    | none => none
    | some content =>
      (progress.root.edit false (fun _ fields => fields.insert path key content) .header
        progress.here).map fun root => ⟨root, progress.here⟩

/-- Drop a byte order mark. -/
def withoutMark : List Char → List Char
  | '\uFEFF' :: rest => rest
  | text => text

def document? (text : String) : Option Table :=
  let chars := text.toList
  match statements? (Text.byteLength chars) (withoutMark chars) with
  | none => none
  | some statements =>
    (statements.foldlM Progress.step ⟨[], []⟩).map fun progress => finishFields progress.root

end TypeBridge.Toml
