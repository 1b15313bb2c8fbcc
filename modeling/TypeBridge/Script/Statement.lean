import TypeBridge.Layout.Page
import TypeBridge.Script.Literal
import TypeBridge.Script.TypeText

/-!
# Script statements

The exported declarations, imports and functions of a script, and how each is laid out.  Types are
given as text.
-/

namespace TypeBridge.Script

/-- A name with a type. -/
structure Typed where
  name : String
  type : String
  deriving DecidableEq, Repr

/-- A name with a type, as it stands in a parameter list. -/
def Typed.text (typed : Typed) : String :=
  typed.name ++ ": " ++ typed.type

/-- A parameter list. -/
def parameterList (parameters : List Typed) : String :=
  "(" ++ ", ".intercalate (parameters.map (·.text)) ++ ")"

/-- The comment in front of a statement. -/
def docFragments (doc : Option String) : List Fragment :=
  (doc.map Fragment.comment).toList

/-- A member of an object type. -/
inductive MemberSyntax where
  | property (readonly : Bool) (name : String) (optional : Bool) (type : String)
  | method (name : String) (optional : Bool) (generics : List String) (parameters : List Typed)
    (result : String)
  deriving DecidableEq, Repr

def MemberSyntax.text : MemberSyntax → String
  | property readonly name optional type =>
    (if readonly then "readonly " else "") ++ name ++ (if optional then "?" else "") ++ ": " ++
      type ++ ";"
  | method name optional generics parameters result =>
    name ++ (if optional then "?" else "") ++ angled generics ++ parameterList parameters ++ ": " ++
      result ++ ";"

/-- A member with its comment. -/
structure DocumentedMember where
  doc : Option String
  content : MemberSyntax
  deriving DecidableEq, Repr

def DocumentedMember.fragments (member : DocumentedMember) : List Fragment :=
  docFragments member.doc ++ [.line member.content.text]

/-- The name, comment and type parameters of a type declaration. -/
structure Heading where
  name : String
  doc : Option String
  generics : List String
  deriving DecidableEq, Repr

/-- The name with its type parameters. -/
def Heading.text (heading : Heading) : String :=
  heading.name ++ angled heading.generics

/-- A line, or a block around some members. -/
def memberBlock (front back : String) (members : List DocumentedMember) : Fragment :=
  if members.isEmpty then .line (front ++ "\x7b\x7d" ++ back)
  else .block (front ++ "\x7b") (members.flatMap (·.fragments)) (some ("\x7d" ++ back))

/-- A statement of a script. -/
inductive Statement where
  | interface (heading : Heading) (parents : List String) (members : List DocumentedMember)
  | typeAlias (heading : Heading) (type : String)
  /-- `A & B & ...` with an object type at the end. -/
  | intersection (heading : Heading) (parts : List String) (members : List DocumentedMember)
  | const (name : String) (type doc : Option String) (value : Literal)
  | function (name : String) (doc : Option String) (parameters : List Typed)
    (result : Option String) (body : List String)
  /-- Lines as they are. -/
  | raw (code : String)

/-- A union type under a name. -/
def Statement.unionOf (heading : Heading) (variants : List String) : Statement :=
  .typeAlias heading (union variants)

def Statement.fragments : Statement → List Fragment
  | interface heading parents members =>
    let extending :=
      if parents.isEmpty then "" else " extends " ++ ", ".intercalate parents
    docFragments heading.doc ++
      [memberBlock ("export interface " ++ heading.text ++ extending ++ " ") "" members]
  | typeAlias heading type =>
    docFragments heading.doc ++ [.line ("export type " ++ heading.text ++ " = " ++ type ++ ";")]
  | intersection heading parts members =>
    let front := String.join (parts.map (· ++ " & "))
    docFragments heading.doc ++
      [memberBlock ("export type " ++ heading.text ++ " = " ++ front) ";" members]
  | const name type doc value =>
    let typing := (type.map (": " ++ ·)).getD ""
    docFragments doc ++ [value.fragment ("export const " ++ name ++ typing ++ " = ") ";"]
  | function name doc parameters result body =>
    let typing := (result.map (": " ++ ·)).getD ""
    docFragments doc ++
      [.block ("export function " ++ name ++ parameterList parameters ++ typing ++ " \x7b")
        (body.map Fragment.line) (some "\x7d")]
  | raw code =>
    (Text.lines code.toList).map fun line =>
      if line.isEmpty then .blank else .line (String.ofList line)

/-- Fragments inside a namespace; an empty path is no namespace. -/
def inNamespace (path : List String) (body : List Fragment) : List Fragment :=
  if path.isEmpty then body
  else [.block ("export namespace " ++ ".".intercalate path ++ " \x7b") body (some "\x7d")]

/-- A name in an import, which may be marked as a type. -/
structure Imported where
  name : String
  isType : Bool
  deriving DecidableEq, Repr

/-- An import of names from a module. -/
structure Import where
  source : String
  default : Option String
  names : List Imported
  /-- Nothing but types is imported. -/
  onlyTypes : Bool
  deriving DecidableEq, Repr

namespace Import

def isEmpty (item : Import) : Bool :=
  item.default.isNone && item.names.isEmpty

def text (item : Import) : String :=
  let names := ", ".intercalate (item.names.map fun imported =>
    if imported.isType && !item.onlyTypes then "type " ++ imported.name else imported.name)
  let keyword := if item.onlyTypes then "import type " else "import "
  let source := "\"" ++ item.source ++ "\";"
  match item.default, names.isEmpty with
  | some default, true => keyword ++ default ++ " from " ++ source
  | some default, false => keyword ++ default ++ ", \x7b " ++ names ++ " \x7d from " ++ source
  | none, false => keyword ++ "\x7b " ++ names ++ " \x7d from " ++ source
  | none, true => "import " ++ source

end Import

/-- A file: imports, then bodies parted by blank lines. -/
structure SourceFile where
  imports : List Import
  bodies : List (List Fragment)

namespace SourceFile

/-- A file without the imports that import nothing. -/
def ofParts (imports : List Import) (bodies : List (List Fragment)) : SourceFile :=
  ⟨imports.filter (!·.isEmpty), bodies⟩

def isEmpty (file : SourceFile) : Bool :=
  file.imports.isEmpty && file.bodies.isEmpty

def fragments (file : SourceFile) : List Fragment :=
  let imports := file.imports.map fun item => Fragment.line item.text
  let gap := if file.imports.isEmpty || file.bodies.isEmpty then [] else [Fragment.blank]
  imports ++ gap ++ [Fragment.blank].intercalate file.bodies

def text (file : SourceFile) (indent : Indent) : String :=
  Page.render indent file.fragments

end SourceFile

end TypeBridge.Script
