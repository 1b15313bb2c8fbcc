import TypeBridge.Declaration.Unit
import TypeBridge.Proofs.PageLines

/-!
# The text of declarations

An object type stands between braces: one line for each member, one level deeper and behind the
comment of the member, or nothing at all when there are no members.  A union stands in one line.  A
declaration puts its comment in front, and the namespace of its name around both.  All this is said
in strings here, apart from how it is laid out.
-/

namespace TypeBridge

open PageLine (written textOfAll)

/-- Lines as they stand in a script, where a level of indentation is two spaces. -/
def scriptText (lines : List PageLine) : String :=
  textOfAll (fun depth => spaces (depth * 2)) lines

theorem scriptText_cons_written (content : String) (rest : List PageLine) :
    scriptText (written 0 content :: rest) = content ++ "\n" ++ scriptText rest := by
  simp [scriptText, textOfAll, PageLine.text, String.join_cons, spaces]

theorem Page.render_script (fragments : List Fragment) :
    Page.render .script fragments = scriptText (Fragment.linesOfAll 0 fragments) := by
  have margins : Page.margin .script = fun depth => spaces (depth * 2) := funext (margin_spaces 2)
  rw [render_eq_lines, margins, scriptText]

/-- The lines of a comment, if there is one. -/
def docLines (depth : Nat) (doc : Option String) : List PageLine :=
  (doc.toList.flatMap Page.commentLines).map (written depth)

/-- A member of an object type: its comment and its line. -/
structure WrittenMember where
  doc : Option String
  line : String
  deriving DecidableEq

def WrittenMember.lines (depth : Nat) (member : WrittenMember) : List PageLine :=
  docLines depth member.doc ++ [written depth member.line]

/-- The lines of an object type with something in front of its braces and behind them. -/
def objectLines (depth : Nat) (front back : String) : List WrittenMember → List PageLine
  | [] => [written depth (front ++ "\x7b\x7d" ++ back)]
  | members => [written depth (front ++ "\x7b")] ++ members.flatMap (·.lines (depth + 1)) ++
      [written depth ("\x7d" ++ back)]

/-- Lines in the namespace of a path, one level deeper; an empty path is no namespace. -/
def namespaceLines (path : List String) (inside : Nat → List PageLine) : List PageLine :=
  if path = [] then inside 0
  else [written 0 ("export namespace " ++ ".".intercalate path ++ " \x7b")] ++ inside 1 ++
    [written 0 "\x7d"]

namespace Script

/-- A member as it is written. -/
def DocumentedMember.written (member : DocumentedMember) : WrittenMember :=
  ⟨member.doc, member.content.text⟩

theorem linesOfAll_docFragments (depth : Nat) (doc : Option String) :
    Fragment.linesOfAll depth (docFragments doc) = docLines depth doc := by
  cases doc with
  | none => rfl
  | some text => simp [docFragments, docLines, Fragment.linesOfAll, Fragment.lines]

theorem linesOfAll_members (depth : Nat) (members : List DocumentedMember) :
    Fragment.linesOfAll depth (members.flatMap (·.fragments)) =
      (members.map (·.written)).flatMap (·.lines depth) := by
  induction members with
  | nil => rfl
  | cons member rest ih =>
    rw [List.flatMap_cons, Fragment.linesOfAll_append, ih, List.map_cons, List.flatMap_cons,
      DocumentedMember.fragments, Fragment.linesOfAll_append, linesOfAll_docFragments]
    rfl

theorem lines_memberBlock (depth : Nat) (front back : String) (members : List DocumentedMember) :
    (memberBlock front back members).lines depth =
      objectLines depth front back (members.map (·.written)) := by
  cases members with
  | nil => rfl
  | cons first rest =>
    have inside := linesOfAll_members (depth + 1) (first :: rest)
    rw [memberBlock, if_neg (by simp), Fragment.lines, inside]
    simp [objectLines]

theorem linesOfAll_inNamespace (path : List String) (body : List Fragment) :
    Fragment.linesOfAll 0 (inNamespace path body) =
      namespaceLines path fun depth => Fragment.linesOfAll depth body := by
  cases path with
  | nil => rfl
  | cons outermost others => simp [inNamespace, namespaceLines, Fragment.linesOfAll, Fragment.lines]

end Script

namespace Member

/-- The line of a member.  A nullable field may also be absent. -/
def line (member : Member) : String :=
  let type := (member.type.spell.orNothing member.nullable).text
  match member.kind with
  | .field =>
    member.name ++ (if member.nullable || member.optional then "?" else "") ++ ": " ++ type ++ ";"
  | .method parameters generics =>
    let listed := parameters.map fun parameter =>
      Script.safeName parameter.name ++ ": " ++
        (parameter.type.spell.orNothing parameter.nullable).text
    member.name ++ (if member.optional then "?" else "") ++
      Script.angled ((typeParameters false generics).map (·.text)) ++
        "(" ++ ", ".intercalate listed ++ "): " ++ type ++ ";"

/-- A member as a declaration writes it. -/
def written (member : Member) : WrittenMember :=
  ⟨member.doc, member.line⟩

theorem written_syntaxOf_entry (member : Member) :
    member.entry.syntaxOf.written = member.written := by
  obtain ⟨name, kind, type, nullable, optional, doc⟩ := member
  cases kind with
  | field => simp [entry, Entry.syntaxOf, Script.DocumentedMember.written, written, line,
      Script.MemberSyntax.text]
  | method parameters generics =>
    simp [entry, Entry.syntaxOf, Script.DocumentedMember.written, written, line,
      Script.MemberSyntax.text, Script.parameterList, Script.Typed.text, Function.comp_def,
      String.append_assoc]

end Member

/-- The property that tells a variant apart as a declaration writes it. -/
def Node.writtenDiscriminant (config : EmitConfig) (node : Node) : WrittenMember :=
  ⟨none, "readonly " ++ config.discriminant ++ ": " ++ Text.quoted (Name.spelled node.name) ++ ";"⟩

/-- What the object type of a name has in front of its braces and behind them.  Its parents are
extended, or else intersected with the braces. -/
def objectFrame (name : String) (intersected : Bool) : List String → String × String
  | [] => ("export interface " ++ name ++ " ", "")
  | parents =>
    if intersected then ("export type " ++ name ++ " = " ++ String.join (parents.map (· ++ " & ")), ";")
    else ("export interface " ++ name ++ (" extends " ++ ", ".intercalate parents) ++ " ", "")

theorem Shape.linesOfAll_statement_object {generics : List TypeParameter} {intersected : Bool}
    {parents : List Spelling} {entries : List Entry} (depth : Nat) (name : String)
    (doc : Option String) :
    let frame := objectFrame (name ++ Script.angled (generics.map (·.text))) intersected
      (parents.map (·.text))
    Fragment.linesOfAll depth
        ((Shape.object generics intersected parents entries).statement name doc).fragments =
      docLines depth doc ++
        objectLines depth frame.1 frame.2 (entries.map (·.syntaxOf.written)) := by
  intro frame
  have layout : ∀ front back,
      Fragment.linesOfAll depth (Script.docFragments doc ++
          [Script.memberBlock front back (entries.map (·.syntaxOf))]) =
        docLines depth doc ++ objectLines depth front back (entries.map (·.syntaxOf.written)) := by
    intro front back
    rw [Fragment.linesOfAll_append, Script.linesOfAll_docFragments, Fragment.linesOfAll,
      Fragment.linesOfAll, List.append_nil, Script.lines_memberBlock, List.map_map]
    rfl
  cases parents with
  | nil =>
    have alone : (Shape.object generics intersected [] entries).statement name doc =
        .interface ⟨name, doc, generics.map (·.text)⟩ [] (entries.map (·.syntaxOf)) := by
      simp [statement]
    have front : "export interface " ++ (name ++ Script.angled (generics.map (·.text))) ++ "" ++ " " =
        frame.1 := by
      rw [String.append_empty]
      rfl
    rw [alone, ← front]
    exact layout _ ""
  | cons first rest =>
    cases intersected with
    | false => exact layout _ _
    | true => exact layout _ _

namespace TypeGraph

/-- The declaration of a node as an object type with some members. -/
def objectText (graph : TypeGraph) (config : EmitConfig) (node : Node)
    (members : List WrittenMember) : String :=
  let path := Name.path node.name
  let generics := (typeParameters (config.variance == .preserve) node.generics).map (·.text)
  let parents := if config.supertypes = .flattened then [] else graph.openSupertypes node
  let (front, back) := objectFrame (path.getLast?.getD "" ++ Script.angled generics)
    (config.supertypes == .intersecting) (parents.map (·.spell.text))
  scriptText (namespaceLines path.dropLast fun depth =>
    docLines depth node.doc ++ objectLines depth front back members)

/-- The declaration of a node as the union of its variants. -/
def unionText (graph : TypeGraph) (config : EmitConfig) (node : Node) : String :=
  let path := Name.path node.name
  let generics := (typeParameters (config.variance == .preserve) node.generics).map (·.text)
  let variants := node.variants.map fun variant => (graph.variantReference node variant).spell.text
  scriptText (namespaceLines path.dropLast fun depth => docLines depth node.doc ++
    [written depth ("export type " ++ (path.getLast?.getD "" ++ Script.angled generics) ++ " = " ++
      " | ".intercalate variants ++ ";")])

end TypeGraph

end TypeBridge
