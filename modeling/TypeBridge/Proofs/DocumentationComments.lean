import TypeBridge.Proofs.AdapterFiles
import TypeBridge.Proofs.AdapterModuleNames
import TypeBridge.Proofs.CommentTexts
import TypeBridge.Proofs.Discriminants

/-!
# Documentation in files

A written file is its code with comments in between.  The code is the same without documentation,
and each comment ends where it should exactly when no documentation ends a comment.
-/

namespace TypeBridge

open Text (EndsComment IsIndentedComment)

namespace Fragment

mutual

/-- The texts of the comments, from top to bottom. -/
def comments : Fragment → List String
  | line _ | blank => []
  | block _ body _ | indented body => commentsOfAll body
  | comment text => [text]

def commentsOfAll : List Fragment → List String
  | [] => []
  | fragment :: rest => fragment.comments ++ commentsOfAll rest

end

mutual

/-- What is left without comments. -/
def bare : Fragment → List Fragment
  | line content => [line content]
  | blank => [blank]
  | block header body close => [block header (bareAll body) close]
  | indented body => [indented (bareAll body)]
  | comment _ => []

def bareAll : List Fragment → List Fragment
  | [] => []
  | fragment :: rest => fragment.bare ++ bareAll rest

end

@[simp] theorem commentsOfAll_append (front back : List Fragment) :
    commentsOfAll (front ++ back) = commentsOfAll front ++ commentsOfAll back := by
  induction front with
  | nil => rfl
  | cons fragment front ih => simp [commentsOfAll, ih]

@[simp] theorem bareAll_append (front back : List Fragment) :
    bareAll (front ++ back) = bareAll front ++ bareAll back := by
  induction front with
  | nil => rfl
  | cons fragment front ih => simp [bareAll, ih]

/-- Fragments that are some code with comments for some documentation in between. -/
structure Documents (fragments code : List Fragment) (docs : List String) : Prop where
  bare : bareAll fragments = code
  comments : commentsOfAll fragments = docs

namespace Documents

variable {fragments code more otherCode : List Fragment} {docs others : List String}

theorem nil : Documents [] [] [] :=
  ⟨rfl, rfl⟩

theorem line (content : String) : Documents [.line content] [.line content] [] :=
  ⟨rfl, rfl⟩

theorem blank : Documents [.blank] [.blank] [] :=
  ⟨rfl, rfl⟩

theorem append (front : Documents fragments code docs) (back : Documents more otherCode others) :
    Documents (fragments ++ more) (code ++ otherCode) (docs ++ others) :=
  ⟨by rw [bareAll_append, front.bare, back.bare],
    by rw [commentsOfAll_append, front.comments, back.comments]⟩

theorem block (body : Documents fragments code docs) (header : String) (close : Option String) :
    Documents [.block header fragments close] [.block header code close] docs :=
  ⟨by simp [bareAll, Fragment.bare, body.bare],
    by simp [commentsOfAll, Fragment.comments, body.comments]⟩

/-- What is written for several things, each documented. -/
theorem flatMap {α : Type} {written kept : α → List Fragment} {documentation : α → List String}
    (each : ∀ a, Documents (written a) (kept a) (documentation a)) (all : List α) :
    Documents (all.flatMap written) (all.flatMap kept) (all.flatMap documentation) := by
  induction all with
  | nil => exact nil
  | cons a all ih => exact (each a).append ih

/-- Each of some fragments is code. -/
theorem plain (each : ∀ fragment ∈ fragments, Documents [fragment] [fragment] []) :
    Documents fragments fragments [] := by
  induction fragments with
  | nil => exact nil
  | cons fragment fragments ih =>
    obtain ⟨first, others⟩ := List.forall_mem_cons.1 each
    exact first.append (ih others)

end Documents

end Fragment

namespace Page

/-- A part of what is written. -/
inductive Piece where
  | code (text : String)
  | comment (indent : Indent) (depth : Nat) (text : String)

namespace Piece

def text : Piece → String
  | code text => text
  | comment indent depth text => commentText (margin indent depth) text

def textOfAll (pieces : List Piece) : String :=
  String.join (pieces.map text)

def isCode : Piece → Bool
  | code _ => true
  | comment .. => false

def doc? : Piece → Option String
  | code _ => none
  | comment _ _ text => some text

/-- A comment is written as one comment. -/
def IsConfined : Piece → Prop
  | code _ => True
  | comment indent depth text =>
    IsIndentedComment (margin indent depth) (commentText (margin indent depth) text)

theorem isConfined_iff (piece : Piece) :
    piece.IsConfined ↔ ∀ doc ∈ piece.doc?, ¬ EndsComment doc.toList := by
  cases piece with
  | code => simp [IsConfined, doc?]
  | comment indent depth text =>
    simpa [IsConfined, doc?] using
      isIndentedComment_commentText (star_notMem_margin indent depth) text

/-- The comments are all confined exactly when no documentation ends a comment. -/
theorem forall_isConfined_iff (pieces : List Piece) : (∀ piece ∈ pieces, piece.IsConfined) ↔
    ∀ doc ∈ pieces.filterMap (·.doc?), ¬ EndsComment doc.toList := by
  rw [List.forall_mem_filterMap]
  simp only [isConfined_iff, Option.mem_def]

theorem textOfAll_append (front back : List Piece) :
    textOfAll (front ++ back) = textOfAll front ++ textOfAll back := by
  simp [textOfAll, String.join_append]

end Piece

open Piece (textOfAll)

mutual

/-- What is written for a fragment at some depth. -/
def pieces (indent : Indent) (depth : Nat) : Fragment → List Piece
  | .line content => [.code (margin indent depth ++ content ++ "\n")]
  | .blank => [.code "\n"]
  | .block header body close =>
    .code (margin indent depth ++ header ++ "\n") :: (piecesOfAll indent (depth + 1) body ++
      (close.map fun content => .code (margin indent depth ++ content ++ "\n")).toList)
  | .indented body => piecesOfAll indent (depth + 1) body
  | .comment text => [.comment indent depth text]

def piecesOfAll (indent : Indent) (depth : Nat) : List Fragment → List Piece
  | [] => []
  | fragment :: rest => pieces indent depth fragment ++ piecesOfAll indent depth rest

end

mutual

theorem write_eq_pieces (page : Page) : ∀ fragment : Fragment,
    page.write fragment = page.append (textOfAll (pieces page.indent page.depth fragment))
  | .line content => by simp [write, line_eq, pieces, textOfAll, Piece.text]
  | .blank => by simp [write, blank, append, pieces, textOfAll, Piece.text]
  | .block header body close => by
    rw [write, writeAll_eq_pieces _ body, pieces]
    cases close <;>
      simp [line?, line_eq, append, deeper, shallower, textOfAll, Piece.text, String.append_assoc]
  | .indented body => by
    rw [write, writeAll_eq_pieces _ body, pieces]
    simp [append, deeper, shallower]
  | .comment text => by simp [write, comment_eq, pieces, textOfAll, Piece.text]

theorem writeAll_eq_pieces (page : Page) : ∀ fragments : List Fragment,
    page.writeAll fragments =
      page.append (textOfAll (piecesOfAll page.indent page.depth fragments))
  | [] => by simp [writeAll, piecesOfAll, textOfAll, append]
  | fragment :: rest => by
    rw [writeAll, write_eq_pieces page fragment, writeAll_eq_pieces _ rest, piecesOfAll,
      Piece.textOfAll_append, append_append]
    rfl

end

theorem render_eq_pieces (indent : Indent) (fragments : List Fragment) :
    render indent fragments = textOfAll (piecesOfAll indent 0 fragments) := by
  rw [render, writeAll_eq_pieces]
  simp [append, empty]

theorem piecesOfAll_append (indent : Indent) (depth : Nat) (front back : List Fragment) :
    piecesOfAll indent depth (front ++ back) =
      piecesOfAll indent depth front ++ piecesOfAll indent depth back := by
  induction front with
  | nil => rfl
  | cons fragment front ih => simp [piecesOfAll, ih]

mutual

/-- The code of a fragment is what is written for it without comments. -/
theorem filter_pieces (indent : Indent) (depth : Nat) : ∀ fragment : Fragment,
    (pieces indent depth fragment).filter (·.isCode) = piecesOfAll indent depth fragment.bare
  | .line _ => by simp [pieces, piecesOfAll, Fragment.bare, Piece.isCode]
  | .blank => by simp [pieces, piecesOfAll, Fragment.bare, Piece.isCode]
  | .block header body close => by
    have closing : ((close.map fun content =>
        Piece.code (margin indent depth ++ content ++ "\n")).toList).filter (·.isCode) =
          (close.map fun content => .code (margin indent depth ++ content ++ "\n")).toList := by
      cases close <;> rfl
    rw [pieces, List.filter_cons_of_pos rfl, List.filter_append, filter_piecesOfAll _ _ body,
      closing, Fragment.bare, piecesOfAll, piecesOfAll, pieces, List.append_nil]
  | .indented body => by
    simp [pieces, piecesOfAll, Fragment.bare, filter_piecesOfAll indent (depth + 1) body]
  | .comment _ => by simp [pieces, piecesOfAll, Fragment.bare, Piece.isCode]

theorem filter_piecesOfAll (indent : Indent) (depth : Nat) : ∀ fragments : List Fragment,
    (piecesOfAll indent depth fragments).filter (·.isCode) =
      piecesOfAll indent depth (Fragment.bareAll fragments)
  | [] => rfl
  | fragment :: rest => by
    rw [piecesOfAll, List.filter_append, filter_pieces _ _ fragment, filter_piecesOfAll _ _ rest,
      Fragment.bareAll, piecesOfAll_append]

end

mutual

theorem filterMap_pieces (indent : Indent) (depth : Nat) : ∀ fragment : Fragment,
    (pieces indent depth fragment).filterMap (·.doc?) = fragment.comments
  | .line _ => by simp [pieces, Fragment.comments, Piece.doc?]
  | .blank => by simp [pieces, Fragment.comments, Piece.doc?]
  | .block header body close => by
    have closing : ((close.map fun content =>
        Piece.code (margin indent depth ++ content ++ "\n")).toList).filterMap (·.doc?) = [] := by
      cases close <;> rfl
    rw [pieces, List.filterMap_cons_none rfl, List.filterMap_append,
      filterMap_piecesOfAll _ _ body, closing, List.append_nil, Fragment.comments]
  | .indented body => by
    rw [pieces, filterMap_piecesOfAll _ _ body, Fragment.comments]
  | .comment _ => by simp [pieces, Fragment.comments, Piece.doc?]

theorem filterMap_piecesOfAll (indent : Indent) (depth : Nat) : ∀ fragments : List Fragment,
    (piecesOfAll indent depth fragments).filterMap (·.doc?) = Fragment.commentsOfAll fragments
  | [] => rfl
  | fragment :: rest => by
    rw [piecesOfAll, List.filterMap_append, filterMap_pieces _ _ fragment,
      filterMap_piecesOfAll _ _ rest, Fragment.commentsOfAll]

end

/-- A text is some code with comments for some documentation in between.  They are all written as
one comment each exactly when no documentation ends a comment. -/
def IsDocumented (text : String) (code : List Fragment) (docs : List String) : Prop :=
  ∃ parts : List Piece, text = textOfAll parts ∧
    parts.filter (·.isCode) = piecesOfAll .script 0 code ∧ parts.filterMap (·.doc?) = docs ∧
    ((∀ part ∈ parts, part.IsConfined) ↔ ∀ doc ∈ docs, ¬ EndsComment doc.toList)

theorem isDocumented_render {fragments code : List Fragment} {docs : List String}
    (documents : Fragment.Documents fragments code docs) :
    IsDocumented (render .script fragments) code docs := by
  obtain ⟨rfl, rfl⟩ := documents
  have docs := filterMap_piecesOfAll .script 0 fragments
  exact ⟨_, render_eq_pieces .script fragments, filter_piecesOfAll _ _ fragments, docs,
    docs ▸ Piece.forall_isConfined_iff _⟩

end Page

namespace Script

open Fragment (Documents)

namespace Literal

mutual

/-- Literals hold no comments. -/
theorem documents_fragment (front back : String) : ∀ literal : Literal,
    Documents [literal.fragment front back] [literal.fragment front back] []
  | text _ | raw _ | object [] => .line _
  | object (property :: others) =>
    (documents_propertyFragments (property :: others)).block _ _
  | array items => by
    rw [fragment]
    split
    · exact .line _
    · exact (documents_itemFragments items).block _ _

theorem documents_propertyFragments : ∀ properties : List (String × Literal),
    Documents (propertyFragments properties) (propertyFragments properties) []
  | [] => .nil
  | (_, value) :: others =>
    (documents_fragment _ _ value).append (documents_propertyFragments others)

theorem documents_itemFragments : ∀ items : List Literal,
    Documents (itemFragments items) (itemFragments items) []
  | [] => .nil
  | item :: others => (documents_fragment _ _ item).append (documents_itemFragments others)

end

end Literal

/-- A member without its comment. -/
def DocumentedMember.undocumented (member : DocumentedMember) : DocumentedMember :=
  { member with doc := none }

def Heading.undocumented (heading : Heading) : Heading :=
  { heading with doc := none }

namespace Statement

/-- A statement without its comments. -/
def undocumented : Statement → Statement
  | interface heading parents members =>
    interface heading.undocumented parents (members.map (·.undocumented))
  | typeAlias heading type => typeAlias heading.undocumented type
  | intersection heading parts members =>
    intersection heading.undocumented parts (members.map (·.undocumented))
  | const name type _ value => const name type none value
  | function name _ parameters result body => function name none parameters result body
  | raw code => raw code

/-- The documentation of a statement and of its members. -/
def docs : Statement → List String
  | interface heading _ members | intersection heading _ members =>
    heading.doc.toList ++ members.flatMap (·.doc.toList)
  | typeAlias heading _ => heading.doc.toList
  | const _ _ doc _ | function _ doc _ _ _ => doc.toList
  | raw _ => []

end Statement

theorem documents_docFragments (doc : Option String) :
    Documents (docFragments doc) [] doc.toList := by
  cases doc <;> exact ⟨rfl, rfl⟩

theorem documents_behind_doc {fragments code : List Fragment} (doc : Option String)
    (plain : Documents fragments code []) :
    Documents (docFragments doc ++ fragments) code doc.toList := by
  simpa using (documents_docFragments doc).append plain

theorem DocumentedMember.documents_fragments (member : DocumentedMember) :
    Documents member.fragments member.undocumented.fragments member.doc.toList :=
  documents_behind_doc member.doc (.line _)

theorem documents_memberBlock (front back : String) (members : List DocumentedMember) :
    Documents [memberBlock front back members]
      [memberBlock front back (members.map (·.undocumented))]
      (members.flatMap (·.doc.toList)) := by
  cases members with
  | nil => exact .line _
  | cons member members =>
    have inside : Documents ((member :: members).flatMap (·.fragments))
        (((member :: members).map (·.undocumented)).flatMap (·.fragments))
        ((member :: members).flatMap (·.doc.toList)) := by
      rw [List.flatMap_map]
      exact .flatMap (fun member => member.documents_fragments) _
    exact inside.block _ _

/-- The comments of a statement are its documentation, and without them it is the statement without
documentation. -/
theorem Statement.documents_fragments : ∀ statement : Statement,
    Documents statement.fragments statement.undocumented.fragments statement.docs
  | interface heading _ members =>
    (documents_docFragments heading.doc).append (documents_memberBlock _ _ members)
  | intersection heading _ members =>
    (documents_docFragments heading.doc).append (documents_memberBlock _ _ members)
  | typeAlias heading _ => documents_behind_doc heading.doc (.line _)
  | const _ _ doc value => documents_behind_doc doc (value.documents_fragment _ _)
  | function _ doc _ _ body => by
    have lines : Documents (body.map Fragment.line) (body.map Fragment.line) [] :=
      .plain (List.forall_mem_map.2 fun content _ => .line content)
    exact documents_behind_doc doc (lines.block _ _)
  | raw code => by
    refine .plain (List.forall_mem_map.2 fun line _ => ?_)
    split
    · exact .blank
    · exact .line _

theorem documents_inNamespace {body code : List Fragment} {docs : List String}
    (documents : Documents body code docs) (path : List String) :
    Documents (inNamespace path body) (inNamespace path code) docs := by
  unfold inNamespace
  split
  · exact documents
  · exact documents.block _ _

/-- Statements parted by blank lines. -/
theorem documents_intercalate (statements : List Statement) :
    Documents ([Fragment.blank].intercalate (statements.map (·.fragments)))
      ([Fragment.blank].intercalate (statements.map (·.undocumented.fragments)))
      (statements.flatMap (·.docs)) := by
  induction statements with
  | nil => exact .nil
  | cons statement statements ih =>
    cases statements with
    | nil => simpa using statement.documents_fragments
    | cons next statements =>
      simpa using (statement.documents_fragments.append .blank).append ih

theorem SourceFile.documents_ofParts (imports : List Import) (statements : List Statement) :
    Documents (ofParts imports (statements.map (·.fragments))).fragments
      (ofParts imports (statements.map (·.undocumented.fragments))).fragments
      (statements.flatMap (·.docs)) := by
  have lines : Documents ((imports.filter (!·.isEmpty)).map fun item => Fragment.line item.text)
      ((imports.filter (!·.isEmpty)).map fun item => Fragment.line item.text) [] :=
    .plain (List.forall_mem_map.2 fun item _ => .line item.text)
  have gap (nothing : Prop) [Decidable nothing] :
      Documents (if nothing then [] else [Fragment.blank])
        (if nothing then [] else [Fragment.blank]) [] := by
    split
    · exact .nil
    · exact .blank
  simpa [ofParts, SourceFile.fragments] using
    (lines.append (gap _)).append (documents_intercalate statements)

end Script

namespace Entry

def doc? : Entry → Option String
  | discriminant _ _ => none
  | property _ _ _ doc | method _ _ _ _ _ doc => doc

theorem doc_syntaxOf (entry : Entry) : entry.syntaxOf.doc = entry.doc? := by
  cases entry <;> rfl

end Entry

namespace Shape

/-- The documentation of the members. -/
def docs : Shape → List String
  | constants _ | union _ _ => []
  | object _ _ _ entries => entries.flatMap (·.doc?.toList)

theorem docs_statement (shape : Shape) (name : String) (doc : Option String) :
    (shape.statement name doc).docs = doc.toList ++ shape.docs := by
  cases shape with
  | constants | union => exact (List.append_nil _).symm
  | object generics intersected parents entries =>
    unfold statement
    dsimp only
    split <;> simp [Script.Statement.docs, docs, List.flatMap_map, Entry.doc_syntaxOf]

end Shape

namespace TypeGraph

/-- The documentation of a node and of the members in its declaration. -/
def docs (graph : TypeGraph) (config : EmitConfig) (node : Node) : List String :=
  node.doc.toList ++ (graph.draw config node).1.docs

/-- What declares a node when nothing is documented. -/
def undocumented (graph : TypeGraph) (config : EmitConfig) (node : Node) : List Fragment :=
  Script.inNamespace (Name.path node.name).dropLast
    (graph.statement config node).undocumented.fragments

theorem isDocumented_text (graph : TypeGraph) (config : EmitConfig) (node : Node) :
    Page.IsDocumented (graph.text config node) (graph.undocumented config node)
      (graph.docs config node) := by
  have documents := (graph.statement config node).documents_fragments
  rw [statement, Shape.docs_statement] at documents
  exact Page.isDocumented_render (Script.documents_inNamespace documents _)

end TypeGraph

namespace Adapter

variable (declarationModule : String) (recipe : RecipeSchema)

/-- The documentation in the adapter of a recipe. -/
def docs : List String :=
  (statements recipe).flatMap (·.docs)

/-- An adapter without documentation. -/
def undocumented : List Fragment :=
  (Script.SourceFile.ofParts [declarationImport declarationModule recipe, sharedImport recipe]
    ((statements recipe).map (·.undocumented.fragments))).fragments

theorem isDocumented_sourceFile :
    Page.IsDocumented ((sourceFile declarationModule recipe).text .script)
      (undocumented declarationModule recipe) (docs recipe) :=
  Page.isDocumented_render (Script.SourceFile.documents_ofParts _ (statements recipe))

theorem docs_eq : docs recipe =
    ("Options of " ++ recipe.displayName ++ ".") ::
      (recipe.options.flatMap (fun option => (optionMember option).doc.toList) ++
        ("Construct " ++ recipe.displayName ++ " through the host.") ::
          recipe.visitor.toList.map fun visitor => "Dispatch " ++ Name.spelled visitor.target ++
            " nodes and their subtypes to `visit`.") := by
  unfold docs statements
  cases recipe.visitor <;>
    simp [recipeStatements, visitorStatements, Script.Statement.docs, List.flatMap_map]

theorem endsComment_between {front text back : String} (opened : '*' ∉ front.toList)
    (closed : '*' ∉ back.toList ∧ '/' ∉ back.toList) :
    EndsComment (front ++ text ++ back).toList ↔ EndsComment text.toList := by
  rw [String.toList_append, String.toList_append,
    Text.endsComment_append_of_notMem closed.1 closed.2,
    Text.endsComment_append_of_notMem_front opened]

/-- An option without a description has no comment. -/
theorem forall_doc_optionMember_iff (option : OptionSchema) :
    (∀ doc ∈ (optionMember option).doc.toList, ¬ EndsComment doc.toList) ↔
      ¬ EndsComment option.description.toList := by
  by_cases empty : option.description.isEmpty = true
  · have nothing : ¬ EndsComment option.description.toList := by
      rw [String.isEmpty_iff.1 empty]
      exact Text.not_endsComment (.inl List.not_mem_nil)
    simp [optionMember, empty, nothing]
  · simp [optionMember, empty]

/-- The documentation in an adapter ends a comment where the display name of the recipe does, the
description of an option, or the name of the visited type. -/
theorem forall_docs_iff : (∀ doc ∈ docs recipe, ¬ EndsComment doc.toList) ↔
    ¬ EndsComment recipe.displayName.toList ∧
      (∀ option ∈ recipe.options, ¬ EndsComment option.description.toList) ∧
      ∀ visitor ∈ recipe.visitor, ¬ EndsComment (Name.spelled visitor.target).toList := by
  have titled : EndsComment ("Options of " ++ recipe.displayName ++ ".").toList ↔
      EndsComment recipe.displayName.toList := endsComment_between (by decide) (by decide)
  have constructed :
      EndsComment ("Construct " ++ recipe.displayName ++ " through the host.").toList ↔
        EndsComment recipe.displayName.toList := endsComment_between (by decide) (by decide)
  have visited (target : String) :
      EndsComment ("Dispatch " ++ target ++ " nodes and their subtypes to `visit`.").toList ↔
        EndsComment target.toList := endsComment_between (by decide) (by decide)
  rw [docs_eq, List.forall_mem_cons, List.forall_mem_append, List.forall_mem_cons,
    List.forall_mem_flatMap, List.forall_mem_map, titled, constructed]
  simp only [forall_doc_optionMember_iff, visited]
  simp only [Option.mem_toList]
  exact ⟨fun ⟨name, options, _, visitor⟩ => ⟨name, options, visitor⟩,
    fun ⟨name, options, visitor⟩ => ⟨name, options, name, visitor⟩⟩

end Adapter

/-- At every indentation, what is written for a comment is one comment exactly when no comment ends
inside of its text.  The text of a declaration is its code without documentation, with one comment
for each documentation in between, and so is the source of an adapter; the comments of a declaration
are all as they should be exactly when no comment ends in the documentation of the type and its
members, and those of an adapter exactly when none ends in the display name of the recipe, in the
description of an option and in the name of the visited type. -/
theorem documentation_confined_iff (page : Page) (text : String) {graph : TypeGraph}
    {config : EmitConfig} {group : Nat} {node : Node} {declared : Declaration × List Diagnostic}
    (declares : graph.declare config group node = .ok declared) {declarations adapters : String}
    {recipes : List RecipeSchema} {adapter : AdapterUnit}
    (written : adapter ∈ (AdapterSet.ofRecipes declarations adapters recipes).units) :
    (∃ added, page.comment text = page.append added ∧
      (IsIndentedComment (Page.margin page.indent page.depth) added ↔ ¬ EndsComment text.toList)) ∧
    Page.IsDocumented declared.1.text (graph.undocumented config node) (graph.docs config node) ∧
    ∃ recipe ∈ recipes, adapter.recipe = recipe.name ∧
      Page.IsDocumented adapter.source
        (Adapter.undocumented (Adapter.declarationModule declarations adapters) recipe)
        (Adapter.docs recipe) ∧
      ((∀ doc ∈ Adapter.docs recipe, ¬ EndsComment doc.toList) ↔
        ¬ EndsComment recipe.displayName.toList ∧
          (∀ option ∈ recipe.options, ¬ EndsComment option.description.toList) ∧
          ∀ visitor ∈ recipe.visitor, ¬ EndsComment (Name.spelled visitor.target).toList) := by
  refine ⟨⟨_, page.comment_eq text,
    Page.isIndentedComment_commentText (Page.star_notMem_margin _ _) text⟩, ?_, ?_⟩
  · rw [(TypeGraph.text_of_declare declares).2]
    exact graph.isDocumented_text config node
  · obtain ⟨recipe, listed, named, source⟩ := AdapterSet.exists_recipe_of_mem written
    exact ⟨recipe, listed, named, source ▸ Adapter.isDocumented_sourceFile _ recipe,
      Adapter.forall_docs_iff recipe⟩

/-- An interface with some documentation. -/
def documentedNode (doc : String) : Node :=
  ⟨"org.x.A", .interface, some doc, [], [], [], [], [], [], 0⟩

def documentedGraph (doc : String) : TypeGraph where
  nodes := [documentedNode doc]
  distinct := by simp

/-- A recipe with an option that is described. -/
def documentedRecipe (description : String) : RecipeSchema where
  name := "org.x.Prune"
  displayName := "Prune"
  description := ""
  options := [⟨"depth", .number, "Depth", description, none, true⟩]
  visitor := none

/-- Documentation in which a star and a slash are apart stays in its comments. -/
theorem documentedGraph_confined :
    (∃ added, (Page.empty .tab).deeper.comment "One *\n/ two." =
        (Page.empty .tab).deeper.append added ∧ IsIndentedComment (Page.margin .tab 1) added) ∧
    (documentedGraph "One *\n/ two.").declare Config.plainEmit 0
        (documentedNode "One *\n/ two.") = .ok (⟨"org.x.A", "A", 0, [],
        "/**\n * One *\n * / two.\n */\nexport interface A \x7b\x7d\n"⟩, []) ∧
    (∃ parts, "/**\n * One *\n * / two.\n */\nexport interface A \x7b\x7d\n" =
        Page.Piece.textOfAll parts ∧
      parts.filterMap (·.doc?) = ["One *\n/ two."] ∧ ∀ part ∈ parts, part.IsConfined) ∧
    ∃ adapter ∈ (AdapterSet.ofRecipes "types.d.ts" "" [documentedRecipe "Two * / three."]).units,
      ∃ parts, adapter.source = Page.Piece.textOfAll parts ∧
        parts.filterMap (·.doc?) =
          ["Options of Prune.", "Two * / three.", "Construct Prune through the host."] ∧
        ∀ part ∈ parts, part.IsConfined := by
  have declares : (documentedGraph "One *\n/ two.").declare Config.plainEmit 0
      (documentedNode "One *\n/ two.") = .ok (⟨"org.x.A", "A", 0, [],
        "/**\n * One *\n * / two.\n */\nexport interface A \x7b\x7d\n"⟩, []) := by
    cbv
  have free : (documentedRecipe "Two * / three.").fileStem ≠ Adapter.sharedModule := by decide
  have units : (AdapterSet.ofRecipes "types.d.ts" "" [documentedRecipe "Two * / three."]).units =
      [_] := AdapterSet.units_ofRecipes_singleton free
  have written := units ▸ List.mem_singleton_self _
  obtain ⟨⟨added, commented, single⟩, ⟨parts, text, -, docs, confined⟩, recipe, listed, -,
    ⟨parts', source, -, docs', confined'⟩, apart⟩ :=
    documentation_confined_iff (Page.empty .tab).deeper "One *\n/ two." declares written
  obtain rfl := List.mem_singleton.1 listed
  exact ⟨⟨added, commented, single.2 (by decide)⟩, declares,
    ⟨parts, text, docs, confined.2 (by decide)⟩, _, written, parts', source,
    docs'.trans (by decide), confined'.2 (apart.2 (by decide))⟩

/-- Documentation that ends its comment is followed by code. -/
theorem injected_declaration :
    ∃ added, (Page.empty .script).comment "Ends. */ export type Injected = 1; /*" =
        (Page.empty .script).append added ∧
      ¬ IsIndentedComment (Page.margin .script 0) added ∧
      added = "/** Ends. */ export type Injected = 1; /* */\n" ∧
      (documentedGraph "Ends. */ export type Injected = 1; /*").text Config.plainEmit
          (documentedNode "Ends. */ export type Injected = 1; /*") =
        added ++ "export interface A \x7b\x7d\n" := by
  have written : Page.commentText (Page.margin .script 0) "Ends. */ export type Injected = 1; /*" =
      "/** Ends. */ export type Injected = 1; /* */\n" := by
    cbv
  have broken := Page.isIndentedComment_commentText (Page.star_notMem_margin .script 0)
    "Ends. */ export type Injected = 1; /*"
  refine ⟨_, (Page.empty .script).comment_eq _, fun whole => broken.1 whole (by decide), written,
    ?_⟩
  cbv

end TypeBridge
