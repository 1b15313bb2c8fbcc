import TypeBridge.Adapter.Source
import TypeBridge.Proofs.DeclarationTexts
import TypeBridge.Proofs.FileNames

/-!
# The text of adapters

An adapter has its imports in front, one line for each, and behind a blank line the statements that
it exports, the interface of the options first.  An exported statement begins no line as an import
does, so the imports in front are all that there are.
-/

namespace TypeBridge

open PageLine (written)

/-- A line at the margin that begins as an import does. -/
def PageLine.IsImport (line : PageLine) : Prop :=
  ∃ content, line = written 0 content ∧ "import ".toList <+: content.toList

namespace PageLine

theorem not_isImport_blank : ¬ blank.IsImport := by
  rintro ⟨content, same, -⟩
  cases same

theorem not_isImport_deeper (depth : Nat) (content : String) :
    ¬ (written (depth + 1) content).IsImport := by
  rintro ⟨_, same, -⟩
  cases same

theorem not_isImport_of_head {depth : Nat} {content : String}
    (differs : content.toList.head? ≠ some 'i') : ¬ (written depth content).IsImport := by
  rintro ⟨_, same, back, begins⟩
  cases same
  rw [← begins] at differs
  exact differs rfl

end PageLine

namespace Fragment

variable {line : PageLine}

theorem mem_linesOfAll_iff {depth : Nat} {fragments : List Fragment} :
    line ∈ linesOfAll depth fragments ↔ ∃ fragment ∈ fragments, line ∈ fragment.lines depth := by
  induction fragments with
  | nil => simp [linesOfAll]
  | cons first rest ih => rw [linesOfAll, List.mem_append, ih, List.exists_mem_cons_iff]

theorem linesOfAll_map_line (depth : Nat) (contents : List String) :
    linesOfAll depth (contents.map .line) = contents.map (written depth) := by
  induction contents with
  | nil => rfl
  | cons first rest ih =>
    rw [List.map_cons, linesOfAll, ih]
    rfl

mutual

/-- Nothing inside of a fragment is at the margin. -/
theorem not_isImport_deeper (depth : Nat) : ∀ fragment : Fragment,
    line ∈ fragment.lines (depth + 1) → ¬ line.IsImport
  | .line content => by
    intro member
    rw [List.mem_singleton.1 member]
    exact PageLine.not_isImport_deeper depth content
  | .blank => by
    intro member
    rw [List.mem_singleton.1 member]
    exact PageLine.not_isImport_blank
  | .block header body close => by
    intro member
    rw [lines, List.mem_cons, List.mem_append] at member
    rcases member with rfl | inside | last
    · exact PageLine.not_isImport_deeper depth header
    · exact not_isImport_deeperAll (depth + 1) body inside
    · obtain ⟨content, -, rfl⟩ := Option.map_eq_some_iff.1 (Option.mem_toList.1 last)
      exact PageLine.not_isImport_deeper depth content
  | .indented body => not_isImport_deeperAll (depth + 1) body
  | .comment text => by
    intro member
    obtain ⟨content, -, rfl⟩ := List.mem_map.1 member
    exact PageLine.not_isImport_deeper depth content

theorem not_isImport_deeperAll (depth : Nat) : ∀ fragments : List Fragment,
    line ∈ linesOfAll (depth + 1) fragments → ¬ line.IsImport
  | [] => by
    intro member
    cases member
  | fragment :: rest => by
    intro member
    rw [linesOfAll, List.mem_append] at member
    rcases member with first | later
    · exact not_isImport_deeper depth fragment first
    · exact not_isImport_deeperAll depth rest later

end

end Fragment

namespace Script

variable {line : PageLine}

theorem not_isImport_docLines {doc : Option String} (member : line ∈ docLines 0 doc) :
    ¬ line.IsImport := by
  obtain ⟨content, listed, rfl⟩ := List.mem_map.1 member
  obtain ⟨text, -, inComment⟩ := List.mem_flatMap.1 listed
  apply PageLine.not_isImport_of_head
  rw [Page.commentLines_eq] at inComment
  split at inComment
  · simp only [List.mem_cons, List.mem_append, List.mem_map, List.not_mem_nil, or_false]
      at inComment
    rcases inComment with (rfl | ⟨row, -, rfl⟩) | rfl
    · decide
    · unfold Page.commentRow
      split <;> simp
    · decide
  · rw [List.mem_singleton.1 inComment]
    simp

theorem not_isImport_objectLines {front back : String} {members : List WrittenMember}
    (exported : front.toList.head? = some 'e') (member : line ∈ objectLines 0 front back members) :
    ¬ line.IsImport := by
  cases members with
  | nil =>
    rw [List.mem_singleton.1 member]
    apply PageLine.not_isImport_of_head
    simp [List.head?_append, exported]
  | cons first rest =>
    simp only [objectLines, List.mem_append, List.mem_singleton, List.mem_flatMap] at member
    rcases member with (rfl | ⟨other, -, inside⟩) | rfl
    · apply PageLine.not_isImport_of_head
      simp [List.head?_append, exported]
    · rcases List.mem_append.1 inside with comment | only
      · obtain ⟨content, -, rfl⟩ := List.mem_map.1 comment
        exact PageLine.not_isImport_deeper 0 content
      · rw [List.mem_singleton.1 only]
        exact PageLine.not_isImport_deeper 0 other.line
    · apply PageLine.not_isImport_of_head
      simp

theorem not_isImport_block {front : String} {body : List Fragment} {close : String}
    (exported : front.toList.head? = some 'e') (closes : close.toList.head? ≠ some 'i')
    (member : line ∈ (Fragment.block front body (some close)).lines 0) : ¬ line.IsImport := by
  rw [Fragment.lines, List.mem_cons, List.mem_append] at member
  rcases member with rfl | inside | last
  · apply PageLine.not_isImport_of_head
    simp [exported]
  · exact Fragment.not_isImport_deeperAll 0 body inside
  · rw [List.mem_singleton.1 last]
    exact PageLine.not_isImport_of_head closes

theorem not_isImport_line {content : String} (exported : content.toList.head? = some 'e')
    (member : line ∈ (Fragment.line content).lines 0) : ¬ line.IsImport := by
  rw [List.mem_singleton.1 member]
  apply PageLine.not_isImport_of_head
  simp [exported]

theorem not_isImport_literal {front back : String} (exported : front.toList.head? = some 'e')
    (value : Literal) (member : line ∈ (value.fragment front back).lines 0) :
    ¬ line.IsImport := by
  have alone : ∀ content,
      line ∈ (Fragment.line (front ++ content ++ back)).lines 0 → ¬ line.IsImport := by
    intro content
    exact not_isImport_line (by simp [List.head?_append, exported])
  have around : ∀ opening body close, close.toList.head? ≠ some 'i' →
      line ∈ (Fragment.block (front ++ opening) body (some close)).lines 0 → ¬ line.IsImport := by
    intro opening body close
    exact not_isImport_block (by simp [List.head?_append, exported])
  cases value with
  | text content => exact alone _ member
  | raw code => exact alone _ member
  | object properties =>
    cases properties with
    | nil => exact alone _ member
    | cons property rest => exact around _ _ _ (by simp) member
  | array items =>
    rw [Literal.fragment] at member
    split at member
    · exact alone _ member
    · exact around _ _ _ (by simp) member

/-- A statement begins no line as an import does, unless it consists of lines as they are. -/
theorem Statement.not_isImport {statement : Statement} (laid : ∀ code, statement ≠ .raw code)
    (member : line ∈ Fragment.linesOfAll 0 statement.fragments) : ¬ line.IsImport := by
  have documented : ∀ {doc fragment}, line ∈ Fragment.linesOfAll 0 (docFragments doc ++ [fragment]) →
      (line ∈ fragment.lines 0 → ¬ line.IsImport) → ¬ line.IsImport := by
    intro doc fragment inside other
    rw [Fragment.linesOfAll_append, linesOfAll_docFragments, List.mem_append, Fragment.linesOfAll,
      Fragment.linesOfAll, List.append_nil] at inside
    rcases inside with comment | rest
    · exact not_isImport_docLines comment
    · exact other rest
  cases statement with
  | interface heading parents members =>
    apply documented member
    rw [lines_memberBlock]
    exact not_isImport_objectLines (by simp)
  | typeAlias heading type => exact documented member (not_isImport_line (by simp))
  | intersection heading parts members =>
    apply documented member
    rw [lines_memberBlock]
    exact not_isImport_objectLines (by simp)
  | const name type doc value => exact documented member (not_isImport_literal (by simp) value)
  | function name doc parameters result body =>
    exact documented member (not_isImport_block (by simp) (by simp))
  | raw code => exact absurd rfl (laid code)

/-- The lines of a file with some imports and some bodies. -/
theorem SourceFile.linesOfAll_fragments {file : SourceFile} (imports : file.imports ≠ [])
    (bodies : file.bodies ≠ []) :
    Fragment.linesOfAll 0 file.fragments =
      file.imports.map (fun item => written 0 item.text) ++ [.blank] ++
        Fragment.linesOfAll 0 ([Fragment.blank].intercalate file.bodies) := by
  have contents : Fragment.linesOfAll 0 (file.imports.map fun item => Fragment.line item.text) =
      file.imports.map fun item => written 0 item.text := by
    simpa [Function.comp_def] using Fragment.linesOfAll_map_line 0 (file.imports.map (·.text))
  unfold fragments
  simp [Fragment.linesOfAll_append, contents, imports, bodies, Fragment.linesOfAll, Fragment.lines]

end Script

/-- Names in a row make no empty text, unless the only one is empty. -/
theorem Text.isEmpty_intercalate_eq_false {separator : String} {names : List String} (some : names ≠ [])
    (spelled : "" ∉ names) : (separator.intercalate names).isEmpty = false := by
  rw [← Bool.not_eq_true, String.isEmpty_iff]
  cases names with
  | nil => exact absurd rfl some
  | cons first rest =>
    intro empty
    have blank : first = "" := by
      cases rest with
      | nil => rwa [String.intercalate_singleton] at empty
      | cons second others =>
        rw [String.intercalate_cons_of_ne_nil (by simp), String.append_assoc] at empty
        exact (String.append_eq_empty_iff.1 empty).1
    exact spelled (blank ▸ List.mem_cons_self)

namespace Adapter

variable {declarationModule : String} {recipe : RecipeSchema}

def statements (recipe : RecipeSchema) : List Script.Statement :=
  let names := AdapterNames.ofName recipe.name
  recipeStatements names recipe ++ recipe.visitor.toList.flatMap (visitorStatements names)

theorem bodies_sourceFile :
    (sourceFile declarationModule recipe).bodies = (statements recipe).map (·.fragments) :=
  rfl

/-- The shared module is always imported, the declarations only where a host type is named. -/
theorem imports_sourceFile :
    (sourceFile declarationModule recipe).imports =
      (if recipe.outermostTypes = [] then [] else [declarationImport declarationModule recipe]) ++
        [sharedImport recipe] := by
  have shared : (sharedImport recipe).isEmpty = false := rfl
  have declared : (declarationImport declarationModule recipe).isEmpty =
      recipe.outermostTypes.isEmpty := by
    simp [Script.Import.isEmpty, declarationImport]
  unfold sourceFile Script.SourceFile.ofParts
  by_cases bare : recipe.outermostTypes = [] <;> simp [bare, shared, declared]

/-- The lines of the imports: of some names from the declarations, if there are any, and of what the
shared module has for a recipe. -/
def importLines (declarationModule : String) (names : List String) (visits : Bool) :
    List PageLine :=
  (if names = [] then [] else
    [written 0 ("import type \x7b " ++ ", ".intercalate names ++ " \x7d from \"" ++
      declarationModule ++ "\";")]) ++
  [written 0 ("import \x7b validateOptions, type RecipeDescriptor, type RecipeHost" ++
    (if visits then ", type VisitCallback, type VisitorTable" else "") ++
      " \x7d from \"./runtime\";")]

/-- The lines behind the imports. -/
def bodyLines (recipe : RecipeSchema) : List PageLine :=
  Fragment.linesOfAll 0 ([Fragment.blank].intercalate ((statements recipe).map (·.fragments)))

theorem text_sharedImport :
    (sharedImport recipe).text =
      "import \x7b validateOptions, type RecipeDescriptor, type RecipeHost" ++
        (if recipe.visitor.isSome then ", type VisitCallback, type VisitorTable" else "") ++
          " \x7d from \"./runtime\";" := by
  unfold sharedImport
  cases recipe.visitor.isSome <;> rfl

section

variable (spelled : "" ∉ recipe.outermostTypes)
include spelled

theorem text_declarationImport (mentioned : recipe.outermostTypes ≠ []) :
    (declarationImport declarationModule recipe).text =
      "import type \x7b " ++ ", ".intercalate recipe.outermostTypes ++ " \x7d from \"" ++
        declarationModule ++ "\";" := by
  have listed : (", ".intercalate recipe.outermostTypes).isEmpty = false :=
    Text.isEmpty_intercalate_eq_false mentioned spelled
  have quote : " \x7d from " ++ "\"" = " \x7d from \"" := rfl
  simp only [Script.Import.text, declarationImport, List.map_map, Function.comp_def, Bool.false_and,
    Bool.false_eq_true, if_false, List.map_id', listed, if_true, ← quote, String.append_assoc]
  rfl

theorem lines_imports :
    (sourceFile declarationModule recipe).imports.map (fun item => written 0 item.text) =
      importLines declarationModule recipe.outermostTypes recipe.visitor.isSome := by
  rw [imports_sourceFile, importLines]
  by_cases bare : recipe.outermostTypes = []
  · simp [bare, text_sharedImport]
  · simp [bare, text_sharedImport, text_declarationImport spelled bare]

/-- An adapter is its imports, a blank line and the exported statements. -/
theorem text_sourceFile :
    (sourceFile declarationModule recipe).text .script =
      scriptText (importLines declarationModule recipe.outermostTypes recipe.visitor.isSome ++
        [.blank] ++ bodyLines recipe) := by
  have imports : (sourceFile declarationModule recipe).imports ≠ [] := by
    simp [imports_sourceFile]
  have bodies : (sourceFile declarationModule recipe).bodies ≠ [] := by
    simp [bodies_sourceFile, statements, recipeStatements]
  rw [Script.SourceFile.text, Page.render_script,
    Script.SourceFile.linesOfAll_fragments imports bodies, lines_imports spelled,
    bodies_sourceFile, bodyLines]

end

/-- The property of an option with some type.  An optional one may be absent or null. -/
def writtenOption (option : OptionSchema) (type : String) : WrittenMember where
  doc := if option.description = "" then none else some option.description
  line := option.name ++
    (if option.required then ": " ++ type else "?: " ++ type ++ " | null") ++ ";"

theorem written_optionMember (option : OptionSchema) :
    (optionMember option).written = writtenOption option option.type.text := by
  unfold optionMember writtenOption Script.DocumentedMember.written
  cases option.required <;> simp [Script.MemberSyntax.text, String.append_assoc]

theorem length_statements (recipe : RecipeSchema) : 3 ≤ (statements recipe).length := by
  simp [statements, recipeStatements]

theorem mem_bodyLines_iff {line : PageLine} :
    line ∈ bodyLines recipe ↔ line = .blank ∨
      ∃ statement ∈ statements recipe, line ∈ Fragment.linesOfAll 0 statement.fragments := by
  have several : 2 ≤ ((statements recipe).map (·.fragments)).length := by
    have least := length_statements recipe
    rw [List.length_map]
    omega
  rw [bodyLines, Fragment.mem_linesOfAll_iff]
  constructor
  · rintro ⟨fragment, inside, known⟩
    rcases Text.mem_intercalate_iff.1 inside with ⟨rfl, -⟩ | ⟨list, listed, member⟩
    · exact .inl (List.mem_singleton.1 known)
    · obtain ⟨statement, exported, rfl⟩ := List.mem_map.1 listed
      exact .inr ⟨statement, exported, Fragment.mem_linesOfAll_iff.2 ⟨fragment, member, known⟩⟩
  · rintro (rfl | ⟨statement, exported, known⟩)
    · exact ⟨.blank, Text.mem_intercalate_iff.2 (.inl ⟨rfl, several⟩), List.mem_singleton.2 rfl⟩
    · obtain ⟨fragment, member, inside⟩ := Fragment.mem_linesOfAll_iff.1 known
      exact ⟨fragment,
        Text.mem_intercalate_iff.2 (.inr ⟨_, List.mem_map_of_mem exported, member⟩), inside⟩

/-- The interface of the options is the first statement. -/
theorem optionLines_prefix (recipe : RecipeSchema) :
    docLines 0 (some ("Options of " ++ recipe.displayName ++ ".")) ++
      objectLines 0 ("export interface " ++ (AdapterNames.ofName recipe.name).options ++ " ") ""
        (recipe.options.map fun option => writtenOption option option.type.text) <+:
      bodyLines recipe := by
  have written : (recipe.options.map optionMember).map (·.written) =
      recipe.options.map fun option => writtenOption option option.type.text := by
    rw [List.map_map]
    exact List.map_congr_left fun option _ => written_optionMember option
  have interface : Fragment.linesOfAll 0 (Script.Statement.interface
      ⟨(AdapterNames.ofName recipe.name).options,
        some ("Options of " ++ recipe.displayName ++ "."), []⟩ []
      (recipe.options.map optionMember)).fragments =
      docLines 0 (some ("Options of " ++ recipe.displayName ++ ".")) ++
        objectLines 0 ("export interface " ++ (AdapterNames.ofName recipe.name).options ++ " ") ""
          (recipe.options.map fun option => writtenOption option option.type.text) := by
    simp [Script.Statement.fragments, Fragment.linesOfAll_append, Script.linesOfAll_docFragments,
      Fragment.linesOfAll, Script.lines_memberBlock, written, Script.Heading.text, Script.angled]
  rw [← interface, bodyLines, statements, recipeStatements, List.cons_append, List.map_cons,
    List.cons_append, List.map_cons, List.intercalate_cons_cons, List.append_assoc,
    Fragment.linesOfAll_append]
  exact List.prefix_append _ _

theorem visit_mem_bodyLines {visitor : VisitorSchema} (visits : recipe.visitor = some visitor) :
    written 0 ("export type " ++ (AdapterNames.ofName recipe.name).visit ++ " = VisitCallback<" ++
      Name.spelled visitor.target ++ ">;") ∈ bodyLines recipe := by
  have exported : Script.Statement.typeAlias ⟨(AdapterNames.ofName recipe.name).visit, none, []⟩
      ("VisitCallback<" ++ Name.spelled visitor.target ++ ">") ∈ statements recipe := by
    simp [statements, visits, visitorStatements]
  have equals : " = " ++ "VisitCallback<" = " = VisitCallback<" := rfl
  apply mem_bodyLines_iff.2
  refine .inr ⟨_, exported, List.mem_singleton.2 ?_⟩
  rw [← equals]
  simp only [Script.Heading.text, Script.angled, List.isEmpty_nil, if_true, String.append_empty,
    String.append_assoc]
  rfl

/-- Nothing is imported behind the imports in front. -/
theorem not_isImport_bodyLines {line : PageLine} (member : line ∈ bodyLines recipe) :
    ¬ line.IsImport := by
  rcases mem_bodyLines_iff.1 member with rfl | ⟨statement, exported, inside⟩
  · exact PageLine.not_isImport_blank
  · apply Script.Statement.not_isImport ?_ inside
    rintro code rfl
    simp [statements, recipeStatements, visitorStatements] at exported

end Adapter

end TypeBridge
