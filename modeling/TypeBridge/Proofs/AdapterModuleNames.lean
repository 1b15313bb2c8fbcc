import TypeBridge.Proofs.EmissionTopology
import TypeBridge.Proofs.WordCases

/-!
# The names that an adapter introduces

The exported names of an adapter are made from the words of a recipe's name.  They never meet each
other or what is imported from the shared module, but nothing keeps the imported types of the host
away from both; and since underscores are dropped, a name that goes on with a digit behind its first
underscores gives names that begin with the digit.
-/

namespace TypeBridge

namespace Script

/-- Characters of identifiers, as far as ASCII goes. -/
def isIdentifierPart (c : Char) : Bool :=
  c.isAlphanum || c == '_' || c == '$'

/-- Names that a statement can declare: they consist of characters of identifiers, do not begin with
a digit, and are not reserved. -/
def isIdentifier (name : String) : Bool :=
  name.toList.all isIdentifierPart && name.toList.head?.any (!·.isDigit) && !isReserved name

/-- The name that a statement exports. -/
def Statement.name? : Statement → Option String
  | .interface heading _ _ | .typeAlias heading _ | .intersection heading _ _ => some heading.name
  | .const name .. | .function name .. => some name
  | .raw _ => none

section

variable {name front back : String}

/-- Reserved words begin with a small letter and have no capitals. -/
theorem reservedWords_small :
    ∀ word ∈ reservedWords, word.toList.head?.any (·.isLower) = true ∧
      word.toList.any (·.isUpper) = false := by
  decide +kernel

theorem isReserved_eq_false_of_any_isUpper (capital : name.toList.any (·.isUpper) = true) :
    isReserved name = false := by
  by_contra reserved
  rw [Bool.not_eq_false, isReserved, List.contains_iff_mem] at reserved
  rw [(reservedWords_small name reserved).2] at capital
  cases capital

theorem isReserved_eq_false_of_head? (large : ∀ c ∈ name.toList.head?, c.isLower = false) :
    isReserved name = false := by
  by_contra reserved
  rw [Bool.not_eq_false, isReserved, List.contains_iff_mem] at reserved
  obtain ⟨c, first, small⟩ := (Option.any_eq_true _ _).1 (reservedWords_small name reserved).1
  rw [large c first] at small
  cases small

/-- A name with a capital behind its front is an identifier unless the front begins with a digit. -/
theorem isIdentifier_append_iff (parts : ∀ c ∈ front.toList, isIdentifierPart c = true)
    (fixed : back.toList.all isIdentifierPart = true)
    (capital : back.toList.any (·.isUpper) = true)
    (letter : back.toList.head?.any (!·.isDigit) = true) :
    isIdentifier (front ++ back) = true ↔ ∀ c ∈ front.toList.head?, c.isDigit = false := by
  have free : isReserved (front ++ back) = false := by
    refine isReserved_eq_false_of_any_isUpper ?_
    rw [String.toList_append, List.any_append, capital, Bool.or_true]
  have all : (front ++ back).toList.all isIdentifierPart = true := by
    rw [String.toList_append, List.all_append, fixed, List.all_eq_true.2 parts]
    rfl
  rw [isIdentifier, all, free, String.toList_append, Bool.true_and, Bool.not_false, Bool.and_true]
  cases front.toList with
  | nil => simpa using letter
  | cons c rest => simp

end

end Script

namespace Text

theorem typeName_eq {text : String} (ascii : IsAscii text) :
    Script.typeName text = pascalCase text := by
  rw [Script.typeName, Script.safeName,
    Script.isReserved_eq_false_of_head? (isLower_head?_pascalCase ascii), if_neg Bool.false_ne_true]

/-- The first characters of two texts that differ in case are both digits or both are not. -/
theorem isDigit_head?_iff {chars others : List Char}
    (same : chars.map Char.toLower = others.map Char.toLower) :
    (∀ c ∈ chars.head?, c.isDigit = false) ↔ ∀ c ∈ others.head?, c.isDigit = false := by
  cases chars with
  | nil =>
    rw [List.map_eq_nil_iff.1 same.symm]
  | cons c rest =>
    obtain ⟨d, more, rfl, first, -⟩ := List.map_eq_cons_iff.1 same.symm
    have digits : c.isDigit = d.isDigit := by
      rw [← isDigit_toLower c, ← isDigit_toLower d, first]
    simp [digits]

theorem isIdentifierPart_of_map_toLower {chars others : List Char}
    (same : chars.map Char.toLower = others.map Char.toLower)
    (parts : ∀ c ∈ others, c.isAlphanum = true ∨ c = '_') :
    ∀ c ∈ chars, Script.isIdentifierPart c = true := by
  intro c member
  have lowered : c.toLower ∈ others.map Char.toLower := same ▸ List.mem_map_of_mem member
  obtain ⟨d, known, equal⟩ := List.mem_map.1 lowered
  rcases parts d known with alnum | rfl
  · have alnum' : c.isAlphanum = true := by
      rw [← isAlphanum_toLower, ← equal, isAlphanum_toLower, alnum]
    simp [Script.isIdentifierPart, alnum']
  · -- nothing but the underscore has the underscore for its small form
    have notUpper : ¬ c.isUpper = true := by
      intro capital
      have letter : c.toLower.isAlpha = true := by
        rw [Char.isAlpha_toLower_eq_isAlpha, Char.isAlpha, capital, Bool.true_or]
      rw [← equal] at letter
      exact absurd letter (by decide)
    rw [Char.toLower_eq_of_not_isUpper notUpper] at equal
    rw [← equal]
    rfl

end Text

def Adapter.sharedNames : List String :=
  ["validateOptions", "RecipeDescriptor", "RecipeHost", "VisitCallback", "VisitorTable"]

namespace AdapterNames

/-- Names made from the characters of words: up to their case they are these characters, but the
name of a value may have an underscore behind it. -/
structure AreCased (names : AdapterNames) (chars : List Char) : Prop where
  alphanumeric : ∀ c ∈ chars, c.isAlphanum = true
  type : names.type.toList.map Char.toLower = chars.map Char.toLower
  large : ∀ c ∈ names.type.toList.head?, c.isLower = false
  value : ∃ mark, (mark = [] ∨ mark = ['_']) ∧
    names.value.toList.map Char.toLower = (chars ++ mark).map Char.toLower
  small : ∀ c ∈ names.value.toList.head?, c.isUpper = false

def wordsOf (recipe : String) : List Char :=
  Text.wordChars (String.join (Name.path recipe))

theorem areCased_ofName {recipe : String} (faultless : Name.fault? recipe = none)
    (ascii : Text.IsAscii recipe) : (ofName recipe).AreCased (wordsOf recipe) := by
  have base : Text.IsAscii (String.join (Name.path recipe)) :=
    fun c member => ascii c (Name.mem_of_mem_join_path member)
  constructor
  · intro c member
    obtain ⟨inBase, apart⟩ := List.mem_filter.1 member
    have inName := Name.mem_of_mem_join_path inBase
    have inside : (c == '.' || c == '$') = false := by
      simp only [Text.isSeparator, Bool.not_eq_true', Bool.or_eq_false_iff] at apart
      simp [apart]
    have part := Name.isPart_of_fault? faultless inName inside
    have noMark : (c == '_') = false := by
      simp only [Text.isSeparator, Bool.not_eq_true', Bool.or_eq_false_iff] at apart
      exact apart.1.1.1.1
    rw [Name.isPart, noMark, Bool.or_false, Text.Letter.isAlphanumeric,
      if_pos (ascii c inName)] at part
    exact part
  · rw [ofName, Text.typeName_eq base]
    exact Text.map_toLower_pascalCase base
  · rw [ofName, Text.typeName_eq base]
    exact Text.isLower_head?_pascalCase base
  · have cased := Text.map_toLower_camelCase base
    rw [ofName, Script.valueName, Script.safeName]
    dsimp only
    split
    · refine ⟨['_'], .inr rfl, ?_⟩
      rw [String.toList_append, List.map_append, cased, List.map_append]
      rfl
    · exact ⟨[], .inl rfl, by rw [cased, List.append_nil]; rfl⟩
  · have small := Text.isUpper_head?_camelCase base
    rw [ofName, Script.valueName, Script.safeName]
    dsimp only
    split
    · intro c first
      rw [String.toList_append, List.head?_append, Option.mem_def, Option.or_eq_some_iff] at first
      rcases first with first | ⟨-, first⟩
      · exact small c first
      · obtain rfl : '_' = c := Option.some.inj first
        rfl
    · exact small

variable {names : AdapterNames} {chars : List Char}

def exported (names : AdapterNames) : List String :=
  [names.options, names.descriptor, names.construct, names.visit, names.register]

section

variable (cased : names.AreCased chars)
include cased

theorem AreCased.type_parts : ∀ c ∈ names.type.toList, Script.isIdentifierPart c = true :=
  Text.isIdentifierPart_of_map_toLower cased.type fun c member =>
    .inl (cased.alphanumeric c member)

theorem AreCased.value_parts : ∀ c ∈ names.value.toList, Script.isIdentifierPart c = true := by
  obtain ⟨mark, marks, value⟩ := cased.value
  refine Text.isIdentifierPart_of_map_toLower value fun c member => ?_
  rcases List.mem_append.1 member with known | last
  · exact .inl (cased.alphanumeric c known)
  · rcases marks with rfl | rfl
    · cases last
    · exact .inr (List.mem_singleton.1 last)

theorem AreCased.value_letter (letter : ∀ c ∈ chars.head?, c.isDigit = false) :
    ∀ c ∈ names.value.toList.head?, c.isDigit = false := by
  obtain ⟨mark, marks, value⟩ := cased.value
  refine (Text.isDigit_head?_iff value).2 fun c first => ?_
  rw [List.head?_append, Option.mem_def, Option.or_eq_some_iff] at first
  rcases first with first | ⟨-, first⟩
  · exact letter c first
  · rcases marks with rfl | rfl
    · cases first
    · obtain rfl : '_' = c := Option.some.inj first
      rfl

theorem AreCased.isIdentifier_options_iff :
    Script.isIdentifier names.options = true ↔ ∀ c ∈ chars.head?, c.isDigit = false := by
  rw [← Text.isDigit_head?_iff cased.type]
  exact Script.isIdentifier_append_iff cased.type_parts (by decide) (by decide) (by decide)

theorem AreCased.isIdentifier_construct : Script.isIdentifier names.construct = true := by
  have unlike : ∀ word ∈ Script.reservedWords, ¬ "create".toList <+: word.toList := by
    decide +kernel
  have free : Script.isReserved names.construct = false := by
    by_contra reserved
    rw [Bool.not_eq_false, Script.isReserved, List.contains_iff_mem] at reserved
    exact unlike _ reserved ⟨_, String.toList_append.symm⟩
  have fixed : "create".toList.all Script.isIdentifierPart = true := by decide
  have all : names.construct.toList.all Script.isIdentifierPart = true := by
    rw [construct, String.toList_append, List.all_append, fixed,
      List.all_eq_true.2 cased.type_parts]
    rfl
  rw [Script.isIdentifier, free, all, construct, String.toList_append]
  rfl

theorem AreCased.isIdentifier_register : Script.isIdentifier names.register = true := by
  refine (Script.isIdentifier_append_iff ?_ (by decide) (by decide) (by decide)).2 ?_
  · have fixed : "register".toList.all Script.isIdentifierPart = true := by decide
    intro c member
    rw [String.toList_append] at member
    rcases List.mem_append.1 member with front | back
    · exact List.all_eq_true.1 fixed c front
    · exact cased.type_parts c back
  · intro c first
    rw [String.toList_append] at first
    obtain rfl : 'r' = c := Option.some.inj first
    rfl

theorem AreCased.isIdentifier_exported (letter : ∀ c ∈ chars.head?, c.isDigit = false) :
    ∀ name ∈ names.exported, Script.isIdentifier name = true := by
  have typeLetter := (Text.isDigit_head?_iff cased.type).2 letter
  simp only [exported, List.mem_cons, List.not_mem_nil, or_false]
  rintro name (rfl | rfl | rfl | rfl | rfl)
  · exact cased.isIdentifier_options_iff.2 letter
  · exact (Script.isIdentifier_append_iff cased.value_parts (by decide) (by decide)
      (by decide)).2 (cased.value_letter letter)
  · exact cased.isIdentifier_construct
  · exact (Script.isIdentifier_append_iff cased.type_parts (by decide) (by decide)
      (by decide)).2 typeLetter
  · exact cased.isIdentifier_register

theorem AreCased.nodup_exported : names.exported.Nodup := by
  have type : names.type.toList.length = chars.length := by
    simpa using congrArg List.length cased.type
  have value : names.value.toList.length = chars.length ∨
      names.value.toList.length = chars.length + 1 := by
    obtain ⟨mark, marks, value⟩ := cased.value
    have length := congrArg List.length value
    rcases marks with rfl | rfl
    · exact .inl (by simpa using length)
    · exact .inr (by simpa using length)
  have lengths : names.exported.map (·.toList.length) =
      [names.type.toList.length + 7, names.value.toList.length + 10,
        6 + names.type.toList.length, names.type.toList.length + 5,
        8 + names.type.toList.length + 7] := by
    simp only [exported, List.map_cons, List.map_nil, options, descriptor, construct, visit,
      register, String.toList_append, List.length_append]
    rfl
  refine List.Nodup.of_map (·.toList.length) ?_
  rw [lengths, type]
  simp only [List.nodup_cons, List.mem_cons, List.not_mem_nil, List.nodup_nil, or_false, not_or,
    not_false_eq_true, and_true]
  omega

/-- No name of the shared module is exported: what ends alike begins with a letter of the other
case. -/
theorem AreCased.exported_notMem_shared {name : String} (member : name ∈ names.exported) :
    name ∉ Adapter.sharedNames := by
  have unlike : ∀ shared ∈ Adapter.sharedNames,
      ("Options".toList <:+ shared.toList → shared = "validateOptions") ∧
      ("Descriptor".toList <:+ shared.toList → shared = "RecipeDescriptor") ∧
      ¬ "create".toList <+: shared.toList ∧ ¬ "Visit".toList <:+ shared.toList ∧
      ¬ "Visitor".toList <:+ shared.toList := by
    decide +kernel
  intro shared
  obtain ⟨likeOptions, likeDescriptor, notConstruct, notVisit, notRegister⟩ := unlike name shared
  have ends (front back : String) : back.toList <:+ (front ++ back).toList :=
    ⟨_, String.toList_append.symm⟩
  simp only [exported, List.mem_cons, List.not_mem_nil, or_false] at member
  rcases member with rfl | rfl | rfl | rfl | rfl
  · have same : names.type.toList = "validate".toList := by
      have whole := congrArg String.toList (likeOptions (ends _ _))
      rw [options, String.toList_append] at whole
      exact List.append_cancel_right whole
    have large := cased.large 'v' (by rw [same]; rfl)
    cases large
  · have same : names.value.toList = "Recipe".toList := by
      have whole := congrArg String.toList (likeDescriptor (ends _ _))
      rw [descriptor, String.toList_append] at whole
      exact List.append_cancel_right whole
    have small := cased.small 'R' (by rw [same]; rfl)
    cases small
  · exact notConstruct ⟨_, String.toList_append.symm⟩
  · exact notVisit (ends _ _)
  · exact notRegister (ends _ _)

end

end AdapterNames

namespace Adapter

variable {declarationModule : String} {recipe : RecipeSchema}

def exportedNames (recipe : RecipeSchema) : List String :=
  (statements recipe).filterMap (·.name?)

/-- The names that an adapter introduces: those that it imports, then those that it exports. -/
def introducedNames (declarationModule : String) (recipe : RecipeSchema) : List String :=
  (sourceFile declarationModule recipe).imports.flatMap (fun item => item.names.map (·.name)) ++
    exportedNames recipe

theorem exportedNames_sublist :
    (exportedNames recipe).Sublist (AdapterNames.ofName recipe.name).exported := by
  unfold exportedNames statements
  cases recipe.visitor with
  | none => exact List.sublist_append_left _ _
  | some visitor => exact List.Sublist.refl _

theorem options_mem_exportedNames :
    (AdapterNames.ofName recipe.name).options ∈ exportedNames recipe :=
  List.mem_cons_self

theorem shared_sublist :
    ((sharedImport recipe).names.map (·.name)).Sublist sharedNames := by
  unfold sharedImport
  cases recipe.visitor with
  | none => exact List.sublist_append_left _ _
  | some visitor => exact List.Sublist.refl _

theorem introducedNames_eq :
    introducedNames declarationModule recipe =
      recipe.outermostTypes ++ ((sharedImport recipe).names.map (·.name) ++
        exportedNames recipe) := by
  have declared : (declarationImport declarationModule recipe).names.map (·.name) =
      recipe.outermostTypes := by
    rw [declarationImport, List.map_map]
    exact List.map_id _
  rw [introducedNames, imports_sourceFile, List.flatMap_append, List.flatMap_singleton]
  by_cases bare : recipe.outermostTypes = []
  · simp [bare]
  · simp [bare, declared]

end Adapter

theorem Extraction.exists_of_mem_recipes {context : RecipeContext} {rules : List RecipeRule}
    {names : List String} {recipe : RecipeSchema}
    (extracted : recipe ∈ (ofNames context rules names).recipes) :
    ∃ type ∈ context.model.types, recipe.name = type.name := by
  obtain ⟨type, candidate, yields⟩ := mem_recipes_ofNames_iff.1 extracted
  obtain ⟨name, -, found⟩ := List.mem_filterMap.1 candidate
  obtain ⟨-, converted⟩ := mem_recipes_ofDraft_iff.1 yields
  exact ⟨type, (HostModel.get?_eq_some_iff.1 found).1, RecipeDraft.name_of_schema converted⟩

/-- A host type and a recipe with one option of that type. -/
def hosting (recipe host : String) (distinct : [host, recipe].Nodup) : RecipeContext where
  model :=
    { types := [{ Snapshot.plainType with name := host },
        { recipeWith "R" (.named host []) ["part"] with name := recipe }]
      distinct }
  graph := ⟨[TypeGraph.bareNode host [] []], by simp⟩

def hostingRecipe (recipe host : String) : RecipeSchema :=
  ⟨recipe, "R", "Does R", [⟨"part", .host host, "part", "", some "x", true⟩], none⟩

theorem hosting_extracted (recipe host : String) (distinct : [host, recipe].Nodup)
    (foreign : Builtin.ofName? host = none) :
    hostingRecipe recipe host ∈
      (Extraction.ofNames (hosting recipe host distinct) RecipeRule.all [recipe]).recipes := by
  have apart : host ≠ recipe := by simpa using distinct
  have hosted : (hosting recipe host distinct).hostOption host = .ok (.host host) := by
    have notEnum : ((hosting recipe host distinct).model.get? host).filter (·.kind == .enum) =
        none := by
      simp [hosting, HostModel.get?, Snapshot.plainType]
    have known : (hosting recipe host distinct).graph.contains host = true :=
      TypeGraph.contains_iff.2 (by simp [hosting, TypeGraph.names, TypeGraph.bareNode])
    rw [RecipeContext.hostOption, notEnum]
    exact if_pos known
  have typed := (RecipeContext.optionType_of_foreign foreign []).trans hosted
  have draft : RecipeDraft.ofType { recipeWith "R" (.named host []) ["part"] with name := recipe } =
      ⟨recipe, some "R", some "Does R",
        [⟨"part", .named host [], false, none, none, some "x", none⟩], [], none⟩ := rfl
  have speaks : Text.isBlankText "x" = false := by decide
  have option : OptionDraft.schema (hosting recipe host distinct)
      ⟨"part", .named host [], false, none, none, some "x", none⟩ =
        .ok ⟨"part", .host host, "part", "", some "x", true⟩ := by
    rw [OptionDraft.schema, typed]
    simp [OptionDraft.isRequired, OptionDraft.isWrapped, Signature.head?, foreign, speaks]
  refine Extraction.mem_recipes_ofNames_iff.2
    ⟨{ recipeWith "R" (.named host []) ["part"] with name := recipe }, ?_,
      Extraction.mem_recipes_ofDraft_all_iff.2 ⟨?_, ?_⟩⟩
  · refine List.mem_filterMap.2 ⟨recipe, List.mem_singleton.2 rfl, ?_⟩
    exact HostModel.get?_eq_some_iff.2 ⟨by simp [hosting], rfl⟩
  · intro rule grave
    rw [draft]
    cases rule with
    | requiredExample => simp [BuiltinRule.complaints, OptionDraft.hasExample, speaks]
    | optionType => simp [BuiltinRule.complaints, typed]
    | emptyDescription => cases grave
    | _ => rfl
  · simp [draft, RecipeDraft.schema, option, hostingRecipe]

/-- The adapter of a recipe from a model whose names are ASCII and have no fault.  Its exported names
are identifiers exactly when the words of the recipe's name do not begin with a digit.  It introduces
no name twice exactly when no imported type of the host has the name of something imported from the
shared module or of something exported. -/
theorem adapter_names_iff {context : RecipeContext} {rules : List RecipeRule}
    {names : List String} {recipe : RecipeSchema}
    (named : ∀ type ∈ context.model.types,
      Name.fault? type.name = none ∧ Text.IsAscii type.name)
    (extracted : recipe ∈ (Extraction.ofNames context rules names).recipes)
    (declarationModule : String) :
    (Adapter.sourceFile declarationModule recipe).bodies =
      (Adapter.statements recipe).map (·.fragments) ∧
    ((∀ name ∈ Adapter.exportedNames recipe, Script.isIdentifier name = true) ↔
      ∀ c ∈ (AdapterNames.wordsOf recipe.name).head?, c.isDigit = false) ∧
    ((Adapter.introducedNames declarationModule recipe).Nodup ↔
      ∀ name ∈ recipe.outermostTypes,
        name ∉ (Adapter.sharedImport recipe).names.map (·.name) ∧
        name ∉ Adapter.exportedNames recipe) := by
  obtain ⟨type, known, sameName⟩ := Extraction.exists_of_mem_recipes extracted
  obtain ⟨faultless, ascii⟩ := named type known
  rw [← sameName] at faultless ascii
  have cased := AdapterNames.areCased_ofName faultless ascii
  refine ⟨Adapter.bodies_sourceFile, ⟨fun valid => ?_, fun letter name exported => ?_⟩, ?_⟩
  · exact cased.isIdentifier_options_iff.1 (valid _ Adapter.options_mem_exportedNames)
  · exact cased.isIdentifier_exported letter name (Adapter.exportedNames_sublist.subset exported)
  · have outermost : recipe.outermostTypes.Nodup := HostView.nodup_eraseDups _
    have own : ((Adapter.sharedImport recipe).names.map (·.name) ++
        Adapter.exportedNames recipe).Nodup := by
      refine List.nodup_append.2 ⟨Adapter.shared_sublist.nodup (by decide),
        Adapter.exportedNames_sublist.nodup cased.nodup_exported, ?_⟩
      rintro name shared _ exported rfl
      exact cased.exported_notMem_shared (Adapter.exportedNames_sublist.subset exported)
        (Adapter.shared_sublist.subset shared)
    rw [Adapter.introducedNames_eq, List.nodup_append]
    simp only [outermost, own, true_and, List.mem_append]
    constructor
    · exact fun apart name imported =>
        ⟨fun shared => apart name imported name (.inl shared) rfl,
          fun exported => apart name imported name (.inr exported) rfl⟩
    · rintro apart name imported _ (shared | exported) rfl
      · exact (apart name imported).1 shared
      · exact (apart name imported).2 exported

theorem hosting_named {recipe host : String} {distinct : [host, recipe].Nodup}
    (ofHost : Name.fault? host = none ∧ Text.IsAscii host)
    (ofRecipe : Name.fault? recipe = none ∧ Text.IsAscii recipe) :
    ∀ type ∈ (hosting recipe host distinct).model.types,
      Name.fault? type.name = none ∧ Text.IsAscii type.name := by
  simp only [hosting, List.mem_cons, List.not_mem_nil, or_false]
  rintro type (rfl | rfl)
  · exact ofHost
  · exact ofRecipe

/-- A recipe with an option of a type that has a name of its own. -/
theorem hosting_prune_names :
    hostingRecipe "Prune" "Tree" ∈
      (Extraction.ofNames (hosting "Prune" "Tree" (by decide)) RecipeRule.all ["Prune"]).recipes ∧
      (∀ type ∈ (hosting "Prune" "Tree" (by decide)).model.types,
        Name.fault? type.name = none ∧ Text.IsAscii type.name) ∧
      (∀ name ∈ Adapter.exportedNames (hostingRecipe "Prune" "Tree"),
        Script.isIdentifier name = true) ∧
      (Adapter.introducedNames "../types" (hostingRecipe "Prune" "Tree")).Nodup := by
  have extracted := hosting_extracted "Prune" "Tree" (by decide) rfl
  have named : ∀ type ∈ (hosting "Prune" "Tree" (by decide)).model.types,
      Name.fault? type.name = none ∧ Text.IsAscii type.name :=
    hosting_named ⟨by decide, by decide⟩ ⟨by decide, by decide⟩
  have words : AdapterNames.wordsOf "Prune" = ['P', 'r', 'u', 'n', 'e'] := by cbv
  have outermost : (hostingRecipe "Prune" "Tree").outermostTypes = ["Tree"] := by cbv
  have exported : Adapter.exportedNames (hostingRecipe "Prune" "Tree") =
      ["PruneOptions", "pruneDescriptor", "createPrune"] := by
    cbv
  obtain ⟨-, valid, once⟩ := adapter_names_iff named extracted "../types"
  refine ⟨extracted, named, valid.2 ?_, once.2 ?_⟩
  · rw [hostingRecipe, words]
    rintro c ⟨⟩
    rfl
  · rw [outermost, exported]
    decide +kernel

/-- A recipe whose name goes on with a digit behind an underscore, with an option of a type that has
the name of something imported from the shared module. -/
theorem hosting_digit_names :
    hostingRecipe "_1A" "RecipeHost" ∈
      (Extraction.ofNames (hosting "_1A" "RecipeHost" (by decide)) RecipeRule.all ["_1A"]).recipes ∧
      (∀ type ∈ (hosting "_1A" "RecipeHost" (by decide)).model.types,
        Name.fault? type.name = none ∧ Text.IsAscii type.name) ∧
      (∃ name ∈ Adapter.exportedNames (hostingRecipe "_1A" "RecipeHost"),
        Script.isIdentifier name = false) ∧
      ¬ (Adapter.introducedNames "../types" (hostingRecipe "_1A" "RecipeHost")).Nodup := by
  have exported : Adapter.exportedNames (hostingRecipe "_1A" "RecipeHost") =
      ["1AOptions", "1ADescriptor", "create1A"] := by
    cbv
  have introduced : Adapter.introducedNames "../types" (hostingRecipe "_1A" "RecipeHost") =
      ["RecipeHost", "validateOptions", "RecipeDescriptor", "RecipeHost", "1AOptions",
        "1ADescriptor", "create1A"] := by
    cbv
  refine ⟨hosting_extracted "_1A" "RecipeHost" (by decide) rfl,
    hosting_named ⟨by decide, by decide⟩ ⟨by decide, by decide⟩, ?_, ?_⟩
  · rw [exported]
    exact ⟨"1AOptions", List.mem_cons_self, by decide⟩
  · rw [introduced]
    decide

end TypeBridge
