import Mathlib
import TypeBridge.Proofs.OptionNames
import TypeBridge.Proofs.PassStages
import TypeBridge.Proofs.WalkReachability

/-!
# Recipe schemas are complete

A recipe that keeps the rules has everything that a script needs: texts that say something, options
with distinct names, an example for every required option, option types that a script can supply,
and a visitor with the subtypes of its target.  The rules are checked on the draft of a recipe; the
conversion of the draft is shown to keep what they promise.
-/

namespace TypeBridge

open Outcome

/-- The elements of a list are not lists. -/
def OptionType.IsFlat : OptionType → Prop
  | .list (.list _) => False
  | .list _ | .string | .number | .boolean | .enum _ | .host _ => True

structure OptionSchema.IsComplete (graph : TypeGraph) (option : OptionSchema) : Prop where
  flat : option.type.IsFlat
  hosted : ∀ host ∈ option.type.hosts, host ∈ graph.names
  exampled : option.required = true →
    ∃ text, option.example? = some text ∧ Text.isBlankText text = false

structure VisitorSchema.IsComplete (graph : TypeGraph) (visitor : VisitorSchema) : Prop where
  known : visitor.target ∈ graph.names
  mem_subtypes_iff : ∀ name, name ∈ visitor.subtypes ↔
    name ∈ graph.names ∧ name ≠ visitor.target ∧ graph.Inherits name visitor.target
  once : visitor.subtypes.Nodup
  /-- Discovery order. -/
  ordered : visitor.subtypes.Sublist graph.names

/-- Everything that a script relies on in a recipe. -/
structure RecipeSchema.IsComplete (graph : TypeGraph) (recipe : RecipeSchema) : Prop where
  titled : Text.isBlankText recipe.displayName = false
  described : Text.isBlankText recipe.description = false
  distinct : (recipe.options.map (·.name)).Nodup
  options : ∀ option ∈ recipe.options, option.IsComplete graph
  visitor : ∀ visitor, recipe.visitor = some visitor → visitor.IsComplete graph

namespace RecipeContext

variable {context : RecipeContext}

def IsSupplied (context : RecipeContext) (outcome : Except OptionFault OptionType) : Prop :=
  ∀ type, outcome = .ok type →
    type.IsFlat ∧ ∀ host ∈ type.hosts, host ∈ context.graph.names

theorem IsSupplied.listOf {element : Signature} {inner : Except OptionFault OptionType}
    (supplied : context.IsSupplied inner) : context.IsSupplied (listOf element inner) := by
  intro type found
  match inner, found with
  | .ok .string, rfl | .ok .number, rfl | .ok .boolean, rfl | .ok (.enum _), rfl =>
    exact ⟨trivial, by simp [OptionType.hosts]⟩
  | .ok (.host name), rfl => exact ⟨trivial, (supplied _ rfl).2⟩

theorem isSupplied_hostOption (name : String) : context.IsSupplied (context.hostOption name) := by
  intro type found
  unfold hostOption at found
  split at found
  · cases found
    exact ⟨trivial, by simp [OptionType.hosts]⟩
  · split at found
    · next inGraph =>
      cases found
      refine ⟨trivial, fun host member => ?_⟩
      obtain rfl := List.mem_singleton.1 member
      exact TypeGraph.contains_iff.1 inGraph
    · cases found

/-- A name with its single argument gives an option type that scripts can supply if the argument
does. -/
theorem isSupplied_namedOption {signature : Signature} {name : String}
    {only : Option (Signature × Except OptionFault OptionType)}
    (supplied : ∀ element inner, only = some (element, inner) → context.IsSupplied inner) :
    context.IsSupplied (context.namedOption signature name only) := by
  unfold namedOption
  split
  · exact isSupplied_hostOption name
  iterate 3
    rintro _ ⟨⟩
    exact ⟨trivial, by simp [OptionType.hosts]⟩
  · exact supplied _ _ rfl
  · exact (supplied _ _ rfl).listOf
  · exact (supplied _ _ rfl).listOf
  · rintro _ ⟨⟩

theorem isSupplied_optionType (signature : Signature) :
    context.IsSupplied (context.optionType signature) := by
  induction signature using optionType.induct with
  | case1 element ih => exact ih.listOf
  | case2 name arg ih =>
    refine isSupplied_namedOption ?_
    rintro element inner ⟨⟩
    exact ih
  | case3 name args several =>
    match args, several with
    | [], _ | _ :: _ :: _, _ => exact isSupplied_namedOption (by simp)
    | [arg], several => exact absurd rfl (several arg)
  | case4 signature notArray notSingle notNamed =>
    cases signature with
    | array element => exact absurd rfl (notArray element)
    | named name args => exact absurd rfl (notNamed name args)
    | _ => rintro _ ⟨⟩

theorem namedOption_of_foreign {signature : Signature}
    {name : String} (foreign : Builtin.ofName? name = none)
    (only : Option (Signature × Except OptionFault OptionType)) :
    context.namedOption signature name only = context.hostOption name := by
  unfold namedOption
  rw [foreign]

/-- The option type of a host type does not depend on its arguments. -/
theorem optionType_of_foreign {name : String}
    (foreign : Builtin.ofName? name = none) (args : List Signature) :
    context.optionType (.named name args) = context.hostOption name := by
  match args with
  | [] => exact namedOption_of_foreign foreign none
  | [arg] => exact namedOption_of_foreign foreign (some (arg, context.optionType arg))
  | _ :: _ :: _ => exact namedOption_of_foreign foreign none

end RecipeContext

/-- What a draft has when it keeps the rules. -/
structure RecipeDraft.KeepsRules (context : RecipeContext) (draft : RecipeDraft) : Prop where
  titled : BuiltinRule.saysNothing draft.displayName = false
  described : BuiltinRule.saysNothing draft.description = false
  exampled : ∀ option ∈ draft.options, option.isRequired = true → option.hasExample = true
  targeted : ∀ target?, draft.visitor = some target? →
    ∃ target ∈ context.graph.names, target? = some target

variable {context : RecipeContext} {draft : RecipeDraft} {recipe : RecipeSchema}

theorem RecipeDraft.keepsRules
    (kept : ∀ rule : BuiltinRule, rule.severity = .error → rule.complaints context draft = []) :
    draft.KeepsRules context where
  titled := by
    have silent := kept .metadata rfl
    simp only [BuiltinRule.complaints, List.append_eq_nil_iff] at silent
    simpa using silent.1
  described := by
    have silent := kept .metadata rfl
    simp only [BuiltinRule.complaints, List.append_eq_nil_iff] at silent
    simpa using silent.2
  exampled := by
    have silent := kept .requiredExample rfl
    simpa [BuiltinRule.complaints] using silent
  targeted := by
    intro target? declared
    have silent := kept .visitorTarget rfl
    cases target? with
    | none => simp [BuiltinRule.complaints, declared] at silent
    | some target =>
      simp only [BuiltinRule.complaints, declared, ite_eq_left_iff] at silent
      exact ⟨target, TypeGraph.contains_iff.1 (by simpa using silent), rfl⟩

/-- Builtin rules add their findings one behind the other. -/
theorem RecipeRule.findings_map_rule (builtins : List BuiltinRule) :
    findings (builtins.map (·.rule)) context draft =
      builtins.flatMap (·.findings context draft) := by
  have behind : ∀ found : List Diagnostic,
      (builtins.map (·.rule)).foldl (fun found rule => rule.check context draft found) found =
        found ++ builtins.flatMap (·.findings context draft) := by
    induction builtins with
    | nil => simp
    | cons builtin rest ih =>
      intro found
      rw [List.map_cons, List.foldl_cons, ih, List.flatMap_cons, BuiltinRule.rule,
        List.append_assoc]
  exact behind []

/-- The rules of a pass find no error when those among them that find errors have no complaint. -/
theorem RecipeRule.findings_all_harmless_iff :
    (∀ found ∈ findings all context draft, found.severity ≠ .error) ↔
      ∀ rule : BuiltinRule, rule.severity = .error → rule.complaints context draft = [] := by
  rw [all, findings_map_rule]
  simp only [List.mem_flatMap, BuiltinRule.findings, List.mem_map]
  constructor
  · intro harmless rule grave
    apply List.eq_nil_iff_forall_not_mem.2
    intro message complaint
    have listed : rule ∈ BuiltinRule.all := by cases rule <;> decide
    exact harmless _ ⟨rule, listed, message, complaint, rfl⟩ grave
  · rintro silent _ ⟨rule, -, message, complaint, rfl⟩ grave
    rw [silent rule grave] at complaint
    cases complaint

/-- A recipe has a schema when no rule finds an error and all its options can be converted. -/
theorem Extraction.mem_recipes_ofDraft_iff {rules : List RecipeRule} :
    recipe ∈ (ofDraft context rules draft).recipes ↔
      (∀ found ∈ RecipeRule.findings rules context draft, found.severity ≠ .error) ∧
        draft.schema context = .ok recipe := by
  have clean : (RecipeRule.findings rules context draft).any (·.severity == .error) = false ↔
      ∀ found ∈ RecipeRule.findings rules context draft, found.severity ≠ .error := by
    simp only [List.any_eq_false, beq_iff_eq, ne_eq]
  rw [← clean]
  unfold ofDraft
  dsimp only
  split
  · next grave => simp [grave]
  · next fine =>
    rw [Bool.not_eq_true] at fine
    cases draft.schema context <;> simp [fine, eq_comm]

theorem Extraction.mem_recipes_ofDraft_all_iff :
    recipe ∈ (ofDraft context RecipeRule.all draft).recipes ↔
      (∀ rule : BuiltinRule, rule.severity = .error → rule.complaints context draft = []) ∧
        draft.schema context = .ok recipe := by
  rw [mem_recipes_ofDraft_iff, RecipeRule.findings_all_harmless_iff]

theorem Extraction.mem_recipes_ofNames_iff {rules : List RecipeRule} {names : List String} :
    recipe ∈ (ofNames context rules names).recipes ↔
      ∃ type, type ∈ names.filterMap context.model.get? ∧
        recipe ∈ (ofDraft context rules (RecipeDraft.ofType type)).recipes := by
  unfold ofNames
  induction names.filterMap context.model.get? with
  | nil => simp [empty]
  | cons type rest ih =>
    rw [List.foldr_cons, append, List.mem_append, ih, List.exists_mem_cons_iff]

theorem OptionDraft.schema_eq_ok {option : OptionDraft} {schema : OptionSchema}
    (converted : option.schema context = .ok schema) :
    schema.name = option.name ∧ schema.required = option.isRequired ∧
      schema.example? = option.example?.filter (fun text => !Text.isBlankText text) ∧
        context.optionType option.type = .ok schema.type := by
  unfold OptionDraft.schema at converted
  split at converted
  · cases converted
  · next type found =>
    cases converted
    exact ⟨rfl, rfl, rfl, found⟩

theorem OptionDraft.isComplete_schema {option : OptionDraft} {schema : OptionSchema}
    (exampled : option.isRequired = true → option.hasExample = true)
    (converted : option.schema context = .ok schema) : schema.IsComplete context.graph := by
  obtain ⟨-, sameRequired, sameExample, typed⟩ := schema_eq_ok converted
  obtain ⟨flat, hosted⟩ := RecipeContext.isSupplied_optionType option.type schema.type typed
  refine ⟨flat, hosted, fun required => ?_⟩
  obtain ⟨text, given, filled⟩ := (Option.any_eq_true _ _).1 (exampled (sameRequired ▸ required))
  have spoken : Text.isBlankText text = false := by simpa using filled
  refine ⟨text, ?_, spoken⟩
  rw [sameExample, given]
  simp [spoken]

theorem BuiltinRule.isBlankText_getD {text : Option String} (spoken : saysNothing text = false) :
    Text.isBlankText (text.getD "") = false := by
  cases text with
  | none => simp [saysNothing] at spoken
  | some content => simpa [saysNothing] using spoken

theorem TypeGraph.isComplete_visitor {graph : TypeGraph} {target : String}
    (known : target ∈ graph.names) :
    VisitorSchema.IsComplete graph ⟨target, graph.subtypesOf target⟩ where
  known := known
  mem_subtypes_iff _ := mem_subtypesOf_iff
  once := graph.distinct.sublist subtypesOf_sublist
  ordered := subtypesOf_sublist

/-- A draft with distinct option names that keeps the rules is converted into a complete schema,
with a visitor if and only if the draft has one. -/
theorem RecipeDraft.KeepsRules.isComplete_schema (kept : draft.KeepsRules context)
    (distinct : (draft.options.map (·.name)).Nodup)
    (converted : draft.schema context = .ok recipe) :
    recipe.name = draft.name ∧ recipe.IsComplete context.graph ∧
      recipe.visitor.map (·.target) = draft.visitor.join ∧
        recipe.visitor.isSome = draft.visitor.isSome := by
  unfold RecipeDraft.schema at converted
  obtain ⟨options, each, converted⟩ := bind_eq_ok_iff.1 converted
  cases converted
  have conversions := forall₂_of_mapM each
  have names : options.map (·.name) = draft.options.map (·.name) := by
    have matched := conversions.imp fun _ _ found => (OptionDraft.schema_eq_ok found).1.symm
    rw [← List.forall₂_eq_eq_eq, List.forall₂_map_left_iff, List.forall₂_map_right_iff]
    exact (List.Forall₂.flip matched).imp fun _ _ same => same.symm
  have complete : ∀ option ∈ options, option.IsComplete context.graph := by
    intro option member
    obtain ⟨source, listed, found⟩ := exists_of_forall₂ conversions member
    exact OptionDraft.isComplete_schema (kept.exampled source listed) found
  -- the target of a visitor passes the check of the conversion, since the rule checked it
  have target : draft.visitor.join.filter context.graph.contains = draft.visitor.join ∧
      draft.visitor.join.isSome = draft.visitor.isSome := by
    cases declared : draft.visitor with
    | none => simp
    | some target? =>
      obtain ⟨target, known, rfl⟩ := kept.targeted target? declared
      simp [TypeGraph.contains_iff.2 known]
  refine ⟨rfl, ⟨BuiltinRule.isBlankText_getD kept.titled, BuiltinRule.isBlankText_getD kept.described,
    names ▸ distinct, complete, ?_⟩, ?_, ?_⟩
  · intro visitor visits
    obtain ⟨target, found, rfl⟩ := Option.map_eq_some_iff.1 visits
    exact TypeGraph.isComplete_visitor (TypeGraph.contains_iff.1 (Option.filter_eq_some_iff.1 found).2)
  · simpa [Option.map_map, Function.comp_def] using target.1
  · simpa [target.1] using target.2

theorem Discovery.isRecipe_of_mem {config : Config} {model : HostModel} {type : HostType}
    (candidate : type ∈ (scan config model).candidates.recipes.filterMap model.get?) :
    model.get? type.name = some type ∧ type.isRecipe = true := by
  obtain ⟨name, listed, found⟩ := List.mem_filterMap.1 candidate
  obtain ⟨-, rfl⟩ := HostModel.get?_eq_some_iff.1 found
  obtain ⟨other, admitted, same⟩ := List.mem_map.1 listed
  obtain ⟨marked, isRecipe⟩ := List.mem_filter.1 admitted
  have known : other ∈ model.types := (List.mem_filter.1 (List.mem_filter.1 marked).1).1
  have found' : model.get? type.name = some other :=
    HostModel.get?_eq_some_iff.2 ⟨known, same⟩
  obtain rfl := Option.some.inj (found.symm.trans found')
  exact ⟨found, isRecipe⟩

def Annotation.ofTexts (name : String) (texts : List (String × String)) : Annotation :=
  ⟨name, texts.map fun (key, text) => (key, .scalar ⟨0, 0⟩ (.text text))⟩

/-- A recipe that visits a type with one subtype.  A field and a parameter declare its one option
together. -/
def pruning : HostType :=
  { Snapshot.plainType with
    name := "R"
    annotations := [
      .ofTexts "Recipe" [("display_name", "Prune"), ("description", "Cut dead ends.")],
      .ofTexts "Visitor" [("target", "A")]]
    members := [{ Snapshot.plainMember with
      name := "names"
      type := .array (.named "String" [])
      annotations := [.ofTexts "Option" [("example", "x")]] }]
    constructors := [⟨.public, [⟨"names", .array (.named "String" []), false,
      [.ofTexts "Option" [("description", "What to cut.")]]⟩]⟩] }

def visitingModel : HostModel where
  types := [
    { Snapshot.plainType with name := "A" },
    { Snapshot.plainType with name := "B", supertypes := [.named "A" []] },
    pruning]
  distinct := by decide

def visitingConfig : Config :=
  { Config.plain with roots := ["A"] }

/-- The names of a closure in discovery order and the subtypes of one of them, if the closure can be
arranged. -/
def subtypeTable (config : Config) (model : HostModel) (target : String) :
    Option (List String × List String) := do
  let graph ← ((config.viewOf model).closure (config.rootsOf model)).toOption
  let _ ← graph.emissionOrder.toOption
  return (graph.names, graph.subtypesOf target)

/-- A closure that can be arranged makes the pass succeed. -/
theorem exists_of_subtypeTable {config : Config} {model : HostModel} {target : String}
    {names subtypes : List String}
    (evaluated : subtypeTable config model target = some (names, subtypes)) :
    ∃ session graph, (Pass.ofModel config model).outcome = .ok session ∧
      session.graph? = some graph ∧
      (config.viewOf model).closure (config.rootsOf model) = .ok graph ∧
      graph.names = names ∧ graph.subtypesOf target = subtypes ∧
      session.recipes = (Pass.extraction config model graph).recipes := by
  obtain ⟨graph, closed, rest⟩ := Option.bind_eq_some_iff.1 evaluated
  obtain ⟨order, ordered, same⟩ := Option.bind_eq_some_iff.1 rest
  rw [toOption_eq_some_iff] at closed ordered
  obtain ⟨sameNames, sameSubtypes⟩ := Prod.mk.inj (Option.some.inj same)
  exact ⟨_, graph, Pass.outcome_eq_ok_iff.2 ⟨graph, order, closed, ordered, rfl⟩, rfl, closed,
    sameNames, sameSubtypes, rfl⟩

/-- In a graph with the visited type the recipe keeps all rules and can be converted. -/
theorem pruning_extracted {config : Config} {model : HostModel} {graph : TypeGraph}
    (candidates : (Discovery.scan config model).candidates.recipes = ["R"])
    (found : model.get? "R" = some pruning) (known : graph.contains "A" = true) :
    ⟨"R", "Prune", "Cut dead ends.",
        [⟨"names", .list .string, "names", "What to cut.", some "x", true⟩],
        some ⟨"A", graph.subtypesOf "A"⟩⟩ ∈ (Pass.extraction config model graph).recipes := by
  have draft : RecipeDraft.ofType pruning =
      ⟨"R", some "Prune", some "Cut dead ends.",
        [⟨"names", .array (.named "String" []), false, none, some "What to cut.", some "x",
          none⟩], [], some (some "A")⟩ := by cbv
  rw [Pass.extraction, candidates]
  refine Extraction.mem_recipes_ofNames_iff.2 ⟨pruning, ?_,
    Extraction.mem_recipes_ofDraft_all_iff.2 ⟨?_, ?_⟩⟩
  · exact List.mem_filterMap.2 ⟨"R", List.mem_singleton.2 rfl, found⟩
  · intro rule grave
    rw [draft]
    cases rule with
    | visitorTarget => exact if_pos known
    | emptyDescription => cases grave
    | _ => rfl
  · rw [draft]
    have passed : (some "A").filter graph.contains = some "A" := by simp [known]
    have visitor := congrArg
      (Option.map fun target => VisitorSchema.mk target (graph.subtypesOf target)) passed
    exact congrArg (fun visitor => Except.ok (RecipeSchema.mk "R" "Prune" "Cut dead ends."
      [⟨"names", .list .string, "names", "What to cut.", some "x", true⟩] visitor)) visitor

/-- A recipe of a pass is converted from the draft of a candidate that keeps the rules. -/
theorem Pass.exists_keepsRules {config : Config} {model : HostModel} {graph : TypeGraph}
    (yielded : recipe ∈ (extraction config model graph).recipes) :
    ∃ type ∈ (Discovery.scan config model).candidates.recipes.filterMap model.get?,
      (RecipeDraft.ofType type).KeepsRules ⟨model, graph⟩ ∧
        (RecipeDraft.ofType type).schema ⟨model, graph⟩ = .ok recipe := by
  obtain ⟨type, candidate, extracted⟩ := Extraction.mem_recipes_ofNames_iff.1 yielded
  obtain ⟨silent, converted⟩ := Extraction.mem_recipes_ofDraft_all_iff.1 extracted
  exact ⟨type, candidate, RecipeDraft.keepsRules silent, converted⟩

/-- The recipes of a pass are complete. -/
theorem Pass.isComplete_of_mem_recipes {config : Config} {model : HostModel} {graph : TypeGraph}
    (yielded : recipe ∈ (extraction config model graph).recipes) : recipe.IsComplete graph := by
  obtain ⟨type, -, kept, converted⟩ := exists_keepsRules yielded
  exact (kept.isComplete_schema (RecipeDraft.nodup_names_ofType type) converted).2.1

/-- The recipes of a pass that succeeds are complete, and each is the recipe of a type of the model,
with a visitor if and only if the type declares one. -/
theorem recipes_complete {config : Config} {model : HostModel} {session : Session}
    (succeeds : (Pass.ofModel config model).outcome = .ok session) :
    ∃ graph, (config.viewOf model).closure (config.rootsOf model) = .ok graph ∧
      ∀ recipe ∈ session.recipes, recipe.IsComplete graph ∧
        ∃ type, model.get? recipe.name = some type ∧ type.isRecipe = true ∧
          (recipe.visitor.isSome = true ↔ anyNamed type.annotations Annotation.visitor = true) ∧
          ∀ visitor, recipe.visitor = some visitor →
            ∃ mark, firstNamed? type.annotations Annotation.visitor = some mark ∧
              mark.text? "target" = some visitor.target := by
  obtain ⟨graph, order, closed, -, rfl⟩ := Pass.outcome_eq_ok_iff.1 succeeds
  refine ⟨graph, closed, fun recipe yielded => ?_⟩
  obtain ⟨type, candidate, kept, converted⟩ := Pass.exists_keepsRules yielded
  obtain ⟨sameName, complete, sameTarget, visits⟩ :=
    kept.isComplete_schema (RecipeDraft.nodup_names_ofType type) converted
  obtain ⟨found, isRecipe⟩ := Discovery.isRecipe_of_mem candidate
  refine ⟨complete, type, sameName ▸ found, isRecipe, ?_, ?_⟩
  · rw [visits, RecipeDraft.ofType, Option.isSome_map, anyNamed]
  · intro visitor has
    rw [has, Option.map_some] at sameTarget
    obtain ⟨mark, marked, kept⟩ := Option.map_eq_some_iff.1 (Option.join_eq_some_iff.1 sameTarget.symm)
    exact ⟨mark, marked, (Option.filter_eq_some_iff.1 kept).1⟩

theorem visitingModel_complete :
    ∃ session graph, (Pass.ofModel visitingConfig visitingModel).outcome = .ok session ∧
      (visitingConfig.viewOf visitingModel).closure (visitingConfig.rootsOf visitingModel) =
        .ok graph ∧
      graph.names = ["A", "B"] ∧
      ∃ recipe ∈ session.recipes,
        recipe.options = [⟨"names", .list .string, "names", "What to cut.", some "x", true⟩] ∧
        recipe.visitor = some ⟨"A", ["B"]⟩ ∧ recipe.IsComplete graph := by
  have evaluated : subtypeTable visitingConfig visitingModel "A" = some (["A", "B"], ["B"]) := by
    cbv
  obtain ⟨session, graph, succeeds, -, closed, names, subtypes, recipes⟩ :=
    exists_of_subtypeTable evaluated
  have visited : graph.contains "A" = true :=
    TypeGraph.contains_iff.2 (names ▸ List.mem_cons_self)
  have candidates :
      (Discovery.scan visitingConfig visitingModel).candidates.recipes = ["R"] := by cbv
  have yielded := pruning_extracted candidates rfl visited
  rw [← recipes] at yielded
  obtain ⟨graph', closed', complete⟩ := recipes_complete succeeds
  obtain rfl : graph = graph' := Except.ok.inj (closed.symm.trans closed')
  exact ⟨session, graph, succeeds, closed, names, _, yielded, rfl, by rw [subtypes],
    (complete _ yielded).1⟩

end TypeBridge
