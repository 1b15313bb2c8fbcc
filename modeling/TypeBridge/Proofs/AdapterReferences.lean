import TypeBridge.Proofs.AdapterFiles
import TypeBridge.Proofs.AdapterTexts
import TypeBridge.Proofs.DeclarationPaths
import TypeBridge.Proofs.RecipeIsolation
import TypeBridge.Proofs.ReferenceScoping

/-!
# Adapters refer to declarations

An adapter names host types as the declaration file does, and imports the first segment of each of
these names once, in one line.  The host types that it names are those of the recipe's options,
through lists, and the visited type; extraction has checked them against the types that are
declared.  The module of that line is the declaration file, unless the way to the adapters has a step
outwards.
-/

namespace TypeBridge

namespace Name

/-- The first segment of a dotted name. -/
def leading (name : String) : String :=
  String.ofList (name.toList.takeWhile (· != '.'))

theorem exists_path_eq_cons (name : String) :
    ∃ first rest, path name = first :: rest ∧ '.' ∉ first.toList := by
  have joined : ['$'].intercalate ((behindLast '.' name.toList).splitOn '$') =
      behindLast '.' name.toList := List.intercalate_splitOn '$'
  cases split : (behindLast '.' name.toList).splitOn '$' with
  | nil => exact absurd split (List.splitOn_ne_nil _ _)
  | cons first rest =>
    rw [split] at joined
    refine ⟨String.ofList first, rest.map String.ofList, by rw [path, split]; rfl, ?_⟩
    have inside : first <+: behindLast '.' name.toList := by
      rw [← joined]
      cases rest with
      | nil => simp [List.intercalate]
      | cons second others => simp [List.intercalate]
    rw [String.toList_ofList]
    exact fun dot => notMem_behindLast '.' name.toList (inside.subset dot)

/-- The first segment of a spelled name is the outermost type. -/
theorem leading_spelled (name : String) : leading (spelled name) = (path name).head?.getD "" := by
  obtain ⟨first, rest, same, dotless⟩ := exists_path_eq_cons name
  have whole : ∀ c ∈ first.toList, (c != '.') = true := by
    intro c member
    rw [bne_iff_ne]
    rintro rfl
    exact dotless member
  rw [spelled, leading, same, List.head?_cons, Option.getD_some]
  cases rest with
  | nil =>
    rw [String.intercalate_singleton, List.takeWhile_eq_self_iff.2 whole, String.ofList_toList]
  | cons second others =>
    rw [String.intercalate_cons_of_ne_nil (by simp), String.append_assoc, String.toList_append,
      List.takeWhile_append_of_pos whole, String.toList_append]
    simp

end Name

namespace DeclarationUnit

/-- The name under which a unit declares a host type. -/
def nameOf? (unit : DeclarationUnit) (qualified : String) : Option String :=
  (unit.declarations.find? (·.qualified == qualified)).map (·.name)

theorem exists_of_nameOf? {unit : DeclarationUnit} {qualified name : String}
    (named : unit.nameOf? qualified = some name) :
    ∃ declaration ∈ unit.declarations, declaration.qualified = qualified ∧
      declaration.name = name := by
  obtain ⟨declaration, found, rfl⟩ := Option.map_eq_some_iff.1 named
  exact ⟨declaration, List.mem_of_find?_eq_some found, by simpa using List.find?_some found, rfl⟩

end DeclarationUnit

theorem TypeGraph.nameOf?_eq_some {graph : TypeGraph} {config : EmitConfig} {order : EmissionOrder}
    {unit : DeclarationUnit} (ordered : graph.emissionOrder = .ok order)
    (declared : graph.declareAll config order = .ok unit) {name : String}
    (known : name ∈ graph.names) : unit.nameOf? name = some (Name.spelled name) := by
  have listed := (map_qualified_perm ordered declared).mem_iff.2 known
  cases found : unit.declarations.find? (·.qualified == name) with
  | none => exact absurd listed (Search.find?_key_eq_none_iff.1 found)
  | some declaration =>
    have same : declaration.qualified = name := by simpa using List.find?_some found
    rw [DeclarationUnit.nameOf?, found, Option.map_some,
      name_of_mem_declarations declared (List.mem_of_find?_eq_some found), same]

/-- The text of an option type with host types written by some function. -/
def OptionType.textBy? (write : String → Option String) : OptionType → Option String
  | .host name => write name
  | .list element => (element.textBy? write).map Script.arrayOf
  | type => some type.text

theorem OptionType.textBy?_eq_some {write : String → Option String} {type : OptionType}
    (named : ∀ host ∈ type.hosts, write host = some (Name.spelled host)) :
    type.textBy? write = some type.text := by
  induction type with
  | host name => exact named name List.mem_cons_self
  | list element ih => rw [textBy?, ih named, Option.map_some, text]
  | string | number | boolean | enum => rfl

namespace RecipeSchema

variable {recipe : RecipeSchema}

/-- The host types that an adapter of the recipe names. -/
def hostTypes (recipe : RecipeSchema) : List String :=
  recipe.options.flatMap (·.type.hosts) ++ recipe.visitor.toList.map (·.target)

theorem outermostTypes_eq :
    recipe.outermostTypes =
      (recipe.hostTypes.map fun name => Name.leading (Name.spelled name)).eraseDups := by
  simp only [outermostTypes, hostTypes, Name.leading_spelled]

theorem mem_hostTypes_iff {name : String} :
    name ∈ recipe.hostTypes ↔
      (∃ option ∈ recipe.options, name ∈ option.type.hosts) ∨
        ∃ visitor, recipe.visitor = some visitor ∧ visitor.target = name := by
  simp [hostTypes]

theorem IsComplete.mem_names_of_hostTypes {graph : TypeGraph} (complete : recipe.IsComplete graph)
    {name : String} (named : name ∈ recipe.hostTypes) : name ∈ graph.names := by
  rcases mem_hostTypes_iff.1 named with ⟨option, listed, host⟩ | ⟨visitor, visits, rfl⟩
  · exact (complete.options option listed).hosted name host
  · exact (complete.visitor visitor visits).known

theorem outermostTypes_eq_nil_iff : recipe.outermostTypes = [] ↔ recipe.hostTypes = [] := by
  rw [outermostTypes_eq]
  cases recipe.hostTypes <;> simp [List.eraseDups_cons]

theorem mem_outermostTypes_iff {segment : String} :
    segment ∈ recipe.outermostTypes ↔
      ∃ name ∈ recipe.hostTypes, Name.leading (Name.spelled name) = segment := by
  rw [outermostTypes_eq, List.mem_eraseDups, List.mem_map]

theorem count_outermostTypes {name : String} (mentioned : name ∈ recipe.hostTypes) :
    recipe.outermostTypes.count (Name.leading (Name.spelled name)) = 1 := by
  apply List.count_eq_one_of_mem
  · rw [outermostTypes_eq]
    exact HostView.nodup_eraseDups _
  · exact mem_outermostTypes_iff.2 ⟨name, mentioned, rfl⟩

theorem empty_notMem_outermostTypes
    (faultless : ∀ name ∈ recipe.hostTypes, Name.fault? name = none) :
    "" ∉ recipe.outermostTypes := by
  intro empty
  obtain ⟨name, mentioned, blank⟩ := mem_outermostTypes_iff.1 empty
  obtain ⟨first, rest, path, -⟩ := Name.exists_path_eq_cons name
  have first_eq : first = "" := by simpa [Name.leading_spelled, path] using blank
  apply Name.empty_notMem_path (faultless name mentioned)
  rw [path, first_eq]
  exact List.mem_cons_self

end RecipeSchema

namespace Adapter

/-- The property of an option with host types written by some function. -/
def writtenOptionBy? (write : String → Option String) (option : OptionSchema) :
    Option WrittenMember :=
  (option.type.textBy? write).map (writtenOption option)

end Adapter

/-- A pass and a rendering that succeed have declared the closure of the roots, and have written
adapters for complete recipes over it. -/
theorem Rendering.exists_recipe_of_mem {config : Config} {model : HostModel} {session : Session}
    {rendering : Rendering} (succeeds : (Pass.ofModel config model).outcome = .ok session)
    (rendered : ofSession session = .ok rendering) :
    ∃ graph order, (config.viewOf model).closure (config.rootsOf model) = .ok graph ∧
      graph.emissionOrder = .ok order ∧
      graph.declareAll config.emit order = .ok rendering.declarations ∧
      ∀ adapter ∈ rendering.adapters.units, ∃ recipe ∈ session.recipes,
        recipe.IsComplete graph ∧ adapter.recipe = recipe.name ∧
        adapter.source = (Adapter.sourceFile
          (Adapter.declarationModule config.declarations config.adapters) recipe).text .script := by
  obtain ⟨graph, order, closed, ordered, rfl⟩ := Pass.outcome_eq_ok_iff.1 succeeds
  obtain ⟨graph', order', unit, known, known', declared, rfl⟩ := ofSession_eq_ok_iff.1 rendered
  obtain rfl := Option.some.inj known
  obtain rfl := Option.some.inj known'
  refine ⟨graph, order, closed, ordered, declared, fun adapter member => ?_⟩
  obtain ⟨recipe, listed, written⟩ := AdapterSet.exists_recipe_of_mem member
  exact ⟨recipe, listed, Pass.isComplete_of_mem_recipes listed, written⟩

/-- The names of a closure are names of the model. -/
theorem HostView.IsClosure.fault?_eq_none {view : HostView} {roots : List String}
    {graph : TypeGraph} (closure : IsClosure view roots graph)
    (named : ∀ type ∈ view.model.types, Name.fault? type.name = none) {name : String}
    (known : name ∈ graph.names) : Name.fault? name = none := by
  obtain ⟨node, inGraph, rfl⟩ := List.mem_map.1 known
  obtain ⟨type, _, found, -⟩ := closure.read node inGraph
  obtain ⟨inModel, same⟩ := HostModel.get?_eq_some_iff.1 found
  exact same ▸ named type inModel

/-- How an adapter of a recipe refers to the declarations of a unit, with the names that it imports
from them and the lines behind its imports. -/
structure RecipeSchema.RefersTo (unit : DeclarationUnit) (recipe : RecipeSchema)
    (imported : List String) (body : List PageLine) : Prop where
  /-- The interface of the options stands first and names host types as the unit declares them. -/
  options : ∃ members,
    recipe.options.map (Adapter.writtenOptionBy? unit.nameOf?) = members.map some ∧
    docLines 0 (some ("Options of " ++ recipe.displayName ++ ".")) ++
      objectLines 0 ("export interface " ++ (AdapterNames.ofName recipe.name).options ++ " ") ""
        members <+: body
  /-- So does the type of the callback. -/
  visitor : ∀ visitor, recipe.visitor = some visitor →
    ∃ target, unit.nameOf? visitor.target = some target ∧
      .written 0 ("export type " ++ (AdapterNames.ofName recipe.name).visit ++ " = VisitCallback<" ++
        target ++ ">;") ∈ body
  /-- The first segment of each name is imported once. -/
  once : ∀ name ∈ recipe.hostTypes, ∃ declared, unit.nameOf? name = some declared ∧
    imported.count (Name.leading declared) = 1
  /-- Every imported name is the first segment of some declaration. -/
  declared : ∀ segment ∈ imported,
    ∃ declaration ∈ unit.declarations, segment = Name.leading declaration.name
  /-- Where no host type is named, none is imported. -/
  bare : recipe.hostTypes = [] → imported = []
  /-- All imports stand in front. -/
  rest : ∀ line ∈ body, ¬ line.IsImport

/-- An adapter refers to the declarations of a unit that declares all its host types. -/
theorem RecipeSchema.refersTo {unit : DeclarationUnit} {recipe : RecipeSchema}
    (named : ∀ name ∈ recipe.hostTypes, unit.nameOf? name = some (Name.spelled name)) :
    recipe.RefersTo unit recipe.outermostTypes (Adapter.bodyLines recipe) where
  options := by
    refine ⟨_, ?_, Adapter.optionLines_prefix recipe⟩
    rw [List.map_map]
    apply List.map_congr_left
    intro option listed
    have text := OptionType.textBy?_eq_some fun host inside =>
      named host (mem_hostTypes_iff.2 (.inl ⟨option, listed, inside⟩))
    rw [Adapter.writtenOptionBy?, text, Option.map_some, Function.comp_apply]
  visitor visitor visits :=
    ⟨_, named _ (mem_hostTypes_iff.2 (.inr ⟨visitor, visits, rfl⟩)),
      Adapter.visit_mem_bodyLines visits⟩
  once name mentioned := ⟨_, named name mentioned, count_outermostTypes mentioned⟩
  declared segment imported := by
    obtain ⟨name, mentioned, rfl⟩ := mem_outermostTypes_iff.1 imported
    obtain ⟨declaration, written, -, spelled⟩ :=
      DeclarationUnit.exists_of_nameOf? (named name mentioned)
    exact ⟨declaration, written, by rw [spelled]⟩
  bare := outermostTypes_eq_nil_iff.2
  rest _ := Adapter.not_isImport_bodyLines

/-- The type graph of a pass and its declarations, if it can be declared. -/
def declaredGraph? (config : Config) (model : HostModel) :
    Option (TypeGraph × DeclarationUnit) := do
  let graph ← ((config.viewOf model).closure (config.rootsOf model)).toOption
  let order ← graph.emissionOrder.toOption
  let unit ← (graph.declareAll config.emit order).toOption
  return (graph, unit)

/-- The recipes and the adapters of a pass and its rendering follow from the type graph. -/
theorem exists_of_declaredGraph? {config : Config} {model : HostModel} {graph : TypeGraph}
    {unit : DeclarationUnit} (known : declaredGraph? config model = some (graph, unit)) :
    ∃ session rendering, (Pass.ofModel config model).outcome = .ok session ∧
      Rendering.ofSession session = .ok rendering ∧
      (config.viewOf model).closure (config.rootsOf model) = .ok graph ∧
      rendering.declarations = unit ∧
      session.recipes = (Pass.extraction config model graph).recipes ∧
      rendering.adapters = .ofRecipes config.declarations config.adapters session.recipes := by
  obtain ⟨graph', closed, rest⟩ := Option.bind_eq_some_iff.1 known
  obtain ⟨order, ordered, rest⟩ := Option.bind_eq_some_iff.1 rest
  obtain ⟨unit', declared, same⟩ := Option.bind_eq_some_iff.1 rest
  rw [Outcome.toOption_eq_some_iff] at closed ordered declared
  obtain ⟨rfl, rfl⟩ := Prod.mk.inj (Option.some.inj same)
  exact ⟨_, _, Pass.outcome_eq_ok_iff.2 ⟨graph', order, closed, ordered, rfl⟩,
    Rendering.ofSession_eq_ok_iff.2 ⟨graph', order, unit', rfl, rfl, declared, rfl⟩, closed, rfl,
    rfl, rfl⟩

theorem adapter_mem_units {session : Session} {rendering : Rendering} {recipe : RecipeSchema}
    {declarations adapters : String} (single : session.recipes = [recipe]) (name : recipe.name = "R")
    (written : rendering.adapters = .ofRecipes declarations adapters session.recipes) :
    ⟨"R", (AdapterNames.ofName "R").fileName,
        (Adapter.sourceFile (Adapter.declarationModule declarations adapters) recipe).text
          .script⟩ ∈ rendering.adapters.units := by
  have file : (AdapterNames.ofName "R").file = "r" := rfl
  have free : (AdapterNames.ofName recipe.name).file ≠ Adapter.sharedModule := by
    rw [name, file]
    decide
  rw [written, single, AdapterSet.units_ofRecipes_singleton free, name]
  exact List.mem_singleton.2 rfl

/-- A recipe that visits a type and takes some types inside it, with arguments. -/
def collecting (args : List Signature) : HostType :=
  let plain := recipeWith "R" (.array (.named "A$I" args)) ["parts"]
  { plain with annotations := plain.annotations ++ [.ofTexts "Visitor" [("target", "A")]] }

/-- The recipe, the type that it visits and the type inside that, which has type parameters. -/
def collectingModel (generics : List HostGeneric) (args : List Signature) : HostModel where
  types :=
    let inner : HostType := { Snapshot.plainType with name := "A$I", generics }
    [{ Snapshot.plainType with name := "A", nested := [inner] }, inner, collecting args]
  distinct := (by decide : ["A", "A$I", "R"].Nodup)

theorem collecting_extracted {config : Config} {generics : List HostGeneric}
    {args : List Signature} {graph : TypeGraph}
    (candidates :
      (Discovery.scan config (collectingModel generics args)).candidates.recipes = ["R"])
    (outer : graph.contains "A" = true) (inner : graph.contains "A$I" = true) :
    (Pass.extraction config (collectingModel generics args) graph).recipes =
      [⟨"R", "R", "Does R", [⟨"parts", .list (.host "A$I"), "parts", "", some "x", true⟩],
        some ⟨"A", graph.subtypesOf "A"⟩⟩] := by
  have draft : RecipeDraft.ofType (collecting args) =
      ⟨"R", some "R", some "Does R",
        [⟨"parts", .array (.named "A$I" args), false, none, none, some "x", none⟩], [],
        some (some "A")⟩ := rfl
  have found : (collectingModel generics args).get? (collecting args).name =
      some (collecting args) := rfl
  have hosted : RecipeContext.hostOption ⟨collectingModel generics args, graph⟩ "A$I" =
      .ok (.host "A$I") := by
    have notEnum : ((collectingModel generics args).get? "A$I").filter (·.kind == .enum) = none :=
      rfl
    rw [RecipeContext.hostOption, notEnum]
    exact if_pos inner
  have typed : RecipeContext.optionType ⟨collectingModel generics args, graph⟩
      (.array (.named "A$I" args)) = .ok (.list (.host "A$I")) :=
    congrArg (RecipeContext.listOf (.named "A$I" args))
      ((RecipeContext.optionType_of_foreign rfl args).trans hosted)
  have option : OptionDraft.schema ⟨collectingModel generics args, graph⟩
      ⟨"parts", .array (.named "A$I" args), false, none, none, some "x", none⟩ =
        .ok ⟨"parts", .list (.host "A$I"), "parts", "", some "x", true⟩ := by
    rw [OptionDraft.schema, typed]
    rfl
  refine Pass.recipes_extraction_singleton candidates found ?_ ?_
  · intro rule grave
    rw [draft]
    cases rule with
    | optionType => simp [BuiltinRule.complaints, typed]
    | visitorTarget => exact if_pos outer
    | emptyDescription => cases grave
    | _ => rfl
  · simp [draft, RecipeDraft.schema, option, outer]

/-- What a pass over the recipe writes, once its types are found to be declared. -/
theorem collecting_rendered {config : Config} {generics : List HostGeneric}
    {args : List Signature} {graph : TypeGraph} {unit : DeclarationUnit}
    (candidates :
      (Discovery.scan config (collectingModel generics args)).candidates.recipes = ["R"])
    (known : declaredGraph? config (collectingModel generics args) = some (graph, unit))
    (names : graph.names = ["A", "A$I"]) :
    ∃ session rendering adapter,
      (Pass.ofModel config (collectingModel generics args)).outcome = .ok session ∧
      Rendering.ofSession session = .ok rendering ∧ rendering.declarations = unit ∧
      (config.viewOf (collectingModel generics args)).closure
        (config.rootsOf (collectingModel generics args)) = .ok graph ∧
      session.recipes =
        [⟨"R", "R", "Does R", [⟨"parts", .list (.host "A$I"), "parts", "", some "x", true⟩],
          some ⟨"A", graph.subtypesOf "A"⟩⟩] ∧
      adapter ∈ rendering.adapters.units := by
  obtain ⟨session, rendering, succeeds, rendered, closed, declared, recipes, adapters⟩ :=
    exists_of_declaredGraph? known
  have outer : graph.contains "A" = true := TypeGraph.contains_iff.2 (by simp [names])
  have inner : graph.contains "A$I" = true := TypeGraph.contains_iff.2 (by simp [names])
  rw [collecting_extracted candidates outer inner] at recipes
  exact ⟨session, rendering, _, succeeds, rendered, declared, closed, recipes,
    adapter_mem_units recipes rfl adapters⟩

/-- In a pass and a rendering that succeed, every adapter is written for a recipe and names host
types as the declarations do.  In its first line, if it names any, it imports the first segment of
each of these names once, and nothing else from the declarations.  The module of that line is the
declaration file exactly when the way to the adapters has no step outwards and the file has a name in
front of its ending. -/
theorem adapters_refer_to_declarations {config : Config} {model : HostModel} {session : Session}
    {rendering : Rendering} (named : ∀ type ∈ model.types, Name.fault? type.name = none)
    (succeeds : (Pass.ofModel config model).outcome = .ok session)
    (rendered : Rendering.ofSession session = .ok rendering) :
    let module := Adapter.declarationModule config.declarations config.adapters
    (∀ adapter ∈ rendering.adapters.units, ∃ recipe ∈ session.recipes,
      adapter.recipe = recipe.name ∧ ∃ imported body,
        adapter.source = scriptText
          (Adapter.importLines module imported recipe.visitor.isSome ++ [.blank] ++ body) ∧
        recipe.RefersTo rendering.declarations imported body) ∧
    (config.brokenRule? = none → '\\' ∉ config.declarations.toList →
      ((Place.ofPath (Path.join config.adapters module)).extended ".d.ts" =
          Place.ofPath config.declarations ↔
        ".." ∉ Path.pieces config.adapters ∧
          Path.isEntry (Path.last (String.ofList
            (Adapter.declarationStem config.declarations))) = true)) := by
  intro module
  obtain ⟨graph, order, closed, ordered, declared, written⟩ :=
    Rendering.exists_recipe_of_mem succeeds rendered
  have closure := HostView.isClosure_of_closure closed
  refine ⟨?_, Adapter.extended_declarationModule_iff⟩
  intro adapter member
  obtain ⟨recipe, listed, complete, sameName, source⟩ := written adapter member
  have faultless : ∀ name ∈ recipe.hostTypes, Name.fault? name = none := by
    intro name mentioned
    exact closure.fault?_eq_none named (complete.mem_names_of_hostTypes mentioned)
  refine ⟨recipe, listed, sameName, recipe.outermostTypes, Adapter.bodyLines recipe, ?_, ?_⟩
  · rw [source]
    exact Adapter.text_sourceFile (RecipeSchema.empty_notMem_outermostTypes faultless)
  · apply RecipeSchema.refersTo
    intro name mentioned
    exact TypeGraph.nameOf?_eq_some ordered declared (complete.mem_names_of_hostTypes mentioned)

/-- The configuration with one root and a folder of adapters. -/
def collectingConfig (adapters : String) : Config :=
  { visitingConfig with models := ["m.toml"], adapters }

/-- The recipe names a type in a namespace and the type around it: one name is imported. -/
theorem collectingModel_adapter :
    ∃ session rendering,
      (Pass.ofModel (collectingConfig "kit") (collectingModel [] [])).outcome = .ok session ∧
      Rendering.ofSession session = .ok rendering ∧
      rendering.declarations.names = ["A", "A.I"] ∧
      (∃ adapter ∈ rendering.adapters.units, ∃ recipe ∈ session.recipes,
        recipe.hostTypes = ["A$I", "A"] ∧ ∃ imported body,
          adapter.source = scriptText
            (Adapter.importLines "../types" imported recipe.visitor.isSome ++ [.blank] ++ body) ∧
          recipe.RefersTo rendering.declarations imported body) ∧
      (Place.ofPath (Path.join "kit" "../types")).extended ".d.ts" = Place.ofPath "types.d.ts" := by
  have evaluated : (declaredGraph? (collectingConfig "kit") (collectingModel [] [])).map
      (fun (graph, unit) => (graph.names, unit.names)) = some (["A", "A$I"], ["A", "A.I"]) := by
    cbv
  have named : ∀ type ∈ (collectingModel [] []).types, Name.fault? type.name = none := by
    decide +kernel
  obtain ⟨⟨graph, unit⟩, known, same⟩ := Option.map_eq_some_iff.1 evaluated
  obtain ⟨names, declared⟩ := Prod.mk.inj same
  obtain ⟨session, rendering, adapter, succeeds, rendered, rfl, -, recipes, written⟩ :=
    collecting_rendered (by cbv) known names
  obtain ⟨adapters, reached⟩ := adapters_refer_to_declarations named succeeds rendered
  obtain ⟨recipe, listed, -, imported, body, source, refers⟩ := adapters adapter written
  obtain rfl := List.mem_singleton.1 (recipes ▸ listed)
  refine ⟨session, rendering, succeeds, rendered, declared, ?_, ?_⟩
  · exact ⟨adapter, written, _, listed, rfl, imported, body, source, refers⟩
  · exact (reached (by rfl) (by decide)).2 (by decide)

/-- The adapter is in another folder than the way to it enters first, and its import leads out of the
output folder. -/
theorem collectingModel_misdirected :
    ∃ session rendering,
      (collectingConfig "web/../kit").brokenRule? = none ∧
      (Pass.ofModel (collectingConfig "web/../kit") (collectingModel [] [])).outcome = .ok session ∧
      Rendering.ofSession session = .ok rendering ∧
      (∃ adapter ∈ rendering.adapters.units, ∃ rest,
        adapter.source = "import type \x7b A \x7d from \"../../types\";\n" ++ rest) ∧
      Place.ofPath (Path.join "web/../kit" "../../types") = ⟨1, ["types"]⟩ ∧
      (Place.ofPath (Path.join "web/../kit" "../../types")).extended ".d.ts" ≠
        Place.ofPath "types.d.ts" := by
  have evaluated : (declaredGraph? (collectingConfig "web/../kit") (collectingModel [] [])).map
      (fun (graph, _) => graph.names) = some ["A", "A$I"] := by
    cbv
  obtain ⟨⟨graph, unit⟩, known, names⟩ := Option.map_eq_some_iff.1 evaluated
  obtain ⟨session, rendering, adapter, succeeds, rendered, -, -, recipes, written⟩ :=
    collecting_rendered (by cbv) known names
  obtain ⟨_, _, -, -, -, each⟩ := Rendering.exists_recipe_of_mem succeeds rendered
  obtain ⟨recipe, listed, -, -, source⟩ := each adapter written
  obtain rfl := List.mem_singleton.1 (recipes ▸ listed)
  refine ⟨session, rendering, by rfl, succeeds, rendered, ⟨adapter, written, ?_⟩, by decide,
    by decide⟩
  have outermost : ∀ subtypes, (RecipeSchema.mk "R" "R" "Does R"
      [⟨"parts", .list (.host "A$I"), "parts", "", some "x", true⟩]
      (some ⟨"A", subtypes⟩)).outermostTypes = ["A"] := by
    intro subtypes
    cbv
  rw [source, Adapter.text_sourceFile (by rw [outermost]; decide), outermost, List.append_assoc,
    Adapter.importLines, if_neg (by simp), List.append_assoc, List.singleton_append,
    scriptText_cons_written]
  exact ⟨_, rfl⟩

end TypeBridge
