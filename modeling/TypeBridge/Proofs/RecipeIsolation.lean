import TypeBridge.Proofs.SchemaCompleteness

/-!
# Recipes are extracted one by one

What a recipe yields depends on its own type alone.  So extracting a list yields what its parts
yield, and a recipe without a schema always leaves an error, whether a rule finds it or the conversion
of its options does.  When the rules report at the recipe that they check, the schema and the findings
of a recipe carry its name, and those of the others do not.
-/

namespace TypeBridge

open Outcome

theorem RecipeDraft.name_of_schema {context : RecipeContext} {draft : RecipeDraft}
    {recipe : RecipeSchema} (converted : draft.schema context = .ok recipe) :
    recipe.name = draft.name := by
  obtain ⟨options, -, same⟩ := bind_eq_ok_iff.1 converted
  cases same
  rfl

/-- The rule reports at the recipe that it checks, and moves no finding away from there. -/
def RecipeRule.IsLocated (rule : RecipeRule) : Prop :=
  ∀ context (draft : RecipeDraft) found,
    (∀ diagnostic ∈ found, diagnostic.location = some draft.name) →
      ∀ diagnostic ∈ rule.check context draft found, diagnostic.location = some draft.name

theorem BuiltinRule.isLocated_rule (builtin : BuiltinRule) : builtin.rule.IsLocated := by
  intro context draft found located diagnostic member
  rcases List.mem_append.1 member with earlier | added
  · exact located diagnostic earlier
  · obtain ⟨message, -, rfl⟩ := List.mem_map.1 added
    rfl

namespace Extraction

variable {context : RecipeContext} {rules : List RecipeRule} {draft : RecipeDraft}
  {extraction first second : Extraction} {name : String}

theorem append_empty (extraction : Extraction) : extraction.append empty = extraction := by
  simp [append, empty]

theorem append_assoc (first second third : Extraction) :
    (first.append second).append third = first.append (second.append third) := by
  simp [append]

/-- Extracting a list yields what extracting its parts yields, one behind the other. -/
theorem ofNames_append (front back : List String) :
    ofNames context rules (front ++ back) =
      (ofNames context rules front).append (ofNames context rules back) := by
  unfold ofNames
  rw [List.filterMap_append]
  induction front.filterMap context.model.get? with
  | nil => rfl
  | cons type rest ih => rw [List.cons_append, List.foldr_cons, ih, List.foldr_cons, append_assoc]

/-- The part of an extraction that is about one recipe. -/
def about (extraction : Extraction) (name : String) : Extraction where
  recipes := extraction.recipes.filter (·.name == name)
  diagnostics := extraction.diagnostics.filter (·.location == some name)

theorem about_append :
    (first.append second).about name = (first.about name).append (second.about name) := by
  simp [about, append]

/-- Everything in an extraction is about one recipe. -/
structure IsAbout (extraction : Extraction) (name : String) : Prop where
  recipes : ∀ recipe ∈ extraction.recipes, recipe.name = name
  diagnostics : ∀ found ∈ extraction.diagnostics, found.location = some name

theorem IsAbout.about_self (isAbout : extraction.IsAbout name) :
    extraction.about name = extraction := by
  obtain ⟨recipes, diagnostics⟩ := extraction
  have schemas : recipes.filter (·.name == name) = recipes :=
    List.filter_eq_self.2 fun recipe member => beq_iff_eq.2 (isAbout.recipes recipe member)
  have findings : diagnostics.filter (·.location == some name) = diagnostics :=
    List.filter_eq_self.2 fun found member => beq_iff_eq.2 (isAbout.diagnostics found member)
  rw [about, schemas, findings]

theorem IsAbout.about_of_ne {other : String} (isAbout : extraction.IsAbout other)
    (differs : other ≠ name) : extraction.about name = empty := by
  have schemas : extraction.recipes.filter (·.name == name) = [] := by
    refine List.filter_eq_nil_iff.2 fun recipe member => ?_
    rw [isAbout.recipes recipe member, beq_iff_eq]
    exact differs
  have findings : extraction.diagnostics.filter (·.location == some name) = [] := by
    refine List.filter_eq_nil_iff.2 fun found member => ?_
    rw [isAbout.diagnostics found member, beq_iff_eq, Option.some.injEq]
    exact differs
  rw [about, schemas, findings, empty]

/-- What some rules find is located at the recipe when every one of them reports there. -/
theorem location_of_mem_findings (located : ∀ rule ∈ rules, rule.IsLocated) {found : Diagnostic}
    (member : found ∈ RecipeRule.findings rules context draft) :
    found.location = some draft.name := by
  have carried : ∀ before : List Diagnostic,
      (∀ diagnostic ∈ before, diagnostic.location = some draft.name) →
      ∀ diagnostic ∈ rules.foldl (fun found rule => rule.check context draft found) before,
        diagnostic.location = some draft.name := by
    clear member
    induction rules with
    | nil => exact fun _ before => before
    | cons rule rest ih =>
      intro before located'
      apply ih (fun other listed => located other (List.mem_cons_of_mem _ listed))
      exact located rule List.mem_cons_self context draft before located'
  exact carried [] (by simp) found member

theorem ofNames_singleton {type : HostType} (found : context.model.get? name = some type) :
    ofNames context rules [name] = ofDraft context rules (RecipeDraft.ofType type) := by
  simp only [ofNames, List.filterMap_cons, found, List.filterMap_nil, List.foldr_cons,
    List.foldr_nil, append_empty]

section Located

variable (located : ∀ rule ∈ rules, rule.IsLocated)
include located

theorem isAbout_ofDraft : (ofDraft context rules draft).IsAbout draft.name := by
  unfold ofDraft
  dsimp only
  split
  · exact ⟨by simp, fun _ => location_of_mem_findings located⟩
  · split
    · next schema converted =>
      refine ⟨fun recipe member => ?_, fun _ => location_of_mem_findings located⟩
      rw [List.mem_singleton.1 member, RecipeDraft.name_of_schema converted]
    · refine ⟨by simp, fun found member => ?_⟩
      rcases List.mem_append.1 member with finds | last
      · exact location_of_mem_findings located finds
      · rw [List.mem_singleton.1 last]
        rfl

/-- A name of a type yields what the draft of the type does, which is about that name. -/
theorem isAbout_ofNames_singleton : (ofNames context rules [name]).IsAbout name := by
  cases found : context.model.get? name with
  | none =>
    have nothing : ofNames context rules [name] = empty := by
      simp only [ofNames, List.filterMap_cons, found, List.filterMap_nil, List.foldr_nil]
    rw [nothing]
    exact ⟨by simp [empty], by simp [empty]⟩
  | some type =>
    rw [ofNames_singleton found]
    obtain ⟨-, rfl⟩ := HostModel.get?_eq_some_iff.1 found
    exact isAbout_ofDraft located

theorem about_ofNames_of_notMem {names : List String} (unlisted : name ∉ names) :
    (ofNames context rules names).about name = empty := by
  induction names with
  | nil => rfl
  | cons other rest ih =>
    rw [List.mem_cons, not_or] at unlisted
    obtain ⟨differs, later⟩ := unlisted
    rw [← List.singleton_append, ofNames_append, about_append, ih later, append_empty]
    exact (isAbout_ofNames_singleton located).about_of_ne (Ne.symm differs)

/-- What a list of distinct names yields about one of them is what this one yields alone. -/
theorem about_ofNames {names : List String} (distinct : names.Nodup) (listed : name ∈ names) :
    (ofNames context rules names).about name = ofNames context rules [name] := by
  induction names with
  | nil => cases listed
  | cons other rest ih =>
    obtain ⟨fresh, others⟩ := List.nodup_cons.1 distinct
    rw [← List.singleton_append, ofNames_append, about_append]
    rcases List.mem_cons.1 listed with rfl | later
    · rw [about_ofNames_of_notMem located fresh, append_empty]
      exact (isAbout_ofNames_singleton located).about_self
    · have differs : other ≠ name := fun same => fresh (same ▸ later)
      rw [(isAbout_ofNames_singleton located).about_of_ne differs, ih others later]
      rfl

end Located

/-- One recipe and no error, or an error and no recipe. -/
def IsVerdict (extraction : Extraction) : Prop :=
  (∃ recipe, extraction.recipes = [recipe]) ∧
      (∀ found ∈ extraction.diagnostics, found.severity ≠ .error) ∨
    extraction.recipes = [] ∧ ∃ found ∈ extraction.diagnostics, found.severity = .error

/-- A draft without a schema leaves an error: of a rule, or else of the conversion. -/
theorem isVerdict_ofDraft : (ofDraft context rules draft).IsVerdict := by
  unfold ofDraft
  dsimp only
  split
  · next grave =>
    obtain ⟨found, member, severe⟩ := List.any_eq_true.1 grave
    exact .inr ⟨rfl, found, member, beq_iff_eq.1 severe⟩
  · next fine =>
    rw [Bool.not_eq_true, List.any_eq_false] at fine
    split
    · next schema _ =>
      refine .inl ⟨⟨schema, rfl⟩, fun found member severe => ?_⟩
      exact fine found member (beq_iff_eq.2 severe)
    · exact .inr ⟨rfl, _, List.mem_append_right _ List.mem_cons_self, rfl⟩

end Extraction

/-- A single candidate that keeps the rules is the only recipe of a pass. -/
theorem Pass.recipes_extraction_singleton {config : Config} {model : HostModel} {graph : TypeGraph}
    {type : HostType} {recipe : RecipeSchema}
    (candidates : (Discovery.scan config model).candidates.recipes = [type.name])
    (found : model.get? type.name = some type)
    (silent : ∀ rule : BuiltinRule, rule.severity = .error →
      rule.complaints ⟨model, graph⟩ (RecipeDraft.ofType type) = [])
    (converted : (RecipeDraft.ofType type).schema ⟨model, graph⟩ = .ok recipe) :
    (extraction config model graph).recipes = [recipe] := by
  have yielded : recipe ∈ (Extraction.ofDraft ⟨model, graph⟩ RecipeRule.all
      (RecipeDraft.ofType type)).recipes :=
    Extraction.mem_recipes_ofDraft_all_iff.2 ⟨silent, converted⟩
  have verdict : (Extraction.ofDraft ⟨model, graph⟩ RecipeRule.all
      (RecipeDraft.ofType type)).IsVerdict := Extraction.isVerdict_ofDraft
  rw [extraction, candidates, Extraction.ofNames_singleton found]
  rcases verdict with ⟨⟨only, single⟩, -⟩ | ⟨none, -⟩
  · rw [single, List.mem_singleton] at yielded
    rw [single, yielded]
  · rw [none] at yielded
    cases yielded

namespace Session

variable {session : Session} {graph : TypeGraph} {rules : List RecipeRule} {names : List String}

/-- Extracting some candidates in a state yields an extraction, whatever the declaration roots
are. -/
def Extracts (session : Session) (rules : List RecipeRule) (names : List String)
    (extraction : Extraction) : Prop :=
  ∀ declarations,
    { session with candidates? := some ⟨declarations, names⟩ }.extract rules =
      .ok { session with
        candidates? := some ⟨declarations, names⟩
        recipes := extraction.recipes
        diagnostics := session.diagnostics ++ extraction.diagnostics }

theorem extracts_ofNames (resolved : session.graph? = some graph) :
    session.Extracts rules names (.ofNames ⟨session.model, graph⟩ rules names) := by
  intro declarations
  exact extract_eq_ok_iff.2 ⟨graph, _, resolved, rfl, rfl⟩

theorem Extracts.unique {first second : Extraction} (yields : session.Extracts rules names first)
    (yields' : session.Extracts rules names second) : first = second := by
  have same := Except.ok.inj ((yields []).symm.trans (yields' []))
  have recipes : first.recipes = second.recipes := congrArg Session.recipes same
  have diagnostics : first.diagnostics = second.diagnostics :=
    List.append_cancel_left (congrArg Session.diagnostics same)
  cases first
  cases second
  rw [Extraction.mk.injEq]
  exact ⟨recipes, diagnostics⟩

end Session

/-- A recipe with one option of some type for each name in a list. -/
def recipeWith (name : String) (type : Signature) (options : List String) : HostType :=
  { Snapshot.plainType with
    name
    annotations := [.ofTexts "Recipe" [("display_name", name), ("description", "Does " ++ name)]]
    members := options.map fun option =>
      { Snapshot.plainMember with
        name := option
        type
        annotations := [.ofTexts "Option" [("example", "x")]] } }

/-- A recipe, one whose option has no type for scripts, and one that declares an option twice. -/
def brokenModel : HostModel where
  types := [recipeWith "R" (.named "String" []) ["a"], recipeWith "S" (.named "Object" []) ["a"],
    recipeWith "T" (.named "String" []) ["a", "a"]]
  distinct := by decide

/-- A state of a pass over the recipes, with an empty type graph. -/
def brokenSession : Session :=
  { Session.start Config.plain brokenModel with graph? := some .empty }

/-- Over a resolved graph, extracting distinct candidates by any rules yields the recipes and the
findings of any two parts of their list, one behind the other.  Each candidate that the model has
yields, alone, one recipe and no error, or no recipe and some error.  When the rules report at the
recipe that they check, this is what it contributes to the whole. -/
theorem recipes_isolated {session : Session} {graph : TypeGraph}
    (resolved : session.graph? = some graph) (rules : List RecipeRule) {front back : List String}
    (distinct : (front ++ back).Nodup) :
    ∃ first second : Extraction, session.Extracts rules front first ∧
      session.Extracts rules back second ∧
      session.Extracts rules (front ++ back) (first.append second) ∧
      ∀ name ∈ front ++ back, ∃ own : Extraction, session.Extracts rules [name] own ∧
        (name ∈ session.model.names → own.IsVerdict) ∧
        ((∀ rule ∈ rules, rule.IsLocated) → (first.append second).about name = own) := by
  have append :
      Extraction.ofNames ⟨session.model, graph⟩ rules (front ++ back) =
        (Extraction.ofNames ⟨session.model, graph⟩ rules front).append
          (Extraction.ofNames ⟨session.model, graph⟩ rules back) :=
    Extraction.ofNames_append front back
  refine ⟨_, _, Session.extracts_ofNames resolved, Session.extracts_ofNames resolved, ?_, ?_⟩
  · rw [← append]
    exact Session.extracts_ofNames resolved
  intro name listed
  refine ⟨_, Session.extracts_ofNames resolved, fun known => ?_, fun located => ?_⟩
  · obtain ⟨type, declared, rfl⟩ := List.mem_map.1 known
    have found : session.model.get? type.name = some type :=
      HostModel.get?_eq_some_iff.2 ⟨declared, rfl⟩
    rw [Extraction.ofNames_singleton found]
    exact Extraction.isVerdict_ofDraft
  · rw [← append]
    exact Extraction.about_ofNames located distinct listed

/-- Without the rule on option types, the first broken recipe is found by the conversion. -/
theorem brokenSession_isolated :
    brokenSession.graph? = some .empty ∧ (["R", "S"] ++ ["T"]).Nodup ∧
    (∀ rule ∈ [BuiltinRule.duplicateOption.rule], rule.IsLocated) ∧
    ∃ first second : Extraction,
      brokenSession.Extracts [BuiltinRule.duplicateOption.rule] ["R", "S"] first ∧
      brokenSession.Extracts [BuiltinRule.duplicateOption.rule] ["T"] second ∧
      (first.append second).recipes.map (·.name) = ["R"] ∧
      (first.append second).diagnostics.map (fun found => (found.location, found.rule)) =
        [(some "S", some "option-type"), (some "T", some "duplicate-option")] ∧
      brokenSession.Extracts [BuiltinRule.duplicateOption.rule] ["R", "S", "T"]
        (first.append second) ∧
      ∀ name ∈ ["R", "S", "T"], ((first.append second).about name).IsVerdict := by
  have resolved : brokenSession.graph? = some .empty := rfl
  have distinct : (["R", "S"] ++ ["T"]).Nodup := by decide
  have located : ∀ rule ∈ [BuiltinRule.duplicateOption.rule], rule.IsLocated := by
    intro rule listed
    rw [List.mem_singleton.1 listed]
    exact BuiltinRule.isLocated_rule _
  obtain ⟨first, second, yields, yields', whole, each⟩ :=
    recipes_isolated resolved [BuiltinRule.duplicateOption.rule] distinct
  obtain rfl := yields.unique (Session.extracts_ofNames resolved)
  obtain rfl := yields'.unique (Session.extracts_ofNames resolved)
  refine ⟨resolved, distinct, located, _, _, yields, yields', rfl, rfl, whole, ?_⟩
  intro name listed
  obtain ⟨own, -, verdict, same⟩ := each name listed
  rw [same located]
  exact verdict listed

end TypeBridge
