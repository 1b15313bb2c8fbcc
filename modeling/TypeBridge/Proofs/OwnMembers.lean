import TypeBridge.Proofs.Discriminants

/-!
# What becomes of the members of a type

A declaration that lists the members of its own type writes each of them or names it in a warning.
Where inherited members are gathered, own members override by key, and they override each other
too: of several own members with one key, such as overloads with the same number of parameters, the
last one is left, and no warning is given for the others.
-/

namespace TypeBridge

namespace MemberSet

variable {set : MemberSet}

def Distinct (set : MemberSet) : Prop :=
  (set.contributions.map (·.member.key)).Nodup

theorem distinct_empty : empty.Distinct :=
  List.nodup_nil

theorem Distinct.keep (distinct : set.Distinct) (new : Contribution) :
    (set.keep new).Distinct := by
  unfold MemberSet.keep
  split
  · next fresh =>
    have notTaken := Search.find?_key_eq_none_iff.1 fresh
    rw [Distinct, List.map_append, List.nodup_append]
    refine ⟨distinct, by simp, ?_⟩
    rintro key taken last isNew rfl
    rw [List.mem_singleton.1 isNew] at taken
    exact notTaken taken
  · split <;> exact distinct

theorem Distinct.absorb (distinct : set.Distinct) (inherited : MemberSet) :
    (set.absorb inherited).Distinct := by
  have through (contributions : List Contribution) : ∀ {set : MemberSet}, set.Distinct →
      (contributions.foldl MemberSet.keep set).Distinct := by
    induction contributions with
    | nil => exact id
    | cons first rest ih => exact fun distinct => ih (distinct.keep first)
  exact through inherited.contributions distinct

theorem keys_place (new : Contribution) (contributions : List Contribution) :
    (place new contributions).map (·.member.key) =
      if new.member.key ∈ contributions.map (·.member.key) then
        contributions.map (·.member.key)
      else contributions.map (·.member.key) ++ [new.member.key] := by
  induction contributions with
  | nil => simp [place]
  | cons old rest ih =>
    unfold place
    by_cases same : old.member.key = new.member.key
    · simp [same]
    · simp only [same, if_false, List.map_cons, ih, List.mem_cons, Ne.symm same, false_or]
      split <;> simp

theorem nodup_place (new : Contribution) {contributions : List Contribution}
    (distinct : (contributions.map (·.member.key)).Nodup) :
    ((place new contributions).map (·.member.key)).Nodup := by
  rw [keys_place]
  split
  · exact distinct
  · next fresh =>
    rw [List.nodup_append]
    refine ⟨distinct, by simp, ?_⟩
    rintro key taken last isNew rfl
    rw [List.mem_singleton.1 isNew] at taken
    exact fresh taken

theorem find?_place (new : Contribution) (contributions : List Contribution) (key : String) :
    (place new contributions).find? (·.member.key == key) =
      if new.member.key = key then some new else contributions.find? (·.member.key == key) := by
  induction contributions with
  | nil => by_cases found : new.member.key = key <;> simp [place, found]
  | cons old rest ih =>
    unfold place
    by_cases same : old.member.key = new.member.key
    · by_cases found : new.member.key = key <;> simp [same, found]
    · rw [if_neg same, List.find?_cons, List.find?_cons, ih]
      by_cases found : new.member.key = key
      · have other : old.member.key ≠ key := found ▸ same
        rw [if_pos found, if_pos found, beq_eq_false_iff_ne.2 other]
      · rw [if_neg found, if_neg found]

/-- An override keeps keys distinct, and a key finds the last overriding member that has it. -/
theorem Distinct.override (distinct : set.Distinct) (origin : String) (members : List Member) :
    (set.override origin members).Distinct ∧
      ∀ key, (set.override origin members).find? key =
        ((members.reverse.find? (·.key == key)).map (⟨·, origin⟩)).or (set.find? key) := by
  obtain ⟨contributions, conflicts⟩ := set
  simp only [MemberSet.override, Distinct, MemberSet.find?] at distinct ⊢
  induction members generalizing contributions with
  | nil => exact ⟨distinct, fun _ => rfl⟩
  | cons first rest ih =>
    obtain ⟨distinct', found⟩ :=
      ih (place ⟨first, origin⟩ contributions) (nodup_place ⟨first, origin⟩ distinct)
    refine ⟨distinct', fun key => (found key).trans ?_⟩
    rw [find?_place, List.reverse_cons, List.find?_append]
    cases rest.reverse.find? (·.key == key) with
    | some last => rfl
    | none => by_cases same : first.key = key <;> simp [same]

end MemberSet

namespace Member

variable {member other : Member}

/-- What is written of a member says what it is told apart by. -/
theorem of_syntaxOf_eq (same : member.entry.syntaxOf = other.entry.syntaxOf) :
    member.name = other.name ∧ member.isMethod = other.isMethod ∧ member.key = other.key := by
  obtain ⟨name, kind, type, nullable, optional, doc⟩ := member
  obtain ⟨name', kind', type', nullable', optional', doc'⟩ := other
  cases kind with
  | field =>
    cases kind' with
    | field =>
      simp only [entry, Entry.syntaxOf, Script.DocumentedMember.mk.injEq,
        Script.MemberSyntax.property.injEq] at same
      exact ⟨same.2.2.1, rfl, same.2.2.1⟩
    | method parameters generics => simp [entry, Entry.syntaxOf] at same
  | method parameters generics =>
    cases kind' with
    | field => simp [entry, Entry.syntaxOf] at same
    | method parameters' generics' =>
      simp only [entry, Entry.syntaxOf, Script.DocumentedMember.mk.injEq,
        Script.MemberSyntax.method.injEq] at same
      have length : parameters.length = parameters'.length := by
        simpa using congrArg List.length same.2.2.2.2.1
      refine ⟨same.2.1, rfl, ?_⟩
      simp only [key, same.2.1, length]

end Member

/-- A warning names a member.  Conflicts are about inherited members. -/
def Omission.Names (omission : Omission) (member : Member) : Prop :=
  match omission with
  | .conflict _ => False
  | .discriminantClash name => member.name = name
  | .fieldClash name => member.isMethod = false ∧ member.name = name

theorem Omission.Names.of_eq {omission : Omission} {source member : Member}
    (names : omission.Names source) (name : source.name = member.name)
    (kind : source.isMethod = member.isMethod) : omission.Names member := by
  cases omission with
  | conflict conflict => exact names
  | discriminantClash clash => exact name.symm.trans names
  | fieldClash clash => exact ⟨kind.symm.trans names.1, name.symm.trans names.2⟩

/-- The member of a node that overrides the others with its key. -/
def Node.lastOf? (node : Node) (key : String) : Option Member :=
  node.members.reverse.find? (·.key == key)

namespace TypeGraph

variable {graph : TypeGraph} {config : EmitConfig} {node : Node} {member : Member}

/-- The declaration of a node gathers inherited members: all of them, or those of closed types. -/
def Gathers (graph : TypeGraph) (config : EmitConfig) (node : Node) : Prop :=
  config.supertypes = .flattened ∨ graph.ExtendsClosed node

def Writes (graph : TypeGraph) (config : EmitConfig) (node : Node) (member : Member) : Prop :=
  member.entry.syntaxOf ∈ (graph.statement config node).members

def WarnsAbout (graph : TypeGraph) (config : EmitConfig) (node : Node) (member : Member) : Prop :=
  ∃ omission ∈ (graph.draw config node).2, omission.Names member

/-- Where inherited members are gathered, the last own member with the key of a member is written
like that member. -/
def Keeps (graph : TypeGraph) (config : EmitConfig) (node : Node) (member : Member) : Prop :=
  graph.Gathers config node →
    (node.lastOf? member.key).map (·.entry.syntaxOf) = some member.entry.syntaxOf

section Sources

theorem distinct_inherit {available : List String} {entries : List (Node × Bindings)}
    {set : MemberSet} (distinct : set.Distinct) :
    (graph.inherit available entries set).Distinct := by
  induction available, entries, set using TypeGraph.inherit.induct graph with
  | case1 available set => rwa [TypeGraph.inherit]
  | case2 available parent bindings rest set entered above whole _ ih =>
    have wholeEq : whole =
        above.override parent.name (parent.members.map (·.substitute bindings)) := by
      simp [whole]
    rw [wholeEq] at ih
    rw [TypeGraph.inherit, dif_pos entered]
    exact ih (distinct.absorb _)
  | case3 available parent bindings rest set notEntered ih =>
    rw [TypeGraph.inherit, dif_neg notEntered]
    exact ih distinct

theorem exists_override_of_gathers (gathers : graph.Gathers config node) :
    ∃ inherited : MemberSet, inherited.Distinct ∧
      graph.sourceMembers config.supertypes node = inherited.override node.name node.members := by
  unfold sourceMembers
  by_cases flat : config.supertypes = .flattened
  · rw [if_pos flat]
    exact ⟨_, distinct_inherit MemberSet.distinct_empty, rfl⟩
  · rw [if_neg flat, if_pos (isVariant_iff.2 (gathers.resolve_left flat))]
    exact ⟨_, distinct_inherit MemberSet.distinct_empty, rfl⟩

theorem members_of_not_gathers (plain : ¬ graph.Gathers config node) :
    (graph.sourceMembers config.supertypes node).members = node.members := by
  rw [Gathers, not_or, ← isVariant_iff] at plain
  rw [sourceMembers, if_neg plain.1, if_neg plain.2, MemberSet.members, List.map_map]
  exact List.map_id _

/-- Among the members that a declaration starts from, an own member is written alike exactly when it
is kept. -/
theorem exists_source_iff (own : member ∈ node.members) :
    (∃ source ∈ (graph.sourceMembers config.supertypes node).members,
      source.entry.syntaxOf = member.entry.syntaxOf) ↔ graph.Keeps config node member := by
  by_cases gathers : graph.Gathers config node
  · obtain ⟨inherited, distinct, sources⟩ := exists_override_of_gathers gathers
    obtain ⟨distinct, found⟩ := distinct.override node.name node.members
    -- some own member has the key, and the last one that has it is all that the key finds
    obtain ⟨last, isLast⟩ : ∃ last, node.lastOf? member.key = some last := by
      refine Option.isSome_iff_exists.1 (List.find?_isSome.2 ⟨member, ?_, beq_self_eq_true _⟩)
      exact List.mem_reverse.2 own
    have finds : (inherited.override node.name node.members).find? member.key =
        some ⟨last, node.name⟩ := by
      rw [found, show node.members.reverse.find? (·.key == member.key) = some last from isLast]
      rfl
    simp only [Keeps, gathers, true_implies, isLast, Option.map_some, Option.some.injEq, sources]
    constructor
    · rintro ⟨source, listed, same⟩
      obtain ⟨contribution, known, rfl⟩ := List.mem_map.1 listed
      have foundToo := (Search.find?_key_eq_some_iff distinct).2
        ⟨known, (Member.of_syntaxOf_eq same).2.2⟩
      obtain rfl := Option.some.inj (finds.symm.trans foundToo)
      exact same
    · intro same
      have known := ((Search.find?_key_eq_some_iff distinct).1 finds).1
      exact ⟨last, List.mem_map_of_mem known, same⟩
  · rw [members_of_not_gathers gathers]
    exact ⟨fun _ gathers' => absurd gathers' gathers, fun _ => ⟨member, own, rfl⟩⟩

end Sources

section Omissions

variable {members : List Member}

theorem mem_withoutDiscriminant_or (name : String) (listed : member ∈ members) :
    member ∈ (withoutDiscriminant name members).1 ∨
      ∃ omission ∈ (withoutDiscriminant name members).2, omission.Names member := by
  unfold withoutDiscriminant
  split
  · by_cases same : member.name = name
    · exact .inr ⟨.discriminantClash name, List.mem_singleton_self _, same⟩
    · exact .inl (List.mem_filter.2 ⟨listed, bne_iff_ne.2 same⟩)
  · exact .inl listed

theorem mem_withoutFieldClashes_or (listed : member ∈ members) :
    member ∈ (withoutFieldClashes members).1 ∨
      ∃ omission ∈ (withoutFieldClashes members).2, omission.Names member := by
  unfold withoutFieldClashes
  by_cases clashes : (!member.isMethod &&
      members.any fun other => other.isMethod && other.name == member.name) = true
  · have isField : member.isMethod = false := by
      simpa using (Bool.and_eq_true_iff.1 clashes).1
    exact .inr ⟨.fieldClash member.name,
      List.mem_map.2 ⟨member, List.mem_filter.2 ⟨listed, clashes⟩, rfl⟩, isField, rfl⟩
  · rw [Bool.not_eq_true] at clashes
    exact .inl (List.mem_filter.2 ⟨listed, by dsimp only; rw [clashes]; rfl⟩)

/-- The members of a node that its declaration starts from, without those that have the name of the
discriminant of a variant, and what is left out. -/
def shown (graph : TypeGraph) (config : EmitConfig) (node : Node) : List Member × List Omission :=
  let source := graph.sourceMembers config.supertypes node
  if graph.isVariant node then withoutDiscriminant config.discriminant source.members
  else (source.members, [])

theorem members_drawObject (graph : TypeGraph) (config : EmitConfig) (node : Node) : ∃ generics intersected parents,
    (graph.drawObject config node).1 = .object generics intersected parents
      ((if graph.isVariant node then
          [Entry.discriminant config.discriminant (Name.spelled node.name)] else []) ++
        (withoutFieldClashes (graph.shown config node).1).1.map (·.entry)) :=
  ⟨_, _, _, rfl⟩

theorem omissions_drawObject : (graph.drawObject config node).2 =
    (graph.sourceMembers config.supertypes node).conflicts.map .conflict ++
      (graph.shown config node).2 ++ (withoutFieldClashes (graph.shown config node).1).2 :=
  rfl

/-- Each member that an object type starts from is among its members or named in a warning. -/
theorem exists_members_statement (graph : TypeGraph) (config : EmitConfig)
    (notEnum : node.isEnum = false) (isOpen : node.isClosed = false) :
    ∃ members : List Member, graph.ListsMembers config node members ∧
      (∀ member ∈ members, member ∈ (graph.sourceMembers config.supertypes node).members) ∧
      ∀ source ∈ (graph.sourceMembers config.supertypes node).members,
        source ∈ members ∨ graph.WarnsAbout config node source := by
  have drawn : graph.draw config node = graph.drawObject config node := by
    rw [draw, notEnum, isOpen]
    rfl
  obtain ⟨generics, intersected, parents, object⟩ := graph.members_drawObject config node
  refine ⟨(withoutFieldClashes (graph.shown config node).1).1,
    listsMembers_of_statement notEnum isOpen ?_, ?_, ?_⟩
  · rw [statement, drawn, object, Shape.members_statement_object, List.map_append, List.map_map]
    split <;> rfl
  · intro member kept
    have listed := (List.mem_filter.1 kept).1
    unfold shown at listed
    dsimp only at listed
    split at listed
    · exact mem_withoutDiscriminant listed
    · exact listed
  · intro source listed
    have remains : source ∈ (graph.shown config node).1 ∨
        ∃ omission ∈ (graph.shown config node).2, omission.Names source := by
      unfold shown
      dsimp only
      split
      · exact mem_withoutDiscriminant_or config.discriminant listed
      · exact .inl listed
    simp only [WarnsAbout, drawn, omissions_drawObject, List.mem_append]
    rcases remains with visible | ⟨omission, hidden, names⟩
    · refine (mem_withoutFieldClashes_or visible).imp_right ?_
      rintro ⟨omission, clashes, names⟩
      exact ⟨omission, .inr clashes, names⟩
    · exact .inr ⟨omission, .inl (.inr hidden), names⟩

end Omissions

theorem keeps_of_writes (notEnum : node.isEnum = false) (isOpen : node.isClosed = false)
    (own : member ∈ node.members) (writes : graph.Writes config node member) :
    graph.Keeps config node member := by
  obtain ⟨members, lists, sources, -⟩ := graph.exists_members_statement config notEnum isOpen
  rw [Writes, lists.statement] at writes
  rcases List.mem_append.1 writes with first | listed
  · -- the discriminant is read-only, and no member is
    split at first
    · have same := List.mem_singleton.1 first
      have plain := member.isReadonly_entry
      rw [same, node.isReadonly_discriminant] at plain
      cases plain
    · cases first
  · obtain ⟨source, kept, same⟩ := List.mem_map.1 listed
    exact (exists_source_iff own).1 ⟨source, sources source kept, same⟩

theorem writes_or_warnsAbout_of_keeps (notEnum : node.isEnum = false)
    (isOpen : node.isClosed = false) (own : member ∈ node.members)
    (keeps : graph.Keeps config node member) :
    graph.Writes config node member ∨ graph.WarnsAbout config node member := by
  obtain ⟨members, lists, -, remains⟩ := graph.exists_members_statement config notEnum isOpen
  obtain ⟨source, listed, same⟩ := (exists_source_iff own).2 keeps
  rcases remains source listed with kept | ⟨omission, warned, names⟩
  · refine .inl ?_
    rw [Writes, lists.statement, ← same]
    exact List.mem_append_right _ (List.mem_map_of_mem kept)
  · obtain ⟨name, kind, -⟩ := Member.of_syntaxOf_eq same
    exact .inr ⟨omission, warned, names.of_eq name kind⟩

theorem warnings_of_declare {group : Nat} {declared : Declaration × List Diagnostic}
    (succeeds : graph.declare config group node = .ok declared) :
    declared.2 = (graph.draw config node).2.map (·.diagnostic node.name) := by
  unfold declare at succeeds
  dsimp only at succeeds
  split at succeeds
  · cases succeeds
  · cases succeeds
    rfl

/-- The own members of a type that is declared as an object type, with a line for each member that is
written.  A member that is written is kept, and a kept one is written or named in a warning at the
type; so an own member is lost without a warning exactly when inherited members are gathered, the
last own member with its key is written otherwise, and no warning happens to name it. -/
theorem own_members_kept (graph : TypeGraph) (config : EmitConfig)
    (notEnum : node.isEnum = false) (isOpen : node.isClosed = false) :
    (∀ group declared, graph.declare config group node = .ok declared →
      declared.1.text = graph.text config node ∧
      (∃ members : List Member, graph.ListsMembers config node members) ∧
      declared.2 = (graph.draw config node).2.map (·.diagnostic node.name)) ∧
    ∀ member ∈ node.members,
      (graph.Writes config node member → graph.Keeps config node member) ∧
      (graph.Keeps config node member →
        graph.Writes config node member ∨ graph.WarnsAbout config node member) :=
  ⟨fun _ _ succeeds => ⟨(text_of_declare succeeds).2, exists_listsMembers graph config notEnum isOpen,
    warnings_of_declare succeeds⟩,
    fun _ own => ⟨keeps_of_writes notEnum isOpen own,
      writes_or_warnsAbout_of_keeps notEnum isOpen own⟩⟩

/-- A method with one parameter. -/
def unary (type : Primitive) : Member where
  name := "f"
  kind := .method [⟨"x", .primitive type, false⟩] []
  type := .primitive .void
  nullable := false
  optional := false
  doc := none

/-- A type with two methods that have one name and one parameter. -/
def overloaded : Node where
  name := "A"
  kind := .interface
  doc := none
  generics := []
  members := [unary .number, unary .string]
  supertypes := []
  nested := []
  variants := []
  constants := []
  index := 0

def overloads : TypeGraph :=
  ⟨[overloaded], by simp⟩

/-- Both methods are written where members are listed as they stand. -/
theorem overloads_kept :
    overloaded.isEnum = false ∧ overloaded.isClosed = false ∧
      ∀ member ∈ overloaded.members, overloads.Writes Config.plainEmit overloaded member := by
  have notEnum : overloaded.isEnum = false := rfl
  have isOpen : overloaded.isClosed = false := rfl
  have kept := (own_members_kept overloads Config.plainEmit notEnum isOpen).2
  have silent : (overloads.draw Config.plainEmit overloaded).2 = [] := by cbv
  refine ⟨notEnum, isOpen, fun member own => ?_⟩
  refine ((kept member own).2 ?_).resolve_right ?_
  · rintro (flat | closed)
    · cases flat
    · have variant := isVariant_iff.2 closed
      have plain : overloads.isVariant overloaded = false := by cbv
      rw [plain] at variant
      cases variant
  · rintro ⟨omission, warned, -⟩
    rw [silent] at warned
    cases warned

/-- The first method is lost in flattened declarations: it is not written, and there is no
warning. -/
theorem overloads_flattened_lost :
    overloaded.isEnum = false ∧ overloaded.isClosed = false ∧ unary .number ∈ overloaded.members ∧
      ¬ overloads.Writes { Config.plainEmit with supertypes := .flattened } overloaded
        (unary .number) ∧
      ¬ overloads.WarnsAbout { Config.plainEmit with supertypes := .flattened } overloaded
        (unary .number) := by
  have written : (overloads.statement { Config.plainEmit with supertypes := .flattened }
      overloaded).members = [⟨none, .method "f" false [] [⟨"x", "string"⟩] "void"⟩] := by
    cbv
  have silent : (overloads.draw { Config.plainEmit with supertypes := .flattened }
      overloaded).2 = [] := by
    cbv
  refine ⟨rfl, rfl, List.mem_cons_self, ?_, ?_⟩
  · rw [Writes, written]
    decide
  · rintro ⟨omission, warned, -⟩
    rw [silent] at warned
    cases warned

end TypeGraph

end TypeBridge
