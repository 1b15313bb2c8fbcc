import TypeBridge.Proofs.ArtifactNames
import TypeBridge.Proofs.BracketedTexts

/-!
# Types as text

What is lost when a type is spelled are its wildcards and repeated options.  Everything else can be
read off the text, as long as the words for declared types, type variables, collections and
primitive types are told apart.
-/

namespace TypeBridge

namespace Name

theorem notMem_marks {c : Char} (part : isPart c = true) : c ∉ Text.marks := by
  intro mark
  simp only [Text.marks, List.mem_cons, List.not_mem_nil, or_false] at mark
  rcases mark with rfl | rfl | rfl | rfl | rfl | rfl | rfl | rfl <;> exact absurd part (by decide)

/-- A faultless name is spelled with the characters of identifiers and dots. -/
theorem isWord_spelled {name : String} (faultless : fault? name = none) :
    Text.IsWord (spelled name).toList := by
  intro c inside
  rw [spelled, String.toList_intercalate] at inside
  rcases Text.mem_intercalate_iff.1 inside with ⟨rfl, -⟩ | ⟨word, listed, inWord⟩
  · decide
  · obtain ⟨segment, path, rfl⟩ := List.mem_map.1 listed
    obtain ⟨piece, split, rfl⟩ := List.mem_map.1 path
    rw [String.toList_ofList] at inWord
    rw [List.splitOn_eq_splitOnP] at split
    obtain ⟨last, noDollar⟩ := Text.mem_splitOnP_iff.1 ⟨piece, split, inWord⟩
    have known : c ∈ name.toList :=
      List.mem_reverse.1 (List.takeWhile_sublist _ |>.subset (List.mem_reverse.1 last))
    by_cases dot : c = '.'
    · exact dot ▸ by decide
    · exact notMem_marks (isPart_of_fault? faultless known (by simp [dot, noDollar]))

theorem isWord_of_identifier {name : String} (faultless : identifierFault? name.toList = none) :
    Text.IsWord name.toList :=
  fun _ inside => notMem_marks (isPart_of_identifierFault? faultless inside)

end Name

/-- The types that every declaration knows, by their words. -/
def builtins : List (String × ResolvedType) :=
  [("boolean", .primitive .boolean), ("number", .primitive .number),
    ("string", .primitive .string), ("void", .primitive .void), ("unknown", .unknown)]

def builtinWords : List String :=
  builtins.map (·.1)

theorem Primitive.isWord_word (which : Primitive) : Text.IsWord which.word.toList := by
  cases which <;> decide

theorem isWord_unknown : Text.IsWord "unknown".toList := by
  decide

theorem isWord_collections : Text.IsWord "Set".toList ∧ Text.IsWord "Map".toList := by
  decide

namespace Script

theorem orNull_eq (type : String) : orNull type = type ∧ " | null".toList <:+ type.toList ∨
    orNull type = type ++ " | null" ∧ ¬ " | null".toList <:+ type.toList := by
  unfold orNull
  split <;> simp_all [List.isSuffixOf_iff_suffix]

theorem suffix_orNull (type : String) : " | null".toList <:+ (orNull type).toList := by
  rcases orNull_eq type with ⟨same, ends⟩ | ⟨same, -⟩
  · rwa [same]
  · rw [same, String.toList_append]
    exact List.suffix_append _ _

/-- Nothing can be made nullable twice. -/
theorem orNull_orNull (type : String) : orNull (orNull type) = orNull type := by
  rcases orNull_eq (orNull type) with ⟨same, -⟩ | ⟨-, lacks⟩
  · exact same
  · exact absurd (suffix_orNull type) lacks

theorem enclosed_orNull {type : String} (enclosed : Text.Enclosed type.toList) :
    Text.Enclosed (orNull type).toList := by
  have null : Text.Enclosed " | null".toList := fun depth => by simp [Text.depthAfter?]
  rcases orNull_eq type with ⟨same, -⟩ | ⟨same, -⟩
  · rwa [same]
  · rw [same, String.toList_append]
    exact enclosed.append null

theorem enclosed_arrayOf {element : String} (enclosed : Text.Enclosed element.toList) :
    Text.Enclosed (arrayOf element).toList := by
  have brackets : Text.Enclosed ['[', ']'] := fun depth => by simp [Text.depthAfter?]
  unfold arrayOf
  split
  · simpa using (enclosed.inside.bracketed (.inr rfl) (.inr rfl)).append brackets
  · simpa using enclosed.append brackets

theorem enclosed_angled {args : List String} (enclosed : ∀ arg ∈ args, Text.Enclosed arg.toList) :
    Text.Enclosed (angled args).toList := by
  cases args with
  | nil => exact fun _ => rfl
  | cons arg args =>
    rw [toList_angled_cons]
    exact (Text.inside_listed (List.forall_mem_map.2 enclosed)).bracketed (.inl rfl) (.inl rfl)

end Script

namespace ResolvedType

mutual

/-- A type without its wildcards, in which nothing is optional twice over. -/
def erasure : ResolvedType → ResolvedType
  | primitive which => primitive which
  | named name args => named name (erasureOfAll args)
  | var name => var name
  | array element => array element.erasure
  | set element => set element.erasure
  | map key value => map key.erasure value.erasure
  | optional inner =>
    match inner.erasure with
    | optional deeper => optional deeper
    | type => optional type
  | anyBelow bound => bound.erasure
  | anything | anyAbove _ | unknown => unknown

def erasureOfAll : List ResolvedType → List ResolvedType
  | [] => []
  | type :: rest => type.erasure :: erasureOfAll rest

end

/-- The text of a type in a declaration. -/
def text (type : ResolvedType) : String :=
  type.spell.text

def isOptional : ResolvedType → Bool
  | optional _ => true
  | _ => false

mutual

/-- A type without wildcards, in which nothing is optional twice over. -/
def IsErased : ResolvedType → Prop
  | primitive _ | var _ | unknown => True
  | named _ args => AreErased args
  | array element | set element => element.IsErased
  | map key value => key.IsErased ∧ value.IsErased
  | optional inner => inner.IsErased ∧ inner.isOptional = false
  | anything | anyBelow _ | anyAbove _ => False

def AreErased : List ResolvedType → Prop
  | [] => True
  | type :: rest => type.IsErased ∧ AreErased rest

end

theorem text_named (name : String) (args : List ResolvedType) :
    (named name args).text = Name.spelled name ++ Script.angled (args.map (·.text)) := by
  have texts : Spelling.texts (spellAll args) = args.map (·.text) := by
    induction args with
    | nil => rfl
    | cons arg args ih => simp [spellAll, Spelling.texts, ih, text]
  rw [text, spell, Spelling.text, texts]

theorem text_named_nil (name : String) : (named name []).text = Name.spelled name := by
  simp [text_named, Script.angled]

theorem text_array (element : ResolvedType) :
    (array element).text = Script.arrayOf element.text := by
  simp [text, spell, Spelling.text]

theorem text_set (element : ResolvedType) :
    (set element).text = "Set" ++ Script.angled [element.text] := by
  simp [text, spell, Spelling.text, Script.angled, ← String.append_assoc]

theorem text_map (key value : ResolvedType) :
    (map key value).text = "Map" ++ Script.angled [key.text, value.text] := by
  simp [text, spell, Spelling.text, Script.angled, ← String.append_assoc]

theorem text_optional (inner : ResolvedType) :
    (optional inner).text = Script.orNull inner.text := by
  simp [text, spell, Spelling.text]

mutual

theorem text_erasure : ∀ type : ResolvedType, type.erasure.text = type.text
  | primitive _ | var _ | unknown | anything | anyAbove _ => rfl
  | named name args => by rw [erasure, text_named, text_named, map_text_erasureOfAll args]
  | array element => by rw [erasure, text_array, text_array, text_erasure element]
  | set element => by rw [erasure, text_set, text_set, text_erasure element]
  | map key value => by
    rw [erasure, text_map, text_map, text_erasure key, text_erasure value]
  | optional inner => by
    have same := text_erasure inner
    rw [erasure, text_optional]
    split
    · next deeper nullable =>
      rw [← same, nullable, text_optional, Script.orNull_orNull]
    · rw [text_optional, same]
  | anyBelow bound => text_erasure bound

theorem map_text_erasureOfAll : ∀ types : List ResolvedType,
    (erasureOfAll types).map (·.text) = types.map (·.text)
  | [] => rfl
  | type :: rest => by
    rw [erasureOfAll, List.map_cons, List.map_cons, text_erasure type, map_text_erasureOfAll rest]

end

mutual

theorem isErased_erasure : ∀ type : ResolvedType, type.erasure.IsErased
  | primitive _ | var _ | unknown | anything | anyAbove _ => trivial
  | named _ args => areErased_erasureOfAll args
  | array element => isErased_erasure element
  | set element => isErased_erasure element
  | map key value => ⟨isErased_erasure key, isErased_erasure value⟩
  | optional inner => by
    have erased := isErased_erasure inner
    rw [erasure]
    split
    · next deeper nullable => exact nullable ▸ erased
    · next plain =>
      refine ⟨erased, ?_⟩
      cases known : inner.erasure with
      | optional deeper => exact absurd known (plain deeper)
      | _ => rfl
  | anyBelow bound => isErased_erasure bound

theorem areErased_erasureOfAll : ∀ types : List ResolvedType, AreErased (erasureOfAll types)
  | [] => trivial
  | type :: rest => ⟨isErased_erasure type, areErased_erasureOfAll rest⟩

end

/-- A type over a graph.  Its declared types are types of the graph, and its type variables are
neither declared nor built in; all their names are identifiers. -/
structure IsOver (graph : TypeGraph) (type : ResolvedType) : Prop where
  known : ∀ name ∈ type.names, name ∈ graph.names ∧ Name.fault? name = none
  free : ∀ name ∈ type.vars, Name.identifierFault? name.toList = none ∧
    name ∉ graph.names.map Name.spelled ∧ name ∉ builtinWords

section IsOver

variable {graph : TypeGraph} {type : ResolvedType}

theorem isOver_named_iff {name : String} {args : List ResolvedType} :
    (named name args).IsOver graph ↔
      (name ∈ graph.names ∧ Name.fault? name = none) ∧ ∀ arg ∈ args, arg.IsOver graph := by
  constructor
  · intro isOver
    exact ⟨isOver.known name List.mem_cons_self, fun arg listed =>
      ⟨fun _ inside => isOver.known _
          (List.mem_cons_of_mem _ (mem_namesOfAll_iff.2 ⟨arg, listed, inside⟩)),
        fun _ inside => isOver.free _ (mem_varsOfAll_iff.2 ⟨arg, listed, inside⟩)⟩⟩
  · rintro ⟨known, isOver⟩
    refine ⟨List.forall_mem_cons.2 ⟨known, fun _ inside => ?_⟩, fun _ inside => ?_⟩
    · obtain ⟨arg, listed, inside⟩ := mem_namesOfAll_iff.1 inside
      exact (isOver arg listed).known _ inside
    · obtain ⟨arg, listed, inside⟩ := mem_varsOfAll_iff.1 inside
      exact (isOver arg listed).free _ inside

theorem isOver_map_iff {key value : ResolvedType} :
    (map key value).IsOver graph ↔ key.IsOver graph ∧ value.IsOver graph := by
  constructor
  · intro isOver
    exact ⟨⟨fun _ inside => isOver.known _ (List.mem_append_left _ inside),
        fun _ inside => isOver.free _ (List.mem_append_left _ inside)⟩,
      ⟨fun _ inside => isOver.known _ (List.mem_append_right _ inside),
        fun _ inside => isOver.free _ (List.mem_append_right _ inside)⟩⟩
  · rintro ⟨ofKey, ofValue⟩
    exact ⟨List.forall_mem_append.2 ⟨ofKey.known, ofValue.known⟩,
      List.forall_mem_append.2 ⟨ofKey.free, ofValue.free⟩⟩

theorem isOver_unknown : unknown.IsOver graph :=
  ⟨List.forall_mem_nil _, List.forall_mem_nil _⟩

theorem IsOver.mem_names {name : String} {args : List ResolvedType}
    (isOver : (named name args).IsOver graph) : name ∈ graph.names :=
  (isOver_named_iff.1 isOver).1.1

theorem IsOver.isWord_spelled {name : String} {args : List ResolvedType}
    (isOver : (named name args).IsOver graph) : Text.IsWord (Name.spelled name).toList :=
  Name.isWord_spelled (isOver_named_iff.1 isOver).1.2

theorem IsOver.isWord_var {name : String} (isOver : (var name).IsOver graph) :
    Text.IsWord name.toList :=
  Name.isWord_of_identifier (isOver.free name (List.mem_singleton_self name)).1

mutual

theorem isOver_erasure : ∀ type : ResolvedType, type.IsOver graph → type.erasure.IsOver graph
  | primitive _, isOver | var _, isOver => isOver
  | unknown, _ | anything, _ | anyAbove _, _ => isOver_unknown
  | named _ args, isOver => by
    obtain ⟨known, within⟩ := isOver_named_iff.1 isOver
    exact isOver_named_iff.2 ⟨known, isOver_of_mem_erasureOfAll args within⟩
  | array element, isOver =>
    have within := isOver_erasure element ⟨isOver.known, isOver.free⟩
    ⟨within.known, within.free⟩
  | set element, isOver =>
    have within := isOver_erasure element ⟨isOver.known, isOver.free⟩
    ⟨within.known, within.free⟩
  | map key value, isOver => by
    obtain ⟨ofKey, ofValue⟩ := isOver_map_iff.1 isOver
    exact isOver_map_iff.2 ⟨isOver_erasure key ofKey, isOver_erasure value ofValue⟩
  | optional inner, isOver => by
    have within := isOver_erasure inner ⟨isOver.known, isOver.free⟩
    rw [erasure]
    split
    · next deeper nullable => exact nullable ▸ within
    · exact ⟨within.known, within.free⟩
  | anyBelow bound, isOver => isOver_erasure bound ⟨isOver.known, isOver.free⟩

theorem isOver_of_mem_erasureOfAll : ∀ types : List ResolvedType,
    (∀ type ∈ types, type.IsOver graph) → ∀ type ∈ erasureOfAll types, type.IsOver graph
  | [], _ => List.forall_mem_nil _
  | type :: rest, isOver => by
    obtain ⟨first, others⟩ := List.forall_mem_cons.1 isOver
    exact List.forall_mem_cons.2
      ⟨isOver_erasure type first, isOver_of_mem_erasureOfAll rest others⟩

end

mutual

/-- The text of a type closes its own brackets, and has its commas inside of them. -/
theorem enclosed_text : ∀ type : ResolvedType, type.IsOver graph → Text.Enclosed type.text.toList
  | primitive which, _ => which.isWord_word.enclosed
  | unknown, _ | anything, _ | anyAbove _, _ => isWord_unknown.enclosed
  | var _, isOver => isOver.isWord_var.enclosed
  | named name args, isOver => by
    rw [text_named, String.toList_append]
    exact isOver.isWord_spelled.enclosed.append
      (Script.enclosed_angled (enclosed_texts args (isOver_named_iff.1 isOver).2))
  | array element, isOver => by
    rw [text_array]
    exact Script.enclosed_arrayOf (enclosed_text element ⟨isOver.known, isOver.free⟩)
  | set element, isOver => by
    rw [text_set, String.toList_append]
    exact isWord_collections.1.enclosed.append (Script.enclosed_angled
      (List.forall_mem_singleton.2 (enclosed_text element ⟨isOver.known, isOver.free⟩)))
  | map key value, isOver => by
    obtain ⟨ofKey, ofValue⟩ := isOver_map_iff.1 isOver
    rw [text_map, String.toList_append]
    exact isWord_collections.2.enclosed.append (Script.enclosed_angled (List.forall_mem_cons.2
      ⟨enclosed_text key ofKey, List.forall_mem_singleton.2 (enclosed_text value ofValue)⟩))
  | optional inner, isOver => by
    rw [text_optional]
    exact Script.enclosed_orNull (enclosed_text inner ⟨isOver.known, isOver.free⟩)
  | anyBelow bound, isOver => enclosed_text bound ⟨isOver.known, isOver.free⟩

theorem enclosed_texts : ∀ types : List ResolvedType, (∀ type ∈ types, type.IsOver graph) →
    ∀ text ∈ types.map (·.text), Text.Enclosed text.toList
  | [], _ => List.forall_mem_nil _
  | type :: rest, isOver => by
    obtain ⟨first, others⟩ := List.forall_mem_cons.1 isOver
    exact List.forall_mem_cons.2 ⟨enclosed_text type first, enclosed_texts rest others⟩

end

end IsOver

/-- How the text of a type is put together. -/
inductive Form where
  | word
  | applied
  | array
  | nullable

/-- Words have no marks, and the other texts are told apart by their ends. -/
def Form.ofText (text : List Char) : Form :=
  match text.getLast? with
  | some '>' => applied
  | some ']' => array
  | _ => if ' ' ∈ text then nullable else word

theorem Form.ofText_word {text : List Char} (isWord : Text.IsWord text) :
    ofText text = word := by
  have blank : ' ' ∉ text := fun inside => isWord _ inside (by decide)
  unfold ofText
  split
  · next last => exact absurd (by decide) (isWord _ (List.mem_of_getLast? last))
  · next last => exact absurd (by decide) (isWord _ (List.mem_of_getLast? last))
  · exact if_neg blank

theorem Form.ofText_applied {text : List Char} (last : text.getLast? = some '>') :
    ofText text = applied := by
  simp [ofText, last]

theorem Form.ofText_array {text : List Char} (last : text.getLast? = some ']') :
    ofText text = array := by
  simp [ofText, last]

theorem Form.ofText_nullable {text : List Char} (ends : " | null".toList <:+ text) :
    ofText text = nullable := by
  obtain ⟨front, rfl⟩ := ends
  simp [ofText]

def form : ResolvedType → Form
  | named _ (_ :: _) | set _ | map _ _ => .applied
  | array _ => .array
  | optional _ => .nullable
  | primitive _ | named _ [] | var _ | anything | anyBelow _ | anyAbove _ | unknown => .word

/-- A head with arguments. -/
theorem ofText_angled (head arg : String) (args : List String) :
    Form.ofText (head ++ Script.angled (arg :: args)).toList = .applied := by
  rw [String.toList_append, Script.toList_angled_cons]
  exact Form.ofText_applied (by simp [List.getLast?_cons])

/-- The text of a type shows its form. -/
theorem ofText_text {graph : TypeGraph} : ∀ {type : ResolvedType}, type.IsErased →
    type.IsOver graph → Form.ofText type.text.toList = type.form
  | primitive which, _, _ => Form.ofText_word which.isWord_word
  | unknown, _, _ => Form.ofText_word isWord_unknown
  | var _, _, isOver => Form.ofText_word isOver.isWord_var
  | named name [], _, isOver => by
    rw [text_named_nil]
    exact Form.ofText_word isOver.isWord_spelled
  | named name (arg :: args), _, _ => by
    rw [text_named]
    exact ofText_angled _ _ _
  | set element, _, _ => by
    rw [text_set]
    exact ofText_angled _ _ _
  | map key value, _, _ => by
    rw [text_map]
    exact ofText_angled _ _ _
  | array element, _, _ => by
    rw [text_array]
    unfold Script.arrayOf
    split
    · exact Form.ofText_array (by simp [List.getLast?_cons])
    · exact Form.ofText_array (by simp)
  | optional inner, _, _ => by
    rw [text_optional]
    exact Form.ofText_nullable (Script.suffix_orNull inner.text)

/-- What types over a graph are written with: the declared types, collections and built-in types all
have words of their own. -/
structure HasDistinctWords (graph : TypeGraph) : Prop where
  distinct : (graph.names.map Name.spelled).Nodup
  collections : "Set" ∉ graph.names.map Name.spelled ∧ "Map" ∉ graph.names.map Name.spelled
  builtin : ∀ word ∈ builtinWords, word ∉ graph.names.map Name.spelled

section Injective

variable {graph : TypeGraph}

theorem HasDistinctWords.name_inj (words : HasDistinctWords graph) {name name' : String}
    {args args' : List ResolvedType} (isOver : (named name args).IsOver graph)
    (isOver' : (named name' args').IsOver graph) (same : Name.spelled name = Name.spelled name') :
    name = name' :=
  List.inj_on_of_nodup_map words.distinct isOver.mem_names isOver'.mem_names same

theorem IsOver.mem_spelled {name : String} {args : List ResolvedType}
    (isOver : (named name args).IsOver graph) :
    Name.spelled name ∈ graph.names.map Name.spelled :=
  List.mem_map_of_mem isOver.mem_names

/-- What a word stands for: something built in, a declared type, or else a type variable. -/
def ofWord (graph : TypeGraph) (word : String) : ResolvedType :=
  match builtins.lookup word, graph.declaredAs? word with
  | some type, _ => type
  | none, some name => .named name []
  | none, none => .var word

theorem lookup_builtins_eq_none {word : String} (other : word ∉ builtinWords) :
    builtins.lookup word = none :=
  List.lookup_eq_none_iff.2 fun entry listed =>
    bne_iff_ne.2 fun same => other (List.mem_map.2 ⟨entry, listed, same.symm⟩)

theorem HasDistinctWords.declaredAs?_spelled (words : HasDistinctWords graph) {name : String}
    {args : List ResolvedType} (isOver : (named name args).IsOver graph) :
    graph.declaredAs? (Name.spelled name) = some name := by
  have known := isOver.mem_names
  cases found : graph.declaredAs? (Name.spelled name) with
  | none => exact absurd rfl (TypeGraph.declaredAs?_eq_none_iff.1 found name known)
  | some other =>
    have listed := List.mem_reverse.1 (List.mem_of_find?_eq_some found)
    have same : Name.spelled other = Name.spelled name := by
      simpa using List.find?_some found
    rw [List.inj_on_of_nodup_map words.distinct listed known same]

/-- A type of the form of a word is what the word stands for. -/
theorem ofWord_text (words : HasDistinctWords graph) : ∀ {type : ResolvedType}, type.IsErased →
    type.IsOver graph → type.form = .word → ofWord graph type.text = type
  | primitive which, _, _, _ => by cases which <;> rfl
  | unknown, _, _, _ => rfl
  | var name, _, isOver, _ => by
    obtain ⟨-, free, other⟩ := isOver.free name (List.mem_singleton_self name)
    have undeclared : graph.declaredAs? name = none :=
      TypeGraph.declaredAs?_eq_none_iff.2 fun declared known same =>
        free (List.mem_map.2 ⟨declared, known, same⟩)
    change ofWord graph name = var name
    rw [ofWord, lookup_builtins_eq_none other, undeclared]
  | named name [], _, isOver, _ => by
    have other : Name.spelled name ∉ builtinWords := fun builtin =>
      words.builtin _ builtin isOver.mem_spelled
    rw [text_named_nil, ofWord, lookup_builtins_eq_none other, words.declaredAs?_spelled isOver]

theorem form_eq {first second : ResolvedType} (erased : first.IsErased)
    (erased' : second.IsErased) (isOver : first.IsOver graph) (isOver' : second.IsOver graph)
    (same : first.text = second.text) : first.form = second.form := by
  rw [← ofText_text erased isOver, ← ofText_text erased' isOver', same]

theorem word_inj (words : HasDistinctWords graph) {first second : ResolvedType}
    (erased : first.IsErased) (erased' : second.IsErased) (isOver : first.IsOver graph)
    (isOver' : second.IsOver graph) (isWord : first.form = .word)
    (same : first.text = second.text) : first = second := by
  have isWord' : second.form = .word := form_eq erased erased' isOver isOver' same ▸ isWord
  rw [← ofWord_text words erased isOver isWord, same, ofWord_text words erased' isOver' isWord']

/-- The word in front of the arguments. -/
def head : ResolvedType → String
  | named name _ => Name.spelled name
  | set _ => "Set"
  | map _ _ => "Map"
  | _ => ""

def arguments : ResolvedType → List ResolvedType
  | named _ args => args
  | set element => [element]
  | map key value => [key, value]
  | _ => []

theorem IsOver.of_mem_arguments {type : ResolvedType} (isOver : type.IsOver graph) :
    ∀ arg ∈ type.arguments, arg.IsOver graph := by
  cases type with
  | named name args => exact (isOver_named_iff.1 isOver).2
  | set element => exact List.forall_mem_singleton.2 ⟨isOver.known, isOver.free⟩
  | map key value =>
    obtain ⟨ofKey, ofValue⟩ := isOver_map_iff.1 isOver
    exact List.forall_mem_cons.2 ⟨ofKey, List.forall_mem_singleton.2 ofValue⟩
  | _ => exact List.forall_mem_nil _

theorem IsOver.isWord_head {type : ResolvedType} (isOver : type.IsOver graph) :
    Text.IsWord type.head.toList := by
  cases type with
  | named name args => exact isOver.isWord_spelled
  | set element => exact isWord_collections.1
  | map key value => exact isWord_collections.2
  | _ => exact List.forall_mem_nil _

theorem exists_text_eq {type : ResolvedType} (applied : type.form = .applied) :
    ∃ arg args, type.arguments.map (·.text) = arg :: args ∧
      type.text = type.head ++ Script.angled (arg :: args) := by
  cases type with
  | named name args =>
    cases args with
    | nil => cases applied
    | cons arg args => exact ⟨_, _, rfl, text_named name (arg :: args)⟩
  | set element => exact ⟨_, _, rfl, text_set element⟩
  | map key value => exact ⟨_, _, rfl, text_map key value⟩
  | _ => cases applied

/-- The text of a type with arguments determines the word in front and the texts of the
arguments. -/
theorem applied_inj {first second : ResolvedType} (erased : first.IsErased)
    (erased' : second.IsErased) (isOver : first.IsOver graph) (isOver' : second.IsOver graph)
    (applied : first.form = .applied) (same : first.text = second.text) :
    first.head = second.head ∧
      first.arguments.map (·.text) = second.arguments.map (·.text) := by
  have applied' : second.form = .applied := form_eq erased erased' isOver isOver' same ▸ applied
  obtain ⟨arg, args, texts, spelled⟩ := exists_text_eq applied
  obtain ⟨arg', args', texts', spelled'⟩ := exists_text_eq applied'
  have enclosed := enclosed_texts first.arguments isOver.of_mem_arguments
  have enclosed' := enclosed_texts second.arguments isOver'.of_mem_arguments
  rw [texts] at enclosed ⊢
  rw [texts'] at enclosed' ⊢
  rw [spelled, spelled'] at same
  exact Script.append_angled_inj (fun inside => isOver.isWord_head _ inside (by decide))
    (fun inside => isOver'.isWord_head _ inside (by decide)) enclosed enclosed' same

theorem HasDistinctWords.spelled_ne (words : HasDistinctWords graph) {name : String}
    {args : List ResolvedType} (isOver : (named name args).IsOver graph) :
    Name.spelled name ≠ "Set" ∧ Name.spelled name ≠ "Map" :=
  ⟨fun same => words.collections.1 (same ▸ isOver.mem_spelled),
    fun same => words.collections.2 (same ▸ isOver.mem_spelled)⟩

/-- An optional type is written with its ending. -/
theorem text_optional_eq {inner : ResolvedType} (erased : (optional inner).IsErased)
    (isOver : inner.IsOver graph) : (optional inner).text = inner.text ++ " | null" := by
  rw [text_optional]
  rcases Script.orNull_eq inner.text with ⟨-, ends⟩ | ⟨same, -⟩
  · have nullable : inner.form = .nullable :=
      (ofText_text erased.1 isOver).symm.trans (Form.ofText_nullable ends)
    have plain := erased.2
    cases inner with
    | optional deeper => cases plain
    | named name args => cases args <;> cases nullable
    | _ => cases nullable
  · exact same

mutual

/-- Types without wildcards and repeated options are told apart by their texts. -/
theorem text_inj (words : HasDistinctWords graph) : ∀ first second : ResolvedType,
    first.IsErased → second.IsErased → first.IsOver graph → second.IsOver graph →
    first.text = second.text → first = second
  -- the form of the first type, which the text shows, leaves few cases for the second one
  | primitive _ | unknown | var _ | named _ [] =>
    fun _ erased erased' isOver isOver' => word_inj words erased erased' isOver isOver' rfl
  | named name (arg :: args) => by
    intro second erased erased' isOver isOver' same
    obtain ⟨heads, texts⟩ := applied_inj erased erased' isOver isOver' rfl same
    cases second with
    | named name' args' =>
      rw [words.name_inj isOver isOver' heads,
        texts_inj words (arg :: args) args' erased erased' (isOver_named_iff.1 isOver).2
          (isOver_named_iff.1 isOver').2 texts]
    | set => exact absurd heads (words.spelled_ne isOver).1
    | map => exact absurd heads (words.spelled_ne isOver).2
    | _ => cases texts
  | set element => by
    intro second erased erased' isOver isOver' same
    obtain ⟨heads, texts⟩ := applied_inj erased erased' isOver isOver' rfl same
    cases second with
    | named => exact absurd heads.symm (words.spelled_ne isOver').1
    | set element' =>
      rw [text_inj words element element' erased erased' ⟨isOver.known, isOver.free⟩
        ⟨isOver'.known, isOver'.free⟩ (List.cons.inj texts).1]
    | map => cases (List.cons.inj texts).2
    | _ => cases texts
  | map key value => by
    intro second erased erased' isOver isOver' same
    obtain ⟨heads, texts⟩ := applied_inj erased erased' isOver isOver' rfl same
    cases second with
    | named => exact absurd heads.symm (words.spelled_ne isOver').2
    | map key' value' =>
      obtain ⟨first, others⟩ := List.cons.inj texts
      obtain ⟨ofKey, ofValue⟩ := isOver_map_iff.1 isOver
      obtain ⟨ofKey', ofValue'⟩ := isOver_map_iff.1 isOver'
      rw [text_inj words key key' erased.1 erased'.1 ofKey ofKey' first,
        text_inj words value value' erased.2 erased'.2 ofValue ofValue' (List.cons.inj others).1]
    | set => cases (List.cons.inj texts).2
    | _ => cases texts
  | array element => by
    intro second erased erased' isOver isOver' same
    have forms := form_eq erased erased' isOver isOver' same
    cases second with
    | array element' =>
      rw [text_array, text_array] at same
      rw [text_inj words element element' erased erased' ⟨isOver.known, isOver.free⟩
        ⟨isOver'.known, isOver'.free⟩ (Script.arrayOf_inj.1 same)]
    | named name' args' => cases args' <;> cases forms
    | _ => cases forms
  | optional inner => by
    intro second erased erased' isOver isOver' same
    have forms := form_eq erased erased' isOver isOver' same
    cases second with
    | optional inner' =>
      have within : inner.IsOver graph := ⟨isOver.known, isOver.free⟩
      have within' : inner'.IsOver graph := ⟨isOver'.known, isOver'.free⟩
      rw [text_optional_eq erased within, text_optional_eq erased' within'] at same
      rw [text_inj words inner inner' erased.1 erased'.1 within within'
        ((String.append_left_inj _).1 same)]
    | named name' args' => cases args' <;> cases forms
    | _ => cases forms
  | anything | anyBelow _ | anyAbove _ => fun _ erased => erased.elim

theorem texts_inj (words : HasDistinctWords graph) : ∀ first second : List ResolvedType,
    AreErased first → AreErased second → (∀ type ∈ first, type.IsOver graph) →
    (∀ type ∈ second, type.IsOver graph) → first.map (·.text) = second.map (·.text) →
    first = second
  | [] => by
    intro second _ _ _ _ same
    exact (List.map_eq_nil_iff.1 same.symm).symm
  | type :: rest => by
    intro second erased erased' isOver isOver' same
    cases second with
    | nil => cases same
    | cons type' rest' =>
      obtain ⟨head, tail⟩ := List.cons.inj same
      obtain ⟨first, others⟩ := List.forall_mem_cons.1 isOver
      obtain ⟨first', others'⟩ := List.forall_mem_cons.1 isOver'
      rw [text_inj words type type' erased.1 erased'.1 first first' head,
        texts_inj words rest rest' erased.2 erased'.2 others others' tail]

end

/-- Two types over a graph have the same text exactly when they are the same without wildcards and
repeated options.  The declared types must be spelled apart from each other, from collections and
from built-in types. -/
theorem spelled_text_eq_iff (words : HasDistinctWords graph) {first second : ResolvedType}
    (isOver : first.IsOver graph) (isOver' : second.IsOver graph) :
    first.spell.text = second.spell.text ↔ first.erasure = second.erasure := by
  change first.text = second.text ↔ _
  constructor
  · intro same
    rw [← text_erasure first, ← text_erasure second] at same
    exact text_inj words _ _ (isErased_erasure first) (isErased_erasure second)
      (isOver_erasure first isOver) (isOver_erasure second isOver') same
  · intro same
    rw [← text_erasure first, same, text_erasure]

end Injective

/-- A graph of types without members. -/
def plainGraph (name : String) : TypeGraph where
  nodes := [⟨name, .interface, none, [], [], [], [], [], [], 0⟩]
  distinct := by simp

/-- A map to some values of which some are items of a box. -/
def itemsBy (values : ResolvedType → ResolvedType) : ResolvedType :=
  map (primitive .string) (values (named "org.x.Box$Item" [var "T"]))

theorem isOver_itemsBy {values : ResolvedType → ResolvedType}
    (names : (itemsBy values).names = ["org.x.Box$Item"]) (vars : (itemsBy values).vars = ["T"]) :
    (itemsBy values).IsOver (plainGraph "org.x.Box$Item") := by
  refine ⟨?_, ?_⟩
  · rw [names]
    decide
  · rw [vars]
    decide

/-- A wildcard and a repeated option leave no trace, but an array of options is no optional
array. -/
theorem itemsBy_texts :
    HasDistinctWords (plainGraph "org.x.Box$Item") ∧
    (itemsBy fun item => array (optional (optional (anyBelow item)))).IsOver
      (plainGraph "org.x.Box$Item") ∧
    (itemsBy fun item => array (optional item)).IsOver (plainGraph "org.x.Box$Item") ∧
    (itemsBy fun item => optional (array item)).IsOver (plainGraph "org.x.Box$Item") ∧
    (itemsBy fun item => array (optional (optional (anyBelow item)))).spell.text =
      (itemsBy fun item => array (optional item)).spell.text ∧
    (itemsBy fun item => optional (array item)).spell.text ≠
      (itemsBy fun item => array (optional item)).spell.text := by
  have words : HasDistinctWords (plainGraph "org.x.Box$Item") := ⟨by decide, by decide, by decide⟩
  have wild : (itemsBy fun item => array (optional (optional (anyBelow item)))).IsOver
      (plainGraph "org.x.Box$Item") := isOver_itemsBy rfl rfl
  have inside : (itemsBy fun item => array (optional item)).IsOver
      (plainGraph "org.x.Box$Item") := isOver_itemsBy rfl rfl
  have outside : (itemsBy fun item => optional (array item)).IsOver
      (plainGraph "org.x.Box$Item") := isOver_itemsBy rfl rfl
  refine ⟨words, wild, inside, outside, (spelled_text_eq_iff words wild inside).2 rfl,
    fun same => ?_⟩
  cases (spelled_text_eq_iff words outside inside).1 same

/-- A declared type can have the name of a built-in one, and then their texts are the same. -/
theorem plainGraph_string_ambiguous :
    ((plainGraph "org.x.string").names.map Name.spelled).Nodup ∧
    ("Set" ∉ (plainGraph "org.x.string").names.map Name.spelled ∧
      "Map" ∉ (plainGraph "org.x.string").names.map Name.spelled) ∧
    (named "org.x.string" []).IsOver (plainGraph "org.x.string") ∧
    (primitive .string).IsOver (plainGraph "org.x.string") ∧
    (named "org.x.string" []).spell.text = (primitive .string).spell.text ∧
    (named "org.x.string" []).erasure ≠ (primitive .string).erasure :=
  ⟨by decide, by decide, ⟨by decide, by decide⟩, ⟨by decide, by decide⟩, by decide, by decide⟩

end ResolvedType

end TypeBridge
