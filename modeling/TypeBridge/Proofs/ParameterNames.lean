import Mathlib.Data.List.Nodup
import TypeBridge.Declaration.Drawing

/-!
# The names of parameters

A parameter with a reserved word for its name is written with an underscore behind it.  No written
name is reserved, and two parameters of different names are written alike exactly when the name of
one is a reserved word and the name of the other is that word with the underscore.
-/

namespace TypeBridge

namespace Script

variable {first second : String} {names : List String}

theorem append_underscore_notMem_reservedWords :
    ∀ word ∈ reservedWords, word ++ "_" ∉ reservedWords := by
  have ending : ∀ word ∈ reservedWords, word.toList.getLast? ≠ some '_' := by decide
  intro word _ reserved
  exact ending _ reserved (by simp)

theorem safeName_of_mem (reserved : first ∈ reservedWords) : safeName first = first ++ "_" :=
  if_pos (List.contains_iff_mem.2 reserved)

theorem safeName_of_notMem (free : first ∉ reservedWords) : safeName first = first :=
  if_neg (mt List.contains_iff_mem.1 free)

theorem safeName_notMem_reservedWords (name : String) : safeName name ∉ reservedWords := by
  by_cases reserved : name ∈ reservedWords
  · rw [safeName_of_mem reserved]
    exact append_underscore_notMem_reservedWords name reserved
  · rwa [safeName_of_notMem reserved]

/-- Two names become one exactly when one is the other one's escaped form. -/
theorem safeName_eq_safeName_iff :
    safeName first = safeName second ↔
      first = second ∨ (first ∈ reservedWords ∧ second = first ++ "_") ∨
        (second ∈ reservedWords ∧ first = second ++ "_") := by
  have escaped := append_underscore_notMem_reservedWords
  by_cases reserved : first ∈ reservedWords <;> by_cases reserved' : second ∈ reservedWords
  · rw [safeName_of_mem reserved, safeName_of_mem reserved', String.append_left_inj]
    grind
  · rw [safeName_of_mem reserved, safeName_of_notMem reserved']
    grind
  · rw [safeName_of_notMem reserved, safeName_of_mem reserved']
    grind
  · rw [safeName_of_notMem reserved, safeName_of_notMem reserved']
    grind

theorem nodup_map_safeName_iff (distinct : names.Nodup) :
    (names.map safeName).Nodup ↔
      ∀ word ∈ reservedWords, word ∈ names → word ++ "_" ∉ names := by
  rw [List.nodup_map_iff_inj_on distinct]
  constructor
  · intro injective word reserved listed escaped
    have same := injective word listed _ escaped
      (safeName_eq_safeName_iff.2 (.inr (.inl ⟨reserved, rfl⟩)))
    exact append_underscore_notMem_reservedWords word reserved (same ▸ reserved)
  · intro apart a listed b listed' alike
    rcases safeName_eq_safeName_iff.1 alike with same | ⟨reserved, rfl⟩ | ⟨reserved, rfl⟩
    · exact same
    · exact absurd listed' (apart a reserved listed)
    · exact absurd listed (apart b reserved listed')

/-- The parameters in a signature. -/
def MemberSyntax.parameters : MemberSyntax → List Typed
  | property .. => []
  | method _ _ _ parameters _ => parameters

end Script

/-- The names of the parameters in the signature of a member. -/
def Member.writtenParameters (member : Member) : List String :=
  member.entry.syntaxOf.content.parameters.map (·.name)

theorem Member.writtenParameters_eq {member : Member} {parameters : List Parameter}
    {generics : List Generic} (isMethod : member.kind = .method parameters generics) :
    member.writtenParameters = (parameters.map (·.name)).map Script.safeName := by
  rw [writtenParameters, entry, isMethod]
  simp [Entry.syntaxOf, Script.MemberSyntax.parameters, Function.comp_def]

/-- Where the parameters of a method have distinct names, no name in its signature is reserved, and
these names are distinct exactly when no parameter has a reserved word for its name while another
one has that word with an underscore. -/
theorem written_parameters_iff {member : Member} {parameters : List Parameter}
    {generics : List Generic} (isMethod : member.kind = .method parameters generics)
    (distinct : (parameters.map (·.name)).Nodup) :
    (∀ name ∈ member.writtenParameters, name ∉ Script.reservedWords) ∧
      (member.writtenParameters.Nodup ↔
        ∀ word ∈ Script.reservedWords, word ∈ parameters.map (·.name) →
          word ++ "_" ∉ parameters.map (·.name)) := by
  rw [member.writtenParameters_eq isMethod]
  refine ⟨?_, Script.nodup_map_safeName_iff distinct⟩
  rw [List.forall_mem_map]
  exact fun name _ => Script.safeName_notMem_reservedWords name

/-- A method without a result, with parameters of some names. -/
def plainMethod (name : String) (parameters : List String) : Member where
  name := name
  kind := .method (parameters.map fun parameter => ⟨parameter, .unknown, false⟩) []
  type := .unknown
  nullable := false
  optional := false
  doc := none

/-- A reserved word beside other names that end in underscores. -/
theorem replace_parameters_written :
    ["delete", "delete__", "insert_"].Nodup ∧
      (∀ name ∈ (plainMethod "replace" ["delete", "delete__", "insert_"]).writtenParameters,
        name ∉ Script.reservedWords) ∧
      (plainMethod "replace" ["delete", "delete__", "insert_"]).writtenParameters.Nodup := by
  have distinct : ["delete", "delete__", "insert_"].Nodup := by decide
  have isMethod :
      (plainMethod "replace" ["delete", "delete__", "insert_"]).kind = .method _ [] := rfl
  obtain ⟨free, apart⟩ := written_parameters_iff isMethod distinct
  exact ⟨distinct, free, apart.2 (by decide)⟩

/-- Two parameters of different names that are written alike. -/
theorem copy_parameters_alike :
    ["in", "in_"].Nodup ∧ ¬ (plainMethod "copy" ["in", "in_"]).writtenParameters.Nodup ∧
      (plainMethod "copy" ["in", "in_"]).entry.syntaxOf.content.text =
        "copy(in_: unknown, in_: unknown): unknown;" :=
  ⟨by decide, by decide, by cbv⟩

end TypeBridge
