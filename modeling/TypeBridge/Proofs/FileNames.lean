import Mathlib.Data.List.Basic
import Mathlib.Data.List.TakeWhile
import TypeBridge.Config
import TypeBridge.Disk.Path
import TypeBridge.Host.Name

/-!
# The last piece of a path

A path ends in the name of a file, behind its last slash.  What is put in front of a path leaves that
name as it is.
-/

namespace TypeBridge

/-- Splitting at two kinds of separators is splitting at the one kind and then at the other. -/
theorem Text.splitOnP_or {α : Type} (p q : α → Bool) (all : List α) :
    all.splitOnP (fun a => p a || q a) = (all.splitOnP p).flatMap (·.splitOnP q) := by
  induction all with
  | nil => simp
  | cons first rest ih =>
    rw [List.splitOnP_cons_eq_if_modifyHead, List.splitOnP_cons_eq_if_modifyHead, ih]
    by_cases parts : p first = true
    · simp [parts]
    · cases split : rest.splitOnP p with
      | nil => exact absurd split (List.splitOnP_ne_nil p rest)
      | cons piece others =>
        rw [if_neg parts, List.modifyHead_cons, List.flatMap_cons, List.flatMap_cons,
          List.splitOnP_cons_eq_if_modifyHead]
        by_cases partsToo : q first = true
        · simp [parts, partsToo]
        · cases splitToo : piece.splitOnP q with
          | nil => exact absurd splitToo (List.splitOnP_ne_nil q piece)
          | cons front back => simp [parts, partsToo]

/-- What lists with a separator between them hold. -/
theorem Text.mem_intercalate_iff {α : Type} {separator a : α} {lists : List (List α)} :
    a ∈ [separator].intercalate lists ↔
      a = separator ∧ 2 ≤ lists.length ∨ ∃ list ∈ lists, a ∈ list := by
  induction lists with
  | nil => simp [List.intercalate]
  | cons first rest ih =>
    cases rest with
    | nil => simp [List.intercalate]
    | cons second others =>
      rw [List.intercalate_cons_cons, List.mem_append, List.mem_append, List.mem_singleton, ih]
      simp only [List.exists_mem_cons_iff, List.length_cons]
      constructor
      · rintro ((inside | same) | ⟨same, -⟩ | later)
        · exact .inr (.inl inside)
        · exact .inl ⟨same, by omega⟩
        · exact .inl ⟨same, by omega⟩
        · exact .inr (.inr later)
      · rintro (⟨same, -⟩ | inside | later)
        · exact .inl (.inr same)
        · exact .inl (.inl inside)
        · exact .inr (.inr later)

namespace Name

theorem notMem_behindLast (separator : Char) (text : List Char) :
    separator ∉ behindLast separator text := by
  intro member
  rw [behindLast, List.mem_reverse] at member
  simpa using List.mem_takeWhile_imp member

theorem behindLast_of_notMem {separator : Char} {text : List Char} (free : separator ∉ text) :
    behindLast separator text = text := by
  have whole : text.reverse.takeWhile (· != separator) = text.reverse := by
    refine List.takeWhile_eq_self_iff.2 fun c member => bne_iff_ne.2 ?_
    rintro rfl
    exact free (List.mem_reverse.1 member)
  rw [behindLast, whole, List.reverse_reverse]

theorem exists_append_behindLast {separator : Char} {text : List Char} (known : separator ∈ text) :
    ∃ front, text = front ++ separator :: behindLast separator text := by
  obtain ⟨behind, front, reversed, free⟩ := List.eq_append_cons_of_mem (List.mem_reverse.2 known)
  have within : ∀ c ∈ behind, (c != separator) = true := by
    intro c member
    rw [bne_iff_ne]
    rintro rfl
    exact free member
  have last : behindLast separator text = behind.reverse := by
    rw [behindLast, reversed, List.takeWhile_append_of_pos within]
    simp
  refine ⟨front.reverse, ?_⟩
  rw [last, ← List.reverse_reverse text, reversed]
  simp

theorem getLast?_splitOn (separator : Char) (text : List Char) :
    (text.splitOn separator).getLast? = some (behindLast separator text) := by
  have behind : separator ∉ behindLast separator text := notMem_behindLast separator text
  by_cases known : separator ∈ text
  · obtain ⟨front, same⟩ := exists_append_behindLast known
    rw [same, List.splitOn_append_cons_self, List.splitOn_eq_singleton behind, List.getLast?_concat,
      ← same]
  · rw [behindLast_of_notMem known, List.splitOn_eq_singleton known, List.getLast?_singleton]

/-- The segments of a faultless name begin like identifiers. -/
theorem exists_start_of_fault? {name : String} (faultless : fault? name = none) {segment : List Char}
    (split : segment ∈ name.toList.splitOnP fun c => c == '.' || c == '$') :
    ∃ c rest, segment = c :: rest ∧ isStart c = true := by
  unfold fault? at faultless
  split at faultless
  · cases faultless
  have clean := List.findSome?_eq_none_iff.1 faultless segment split
  cases segment with
  | nil => cases clean
  | cons c rest =>
    refine ⟨c, rest, rfl, ?_⟩
    cases start : isStart c with
    | true => rfl
    | false => simp [segmentFault?, identifierFault?, start] at clean

/-- No piece of the path of a faultless name is empty. -/
theorem empty_notMem_path {name : String} (faultless : fault? name = none) : "" ∉ path name := by
  intro listed
  obtain ⟨piece, split, empty⟩ := List.mem_map.1 listed
  have last : behindLast '.' name.toList ∈ name.toList.splitOn '.' :=
    List.mem_of_getLast? (getLast?_splitOn '.' name.toList)
  rw [List.splitOn_eq_splitOnP] at split last
  have segment : piece ∈ name.toList.splitOnP fun c => c == '.' || c == '$' := by
    rw [Text.splitOnP_or]
    exact List.mem_flatMap.2 ⟨_, last, split⟩
  obtain ⟨c, rest, rfl, -⟩ := exists_start_of_fault? faultless segment
  simp at empty

end Name

namespace Path

/-- The piece that a path ends in. -/
def last (path : String) : String :=
  String.ofList (Name.behindLast '/' path.toList)

theorem getLast?_pieces (path : String) : (pieces path).getLast? = some (last path) := by
  rw [pieces, List.getLast?_map, Name.getLast?_splitOn, Option.map_some, last]

theorem pieces_append_slash (front back : String) :
    pieces (front ++ "/" ++ back) = pieces front ++ pieces back := by
  have chars : (front ++ "/" ++ back).toList = front.toList ++ '/' :: back.toList := by simp
  rw [pieces, chars, List.splitOn_append_cons_self, List.map_append, pieces, pieces]

theorem pieces_of_notMem {path : String} (slashless : '/' ∉ path.toList) : pieces path = [path] := by
  rw [pieces, List.splitOn_eq_singleton slashless, List.map_singleton, String.ofList_toList]

theorem last_append_slash (front back : String) : last (front ++ "/" ++ back) = last back := by
  have behind : (Path.pieces back).getLast? = some (last back) := getLast?_pieces back
  have whole := getLast?_pieces (front ++ "/" ++ back)
  rw [pieces_append_slash, List.getLast?_append, behind] at whole
  exact (Option.some.inj whole).symm

/-- A relative path is put behind one slash, unless there is nothing in front of it. -/
theorem join_cases {path : String} (base : String) (relative : isAbsolute path = false) :
    (base = "" ∧ join base path = path) ∨
      ∃ front, (base = front ∨ base = front ++ "/") ∧ join base path = front ++ "/" ++ path := by
  rw [join, if_neg (by simp [relative])]
  split
  · next empty =>
    exact .inl ⟨String.toList_eq_nil_iff.1 (List.getLast?_eq_none_iff.1 empty), rfl⟩
  · next c ends =>
    split
    · next slash =>
      obtain ⟨front, same⟩ := List.getLast?_eq_some_iff.1 ends
      have cut : base = String.ofList front ++ "/" := by
        rw [← String.toList_inj, same, slash]
        simp
      exact .inr ⟨String.ofList front, .inr cut, by rw [cut]⟩
    · exact .inr ⟨base, .inl rfl, rfl⟩

/-- A path that is continued ends as the other one does. -/
theorem last_join (base path : String) : last (join base path) = last path := by
  cases relative : isAbsolute path with
  | true => rw [join, if_pos relative]
  | false =>
    obtain ⟨-, same⟩ | ⟨front, -, same⟩ := join_cases base relative
    · rw [same]
    · rw [same, last_append_slash]

theorem last_of_notMem {path : String} (slashless : '/' ∉ path.toList) : last path = path := by
  have behind := getLast?_pieces path
  rw [pieces_of_notMem slashless, List.getLast?_singleton] at behind
  exact (Option.some.inj behind).symm

/-- What is put behind a path is put behind its last piece. -/
theorem exists_pieces_append (path : String) : ∃ front, pieces path = front ++ [last path] ∧
    ∀ ending : String, '/' ∉ ending.toList →
      pieces (path ++ ending) = front ++ [last path ++ ending] := by
  by_cases known : '/' ∈ path.toList
  · obtain ⟨front, same⟩ := Name.exists_append_behindLast known
    have cut : path = String.ofList front ++ "/" ++ last path := by
      rw [← String.toList_inj, last]
      simpa using same
    have free : '/' ∉ (last path).toList := by
      rw [last, String.toList_ofList]
      exact Name.notMem_behindLast '/' path.toList
    refine ⟨pieces (String.ofList front), ?_, fun ending slashless => ?_⟩
    · rw [← pieces_of_notMem free, ← pieces_append_slash, ← cut]
    · have longer : '/' ∉ (last path ++ ending).toList := by
        simp [free, slashless]
      rw [← pieces_of_notMem longer, ← pieces_append_slash, ← String.append_assoc, ← cut]
  · refine ⟨[], ?_, fun ending slashless => ?_⟩
    · rw [last_of_notMem known, pieces_of_notMem known, List.nil_append]
    · rw [last_of_notMem known, List.nil_append, pieces_of_notMem]
      simp [known, slashless]

/-- An ending without a slash ends the last piece. -/
theorem isSuffix_last {ending : List Char} {path : String} (ends : ending <:+ path.toList)
    (slashless : '/' ∉ ending) : ending <:+ (last path).toList := by
  obtain ⟨front, same⟩ := ends
  have within : ∀ c ∈ ending.reverse, (c != '/') = true := by
    intro c member
    rw [bne_iff_ne]
    rintro rfl
    exact slashless (List.mem_reverse.1 member)
  rw [last, String.toList_ofList, Name.behindLast, ← same, List.reverse_append,
    List.takeWhile_append_of_pos within, List.reverse_append, List.reverse_reverse]
  exact List.suffix_append _ _

/-- A long piece is the name of an entry. -/
theorem isEntry_of_length {piece : String} (long : 2 < piece.toList.length) :
    isEntry piece = true := by
  simp only [isEntry, Bool.and_eq_true, bne_iff_ne]
  refine ⟨⟨?_, ?_⟩, ?_⟩ <;>
  · rintro rfl
    exact absurd long (by decide)

end Path

namespace Config

variable {config : Config}

theorem isDeclarationFile_of_brokenRule? (unbroken : config.brokenRule? = none) :
    isDeclarationFile config.declarations = true := by
  unfold brokenRule? at unbroken
  rw [Option.or_eq_none_iff, Option.or_eq_none_iff] at unbroken
  obtain ⟨-, declarationFile, -⟩ := unbroken
  by_contra other
  rw [if_neg other] at declarationFile
  cases declarationFile

end Config

end TypeBridge
