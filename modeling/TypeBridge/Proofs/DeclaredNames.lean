import TypeBridge.Proofs.ArtifactNames
import TypeBridge.Proofs.SignatureRoundTrip

/-!
# Declared names are references

A name is checked by its segments between dots and dollar signs, a signature is read by identifiers
between dots, and a type is placed by what stands before the last dollar sign and behind the last
dot.  The three agree on every name of a snapshot: it reads as the signature that is this name, and
a nested type has the name of the type around it and one more piece on its path.
-/

namespace TypeBridge

namespace Name

open Signature (isIdentifier isNameChar isNameStart isQualified)

variable {name outer inner : String}

theorem isNameChar_of_isPart {c : Char} (part : isPart c = true) : isNameChar c = true := by
  rw [isNameChar, Bool.or_eq_true]
  exact .inl part

/-- What stands between two dots of a faultless name is an identifier of signatures. -/
theorem isIdentifier_of_fault? (faultless : fault? name = none) {piece : List Char}
    (split : piece ∈ name.toList.splitOn '.') : isIdentifier piece = true := by
  rw [List.splitOn_eq_splitOnP] at split
  have segments : ∀ segment ∈ piece.splitOnP (· == '$'),
      segment ∈ name.toList.splitOnP fun c => c == '.' || c == '$' := by
    intro segment cut
    rw [Text.splitOnP_or]
    exact List.mem_flatMap.2 ⟨piece, split, cut⟩
  have parts : ∀ c ∈ piece, isNameChar c = true := by
    intro c member
    obtain ⟨known, noDot⟩ := Text.mem_splitOnP_iff.1 ⟨piece, split, member⟩
    by_cases dollar : c = '$'
    · rw [dollar]
      decide
    · exact isNameChar_of_isPart (isPart_of_fault? faultless known (by simp [noDot, dollar]))
  cases piece with
  | nil =>
    obtain ⟨c, rest, same, -⟩ := exists_start_of_fault? faultless (segments [] (by simp))
    cases same
  | cons first rest =>
    have begins : isNameStart first = true := by
      obtain ⟨front, back, cut⟩ := List.exists_cons_of_ne_nil (List.splitOnP_ne_nil (· == '$') rest)
      by_cases dollar : first = '$'
      · obtain ⟨c, others, same, -⟩ := exists_start_of_fault? faultless
          (segments [] (by simp [List.splitOnP_cons_eq_if_modifyHead, dollar]))
        cases same
      · obtain ⟨c, others, same, start⟩ := exists_start_of_fault? faultless
          (segments (first :: front) (by simp [List.splitOnP_cons_eq_if_modifyHead, dollar, cut]))
        cases same
        exact start
    rw [isIdentifier, begins, List.all_eq_true.2 fun c member =>
      parts c (List.mem_cons_of_mem first member)]
    rfl

theorem isQualified_of_fault? (faultless : fault? name = none) : isQualified name = true :=
  List.all_eq_true.2 fun _ split => isIdentifier_of_fault? faultless split

/-- A faultless name reads as the signature that is this name without arguments. -/
theorem ofText_of_fault? (faultless : fault? name = none) :
    Signature.ofText name = .ok (.named name []) := by
  have read := (Signature.readsBack_name (isQualified_of_fault? faultless)).whole [] .nothing
  rw [List.append_nil, Signature.chars, Signature.text] at read
  exact Signature.ofText_eq_ok_iff.2 ⟨[], read, rfl⟩

theorem bne_of_mem_reverse {separator : Char} {back : List Char} (free : separator ∉ back) :
    ∀ c ∈ back.reverse, (c != separator) = true := by
  intro c member
  rw [bne_iff_ne]
  rintro rfl
  exact free (List.mem_reverse.1 member)

theorem beforeLast?_append {separator : Char} (front : List Char) {back : List Char}
    (free : separator ∉ back) :
    beforeLast? separator (front ++ separator :: back) = some front := by
  rw [beforeLast?, List.reverse_append, List.reverse_cons, List.append_assoc,
    List.dropWhile_append_of_pos (bne_of_mem_reverse free)]
  simp

theorem behindLast_append {separator : Char} (front : List Char) {back : List Char}
    (free : separator ∉ back) :
    behindLast separator (front ++ back) = behindLast separator front ++ back := by
  rw [behindLast, List.reverse_append, List.takeWhile_append_of_pos (bne_of_mem_reverse free),
    List.reverse_append, List.reverse_reverse, behindLast]

theorem exists_of_isChildName (child : Snapshot.isChildName outer inner = true) :
    ∃ simple, inner.toList = outer.toList ++ '$' :: simple ∧ '$' ∉ simple ∧ '.' ∉ simple := by
  unfold Snapshot.isChildName at child
  split at child
  · cases child
  next simple found =>
  have free : ∀ c ∈ simple, c ≠ '$' ∧ c ≠ '.' := by simpa using (Bool.and_eq_true_iff.1 child).2
  refine ⟨simple, by simpa using Text.behindFront?_eq_some_iff.1 found, ?_, ?_⟩
  · exact fun member => (free _ member).1 rfl
  · exact fun member => (free _ member).2 rfl

/-- A name that continues another one by a segment is nested in it, in name and in path. -/
theorem nested_of_isChildName (child : Snapshot.isChildName outer inner = true) :
    outer? inner = some outer ∧ ∃ segment, path inner = path outer ++ [segment] := by
  obtain ⟨simple, chars, noDollar, noDot⟩ := exists_of_isChildName child
  constructor
  · rw [outer?, chars, beforeLast?_append _ noDollar, Option.map_some, String.ofList_toList]
  · have noDot' : '.' ∉ '$' :: simple := List.not_mem_cons_of_ne_of_not_mem (by decide) noDot
    refine ⟨String.ofList simple, ?_⟩
    rw [path, path, chars, behindLast_append _ noDot', List.splitOn_append_cons_self,
      List.splitOn_eq_singleton noDollar, List.map_append, List.map_singleton]

end Name

/-- Every type of a snapshot, at any depth, has a name that reads as the signature that is this name
without arguments.  A type nested in another one has that one for its enclosing name, and one
segment more on its path. -/
theorem declared_names_referable {file text : String} {types : List HostType}
    (accepted : Snapshot.read file text = .ok types) :
    (∀ type ∈ families types, Signature.ofText type.name = .ok (.named type.name [])) ∧
      ∀ outer ∈ families types, ∀ inner ∈ outer.nested,
        Name.outer? inner.name = some outer.name ∧
          ∃ segment, Name.path inner.name = Name.path outer.name ++ [segment] := by
  constructor
  · intro type declared
    obtain ⟨parent, faultless⟩ := Snapshot.exists_fault?_of_read accepted declared
    exact Name.ofText_of_fault? (Snapshot.fault?_eq_none faultless).1.named
  · intro outer declared inner nested
    obtain ⟨parent, faultless⟩ := Snapshot.exists_fault?_of_read accepted declared
    have inside := (Snapshot.fault?_eq_none faultless).2
    have kept := Snapshot.fault?_eq_none (Snapshot.firstFault?_eq_none_iff.1 inside inner nested)
    exact Name.nested_of_isChildName (kept.1.placed outer.name rfl)

/-- A type of a package with a type nested in it. -/
def nestSource : String :=
  "[[types]]\nname=\"o.A\"\n[[types.nested]]\nname=\"o.A$B\""

theorem nestSource_referable :
    ∃ types, Snapshot.read "m.toml" nestSource = .ok types ∧
      (families types).map (·.name) = ["o.A", "o.A$B"] ∧
      (∀ type ∈ families types, Signature.ofText type.name = .ok (.named type.name [])) ∧
      ∀ outer ∈ families types, ∀ inner ∈ outer.nested,
        Name.outer? inner.name = some outer.name ∧
          ∃ segment, Name.path inner.name = Name.path outer.name ++ [segment] := by
  have evaluated : (Snapshot.read "m.toml" nestSource).toOption.map
      (fun types => (families types).map (·.name)) = some ["o.A", "o.A$B"] := by
    cbv
  obtain ⟨types, accepted, names⟩ := Option.map_eq_some_iff.1 evaluated
  rw [Outcome.toOption_eq_some_iff] at accepted
  exact ⟨types, accepted, names, declared_names_referable accepted⟩

end TypeBridge
