import Mathlib.Data.List.Count
import TypeBridge.Proofs.EmissionTopology

/-!
# Numbers of inserted nodes

An insertion numbers its node by the size that the graph has before.  For a new name this is its
position; a known name keeps its position, and its new number lies behind it.  So the numbers are
positions exactly when no name is inserted twice, and the edges lead to positions exactly when they
avoid the names that are inserted again after the last new one.
-/

namespace TypeBridge

theorem find?_placeNode (node : Node) (nodes : List Node) (name : String) :
    (placeNode node nodes).find? (·.name == name) =
      if node.name = name then some node else nodes.find? (·.name == name) := by
  induction nodes with
  | nil => by_cases found : node.name = name <;> simp [placeNode, found]
  | cons other rest ih =>
    unfold placeNode
    by_cases same : other.name = node.name
    · by_cases found : node.name = name <;> simp [same, found]
    · rw [if_neg same, List.find?_cons, List.find?_cons, ih]
      by_cases found : node.name = name
      · have differs : other.name ≠ name := found ▸ same
        rw [if_pos found, if_pos found, beq_eq_false_iff_ne.2 differs]
      · rw [if_neg found, if_neg found]

/-- A name is inserted again, and no new name from then on. -/
def IsBelated (inserted : List String) (name : String) : Prop :=
  ∃ before after, inserted = before ++ after ∧ name ∈ after ∧ after ⊆ before

theorem IsBelated.mem {inserted : List String} {name : String} (belated : IsBelated inserted name) :
    name ∈ inserted := by
  obtain ⟨before, after, rfl, again, -⟩ := belated
  exact List.mem_append_right _ again

theorem isBelated_concat_iff {inserted : List String} {last name : String} :
    IsBelated (inserted ++ [last]) name ↔
      last ∈ inserted ∧ (last = name ∨ IsBelated inserted name) := by
  constructor
  · rintro ⟨before, after, all, again, known⟩
    obtain rfl | ⟨after, final, rfl⟩ := after.eq_nil_or_concat
    · cases again
    rw [List.concat_eq_append, ← List.append_assoc] at all
    obtain ⟨rfl, same⟩ := List.append_inj' all rfl
    obtain rfl : last = final := List.singleton_inj.1 same
    rw [List.concat_eq_append] at again known
    refine ⟨List.mem_append_left _ (known (by simp)), ?_⟩
    rcases List.mem_append.1 again with earlier | now
    · exact .inr ⟨before, after, rfl, earlier, fun _ listed => known (by simp [listed])⟩
    · exact .inl (List.mem_singleton.1 now).symm
  · rintro ⟨known, rfl | ⟨before, after, rfl, again, all⟩⟩
    · exact ⟨inserted, [last], rfl, by simp, by simpa using known⟩
    · refine ⟨before, after ++ [last], by simp, by simp [again], ?_⟩
      have listed : last ∈ before := (List.mem_append.1 known).elim id (@all last)
      exact List.append_subset.2 ⟨all, by simpa using listed⟩

namespace TypeGraph

variable {graph : TypeGraph} {inserted : List String}

/-- The number that the node of a name carries. -/
def numberOf? (graph : TypeGraph) (name : String) : Option Nat :=
  (graph.get? name).map (·.index)

theorem mem_edges_iff_numberOf? {targets : Node → List String} {i j : Nat} :
    j ∈ graph.edges targets i ↔
      ∃ node, graph.at? i = some node ∧ ∃ name ∈ targets node, graph.numberOf? name = some j := by
  rw [edges]
  cases found : graph.at? i with
  | none => simp
  | some node => simp [numbersOf, List.mem_filterMap, numberOf?]

theorem exists_numberOf? {name : String} (known : name ∈ graph.names) :
    ∃ number, graph.numberOf? name = some number := by
  obtain ⟨node, listed, rfl⟩ := List.mem_map.1 known
  exact ⟨node.index, by rw [numberOf?, get?_eq_some_iff.2 ⟨listed, rfl⟩]; rfl⟩

section Insertion

variable {node : Node} {name : String}

theorem numberOf?_insert : (graph.insert node).numberOf? name =
    if node.name = name then some graph.size else graph.numberOf? name := by
  rw [numberOf?, get?, insert, find?_placeNode]
  split <;> rfl

theorem mem_names_insert :
    name ∈ (graph.insert node).names ↔ name ∈ graph.names ∨ name = node.name := by
  rw [names_insert]
  split
  · next known => exact ⟨.inl, fun new => new.elim id fun same => same ▸ known⟩
  · simp

theorem size_insert :
    (graph.insert node).size = if node.name ∈ graph.names then graph.size else graph.size + 1 := by
  have length := congrArg List.length (names_insert graph node)
  rw [names, List.length_map] at length
  rw [size, length]
  split <;> simp [names, size]

theorem isAt_insert_iff {i : Nat} : (graph.insert node).IsAt i name ↔
    graph.IsAt i name ∨ node.name ∉ graph.names ∧ name = node.name ∧ i = graph.size := by
  have length : graph.names.length = graph.size := List.length_map _
  rw [isAt_iff, isAt_iff, names_insert]
  split
  · next known => simp [known]
  · next fresh =>
    rcases Nat.lt_trichotomy i graph.size with before | rfl | behind
    · rw [List.getElem?_append_left (by omega)]
      simp [Nat.ne_of_lt before]
    · rw [← length, List.getElem?_concat_length]
      simp [fresh, eq_comm]
    · rw [List.getElem?_eq_none (by simp; omega), List.getElem?_eq_none (by omega)]
      simp [Nat.ne_of_gt behind]

end Insertion

/-- What the numbers of a graph say about the names that were inserted: where a number lies between
the position of its name and the size of the graph. -/
structure Records (graph : TypeGraph) (inserted : List String) : Prop where
  mem_names_iff : ∀ name, name ∈ graph.names ↔ name ∈ inserted
  behind : ∀ name i number, graph.IsAt i name → graph.numberOf? name = some number →
    i ≤ number ∧ (i = number ↔ inserted.count name = 1)
  within : ∀ name number, graph.numberOf? name = some number →
    number ≤ graph.size ∧ (number = graph.size ↔ IsBelated inserted name)

theorem records_empty : empty.Records [] where
  mem_names_iff _ := Iff.rfl
  behind _ _ _ known := by simp [isAt_iff, names, empty] at known
  within _ _ found := by simp [numberOf?, get?, empty] at found

namespace Records

variable (records : graph.Records inserted)
include records

/-- A name that is inserted now is numbered by the size, in front of which all positions lie. -/
theorem behind_insert (node : Node) (name : String) (i number : Nat)
    (known : (graph.insert node).IsAt i name)
    (found : (graph.insert node).numberOf? name = some number) :
    i ≤ number ∧ (i = number ↔ (inserted ++ [node.name]).count name = 1) := by
  rw [numberOf?_insert] at found
  rw [List.count_append]
  split at found
  · next same =>
    obtain rfl := Option.some.inj found
    rw [same, List.count_singleton_self]
    rcases isAt_insert_iff.1 known with old | ⟨fresh, -, rfl⟩
    · have before := old.lt_size
      have again : 0 < inserted.count name :=
        List.count_pos_iff.2 ((records.mem_names_iff name).1 old.mem_names)
      omega
    · have never : inserted.count name = 0 :=
        List.count_eq_zero.2 fun listed => fresh (same ▸ (records.mem_names_iff name).2 listed)
      omega
  · next differs =>
    have old : graph.IsAt i name :=
      (isAt_insert_iff.1 known).resolve_right fun new => differs new.2.1.symm
    rw [List.count_singleton, if_neg (by simpa using differs)]
    exact records.behind name i number old found

/-- A new name makes room for all numbers; behind a known one, the last number is taken again. -/
theorem within_insert (node : Node) (name : String) (number : Nat)
    (found : (graph.insert node).numberOf? name = some number) :
    number ≤ (graph.insert node).size ∧
      (number = (graph.insert node).size ↔ IsBelated (inserted ++ [node.name]) name) := by
  have bound : number ≤ graph.size ∧
      (number = graph.size ↔ node.name = name ∨ IsBelated inserted name) := by
    rw [numberOf?_insert] at found
    split at found
    · next same =>
      obtain rfl := Option.some.inj found
      exact ⟨le_rfl, by simp [same]⟩
    · next differs => simpa [differs] using records.within name number found
  rw [isBelated_concat_iff, ← records.mem_names_iff, size_insert]
  split
  · next known => simpa [known] using bound
  · next fresh =>
    refine ⟨by omega, ?_⟩
    simp only [fresh, false_and, iff_false]
    omega

theorem insert (node : Node) : (graph.insert node).Records (inserted ++ [node.name]) where
  mem_names_iff name := by
    rw [mem_names_insert, records.mem_names_iff, List.mem_append, List.mem_singleton]
  behind := records.behind_insert node
  within := records.within_insert node

end Records

theorem ofNodes_concat (nodes : List Node) (node : Node) :
    ofNodes (nodes ++ [node]) = (ofNodes nodes).insert node :=
  List.foldl_concat ..

theorem records_ofNodes (nodes : List Node) : (ofNodes nodes).Records (nodes.map (·.name)) := by
  induction nodes using List.reverseRecOn with
  | nil => exact records_empty
  | append_singleton nodes node ih =>
    rw [ofNodes_concat, List.map_append]
    exact ih.insert node

namespace Records

variable (records : graph.Records inserted)
include records

/-- The number of a name finds it again. -/
theorem found_again_iff (name : String) :
    ((graph.get? name).bind fun node => graph.at? node.index).map (·.name) = some name ↔
      inserted.count name = 1 := by
  have again : ((graph.get? name).bind fun node => graph.at? node.index).map (·.name) = some name ↔
      ∃ number, graph.numberOf? name = some number ∧ graph.IsAt number name := by
    rw [numberOf?]
    cases graph.get? name with
    | none => simp
    | some node => simp [IsAt, Option.map_eq_some_iff]
  rw [again]
  constructor
  · rintro ⟨number, found, known⟩
    exact (records.behind name number number known found).2.1 rfl
  · intro once
    have listed : name ∈ inserted := List.count_pos_iff.1 (by omega)
    have known := (records.mem_names_iff name).2 listed
    obtain ⟨i, position⟩ := exists_isAt_of_mem known
    obtain ⟨number, found⟩ := exists_numberOf? known
    obtain rfl := (records.behind name i number position found).2.2 once
    exact ⟨i, found, position⟩

theorem isNumbered_iff : graph.IsNumbered ↔ inserted.Nodup := by
  rw [List.nodup_iff_count_eq_one]
  constructor
  · intro numbered name listed
    obtain ⟨i, node, found, rfl⟩ := exists_isAt_of_mem ((records.mem_names_iff name).2 listed)
    have number : graph.numberOf? node.name = some i := by
      rw [numberOf?, get?_at found, Option.map_some, numbered i node found]
    exact (records.behind node.name i i ⟨node, found, rfl⟩ number).2.1 rfl
  · intro once i node found
    have known : graph.IsAt i node.name := ⟨node, found, rfl⟩
    have number : graph.numberOf? node.name = some node.index := by
      rw [numberOf?, get?_at found, Option.map_some]
    have listed := (records.mem_names_iff node.name).1 known.mem_names
    exact ((records.behind node.name i node.index known number).2.2 (once node.name listed)).symm

theorem edges_lt_iff (targets : Node → List String) :
    (∀ i, ∀ j ∈ graph.edges targets i, j < graph.size) ↔
      ∀ node ∈ graph.nodes, ∀ name ∈ targets node, ¬IsBelated inserted name := by
  constructor
  · intro inside node listed name wanted belated
    obtain ⟨number, found⟩ := exists_numberOf? ((records.mem_names_iff name).2 belated.mem)
    obtain ⟨i, position⟩ := List.getElem?_of_mem listed
    have less := inside i number (mem_edges_iff_numberOf?.2 ⟨node, position, name, wanted, found⟩)
    exact absurd ((records.within name number found).2.2 belated) (Nat.ne_of_lt less)
  · intro avoided i j edge
    obtain ⟨node, position, name, wanted, found⟩ := mem_edges_iff_numberOf?.1 edge
    obtain ⟨most, last⟩ := records.within name j found
    have early := avoided node (List.mem_of_getElem? position) name wanted
    exact lt_of_le_of_ne most fun same => early (last.1 same)

end Records

/-- After any insertions, the number of a name finds it again exactly when the name was inserted
once, and all numbers are positions exactly when this holds of every name.  The edges, of
dependencies or of supertypes, lead to positions exactly when no node leads to a name that was
inserted again after the last new one. -/
theorem insertion_numbers (nodes : List Node) :
    (∀ name, (((ofNodes nodes).get? name).bind fun node =>
        (ofNodes nodes).at? node.index).map (·.name) = some name ↔
      (nodes.map (·.name)).count name = 1) ∧
    ((ofNodes nodes).IsNumbered ↔ (nodes.map (·.name)).Nodup) ∧
    ∀ targets,
      (∀ i, ∀ j ∈ (ofNodes nodes).edges targets i, j < (ofNodes nodes).size) ↔
        ∀ node ∈ (ofNodes nodes).nodes, ∀ name ∈ targets node,
          ¬IsBelated (nodes.map (·.name)) name := by
  have records := records_ofNodes nodes
  exact ⟨records.found_again_iff, records.isNumbered_iff, records.edges_lt_iff⟩

/-- A type that is inserted again behind its subtype. -/
def reinsertedNodes : List Node :=
  [bareNode "A" [] [], bareNode "B" ["A"] [], bareNode "A" [] []]

/-- The number of the type is the size of the graph, where no node is, and the edges of the subtype
lead there. -/
theorem reinsertedNodes_misnumbered :
    (ofNodes reinsertedNodes).names = ["A", "B"] ∧ (ofNodes reinsertedNodes).size = 2 ∧
      (((ofNodes reinsertedNodes).get? "A").bind fun node =>
        (ofNodes reinsertedNodes).at? node.index) = none ∧
      ¬(ofNodes reinsertedNodes).IsNumbered ∧
      (ofNodes reinsertedNodes).edges (·.dependencies) 1 = [2] ∧
      (ofNodes reinsertedNodes).edges (·.supertypeNames) 1 = [2] := by
  refine ⟨by decide, by decide, by decide, fun numbered => ?_, by decide, by decide⟩
  exact absurd (numbered 0 _ rfl) (by decide)

end TypeGraph

end TypeBridge
