import TypeBridge.Search.Walk

/-!
# Strongly connected components

The classes of mutually reachable vertices of a finite directed graph, found by one depth-first
search.  Vertices are numbered as the search enters them, and wait on a stack until their class is
complete.  An open vertex keeps the least number of a waiting vertex that it is known to lead back
to.  When that is still its own number at the end, everything from it to the top of the stack is a
class.  So a component comes behind every other component that it reaches.
-/

namespace TypeBridge.Search

/-- A vertex that the search is inside of. -/
structure OpenVertex (α : Type) where
  vertex : α
  /-- The least number of a waiting vertex that this one is known to lead back to. -/
  low : Nat
  /-- The neighbours still to be looked at. -/
  ahead : List α
  deriving DecidableEq, Repr

/-- A search for components. -/
structure ComponentSearch (α : Type) where
  /-- The vertices entered so far with their numbers, the latest first. -/
  numbers : List (α × Nat)
  /-- The entered vertices without a component, the latest first. -/
  stack : List α
  /-- The open vertices, the innermost first. -/
  path : List (OpenVertex α)
  /-- The components in the order of their completion. -/
  found : List (List α)
  deriving DecidableEq, Repr

namespace ComponentSearch

variable {α : Type} [DecidableEq α]

def start : ComponentSearch α :=
  ⟨[], [], [], []⟩

/-- The number of an entered vertex. -/
def number? (search : ComponentSearch α) (v : α) : Option Nat :=
  search.numbers.lookup v

def enter (next : α → List α) (v : α) (search : ComponentSearch α) : ComponentSearch α where
  numbers := (v, search.numbers.length) :: search.numbers
  stack := v :: search.stack
  path := ⟨v, search.numbers.length, next v⟩ :: search.path
  found := search.found

/-- Take the component of a vertex off the stack, in the order of the vertices. -/
def close (vertices : List α) (v : α) (search : ComponentSearch α) : ComponentSearch α :=
  let count := search.stack.idxOf v + 1
  let taken := search.stack.take count
  { search with
    stack := search.stack.drop count
    found := search.found ++ [vertices.filter (taken.contains ·)] }

/-- The innermost open vertex leads back to wherever a vertex inside of it does. -/
def lower (low : Nat) : List (OpenVertex α) → List (OpenVertex α)
  | [] => []
  | frame :: outer => { frame with low := min frame.low low } :: outer

/-- Leave the innermost open vertex.  A vertex that leads back to nothing before it completes its
component. -/
def leave (vertices : List α) (frame : OpenVertex α) (outer : List (OpenVertex α))
    (search : ComponentSearch α) : ComponentSearch α :=
  let search := { search with path := lower frame.low outer }
  if search.number? frame.vertex = some frame.low then search.close vertices frame.vertex
  else search

/-- Look at one neighbour of the innermost open vertex, or leave it after the last.  Neighbours
that are no vertices of the graph are passed over. -/
def step (next : α → List α) (vertices : List α) (search : ComponentSearch α) :
    ComponentSearch α :=
  match search.path with
  | [] => search
  | ⟨v, low, []⟩ :: outer => search.leave vertices ⟨v, low, []⟩ outer
  | ⟨v, low, w :: ahead⟩ :: outer =>
    match search.number? w with
    | none =>
      let search := { search with path := ⟨v, low, ahead⟩ :: outer }
      if w ∈ vertices then search.enter next w else search
    | some number =>
      let low := if w ∈ search.stack then min low number else low
      { search with path := ⟨v, low, ahead⟩ :: outer }

/-- How many neighbours and open vertices are still to be dealt with. -/
def load : List (OpenVertex α) → Nat
  | [] => 0
  | frame :: outer => frame.ahead.length + 1 + load outer

omit [DecidableEq α] in
theorem load_lower (low : Nat) (path : List (OpenVertex α)) : load (lower low path) = load path := by
  cases path <;> rfl

theorem numbers_leave (vertices : List α) (frame : OpenVertex α) (outer : List (OpenVertex α))
    (search : ComponentSearch α) :
    (search.leave vertices frame outer).numbers = search.numbers := by
  simp only [leave]
  split <;> rfl

theorem path_leave (vertices : List α) (frame : OpenVertex α) (outer : List (OpenVertex α))
    (search : ComponentSearch α) :
    (search.leave vertices frame outer).path = lower frame.low outer := by
  simp only [leave]
  split <;> rfl

def entered (search : ComponentSearch α) : List α :=
  search.numbers.map (·.1)

theorem number?_eq_none_iff {search : ComponentSearch α} {v : α} :
    search.number? v = none ↔ v ∉ search.entered := by
  rw [number?, entered, List.lookup_eq_none_iff]
  simp only [bne_iff_ne, ne_eq, List.mem_map, not_exists, not_and]
  exact ⟨fun other pair known same => other pair known same.symm,
    fun other pair known same => other pair known same.symm⟩

/-- Search until no vertex is open. -/
def finish (next : α → List α) (vertices : List α) (search : ComponentSearch α) :
    ComponentSearch α :=
  match _open : search.path with
  | [] => search
  | _ :: _ => finish next vertices (search.step next vertices)
termination_by (unseen vertices search.entered, load search.path)
decreasing_by
  rename_i frame outer
  obtain ⟨v, low, ahead⟩ := frame
  unfold step
  rw [_open]
  cases ahead with
  | nil =>
    simp only [entered, numbers_leave, path_leave, load_lower]
    exact Prod.Lex.right _ (by simp [load])
  | cons w ahead =>
    dsimp only
    cases met : search.number? w with
    | some number => exact Prod.Lex.right _ (by simp [load])
    | none =>
      dsimp only
      split
      · next known =>
        exact Prod.Lex.left _ _ (unseen_cons_lt known (number?_eq_none_iff.1 met))
      · exact Prod.Lex.right _ (by simp [load])

/-- Search from a vertex unless it was entered before. -/
def visit (next : α → List α) (vertices : List α) (search : ComponentSearch α) (v : α) :
    ComponentSearch α :=
  match search.number? v with
  | none => (search.enter next v).finish next vertices
  | some _ => search

end ComponentSearch

/-- The components of the given vertices, each in the order of the vertices. -/
def components {α : Type} [DecidableEq α] (next : α → List α) (vertices : List α) :
    List (List α) :=
  (vertices.foldl (ComponentSearch.visit next vertices) .start).found

end TypeBridge.Search
