import TypeBridge.Graph.Substitution
import TypeBridge.Graph.TypeGraph

/-!
# Inherited members

The members of a type together with those it inherits.  Supertypes contribute in order and the
first contribution of a key is kept; a later one that differs is a conflict.  Own members override
by key.  Types on the way up are entered once, so that cycles end.
-/

namespace TypeBridge

/-- A member and the type that contributes it. -/
structure Contribution where
  member : Member
  origin : String
  deriving DecidableEq

/-- Two contributions with one key and different content. -/
structure MemberConflict where
  key : String
  kept : String
  dropped : String
  deriving DecidableEq

/-- Contributions with distinct keys, and the conflicts met on the way. -/
structure MemberSet where
  contributions : List Contribution
  conflicts : List MemberConflict

namespace MemberSet

def empty : MemberSet :=
  ⟨[], []⟩

def members (set : MemberSet) : List Member :=
  set.contributions.map (·.member)

def find? (set : MemberSet) (key : String) : Option Contribution :=
  set.contributions.find? (·.member.key == key)

/-- Add an inherited contribution unless its key is taken. -/
def keep (set : MemberSet) (new : Contribution) : MemberSet :=
  match set.find? new.member.key with
  | none => { set with contributions := set.contributions ++ [new] }
  | some old =>
    if old.member = new.member then set
    else
      { set with
        conflicts := set.conflicts ++ [⟨new.member.key, old.origin, new.origin⟩] }

/-- Add what a further supertype contributes. -/
def absorb (set inherited : MemberSet) : MemberSet :=
  inherited.contributions.foldl keep
    { set with conflicts := set.conflicts ++ inherited.conflicts }

/-- Put a contribution in place of the one with its key, or behind all others. -/
def place (new : Contribution) : List Contribution → List Contribution
  | [] => [new]
  | old :: rest =>
    if old.member.key = new.member.key then new :: rest else old :: place new rest

/-- Let members of a type override. -/
def override (set : MemberSet) (origin : String) (members : List Member) : MemberSet :=
  { set with
    contributions := members.foldl (fun all member => place ⟨member, origin⟩ all)
      set.contributions }

end MemberSet

namespace TypeGraph

/-- The supertypes of a node that are in the graph, with the types they are applied to. -/
def parents (graph : TypeGraph) (node : Node) (bindings : Bindings) : List (Node × Bindings) :=
  node.supertypes.filterMap fun
    | .named name args =>
      (graph.get? name).map fun parent =>
        (parent, parent.bind (args.map (·.substitute bindings)))
    | _ => none

/-- Absorb what supertypes contribute.  Only types in `available` may still be entered. -/
def inherit (graph : TypeGraph) (available : List String) :
    List (Node × Bindings) → MemberSet → MemberSet
  | [], set => set
  | (parent, bindings) :: rest, set =>
    if _entered : parent.name ∈ available then
      let above :=
        inherit graph (available.erase parent.name) (graph.parents parent bindings) .empty
      let whole := above.override parent.name (parent.members.map (·.substitute bindings))
      inherit graph available rest (set.absorb whole)
    else inherit graph available rest set
termination_by parents => (available.length, parents.length)
decreasing_by
  · exact Prod.Lex.left _ _ (by
      rw [List.length_erase_of_mem _entered]
      have := List.length_pos_of_mem _entered
      omega)
  · exact Prod.Lex.right _ (by simp)
  · exact Prod.Lex.right _ (by simp)

/-- Every member of a node, inherited ones included. -/
def allMembers (graph : TypeGraph) (node : Node) : MemberSet :=
  (graph.inherit (graph.names.erase node.name) (graph.parents node []) .empty).override
    node.name node.members

/-- The members of a variant: those of its closed supertypes, which it cannot refer to by name, and
its own. -/
def variantMembers (graph : TypeGraph) (node : Node) : MemberSet :=
  (graph.inherit (graph.names.erase node.name)
    ((graph.parents node []).filter (·.1.isClosed)) .empty).override node.name node.members

end TypeGraph

end TypeBridge
