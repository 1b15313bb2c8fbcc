import TypeBridge.Proofs.SignatureResolution

/-!
# The calls of a resolution

Resolving a signature resolves its parts, and resolving a reference without arguments resolves the
bounds of another type, which are no part of it.  Meanwhile that type is in the set of types whose
bounds are being resolved, and a type in the set is not entered again.  So every call either has the
same set and a lower signature, or a type of the model less that may still be entered.
-/

namespace TypeBridge

namespace Signature

mutual

/-- How deep a signature is. -/
def height : Signature → Nat
  | named _ args => heightOfAll args + 1
  | array element => element.height + 1
  | anything => 1
  | anyBelow bound => bound.height + 1
  | anyAbove bound => bound.height + 1

/-- How deep the deepest of some signatures is. -/
def heightOfAll : List Signature → Nat
  | [] => 0
  | signature :: rest => max signature.height (heightOfAll rest)

end

theorem height_pos (signature : Signature) : 0 < signature.height := by
  cases signature <;> simp [height]

theorem height_le_heightOfAll {signature : Signature} {all : List Signature}
    (member : signature ∈ all) : signature.height ≤ heightOfAll all := by
  induction all with
  | nil => cases member
  | cons first rest ih =>
    rw [heightOfAll]
    rcases List.mem_cons.1 member with rfl | later
    · exact Nat.le_max_left _ _
    · exact Nat.le_trans (ih later) (Nat.le_max_right _ _)

end Signature

/-- A signature that is to be resolved while the bounds of some types are being resolved. -/
structure Call where
  busy : List String
  placed : Placed

namespace HostView

/-- The first call is made by the second one. -/
inductive Calls (view : HostView) : Call → Call → Prop
  | boundBelow {busy scope : List String} {bound : Signature} :
      Calls view ⟨busy, ⟨scope, bound⟩⟩ ⟨busy, ⟨scope, .anyBelow bound⟩⟩
  | boundAbove {busy scope : List String} {bound : Signature} :
      Calls view ⟨busy, ⟨scope, bound⟩⟩ ⟨busy, ⟨scope, .anyAbove bound⟩⟩
  | element {busy scope : List String} {element : Signature} :
      Calls view ⟨busy, ⟨scope, element⟩⟩ ⟨busy, ⟨scope, .array element⟩⟩
  | argument {busy scope : List String} {name : String} {arg : Signature} {args : List Signature}
      (given : arg ∈ args) : Calls view ⟨busy, ⟨scope, arg⟩⟩ ⟨busy, ⟨scope, .named name args⟩⟩
  /-- A reference without arguments enters its type. -/
  | raw {busy scope : List String} {name : String} {type : HostType} {bound : Placed}
      (admitted : view.admitted? name = some type) (idle : name ∉ busy)
      (declared : bound ∈ boundsIn (view.varsIn name type.generics) type.generics) :
      Calls view ⟨name :: busy, bound⟩ ⟨busy, ⟨scope, .named name []⟩⟩

/-- How deep the deepest bound of a type parameter is. -/
def boundHeight (view : HostView) : Nat :=
  Signature.heightOfAll ((view.model.types.flatMap (·.generics)).filterMap (·.bound))

/-- How deep the calls below a call can go. -/
def rank (view : HostView) (call : Call) : Nat :=
  Search.unseen view.model.names call.busy * view.boundHeight + call.placed.signature.height

variable {view : HostView} {inner outer : Call}

theorem rank_pos (call : Call) : 0 < view.rank call :=
  Nat.lt_of_lt_of_le call.placed.signature.height_pos (Nat.le_add_left _ _)

/-- The bounds of a type of the model are at most as deep as the deepest one. -/
theorem height_le_boundHeight {scope : List String} {name : String} {type : HostType}
    {bound : Placed} (admitted : view.admitted? name = some type)
    (declared : bound ∈ boundsIn scope type.generics) :
    bound.signature.height ≤ view.boundHeight := by
  obtain ⟨signature, member, rfl⟩ := List.mem_map.1 declared
  obtain ⟨generic, known, same⟩ := List.mem_filterMap.1 member
  obtain ⟨inModel, -⟩ := HostModel.get?_eq_some_iff.1 (admitted?_eq_some_iff.1 admitted).1
  exact Signature.height_le_heightOfAll
    (List.mem_filterMap.2 ⟨generic, List.mem_flatMap.2 ⟨type, inModel, known⟩, same⟩)

/-- A call has a lower rank than the one that makes it. -/
theorem Calls.rank_lt (calls : view.Calls inner outer) : view.rank inner < view.rank outer := by
  cases calls with
  | boundBelow | boundAbove | element =>
    exact Nat.add_lt_add_left (by simp [Signature.height]) _
  | argument given =>
    exact Nat.add_lt_add_left (Nat.lt_succ_of_le (Signature.height_le_heightOfAll given)) _
  | @raw busy scope name type bound admitted idle declared =>
    -- The bound may be deeper than the reference, but one type less may be entered below it.
    have fewer := Search.unseen_cons_lt (mem_names_of_admitted? admitted) idle
    calc view.rank ⟨name :: busy, bound⟩
        ≤ (Search.unseen view.model.names (name :: busy) + 1) * view.boundHeight := by
          rw [Nat.succ_mul]
          exact Nat.add_le_add_left (height_le_boundHeight admitted declared) _
      _ ≤ Search.unseen view.model.names busy * view.boundHeight := Nat.mul_le_mul_right _ fewer
      _ < view.rank ⟨busy, ⟨scope, .named name []⟩⟩ :=
          Nat.lt_add_of_pos_right (Signature.height_pos _)

/-- No chain of calls goes on forever, whatever the bounds of the model refer to. -/
theorem wellFounded_calls (view : HostView) : WellFounded view.Calls :=
  Subrelation.wf (fun calls => calls.rank_lt) (measure view.rank).wf

end HostView

end TypeBridge
