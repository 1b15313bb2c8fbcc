/-!
# Resolved types

A host type whose names have been looked up: what a declaration can say about a type, and the
graph types it mentions.
-/

namespace TypeBridge

/-- Types that every declaration knows. -/
inductive Primitive where
  | boolean
  | number
  | string
  | void
  deriving DecidableEq, Repr

def Primitive.word : Primitive → String
  | .boolean => "boolean"
  | .number => "number"
  | .string => "string"
  | .void => "void"

/-- A type with every name resolved. -/
inductive ResolvedType where
  | primitive (which : Primitive)
  /-- A type of the graph. -/
  | named (name : String) (args : List ResolvedType)
  /-- A type variable of the place where the type stands. -/
  | var (name : String)
  | array (element : ResolvedType)
  | set (element : ResolvedType)
  | map (key value : ResolvedType)
  | optional (inner : ResolvedType)
  /-- `?`. -/
  | anything
  /-- `? extends A`. -/
  | anyBelow (bound : ResolvedType)
  /-- `? super A`. -/
  | anyAbove (bound : ResolvedType)
  /-- A type that nothing is said about. -/
  | unknown
  deriving Inhabited

namespace ResolvedType

mutual

/-- The graph types mentioned, from left to right. -/
def names : ResolvedType → List String
  | named name args => name :: namesOfAll args
  | array element | set element | optional element => element.names
  | map key value => key.names ++ value.names
  | anyBelow bound | anyAbove bound => bound.names
  | primitive _ | var _ | anything | unknown => []

def namesOfAll : List ResolvedType → List String
  | [] => []
  | type :: rest => type.names ++ namesOfAll rest

end

theorem mem_namesOfAll_iff {types : List ResolvedType} {name : String} :
    name ∈ namesOfAll types ↔ ∃ type ∈ types, name ∈ type.names := by
  induction types with
  | nil => simp [namesOfAll]
  | cons type types ih => simp [namesOfAll, ih]

mutual

/-- The type variables mentioned, from left to right. -/
def vars : ResolvedType → List String
  | var name => [name]
  | named _ args => varsOfAll args
  | array element | set element | optional element => element.vars
  | map key value => key.vars ++ value.vars
  | anyBelow bound | anyAbove bound => bound.vars
  | primitive _ | anything | unknown => []

def varsOfAll : List ResolvedType → List String
  | [] => []
  | type :: rest => type.vars ++ varsOfAll rest

end

theorem mem_varsOfAll_iff {types : List ResolvedType} {name : String} :
    name ∈ varsOfAll types ↔ ∃ type ∈ types, name ∈ type.vars := by
  induction types with
  | nil => simp [varsOfAll]
  | cons type types ih => simp [varsOfAll, ih]

/-- The name of the graph type at the head. -/
def name? : ResolvedType → Option String
  | named name _ => some name
  | _ => none

mutual

/-- Structural comparison. -/
def same : ResolvedType → ResolvedType → Bool
  | primitive p, primitive q => p == q
  | named n args, named m others => n == m && sameAll args others
  | var n, var m => n == m
  | array s, array t => s.same t
  | set s, set t => s.same t
  | map k v, map l w => k.same l && v.same w
  | optional s, optional t => s.same t
  | anything, anything => true
  | anyBelow s, anyBelow t => s.same t
  | anyAbove s, anyAbove t => s.same t
  | unknown, unknown => true
  | _, _ => false

def sameAll : List ResolvedType → List ResolvedType → Bool
  | [], [] => true
  | s :: ss, t :: ts => s.same t && sameAll ss ts
  | _, _ => false

end

mutual

theorem same_iff : ∀ s t : ResolvedType, s.same t = true ↔ s = t
  | primitive p, t => by cases t <;> simp [same]
  | named n args, t => by cases t <;> simp [same, sameAll_iff args]
  | var n, t => by cases t <;> simp [same]
  | array s, t => by cases t <;> simp [same, same_iff s]
  | set s, t => by cases t <;> simp [same, same_iff s]
  | map k v, t => by cases t <;> simp [same, same_iff k, same_iff v]
  | optional s, t => by cases t <;> simp [same, same_iff s]
  | anything, t => by cases t <;> simp [same]
  | anyBelow s, t => by cases t <;> simp [same, same_iff s]
  | anyAbove s, t => by cases t <;> simp [same, same_iff s]
  | unknown, t => by cases t <;> simp [same]

theorem sameAll_iff : ∀ ss ts : List ResolvedType, sameAll ss ts = true ↔ ss = ts
  | [], ts => by cases ts <;> simp [sameAll]
  | s :: ss, ts => by cases ts <;> simp [sameAll, same_iff s, sameAll_iff ss]

end

instance : DecidableEq ResolvedType := fun s t =>
  decidable_of_iff _ (same_iff s t)

end ResolvedType

end TypeBridge
