/-!
# Code point order

Texts compared character by character by code point, a text before its own continuations.  This is
also the order of their UTF-8 bytes.
-/

namespace TypeBridge.Text

/-- The order on characters. -/
def charsBefore : List Char → List Char → Bool
  | _, [] => false
  | [], _ :: _ => true
  | c :: cs, d :: ds => c.toNat < d.toNat || (c.toNat == d.toNat && charsBefore cs ds)

/-- Strictly smaller in code point order. -/
def before (a b : String) : Bool :=
  charsBefore a.toList b.toList

/-- Put a pair into a list of pairs sorted by key, behind those with an equal key. -/
def insertByKey {α : Type} (key : String) (value : α) : List (String × α) → List (String × α)
  | [] => [(key, value)]
  | (k, v) :: rest =>
    if before key k then (key, value) :: (k, v) :: rest
    else (k, v) :: insertByKey key value rest

def sorted (texts : List String) : List String :=
  (texts.foldr (fun text => insertByKey text ()) []).map (·.1)

end TypeBridge.Text
