/-!
# White space

The characters with the Unicode property `White_Space`, and trimming.
-/

namespace TypeBridge.Text

/-- White space of every script. -/
def isBlank (c : Char) : Bool :=
  let code := c.toNat
  (0x09 ≤ code && code ≤ 0x0D) || code == 0x20 || code == 0x85 || code == 0xA0 ||
    code == 0x1680 || (0x2000 ≤ code && code ≤ 0x200A) || code == 0x2028 || code == 0x2029 ||
    code == 0x202F || code == 0x205F || code == 0x3000

def trimFront (text : List Char) : List Char :=
  text.dropWhile isBlank

def trimBack (text : List Char) : List Char :=
  (text.reverse.dropWhile isBlank).reverse

def trim (text : List Char) : List Char :=
  trimBack (trimFront text)

/-- Nothing but white space. -/
def isBlankText (text : String) : Bool :=
  text.toList.all isBlank

theorem length_trimFront_le (text : List Char) : (trimFront text).length ≤ text.length :=
  (List.dropWhile_sublist _).length_le

end TypeBridge.Text
