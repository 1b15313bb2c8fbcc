/-!
# Quoted literals

A string literal in double quotes.  Backslash and quote are escaped by a backslash, control
characters below the space by their short name or by four hexadecimal digits; every other
character stands for itself.
-/

namespace TypeBridge.Text

/-- A hexadecimal digit below sixteen. -/
def hexDigit (value : Nat) : Char :=
  if value < 10 then Char.ofNat (0x30 + value) else Char.ofNat (0x57 + value)

/-- One character inside a quoted literal. -/
def escaped (c : Char) : List Char :=
  if c = '"' then ['\\', '"']
  else if c = '\\' then ['\\', '\\']
  else if c = '\x08' then ['\\', 'b']
  else if c = '\x0c' then ['\\', 'f']
  else if c = '\n' then ['\\', 'n']
  else if c = '\r' then ['\\', 'r']
  else if c = '\t' then ['\\', 't']
  else if c.toNat < 0x20 then
    ['\\', 'u', '0', '0', hexDigit (c.toNat / 16), hexDigit (c.toNat % 16)]
  else [c]

/-- The text between quotes. -/
def quoted (text : String) : String :=
  String.ofList ('"' :: text.toList.flatMap escaped ++ ['"'])

/-- No literal holds a line break. -/
theorem newline_notMem_escaped (c : Char) : '\n' ∉ escaped c ∧ '\r' ∉ escaped c := by
  have digits : ∀ value, value < 16 → hexDigit value ≠ '\n' ∧ hexDigit value ≠ '\r' := by decide
  unfold escaped
  repeat' split
  all_goals first
    | decide
    | skip
  · next small =>
    have high : c.toNat / 16 < 16 := by omega
    have low : c.toNat % 16 < 16 := Nat.mod_lt _ (by decide)
    have := digits _ high
    have := digits _ low
    simp_all [eq_comm]
  · simp_all [eq_comm]

end TypeBridge.Text
