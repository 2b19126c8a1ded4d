import DiffGate.Text
import DiffGate.Text.Printable

/-!
# Quoted text

A name inside a message is shown in quotes, with everything that would not show escaped. The quote
is the single one, unless the text holds a single quote and no double one.
-/

set_option autoImplicit false

namespace DiffGate.Text

/-- A hexadecimal number in lower case, filled with zeros up to `width` digits. -/
def hex (width n : Nat) : Text := padLeft '0' width (Nat.toDigits 16 n)

/-- One character by the number of its code point. -/
def escapeCode (c : Char) : Text :=
  if c.toNat < 0x100 then "\\x".toList ++ hex 2 c.toNat
  else if c.toNat < 0x10000 then "\\u".toList ++ hex 4 c.toNat
  else "\\U".toList ++ hex 8 c.toNat

/-- One character as it stands between quotes. -/
def escape (quote : Char) (c : Char) : Text :=
  if c = quote ∨ c = '\\' then ['\\', c]
  else if c = '\t' then "\\t".toList
  else if c = '\n' then "\\n".toList
  else if c = '\r' then "\\r".toList
  else if isPrintable c then [c]
  else escapeCode c

/-- The quote that `t` is shown in. -/
def quoteFor (t : Text) : Char :=
  if t.contains '\'' && !t.contains '"' then '"' else '\''

/-- Text in quotes. -/
def quoted (t : Text) : Text :=
  let quote := quoteFor t
  quote :: (t.flatMap (escape quote) ++ [quote])

end DiffGate.Text
