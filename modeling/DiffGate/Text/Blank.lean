import DiffGate.Text

/-!
# Blank characters

Which characters count as blank decides what stripping removes, where a path in a file marker ends,
and how much of a message's tail goes with a tool tag. The class is the Unicode white space together
with the four information separators U+001C to U+001F; the zero-width characters U+200B, U+180E and
U+FEFF are not in it.
-/

set_option autoImplicit false

namespace DiffGate.Text

/-- Blank characters. -/
def isBlank (c : Char) : Bool :=
  let n := c.toNat
  (9 ≤ n && n ≤ 13) || (28 ≤ n && n ≤ 32) || n == 0x85 || n == 0xA0 || n == 0x1680 ||
    (0x2000 ≤ n && n ≤ 0x200A) || n == 0x2028 || n == 0x2029 || n == 0x202F || n == 0x205F ||
    n == 0x3000

/-- Text without the blanks at both ends. -/
def strip (t : Text) : Text := dropEndWhile isBlank (t.dropWhile isBlank)

/-- The longest run of non-blank characters at the front, and what follows it. -/
def word (t : Text) : Text × Text := t.span (!isBlank ·)

end DiffGate.Text
