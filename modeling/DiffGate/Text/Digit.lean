import DiffGate.Text

/-!
# Decimal digits and the numbers they write

A hunk header, a tool tag and a rule code may use the decimal digits of any script, each with its
value: `५` is a digit and is five, `²` is none. The decimal digits of Unicode 14 come in runs of ten
consecutive characters, zero first, so the class is given by its zeros.

A number is read only up to `digitLimit` digits, leading zeros counted. The limit is part of the
contract: a longer run is refused, never read.
-/

set_option autoImplicit false

namespace DiffGate.Text

/-- The zeros of the 66 decimal digit runs. -/
def decimalZeros : List Nat :=
  [0x30, 0x660, 0x6F0, 0x7C0, 0x966, 0x9E6, 0xA66, 0xAE6, 0xB66, 0xBE6, 0xC66, 0xCE6, 0xD66,
    0xDE6, 0xE50, 0xED0, 0xF20, 0x1040, 0x1090, 0x17E0, 0x1810, 0x1946, 0x19D0, 0x1A80, 0x1A90,
    0x1B50, 0x1BB0, 0x1C40, 0x1C50, 0xA620, 0xA8D0, 0xA900, 0xA9D0, 0xA9F0, 0xAA50, 0xABF0,
    0xFF10, 0x104A0, 0x10D30, 0x11066, 0x110F0, 0x11136, 0x111D0, 0x112F0, 0x11450, 0x114D0,
    0x11650, 0x116C0, 0x11730, 0x118E0, 0x11950, 0x11C50, 0x11D50, 0x11DA0, 0x16A60, 0x16AC0,
    0x16B50, 0x1D7CE, 0x1D7D8, 0x1D7E2, 0x1D7EC, 0x1D7F6, 0x1E140, 0x1E2F0, 0x1E950, 0x1FBF0]

/-- The value of a decimal digit of any script. -/
def digitValue? (c : Char) : Option Nat :=
  let n := c.toNat
  if n < 128 then if 48 ≤ n ∧ n ≤ 57 then some (n - 48) else none
  else (decimalZeros.find? fun first => first ≤ n && n < first + 10).map (n - ·)

/-- Decimal digits of any script. -/
def isDecimal (c : Char) : Bool := (digitValue? c).isSome

/-- The digits `0` to `9`. -/
def isAsciiDigit (c : Char) : Bool := '0' ≤ c && c ≤ '9'

/-- ASCII letters. -/
def isAsciiLetter (c : Char) : Bool := ('a' ≤ c && c ≤ 'z') || ('A' ≤ c && c ≤ 'Z')

/-- The number that a run of digits writes, most significant first. -/
def digitsValue (t : Text) : Nat :=
  t.foldl (fun n c => 10 * n + (digitValue? c).getD 0) 0

/-- The longest run of digits that is read as a number. -/
def digitLimit : Nat := 4300

/-- The number that a run of digits writes, refused above `digitLimit` digits. -/
def readDigits? (t : Text) : Option Nat :=
  if t.length ≤ digitLimit then some (digitsValue t) else none

/-- The value of a hexadecimal digit, in either case. -/
def hexValue? (c : Char) : Option Nat :=
  let n := c.toNat
  if 48 ≤ n ∧ n ≤ 57 then some (n - 48)
  else if 65 ≤ n ∧ n ≤ 70 then some (n - 55)
  else if 97 ≤ n ∧ n ≤ 102 then some (n - 87)
  else none

/-- The value of a run of digits in `base`; characters that are no digits count as zero. -/
def baseValue (base : Nat) (t : Text) : Nat :=
  t.foldl (fun n c => base * n + (hexValue? c).getD 0) 0

end DiffGate.Text
