import DiffGate.Text.Quoted

/-!
# Text with lone surrogates

A document in JSON names code units, and so it can name half of a surrogate pair without the other
half. There is no character for that and no UTF-8, so what it writes is no text here. It is a value
all the same, which is compared, looked up and dropped like any other.

It comes to matter where it has to be written as bytes. A report is in UTF-8, which has nothing for
a lone surrogate. A file name need not be UTF-8: those of its bytes that are none stand as the
surrogates from U+DC80 to U+DCFF, one for each, and only the others cannot be written.
-/

set_option autoImplicit false

namespace DiffGate

/-- Half of a surrogate pair. -/
structure Surrogate where
  unit : Nat
  isSurrogate : 0xD800 ≤ unit ∧ unit < 0xE000
  deriving DecidableEq

/-- Whether a surrogate stands for a byte of a file name. -/
def Surrogate.isByte (s : Surrogate) : Bool := 0xDC80 ≤ s.unit && s.unit < 0xDD00

/-- A character, or a surrogate that stands alone. -/
inductive CodePoint
  | char (c : Char)
  | lone (s : Surrogate)
  deriving DecidableEq

namespace CodePoint

/-- The code point of a code unit that is no half of a pair. -/
def ofUnit (n : Nat) : CodePoint :=
  if h : 0xD800 ≤ n ∧ n < 0xE000 then .lone ⟨n, h⟩ else .char (Char.ofNat n)

/-- The number of a code point. -/
def toNat : CodePoint → Nat
  | .char c => c.toNat
  | .lone s => s.unit

/-- The character that a code point is. -/
def char? : CodePoint → Option Char
  | .char c => some c
  | .lone _ => none

/-- Whether no file name can hold the code point, because no byte stands for it. -/
def isUnencodable : CodePoint → Bool
  | .char _ => false
  | .lone s => !s.isByte

/-- A code point as it stands between quotes. -/
def escape (quote : Char) : CodePoint → Text
  | .char c => Text.escape quote c
  | .lone s => "\\u".toList ++ Text.hex 4 s.unit

end CodePoint

/-- What would be text but for lone surrogates: the text before the first of them, that one, and
what follows. -/
structure Ragged where
  front : Text
  lone : Surrogate
  rest : List CodePoint
  deriving DecidableEq

namespace Ragged

/-- The code points in order. -/
def points (r : Ragged) : List CodePoint := r.front.map .char ++ .lone r.lone :: r.rest

/-- What code points write: text, or else what a lone surrogate keeps from being text. -/
def read : List CodePoint → Text ⊕ Ragged
  | [] => .inl []
  | .lone s :: rest => .inr ⟨[], s, rest⟩
  | .char c :: rest =>
    match read rest with
    | .inl t => .inl (c :: t)
    | .inr r => .inr ⟨c :: r.front, r.lone, r.rest⟩

/-- The code points in quotes. -/
def quoted (r : Ragged) : Text :=
  let quote := Text.quoteFor (r.points.filterMap CodePoint.char?)
  quote :: (r.points.flatMap (CodePoint.escape quote) ++ [quote])

end Ragged

end DiffGate
