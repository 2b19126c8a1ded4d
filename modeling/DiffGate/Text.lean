/-!
# Text as a list of characters

Everything the gate decides, it decides by looking at characters one after another: a diff line's
first character, a glob's stars, a rule code's digits. So text is a `List Char` throughout, every
reader is a recursion on that list, and strings appear only as literals and at the program's edge.

The operations here are the ones every other module leans on: splitting at a separator, joining,
reading a fixed lead, and writing numbers in decimal.
-/

set_option autoImplicit false

namespace DiffGate

/-- Text is its characters, in order. Counts and cuts are in characters. -/
abbrev Text := List Char

namespace Text

/-- The rest of `t` after `lead`, when `t` starts with it. -/
def after? (lead t : Text) : Option Text := lead.isPrefixOf? t

/-- Whether `t` starts with `lead`. -/
def startsWith (t lead : Text) : Bool := lead.isPrefixOf t

/-- Whether `t` ends with `tail`. -/
def endsWith (t tail : Text) : Bool := tail.isSuffixOf t

/-- Text as the pieces between separators: there is always at least one piece, and joining the
pieces with the separator gives the text back. -/
def split (sep : Char) : Text → List Text
  | [] => [[]]
  | c :: cs =>
    if c = sep then [] :: split sep cs
    else
      match split sep cs with
      | [] => [[c]]
      | piece :: pieces => (c :: piece) :: pieces

/-- Pieces with `sep` between them. -/
def join (sep : Text) (pieces : List Text) : Text := sep.intercalate pieces

/-- The text up to the first `sep` and the text after it, when `sep` occurs. -/
def cut? (sep : Char) : Text → Option (Text × Text)
  | [] => none
  | c :: cs =>
    if c = sep then some ([], cs)
    else (cut? sep cs).map fun (before, rest) => (c :: before, rest)

/-- `t` without the characters at its end that satisfy `p`. -/
def dropEndWhile (p : Char → Bool) (t : Text) : Text := (t.reverse.dropWhile p).reverse

/-- What follows the last `sep`, or all of `t` when there is none. -/
def afterLast (sep : Char) (t : Text) : Text := (t.reverse.takeWhile (· ≠ sep)).reverse

/-- A natural number in decimal digits, without leading zeros. -/
def ofNat (n : Nat) : Text := Nat.toDigits 10 n

/-- An integer in decimal digits, a minus sign in front of a negative one. -/
def ofInt : Int → Text
  | .ofNat n => ofNat n
  | .negSucc n => '-' :: ofNat (n + 1)

/-- `t` with spaces or zeros in front up to `width` characters. -/
def padLeft (fill : Char) (width : Nat) (t : Text) : Text :=
  List.replicate (width - t.length) fill ++ t

/-! ## Lines -/

/-- Every line break written as one line feed: a carriage return with a line feed after it and one
that stands alone both become a line feed. -/
def unifyBreaks : Text → Text
  | [] => []
  | '\r' :: '\n' :: cs => '\n' :: unifyBreaks cs
  | '\r' :: cs => '\n' :: unifyBreaks cs
  | c :: cs => c :: unifyBreaks cs

/-- The line without the carriage return it may end in. Only one is dropped. -/
def dropReturn : Text → Text
  | [] => []
  | ['\r'] => []
  | c :: cs => c :: dropReturn cs

/-- The lines of a text that only line feeds divide, each without one final carriage return. Form
feeds, U+2028 and carriage returns inside a line stay where they are. -/
def lines (t : Text) : List Text := (split '\n' t).map dropReturn

end Text

end DiffGate
