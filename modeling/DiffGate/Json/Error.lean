import DiffGate.Text

/-!
# Why a text is no JSON document

The cause, and where it was met. The place is shown as a line, a column and a character index; lines
and columns start at one, the index at zero, and only line feeds end lines.
-/

set_option autoImplicit false

namespace DiffGate.Json

/-- What is wrong. -/
inductive Problem
  | noValue
  | noName
  | noColon
  | noComma
  | unterminated
  | controlCharacter
  | badEscape
  | badUnicodeEscape
  | extraData
  | byteOrderMark
  deriving DecidableEq

/-- What is wrong, and how many characters were left there. -/
structure Malformed where
  problem : Problem
  left : Nat
  deriving DecidableEq

namespace Problem

/-- What is wrong, in words. -/
def text : Problem → String
  | .noValue => "Expecting value"
  | .noName => "Expecting property name enclosed in double quotes"
  | .noColon => "Expecting ':' delimiter"
  | .noComma => "Expecting ',' delimiter"
  | .unterminated => "Unterminated string starting at"
  | .controlCharacter => "Invalid control character at"
  | .badEscape => "Invalid \\escape"
  | .badUnicodeEscape => "Invalid \\uXXXX escape"
  | .extraData => "Extra data"
  | .byteOrderMark => "Unexpected UTF-8 BOM (decode using utf-8-sig)"

end Problem

/-- What is wrong with a document, and where. -/
def Malformed.message (document : Text) (e : Malformed) : Text :=
  let index := document.length - e.left
  let before := document.take index
  let line := before.count '\n' + 1
  let column := (Text.afterLast '\n' before).length + 1
  e.problem.text.toList ++ ": line ".toList ++ Text.ofNat line ++ " column ".toList ++
    Text.ofNat column ++ " (char ".toList ++ Text.ofNat index ++ [')']

end DiffGate.Json
