import DiffGate.Datum
import DiffGate.Json.Error

/-!
# Reading JSON documents

The reader follows the JSON grammar, with three liberties: `NaN`, `Infinity` and `-Infinity` are
numbers, a name that is written twice has its last value in its first place, and a surrogate that is
written without its other half stands alone in the string. A byte order mark in front is refused.

Each value is read from the front of the text. The reader's fuel is twice the text's length and a
little more: going one level deeper takes two steps, and has consumed a bracket or a brace.
-/

set_option autoImplicit false

namespace DiffGate.Json

/-- Why a document is not read. -/
inductive Failure
  | malformed (e : Malformed)
  /-- An integer of more digits than are read. -/
  | overlongNumber
  deriving DecidableEq

/-- A failure at the point where `rest` is left. -/
def failAt {α : Type} (problem : Problem) (rest : Text) : Except Failure α :=
  .error (.malformed ⟨problem, rest.length⟩)

/-- The blanks of JSON. -/
def isSpace (c : Char) : Bool := c == ' ' || c == '\t' || c == '\n' || c == '\r'

/-- The text without blanks in front. -/
def skipSpace (t : Text) : Text := t.dropWhile isSpace

/-! ## Strings -/

/-- The value of four hexadecimal digits. -/
def hex4? (a b c d : Char) : Option Nat := do
  let a ← Text.hexValue? a
  let b ← Text.hexValue? b
  let c ← Text.hexValue? c
  let d ← Text.hexValue? d
  return ((a * 16 + b) * 16 + c) * 16 + d

/-- The character that two code units stand for together, and the text after the second, if the
first is a high surrogate and an escaped low one follows. -/
def surrogatePair? (high : Nat) (rest : Text) : Option Char :=
  match rest with
  | '\\' :: 'u' :: a :: b :: c :: d :: _ :: _ =>
    match hex4? a b c d with
    | some low =>
      if 0xD800 ≤ high ∧ high < 0xDC00 ∧ 0xDC00 ≤ low ∧ low < 0xE000 then
        some (Char.ofNat (0x10000 + (high - 0xD800) * 0x400 + (low - 0xDC00)))
      else none
    | none => none
  | _ => none

/-- Whether a second escape follows a high surrogate and is not four hexadecimal digits. -/
def badPair (high : Nat) (rest : Text) : Bool :=
  match rest with
  | '\\' :: 'u' :: a :: b :: c :: d :: _ :: _ =>
    decide (0xD800 ≤ high ∧ high < 0xDC00) && (hex4? a b c d).isNone
  | _ => false

/-- The character of a one-letter escape. -/
def simpleEscape? : Char → Option Char
  | '"' => some '"'
  | '\\' => some '\\'
  | '/' => some '/'
  | 'b' => some '\x08'
  | 'f' => some '\x0c'
  | 'n' => some '\n'
  | 'r' => some '\r'
  | 't' => some '\t'
  | _ => none

/-- The code points of a string after its opening quote, and what follows its closing quote.
`opening` is the text from the opening quote on, where an unterminated string is reported. -/
def string (fuel : Nat) (opening : Text) (t : Text) : Except Failure (List CodePoint × Text) :=
  match fuel with
  | 0 => failAt .unterminated opening
  | fuel + 1 =>
    match t with
    | [] => failAt .unterminated opening
    | '"' :: rest => .ok ([], rest)
    | '\\' :: escaped =>
      match escaped with
      | [] => failAt .unterminated opening
      | 'u' :: digits =>
        match digits with
        | a :: b :: c :: d :: e :: rest =>
          match hex4? a b c d with
          | none => failAt .badUnicodeEscape escaped
          | some unit =>
            if badPair unit (e :: rest) then failAt .badUnicodeEscape rest
            else
              match surrogatePair? unit (e :: rest) with
              | some char =>
                (string fuel opening (rest.drop 5)).map fun (ps, rest) => (.char char :: ps, rest)
              | none =>
                (string fuel opening (e :: rest)).map fun (ps, rest) => (.ofUnit unit :: ps, rest)
        | _ => failAt .badUnicodeEscape escaped
      | c :: rest =>
        match simpleEscape? c with
        | some char => (string fuel opening rest).map fun (ps, rest) => (.char char :: ps, rest)
        | none => failAt .badEscape t
    | c :: rest =>
      if c.toNat < 32 then failAt .controlCharacter t
      else (string fuel opening rest).map fun (ps, rest) => (.char c :: ps, rest)

/-! ## Numbers -/

/-- A point with at least one digit after it: the digits, and what follows them. -/
def fraction (t : Text) : Option Text × Text :=
  match t with
  | '.' :: rest =>
    match rest.span Text.isAsciiDigit with
    | ([], _) => (none, t)
    | (digits, rest) => (some digits, rest)
  | _ => (none, t)

/-- An exponent mark with at least one digit after it and its sign: the exponent, and what follows.
-/
def exponent (t : Text) : Option Int × Text :=
  match t with
  | c :: rest =>
    if c = 'e' ∨ c = 'E' then
      let (negative, unsigned) :=
        match rest with
        | '-' :: rest => (true, rest)
        | '+' :: rest => (false, rest)
        | _ => (false, rest)
      match unsigned.span Text.isAsciiDigit with
      | ([], _) => (none, t)
      | (digits, rest) =>
        let n : Int := Text.digitsValue digits
        (some (if negative then -n else n), rest)
    else (none, t)
  | [] => (none, t)

/-- The digits before the point: a zero alone, or digits that start with none. -/
def wholeDigits (t : Text) : Text × Text :=
  match t with
  | '0' :: rest => (['0'], rest)
  | _ => t.span Text.isAsciiDigit

/-- A number after its sign, `start` being the text from the sign on. -/
def number (negative : Bool) (start t : Text) : Except Failure (Datum × Text) :=
  match wholeDigits t with
  | ([], _) => failAt .noValue start
  | (digits, rest) =>
    let (places, rest) := fraction rest
    let (power, rest) := exponent rest
    if places.isNone && power.isNone then
      match Text.readDigits? digits with
      | some n => .ok (.int (if negative then -n else n), rest)
      | none => .error .overlongNumber
    else
      let places := places.getD []
      let value := Text.digitsValue (digits ++ places)
      .ok (.real (.ofDecimal negative value (power.getD 0 - places.length)), rest)

/-! ## Values -/

/-- The word at the front, and what follows it. -/
def keyword? (t : Text) : Option (Datum × Text) :=
  let words : List (String × Datum) :=
    [("null", .null), ("true", .bool true), ("false", .bool false), ("NaN", .real .nan),
      ("Infinity", .real (.infinite false)), ("-Infinity", .real (.infinite true))]
  words.findSome? fun (word, value) => (Text.after? word.toList t).map (value, ·)

mutual

/-- A value at the front of the text, and what follows it. -/
def value (fuel : Nat) (t : Text) : Except Failure (Datum × Text) :=
  match fuel with
  | 0 => failAt .noValue t
  | fuel + 1 =>
    match t with
    | '"' :: rest => (string t.length t rest).map fun (ps, rest) => (.ofPoints ps, rest)
    | '{' :: rest =>
      match skipSpace rest with
      | '}' :: rest => .ok (.map [], rest)
      | rest => (members fuel [] rest).map fun (entries, rest) => (.map entries, rest)
    | '[' :: rest =>
      match skipSpace rest with
      | ']' :: rest => .ok (.list [], rest)
      | rest => (elements fuel rest).map fun (items, rest) => (.list items, rest)
    | _ =>
      match keyword? t with
      | some found => .ok found
      | none =>
        match t with
        | '-' :: rest => number true t rest
        | _ => number false t t

/-- The elements of an array up to its closing bracket. -/
def elements (fuel : Nat) (t : Text) : Except Failure (List Datum × Text) :=
  match fuel with
  | 0 => failAt .noValue t
  | fuel + 1 =>
    match value fuel t with
    | .error e => .error e
    | .ok (item, rest) =>
      match skipSpace rest with
      | ']' :: rest => .ok ([item], rest)
      | ',' :: rest =>
        (elements fuel (skipSpace rest)).map fun (items, rest) => (item :: items, rest)
      | rest => failAt .noComma rest

/-- The members of an object up to its closing brace, set over the entries before them. -/
def members (fuel : Nat) (entries : List (Datum × Datum)) (t : Text) :
    Except Failure (List (Datum × Datum) × Text) :=
  match fuel with
  | 0 => failAt .noName t
  | fuel + 1 =>
    match t with
    | '"' :: rest =>
      match string t.length t rest with
      | .error e => .error e
      | .ok (name, rest) =>
        match skipSpace rest with
        | ':' :: rest =>
          match value fuel (skipSpace rest) with
          | .error e => .error e
          | .ok (item, rest) =>
            let entries := Datum.put (.ofPoints name) item entries
            match skipSpace rest with
            | '}' :: rest => .ok (entries, rest)
            | ',' :: rest => members fuel entries (skipSpace rest)
            | rest => failAt .noComma rest
        | rest => failAt .noColon rest
    | _ => failAt .noName t

end

/-- The document that a text writes. -/
def read (t : Text) : Except Failure Datum :=
  if t.head? = some '\uFEFF' then failAt .byteOrderMark t
  else
    match value (2 * t.length + 2) (skipSpace t) with
    | .error e => .error e
    | .ok (document, rest) =>
      match skipSpace rest with
      | [] => .ok document
      | rest => failAt .extraData rest

end DiffGate.Json
