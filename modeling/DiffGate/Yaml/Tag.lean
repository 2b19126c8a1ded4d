import DiffGate.Calendar
import DiffGate.Text.Digit

/-!
# Tags and the kinds of plain scalars

A tag says what kind of value a node is. A node without one has its kind from its shape: collections
are sequences or mappings, quoted scalars are text, and a plain scalar is a number, a truth value, a
date or nothing when it is written as one, and text otherwise. The written forms are those of YAML
1.1: `yes` and `off` are truth values, `010` is eight, `1:30` is ninety.
-/

set_option autoImplicit false

namespace DiffGate.Yaml

/-- The kind of a node. -/
inductive Tag
  | null
  | bool
  | int
  | float
  | binary
  | timestamp
  | text
  | sequence
  | mapping
  | set
  | orderedMap
  | pairs
  /-- `<<`, a key whose value's entries are merged. -/
  | merge
  /-- `=`, a key for the value itself. -/
  | value
  | other (t : Text)
  deriving DecidableEq

namespace Tag

/-- What the addresses of the standard kinds start with. -/
def standardLead : Text := "tag:yaml.org,2002:".toList

/-- The standard kinds by their names. -/
def standard : List (Text × Tag) :=
  [("null".toList, .null), ("bool".toList, .bool), ("int".toList, .int), ("float".toList, .float),
    ("binary".toList, .binary), ("timestamp".toList, .timestamp), ("str".toList, .text),
    ("seq".toList, .sequence), ("map".toList, .mapping), ("set".toList, .set),
    ("omap".toList, .orderedMap), ("pairs".toList, .pairs), ("merge".toList, .merge),
    ("value".toList, .value)]

/-- The kind with an address. -/
def ofAddress (address : Text) : Tag :=
  ((Text.after? standardLead address).bind fun name => standard.lookup name).getD (.other address)

/-- The address of a kind. -/
def address : Tag → Text
  | .other t => t
  | tag => standardLead ++ ((standard.find? fun entry => entry.2 == tag).map Prod.fst).getD []

end Tag

/-! ## Written forms -/

/-- The text without one line feed at its end: a written form may be followed by one. -/
def withoutFinalFeed (t : Text) : Text := if t.getLast? = some '\n' then t.dropLast else t

/-- The text without a sign in front. -/
def withoutSign : Text → Text
  | '-' :: rest => rest
  | '+' :: rest => rest
  | t => t

/-- Digits and underscores that start with a digit. -/
def isDigitRun : Text → Bool
  | [] => false
  | c :: cs => Text.isAsciiDigit c && cs.all fun c => Text.isAsciiDigit c || c == '_'

/-- Digits and underscores that start with a digit other than zero. -/
def isLeadingRun (t : Text) : Bool := isDigitRun t && t.head? != some '0'

/-- One or two digits below sixty. -/
def isSixtieth : Text → Bool
  | [c] => Text.isAsciiDigit c
  | [c, d] => '0' ≤ c && c ≤ '5' && Text.isAsciiDigit d
  | _ => false

/-- An exponent with its mark and sign, or nothing. -/
def isExponent : Text → Bool
  | [] => true
  | e :: sign :: d :: ds =>
    (e == 'e' || e == 'E') && (sign == '-' || sign == '+') && (d :: ds).all Text.isAsciiDigit
  | _ => false

/-- Non-empty text of underscores and of the digits that `p` accepts. -/
def isRunOf (p : Char → Bool) (t : Text) : Bool := !t.isEmpty && t.all fun c => p c || c == '_'

/-- Whether a plain scalar is written as a whole number: binary, octal, hexadecimal, decimal, or in
units of sixty with colons between them. -/
def isInt (t : Text) : Bool :=
  match withoutSign t with
  | ['0'] => true
  | '0' :: 'b' :: digits => isRunOf (fun c => c == '0' || c == '1') digits
  | '0' :: 'x' :: digits => isRunOf (fun c => (Text.hexValue? c).isSome) digits
  | '0' :: digits => isRunOf (fun c => '0' ≤ c && c ≤ '7') digits
  | t =>
    match Text.split ':' t with
    | whole :: parts => isLeadingRun whole && parts.all isSixtieth
    | [] => false

/-- Digits and underscores, or nothing, and then an exponent, or nothing. -/
def isFraction (t : Text) : Bool :=
  isExponent (t.dropWhile fun c => Text.isAsciiDigit c || c == '_')

/-- Whether a plain scalar is written as a number with a point. -/
def isFloat (t : Text) : Bool :=
  match t with
  | '.' :: rest =>
    ["inf", "Inf", "INF", "nan", "NaN", "NAN"].any (fun w => w.toList == rest) ||
      (rest.head?.any Text.isAsciiDigit && isFraction rest)
  | _ =>
    match withoutSign t with
    | '.' :: rest => ["inf", "Inf", "INF"].any fun w => w.toList == rest
    | t =>
      match Text.cut? '.' t with
      | none => false
      | some (before, after) =>
        match Text.split ':' before with
        | [whole] => isDigitRun whole && isFraction after
        | whole :: parts =>
          isDigitRun whole && parts.all isSixtieth &&
            after.all fun c => Text.isAsciiDigit c || c == '_'
        | [] => false

/-- The words for true, in lower case. -/
def trueWords : List String := ["yes", "true", "on"]

/-- The words for false, in lower case. -/
def falseWords : List String := ["no", "false", "off"]

/-- ASCII letters in lower case. -/
def lower (t : Text) : Text :=
  t.map fun c => if 'A' ≤ c ∧ c ≤ 'Z' then Char.ofNat (c.toNat + 32) else c

/-- The truth value of a word, in any case. -/
def truth? (t : Text) : Option Bool :=
  if trueWords.any fun w => w.toList == lower t then some true
  else if falseWords.any fun w => w.toList == lower t then some false
  else none

/-- ASCII letters in upper case. -/
def upper (t : Text) : Text :=
  t.map fun c => if 'a' ≤ c ∧ c ≤ 'z' then Char.ofNat (c.toNat - 32) else c

/-- A word in lower case, in upper case, or with its first letter alone in upper case. -/
def isUniform (t : Text) : Bool :=
  t == lower t || t == upper t || t == upper (t.take 1) ++ lower (t.drop 1)

/-- Whether a plain scalar is written as a truth value. -/
def isTruth (t : Text) : Bool := (truth? t).isSome && isUniform t

/-! ## Dates and times -/

/-- A date as it is written, and possibly a time: its numbers, the digits of its fraction, and its
zone, universal time or a signed offset. -/
structure Stamp where
  year : Text
  month : Text
  day : Text
  time : Option (Text × Text × Text × Text)
  zone : Option (Option (Bool × Text × Text))

/-- One or two digits and what follows them. -/
def oneOrTwoDigits? : Text → Option (Text × Text)
  | c :: d :: rest =>
    if Text.isAsciiDigit c then
      if Text.isAsciiDigit d then some ([c, d], rest) else some ([c], d :: rest)
    else none
  | [c] => if Text.isAsciiDigit c then some ([c], []) else none
  | [] => none

/-- Exactly `n` digits and what follows them. -/
def exactDigits? (n : Nat) (t : Text) : Option (Text × Text) :=
  let digits := t.take n
  if digits.length = n ∧ digits.all Text.isAsciiDigit then some (digits, t.drop n) else none

/-- A zone that makes up the whole text. -/
def zone? (t : Text) : Option (Option (Option (Bool × Text × Text))) :=
  if t = [] then some none
  else
    match t.dropWhile fun c => c == ' ' || c == '\t' with
    | ['Z'] => some (some none)
    | sign :: rest =>
      if sign = '-' ∨ sign = '+' then
        match oneOrTwoDigits? rest with
        | some (hours, []) => some (some (some (sign == '-', hours, [])))
        | some (hours, ':' :: rest) =>
          match exactDigits? 2 rest with
          | some (minutes, []) => some (some (some (sign == '-', hours, minutes)))
          | _ => none
        | _ => none
      else none
    | [] => none

/-- What separates a time from its date, and what follows. -/
def timeSeparator? : Text → Option Text
  | 'T' :: rest => some rest
  | 't' :: rest => some rest
  | c :: rest =>
    if c = ' ' ∨ c = '\t' then some (rest.dropWhile fun c => c == ' ' || c == '\t') else none
  | [] => none

/-- The date or moment that a text writes. -/
def stamp? (t : Text) : Option Stamp := do
  let (year, t) ← exactDigits? 4 t
  let t ← Text.after? ['-'] t
  let (month, t) ← oneOrTwoDigits? t
  let t ← Text.after? ['-'] t
  let (day, t) ← oneOrTwoDigits? t
  if t = [] then return ⟨year, month, day, none, none⟩
  let t ← timeSeparator? t
  let (hour, t) ← oneOrTwoDigits? t
  let t ← Text.after? [':'] t
  let (minute, t) ← exactDigits? 2 t
  let t ← Text.after? [':'] t
  let (second, t) ← exactDigits? 2 t
  let (fraction, t) :=
    match t with
    | '.' :: rest => rest.span Text.isAsciiDigit
    | _ => ([], t)
  let zone ← zone? t
  return ⟨year, month, day, some (hour, minute, second, fraction), zone⟩

/-- Whether a plain scalar is written as a date or a moment; a date alone has two digits for month
and day. -/
def isStamp (t : Text) : Bool :=
  match stamp? t with
  | none => false
  | some s => s.time.isSome || (s.month.length == 2 && s.day.length == 2)

/-! ## The kind of a plain scalar -/

/-- The kind of a written form that is not empty. -/
def Tag.ofForm (t : Text) : Tag :=
  if isTruth t then .bool
  else if isFloat t then .float
  else if isInt t then .int
  else if t = "<<".toList then .merge
  else if t = "~".toList ∨ t = "null".toList ∨ t = "Null".toList ∨ t = "NULL".toList then .null
  else if isStamp t then .timestamp
  else if t = "=".toList then .value
  else .text

/-- The kind of a plain scalar; the empty one is nothing. -/
def Tag.ofPlain (t : Text) : Tag :=
  if t = [] then .null
  else if withoutFinalFeed t = [] then .text
  else .ofForm (withoutFinalFeed t)

end DiffGate.Yaml
