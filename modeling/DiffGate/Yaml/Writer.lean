import DiffGate.Datum
import DiffGate.Yaml.Source
import DiffGate.Yaml.Tag

/-!
# Writing data as YAML

Collections are written as blocks, one entry a line, two columns deeper than what holds them; the
sequence that a key has for its value is not indented against the key. Empty collections are written
in brackets. Output is ASCII, and text is broken at a space once a line is longer than eighty
columns.

Text is written plain where reading would give the same text back, in single quotes where that is
enough, and in double quotes with escapes otherwise.
-/

set_option autoImplicit false

namespace DiffGate.Yaml

/-! ## The page that is written on -/

/-- What is written so far, last character first, with the column reached; whether the last thing
written leaves room before the next, and whether nothing but indentation stands on the line. -/
structure Page where
  reversed : Text
  column : Nat
  spaced : Bool
  indented : Bool

namespace Page

/-- The empty page. -/
def blank : Page := ⟨[], 0, true, true⟩

/-- The column after which text is broken at the next space. -/
def width : Nat := 80

/-- Text that stays on the line. -/
def add (t : Text) (p : Page) : Page :=
  { p with reversed := t.reverse ++ p.reversed, column := p.column + t.length }

/-- The end of the line. -/
def endLine (p : Page) : Page := ⟨'\n' :: p.reversed, 0, true, true⟩

/-- A place at column `indent` with nothing but indentation before it, on a new line if need be. -/
def indentTo (indent : Nat) (p : Page) : Page :=
  let p :=
    if !p.indented || indent < p.column || (p.column == indent && !p.spaced) then p.endLine else p
  if p.column < indent then
    { p.add (List.replicate (indent - p.column) ' ') with spaced := true }
  else p

/-- A mark, with a space before it if it needs one. It counts as indentation if `leads`. -/
def mark (t : Text) (needsSpace leads : Bool) (p : Page) : Page :=
  let t := if p.spaced || !needsSpace then t else ' ' :: t
  { p.add t with spaced := false, indented := p.indented && leads }

/-- The whole page. -/
def text (p : Page) : Text := p.reversed.reverse

end Page

/-! ## How text is written -/

/-- What matters about a text's characters for the way it is written. -/
structure Looks where
  /-- It holds a line feed. -/
  multiline : Bool
  /-- It starts or ends with a blank. -/
  blankEnds : Bool
  /-- A line after the first starts with a space. -/
  breakSpace : Bool
  /-- A line ends with a space. -/
  spaceBreak : Bool
  /-- It holds a character that only an escape can write. -/
  special : Bool
  /-- It holds a mark that gives it another meaning. -/
  marked : Bool

/-- Whether two characters follow each other. -/
def hasPair (p q : Char → Bool) : Text → Bool
  | c :: d :: rest => (p c && q d) || hasPair p q (d :: rest)
  | _ => false

/-- Whether a text starts with a mark that gives it another meaning. -/
def startsMarked (t : Text) : Bool :=
  match t with
  | [] => false
  | c :: rest =>
    "#,[]\x7b\x7d&*!|>'\"%@\x60".toList.contains c ||
      ((c == '?' || c == ':' || c == '-') && endsToken rest.head?) ||
      t.startsWith "---".toList || t.startsWith "...".toList

/-- Whether a mark inside a text gives it another meaning: a colon before a blank, or a number sign
after one. -/
def holdsMark (t : Text) : Bool :=
  hasPair (· == ':') (fun c => endsToken (some c)) t || t.getLast? == some ':' ||
    hasPair (fun c => endsToken (some c)) (· == '#') t

/-- What matters about a text's characters. -/
def looks (t : Text) : Looks where
  multiline := t.contains '\n'
  blankEnds :=
    [t.head?, t.getLast?].any fun c => c.any fun c => c == ' ' || c == '\n'
  breakSpace := hasPair (· == '\n') (· == ' ') t
  spaceBreak := hasPair (· == ' ') (· == '\n') t
  special := t.any fun c => !(c == '\n' || (' ' ≤ c && c ≤ '~'))
  marked := startsMarked t || holdsMark t

/-- The ways to write text. -/
inductive Style
  | plain
  | single
  | double
  deriving DecidableEq

/-- The simplest way to write a text, as a key or not. -/
def styleOf (isKey : Bool) (t : Text) : Style :=
  let l := looks t
  if t ≠ [] ∧ Tag.ofPlain t = .text ∧
      !(l.multiline || l.blankEnds || l.breakSpace || l.spaceBreak || l.special || l.marked) then
    .plain
  else if l.breakSpace || l.spaceBreak || l.special || (isKey && l.multiline) then .double
  else .single

/-! ## Writing text -/

/-- Text cut into runs: of spaces, of line feeds, and of other characters. -/
def runs (t : Text) : List Text :=
  t.splitBy fun c d =>
    (c == ' ' && d == ' ') || (c == '\n' && d == '\n') ||
      (c != ' ' && c != '\n' && d != ' ' && d != '\n')

/-- Plain text. A single space beyond the page's width becomes a line break, if text may be broken.
-/
def writePlain (indent : Nat) (mayBreak : Bool) (t : Text) (p : Page) : Page :=
  let p := if p.spaced then p else p.add [' ']
  let p := { p with spaced := false, indented := false }
  (runs t).foldl
    (fun p run =>
      if run = [' '] ∧ Page.width < p.column ∧ mayBreak then
        { p.indentTo indent with spaced := false, indented := false }
      else p.add run)
    p

/-- Text between single quotes: a quote is doubled, and so is the first of several line feeds. A
single space beyond the page's width becomes a line break, if text may be broken and the space is
neither first nor last. -/
def writeSingle (indent : Nat) (mayBreak : Bool) (t : Text) (p : Page) : Page :=
  let doubled (run : Text) : Text := run.flatMap fun c => if c = '\'' then ['\'', '\''] else [c]
  let write (state : Page × Nat) (run : Text) : Page × Nat :=
    let (p, start) := state
    let stop := start + run.length
    let p :=
      if run.head? = some '\n' then
        ((List.range (run.length + 1)).foldl (fun p _ => p.endLine) p).indentTo indent
      else if run = [' '] ∧ Page.width < p.column ∧ mayBreak ∧ start ≠ 0 ∧ stop ≠ t.length then
        p.indentTo indent
      else p.add (doubled run)
    (p, stop)
  (((runs t).foldl write (p.mark ['\''] true false, 0)).1).mark ['\''] false false

/-- The letter of a one-letter escape. -/
def escapeLetter? : Char → Option Char
  | '\x00' => some '0'
  | '\x07' => some 'a'
  | '\x08' => some 'b'
  | '\t' => some 't'
  | '\n' => some 'n'
  | '\x0b' => some 'v'
  | '\x0c' => some 'f'
  | '\r' => some 'r'
  | '\x1b' => some 'e'
  | '"' => some '"'
  | '\\' => some '\\'
  | '\u0085' => some 'N'
  | '\u00a0' => some '_'
  | '\u2028' => some 'L'
  | '\u2029' => some 'P'
  | _ => none

/-- A hexadecimal number in upper case, filled with zeros up to `width` digits. -/
def upperHex (width n : Nat) : Text := Text.padLeft '0' width (upper (Nat.toDigits 16 n))

/-- The escape of a character that double quotes do not show as itself. -/
def escape? (c : Char) : Option Text :=
  match escapeLetter? c with
  | some letter => some ['\\', letter]
  | none =>
    let n := c.toNat
    if 0x20 ≤ n ∧ n ≤ 0x7E then none
    else if n ≤ 0xFF then some ("\\x".toList ++ upperHex 2 n)
    else if n ≤ 0xFFFF then some ("\\u".toList ++ upperHex 4 n)
    else some ("\\U".toList ++ upperHex 8 n)

/-- Text between double quotes from index `index` on, of `length` characters in all; `held` are the
characters, last first, that are not yet written. Beyond the page's width, an escape that has just
been written not counted, a line is broken with a backslash before a space or next to an escape, but
not at the first character or the last; a space that then starts the line gets a backslash of its
own. -/
def writeEscaped (indent : Nat) (mayBreak : Bool) (length index : Nat) (held : Text) (p : Page) :
    Text → Page
  | [] => p.add held.reverse
  | c :: rest =>
    let (p, held, written) :=
      match escape? c with
      | some code => ((p.add held.reverse).add code, [], true)
      | none => (p, held, false)
    let breaks :=
      mayBreak && 0 < index && index + 1 < length && (c == ' ' || held.isEmpty) &&
        Page.width < p.column + held.length - (if written then 1 else 0)
    let (p, held) :=
      if breaks then
        let p := { (p.add (held.reverse ++ ['\\'])).indentTo indent with
          spaced := false, indented := false }
        let next := if written then rest.head? else some c
        (if next = some ' ' then p.add ['\\'] else p, [])
      else (p, held)
    writeEscaped indent mayBreak length (index + 1) (if written then held else c :: held) p rest

/-- Text between double quotes. -/
def writeDouble (indent : Nat) (mayBreak : Bool) (t : Text) (p : Page) : Page :=
  (writeEscaped indent mayBreak t.length 0 [] (p.mark ['"'] true false) t).mark ['"'] false false

/-- A text in the simplest way. As a key it is not broken. -/
def writeText (indent : Nat) (isKey : Bool) (t : Text) (p : Page) : Page :=
  match styleOf isKey t with
  | .plain => writePlain indent (!isKey) t p
  | .single => writeSingle indent (!isKey) t p
  | .double => writeDouble indent (!isKey) t p

/-! ## Writing other scalars -/

/-- A number with a fraction as YAML writes it. -/
def realText (x : Binary64) : Text :=
  match x with
  | .nan => ".nan".toList
  | .infinite negative => (if negative then "-.inf" else ".inf").toList
  | x =>
    let t := x.text
    if t.contains '.' then t
    else
      match Text.cut? 'e' t with
      | some (digits, exponent) => digits ++ ".0e".toList ++ exponent
      | none => t

/-- The character of six bits in base 64. -/
def base64Char (n : Nat) : Char :=
  if n < 26 then Char.ofNat (n + 65)
  else if n < 52 then Char.ofNat (n + 71)
  else if n < 62 then Char.ofNat (n - 4)
  else if n = 62 then '+'
  else '/'

/-- Bytes in base 64. -/
def base64Text : List UInt8 → Text
  | a :: b :: c :: rest =>
    let n := (a.toNat * 256 + b.toNat) * 256 + c.toNat
    base64Char (n / 262144) :: base64Char (n / 4096 % 64) :: base64Char (n / 64 % 64) ::
      base64Char (n % 64) :: base64Text rest
  | [a, b] =>
    let n := (a.toNat * 256 + b.toNat) * 4
    [base64Char (n / 4096), base64Char (n / 64 % 64), base64Char (n % 64), '=']
  | [a] =>
    let n := a.toNat * 16
    [base64Char (n / 64), base64Char (n % 64), '=', '=']
  | [] => []

/-- Text in lines of at most `n` characters; `fuel` bounds their number. -/
def chunks (fuel n : Nat) (t : Text) : List Text :=
  match fuel with
  | 0 => []
  | fuel + 1 => if t = [] then [] else t.take n :: chunks fuel n (t.drop n)

/-- Bytes as a tagged block of lines in base 64. -/
def writeBytes (indent : Nat) (bs : List UInt8) (p : Page) : Page :=
  let p := p.mark "!!binary".toList true false
  let coded := base64Text bs
  if coded = [] then writeDouble indent false [] p
  else
    (chunks coded.length 76 coded).foldl
      (fun p line => ((p.indentTo indent).add line).endLine)
      (p.mark ['|'] true false).endLine

/-- A scalar that is no text and no bytes, which is always written plain. -/
def plainText (d : Datum) : Text :=
  match d with
  | .null => "null".toList
  | .bool b => (if b then "true" else "false").toList
  | .int n => Text.ofInt n
  | .real x => realText x
  | .date d => d.text
  | .moment m => m.text
  | _ => []

/-- A scalar. -/
def writeScalar (indent : Nat) (isKey : Bool) (d : Datum) (p : Page) : Page :=
  match d with
  | .text t => writeText indent isKey t p
  | .bytes bs => writeBytes indent bs p
  | d => writePlain indent (!isKey) (plainText d) p

/-! ## Writing collections -/

/-- The length of a scalar as a key, its kind's short tag counted. -/
def keyLength (d : Datum) : Nat :=
  match d with
  | .null => 6 + 4
  | .bool b => 6 + (if b then 4 else 5)
  | .int n => 5 + (Text.ofInt n).length
  | .real x => 7 + (realText x).length
  | .text t => 5 + t.length
  | d => 11 + (plainText d).length

/-- Whether a key can stand in front of its colon: it is short, not empty, and on one line. -/
def isSimpleKey (d : Datum) : Bool :=
  keyLength d < 128 &&
    match d with
    | .text t => !t.isEmpty && !t.contains '\n'
    | .bytes _ => false
    | .tuple items => items.isEmpty
    | _ => true

mutual

/-- A datum inside a collection that is indented to `indent`, as the value or key of a mapping or
not. -/
def writeNode (indent : Nat) (inMapping isKey : Bool) (p : Page) : Datum → Page
  | .list [] => (p.mark ['['] true false).mark [']'] false false
  | .tuple [] => (p.mark ['['] true false).mark [']'] false false
  | .map [] => (p.mark ['\x7b'] true false).mark ['\x7d'] false false
  | .set [] =>
    ((p.mark "!!set".toList true false).mark ['\x7b'] true false).mark ['\x7d'] false false
  | .list items => writeItems (if inMapping && !p.indented then indent else indent + 2) p items
  | .tuple items => writeItems (if inMapping && !p.indented then indent else indent + 2) p items
  | .map entries => writeEntries (indent + 2) p entries
  | .set members => writeMembers (indent + 2) (p.mark "!!set".toList true false) members
  | d => writeScalar (indent + 2) isKey d p

/-- The items of a block sequence. -/
def writeItems (indent : Nat) (p : Page) : List Datum → Page
  | [] => p
  | x :: xs =>
    let p := (p.indentTo indent).mark ['-'] true true
    writeItems indent (writeNode indent false false p x) xs

/-- The entries of a block mapping. -/
def writeEntries (indent : Nat) (p : Page) : List (Datum × Datum) → Page
  | [] => p
  | (k, v) :: rest =>
    let p := p.indentTo indent
    let p :=
      if isSimpleKey k then (writeNode indent true true p k).mark [':'] false false
      else ((writeNode indent true false (p.mark ['?'] true true) k).indentTo indent).mark [':']
        true true
    writeEntries indent (writeNode indent true false p v) rest

/-- The members of a set, which is written as a mapping to nothing. -/
def writeMembers (indent : Nat) (p : Page) : List Datum → Page
  | [] => p
  | k :: rest =>
    let p := p.indentTo indent
    let p :=
      if isSimpleKey k then (writeNode indent true true p k).mark [':'] false false
      else ((writeNode indent true false (p.mark ['?'] true true) k).indentTo indent).mark [':']
        true true
    writeMembers indent (writeScalar (indent + 2) false .null p) rest

end

/-- A mapping as a document. -/
def write (entries : List (Datum × Datum)) : Text :=
  let page :=
    match entries with
    | [] => (Page.blank.mark ['\x7b'] true false).mark ['\x7d'] false false
    | entries => writeEntries 0 .blank entries
  (page.indentTo 0).text

end DiffGate.Yaml
