import DiffGate.Text.Digit
import DiffGate.Yaml.Error

/-!
# Scalars as they are written

A scalar is written plain, in single quotes, in double quotes with escapes, or as a block of lines.
In the first three a line break inside is folded: one break becomes a space, and further ones stay.
In a block, breaks stay as they are, or are folded between lines that start with no blank.

An escape can name a surrogate, which no text holds. It is read as the replacement character, and so
documents with such an escape are outside the model.

Each reader's fuel is the length of the text, and each round of a loop moves forward.
-/

set_option autoImplicit false

namespace DiffGate.Yaml

/-- What a run of breaks between two pieces of a folded scalar leaves: the first break becomes a
space unless more follow or it is one that is kept. -/
def fold (first more : Text) : Text :=
  if first ≠ ['\n'] then first ++ more else if more = [] then [' '] else more

/-! ## Quoted scalars -/

/-- The character of a one-letter escape. -/
def escaped? : Char → Option Char
  | '0' => some '\x00'
  | 'a' => some '\x07'
  | 'b' => some '\x08'
  | 't' => some '\t'
  | '\t' => some '\t'
  | 'n' => some '\n'
  | 'v' => some '\x0b'
  | 'f' => some '\x0c'
  | 'r' => some '\r'
  | 'e' => some '\x1b'
  | ' ' => some ' '
  | '"' => some '"'
  | '\\' => some '\\'
  | '/' => some '/'
  | 'N' => some '\u0085'
  | '_' => some '\u00a0'
  | 'L' => some '\u2028'
  | 'P' => some '\u2029'
  | _ => none

/-- How many hexadecimal digits an escape by number has. -/
def escapeWidth? : Char → Option Nat
  | 'x' => some 2
  | 'u' => some 4
  | 'U' => some 8
  | _ => none

/-- The character of a code point; a surrogate is read as the replacement character. -/
def character? (code : Nat) : Option Char :=
  if 0x110000 ≤ code then none
  else if 0xD800 ≤ code ∧ code < 0xE000 then some '\uFFFD'
  else some (Char.ofNat code)

/-- The first of `width` characters that is no hexadecimal digit. -/
def badHex? (width : Nat) (s : Source) : Option (Option Char) :=
  ((List.range width).map s.peekAt).find? fun c => (c.bind Text.hexValue?).isNone

/-- Line breaks in quotes, and the blanks before and after each. -/
def quotedBreaks (fuel : Nat) (began : Mark) (s : Source) : Except Failure (Text × Source) :=
  match fuel with
  | 0 => .ok ([], s)
  | fuel + 1 =>
    if s.atSeparator then failIn .quoted began .separatorInQuotes s.mark
    else
      let s := s.skipWhile isSpaceOrTab
      match s.lineBreak with
      | ([], _) => .ok ([], s)
      | (br, s) => (quotedBreaks fuel began s).map fun (more, s) => (br ++ more, s)

/-- Blanks in quotes: kept inside a line, folded around breaks. -/
def quotedBlanks (began : Mark) (s : Source) : Except Failure (Text × Source) :=
  let (blanks, s) := s.takeWhile isSpaceOrTab
  match s.peek with
  | none => failIn .quoted began .endInQuotes s.mark
  | some c =>
    if isBreak c then
      let (first, s) := s.lineBreak
      (quotedBreaks (s.rest.length + 1) began s).map fun (more, s) => (fold first more, s)
    else .ok (blanks, s)

/-- An escape after its backslash. -/
def quotedEscape (began : Mark) (s : Source) : Except Failure (Text × Source) :=
  match s.peek with
  | none => failIn .doubleQuoted began (.unknownEscape none) s.mark
  | some c =>
    match escaped? c, escapeWidth? c with
    | some char, _ => .ok ([char], s.step)
    | none, some width =>
      let s := s.step
      match badHex? width s with
      | some c => failIn .doubleQuoted began (.notHexEscape width c) s.mark
      | none =>
        let code := Text.baseValue 16 (s.rest.take width)
        match character? code with
        | some char => .ok ([char], Source.skip width s)
        | none =>
          .error (.fault (if code < 0x80000000 then .noSuchCharacter else .oversizedEscape))
    | none, none =>
      if isBreak c then quotedBreaks (s.rest.length + 1) began s.lineBreak.2
      else failIn .doubleQuoted began (.unknownEscape (some c)) s.mark

/-- Characters that a run in quotes stops at. -/
def stopsQuotedRun (c : Char) : Bool :=
  c == '\'' || c == '"' || c == '\\' || isSpaceOrTab c || isBreak c

/-- A quoted scalar after its opening quote, with the place after its closing one. -/
def quotedRest (fuel : Nat) (quote : Char) (began : Mark) (s : Source) :
    Except Failure (Text × Source) :=
  match fuel with
  | 0 => failIn .quoted began .endInQuotes s.mark
  | fuel + 1 =>
    let (run, s) := s.takeWhile (!stopsQuotedRun ·)
    let continueWith (piece : Text) (s : Source) : Except Failure (Text × Source) :=
      (quotedRest fuel quote began s).map fun (more, s) => (run ++ piece ++ more, s)
    match s.peek with
    | none => failIn .quoted began .endInQuotes s.mark
    | some c =>
      if c = quote then
        if quote = '\'' ∧ s.peekAt 1 = some '\'' then continueWith ['\''] (Source.skip 2 s)
        else .ok (run, s.step)
      else if c = '\'' ∨ c = '"' then continueWith [c] s.step
      else if c = '\\' then
        if quote = '"' then
          match quotedEscape began s.step with
          | .error e => .error e
          | .ok (piece, s) => continueWith piece s
        else continueWith [c] s.step
      else
        match quotedBlanks began s with
        | .error e => .error e
        | .ok (piece, s) => continueWith piece s

/-- A quoted scalar. -/
def readQuoted (quote : Char) (s : Source) : Except Failure (Text × Source) :=
  quotedRest (s.rest.length + 1) quote s.mark s.step

/-! ## Plain scalars -/

/-- Whether a plain scalar ends before the characters at the front: at a blank, at a colon that a
blank follows, and in flow context at marks that structure it. -/
def endsPlain (inFlow : Bool) (t : Text) : Bool :=
  match t with
  | [] => true
  | ':' :: rest =>
    endsToken rest.head? || (inFlow && (rest.head?.any fun c => ",[]\x7b\x7d".toList.contains c))
  | c :: _ => endsToken (some c) || (inFlow && ",?[]\x7b\x7d".toList.contains c)

/-- How many characters of a plain scalar come before it ends. -/
def plainRun (inFlow : Bool) : Text → Nat
  | [] => 0
  | c :: cs => if endsPlain inFlow (c :: cs) then 0 else plainRun inFlow cs + 1

/-- Breaks, and the spaces between them; `none` for the text before a document separator. -/
def plainBreaks (fuel : Nat) (s : Source) : Option Text × Source :=
  match fuel with
  | 0 => (some [], s)
  | fuel + 1 =>
    if s.atSeparator then (none, s)
    else
      let s := s.skipSpaces
      match s.lineBreak with
      | ([], _) => (some [], s)
      | (br, s) =>
        let (more, s) := plainBreaks fuel s
        (more.map (br ++ ·), s)

/-- The blanks between two pieces of a plain scalar, folded, with the place after them and whether
there was a break. No blanks at all, or a document separator behind them, end the scalar. -/
def plainBlanks (s : Source) : Option Text × Source × Bool :=
  let (spaces, s) := s.takeWhile (· == ' ')
  match s.peek with
  | some c =>
    if isBreak c then
      let (first, s) := s.lineBreak
      let (more, s) := plainBreaks (s.rest.length + 1) s
      (more.map (fold first), s, true)
    else (if spaces = [] then none else some spaces, s, false)
  | none => (if spaces = [] then none else some spaces, s, false)

/-- A plain scalar as it is read: its text, the place after the blanks behind it, and whether there
is a line break among these. -/
structure PlainScalar where
  text : Text
  after : Source
  brokeLine : Bool

/-- The pieces of a plain scalar from `s` on; `blanks` stand before the first of them and count only
if there is one. -/
def plainPieces (fuel : Nat) (inFlow : Bool) (indent : Int) (blanks : Text) (found : PlainScalar) :
    PlainScalar :=
  match fuel with
  | 0 => found
  | fuel + 1 =>
    let s := found.after
    let length := if s.peek = some '#' then 0 else plainRun inFlow s.rest
    if length = 0 then found
    else
      let piece := s.rest.take length
      let s := Source.skip length s
      let (more, after, brokeLine) := plainBlanks s
      let found := PlainScalar.mk (found.text ++ blanks ++ piece) after brokeLine
      match more with
      | none => found
      | some blanks =>
        if after.peek = some '#' ∨ (!inFlow ∧ (after.mark.column : Int) < indent) then found
        else plainPieces fuel inFlow indent blanks found

/-- A plain scalar. Outside flow context its further lines are indented by at least `indent`. -/
def readPlain (inFlow : Bool) (indent : Int) (s : Source) : PlainScalar :=
  plainPieces (s.rest.length + 1) inFlow indent [] ⟨[], s, false⟩

/-! ## Block scalars -/

/-- What becomes of the breaks at the end of a block. -/
inductive Chomping
  | strip
  | clip
  | keep
  deriving DecidableEq

/-- The head of a block scalar: what becomes of its last breaks, and how far it is indented. -/
structure BlockHead where
  chomping : Chomping
  indentation : Option Nat

/-- What a sign says about the last breaks. -/
def chomping? : Option Char → Option Chomping
  | some '+' => some .keep
  | some '-' => some .strip
  | _ => none

/-- An indentation in a block's head. -/
def readIndentation (began : Mark) (s : Source) : Except Failure (Option Nat × Source) :=
  match s.peek with
  | some c =>
    if c = '0' then failIn .blockScalar began .zeroIndentation s.mark
    else if Text.isAsciiDigit c then .ok (some (c.toNat - 48), s.step)
    else .ok (none, s)
  | none => .ok (none, s)

/-- The head of a block scalar after its mark: a sign and an indentation in either order, and then
nothing but a comment. -/
def readBlockHead (began : Mark) (s : Source) : Except Failure (BlockHead × Source) := do
  let (head, s) ←
    match chomping? s.peek with
    | some chomping => do
      let (indentation, s) ← readIndentation began s.step
      pure (BlockHead.mk chomping indentation, s)
    | none => do
      let (indentation, s) ← readIndentation began s
      match (if indentation.isSome then chomping? s.peek else none) with
      | some chomping => pure (BlockHead.mk chomping indentation, s.step)
      | none => pure (BlockHead.mk .clip indentation, s)
  if !endsWord s.peek then failIn .blockScalar began (.notBlockIndicator s.peek) s.mark
  let s := s.skipSpaces.skipComment
  if endsLine s.peek then return (head, s.lineBreak.2)
  else failIn .blockScalar began (.notCommentOrBreak s.peek) s.mark

/-- The empty lines at the start of a block whose indentation is not given: their breaks, the
greatest column that a space among them reaches, and the place after them. -/
def leadingBlanks (fuel : Nat) (widest : Nat) (s : Source) : Text × Nat × Source :=
  match fuel with
  | 0 => ([], widest, s)
  | fuel + 1 =>
    let s := s.skipSpaces
    let widest := max widest s.mark.column
    match s.lineBreak with
    | ([], _) => ([], widest, s)
    | (br, s) =>
      let (more, widest, s) := leadingBlanks fuel widest s
      (br ++ more, widest, s)

/-- The breaks of the empty lines that come next, and the place in the line after them, at most
`indent` columns in. -/
def blockBreaks (fuel : Nat) (indent : Nat) (s : Source) : Text × Source :=
  match fuel with
  | 0 => ([], s)
  | fuel + 1 =>
    let s := s.skipSpacesTo indent
    match s.lineBreak with
    | ([], _) => ([], s)
    | (br, s) =>
      let (more, s) := blockBreaks fuel indent s
      (br ++ more, s)

/-- What is read of a block: the text of its lines, the last line's break, the breaks of the empty
lines after it, and the place after those. -/
structure BlockText where
  text : Text
  last : Text
  empties : Text
  after : Source

/-- The lines of a block from `s` on, `breaks` being those of the empty lines before. -/
def blockLines (fuel : Nat) (folded : Bool) (indent : Nat) (breaks : Text) (s : Source) :
    BlockText :=
  match fuel with
  | 0 => ⟨[], [], breaks, s⟩
  | fuel + 1 =>
    let (line, after) := s.takeWhile (!isBreak ·)
    let (br, after) := after.lineBreak
    let (empties, next) := blockBreaks (after.rest.length + 1) indent after
    if next.mark.column = indent ∧ next.peek ≠ none then
      let joint :=
        if folded ∧ br = ['\n'] ∧ !s.peek.any isSpaceOrTab ∧ !next.peek.any isSpaceOrTab then
          if empties = [] then [' '] else []
        else br
      let more := blockLines fuel folded indent empties next
      { more with text := breaks ++ line ++ joint ++ more.text }
    else ⟨breaks ++ line, br, empties, next⟩

/-- A block scalar inside a block that is indented to the column `parent`, and the place after it.
-/
def readBlock (folded : Bool) (parent : Int) (s : Source) : Except Failure (Text × Source) := do
  let (head, s) ← readBlockHead s.mark s.step
  let least := (max (parent + 1) 1).toNat
  let (indent, breaks, s) :=
    match head.indentation with
    | none =>
      let (breaks, widest, s) := leadingBlanks (s.rest.length + 1) 0 s
      (max least widest, breaks, s)
    | some n =>
      let indent := least + n - 1
      (indent, blockBreaks (s.rest.length + 1) indent s)
  let block :=
    if s.mark.column = indent ∧ s.peek ≠ none then
      blockLines (s.rest.length + 1) folded indent breaks s
    else ⟨[], [], breaks, s⟩
  let ending :=
    match head.chomping with
    | .strip => []
    | .clip => block.last
    | .keep => block.last ++ block.empties
  return (block.text ++ ending, block.after)

end DiffGate.Yaml
