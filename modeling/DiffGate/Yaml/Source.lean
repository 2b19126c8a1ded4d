import DiffGate.Text

/-!
# Places in a YAML text

A YAML text is read from the front; the place reached is kept as the rest of the text together with
a mark that counts characters, lines and columns. Four kinds of break end a line: the line feed, the
carriage return, U+0085, U+2028 and U+2029 all do, a carriage return with a line feed counting once.
A byte order mark takes up no column.
-/

set_option autoImplicit false

namespace DiffGate.Yaml

/-- A place in a text, all counts from zero. -/
structure Mark where
  index : Nat
  line : Nat
  column : Nat
  deriving DecidableEq

/-- The place one column further. -/
def Mark.next (m : Mark) : Mark := ⟨m.index + 1, m.line, m.column + 1⟩

/-- The place as it is shown in a message about the file `name`. -/
def Mark.text (name : Text) (m : Mark) : Text :=
  "  in \"".toList ++ name ++ "\", line ".toList ++ Text.ofNat (m.line + 1) ++
    ", column ".toList ++ Text.ofNat (m.column + 1)

/-- Characters that end a line. -/
def isBreak (c : Char) : Bool :=
  c == '\n' || c == '\r' || c == '\u0085' || c == '\u2028' || c == '\u2029'

/-- Spaces and tabs. -/
def isSpaceOrTab (c : Char) : Bool := c == ' ' || c == '\t'

/-- Whether the text ends here or the line does. -/
def endsLine : Option Char → Bool
  | none => true
  | some c => isBreak c

/-- Whether the text ends here, the line does, or a space follows. -/
def endsWord : Option Char → Bool
  | none => true
  | some c => isBreak c || c == ' '

/-- Whether the text ends here, the line does, or a space or tab follows. -/
def endsToken : Option Char → Bool
  | none => true
  | some c => isBreak c || isSpaceOrTab c

/-- What is left of a text, and where it starts. -/
structure Source where
  rest : Text
  mark : Mark
  deriving DecidableEq

namespace Source

/-- The start of a text. -/
def start (t : Text) : Source := ⟨t, ⟨0, 0, 0⟩⟩

/-- The next character. -/
def peek (s : Source) : Option Char := s.rest.head?

/-- The character after `n` others. -/
def peekAt (s : Source) (n : Nat) : Option Char := s.rest[n]?

/-- One character further. -/
def step (s : Source) : Source :=
  match s.rest with
  | [] => s
  | c :: rest =>
    let m := s.mark
    if isBreak c && !(c == '\r' && rest.head? == some '\n') then
      ⟨rest, ⟨m.index + 1, m.line + 1, 0⟩⟩
    else if c == '\uFEFF' then ⟨rest, ⟨m.index + 1, m.line, m.column⟩⟩
    else ⟨rest, ⟨m.index + 1, m.line, m.column + 1⟩⟩

/-- Some characters further. -/
def skip : Nat → Source → Source
  | 0, s => s
  | n + 1, s => skip n s.step

/-- The run of characters at the front that satisfy `p`, and the place after it. -/
def takeWhile (p : Char → Bool) (s : Source) : Text × Source :=
  let run := s.rest.takeWhile p
  (run, skip run.length s)

/-- The place after the run of characters at the front that satisfy `p`. -/
def skipWhile (p : Char → Bool) (s : Source) : Source := (s.takeWhile p).2

/-- The place after the spaces at the front. -/
def skipSpaces (s : Source) : Source := s.skipWhile (· == ' ')

/-- The place after the spaces at the front, but not beyond a column. -/
def skipSpacesTo (column : Nat) (s : Source) : Source :=
  let spaces := (s.rest.takeWhile (· == ' ')).length
  skip (min spaces (column - s.mark.column)) s

/-- The place after a comment, if one starts here. -/
def skipComment (s : Source) : Source :=
  if s.peek == some '#' then s.skipWhile (!isBreak ·) else s

/-- A line break at the front, as it is kept in a scalar, and the place after it; nothing where
there is none. Only U+2028 and U+2029 are kept as they are. -/
def lineBreak (s : Source) : Text × Source :=
  match s.rest with
  | '\r' :: '\n' :: _ => (['\n'], skip 2 s)
  | c :: _ =>
    if c == '\u2028' || c == '\u2029' then ([c], s.step)
    else if isBreak c then (['\n'], s.step)
    else ([], s)
  | [] => ([], s)

/-- Whether a line with three equal marks and nothing that clings to them starts here. -/
def atSeparator (s : Source) : Bool :=
  match s.rest with
  | '-' :: '-' :: '-' :: rest => endsToken rest.head?
  | '.' :: '.' :: '.' :: rest => endsToken rest.head?
  | _ => false

end Source

end DiffGate.Yaml
