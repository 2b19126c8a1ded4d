import DiffGate.Text.Digit
import DiffGate.Text.Utf8
import DiffGate.Yaml.Token

/-!
# Directives, anchors, aliases and tags

The parts of a YAML text that are no data but say something about it: directives at the head of a
document, names of nodes, and tags. Each reader starts at the mark that introduces its part and
returns what was read with the place after it.
-/

set_option autoImplicit false

namespace DiffGate.Yaml

/-- Characters of names. -/
def isNameChar (c : Char) : Bool :=
  Text.isAsciiLetter c || Text.isAsciiDigit c || c == '-' || c == '_'

/-- Characters of addresses. -/
def isAddressChar (c : Char) : Bool :=
  Text.isAsciiLetter c || Text.isAsciiDigit c || "-;/?:@&=+$,_.!~*'()[]%".toList.contains c

/-! ## Anchors and aliases -/

/-- A name after its introducing mark; it must be followed by something that cannot belong to it. -/
def readName (context : Context) (s : Source) : Except Failure (Text × Source) :=
  let began := s.mark
  let (name, s) := s.step.takeWhile isNameChar
  if name = [] then failIn context began (.notAlphanumeric s.peek) s.mark
  else
    let ends :=
      endsToken s.peek ||
        match s.peek with
        | some c => "?:,]\x7d%@\x60".toList.contains c
        | none => true
    if ends then .ok (name, s) else failIn context began (.notAlphanumeric s.peek) s.mark

/-! ## Tags -/

/-- A tag handle: an exclamation mark alone, two, or two with a name between them. -/
def readHandle (context : Context) (began : Mark) (s : Source) :
    Except Failure (Text × Source) :=
  match s.peek with
  | some '!' =>
    if s.peekAt 1 = some ' ' then .ok (['!'], s.step)
    else
      let (name, after) := s.step.takeWhile isNameChar
      match after.peek with
      | some '!' => .ok ('!' :: (name ++ ['!']), after.step)
      | c => failIn context began (.notExclamation c) after.mark
  | c => failIn context began (.notExclamation c) s.mark

/-- The bytes of a run of escapes such as `%C3%A9`, read with at most `fuel` steps. -/
def readEscapes (fuel : Nat) (context : Context) (began : Mark) (s : Source) :
    Except Failure (List UInt8 × Source) :=
  match fuel with
  | 0 => .ok ([], s)
  | fuel + 1 =>
    match s.peek with
    | some '%' =>
      let s := s.step
      match (s.peek.bind Text.hexValue?), ((s.peekAt 1).bind Text.hexValue?) with
      | none, _ => failIn context began (.notAddressEscape s.peek) s.mark
      | some _, none => failIn context began (.notAddressEscape (s.peekAt 1)) s.mark
      | some high, some low =>
        (readEscapes fuel context began (Source.skip 2 s)).map fun (bytes, s) =>
          (.ofNat (high * 16 + low) :: bytes, s)
    | _ => .ok ([], s)

/-- The pieces of an address, read with at most `fuel` steps. -/
def readAddressPieces (fuel : Nat) (escapes : Context) (began : Mark) (s : Source) :
    Except Failure (Text × Source) :=
  match fuel with
  | 0 => .ok ([], s)
  | fuel + 1 =>
    let (run, after) := s.takeWhile fun c => isAddressChar c && c != '%'
    match after.peek with
    | some '%' =>
      match readEscapes after.rest.length escapes began after with
      | .error e => .error e
      | .ok (bytes, rest) =>
        match Text.Utf8.decode? bytes with
        | none => failIn escapes began (.addressNotUtf8 (Text.Utf8.flaw? bytes)) after.mark
        | some piece =>
          (readAddressPieces fuel escapes began rest).map fun (more, s) =>
            (run ++ piece ++ more, s)
    | _ => .ok (run, after)

/-- An address; it holds at least one character. -/
def readAddress (address escapes : Context) (began : Mark) (s : Source) :
    Except Failure (Text × Source) :=
  match readAddressPieces (s.rest.length + 1) escapes began s with
  | .error e => .error e
  | .ok (piece, after) =>
    if after.mark.index = s.mark.index then failIn address began (.notAddress s.peek) s.mark
    else .ok (piece, after)

/-- Whether an exclamation mark comes before the next blank. -/
def hasHandle (t : Text) : Bool :=
  (t.takeWhile fun c => !endsWord (some c)).contains '!'

/-- A tag. -/
def readTag (s : Source) : Except Failure (WrittenTag × Source) := do
  let began := s.mark
  let (tag, after) ←
    if s.peekAt 1 = some '<' then do
      let (suffix, after) ← readAddress .tagAddress .tag began (Source.skip 2 s)
      match after.peek with
      | some '>' => pure (WrittenTag.mk none suffix, after.step)
      | c => failIn .tagAddress began (.notClosed c) after.mark
    else if endsToken (s.peekAt 1) then pure (WrittenTag.mk none ['!'], s.step)
    else do
      let (handle, after) ←
        if hasHandle (s.rest.drop 1) then readHandle .tag began s else pure (['!'], s.step)
      let (suffix, after) ← readAddress .tagAddress .tag began after
      pure (WrittenTag.mk (some handle) suffix, after)
  if endsWord after.peek then return (tag, after)
  else failIn .tag began (.notSpace after.peek) after.mark

/-! ## Directives -/

/-- One of the numbers of a version. -/
def readVersionNumber (began : Mark) (s : Source) : Except Failure (Nat × Source) :=
  match s.takeWhile Text.isAsciiDigit with
  | ([], _) => failIn .directive began (.notDigit s.peek) s.mark
  | (digits, after) =>
    match Text.readDigits? digits with
    | some n => .ok (n, after)
    | none => .error (.fault .overlongNumber)

/-- The version that a directive asks for. -/
def readVersion (began : Mark) (s : Source) : Except Failure (Directive × Source) := do
  let (major, s) ← readVersionNumber began s.skipSpaces
  if s.peek ≠ some '.' then failIn .directive began (.notDigitOrDot s.peek) s.mark
  let (_, s) ← readVersionNumber began s.step
  if endsWord s.peek then return (.version major, s)
  else failIn .directive began (.notDigitOrSpace s.peek) s.mark

/-- The handle that a directive defines, and its meaning. -/
def readHandleDirective (began : Mark) (s : Source) : Except Failure (Directive × Source) := do
  let (handle, s) ← readHandle .directive began s.skipSpaces
  if s.peek ≠ some ' ' then failIn .directive began (.notSpace s.peek) s.mark
  let (address, s) ← readAddress .directiveAddress .directive began s.skipSpaces
  if endsWord s.peek then return (.handle handle address, s)
  else failIn .directive began (.notSpace s.peek) s.mark

/-- The rest of a line on which nothing but a comment may stand, and the line's break. -/
def finishLine (context : Context) (began : Mark) (s : Source) : Except Failure Source :=
  let s := s.skipSpaces.skipComment
  if endsLine s.peek then .ok s.lineBreak.2
  else failIn context began (.notCommentOrBreak s.peek) s.mark

/-- A directive and the rest of its line. -/
def readDirective (s : Source) : Except Failure (Directive × Source) := do
  let began := s.mark
  let (name, s) := s.step.takeWhile isNameChar
  if name = [] ∨ !endsWord s.peek then
    failIn .directive began (.notAlphanumeric s.peek) s.mark
  let (directive, s) ←
    if name = "YAML".toList then readVersion began s
    else if name = "TAG".toList then readHandleDirective began s
    else pure (.unknown, s.skipWhile (!isBreak ·))
  let s ← finishLine .directive began s
  return (directive, s)

end DiffGate.Yaml
