import DiffGate.Yaml.Property
import DiffGate.Yaml.ScalarText

/-!
# The layout of a YAML text: from characters to tokens

Tokens are found from the front of the text. Two things make this more than a table of marks.

* **Indentation.** A block opens when an entry or a key stands further right than the block around
  it, and closes when a line starts further left.
* **Simple keys.** `a: 1` shows only at the colon that `a` was a key. So wherever a node could be a
  key without a `?`, its place is remembered, and a colon on the same line, within 1024 characters,
  puts the key's tokens in front of the node after the fact. In block context a node at the block's
  own indentation must turn out to be a key.

A token that might still become a key is not to be had before that is settled. So when an error is
met, the tokens from the first open key on are lost with it: `tokens` gives those in front of it,
which are read before the error shows, and the error.
-/

set_option autoImplicit false

namespace DiffGate.Yaml

/-- A node that may turn out to be a key: how many tokens stand before it, whether it has to be one,
and where it starts. -/
structure OpenKey where
  number : Nat
  required : Bool
  start : Mark
  deriving DecidableEq

/-- What is known after some tokens. -/
structure Layout where
  source : Source
  /-- How many flow collections are open. -/
  flow : Int
  /-- The column of the innermost open block; -1 outside all blocks. -/
  indent : Int
  /-- The columns of the blocks around it, the innermost first. -/
  outer : List Int
  /-- Whether a node that starts here may be a simple key. -/
  keyAllowed : Bool
  /-- Nodes that may turn out to be keys, by the number of flow collections around them. -/
  openKeys : List (Int × OpenKey)
  /-- The tokens so far, the last one first, and their number. -/
  reversed : List Token
  count : Nat
  done : Bool

namespace Layout

/-- Before the first token. -/
def start (t : Text) : Layout := ⟨.start t, 0, -1, [], true, [], [], 0, false⟩

/-- Where the next token starts. -/
def mark (l : Layout) : Mark := l.source.mark

/-- Whether the place is outside all flow collections. -/
def inBlock (l : Layout) : Bool := l.flow == 0

/-- One more token, and the place after it. -/
def push (l : Layout) (kind : TokenKind) (start : Mark) (source : Source) : Layout :=
  { l with source, reversed := ⟨kind, start⟩ :: l.reversed, count := l.count + 1 }

/-- One more token of `n` characters. -/
def pushMark (l : Layout) (kind : TokenKind) (n : Nat) : Layout :=
  l.push kind l.mark (Source.skip n l.source)

/-- Puts a token behind the first `number` ones. -/
def insertAt (l : Layout) (number : Nat) (kind : TokenKind) (start : Mark) : Layout :=
  { l with
    reversed := l.reversed.insertIdx (l.count - number) ⟨kind, start⟩
    count := l.count + 1 }

/-! ## Open keys -/

/-- The open key among the nodes of the innermost collection. -/
def openKey? (l : Layout) : Option OpenKey := l.openKeys.lookup l.flow

/-- Forgets the open key of the innermost collection. -/
def closeKey (l : Layout) : Layout :=
  { l with openKeys := l.openKeys.filter fun entry => entry.1 != l.flow }

/-- Gives up the open key of the innermost collection, if it need not be one. -/
def dropKey (l : Layout) : Except Failure Layout :=
  match l.openKey? with
  | none => .ok l
  | some key =>
    if key.required then failIn .simpleKey key.start .noColon l.mark else .ok l.closeKey

/-- Remembers that the node that starts here may be a key. -/
def openKeyHere (l : Layout) : Except Failure Layout :=
  if l.keyAllowed then
    l.dropKey.map fun l =>
      let required := l.inBlock && l.indent == (l.mark.column : Int)
      { l with openKeys := (l.flow, ⟨l.count, required, l.mark⟩) :: l.openKeys }
  else .ok l

/-- Whether a key can no longer be completed: its line has ended, or it is too long. -/
def isStale (l : Layout) (key : OpenKey) : Bool :=
  key.start.line != l.mark.line || key.start.index + 1024 < l.mark.index

/-- Gives up the keys that can no longer be completed. -/
def dropStaleKeys (l : Layout) : Except Failure Layout :=
  match l.openKeys.reverse.find? fun entry => l.isStale entry.2 && entry.2.required with
  | some (_, key) => failIn .simpleKey key.start .noColon l.mark
  | none => .ok { l with openKeys := l.openKeys.filter fun entry => !l.isStale entry.2 }

/-! ## Indentation -/

/-- Closes the blocks that are indented further than `column`; `fuel` bounds their number. -/
def unwindWith (fuel : Nat) (column : Int) (l : Layout) : Layout :=
  match fuel with
  | 0 => l
  | fuel + 1 =>
    if column < l.indent then
      unwindWith fuel column
        { l.push .blockEnd l.mark l.source with
          indent := l.outer.headD (-1)
          outer := l.outer.tail }
    else l

/-- Closes the blocks that are indented further than `column`. In flow context indentation says
nothing. -/
def unwind (column : Int) (l : Layout) : Layout :=
  if l.inBlock then unwindWith (l.outer.length + 1) column l else l

/-- Opens a block at `column`, if that is further right than the block around it; whether it does.
-/
def opensBlock (l : Layout) (column : Nat) : Bool := l.indent < (column : Int)

/-- Opens a block at `column`. -/
def indentTo (l : Layout) (column : Nat) : Layout :=
  { l with indent := column, outer := l.indent :: l.outer }

/-- Opens a block here, with its token, if this is further right than the block around it. -/
def openBlock (l : Layout) (kind : TokenKind) : Layout :=
  if l.opensBlock l.mark.column then (l.indentTo l.mark.column).push kind l.mark l.source else l

/-- Spaces, comments and line breaks before the next token; after a line break outside flow
collections a key may start. -/
def skipBlank (fuel : Nat) (l : Layout) : Layout :=
  match fuel with
  | 0 => l
  | fuel + 1 =>
    let s := l.source.skipSpaces.skipComment
    match s.lineBreak with
    | ([], _) => { l with source := s }
    | (_, s) => skipBlank fuel { l with source := s, keyAllowed := l.keyAllowed || l.inBlock }

/-- The blanks before the next token, and a byte order mark at the very start. -/
def toNextToken (l : Layout) : Layout :=
  let l :=
    if l.mark.index = 0 ∧ l.source.peek = some '\uFEFF' then { l with source := l.source.step }
    else l
  skipBlank (l.source.rest.length + 1) l

/-! ## Tokens -/

/-- The end of the text. -/
def endStream (l : Layout) : Except Failure Layout :=
  (l.unwind (-1)).dropKey.map fun l =>
    { l.pushMark .streamEnd 0 with keyAllowed := false, openKeys := [], done := true }

/-- A directive. -/
def directive (l : Layout) : Except Failure Layout := do
  let l ← (l.unwind (-1)).dropKey
  let (d, s) ← readDirective l.source
  return { l.push (.directive d) l.mark s with keyAllowed := false }

/-- Three marks that start or end a document. -/
def separator (kind : TokenKind) (l : Layout) : Except Failure Layout :=
  (l.unwind (-1)).dropKey.map fun l => { l.pushMark kind 3 with keyAllowed := false }

/-- The start of a flow collection, which may itself be a key. -/
def openFlow (kind : TokenKind) (l : Layout) : Except Failure Layout :=
  l.openKeyHere.map fun l => { l.pushMark kind 1 with flow := l.flow + 1, keyAllowed := true }

/-- The end of a flow collection. -/
def closeFlow (kind : TokenKind) (l : Layout) : Except Failure Layout :=
  l.dropKey.map fun l => { l.pushMark kind 1 with flow := l.flow - 1, keyAllowed := false }

/-- A comma between the entries of a flow collection. -/
def flowEntry (l : Layout) : Except Failure Layout :=
  l.dropKey.map fun l => { l.pushMark .flowEntry 1 with keyAllowed := true }

/-- A hyphen before an entry of a block sequence. -/
def blockEntry (l : Layout) : Except Failure Layout :=
  if l.inBlock && !l.keyAllowed then failAt .entryNotAllowed l.mark
  else
    let l := if l.inBlock then l.openBlock .blockSequenceStart else l
    (dropKey { l with keyAllowed := true }).map fun l => l.pushMark .blockEntry 1

/-- A question mark before a key. -/
def explicitKey (l : Layout) : Except Failure Layout :=
  if l.inBlock && !l.keyAllowed then failAt .keyNotAllowed l.mark
  else
    let l := if l.inBlock then l.openBlock .blockMappingStart else l
    (dropKey { l with keyAllowed := l.inBlock }).map fun l => l.pushMark .key 1

/-- A colon after a key: the open key if there is one, whose tokens are put in front of it, and
otherwise one that a question mark introduced. -/
def value (l : Layout) : Except Failure Layout :=
  match l.openKey? with
  | some key =>
    let l := l.closeKey.insertAt key.number .key key.start
    let l :=
      if l.inBlock && l.opensBlock key.start.column then
        (l.indentTo key.start.column).insertAt key.number .blockMappingStart key.start
      else l
    .ok { l.pushMark .value 1 with keyAllowed := false }
  | none =>
    if l.inBlock && !l.keyAllowed then failAt .valueNotAllowed l.mark
    else
      let l := if l.inBlock then l.openBlock .blockMappingStart else l
      .ok { l.pushMark .value 1 with keyAllowed := l.inBlock }

/-- A name of a node, which may belong to a key. -/
def name (context : Context) (kind : Text → TokenKind) (l : Layout) : Except Failure Layout := do
  let l ← l.openKeyHere
  let (name, s) ← readName context l.source
  return { l.push (kind name) l.mark s with keyAllowed := false }

/-- A tag, which may belong to a key. -/
def tag (l : Layout) : Except Failure Layout := do
  let l ← l.openKeyHere
  let (tag, s) ← readTag l.source
  return { l.push (.tag tag) l.mark s with keyAllowed := false }

/-- A block scalar. -/
def blockScalar (folded : Bool) (l : Layout) : Except Failure Layout := do
  let l ← dropKey { l with keyAllowed := true }
  let (text, s) ← readBlock folded l.indent l.source
  return l.push (.scalar text false) l.mark s

/-- A quoted scalar, which may be a key. -/
def quotedScalar (quote : Char) (l : Layout) : Except Failure Layout := do
  let l ← l.openKeyHere
  let (text, s) ← readQuoted quote l.source
  return { l.push (.scalar text false) l.mark s with keyAllowed := false }

/-- A plain scalar, which may be a key. -/
def plainScalar (l : Layout) : Except Failure Layout :=
  l.openKeyHere.map fun l =>
    let scalar := readPlain (!l.inBlock) (l.indent + 1) l.source
    { l.push (.scalar scalar.text true) l.mark scalar.after with keyAllowed := scalar.brokeLine }

/-- Marks that start no plain scalar. -/
def isIndicator (c : Char) : Bool :=
  isSpaceOrTab c || isBreak c || "-?:,[]\x7b\x7d#&*!|>'\"%@\x60".toList.contains c

/-- Whether a plain scalar starts with `c` when `next` follows. -/
def startsPlain (l : Layout) (c : Char) (next : Option Char) : Bool :=
  !isIndicator c || (!endsToken next && (c == '-' || (l.inBlock && (c == '?' || c == ':'))))

/-- The next token, by its first characters. -/
def nextToken (l : Layout) : Except Failure Layout := do
  let l ← l.toNextToken.dropStaleKeys
  let l := l.unwind l.mark.column
  let next := l.source.peekAt 1
  let atLineStart := l.mark.column == 0
  match l.source.peek with
  | none => l.endStream
  | some c =>
    if c == '%' && atLineStart then l.directive
    else if c == '-' && atLineStart && l.source.atSeparator then l.separator .documentStart
    else if c == '.' && atLineStart && l.source.atSeparator then l.separator .documentEnd
    else if c == '[' then l.openFlow .flowSequenceStart
    else if c == '\x7b' then l.openFlow .flowMappingStart
    else if c == ']' then l.closeFlow .flowSequenceEnd
    else if c == '\x7d' then l.closeFlow .flowMappingEnd
    else if c == ',' then l.flowEntry
    else if c == '-' && endsToken next then l.blockEntry
    else if c == '?' && (!l.inBlock || endsToken next) then l.explicitKey
    else if c == ':' && (!l.inBlock || endsToken next) then l.value
    else if c == '*' then l.name .alias .alias
    else if c == '&' then l.name .anchor .anchor
    else if c == '!' then l.tag
    else if c == '|' && l.inBlock then l.blockScalar false
    else if c == '>' && l.inBlock then l.blockScalar true
    else if c == '\'' || c == '"' then l.quotedScalar c
    else if l.startsPlain c next then l.plainScalar
    else failIn .nextToken l.mark (.cannotStartToken c) l.mark

/-- The tokens in front of the first open key. -/
def settled (l : Layout) : List Token :=
  match (l.openKeys.map fun entry => entry.2.number).min? with
  | none => l.reversed.reverse
  | some number => l.reversed.reverse.take number

/-- All tokens from here on, or those that are settled before an error, and the error. -/
def run (fuel : Nat) (l : Layout) : List Token × Option Failure :=
  match fuel with
  | 0 => (l.reversed.reverse, none)
  | fuel + 1 =>
    if l.done then (l.reversed.reverse, none)
    else
      match l.nextToken.bind dropStaleKeys with
      | .error e => (l.settled, some e)
      | .ok l => run fuel l

end Layout

/-- Characters that a YAML text may hold. -/
def isAcceptable (c : Char) : Bool :=
  let n := c.toNat
  n == 9 || n == 10 || n == 13 || (0x20 ≤ n && n ≤ 0x7E) || n == 0x85 ||
    (0xA0 ≤ n && n ≤ 0xD7FF) || (0xE000 ≤ n && n ≤ 0xFFFD) || 0x10000 ≤ n

/-- The tokens of a text, or those before an error, and the error. -/
def tokens (t : Text) : List Token × Option Failure :=
  let run := t.takeWhile isAcceptable
  match t.drop run.length with
  | c :: _ => ([], some (.malformed ⟨none, .unacceptable c, ⟨run.length, 0, 0⟩⟩))
  | [] => Layout.run (2 * t.length + 4) (.start t)

end DiffGate.Yaml
