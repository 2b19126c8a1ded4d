import DiffGate.Yaml.Layout
import DiffGate.Yaml.Tag

/-!
# Nodes: the tree that tokens write

A document is a tree of scalars, sequences and mappings, each with its kind and the place where it
starts. An alias stands for the node of its anchor, which must have been written before; the same
name may not be given twice. A text holds one document at most.

A node with an alias of itself inside, as in `&x [*x]`, is a value that holds itself, and no tree is
one. Documents with such a node are outside the model: they are refused as malformed here, though
YAML allows them.

The functions that read nodes take what is left of the tokens and return what is left after the
node. Their fuel is twice the number of tokens and a little more: each call of `node` from inside a
collection comes after a token of that collection.
-/

set_option autoImplicit false

namespace DiffGate.Yaml

/-- A node and the place where it starts. -/
inductive Node
  | scalar (tag : Tag) (text : Text) (start : Mark)
  | sequence (tag : Tag) (items : List Node) (start : Mark)
  | mapping (tag : Tag) (entries : List (Node × Node)) (start : Mark)

namespace Node

/-- The place where a node starts. -/
def start : Node → Mark
  | .scalar _ _ start => start
  | .sequence _ _ start => start
  | .mapping _ _ start => start

/-- A node that nothing is written of. -/
def absent (start : Mark) : Node := .scalar .null [] start

end Node

/-- What an anchor names: a node that is still being read, by its start, or one that is complete. -/
inductive Anchored
  | unfinished (start : Mark)
  | complete (n : Node)

/-- The start of what an anchor names. -/
def Anchored.start : Anchored → Mark
  | .unfinished start => start
  | .complete n => n.start

/-- What is left to read: the tokens, the error behind the last of them, the meaning of tag handles,
and the anchors so far. -/
structure Reading where
  tokens : List Token
  ending : Option Failure
  handles : List (Text × Text)
  anchors : List (Text × Anchored)

namespace Reading

/-- The next token, or the error in its place. Tokens without an error behind them end with the end
of the text, which is never passed. -/
def peek (r : Reading) : Except Failure Token :=
  match r.tokens with
  | t :: _ => .ok t
  | [] => .error (r.ending.getD (.malformed ⟨none, .anotherDocument, ⟨0, 0, 0⟩⟩))

/-- After the next token. -/
def advance (r : Reading) : Reading := { r with tokens := r.tokens.tail }

/-- Names a node, or fails if the name is taken. -/
def checkAnchor (r : Reading) (anchor : Option Text) (start : Mark) : Except Failure Unit :=
  match anchor.bind fun name => (r.anchors.lookup name).map (name, ·) with
  | none => .ok ()
  | some (name, first) => failIn (.duplicateAnchor name) first.start .secondAnchor start

/-- Records what a name stands for. -/
def record (r : Reading) (anchor : Option Text) (what : Anchored) : Reading :=
  match anchor with
  | none => r
  | some name => { r with anchors := (name, what) :: r.anchors }

end Reading

/-! ## Anchors and tags in front of a node -/

/-- What stands in front of a node: a name, a tag's address, and where the first of them starts. -/
structure Properties where
  anchor : Option Text
  tag : Option Text
  start : Option Mark

/-- The address that a tag stands for. -/
def tagAddress (handles : List (Text × Text)) (began mark : Mark) (t : WrittenTag) :
    Except Failure Text :=
  match t.handle with
  | none => .ok t.suffix
  | some handle =>
    match handles.lookup handle with
    | none => failIn .node began (.undefinedHandle handle) mark
    | some address => .ok (address ++ t.suffix)

/-- The anchor and the tag in front of a node, in either order. -/
def readProperties (r : Reading) : Except Failure (Properties × Reading) := do
  let first ← r.peek
  match first.kind with
  | .anchor name => do
    let r := r.advance
    let second ← r.peek
    match second.kind with
    | .tag t => do
      let address ← tagAddress r.handles first.start second.start t
      return (⟨some name, some address, some first.start⟩, r.advance)
    | _ => return (⟨some name, none, some first.start⟩, r)
  | .tag t => do
    let r := r.advance
    let second ← r.peek
    let (anchor, r) :=
      match second.kind with
      | .anchor name => (some name, r.advance)
      | _ => (none, r)
    let address ← tagAddress r.handles first.start first.start t
    return (⟨anchor, some address, some first.start⟩, r)
  | _ => return (⟨none, none, none⟩, r)

/-- The kind of a collection: what its tag asks for, or its shape's. -/
def collectionTag (tag : Option Text) (shape : Tag) : Tag :=
  match tag with
  | none => shape
  | some address => if address = ['!'] then shape else .ofAddress address

/-- The kind of a scalar: what its tag asks for; without a tag, the form decides over a plain
scalar, and the tag `!` lets it decide over any. -/
def scalarTag (tag : Option Text) (text : Text) (plain : Bool) : Tag :=
  match tag with
  | none => if plain then .ofPlain text else .text
  | some address => if address = ['!'] then .ofPlain text else .ofAddress address

/-! ## Nodes -/

/-- Where a node stands: whether block collections may start there, and whether a sequence may go
without indentation of its own. -/
structure Position where
  block : Bool
  indentless : Bool

/-- Inside a flow collection. -/
def Position.flow : Position := ⟨false, false⟩

/-- In a block sequence, or a whole document. -/
def Position.entry : Position := ⟨true, false⟩

/-- A key or a value of a block mapping. -/
def Position.field : Position := ⟨true, true⟩

/-- Tokens after which a block mapping's key or value is absent. -/
def endsField : TokenKind → Bool
  | .key | .value | .blockEnd => true
  | _ => false

/-- Tokens after which an entry of a sequence without indentation is absent. -/
def endsIndentless : TokenKind → Bool
  | .blockEntry | .key | .value | .blockEnd => true
  | _ => false

/-- Tokens after which a flow mapping's key is absent. -/
def endsFlowKey : TokenKind → Bool
  | .value | .flowEntry | .flowMappingEnd => true
  | _ => false

/-- Tokens after which a key inside a flow sequence is absent. -/
def endsFlowPairKey : TokenKind → Bool
  | .value | .flowEntry | .flowSequenceEnd => true
  | _ => false

mutual

/-- A node. -/
def node (fuel : Nat) (position : Position) (r : Reading) : Except Failure (Node × Reading) :=
  match fuel with
  | 0 => .error (r.ending.getD (.malformed ⟨none, .anotherDocument, ⟨0, 0, 0⟩⟩))
  | fuel + 1 => do
    let token ← r.peek
    match token.kind with
    | .alias name =>
      match r.anchors.lookup name with
      | none => failAt (.undefinedAlias name) token.start
      | some (.unfinished _) => failAt (.recursiveAlias name) token.start
      | some (.complete n) => return (n, r.advance)
    | _ => do
      let (properties, r) ← readProperties r
      let token ← r.peek
      let start := properties.start.getD token.start
      let anchor := properties.anchor
      let tag := properties.tag
      let sequenceTag := collectionTag tag .sequence
      let mappingTag := collectionTag tag .mapping
      let finish (n : Node) (r : Reading) : Except Failure (Node × Reading) :=
        .ok (n, r.record anchor (.complete n))
      let opened (r : Reading) : Except Failure Reading := do
        r.checkAnchor anchor start
        return r.record anchor (.unfinished start)
      match token.kind, position.block, position.indentless with
      | .blockEntry, _, true => do
        let (items, r) ← indentlessSequence fuel (← opened r)
        finish (.sequence sequenceTag items start) r
      | .scalar text plain, _, _ => do
        r.checkAnchor anchor start
        finish (.scalar (scalarTag tag text plain) text start) r.advance
      | .flowSequenceStart, _, _ => do
        let (items, r) ← flowSequence fuel token.start true (← opened r).advance
        finish (.sequence sequenceTag items start) r
      | .flowMappingStart, _, _ => do
        let (entries, r) ← flowMapping fuel token.start true (← opened r).advance
        finish (.mapping mappingTag entries start) r
      | .blockSequenceStart, true, _ => do
        let (items, r) ← blockSequence fuel token.start (← opened r).advance
        finish (.sequence sequenceTag items start) r
      | .blockMappingStart, true, _ => do
        let (entries, r) ← blockMapping fuel token.start (← opened r).advance
        finish (.mapping mappingTag entries start) r
      | kind, block, _ =>
        if anchor.isSome || tag.isSome then do
          r.checkAnchor anchor start
          finish (.scalar (scalarTag tag [] true) [] start) r
        else
          failIn (if block then .blockNode else .flowNode) start (.noContent kind.name) token.start

/-- The entries of a block sequence that began at `began`, and its end. -/
def blockSequence (fuel : Nat) (began : Mark) (r : Reading) :
    Except Failure (List Node × Reading) :=
  match fuel with
  | 0 => .ok ([], r)
  | fuel + 1 => do
    let token ← r.peek
    match token.kind with
    | .blockEntry => do
      let r := r.advance
      let next ← r.peek
      let (item, r) ←
        if next.kind = .blockEntry ∨ next.kind = .blockEnd then
          pure (Node.absent token.start.next, r)
        else node fuel .entry r
      let (items, r) ← blockSequence fuel began r
      return (item :: items, r)
    | .blockEnd => return ([], r.advance)
    | kind => failIn .blockCollection began (.noBlockEnd kind.name) token.start

/-- The entries of a sequence that is not indented against its key. -/
def indentlessSequence (fuel : Nat) (r : Reading) : Except Failure (List Node × Reading) :=
  match fuel with
  | 0 => .ok ([], r)
  | fuel + 1 => do
    let token ← r.peek
    match token.kind with
    | .blockEntry => do
      let r := r.advance
      let next ← r.peek
      let (item, r) ←
        if endsIndentless next.kind then pure (Node.absent token.start.next, r)
        else node fuel .entry r
      let (items, r) ← indentlessSequence fuel r
      return (item :: items, r)
    | _ => return ([], r)

/-- The entries of a block mapping that began at `began`, and its end. -/
def blockMapping (fuel : Nat) (began : Mark) (r : Reading) :
    Except Failure (List (Node × Node) × Reading) :=
  match fuel with
  | 0 => .ok ([], r)
  | fuel + 1 => do
    let token ← r.peek
    match token.kind with
    | .key => do
      let r := r.advance
      let next ← r.peek
      let (key, r) ←
        if endsField next.kind then pure (Node.absent token.start.next, r)
        else node fuel .field r
      let colon ← r.peek
      let (value, r) ←
        if colon.kind = .value then do
          let r := r.advance
          let next ← r.peek
          if endsField next.kind then pure (Node.absent colon.start.next, r)
          else node fuel .field r
        else pure (Node.absent colon.start, r)
      let (entries, r) ← blockMapping fuel began r
      return ((key, value) :: entries, r)
    | .blockEnd => return ([], r.advance)
    | kind => failIn .blockMapping began (.noBlockEnd kind.name) token.start

/-- The items of a flow sequence that began at `began`, and its end; `first` before the first one.
-/
def flowSequence (fuel : Nat) (began : Mark) (first : Bool) (r : Reading) :
    Except Failure (List Node × Reading) :=
  match fuel with
  | 0 => .ok ([], r)
  | fuel + 1 => do
    let token ← r.peek
    match token.kind with
    | .flowSequenceEnd => return ([], r.advance)
    | kind => do
      if !first && kind ≠ .flowEntry then
        failIn .flowSequence began (.noSequenceEnd kind.name) token.start
      let r := if first then r else r.advance
      let token ← r.peek
      match token.kind with
      | .flowSequenceEnd => return ([], r.advance)
      | .key => do
        let r := r.advance
        let next ← r.peek
        let (key, r) ←
          if endsFlowPairKey next.kind then pure (Node.absent token.start.next, r)
          else node fuel .flow r
        let colon ← r.peek
        let (value, r) ←
          if colon.kind = .value then do
            let r := r.advance
            let next ← r.peek
            if next.kind = .flowEntry ∨ next.kind = .flowSequenceEnd then
              pure (Node.absent colon.start.next, r)
            else node fuel .flow r
          else pure (Node.absent colon.start, r)
        let (items, r) ← flowSequence fuel began false r
        return (.mapping .mapping [(key, value)] token.start :: items, r)
      | _ => do
        let (item, r) ← node fuel .flow r
        let (items, r) ← flowSequence fuel began false r
        return (item :: items, r)

/-- The entries of a flow mapping that began at `began`, and its end; `first` before the first
one. -/
def flowMapping (fuel : Nat) (began : Mark) (first : Bool) (r : Reading) :
    Except Failure (List (Node × Node) × Reading) :=
  match fuel with
  | 0 => .ok ([], r)
  | fuel + 1 => do
    let token ← r.peek
    match token.kind with
    | .flowMappingEnd => return ([], r.advance)
    | kind => do
      if !first && kind ≠ .flowEntry then
        failIn .flowMapping began (.noMappingEnd kind.name) token.start
      let r := if first then r else r.advance
      let token ← r.peek
      match token.kind with
      | .flowMappingEnd => return ([], r.advance)
      | .key => do
        let r := r.advance
        let next ← r.peek
        let (key, r) ←
          if endsFlowKey next.kind then pure (Node.absent token.start.next, r)
          else node fuel .flow r
        let colon ← r.peek
        let (value, r) ←
          if colon.kind = .value then do
            let r := r.advance
            let next ← r.peek
            if next.kind = .flowEntry ∨ next.kind = .flowMappingEnd then
              pure (Node.absent colon.start.next, r)
            else node fuel .flow r
          else pure (Node.absent colon.start, r)
        let (entries, r) ← flowMapping fuel began false r
        return ((key, value) :: entries, r)
      | _ => do
        let (key, r) ← node fuel .flow r
        let next ← r.peek
        let (entries, r) ← flowMapping fuel began false r
        return ((key, .absent next.start) :: entries, r)

end

/-! ## Documents -/

/-- What tag handles mean in a document that does not say. -/
def defaultHandles : List (Text × Text) := [(['!'], ['!']), (['!', '!'], Tag.standardLead)]

/-- The directives in front of a document, and what they make of the tag handles; `versioned` when a
version has been asked for. -/
def readDirectives (fuel : Nat) (versioned : Bool) (handles : List (Text × Text)) (r : Reading) :
    Except Failure (List (Text × Text) × Reading) :=
  match fuel with
  | 0 => .ok (handles, r)
  | fuel + 1 => do
    let token ← r.peek
    match token.kind with
    | .directive (.version major) =>
      if versioned then failAt .duplicateVersion token.start
      else if major ≠ 1 then failAt .incompatibleVersion token.start
      else readDirectives fuel true handles r.advance
    | .directive (.handle handle address) =>
      if (handles.lookup handle).isSome then failAt (.duplicateHandle handle) token.start
      else readDirectives fuel versioned (handles ++ [(handle, address)]) r.advance
    | .directive .unknown => readDirectives fuel versioned handles r.advance
    | _ => return (handles, r)

/-- Ends of documents that may stand before the next one. -/
def skipDocumentEnds (fuel : Nat) (r : Reading) : Except Failure Reading :=
  match fuel with
  | 0 => .ok r
  | fuel + 1 => do
    let token ← r.peek
    if token.kind = .documentEnd then skipDocumentEnds fuel r.advance else return r

/-- The head of a document with its start mark, and where it begins; nothing at the end of the
text. -/
def documentHead (r : Reading) : Except Failure (Option Mark × Reading) := do
  let fuel := r.tokens.length + 1
  let r ← skipDocumentEnds fuel r
  let first ← r.peek
  if first.kind = .streamEnd then return (none, r)
  let (handles, r) ← readDirectives fuel false [] r
  let token ← r.peek
  if token.kind ≠ .documentStart then failAt (.noDocumentStart token.kind.name) token.start
  return (some first.start, { r.advance with handles := handles ++ defaultHandles })

/-- Whether a document with a start mark has no content before this token. -/
def endsDocument : TokenKind → Bool
  | .directive _ | .documentStart | .documentEnd | .streamEnd => true
  | _ => false

/-- The one document of a text, if it has one. -/
def readStream (r : Reading) : Except Failure (Option Node) := do
  let fuel := 2 * r.tokens.length + 8
  let token ← r.peek
  let marked :=
    match token.kind with
    | .directive _ | .documentStart | .streamEnd => true
    | _ => false
  let (head, r) ←
    if marked then documentHead r
    else pure (some token.start, { r with handles := defaultHandles })
  match head with
  | none => return none
  | some _ => do
    let token ← r.peek
    let (document, r) ←
      if marked && endsDocument token.kind then pure (Node.absent token.start, r)
      else node fuel .entry r
    let (next, _) ← documentHead r
    match next with
    | none => return some document
    | some mark => failIn .singleDocument document.start .anotherDocument mark

/-- The node that a text writes, if it writes one. -/
def Node.ofText (t : Text) : Except Failure (Option Node) :=
  let (tokens, ending) := tokens t
  readStream ⟨tokens, ending, [], []⟩

end DiffGate.Yaml
