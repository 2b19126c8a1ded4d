import DiffGate.Yaml.Node
import DiffGate.Yaml.ScalarValue

/-!
# Documents: the data that nodes stand for

Each node becomes a datum by its kind. A mapping may merge the entries of others: theirs come first,
its own override them. Keys must be able to be keys.

When several nodes cannot be had, one failure is reported. Collections are filled level by level: a
scalar's failure shows when the collection around it is filled, a collection's own when its turn
comes, one round after it was met. So a failure carries the number of rounds until it shows; the
earliest is reported, and of two in one round the one that stands first.
-/

set_option autoImplicit false

namespace DiffGate.Yaml

/-- A failure and the round in which it shows. -/
abbrev Trouble := Option (Nat × Failure)

namespace Trouble

/-- The trouble that shows first. -/
def first (x y : Trouble) : Trouble :=
  match x, y with
  | some (m, _), some (n, _) => if n < m then y else x
  | some _, none => x
  | none, _ => y

/-- Trouble that shows one round later. -/
def later (x : Trouble) : Trouble := x.map fun (n, e) => (n + 1, e)

/-- Trouble at once. -/
def now (problem : Problem) (mark : Mark) : Trouble :=
  some (0, .malformed ⟨none, problem, mark⟩)

/-- Trouble at once, inside a context. -/
def nowIn (context : Context) (began : Mark) (problem : Problem) (mark : Mark) : Trouble :=
  some (0, .malformed ⟨some (context, began), problem, mark⟩)

end Trouble

/-- What became of a node: its datum, which counts only without trouble. -/
structure Built where
  value : Datum
  trouble : Trouble

namespace Built

/-- A datum without trouble. -/
def ok (d : Datum) : Built := ⟨d, none⟩

/-- No datum. -/
def bad (t : Trouble) : Built := ⟨.null, t⟩

/-- The datum of a computation that may be a fault. -/
def ofExcept {α : Type} (make : α → Datum) : Except Fault α → Built
  | .ok a => ok (make a)
  | .error f => bad (some (0, .fault f))

end Built

/-- The shape of a node, by its name in messages. -/
inductive Shape
  | scalar
  | sequence
  | mapping
  deriving DecidableEq

/-- The name of a shape. -/
def Shape.name : Shape → String
  | .scalar => "scalar"
  | .sequence => "sequence"
  | .mapping => "mapping"

/-- An entry of a mapping. -/
structure Entry where
  keyStart : Mark
  key : Built
  value : Built

/-- All that the node around it may need of a node. -/
structure Part where
  shape : Shape
  tag : Tag
  start : Mark
  /-- What it becomes. -/
  built : Built
  /-- Its text, if it is a scalar or a mapping with a scalar for its value. -/
  text : Option Text
  /-- A mapping's entries as they are written. -/
  written : List Entry
  /-- A mapping's entries with those that it merges, or why they cannot be merged. -/
  merged : Except Failure (List Entry)
  /-- What a sequence's items can give to a merge. -/
  items : List (Shape × Mark × Except Failure (List Entry))

namespace Part

/-! ## Scalars -/

/-- The bytes of a scalar. -/
def binary (t : Text) (start : Mark) : Built :=
  if t.any Problem.isForeign then .bad (.now (.binaryNotAscii t) start)
  else
    match base64 t with
    | .ok bytes => .ok (.bytes bytes)
    | .error (.badLength count) => .bad (.now (.binaryBadLength count) start)
    | .error .badPadding => .bad (.now .binaryBadPadding start)

/-- What a text of a scalar kind becomes. -/
def ofScalar (tag : Tag) (t : Text) (start : Mark) : Built :=
  match tag with
  | .null => .ok .null
  | .bool => .ofExcept .bool (boolValue t)
  | .int => .ofExcept .int (intValue t)
  | .float => .ofExcept .real (realValue t)
  | .binary => binary t start
  | .timestamp => .ofExcept id (stampValue t)
  | _ => .ok (.text t)

/-! ## Mappings -/

/-- An entry's key as it is built: the key for the value itself is taken for a text. -/
def entryKey (key : Part) : Built :=
  match key.tag, key.text with
  | .value, some t => .ok (.text t)
  | _, _ => key.built

/-- An entry as it is written. -/
def entry (pair : Part × Part) : Entry := ⟨pair.1.start, entryKey pair.1, pair.2.built⟩

/-- The entries of the mappings in a list, the last mapping's first. -/
def mergedItems (began : Mark) :
    List (Shape × Mark × Except Failure (List Entry)) → Except Failure (List Entry)
  | [] => .ok []
  | (.mapping, _, entries) :: rest => do
    let entries ← entries
    return (← mergedItems began rest) ++ entries
  | (shape, start, _) :: _ =>
    failIn .constructingMapping began (.notMergeableItem shape.name) start

/-- The entries that a mapping merges from the value of a merge key. -/
def mergedFrom (began : Mark) (value : Part) : Except Failure (List Entry) :=
  match value.shape with
  | .mapping => value.merged
  | .sequence => mergedItems began value.items
  | .scalar => failIn .constructingMapping began (.notMergeable value.shape.name) value.start

/-- The merged entries and the own ones of a mapping. -/
def partition (began : Mark) : List (Part × Part) → Except Failure (List Entry × List Entry)
  | [] => .ok ([], [])
  | pair :: rest => do
    if pair.1.tag = .merge then
      let found ← mergedFrom began pair.2
      let (merged, own) ← partition began rest
      return (found ++ merged, own)
    else
      let (merged, own) ← partition began rest
      return (merged, entry pair :: own)

/-- A mapping's entries, merged ones first. -/
def flatten (began : Mark) (pairs : List (Part × Part)) : Except Failure (List Entry) :=
  (partition began pairs).map fun (merged, own) => merged ++ own

/-- The trouble with an entry. -/
def entryTrouble (began : Mark) (e : Entry) : Trouble :=
  let key := e.key.trouble.first
    (if e.key.value.isKey then none
      else .nowIn .constructingMapping began .keyNotScalar e.keyStart)
  key.first e.value.trouble

/-- The trouble with one of several things. -/
def firstOf {α : Type} (trouble : α → Trouble) (xs : List α) : Trouble :=
  xs.foldl (fun found x => found.first (trouble x)) none

/-- What a mapping's entries become. -/
def ofEntries (make : List (Datum × Datum) → Datum) (began : Mark)
    (entries : Except Failure (List Entry)) : Built :=
  match entries with
  | .error e => .bad (some (1, e))
  | .ok entries =>
    let pairs := entries.foldl (fun pairs e => Datum.put e.key.value e.value.value pairs) []
    ⟨make pairs, (firstOf (entryTrouble began) entries).later⟩

/-! ## Sequences of pairs -/

/-- One item of an ordered mapping: a mapping of one entry. -/
def ofPair (context : Context) (began : Mark) (item : Part) : Built :=
  match item.shape, item.written with
  | .mapping, [e] => ⟨.tuple [e.key.value, e.value.value], e.key.trouble.first e.value.trouble⟩
  | .mapping, entries =>
    .bad (.nowIn context began (.notSingleItem entries.length) item.start)
  | shape, _ => .bad (.nowIn context began (.notOrderedItem shape.name) item.start)

/-- What a list of built items becomes, a round later. -/
def ofItems (items : List Built) : Built :=
  ⟨.list (items.map Built.value), (firstOf Built.trouble items).later⟩

/-! ## Nodes -/

/-- Whether a kind is one of scalars. -/
def isScalarTag : Tag → Bool
  | .null | .bool | .int | .float | .binary | .timestamp | .text => true
  | _ => false

/-- What a node becomes that is given by its parts. -/
def build (tag : Tag) (start : Mark) (shape : Shape) (text : Option Text) (items : List Part)
    (pairs : List (Part × Part)) : Built :=
  let misfit (problem : String → Problem) : Built := .bad (.later (.now (problem shape.name) start))
  let ordered (context : Context) : Built :=
    if shape = .sequence then ofItems (items.map (ofPair context start))
    else .bad (.later (.nowIn context start (.notOrderedSequence shape.name) start))
  if isScalarTag tag then
    match text with
    | some t => ofScalar tag t start
    | none => .bad (.now (.notScalar shape.name) start)
  else
    match tag with
    | .sequence => if shape = .sequence then ofItems (items.map built) else misfit .notSequence
    | .mapping =>
      if shape = .mapping then ofEntries .map start (flatten start pairs) else misfit .notMapping
    | .set =>
      if shape = .mapping then
        ofEntries (fun pairs => .set (pairs.map Prod.fst)) start (flatten start pairs)
      else misfit .notMapping
    | .orderedMap => ordered .constructingOrderedMap
    | .pairs => ordered .constructingPairs
    | tag => .bad (.now (.unknownTag tag.address) start)

/-- The text of a mapping that has a scalar for its value. -/
def valueText (pairs : List (Part × Part)) : Option Text :=
  (pairs.find? fun pair => pair.1.tag == .value).bind fun pair => pair.2.text

end Part

mutual

/-- What the node around it may need of a node. -/
def Node.part : Node → Part
  | .scalar tag text start =>
    ⟨.scalar, tag, start, Part.build tag start .scalar (some text) [] [], some text, [], .ok [], []⟩
  | .sequence tag items start =>
    let items := parts items
    ⟨.sequence, tag, start, Part.build tag start .sequence none items [], none, [], .ok [],
      items.map fun item => (item.shape, item.start, item.merged)⟩
  | .mapping tag entries start =>
    let pairs := pairParts entries
    let text := Part.valueText pairs
    ⟨.mapping, tag, start, Part.build tag start .mapping text [] pairs, text,
      pairs.map Part.entry, Part.flatten start pairs, []⟩

/-- The parts of a sequence. -/
def parts : List Node → List Part
  | [] => []
  | n :: ns => n.part :: parts ns

/-- The parts of a mapping. -/
def pairParts : List (Node × Node) → List (Part × Part)
  | [] => []
  | (k, v) :: rest => (k.part, v.part) :: pairParts rest

end

/-- The data that a node stands for. -/
def Node.datum (n : Node) : Except Failure Datum :=
  let built := n.part.built
  match built.trouble with
  | none => .ok built.value
  | some (_, e) => .error e

/-- The data of a text; a text without a document has the absent value. -/
def read (t : Text) : Except Failure Datum := do
  match ← Node.ofText t with
  | none => return .null
  | some n => n.datum

end DiffGate.Yaml
