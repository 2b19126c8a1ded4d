import DiffGate.Calendar
import DiffGate.Number.Shortest
import DiffGate.Text.Digit
import DiffGate.Text.Ragged

/-!
# Data of no fixed shape

A configuration file and a linter's answer are documents: trees of scalars, lists and mappings whose
shape nobody has checked yet. `Datum` is such a tree. What the gate asks of one is little: whether
it counts as true, whether two are equal, which comes first, and how it is shown.

Equality is equality as data, not identity of trees: `1`, `1.0` and `true` are equal, and two
mappings with the same entries in another order are. It is what decides whether a key is already
there.

Strings with lone surrogates come out of JSON only. What reads a configuration need not know them.
-/

set_option autoImplicit false

namespace DiffGate

/-- A tree of data. -/
inductive Datum
  | null
  | bool (b : Bool)
  | int (n : Int)
  | real (x : Binary64)
  | text (t : Text)
  /-- A string that is no text. -/
  | ragged (r : Ragged)
  | bytes (bs : List UInt8)
  | date (d : Date)
  | moment (m : Moment)
  | list (items : List Datum)
  | tuple (items : List Datum)
  | set (members : List Datum)
  | map (entries : List (Datum × Datum))

namespace Datum

/-! ## Strings -/

/-- The code points of a string. -/
def points? : Datum → Option (List CodePoint)
  | .text t => some (t.map .char)
  | .ragged r => some r.points
  | _ => none

/-- The string that code points write. -/
def ofPoints (points : List CodePoint) : Datum :=
  match Ragged.read points with
  | .inl t => .text t
  | .inr r => .ragged r

/-- Whether a datum is a string that cannot be written in UTF-8. -/
def isRagged : Datum → Bool
  | .ragged _ => true
  | _ => false

/-! ## Truth and order -/

/-- What counts as true: everything but the absent value, zero, and what is empty. -/
def isTruthy : Datum → Bool
  | .null => false
  | .bool b => b
  | .int n => n != 0
  | .real x => !x.isZero
  | .text t => !t.isEmpty
  | .ragged _ => true
  | .bytes bs => !bs.isEmpty
  | .date _ => true
  | .moment _ => true
  | .list items => !items.isEmpty
  | .tuple items => !items.isEmpty
  | .set members => !members.isEmpty
  | .map entries => !entries.isEmpty

/-- The number that a datum is. A truth value counts as one or zero. -/
def number? : Datum → Option (Int ⊕ Binary64)
  | .bool b => some (.inl (if b then 1 else 0))
  | .int n => some (.inl n)
  | .real x => some (.inr x)
  | _ => none

/-- Whether a number equals an integer or a double. -/
def equalNumber : Int ⊕ Binary64 → Int ⊕ Binary64 → Bool
  | .inl m, .inl n => m == n
  | .inl m, .inr y => y.toInt? == some m
  | .inr x, .inl n => x.toInt? == some n
  | .inr x, .inr y => x.sameNumber y

/-- Whether the double is above the integer. -/
def intBelow (n : Int) (x : Binary64) : Bool :=
  match x.fraction?, x with
  | some (a, b), _ => n * b < a
  | none, .infinite negative => !negative
  | none, _ => false

/-- Whether the double is below the integer. -/
def intAbove (n : Int) (x : Binary64) : Bool :=
  match x.fraction?, x with
  | some (a, b), _ => a < n * b
  | none, .infinite negative => negative
  | none, _ => false

/-- Whether one number is less than another. -/
def lessNumber : Int ⊕ Binary64 → Int ⊕ Binary64 → Bool
  | .inl m, .inl n => m < n
  | .inl m, .inr y => intBelow m y
  | .inr x, .inl n => intAbove n x
  | .inr x, .inr y => x.less y

/-- Whether two scalars are equal as data. -/
def equalScalar (x y : Datum) : Bool :=
  match x.number?, y.number? with
  | some a, some b => equalNumber a b
  | some _, none => false
  | none, some _ => false
  | none, none =>
    match x, y with
    | .null, .null => true
    | .text s, .text t => s == t
    | .ragged s, .ragged t => s == t
    | .bytes s, .bytes t => s == t
    | .date d, .date e => d == e
    | .moment d, .moment e => d == e
    | _, _ => false

mutual

/-- Whether two data are equal as data. -/
def equal : Datum → Datum → Bool
  | .list xs, .list ys => equalLists xs ys
  | .tuple xs, .tuple ys => equalLists xs ys
  | .set xs, .set ys => xs.length == ys.length && subset xs ys
  | .map xs, .map ys => xs.length == ys.length && submap xs ys
  | x, y => equalScalar x y
termination_by structural x => x

/-- Whether two lists are equal, item by item. -/
def equalLists : List Datum → List Datum → Bool
  | [], [] => true
  | x :: xs, y :: ys => equal x y && equalLists xs ys
  | _, _ => false
termination_by structural xs => xs

/-- Whether each item has an equal one in `ys`. -/
def subset : List Datum → List Datum → Bool
  | [], _ => true
  | x :: xs, ys => ys.any (fun y => equal x y) && subset xs ys
termination_by structural xs => xs

/-- Whether each entry has an equal one in `ys`. -/
def submap : List (Datum × Datum) → List (Datum × Datum) → Bool
  | [], _ => true
  | (k, v) :: xs, ys => ys.any (fun entry => equal k entry.1 && equal v entry.2) && submap xs ys
termination_by structural xs => xs

end

/-- Whether strings and bytes come in this order: the first difference decides, and a shorter one
comes before its extensions. -/
def lessSequence {α : Type} [BEq α] (less : α → α → Bool) : List α → List α → Bool
  | _, [] => false
  | [], _ :: _ => true
  | x :: xs, y :: ys => if x == y then lessSequence less xs ys else less x y

/-- Whether one scalar comes before another; `none` when they cannot be compared. -/
def lessScalar? (x y : Datum) : Option Bool :=
  match x.number?, y.number? with
  | some a, some b => some (lessNumber a b)
  | some _, none => none
  | none, some _ => none
  | none, none =>
    match x, y with
    | .text s, .text t => some (lessSequence (fun a b => a < b) s t)
    | .bytes s, .bytes t => some (lessSequence (fun a b => a < b) s t)
    | .date d, .date e =>
      some (lessSequence (fun a b => a < b) [d.year, d.month, d.day] [e.year, e.month, e.day])
    | x, y =>
      match x.points?, y.points? with
      | some s, some t =>
        some (lessSequence (fun a b => a < b) (s.map CodePoint.toNat) (t.map CodePoint.toNat))
      | _, _ => none

mutual

/-- Whether one datum comes before another; `none` when the two cannot be compared. Only numbers are
compared with numbers, strings with strings, and lists with lists. -/
def less? : Datum → Datum → Option Bool
  | .list xs, .list ys => lessLists? xs ys
  | .tuple xs, .tuple ys => lessLists? xs ys
  | x, y => lessScalar? x y

/-- The first items that differ decide; a list comes before its extensions. -/
def lessLists? : List Datum → List Datum → Option Bool
  | _, [] => some false
  | [], _ :: _ => some true
  | x :: xs, y :: ys => if equal x y then lessLists? xs ys else less? x y

end

/-- Whether a datum can be a key of a mapping or a member of a set: lists, sets and mappings can be
neither. -/
def isKey : Datum → Bool
  | .list _ => false
  | .set _ => false
  | .map _ => false
  | _ => true

/-- The items that a collection yields one by one: a mapping yields its keys, bytes their values.
Scalars yield nothing, not even an empty list. -/
def items? : Datum → Option (List Datum)
  | .text t => some (t.map fun c => .text [c])
  | .ragged r => some (r.points.map fun point => .ofPoints [point])
  | .bytes bs => some (bs.map fun b => .int b.toNat)
  | .list items => some items
  | .tuple items => some items
  | .set members => some members
  | .map entries => some (entries.map Prod.fst)
  | _ => none

/-! ## Mappings

A mapping keeps the order in which its keys were first written. -/

/-- Sets a key's value. A key that is there keeps its place and its first spelling. -/
def put (k v : Datum) : List (Datum × Datum) → List (Datum × Datum)
  | [] => [(k, v)]
  | (k', v') :: rest => if equal k' k then (k', v) :: rest else (k', v') :: put k v rest

/-- The value of a key. -/
def find? (k : Datum) : List (Datum × Datum) → Option Datum
  | [] => none
  | (k', v) :: rest => if equal k' k then some v else find? k rest

/-- The value of a key that is text. -/
def field? (entries : List (Datum × Datum)) (key : String) : Option Datum :=
  find? (.text key.toList) entries

/-- The entries of `ys` set over those of `xs`. -/
def overlay (xs ys : List (Datum × Datum)) : List (Datum × Datum) :=
  ys.foldl (fun entries entry => put entry.1 entry.2 entries) xs

/-! ## How data is shown -/

/-- A byte between quotes. -/
def byteText (quote : Char) (b : UInt8) : Text :=
  let c := Char.ofNat b.toNat
  if c = quote ∨ c = '\\' then ['\\', c]
  else if c = '\t' then "\\t".toList
  else if c = '\n' then "\\n".toList
  else if c = '\r' then "\\r".toList
  else if 32 ≤ b.toNat ∧ b.toNat < 127 then [c]
  else "\\x".toList ++ Text.hex 2 b.toNat

/-- Bytes in quotes, marked with a `b`. -/
def bytesText (bs : List UInt8) : Text :=
  let quote := Text.quoteFor (bs.map fun b => Char.ofNat b.toNat)
  'b' :: quote :: (bs.flatMap (byteText quote) ++ [quote])

/-- Numbers between parentheses. -/
def call (name : String) (arguments : List Text) : Text :=
  name.toList ++ '(' :: (Text.join ", ".toList arguments ++ [')'])

/-- A date as a constructor of its parts. -/
def dateText (d : Date) : Text :=
  call "datetime.date" [Text.ofNat d.year, Text.ofNat d.month, Text.ofNat d.day]

/-- A clock offset as a constructor of its parts: whole days are taken out downward, so that the
seconds are never negative. -/
def offsetText (minutes : Int) : Text :=
  if minutes = 0 then "datetime.timezone.utc".toList
  else
    let seconds := "seconds=".toList ++ Text.ofInt (minutes * 60 % 86400)
    let days := "days=".toList ++ Text.ofInt (minutes * 60 / 86400)
    let parts := if minutes < 0 then [days, seconds] else [seconds]
    call "datetime.timezone" [call "datetime.timedelta" parts]

/-- A moment as a constructor of its parts, zero microseconds and then zero seconds left out. -/
def momentText (m : Moment) : Text :=
  let seconds :=
    if m.microsecond ≠ 0 then [m.second, m.microsecond]
    else if m.second ≠ 0 then [m.second]
    else []
  let numbers := [m.date.year, m.date.month, m.date.day, m.hour, m.minute] ++ seconds
  let zone :=
    match m.offset with
    | none => []
    | some minutes => ["tzinfo=".toList ++ offsetText minutes]
  call "datetime.datetime" (numbers.map Text.ofNat ++ zone)

/-- Comma-separated texts. -/
def commas (pieces : List Text) : Text := Text.join ", ".toList pieces

mutual

/-- A datum as it is shown inside a collection: strings and bytes in quotes. -/
def shown : Datum → Text
  | .null => "None".toList
  | .bool b => (if b then "True" else "False").toList
  | .int n => Text.ofInt n
  | .real x => x.text
  | .text t => Text.quoted t
  | .ragged r => r.quoted
  | .bytes bs => bytesText bs
  | .date d => dateText d
  | .moment m => momentText m
  | .list items => '[' :: (commas (shownAll items) ++ [']'])
  | .tuple items =>
    match shownAll items with
    | [one] => '(' :: (one ++ ",)".toList)
    | pieces => '(' :: (commas pieces ++ [')'])
  | .set members =>
    if members.isEmpty then "set()".toList
    else '\x7b' :: (commas (shownAll members) ++ ['\x7d'])
  | .map entries => '\x7b' :: (commas (shownEntries entries) ++ ['\x7d'])

/-- The items of a collection as they are shown. -/
def shownAll : List Datum → List Text
  | [] => []
  | x :: xs => shown x :: shownAll xs

/-- The entries of a mapping as they are shown. -/
def shownEntries : List (Datum × Datum) → List Text
  | [] => []
  | (k, v) :: rest => (shown k ++ ": ".toList ++ shown v) :: shownEntries rest

end

/-- A datum as it is shown by itself: text is shown as it is, dates and moments in their usual form,
and all else as inside a collection. A string that is no text is not shown by itself. -/
def display : Datum → Text
  | .text t => t
  | .date d => d.text
  | .moment m => m.text
  | d => shown d

mutual

/-- Whether a datum holds an integer of more digits than are ever written. -/
def hasOverlong : Datum → Bool
  | .int n => decide (Text.digitLimit < (Nat.toDigits 10 n.natAbs).length)
  | .list items => anyOverlong items
  | .tuple items => anyOverlong items
  | .set members => anyOverlong members
  | .map entries => anyOverlongEntry entries
  | _ => false

/-- Whether one of the items does. -/
def anyOverlong : List Datum → Bool
  | [] => false
  | x :: xs => hasOverlong x || anyOverlong xs

/-- Whether one of the entries does. -/
def anyOverlongEntry : List (Datum × Datum) → Bool
  | [] => false
  | (k, v) :: rest => hasOverlong k || hasOverlong v || anyOverlongEntry rest

end

end Datum

end DiffGate
