import DiffGate.LineSet
import DiffGate.Text.Digit

/-!
# Hunks: which lines a change adds

Inside a file's segment a line that starts with `@@` is a hunk header, and the lines below it are
the hunk's body. The header says where the hunk starts in the new file and how many old and new
lines follow; the body is counted against these numbers, so an added line whose own text looks like
a header of some kind is still an added line. When the count runs out, or a line fits nothing, the
rest of the body is skipped up to the next header. A header that cannot be read skips its own body
only.

Numbers of too many digits are the one thing that stops the reading altogether.
-/

set_option autoImplicit false

namespace DiffGate.Diff

/-- A number in a hunk header has more digits than are read. -/
inductive Overlong
  | overlong
  deriving DecidableEq

/-- The numbers of a hunk header: how many old lines, where the new side starts, how many new
lines. -/
structure Header where
  oldCount : Nat
  newStart : Nat
  newCount : Nat
  deriving DecidableEq

/-- The digits of a hunk header before they are read as numbers. -/
structure HeaderDigits where
  oldCount : Option Text
  newStart : Text
  newCount : Option Text
  deriving DecidableEq

/-- A non-empty run of digits and what follows it. -/
def digits? (t : Text) : Option (Text × Text) :=
  match t.span Text.isDecimal with
  | ([], _) => none
  | found => some found

/-- The digits after a comma, if a comma with digits comes next, and what follows. -/
def count (t : Text) : Option Text × Text :=
  match t with
  | ',' :: rest =>
    match digits? rest with
    | some (digits, rest) => (some digits, rest)
    | none => (none, t)
  | _ => (none, t)

/-- The digits of `@@ -START,COUNT +START,COUNT @@`, either count with its comma left out or not.
What follows the closing mark is not looked at. -/
def headerDigits? (line : Text) : Option HeaderDigits := do
  let rest ← Text.after? "@@ -".toList line
  let (_, rest) ← digits? rest
  let (oldCount, rest) := count rest
  let rest ← Text.after? " +".toList rest
  let (newStart, rest) ← digits? rest
  let (newCount, rest) := count rest
  let _ ← Text.after? " @@".toList rest
  return ⟨oldCount, newStart, newCount⟩

/-- The number of a run of digits. -/
def number (digits : Text) : Except Overlong Nat :=
  match Text.readDigits? digits with
  | some n => .ok n
  | none => .error .overlong

/-- The number of a count; a count left out is one. -/
def countNumber : Option Text → Except Overlong Nat
  | none => .ok 1
  | some digits => number digits

/-- The numbers of a header. The old start is never read. -/
def HeaderDigits.read (d : HeaderDigits) : Except Overlong Header := do
  let oldCount ← countNumber d.oldCount
  let newCount ← countNumber d.newCount
  let newStart ← number d.newStart
  return ⟨oldCount, newStart, newCount⟩

/-- Where reading stands inside a hunk's body: how many lines of each side are still to come, the
new file's number of the next line, and whether the line before moved the new side on. -/
structure Cursor where
  oldLeft : Nat
  newLeft : Nat
  next : Nat
  advanced : Bool
  deriving DecidableEq

/-- The start of a body. -/
def Header.cursor (h : Header) : Cursor := ⟨h.oldCount, h.newCount, h.newStart, false⟩

/-- What one body line does: the number it adds, if it adds a line, and the cursor after it. `none`
ends the body. A note that the file has no final line feed belongs to the line before it. -/
def Cursor.step (c : Cursor) (line : Text) : Option (Option Nat × Cursor) :=
  match line with
  | '+' :: _ =>
    if 0 < c.newLeft then
      some (some c.next, ⟨c.oldLeft, c.newLeft - 1, c.next + 1, true⟩)
    else none
  | ' ' :: _ =>
    if 0 < c.newLeft then some (none, ⟨c.oldLeft - 1, c.newLeft - 1, c.next + 1, true⟩) else none
  | '-' :: _ =>
    if 0 < c.oldLeft then some (none, ⟨c.oldLeft - 1, c.newLeft, c.next, false⟩) else none
  | '\\' :: _ => some (none, if c.advanced then { c with next := c.next + 1 } else c)
  | _ => none

/-- Whether a line is meant as a hunk header. -/
def isHeader (line : Text) : Bool := line.startsWith "@@".toList

/-- The numbers of added lines, in the order in which they are met, from the state `cursor` on;
`none` stands between bodies. -/
def scan (cursor : Option Cursor) : List Text → Except Overlong (List Nat)
  | [] => .ok []
  | line :: rest =>
    if isHeader line then
      match headerDigits? line with
      | none => scan none rest
      | some digits =>
        match digits.read with
        | .error e => .error e
        | .ok header => scan (some header.cursor) rest
    else
      match cursor.bind (·.step line) with
      | none => scan none rest
      | some (none, cursor) => scan (some cursor) rest
      | some (some n, cursor) =>
        match scan (some cursor) rest with
        | .error e => .error e
        | .ok ns => .ok (n :: ns)

/-- The new-file numbers of the lines that a segment adds. -/
def addedLines (body : List Text) : Except Overlong LineSet :=
  (scan none body).map fun ns => .ofList (ns.map Int.ofNat)

end DiffGate.Diff
