import DiffGate.Text.Blank

/-!
# File segments of a diff

A unified diff is a sequence of lines. A file marker opens a segment, and the lines up to the next
marker belong to it. A marker that names two different paths, or that cannot be read, opens a
segment that is dropped: its lines belong to no file. So do the lines before the first marker.
-/

set_option autoImplicit false

namespace DiffGate.Diff

/-- One file's part of a diff: the path in its marker and the lines below it. -/
structure Segment where
  path : Text
  body : List Text
  deriving DecidableEq

/-- What every file marker starts with. -/
def markerLead : Text := "diff --git ".toList

/-- What stands before the first path of a marker. -/
def oldLead : Text := "diff --git a/".toList

/-- What stands before the second path of a marker. -/
def newLead : Text := " b/".toList

/-- Whether a line is meant as a file marker. -/
def isMarker (line : Text) : Bool := line.startsWith markerLead

/-- The path that a marker names on both sides. A path ends at the first blank; what follows the
second path is not looked at. -/
def markerPath? (line : Text) : Option Text := do
  let rest ← Text.after? oldLead line
  let (old, rest) := Text.word rest
  let rest ← Text.after? newLead rest
  let (new, _) := Text.word rest
  if old ≠ [] ∧ old = new then some old else none

/-- The lines before the first marker, and the segments after it. Reading goes from the last line to
the first, so a line is always put in front of what follows it. -/
def divide : List Text → List Text × List Segment
  | [] => ([], [])
  | line :: rest =>
    let (body, segments) := divide rest
    if isMarker line then
      match markerPath? line with
      | some path => ([], ⟨path, body⟩ :: segments)
      | none => ([], segments)
    else (line :: body, segments)

/-- The segments of a diff's lines. -/
def segmentsOf (lines : List Text) : List Segment := (divide lines).2

/-- The segments of a diff, in order; a path may come more than once. -/
def segments (diff : Text) : List Segment := segmentsOf (Text.lines diff)

end DiffGate.Diff
