import DiffGate.Assoc
import DiffGate.Diff.Hunk
import DiffGate.Diff.Segment

/-!
# What a diff changes

The files of a diff, each with the set of new-file line numbers that the change adds to it. A path
that several segments name has the union of their lines, in the place where it came first; a file
that gains no line is left out.
-/

set_option autoImplicit false

namespace DiffGate

/-- Files with the lines that a change adds to them, in the order of the diff. -/
abbrev ModifiedFiles := List (Text × LineSet)

namespace Diff

/-- Adds one file's lines to what is known of it. -/
def record (files : ModifiedFiles) (path : Text) (added : LineSet) : ModifiedFiles :=
  if added.isEmpty then files
  else Assoc.put path (((Assoc.find? path files).getD .empty).union added) files

/-- Adds segments, one after another. -/
def recordAll (files : ModifiedFiles) : List Segment → Except Overlong ModifiedFiles
  | [] => .ok files
  | segment :: rest =>
    match addedLines segment.body with
    | .error e => .error e
    | .ok added => recordAll (record files segment.path added) rest

/-- The files that a diff adds lines to. -/
def modifiedFiles (diff : Text) : Except Overlong ModifiedFiles := recordAll [] (segments diff)

end Diff

/-- How many lines are added in all. -/
def ModifiedFiles.totalLines (files : ModifiedFiles) : Nat :=
  files.foldr (fun file total => file.2.size + total) 0

end DiffGate
