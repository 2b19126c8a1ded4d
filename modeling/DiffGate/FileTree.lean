import DiffGate.Path

/-!
# The file tree

What the gate knows of the file system is a tree of directories and files: at each place, given by
the components that lead there from the top, there is nothing, a directory, or a file with its bytes
and whether it may be executed. There are no links, so a path is followed by its components alone;
`..` goes back, but only from a place that exists.

Changing one place leaves every other as it was, so what an operation does not name it does not
touch.
-/

set_option autoImplicit false

namespace DiffGate

/-- What is at a place. -/
inductive Entry
  | directory
  | file (content : List UInt8) (executable : Bool)
  deriving DecidableEq

/-- What is at each place below the top. -/
abbrev FileTree := List Text → Option Entry

/-- Why a file is not read. -/
inductive ReadFailure
  | absent
  | isDirectory
  /-- The path holds a character that no path may hold. -/
  | badPath
  deriving DecidableEq

/-- Why a file is not written. -/
inductive WriteFailure
  /-- A file is where a directory is to be. -/
  | fileExists
  /-- A file is on the way. -/
  | notADirectory
  /-- A directory is where the file is to be. -/
  | isDirectory
  deriving DecidableEq

/-- Why a file is not written, in words. -/
def WriteFailure.text : WriteFailure → Text
  | .fileExists => "File exists".toList
  | .notADirectory => "Not a directory".toList
  | .isDirectory => "Is a directory".toList

namespace FileTree

/-- What is at a place; the top is a directory. -/
def at? (tree : FileTree) (place : List Text) : Option Entry :=
  if place = [] then some .directory else tree place

/-- Puts something at a place. -/
def set (tree : FileTree) (place : List Text) (e : Entry) : FileTree :=
  fun q => if q = place then some e else tree q

/-- The place that components lead to from a place, if there is something everywhere on the way and
a directory wherever the way goes on. -/
def follow (tree : FileTree) (place : List Text) : List Text → Option (List Text)
  | [] => some place
  | part :: parts =>
    if tree.at? place = some .directory then
      let next := if part = ['.', '.'] then place.dropLast else place ++ [part]
      if (tree.at? next).isSome then tree.follow next parts else none
    else none

/-- What an absolute path leads to; one that holds NUL leads nowhere. -/
def entry? (tree : FileTree) (p : Path) : Option Entry :=
  if p.hasNul then none else (tree.follow [] p.parts).bind tree.at?

/-- Whether an absolute path leads somewhere. -/
def exists? (tree : FileTree) (p : Path) : Bool := (tree.entry? p).isSome

/-- Whether an absolute path leads to a directory. -/
def isDirectory (tree : FileTree) (p : Path) : Bool := tree.entry? p = some .directory

/-- The bytes of the file that an absolute path leads to. -/
def read (tree : FileTree) (p : Path) : Except ReadFailure (List UInt8) :=
  if p.hasNul then .error .badPath
  else
    match tree.entry? p with
    | none => .error .absent
    | some .directory => .error .isDirectory
    | some (.file content _) => .ok content

/-- Makes the directories that components lead through from a place, where they are missing, and
gives the last of them. -/
def makeDirectories (tree : FileTree) (place : List Text) :
    List Text → Except WriteFailure (FileTree × List Text)
  | [] => .ok (tree, place)
  | part :: parts =>
    if part = ['.', '.'] then tree.makeDirectories place.dropLast parts
    else
      let next := place ++ [part]
      match tree.at? next with
      | none => makeDirectories (tree.set next .directory) next parts
      | some .directory => tree.makeDirectories next parts
      | some (.file _ _) => .error (if parts = [] then .fileExists else .notADirectory)

/-- Writes a file at an absolute path, with the directories above it. A file that was there keeps
its right to be executed; `executable` gives that right. -/
def write (tree : FileTree) (p : Path) (content : List UInt8) (executable : Bool) :
    Except WriteFailure FileTree := do
  let (tree, place) ← tree.makeDirectories [] p.parent.parts
  let place := place ++ [p.name]
  match tree.at? place with
  | some .directory => throw .isDirectory
  | some (.file _ was) => return tree.set place (.file content (was || executable))
  | none => return tree.set place (.file content executable)

end FileTree

end DiffGate
