import DiffGate.CommandLine

/-!
# The program

The outer layer: it takes a snapshot of the places in the file system that a call may look at, lets
the call run on it, writes the files that the call left changed, and prints.

It starts no other program. What the version control and the linter answer is left in files before
the call, and an environment variable for each program, `DIFFGATE_GIT` and `DIFFGATE_RUFF`,
names its file; a program without one counts as missing.
-/

set_option autoImplicit false

namespace DiffGate.Main

/-- A place in the file system with what is there. -/
abbrev Snapshot := List (List Text × Entry)

/-- The tree that a snapshot shows. -/
def treeOf (s : Snapshot) : FileTree := fun place => Assoc.find? place s

/-- The spelling of a place. -/
def spelling (place : List Text) : String := String.ofList (Path.toText ⟨.top, place⟩)

/-- The bytes of a file, if it can be read. -/
def bytes? (file : String) : IO (Option (List UInt8)) := do
  try
    return some (← IO.FS.readBinFile file).toList
  catch _ => return none

/-- Whether a directory is there. -/
def isDirectory (place : String) : IO Bool := do
  try
    discard (← IO.FS.realPath place).readDir
    return true
  catch _ => return false

/-- What is at a place. -/
def entryAt (place : List Text) : IO (Option Entry) := do
  if ← isDirectory (spelling place) then return some .directory
  else return (← bytes? (spelling place)).map fun content => .file content false

/-- What is at places. -/
def snapshot : List (List Text) → IO Snapshot
  | [] => return []
  | place :: rest => do
    let entry ← entryAt place
    let others ← snapshot rest
    match entry with
    | some entry => return (place, entry) :: others
    | none => return others

/-- What a program answers, by the file that its environment variable names. -/
def answer (setting : String) : IO Answer := do
  match ← IO.getEnv setting with
  | none => return .missing
  | some file =>
    match ← bytes? file with
    | none => return .missing
    | some content => return .exited content [] 0

/-- The first line of a program's output, as a path. -/
def pathIn : Answer → List Path
  | .missing => []
  | .exited output _ _ => ((Text.Utf8.decode? output).map fun t => .ofText (Text.strip t)).toList

/-- The configuration files that a command line names. -/
def named (arguments : List Text) : List Path :=
  match Options.parse arguments with
  | .ok (.command o) => o.config.toList.map .ofText
  | _ => []

/-- The places that a call may look at: all that could be the project's root, with what belongs to
it, and the files that are named. -/
def places (directory : Path) (arguments : List Text) (hooks : List Path) : List (List Text) :=
  let roots := (Path.upward directory.parts).map fun parts => (⟨.top, parts⟩ : Path)
  let hook (p : Path) := p.child "pre-commit".toList
  let below := roots.flatMap fun root =>
    let entry := root.child Repository.marker
    [root.child ConfigFile.name, entry, hook (entry.child "hooks".toList)] ++
      hooks.map fun p => hook (root.join p)
  let files := below ++ (named arguments).map directory.join
  (files.flatMap fun p => Path.upward (Path.resolve directory p).parts).eraseDups

/-- Writes a file with the directories above it. -/
def writeFile (place : List Text) (content : List UInt8) (executable : Bool) : IO Unit := do
  IO.FS.createDirAll (spelling place.dropLast)
  IO.FS.writeBinFile (spelling place) (ByteArray.mk content.toArray)
  if executable then
    let all : IO.AccessRight := ⟨true, true, true⟩
    let others : IO.AccessRight := ⟨true, false, true⟩
    IO.setAccessRights (spelling place) ⟨all, others, others⟩

/-- Writes the files that a call left changed. -/
def writeChanges (before after : FileTree) (places : List (List Text)) : IO Unit :=
  for place in places do
    if after place ≠ before place then
      match after place with
      | some (.file content executable) => writeFile place content executable
      | _ => pure ()

/-- One call of the program: its exit status. -/
def run (arguments : List Text) : IO UInt32 := do
  let directory := Path.ofText (← IO.currentDir).toString.toList
  let git ← answer "DIFFGATE_GIT"
  let ruff ← answer "DIFFGATE_RUFF"
  let places := places directory arguments (pathIn git)
  let tree := treeOf (← snapshot places)
  let programs : Programs := fun command =>
    if command.arguments.head? = some "git".toList then git else ruff
  let (exit, world) := CommandLine.run arguments ⟨tree, directory, programs, [], [], []⟩
  writeChanges tree world.tree places
  IO.print (String.ofList world.output)
  IO.eprint (String.ofList world.notices)
  return exit.toOption.elim 1 Nat.toUInt32

end DiffGate.Main

/-- The program. -/
def main (arguments : List String) : IO UInt32 := DiffGate.Main.run (arguments.map String.toList)
