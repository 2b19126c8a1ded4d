import DiffGate.World

/-!
# The repository

A project's root is the nearest directory, from the working directory upward, that holds the version
control's entry. Where that entry is a directory, the hooks are inside it; otherwise, as in a second
working tree, the version control is asked where they are.
-/

set_option autoImplicit false

namespace DiffGate.Repository

/-- The version control's entry in a directory. -/
def marker : Text := ".git".toList

/-- The nearest directory upward from `start` that holds the version control's entry. -/
def root? (tree : FileTree) (start : Path) : Option Path :=
  ((Path.upward start.parts).map fun parts => (⟨.top, parts⟩ : Path)).find? fun directory =>
    tree.exists? (directory.child marker)

/-- The root of the project that a path is in. -/
def rootFrom (start : Path) : Action Path := do
  let w ← get
  let start := w.directory.resolve start
  match root? w.tree start with
  | some root => return root
  | none => Action.fail (.noRepository start.toText)

/-- The root of the project that the working directory is in. -/
def root : Action Path := rootFrom ⟨.here, []⟩

/-- The command that asks where the hooks are. -/
def hooksCommand (root : Path) : Command where
  arguments := ["git", "rev-parse", "--git-path", "hooks"].map String.toList
  directory := root

/-- The directory of the hooks. -/
def hooksDirectory (root : Path) : Action Path := do
  let w ← get
  let entry := root.child marker
  if w.tree.isDirectory (w.locate entry) then return entry.child "hooks".toList
  else
    let answer ← Action.run (hooksCommand root)
    return root.child (Text.strip answer)

end DiffGate.Repository
