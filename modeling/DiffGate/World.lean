import DiffGate.FileTree
import DiffGate.Program

/-!
# The world that a command acts on

A command reads and writes files, runs programs, and prints on two channels. The world holds what it
finds there and what it leaves behind; an action is a step that may change the world and may stop.
What was printed, run and written before a stop stays.
-/

set_option autoImplicit false

namespace DiffGate

/-- What a command finds and leaves behind. -/
structure World where
  tree : FileTree
  /-- The working directory. -/
  directory : Path
  /-- What programs answer. -/
  programs : Programs
  /-- What was printed. -/
  output : Text
  /-- What the user was told on the side. -/
  notices : Text
  /-- The programs that were run. -/
  calls : List Command

/-- A step that may change the world and may stop. -/
abbrev Action := ExceptT Stop (StateM World)

namespace World

/-- A path from the working directory on. -/
def locate (w : World) (p : Path) : Path := w.directory.join p

/-- A program's answer; in a directory that does not exist no program is found. -/
def answer (w : World) : Programs := fun command =>
  if w.tree.isDirectory (w.locate command.directory) then w.programs command else .missing

end World

namespace Action

/-- Prints. -/
def print (t : Text) : Action Unit := modify fun w => { w with output := w.output ++ t }

/-- Tells the user something on the side. -/
def tell (t : Text) : Action Unit := modify fun w => { w with notices := w.notices ++ t }

/-- Fails with an explanation. -/
def fail {α : Type} (f : Failure) : Action α := throw (.failure f)

/-- Stops without one. -/
def fault {α : Type} (f : Fault) : Action α := throw (.fault f)

/-- Goes on with a result, or stops. -/
def ofExcept {α : Type} : Except Stop α → Action α
  | .ok a => pure a
  | .error s => throw s

/-- Runs a program that has to succeed, and gives its output. -/
def run (command : Command) : Action Text := do
  let w ← get
  set { w with calls := w.calls ++ [command] }
  ofExcept ((w.answer command).outputText command)

end Action

end DiffGate
