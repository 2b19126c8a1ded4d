import DiffGate.Check
import DiffGate.Options
import DiffGate.Ruff
import DiffGate.Setup

/-!
# The command line

One call of the program: it reads its arguments, then checks the pending change or sets the project
up. Everything that a call leaves behind is in the world it ends with; beside that it has an exit
status, or a fault that nobody explains.
-/

set_option autoImplicit false

namespace DiffGate.CommandLine

/-- The paths to check, without detours; without any, the working directory. A check names them to
the version control as they are found from the top. -/
def targets (w : World) (paths : List Text) : Except Fault (List Text) :=
  (if paths.isEmpty then [['.']] else paths).mapM fun path =>
    (Ruff.resolved w.directory (.ofText path)).map Path.toText

/-- What the options say about the display. -/
def display (o : Options) : Display := ⟨!o.noSort, !o.noRuleNames⟩

/-- Leaves what a check shows in the world and goes on with its outcome. -/
def record (run : Check.Run) : Action Outcome := do
  modify fun w =>
    { w with
      calls := w.calls ++ run.calls
      notices := w.notices ++ run.notices
      output := w.output ++ run.printed }
  Action.ofExcept run.outcome

/-- Checks the pending change; the exit status. -/
def check (o : Options) : Action Nat := do
  Action.tell "Checking code style of modified lines...\n".toList
  let root ← Repository.root
  let loaded ← Action.ofExcept (ConfigFile.load (← get) root o.config)
  if loaded.isDefault then
    Action.tell "No .changelint.yml found, using default rules\n".toList
  let w ← get
  let paths ← Setup.orStop (targets w o.paths)
  let linter := Ruff.linter root w.directory
  let outcome ← record (Check.run loaded.config linter root (display o) w.answer paths o.cached)
  Action.tell ('\n' :: (outcome.message ++ ['\n']))
  return outcome.exitCode

/-- A command; a failure is told, and its exit status is one. -/
def command (o : Options) : Action Nat :=
  tryCatch (if o.init then Setup.run o.force else check o) fun
    | .failure f => do
      Action.tell ("Error: ".toList ++ f.message ++ ['\n'])
      return 1
    | .fault f => Action.fault f

/-- What a command line asks for; the exit status. -/
def invoke (arguments : List Text) : Action Nat :=
  match Options.parse arguments with
  | .error e => do
    Action.tell (Options.complaint e)
    return 2
  | .ok .help => do
    Action.print Options.help
    return 0
  | .ok .version => do
    Action.print Options.versionLine
    return 0
  | .ok (.command o) => command o

/-- One call of the program: its exit status, or why it has none, and what it leaves behind. -/
def run (arguments : List Text) (w : World) : Except Stop Nat × World := invoke arguments w

end DiffGate.CommandLine
