import DiffGate.Filter
import DiffGate.Program

/-!
# Linters

A linter is asked to look at files. What it then does is a sequence of steps: it reports the
findings of one file and is told what became of them, it runs a program and is told the answer, it
completes with its own verdict. It ought to report each file once and to complete once, at the end;
nothing but its own steps holds it to that, so the steps are data, and whoever plays them can count.
-/

set_option autoImplicit false

namespace DiffGate

/-- What a linter is asked to do. -/
structure Request where
  files : List Path
  /-- The extensions, without a dot, of the files to look at. -/
  fileTypes : List Text
  /-- Whether findings are to be put in order of position. -/
  sort : Bool
  deriving DecidableEq

namespace Request

/-- Whether a file's extension is among the requested ones. -/
def selects (r : Request) (file : Path) : Bool :=
  r.fileTypes.contains (file.suffix.dropWhile (· == '.'))

/-- The files to look at. -/
def selectedFiles (r : Request) : List Path := r.files.filter r.selects

end Request

/-- The steps of a linter's work. -/
inductive Work
  /-- Reports a file's findings and goes on with what became of them. -/
  | report (file : Path) (findings : List Finding) (next : FileResult → Work)
  /-- Runs a program and goes on with its answer. -/
  | run (command : Command) (next : Answer → Work)
  /-- Completes with a verdict and the files' results, and goes on. -/
  | complete (success : Bool) (results : List FileResult) (next : Work)
  /-- Ends. -/
  | finished
  /-- Stops for a reason. -/
  | stopped (reason : Stop)

/-- A linter: its name, and how it works on a request. -/
structure Linter where
  name : Text
  check : Request → Work

/-- What happened while a linter worked. -/
structure Transcript where
  /-- The programs that were run. -/
  calls : List Command
  /-- The findings that were reported, file by file. -/
  reports : List (Path × List Finding)
  /-- What the report shows. -/
  printed : Text
  /-- The verdicts with which the linter completed. -/
  completions : List (Bool × List FileResult)
  /-- Why the work stopped before its end. -/
  reason : Option Stop

/-- A linter's reports go to someone who makes a result of them. -/
abbrev Reporter := Path → List Finding → Except Fault FileResult

namespace Work

/-- Plays a linter's steps. -/
def play (reporter : Reporter) (programs : Programs) : Work → Transcript
  | .finished => ⟨[], [], [], [], none⟩
  | .stopped reason => ⟨[], [], [], [], some reason⟩
  | .report file findings next =>
    match reporter file findings with
    | .error f => ⟨[], [(file, findings)], [], [], some (.fault f)⟩
    | .ok result =>
      let rest := (next result).play reporter programs
      { rest with
        reports := (file, findings) :: rest.reports
        printed := result.printed ++ rest.printed }
  | .run command next =>
    let rest := (next (programs command)).play reporter programs
    { rest with calls := command :: rest.calls }
  | .complete success results next =>
    let rest := next.play reporter programs
    { rest with completions := (success, results) :: rest.completions }

end Work

end DiffGate
