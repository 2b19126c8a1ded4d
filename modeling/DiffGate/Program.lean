import DiffGate.Failure
import DiffGate.Text.Utf8

/-!
# Programs that are run

The gate runs other programs: the version control for the change, the linter for its findings. What
it sees of a program is its answer: two streams of bytes and a status, or that there is no such
program. Both streams must be UTF-8, whatever the status, and line breaks of every kind are read as
line feeds.
-/

set_option autoImplicit false

namespace DiffGate

/-- A program to run: its name and arguments, and the directory to run it in. -/
structure Command where
  arguments : List Text
  directory : Path
  deriving DecidableEq

/-- What running a program comes to. -/
inductive Answer
  | missing
  | exited (output errors : List UInt8) (status : Int)
  deriving DecidableEq

/-- What each program answers. -/
abbrev Programs := Command → Answer

/-- A program's output as text. -/
structure Output where
  output : Text
  errors : Text
  status : Int
  deriving DecidableEq

namespace Answer

/-- A stream as text. -/
def text (bytes : List UInt8) : Except Stop Text :=
  match Text.Utf8.decode? bytes with
  | some t => .ok (Text.unifyBreaks t)
  | none => .error (.fault .notUtf8)

/-- An answer as text, if there is a program to answer. -/
def read (command : Command) : Answer → Except Stop Output
  | .missing => .error (.failure (.program command.arguments none []))
  | .exited output errors status => do
    let output ← text output
    let errors ← text errors
    return ⟨output, errors, status⟩

/-- The output of a program that succeeded. -/
def outputText (command : Command) (a : Answer) : Except Stop Text := do
  let out ← a.read command
  if out.status = 0 then return out.output
  else throw (.failure (.program command.arguments (some out.status) out.errors))

end Answer

end DiffGate
