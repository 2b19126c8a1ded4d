import DiffGate.Filter

/-!
# The outcome of a check

A check passes when the linter itself says so and nothing is reported. A failed check stops the
commit if the configuration says that it should.
-/

set_option autoImplicit false

namespace DiffGate

/-- How a check ended. -/
structure Outcome where
  success : Bool
  /-- Whether the commit is to be stopped. -/
  blocking : Bool
  message : Text
  /-- How many findings are reported. -/
  findings : Nat
  /-- How many files were checked or, in a failed check, have findings. -/
  files : Nat
  deriving DecidableEq

namespace Outcome

/-- The exit status: one exactly when the commit is to be stopped. -/
def exitCode (o : Outcome) : Nat := if o.blocking then 1 else 0

def passed : Text := "Style check passed".toList

def failedBlocking : Text :=
  "Style check failed, fix the issues above before committing".toList

def failedNonBlocking : Text := "Style check failed (not blocking)".toList

def noRules : Text :=
  "No checkers are enabled in the changelint config, nothing to check".toList

def noFiles : Text := "No modified files to check, style check passed".toList

/-- A check that had nothing to do. -/
def nothingToDo (message : Text) : Outcome := ⟨true, false, message, 0, 0⟩

/-- The outcome of all files' results and the linter's own verdict. -/
def ofResults (linterSuccess blocking : Bool) (results : List FileResult) : Outcome :=
  let findings := results.foldr (fun r total => r.findings.length + total) 0
  let files := (results.filter fun r => !r.success).length
  if linterSuccess && findings == 0 then ⟨true, false, passed, 0, results.length⟩
  else if blocking then ⟨false, true, failedBlocking, findings, files⟩
  else ⟨false, false, failedNonBlocking, findings, files⟩

end Outcome

end DiffGate
