import DiffGate.Fault
import DiffGate.Json.Error
import DiffGate.Path
import DiffGate.Text.Blank
import DiffGate.Text.Quoted
import DiffGate.Yaml.Error

/-!
# Failures: what the user is told

What the gate expects to go wrong, by its cause, and the one message that each cause has. Two
messages end in what another notation's reader said about a text; their `summary` stops before that.
-/

set_option autoImplicit false

namespace DiffGate

/-- Why a run fails with an explanation. -/
inductive Failure
  /-- A configuration file is no YAML document. -/
  | badYaml (path : Path) (e : Yaml.Error)
  /-- A configuration file holds something else than a mapping. -/
  | notMapping (path : Path)
  /-- The checkers' settings in a configuration are no mapping. -/
  | checkersNotMapping
  /-- A program could not be run, or ended with a status other than zero; what it wrote as errors.
  -/
  | program (arguments : List Text) (status : Option Int) (errors : Text)
  /-- The linter's answer is no JSON document. -/
  | badAnswer (arguments : List Text) (answer : Text) (e : Json.Malformed)
  /-- No directory from `start` upward belongs to a repository. -/
  | noRepository (start : Text)
  /-- A linter did not complete exactly once. -/
  | completions (linter : Text) (count : Nat)
  /-- A file could not be written. -/
  | cannotWrite (path reason : Text)
  deriving DecidableEq

namespace Failure

/-- A program's name and first argument. -/
def commandText (arguments : List Text) : Text := Text.join [' '] (arguments.take 2)

/-- What is said about a program: what it wrote as errors, or else how it ended. -/
def programDetail (status : Option Int) (errors : Text) : Text :=
  let stripped := Text.strip errors
  if stripped ≠ [] then stripped
  else
    match status with
    | none => "command not found".toList
    | some n => "exit status ".toList ++ Text.ofInt n

/-- The message, without what another notation's reader said. -/
def summary : Failure → Text
  | .badYaml path _ => path.toText ++ ": invalid YAML".toList
  | .notMapping path => path.toText ++ ": expected a mapping at the top level".toList
  | .checkersNotMapping => "'checkRules' must be a mapping of checker name to settings".toList
  | .program arguments status errors =>
    commandText arguments ++ " failed: ".toList ++ programDetail status errors
  | .badAnswer arguments _ _ =>
    commandText arguments ++ " failed: unreadable ruff output".toList
  | .noRepository start =>
    "no .git found in ".toList ++ start ++ " or any parent directory".toList
  | .completions linter count =>
    "linter ".toList ++ Text.quoted linter ++ " completed ".toList ++ Text.ofNat count ++
      " times, expected once".toList
  | .cannotWrite path reason => "cannot write ".toList ++ path ++ ": ".toList ++ reason

/-- The whole message. -/
def message (f : Failure) : Text :=
  match f with
  | .badYaml path e => f.summary ++ ": ".toList ++ e.message path.toText
  | .badAnswer _ answer e => f.summary ++ ": ".toList ++ e.message answer
  | f => f.summary

end Failure

/-- Why a run stops: with an explanation or without one. -/
inductive Stop
  | failure (f : Failure)
  | fault (f : Fault)
  deriving DecidableEq

end DiffGate
