import DiffGate.Datum

/-!
# Findings and checker rules

A finding is one thing a linter says about a file. Position, message and file are passed on as the
linter wrote them and may be any data; whoever needs a number or a text finds out then. Most
findings have an integer line and column or none, and a text as message, so that a report can always
show them: `Finding.IsPlain`.
-/

set_option autoImplicit false

namespace DiffGate

/-- How grave a finding is. -/
inductive Severity
  | warn
  | error
  deriving DecidableEq

namespace Severity

/-- The name of a severity. -/
def name : Severity → Text
  | .warn => "WARN".toList
  | .error => "ERROR".toList

end Severity

/-- One thing that a linter says about a file. -/
structure Finding where
  file : Datum
  message : Datum
  checker : Text
  rule : Text
  line : Datum
  column : Datum
  severity : Severity
  /-- An older mark of the finding's kind, beside its severity. -/
  legacyType : Option Text

namespace Finding

/-- A warning is one by its severity or by its older mark. -/
def isWarning (f : Finding) : Bool :=
  f.severity == .warn || f.legacyType == some (Severity.name .warn)

end Finding

namespace Datum

/-- An integer, or nothing. -/
def IsCoordinate (d : Datum) : Prop := d = .null ∨ ∃ n, d = .int n

end Datum

/-- Integer line and column or none, and a text as message. -/
structure Finding.IsPlain (f : Finding) : Prop where
  line : f.line.IsCoordinate
  column : f.column.IsCoordinate
  message : ∃ t, f.message = .text t

/-- A checker's switches. -/
structure CheckRule where
  /-- Whether the checker's findings count at all. -/
  enabled : Bool
  /-- Whether its warnings are left out. -/
  warnIgnored : Bool
  deriving DecidableEq

/-- Checkers with their switches, by name. A name is usually a text, but a configuration may use any
scalar. -/
abbrev RuleTable := List (Datum × CheckRule)

namespace RuleTable

/-- The switches of a checker. -/
def find? (checker : Text) : RuleTable → Option CheckRule
  | [] => none
  | (name, rule) :: rest =>
    if Datum.equal name (.text checker) then some rule else find? checker rest

/-- Sets a checker's switches; one that is there keeps its place and its name's spelling. -/
def put (name : Datum) (rule : CheckRule) : RuleTable → RuleTable
  | [] => [(name, rule)]
  | (name', rule') :: rest =>
    if Datum.equal name' name then (name', rule) :: rest else (name', rule') :: put name rule rest

/-- Whether at least one checker is switched on. -/
def hasEnabled (rules : RuleTable) : Bool := rules.any (·.2.enabled)

end RuleTable

end DiffGate
