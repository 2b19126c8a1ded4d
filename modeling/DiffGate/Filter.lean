import DiffGate.Fault
import DiffGate.Finding
import DiffGate.LineSet
import DiffGate.Message
import DiffGate.Sorting

/-!
# The filter: which findings are reported, and how

A finding is reported when its checker is switched on, when it sits on a line that the change adds
or on no line at all, and when it is not a warning of a checker whose warnings are left out. What is
reported about one file is put in order of position, unless that is switched off, and shown as one
line each below the file's name.

The report is written in UTF-8, so nothing of a file is reported if a finding would show a lone
surrogate.
-/

set_option autoImplicit false

namespace DiffGate

/-- A finding with what is shown of it. -/
structure Reported where
  finding : Finding
  message : Text
  rule : Text
  /-- The line that is shown. -/
  info : Text

/-- What is reported about one file. -/
structure FileResult where
  file : Text
  findings : List Reported
  displayText : Text

/-- How findings are ordered and shown. -/
structure Display where
  sortByPosition : Bool
  showRuleName : Bool
  deriving DecidableEq

namespace FileResult

/-- Nothing was found. -/
def success (r : FileResult) : Bool := r.findings.isEmpty

/-- What the report gains: a blank line and the file's findings, or nothing. -/
def printed (r : FileResult) : Text :=
  if r.success then [] else '\n' :: (r.displayText ++ ['\n'])

end FileResult

namespace Filter

/-- Whether a set of lines holds a line. -/
def holds (lines : LineSet) (line : Datum) : Except Fault Bool :=
  if line.isKey then
    match line.number? with
    | some (.inl n) => .ok (decide (n ∈ lines))
    | some (.inr x) => .ok (x.toInt?.any fun n => decide (n ∈ lines))
    | none => .ok false
  else .error .lineNotKey

/-- Whether a finding sits on one of the lines; one without a line always does. -/
def isOnLines (lines : Option LineSet) (line : Datum) : Except Fault Bool :=
  match line, lines with
  | .null, _ => .ok true
  | _, none => .ok false
  | line, some lines => holds lines line

/-- Whether a finding is reported. -/
def isReportable (rules : RuleTable) (lines : Option LineSet) (f : Finding) : Except Fault Bool :=
  match rules.find? f.checker with
  | none => .ok false
  | some rule =>
    if rule.enabled then
      (isOnLines lines f.line).map fun onLines => onLines && !(f.isWarning && rule.warnIgnored)
    else .ok false

/-- The findings that are reported, in their given order. -/
def survivors (rules : RuleTable) (lines : Option LineSet) :
    List Finding → Except Fault (List Finding)
  | [] => .ok []
  | f :: fs =>
    match isReportable rules lines f with
    | .error e => .error e
    | .ok keep => (survivors rules lines fs).map fun kept => if keep then f :: kept else kept

/-- A coordinate's share of the sorting key: nothing comes before any number. -/
def coordinateKey (d : Datum) : List Datum :=
  match d with
  | .null => [.int 0, .int 0]
  | d => [.int 1, if d.isTruthy then d else .int 0]

/-- The sorting key of a finding: its line, then its column. -/
def positionKey (f : Finding) : List Datum := coordinateKey f.line ++ coordinateKey f.column

/-- Whether one finding comes before another. -/
def precedes? (f g : Finding) : Option Bool := Datum.lessLists? (positionKey f) (positionKey g)

/-- Findings in order of position. -/
def sorted (fs : List Finding) : Except Fault (List Finding) :=
  match Sorting.sort? precedes? fs with
  | some fs => .ok fs
  | none => .error .incomparable

/-- Where a finding is, as it is shown; a column without a line is not. Positions come from
`Json.read`, which refuses integers of more than `Text.digitLimit` digits, so none is too long to be
written. -/
def place (f : Finding) : Text :=
  match f.line with
  | .null => []
  | line =>
    let column :=
      match f.column with
      | .null => []
      | column => ", col ".toList ++ column.display
    "line ".toList ++ line.display ++ column ++ ": ".toList

/-- The rule that a finding breaks; without one it is taken for a syntax error. -/
def shownRule (f : Finding) : Text := if f.rule = [] then "syntax".toList else f.rule

/-- Whether the place of a finding shows a lone surrogate. -/
def hasRaggedPlace (f : Finding) : Bool :=
  match f.line with
  | .null => false
  | line => line.isRagged || f.column.isRagged

/-- A finding as it is shown with its message. -/
def withMessage (showRuleName : Bool) (f : Finding) (message : Text) : Reported :=
  let message := Message.clean message
  let rule := shownRule f
  let ending := if showRuleName then "\t(".toList ++ rule ++ [')'] else []
  ⟨f, message, rule, "→ ".toList ++ place f ++ message ++ ending⟩

/-- A finding as it is shown. -/
def describe (showRuleName : Bool) (f : Finding) : Except Fault Reported :=
  match f.message with
  | .text message =>
    if hasRaggedPlace f then .error .unencodable else .ok (withMessage showRuleName f message)
  | .ragged _ => .error .unencodable
  | _ => .error .messageNotText

/-- Findings as they are shown. They are all put into words before any is written, so whatever else
is wrong with one of them comes before a lone surrogate. -/
def describeAll (showRuleName : Bool) : List Finding → Except Fault (List Reported)
  | [] => .ok []
  | f :: fs =>
    match describe showRuleName f, describeAll showRuleName fs with
    | .ok reported, rest => rest.map (reported :: ·)
    | .error .unencodable, .error e => .error e
    | .error e, _ => .error e

/-- The lines of a file's report. -/
def displayText (file : Text) (reported : List Reported) : Text :=
  if reported.isEmpty then []
  else Text.join ['\n'] (("File: ".toList ++ file) :: reported.map Reported.info)

/-- What is reported of a file's findings. -/
def fileResult (file : Text) (rules : RuleTable) (lines : Option LineSet) (display : Display)
    (findings : List Finding) : Except Fault FileResult := do
  let kept ← survivors rules lines findings
  let kept ← if display.sortByPosition then sorted kept else .ok kept
  let reported ← describeAll display.showRuleName kept
  return ⟨file, reported, displayText file reported⟩

end Filter

end DiffGate
