import DiffGate.Json.Reader
import DiffGate.Linter

/-!
# The ruff linter

One run of `ruff check` over all requested files answers with a list of records, one for each
finding. A record's rule code tells which checker the finding belongs to: the code's letters do, but
for `C90…`. A code that is not letters and then digits is taken for none, as is a missing one: that
is how syntax errors come.

A record belongs to the requested file that its file name leads to; any other record is dropped,
but not one whose file name cannot be one: that is a fault, whoever the record is about. The rule
`E902` speaks of a whole file that could not be read and makes the linter's own verdict a failure.
-/

set_option autoImplicit false

namespace DiffGate.Ruff

/-! ## Rule codes -/

/-- Capital ASCII letters. -/
def isCapital (c : Char) : Bool := 'A' ≤ c && c ≤ 'Z'

/-- The letters of a rule code, which are followed by digits alone and perhaps a final line feed. -/
def letters? (code : Text) : Option Text :=
  let (letters, rest) := code.span isCapital
  let rest := rest.dropWhile Text.isDecimal
  if letters ≠ [] ∧ (rest = [] ∨ rest = ['\n']) then some letters else none

/-- The checker of codes that belong to no other. -/
def defaultChecker : Text := "ruff".toList

/-- The checker that a rule code belongs to. -/
def checkerFor (code : Text) : Text :=
  match letters? code with
  | none => defaultChecker
  | some letters =>
    if letters = ['C'] ∧ code.startsWith "C90".toList then "mccabe".toList
    else if letters = ['E'] ∨ letters = ['W'] then "pycodestyle".toList
    else if letters = ['F'] then "pyflakes".toList
    else if letters = ['I'] then "isort".toList
    else defaultChecker

/-- The checker that a code in a record belongs to; what counts as false is no code. -/
def checkerForDatum (code : Datum) : Except Fault Text :=
  match code with
  | .text t => .ok (checkerFor t)
  | .ragged _ => .ok defaultChecker
  | d => if d.isTruthy then .error .codeNotText else .ok defaultChecker

/-- The rule that speaks of a whole file. -/
def fileLevelRule : Text := "E902".toList

/-! ## Records -/

/-- The code of a record, if it has one. -/
def codeOf (record : List (Datum × Datum)) : Except Fault (Option Text) :=
  match Datum.field? record "code" with
  | none => .ok none
  | some .null => .ok none
  | some (.text t) => .ok (if (letters? t).isSome then some t else none)
  | some (.ragged _) => .ok none
  | some _ => .error .codeNotText

/-- The location of a record; what counts as false is an empty one. -/
def locationOf (record : List (Datum × Datum)) : Except Fault (List (Datum × Datum)) :=
  match Datum.field? record "location" with
  | none => .ok []
  | some (.map entries) => .ok entries
  | some d => if d.isTruthy then .error .locationNotMapping else .ok []

/-- The finding that a record's fields write. -/
def findingOf (record : List (Datum × Datum)) : Except Fault Finding := do
  let code ← codeOf record
  let location ← locationOf record
  let wholeFile := code == some fileLevelRule
  let place (key : String) : Datum :=
    if wholeFile then .null else (Datum.field? location key).getD .null
  return {
    file := (Datum.field? record "filename").getD (.text [])
    message := (Datum.field? record "message").getD (.text [])
    checker := (code.map checkerFor).getD defaultChecker
    rule := code.getD "syntax".toList
    line := place "row"
    column := place "column"
    severity := if code.any (·.startsWith ['W']) then .warn else .error
    legacyType := none }

/-- The finding that a record writes. -/
def toFinding (record : Datum) : Except Fault Finding :=
  match record with
  | .map entries => findingOf entries
  | _ => .error .recordNotMapping

/-! ## The answer -/

/-- The command that checks files. -/
def command (root : Path) (files : List Path) : Command where
  arguments :=
    ["ruff", "check", "--output-format=json", "--exit-zero", "--no-fix"].map String.toList ++
      files.map Path.toText
  directory := root

/-- The records of an answer; an answer without output has none. -/
def records (command : Command) (answer : Answer) : Except Stop (List Datum) := do
  let output ← answer.outputText command
  match Json.read (if output = [] then "[]".toList else output) with
  | .error (.malformed e) => throw (.failure (.badAnswer command.arguments output e))
  | .error .overlongNumber => throw (.fault .overlongNumber)
  | .ok (.list records) => return records
  | .ok _ =>
    throw (.failure (.program command.arguments (some 0) "unexpected ruff output".toList))

/-! ## File names -/

/-- The path without detours, from the directory where the gate works. Text can always be written, so
a NUL alone is in the way. `Path.resolve` goes by the spelling: links are outside the model, here as
in `FileTree`. -/
def resolved (directory p : Path) : Except Fault Path :=
  if p.hasNul then .error .nulInPath else .ok (directory.resolve p)

/-- What keeps code points from being a file name. They are looked at component by component, and in
one component a surrogate that stands for no byte comes before a NUL. -/
def nameFault? : List CodePoint → Option Fault
  | [] => none
  | point :: rest =>
    if point.isUnencodable then some .unencodable
    else if point = .char '\x00' then
      let component := rest.takeWhile fun point => point != .char '/'
      some (if component.any CodePoint.isUnencodable then .unencodable else .nulInPath)
    else nameFault? rest

/-- A code point of a file name as a character. A byte that is no text stands as NUL, which no other
name holds: such a name leads to none of the requested files. -/
def standIn (point : CodePoint) : Char := point.char?.getD '\x00'

/-- The path that a string leads to. -/
def pathOf (directory : Path) : Datum → Except Fault Path
  | .text t => resolved directory (.ofText t)
  | .ragged r =>
    match nameFault? r.points with
    | some f => .error f
    | none => .ok (directory.resolve (.ofText (r.points.map standIn)))
  | _ => .error .fileNotText

/-- The path that a finding's file leads to. -/
def fileOf (directory : Path) (f : Finding) : Except Fault Path := pathOf directory f.file

/-! ## Attribution -/

/-- The findings of records, each with the path that its file leads to. -/
def attributed (directory : Path) : List Datum → Except Fault (List (Path × Finding))
  | [] => .ok []
  | record :: rest => do
    let f ← toFinding record
    let file ← fileOf directory f
    let found ← attributed directory rest
    return (file, f) :: found

/-! ## The linter -/

/-- A coordinate for the linter's own order: what counts as false counts as zero. -/
def coordinate (d : Datum) : Datum := if d.isTruthy then d else .int 0

/-- The linter's own order: by line, then by column, nothing counting as zero. -/
def precedes? (f g : Finding) : Option Bool :=
  Datum.lessLists? [coordinate f.line, coordinate f.column]
    [coordinate g.line, coordinate g.column]

/-- A file's findings in the order in which they are reported. -/
def ordered (sort : Bool) (findings : List Finding) : Except Fault (List Finding) :=
  if sort then
    match Sorting.sort? precedes? findings with
    | some findings => .ok findings
    | none => .error .incomparable
  else .ok findings

/-- Reports files one after another, each with its findings, and then completes; `results`, last one
first, are those of the files before. -/
def reportAll (sort success : Bool) (found : List (Path × Finding)) (results : List FileResult) :
    List (Path × Path) → Work
  | [] => .complete success results.reverse .finished
  | (file, target) :: rest =>
    let own := (found.filter fun entry => entry.1 == target).map Prod.snd
    match ordered sort own with
    | .error f => .stopped (.fault f)
    | .ok findings =>
      .report file findings fun result => reportAll sort success found (result :: results) rest

/-- The files, each with the path that it leads to. -/
def targets (directory : Path) (files : List Path) : Except Fault (List (Path × Path)) :=
  files.mapM fun file => (resolved directory file).map (file, ·)

/-- What follows from the program's answer. -/
def afterAnswer (directory : Path) (command : Command) (sort : Bool) (files : List (Path × Path))
    (answer : Answer) : Work :=
  match records command answer with
  | .error reason => .stopped reason
  | .ok records =>
    match attributed directory records with
    | .error f => .stopped (.fault f)
    | .ok found =>
      let found := found.filter fun entry => files.any fun file => file.2 == entry.1
      let success := found.all fun entry => entry.2.rule != fileLevelRule
      reportAll sort success found [] files

/-- Checks the requested files; without any, completes at once. -/
def check (root directory : Path) (request : Request) : Work :=
  match request.selectedFiles with
  | [] => .complete true [] .finished
  | files =>
    match targets directory files with
    | .error f => .stopped (.fault f)
    | .ok targets =>
      let command := command root files
      .run command (afterAnswer directory command request.sort targets)

/-- The linter, run in `root` by a gate that works in `directory`. -/
def linter (root directory : Path) : Linter := ⟨"ruff".toList, check root directory⟩

end DiffGate.Ruff
