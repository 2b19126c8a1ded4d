import DiffGate.Fault
import DiffGate.Finding
import DiffGate.Ignore.Rule
import DiffGate.Yaml.Writer

/-!
# The configuration

The configuration says which checkers count, which kinds of files are checked, which files are not,
and whether a failed check stops the commit. It is read from a document of no fixed shape, and read
leniently: what is missing has a default, the kinds of files may be one comma-separated text, and a
checker whose settings are no mapping is passed over.
-/

set_option autoImplicit false

namespace DiffGate

/-- The version of the program, which a configuration and a hook carry. -/
def version : Text := "0.1.0".toList

/-- Why a document is no configuration: a failure that is explained, or a fault. -/
inductive ConfigFailure
  /-- The checkers' settings are no mapping. -/
  | checkersNotMapping
  | fault (f : Fault)
  deriving DecidableEq

/-- What a configuration says. -/
structure Config where
  version : Text
  /-- Whether a failed check stops the commit. -/
  stopCommit : Bool
  /-- The extensions, without a dot, of the files that are checked. -/
  fileTypes : List Text
  rules : RuleTable
  /-- The ignore list as it is written. -/
  ignore : List Datum

namespace Config

/-! ## Entries that are texts -/

/-- Whether a byte is a blank: a space, or one of the five controls from the tab on. -/
def isBlankByte (b : UInt8) : Bool := b == 32 || (9 ≤ b && b ≤ 13)

/-- The texts of a list that hold something beside blanks; what is empty is passed over, whatever it
is. Blank bytes are passed over too, and other bytes are a fault of their own. -/
def texts : List Datum → Except Fault (List Text)
  | [] => .ok []
  | .text t :: rest =>
    (texts rest).map fun ts => if Text.strip t = [] then ts else t :: ts
  | .bytes bs :: rest => if bs.all isBlankByte then texts rest else .error .entryIsBytes
  | d :: rest => if d.isTruthy then .error .entryNotText else texts rest

/-- An extension as it is compared: without blanks around it and dots in front. -/
def extension (t : Text) : Text := (Text.strip t).dropWhile (· == '.')

/-- The extensions that a value writes. -/
def fileTypesOf (d : Datum) : Except Fault (List Text) :=
  let entries :=
    match d with
    | .text t => some ((Text.split ',' t).map Datum.text)
    | d => d.items?
  match entries with
  | none => .error .notACollection
  | some entries => (texts entries).map fun ts => ts.map extension

/-- The ignore rules that a value writes: none, one text, or the texts of a collection. -/
def ignoreRulesOf (d : Datum) : Except Fault (List Ignore.Rule) :=
  let entries :=
    match d with
    | .null => some []
    | .text t => some [Datum.text t]
    | d => d.items?
  match entries with
  | none => .error .notACollection
  | some entries => (texts entries).map fun ts => ts.filterMap Ignore.Rule.ofEntry?

/-- The ignore rules of a configuration. -/
def ignoreRules (c : Config) : Except Fault (List Ignore.Rule) := ignoreRulesOf (.list c.ignore)

/-! ## Reading -/

/-- A switch of a checker: off unless its value counts as true. -/
def switch (settings : List (Datum × Datum)) (key : String) : Bool :=
  ((Datum.field? settings key).map Datum.isTruthy).getD false

/-- A checker's switches. -/
def checkRuleOf (settings : List (Datum × Datum)) : CheckRule :=
  ⟨switch settings "open", switch settings "warnIgnored"⟩

/-- The rules of checkers' settings; what is no mapping is passed over. -/
def rulesOf (entries : List (Datum × Datum)) : RuleTable :=
  entries.foldl
    (fun rules entry =>
      match entry.2 with
      | .map settings => RuleTable.put entry.1 (checkRuleOf settings) rules
      | _ => rules)
    []

/-- The checkers' settings in a document; a value that counts as false has none. -/
def checkersOf (d : Option Datum) : Except ConfigFailure (List (Datum × Datum)) :=
  match d with
  | none => .ok []
  | some (.map entries) => .ok entries
  | some d => if d.isTruthy then .error .checkersNotMapping else .ok []

/-- The ignore list in a document: one text, or the items of a collection. -/
def ignoreOf (d : Option Datum) : Except Fault (List Datum) :=
  match d with
  | none => .ok []
  | some d =>
    if d.isTruthy then
      match d with
      | .text _ => .ok [d]
      | d =>
        match d.items? with
        | some items => .ok items
        | none => .error .notACollection
    else .ok []

/-- The version in a document, whatever it is, as it is shown. -/
def versionOf (d : Option Datum) : Except Fault Text :=
  match d with
  | none => .ok DiffGate.version
  | some d => if d.hasOverlong then .error .overlongNumber else .ok d.display

/-- A fault as a reason why there is no configuration. -/
def orFault {α : Type} : Except Fault α → Except ConfigFailure α
  | .ok a => .ok a
  | .error f => .error (.fault f)

/-- The configuration that a mapping writes. -/
def ofEntries (entries : List (Datum × Datum)) : Except ConfigFailure Config := do
  let version ← orFault (versionOf (Datum.field? entries "version"))
  let stopCommit := ((Datum.field? entries "stopCommit").map Datum.isTruthy).getD true
  let fileTypes ←
    match Datum.field? entries "fileTypes" with
    | none => pure ["py".toList]
    | some d => orFault (fileTypesOf d)
  let checkers ← checkersOf (Datum.field? entries "checkRules")
  let ignore ← orFault (ignoreOf (Datum.field? entries "ignore"))
  return ⟨version, stopCommit, fileTypes, rulesOf checkers, ignore⟩

/-! ## Defaults -/

/-- The default switches. -/
def defaultRules : RuleTable :=
  [(.text "pycodestyle".toList, ⟨true, true⟩), (.text "pyflakes".toList, ⟨true, false⟩),
    (.text "mccabe".toList, ⟨false, false⟩), (.text "isort".toList, ⟨false, false⟩),
    (.text "ruff".toList, ⟨true, false⟩)]

/-- The configuration of a project that has none. -/
def default : Config where
  version := DiffGate.version
  stopCommit := true
  fileTypes := ["py".toList]
  rules := defaultRules
  ignore := [.text "*.json".toList, .text "docs/**".toList]

/-! ## Writing -/

/-- A checker's switches as settings. -/
def settings (rule : CheckRule) : Datum :=
  .map [(.text "open".toList, .bool rule.enabled),
    (.text "warnIgnored".toList, .bool rule.warnIgnored)]

/-- A configuration as a mapping. -/
def entries (c : Config) : List (Datum × Datum) :=
  [(.text "version".toList, .text c.version),
    (.text "stopCommit".toList, .bool c.stopCommit),
    (.text "fileTypes".toList, .list (c.fileTypes.map .text)),
    (.text "checkRules".toList, .map (c.rules.map fun rule => (rule.1, settings rule.2))),
    (.text "ignore".toList, .list c.ignore)]

/-- A configuration as text. -/
def write (c : Config) : Text := Yaml.write c.entries

/-- The configuration that a document's entries write when what they leave out has its default. The
checkers' settings count as one: a document that has any has them all. -/
def overDefaults (written : List (Datum × Datum)) : Except ConfigFailure Config :=
  ofEntries (Datum.overlay (entries default) written)

end Config

end DiffGate
