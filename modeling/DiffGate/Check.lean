import DiffGate.Config
import DiffGate.Diff.Change
import DiffGate.Linter
import DiffGate.Outcome

/-!
# A check

A check asks the version control for the change, keeps the files that are not ignored and gain
lines, hands them to a linter, reports the linter's findings on the added lines and sums up. It
needs nothing but the programs' answers, so a check is a function of them: `Check.run` gives all
that can be seen of it, in the order of events per channel.
-/

set_option autoImplicit false

namespace DiffGate

namespace Check

/-! ## The change -/

/-- The command that asks for the change. Its form of output is pinned, so that nobody's settings
can change the marks in it. -/
def diffCommand (root : Path) (cached : Bool) (paths : List Text) : Command where
  arguments :=
    ["git", "diff", "--no-color", "--no-ext-diff", "--src-prefix=a/", "--dst-prefix=b/",
        "--ignore-space-at-eol"].map String.toList ++
      (if cached then ["--cached".toList] else []) ++
      (if paths = [] then [] else "--".toList :: paths)
  directory := root

/-- The files of a change that no rule ignores, by their place under the root. Two spellings of one
place are one file, which has the lines of the later spelling. -/
def unignored (root : Path) (rules : List Ignore.Rule) (kept : ModifiedFiles) :
    ModifiedFiles → Except Fault ModifiedFiles
  | [] => .ok kept
  | (path, lines) :: rest =>
    match Ignore.isIgnored rules path with
    | .error .reversedRange => .error .reversedRange
    | .ok true => unignored root rules kept rest
    | .ok false => unignored root rules (Assoc.put (root.child path).toText lines kept) rest

/-- The files to check: those that the change adds lines to and that are not ignored. -/
def collect (config : Config) (root : Path) (diff : Text) : Except Fault ModifiedFiles := do
  let rules ← config.ignoreRules
  match Diff.modifiedFiles diff with
  | .error .overlong => .error .overlongNumber
  | .ok files => unignored root rules [] files

/-! ## Linting -/

/-- What all parts of one check share. -/
structure Context where
  rules : RuleTable
  files : ModifiedFiles
  display : Display

namespace Context

/-- The added lines of a file. -/
def linesFor (c : Context) (file : Path) : Option LineSet := Assoc.find? file.toText c.files

/-- The filter as a linter's reporter. -/
def reporter (c : Context) : Reporter := fun file findings =>
  Filter.fileResult file.toText c.rules (c.linesFor file) c.display findings

/-- What a linter is asked to do. -/
def request (c : Context) (config : Config) : Request where
  files := c.files.map fun file => .ofText file.1
  fileTypes := config.fileTypes
  sort := c.display.sortByPosition

end Context

/-- All that can be seen of a check. -/
structure Run where
  /-- The programs that were run. -/
  calls : List Command
  /-- What linters were asked to do. -/
  requests : List Request
  /-- What the user is told on the side. -/
  notices : Text
  /-- The report. -/
  printed : Text
  outcome : Except Stop Outcome

/-- The outcome of a linter's work: its one completion's. -/
def verdict (config : Config) (linter : Text) (t : Transcript) : Except Stop Outcome :=
  match t.reason, t.completions with
  | some reason, _ => .error reason
  | none, [(success, results)] => .ok (.ofResults success config.stopCommit results)
  | none, completions => .error (.failure (.completions linter completions.length))

/-- Lets a linter work on the files of a context. -/
def lint (config : Config) (linter : Linter) (context : Context) (programs : Programs) : Run :=
  let request := context.request config
  let t := (linter.check request).play context.reporter programs
  ⟨t.calls, [request], [], t.printed, verdict config linter.name t⟩

/-- What the user is told before the linter starts. -/
def notice (files : ModifiedFiles) : Text :=
  "Checking ".toList ++ Text.ofNat files.totalLines ++ " modified line(s) in ".toList ++
    Text.ofNat files.length ++ " file(s)...\n".toList

/-- A whole check. -/
def run (config : Config) (linter : Linter) (root : Path) (display : Display)
    (programs : Programs) (paths : List Text) (cached : Bool) : Run :=
  if !config.rules.hasEnabled then ⟨[], [], [], [], .ok (.nothingToDo Outcome.noRules)⟩
  else
    let command := diffCommand root cached paths
    match (programs command).outputText command with
    | .error reason => ⟨[command], [], [], [], .error reason⟩
    | .ok diff =>
      match collect config root diff with
      | .error f => ⟨[command], [], [], [], .error (.fault f)⟩
      | .ok [] => ⟨[command], [], [], [], .ok (.nothingToDo Outcome.noFiles)⟩
      | .ok files =>
        let linted := lint config linter ⟨config.rules, files, display⟩ programs
        { linted with
          calls := command :: linted.calls
          notices := notice files }

end Check

end DiffGate
