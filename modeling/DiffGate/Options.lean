import DiffGate.Assoc
import DiffGate.Config

/-!
# The command line's words

A command line is a list of words. Words that spell an option set something; the others are paths to
check. An option may be spelled by any start of its long name that no other option shares, flags of
one letter may be put together, and a value follows its option as the next word or behind an equals
sign. After a word `--` there are no more options.

Reading goes in two steps, as errors show: first every word is told apart, then the words are obeyed
from left to right. So an ambiguous spelling is an error even behind a request for help, but an
unknown option is one only when all words have been obeyed.
-/

set_option autoImplicit false

namespace DiffGate

/-- What a word may set. -/
inductive Setting
  | help
  | cached
  | init
  | force
  | config
  | noSort
  | noRuleNames
  | version
  deriving DecidableEq

namespace Setting

/-- Every spelling, in the order in which ambiguous ones are listed. -/
def spellings : List (Text × Setting) :=
  [("-h".toList, .help), ("--help".toList, .help), ("-c".toList, .cached),
    ("--cached".toList, .cached), ("-i".toList, .init), ("--init".toList, .init),
    ("--force".toList, .force), ("--config".toList, .config), ("--no-sort".toList, .noSort),
    ("--no-rule-names".toList, .noRuleNames), ("--version".toList, .version)]

/-- The setting of a spelling. -/
def ofSpelling? (t : Text) : Option Setting := Assoc.find? t spellings

/-- The setting of a flag of one letter. -/
def ofLetter? (c : Char) : Option Setting := ofSpelling? ['-', c]

/-- The spellings of a setting. -/
def spelled (s : Setting) : List Text := (spellings.filter (·.2 == s)).map Prod.fst

/-- How an error names a setting: by all its spellings. -/
def name (s : Setting) : Text := Text.join ['/'] s.spelled

/-- The long spellings that start in a given way. -/
def startingWith (lead : Text) : List (Text × Setting) :=
  spellings.filter fun spelling => spelling.1.startsWith lead

end Setting

/-- What is wrong with a command line. -/
inductive UsageError
  /-- A word is the start of several spellings. -/
  | ambiguous (word : Text) (spellings : List Text)
  /-- A flag is given a value, or letters that are no flags. -/
  | unwantedValue (s : Setting) (value : Text)
  /-- A value does not follow. -/
  | missingValue (s : Setting)
  /-- Words that mean nothing. -/
  | unrecognized (words : List Text)
  deriving DecidableEq

namespace UsageError

/-- The error in words. -/
def message : UsageError → Text
  | .ambiguous word spellings =>
    "ambiguous option: ".toList ++ word ++ " could match ".toList ++
      Text.join ", ".toList spellings
  | .unwantedValue s value =>
    "argument ".toList ++ s.name ++ ": ignored explicit argument ".toList ++ Text.quoted value
  | .missingValue s => "argument ".toList ++ s.name ++ ": expected one argument".toList
  | .unrecognized words => "unrecognized arguments: ".toList ++ Text.join [' '] words

end UsageError

/-! ## Telling words apart -/

/-- A word of the command line. -/
inductive Word
  | operand (t : Text)
  /-- The first `--`, after which all words are operands. -/
  | separator
  /-- An option; whether it is spelled with one dash, and the text that the word goes on with. -/
  | option (s : Setting) (short : Bool) (attached : Option Text)
  /-- A word that looks like an option and is none. -/
  | unknown (t : Text)
  deriving DecidableEq

namespace Word

/-- A text of the form `-7`, `-.5` or `-1.5`, perhaps with a final line feed. -/
def isNegative (t : Text) : Bool :=
  match t with
  | '-' :: rest =>
    let rest := if rest.getLast? = some '\n' then rest.dropLast else rest
    let (whole, tail) := rest.span Text.isDecimal
    match tail with
    | [] => !whole.isEmpty
    | '.' :: digits => !digits.isEmpty && digits.all Text.isDecimal
    | _ => false
  | _ => false

/-- A word that spells no option, even by its start. -/
def ofOther (t : Text) : Word :=
  if isNegative t || t.contains ' ' then .operand t else .unknown t

/-- A word of two dashes and more that is no whole spelling: a start of one. -/
def ofLong (t : Text) : Except UsageError Word :=
  let (lead, value) :=
    match Text.cut? '=' t with
    | some (lead, value) => (lead, some value)
    | none => (t, none)
  match Setting.startingWith lead with
  | [] => .ok (ofOther t)
  | [(_, s)] => .ok (.option s false value)
  | several => .error (.ambiguous t (several.map Prod.fst))

/-- A word of one dash and more that is no whole spelling: a letter and what goes on behind it. -/
def ofShort (letter : Char) (rest t : Text) : Word :=
  match Setting.ofLetter? letter with
  | some s => .option s true (some rest)
  | none => ofOther t

/-- Whether a word starts with one dash only. -/
def isShort : Text → Bool
  | '-' :: '-' :: _ => false
  | _ => true

/-- An option and its value, written with an equals sign. -/
def ofAssignment? (t : Text) : Option Word :=
  (Text.cut? '=' t).bind fun (spelling, value) =>
    (Setting.ofSpelling? spelling).map fun s => .option s (isShort spelling) (some value)

/-- A word by itself. -/
def ofText (t : Text) : Except UsageError Word :=
  match Setting.ofSpelling? t, ofAssignment? t with
  | some s, _ => .ok (.option s (isShort t) none)
  | none, some word => .ok word
  | none, none =>
    match t with
    | '-' :: '-' :: _ => ofLong t
    | '-' :: letter :: rest => .ok (ofShort letter rest t)
    | _ => .ok (.operand t)

/-- The words of a command line. -/
def ofTexts : List Text → Except UsageError (List Word)
  | [] => .ok []
  | t :: ts =>
    if t = ['-', '-'] then .ok (.separator :: ts.map .operand)
    else do
      let word ← ofText t
      let words ← ofTexts ts
      return word :: words

end Word

/-! ## Obeying them -/

/-- What a command line sets. -/
structure Options where
  cached : Bool := false
  init : Bool := false
  force : Bool := false
  /-- The configuration that is named. -/
  config : Option Text := none
  noSort : Bool := false
  noRuleNames : Bool := false
  /-- The paths to check. -/
  paths : List Text := []
  deriving DecidableEq

/-- What a command line asks for. -/
inductive Invocation
  | help
  | version
  | command (o : Options)
  deriving DecidableEq

namespace Options

/-- Sets a flag. -/
def set (o : Options) : Setting → Options
  | .cached => { o with cached := true }
  | .init => { o with init := true }
  | .force => { o with force := true }
  | .noSort => { o with noSort := true }
  | .noRuleNames => { o with noRuleNames := true }
  | .help => o
  | .version => o
  | .config => o

/-- Sets the configuration's name. A value of two dashes, which can only be written behind an equals
sign, sets none. -/
def setConfig (o : Options) (value : Text) : Options :=
  { o with config := if value = ['-', '-'] then none else some value }

/-- The flags of a word: its own, and those that the letters behind it are. -/
def cluster (s : Setting) : Text → Except UsageError (List Setting)
  | [] => .ok [s]
  | c :: cs =>
    match Setting.ofLetter? c with
    | some next => (cluster next cs).map (s :: ·)
    | none => .error (.unwantedValue s (c :: cs))

/-- The flags of a word that is a flag with what is attached to it. -/
def flags (s : Setting) (short : Bool) (attached : Option Text) :
    Except UsageError (List Setting) :=
  match attached with
  | none => .ok [s]
  | some value =>
    if short && !value.isEmpty then cluster s value else .error (.unwantedValue s value)

/-- What a flag asks for that leaves the rest of the command line unread. -/
def ending? : Setting → Option Invocation
  | .help => some .help
  | .version => some .version
  | _ => none

/-- Where the paths of a command line are: they are the operands of one unbroken run. -/
inductive Stage
  | before
  | within
  | after
  deriving DecidableEq

/-- Where they are when an option has come. -/
def Stage.next : Stage → Stage
  | .before => .before
  | _ => .after

/-- Obeys words. `extras` are the words so far that mean nothing. -/
def obey (o : Options) (stage : Stage) (extras : List Text) :
    List Word → Except UsageError Invocation
  | [] => if extras.isEmpty then .ok (.command o) else .error (.unrecognized extras)
  | .operand t :: rest =>
    if stage = .after then obey o stage (extras ++ [t]) rest
    else obey { o with paths := o.paths ++ [t] } .within extras rest
  | .separator :: rest =>
    if stage = .after then obey o stage (extras ++ [['-', '-']]) rest
    else obey o .within extras rest
  | .unknown t :: rest => obey o stage.next (extras ++ [t]) rest
  | .option .config _ (some value) :: rest => obey (o.setConfig value) stage.next extras rest
  | .option .config _ none :: .operand value :: rest =>
    obey (o.setConfig value) stage.next extras rest
  | .option .config _ none :: _ => .error (.missingValue .config)
  | .option s short attached :: rest =>
    match flags s short attached with
    | .error e => .error e
    | .ok found =>
      match found.findSome? ending? with
      | some invocation => .ok invocation
      | none => obey (found.foldl set o) stage.next extras rest

/-- What a command line asks for. -/
def parse (arguments : List Text) : Except UsageError Invocation := do
  let words ← Word.ofTexts arguments
  obey {} .before [] words

end Options

/-! ## What is said about the command line -/

namespace Options

/-- The line that shows how the program is called. -/
def usage : Text := "usage: changelint [options] [file.py ...] [dir ...]\n".toList

/-- The help. -/
def help : Text :=
  usage ++
    ("\nRun style checks on the lines a pending git change modifies\n\n" ++
      "positional arguments:\n" ++
      "  paths            Files or directories to check (default: current directory)\n\n" ++
      "options:\n" ++
      "  -h, --help       show this help message and exit\n" ++
      "  -c, --cached     Check staged changes only (git diff --cached)\n" ++
      "  -i, --init       Write .changelint.yml and install the git pre-commit hook\n" ++
      "  --force          With --init, overwrite an existing .changelint.yml\n" ++
      "  --config CONFIG  Path to a config file (default: .changelint.yml in the\n" ++
      "                   project root)\n" ++
      "  --no-sort        Report findings in linter order instead of by position\n" ++
      "  --no-rule-names  Do not append rule names to reported findings\n" ++
      "  --version        show program's version number and exit\n").toList

/-- The version as it is shown. -/
def versionLine : Text := "changelint ".toList ++ version ++ ['\n']

/-- What is told about an error. -/
def complaint (e : UsageError) : Text :=
  usage ++ "changelint: error: ".toList ++ e.message ++ ['\n']

end Options

end DiffGate
