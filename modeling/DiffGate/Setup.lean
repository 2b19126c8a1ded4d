import DiffGate.ConfigFile
import DiffGate.Repository
import DiffGate.Text.WordChar

/-!
# Setting a project up

Setup writes two files: the default configuration and the hook that runs a check before a commit.
Each carries the program's version; a file that carries the present one is left alone.
-/

set_option autoImplicit false

namespace DiffGate.Setup

/-! ## What is written -/

/-- The comment above the default configuration. -/
def configHead : Text :=
  "# .changelint.yml: changelint configuration\n".toList ++
    "#\n".toList ++
    "# checkRules: open switches a checker on, warnIgnored drops its warnings\n".toList ++
    "# ignore: ordered globs, a leading ! re-includes a previously ignored path\n".toList

/-- The default configuration file. -/
def configText : Text := configHead ++ Config.default.write

/-- What a hook's version follows. -/
def hookMarker : Text := "# changelint pre-commit v".toList

/-- The hook. -/
def hookText : Text :=
  "#!/usr/bin/env python3\n".toList ++ hookMarker ++ version ++
    "\nimport subprocess\nimport sys\n\n".toList ++
    "sys.exit(subprocess.run([sys.executable, ".toList ++
    "\"-m\", \"changelint\", \"--cached\"])".toList ++ ".returncode)\n".toList

/-! ## The versions that files carry -/

/-- Characters of a version. -/
def isVersionChar (c : Char) : Bool := Text.isWordChar c || c == '.' || c == '-' || c == '+'

/-- The version that a line of a hook carries. -/
def lineVersion? (line : Text) : Option Text :=
  match (Text.after? hookMarker line).map (·.takeWhile isVersionChar) with
  | none => none
  | some [] => none
  | some version => some version

/-- The version that a hook carries: the first line's that carries one. -/
def hookVersionOf? (t : Text) : Option Text := (Text.split '\n' t).findSome? lineVersion?

/-- The version of the hook in a file. What cannot be read carries none. -/
def hookVersion (w : World) (path : Path) : Except Fault (Option Text) :=
  match w.tree.read (w.locate path) with
  | .error .badPath => .error .nulInPath
  | .error _ => .ok none
  | .ok content =>
    match ConfigFile.textOf content with
    | .error _ => .ok none
    | .ok t => .ok (hookVersionOf? t)

/-- The version that a configuration's data carries. -/
def documentVersion : Datum → Except Fault (Option Text)
  | .map entries =>
    match Datum.field? entries "version" with
    | none => .ok none
    | some .null => .ok none
    | some d => if d.hasOverlong then .error .overlongNumber else .ok (some d.display)
  | _ => .ok none

/-- The version of the configuration in a file. What is no YAML document carries none. -/
def configVersion (w : World) (path : Path) : Except Fault (Option Text) :=
  match w.tree.read (w.locate path) with
  | .error .badPath => .error .nulInPath
  | .error _ => .ok none
  | .ok content =>
    match ConfigFile.textOf content with
    | .error f => .error f
    | .ok t =>
      match Yaml.read t with
      | .error (.malformed _) => .ok none
      | .error (.fault f) => .error f
      | .ok document => documentVersion document

/-! ## Writing -/

/-- Writes a file and says so. -/
def writeFile (path : Path) (content : Text) (executable : Bool) : Action Unit := do
  let w ← get
  if (w.locate path).hasNul then Action.fault .nulInPath
  else
    match w.tree.write (w.locate path) (Text.Utf8.encode content) executable with
    | .error e => Action.fail (.cannotWrite path.toText e.text)
    | .ok tree =>
      set { w with tree }
      Action.print ("  Writing ".toList ++ path.toText ++ " ... done\n".toList)

/-- A version or a fault, as part of an action. -/
def orStop {α : Type} : Except Fault α → Action α
  | .ok a => pure a
  | .error f => Action.fault f

/-- Whether the configuration is to be written: always if forced, and otherwise unless it carries
the present version. -/
def configNeeded (w : World) (path : Path) (force : Bool) : Except Fault Bool :=
  if force || !w.tree.exists? (w.locate path) then .ok true
  else (configVersion w path).map fun v => v != some version

/-- Writes the default configuration if it is needed, and gives its path if it was. -/
def config (root : Path) (force : Bool) : Action (Option Path) := do
  let path := root.child ConfigFile.name
  let w ← get
  if ← orStop (configNeeded w path force) then
    writeFile path configText false
    return some path
  else return none

/-- Writes the hook unless the present version is there, and gives its path if it was written. -/
def hook (root : Path) : Action (Option Path) := do
  let path := (← Repository.hooksDirectory root).child "pre-commit".toList
  let w ← get
  if (← orStop (hookVersion w path)) ≠ some version then
    writeFile path hookText true
    return some path
  else return none

/-- A line of dashes. -/
def rule : Text := List.replicate 50 '-' ++ ['\n']

/-- Sets up the project that the working directory is in; the exit status. -/
def run (force : Bool) : Action Nat := do
  let root ← Repository.root
  Action.print ("changelint init\n".toList ++ rule)
  let config ← config root force
  let hook ← hook root
  if config.isNone && hook.isNone then Action.print "  Everything is up to date\n".toList
  Action.print (rule ++ "Done! Staged changes are now checked before every commit.\n".toList)
  return 0

end DiffGate.Setup
