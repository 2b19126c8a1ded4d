import DiffGate.Config
import DiffGate.World
import DiffGate.Yaml.Document

/-!
# Configuration files

A project's configuration is a YAML file in its root, or the file that the user names. Where there
is none, the defaults hold. A file that is no YAML document, or holds something else than a mapping,
is an error that names the file; an empty one holds nothing but defaults.
-/

set_option autoImplicit false

namespace DiffGate

namespace ConfigFile

/-- The name of a configuration in a project's root. -/
def name : Text := ".changelint.yml".toList

/-- The configuration that is in force. -/
inductive Loaded
  /-- A file was found and read. -/
  | found (config : Config) (path : Path)
  /-- There is no file; the defaults. -/
  | notFound (config : Config)

/-- The configuration in force. -/
def Loaded.config : Loaded → Config
  | .found config _ => config
  | .notFound config => config

/-- Whether no file was found. -/
def Loaded.isDefault : Loaded → Bool
  | .found _ _ => false
  | .notFound _ => true

/-- The text of a file's bytes. -/
def textOf (bytes : List UInt8) : Except Fault Text :=
  match Text.Utf8.decode? bytes with
  | some t => .ok (Text.unifyBreaks t)
  | none => .error .notUtf8

/-- The configuration that a file's content writes, with the defaults for what it leaves out. The
content is decoded as a whole and then read as YAML. A reader that decodes a long file piece by
piece may meet a mistake in the YAML first and never the bytes further on that are no UTF-8; that is
not modelled, nor is a limit on how deep collections may be nested. -/
def parse (path : Path) (content : List UInt8) : Except Stop Config :=
  match textOf content with
  | .error f => .error (.fault f)
  | .ok t =>
    match Yaml.read t with
    | .error (.malformed e) => .error (.failure (.badYaml path e))
    | .error (.fault f) => .error (.fault f)
    | .ok document =>
      let entries :=
        match document with
        | .null => some []
        | .map entries => some entries
        | _ => none
      match entries with
      | none => .error (.failure (.notMapping path))
      | some entries =>
        match Config.overDefaults entries with
        | .ok config => .ok config
        | .error .checkersNotMapping => .error (.failure .checkersNotMapping)
        | .error (.fault f) => .error (.fault f)

/-- The file that holds a project's configuration: the one that the user names, unless the name is
empty, or else the one in the root. -/
def pathFor (root : Path) (named : Option Text) : Path :=
  match named with
  | none => root.child name
  | some t => if t = [] then root.child name else .ofText t

/-- The configuration in force for a project. -/
def load (w : World) (root : Path) (named : Option Text) : Except Stop Loaded :=
  let path := pathFor root named
  if w.tree.exists? (w.locate path) then
    match w.tree.read (w.locate path) with
    | .error .isDirectory => .error (.fault .isDirectory)
    | .error .badPath => .error (.fault .nulInPath)
    | .error .absent => .ok (.notFound .default)
    | .ok content => (parse path content).map fun config => .found config path
  else .ok (.notFound .default)

end ConfigFile

end DiffGate
