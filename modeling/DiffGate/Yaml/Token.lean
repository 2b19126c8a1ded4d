import DiffGate.Yaml.Error

/-!
# YAML tokens

The units that a YAML text is made of. Indentation is among them: where a nested block begins and
where it ends there are tokens, although no character writes them.
-/

set_option autoImplicit false

namespace DiffGate.Yaml

/-- A tag as it is written: a handle, if it has one, and what follows it. -/
structure WrittenTag where
  handle : Option Text
  suffix : Text
  deriving DecidableEq

/-- What a directive says. -/
inductive Directive
  | version (major : Nat)
  | handle (handle address : Text)
  | unknown
  deriving DecidableEq

/-- What a token is. -/
inductive TokenKind
  | directive (d : Directive)
  | documentStart
  | documentEnd
  | streamEnd
  | blockSequenceStart
  | blockMappingStart
  | blockEnd
  | flowSequenceStart
  | flowSequenceEnd
  | flowMappingStart
  | flowMappingEnd
  | flowEntry
  | blockEntry
  | key
  | value
  | alias (name : Text)
  | anchor (name : Text)
  | tag (t : WrittenTag)
  /-- A scalar's text; plain when it is written without quotes and not as a block. -/
  | scalar (t : Text) (plain : Bool)
  deriving DecidableEq

/-- A token and where it starts. -/
structure Token where
  kind : TokenKind
  start : Mark
  deriving DecidableEq

/-- The name of a token in messages. -/
def TokenKind.name : TokenKind → Text
  | .directive _ => "<directive>".toList
  | .documentStart => "<document start>".toList
  | .documentEnd => "<document end>".toList
  | .streamEnd => "<stream end>".toList
  | .blockSequenceStart => "<block sequence start>".toList
  | .blockMappingStart => "<block mapping start>".toList
  | .blockEnd => "<block end>".toList
  | .flowSequenceStart => ['[']
  | .flowSequenceEnd => [']']
  | .flowMappingStart => ['\x7b']
  | .flowMappingEnd => ['\x7d']
  | .flowEntry => [',']
  | .blockEntry => ['-']
  | .key => ['?']
  | .value => [':']
  | .alias _ => "<alias>".toList
  | .anchor _ => "<anchor>".toList
  | .tag _ => "<tag>".toList
  | .scalar _ _ => "<scalar>".toList

end DiffGate.Yaml
