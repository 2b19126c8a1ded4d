import DiffGate.Ignore.Glob
import DiffGate.Text.Blank

/-!
# Ignore rules

Rules are tried in order. A plain rule that matches makes a path ignored; a rule with a leading `!`
takes that back, if an earlier rule had made the path ignored. So the last rule that matches
decides, and a rule that could not change the state is not even tried: a glob that cannot be read is
a fault only where it would have made a difference.
-/

set_option autoImplicit false

namespace DiffGate.Ignore

/-- A glob, possibly one that takes back an earlier match. -/
structure Rule where
  pattern : Text
  negated : Bool
  deriving DecidableEq

/-- The rule that a pattern writes. -/
def Rule.ofText : Text → Rule
  | '!' :: pattern => ⟨pattern, true⟩
  | pattern => ⟨pattern, false⟩

/-- The rule of a pattern as it is written in a configuration: blanks around it do not count, and a
blank pattern is no rule. -/
def Rule.ofEntry? (entry : Text) : Option Rule :=
  let pattern := Text.strip entry
  if pattern = [] then none else some (.ofText pattern)

/-- Whether the path is ignored after the rules, given whether it was before. -/
def isIgnoredFrom (ignored : Bool) : List Rule → Text → Except BadGlob Bool
  | [], _ => .ok ignored
  | rule :: rules, path =>
    if ignored = rule.negated then
      match globMatch rule.pattern path with
      | .error e => .error e
      | .ok hit => isIgnoredFrom (if hit then !rule.negated else ignored) rules path
    else isIgnoredFrom ignored rules path

/-- Whether the rules exclude a path. -/
def isIgnored (rules : List Rule) (path : Text) : Except BadGlob Bool :=
  isIgnoredFrom false rules path

end DiffGate.Ignore
