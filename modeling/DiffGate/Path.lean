import DiffGate.Text

/-!
# Paths

A path is kept in normal form: where it starts, and its components. Repeated slashes, single dots
and a trailing slash leave no trace, so two spellings of one path are equal values; `..` stays,
because what it means depends on the file tree. Two leading slashes and no more are kept as they
are.
-/

set_option autoImplicit false

namespace DiffGate

/-- Where a path starts. -/
inductive Anchor
  /-- At the working directory. -/
  | here
  /-- At the top of the file tree. -/
  | top
  /-- At the top, written with exactly two slashes. -/
  | twin
  deriving DecidableEq

/-- A path in normal form. -/
structure Path where
  anchor : Anchor
  parts : List Text
  deriving DecidableEq

namespace Path

/-- Components that say something: neither empty nor a single dot. -/
def isComponent (t : Text) : Bool := !t.isEmpty && t != ['.']

/-- Where a spelled path starts. -/
def anchorOf : Text → Anchor
  | '/' :: '/' :: '/' :: _ => .top
  | '/' :: '/' :: _ => .twin
  | '/' :: _ => .top
  | _ => .here

/-- The path that a text spells. -/
def ofText (t : Text) : Path := ⟨anchorOf t, (Text.split '/' t).filter isComponent⟩

/-- The lead that an anchor is written as. -/
def anchorText : Anchor → Text
  | .here => []
  | .top => ['/']
  | .twin => ['/', '/']

/-- The spelling of a path; the empty path is a single dot. -/
def toText (p : Path) : Text :=
  if p.anchor = .here ∧ p.parts = [] then ['.']
  else anchorText p.anchor ++ Text.join ['/'] p.parts

/-- `q` taken from the directory `p`; a `q` that starts at the top replaces `p`. -/
def join (p q : Path) : Path :=
  match q.anchor with
  | .here => ⟨p.anchor, p.parts ++ q.parts⟩
  | _ => q

/-- A spelled path taken from the directory `p`. -/
def child (p : Path) (t : Text) : Path := p.join (ofText t)

/-- The directory that the path is in, by its spelling. -/
def parent (p : Path) : Path := ⟨p.anchor, p.parts.dropLast⟩

/-- The last component; empty for a path without components. -/
def name (p : Path) : Text := p.parts.getLast?.getD []

/-- The name's extension with its dot: from the last dot on, unless that is the name's first or last
character. -/
def suffix (p : Path) : Text :=
  let extension := Text.afterLast '.' p.name
  if extension.isEmpty ∨ p.name.length ≤ extension.length + 1 then [] else '.' :: extension

/-- Components walked one by one from the top: `..` goes back one, and stays at the top there. -/
def walk (done : List Text) : List Text → List Text
  | [] => done
  | part :: parts =>
    if part = ['.', '.'] then walk done.dropLast parts else walk (done ++ [part]) parts

/-- The absolute path without `..`, relative ones taken from `directory`. -/
def resolve (directory p : Path) : Path := ⟨.top, walk [] (directory.join p).parts⟩

/-- Whether a component holds the character NUL, which no file name can. -/
def hasNul (p : Path) : Bool := p.parts.any (·.contains '\x00')

/-- The path and the directories above it, the nearest first, for a path given by its components. -/
def upward : List Text → List (List Text)
  | [] => [[]]
  | part :: parts => (upward parts).map (part :: ·) ++ [[]]

end Path

end DiffGate
