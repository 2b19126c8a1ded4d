import DiffGate.Text

/-!
# Globs

An ignore pattern is a glob over paths. It is read into pieces: a star is any run inside one path
segment, two stars any run at all, two stars with a slash any number of whole leading segments, a
question mark one character of a segment, a bracketed class one listed (or unlisted) character, and
all else stands for itself. Matching is a recursion on the pieces.

A class may hold ranges. A range whose ends are in the wrong order makes the glob meaningless, which
is found out when the glob is used, whatever the path.
-/

set_option autoImplicit false

namespace DiffGate.Ignore

/-- A glob holds a range that runs backward. -/
inductive BadGlob
  | reversedRange
  deriving DecidableEq

/-- A member of a class: one character, or the characters of a range. -/
inductive Member
  | one (c : Char)
  | range (low high : Char)
  deriving DecidableEq

/-- A piece of a glob. -/
inductive Piece
  /-- The character itself. -/
  | exactly (c : Char)
  /-- `?`: any one character but the slash. -/
  | anyOne
  /-- `*`: any run without a slash. -/
  | star
  /-- `**`: any run. -/
  | deepStar
  /-- `**` with a slash: nothing, or any run that ends in a slash. -/
  | folders
  /-- `[…]`: one character that is listed or, when negated, is not. -/
  | oneOf (negated : Bool) (members : List Member)
  deriving DecidableEq

/-! ## Reading -/

/-- The members of a class. A hyphen between two characters makes a range; first or last it is a
member. -/
def readMembers : Text → Except BadGlob (List Member)
  | [] => .ok []
  | low :: '-' :: high :: rest =>
    if high < low then .error .reversedRange
    else (readMembers rest).map (.range low high :: ·)
  | c :: rest => (readMembers rest).map (.one c :: ·)

/-- A class's first character, which a closing bracket may be, and the class up to the next closing
bracket; then what follows that bracket. -/
def classBody? : Text → Option (Text × Text)
  | [] => none
  | first :: rest => (Text.cut? ']' rest).map fun (body, after) => (first :: body, after)

/-- A class after its opening bracket: whether it is negated, its body, and what follows it. Without
a closing bracket there is no class. -/
def class? (t : Text) : Option (Bool × Text × Text) :=
  match t with
  | '!' :: rest => (classBody? rest).map (true, ·)
  | '^' :: rest => (classBody? rest).map (true, ·)
  | _ => (classBody? t).map (false, ·)

/-- The pieces of a glob, read with at most `fuel` steps. -/
def readPieces (fuel : Nat) (t : Text) : Except BadGlob (List Piece) :=
  match fuel with
  | 0 => .ok []
  | fuel + 1 =>
    match t with
    | [] => .ok []
    | '*' :: '*' :: '/' :: rest => (readPieces fuel rest).map (.folders :: ·)
    | '*' :: '*' :: rest => (readPieces fuel rest).map (.deepStar :: ·)
    | '*' :: rest => (readPieces fuel rest).map (.star :: ·)
    | '?' :: rest => (readPieces fuel rest).map (.anyOne :: ·)
    | '[' :: rest =>
      match class? rest with
      | none => (readPieces fuel rest).map (.exactly '[' :: ·)
      | some (negated, body, after) =>
        match readMembers body with
        | .error e => .error e
        | .ok members => (readPieces fuel after).map (.oneOf negated members :: ·)
    | c :: rest => (readPieces fuel rest).map (.exactly c :: ·)

/-- The pieces of a glob. Each step reads at least one character. -/
def pieces (glob : Text) : Except BadGlob (List Piece) := readPieces glob.length glob

/-! ## Matching -/

/-- Whether a class member lists a character. -/
def Member.lists (c : Char) : Member → Bool
  | .one d => c == d
  | .range low high => low ≤ c && c ≤ high

/-- What a run inside a segment may leave over: the text without any number of its leading
characters, up to the first slash. -/
def segmentTails : Text → List Text
  | [] => [[]]
  | c :: cs => (c :: cs) :: if c = '/' then [] else segmentTails cs

/-- What any run may leave over. -/
def tails : Text → List Text
  | [] => [[]]
  | c :: cs => (c :: cs) :: tails cs

/-- What follows each slash. -/
def slashTails : Text → List Text
  | [] => []
  | c :: cs => if c = '/' then cs :: slashTails cs else slashTails cs

/-- Whether the pieces match the whole text. -/
def accepts : List Piece → Text → Bool
  | [], t => t.isEmpty
  | .exactly c :: ps, t =>
    match t with
    | [] => false
    | d :: rest => d == c && accepts ps rest
  | .anyOne :: ps, t =>
    match t with
    | [] => false
    | d :: rest => d != '/' && accepts ps rest
  | .oneOf negated members :: ps, t =>
    match t with
    | [] => false
    | d :: rest => (members.any (·.lists d) != negated) && accepts ps rest
  | .star :: ps, t => (segmentTails t).any fun rest => accepts ps rest
  | .deepStar :: ps, t => (tails t).any fun rest => accepts ps rest
  | .folders :: ps, t => accepts ps t || (slashTails t).any fun rest => accepts ps rest

/-! ## Paths and patterns as they are written -/

/-- Backslashes read as slashes. -/
def forwardSlashes (t : Text) : Text := t.map fun c => if c = '\\' then '/' else c

/-- Text without `./` in front, however often it stands there. -/
def dropDots : Text → Text
  | '.' :: '/' :: rest => dropDots rest
  | t => t

/-- The form in which patterns and paths are compared: forward slashes, no leading `./`, then no
leading slash. -/
def normalize (t : Text) : Text := (dropDots (forwardSlashes t)).dropWhile (· == '/')

/-- A pattern that ends in a slash means everything below. -/
def completed (pattern : Text) : Text :=
  if pattern.endsWith ['/'] then pattern ++ ['*', '*'] else pattern

/-- Whether a path matches a pattern. A pattern without a slash may also match the path's last
segment alone; the empty pattern matches nothing. -/
def globMatch (pattern path : Text) : Except BadGlob Bool :=
  let pattern := completed (normalize pattern)
  let path := normalize path
  if pattern = [] then .ok false
  else
    (pieces pattern).map fun ps =>
      accepts ps path || (!pattern.contains '/' && accepts ps (Text.afterLast '/' path))

end DiffGate.Ignore
