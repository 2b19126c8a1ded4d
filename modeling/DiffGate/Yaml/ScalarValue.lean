import DiffGate.Datum
import DiffGate.Fault
import DiffGate.Text.Blank
import DiffGate.Yaml.Tag

/-!
# The values of scalars

What a scalar of a given kind stands for. A plain scalar has its kind because it is written that
way, and then nearly always has a value; a kind may also be asked for by a tag, and then the text
need not fit it. A number that cannot be read and a date that the calendar does not have are faults.
-/

set_option autoImplicit false

namespace DiffGate.Yaml

/-- Text without underscores, which may divide the digits of a number. -/
def withoutUnderscores (t : Text) : Text := t.filter (· != '_')

/-- A sign in front and the rest: whether it is a minus. -/
def sign (t : Text) : Bool × Text := (t.head? == some '-', withoutSign t)

/-! ## Whole numbers -/

/-- A digit of any base up to sixteen, of any script where it is a decimal one. -/
def digit? (c : Char) : Option Nat := (Text.digitValue? c).or (Text.hexValue? c)

/-- The letter that tells the base of a number behind a leading zero. -/
def baseLetter? : Nat → Option Char
  | 2 => some 'b'
  | 8 => some 'o'
  | 16 => some 'x'
  | _ => none

/-- Digits in a base without the zero and the letter that may tell the base again. -/
def withoutBase (base : Nat) (t : Text) : Text :=
  match t with
  | zero :: letter :: digits =>
    if Text.digitValue? zero = some 0 ∧ baseLetter? base = some letter.toLower then digits else t
  | _ => t

/-- Digits in a base, with blanks around and a sign in front allowed. Only decimal digits are
limited in number. -/
def readWhole (base : Nat) (t : Text) : Except Fault Int :=
  let (negative, signless) := sign (Text.strip t)
  let digits := withoutBase base signless
  if digits = [] ∨ !digits.all (fun c => (digit? c).any (· < base)) then .error .notANumber
  else if base = 10 ∧ Text.digitLimit < digits.length then .error .overlongNumber
  else
    let n : Int := digits.foldl (fun n c => base * n + (digit? c).getD 0) 0
    .ok (if negative then -n else n)

/-- Numbers in units of sixty: the last counts once, the one before sixty times, and so on. -/
def sixties (parts : List Int) : Int := parts.foldl (fun n part => 60 * n + part) 0

/-- The whole number that a text writes. -/
def intValue (t : Text) : Except Fault Int := do
  let t := withoutUnderscores t
  if t = [] then throw .emptyNumber
  let (negative, t) := sign t
  let n ←
    match t with
    | [] => .error .emptyNumber
    | ['0'] => .ok 0
    | '0' :: 'b' :: digits => readWhole 2 digits
    | '0' :: 'x' :: digits => readWhole 16 digits
    | '0' :: _ => readWhole 8 t
    | _ =>
      if t.contains ':' then ((Text.split ':' t).mapM (readWhole 10)).map sixties
      else readWhole 10 t
  return if negative then -n else n

/-! ## Numbers with a fraction -/

/-- The number that digits, a point, digits and an exponent write. -/
def decimal? (negative : Bool) (t : Text) : Option Binary64 :=
  let (whole, t) := t.span Text.isDecimal
  let (places, t) :=
    match t with
    | '.' :: rest => rest.span Text.isDecimal
    | _ => ([], t)
  if whole = [] ∧ places = [] then none
  else
    let value := Text.digitsValue (whole ++ places)
    let scale : Int := -(places.length : Int)
    match t with
    | [] => some (.ofDecimal negative value scale)
    | e :: rest =>
      let (down, digits) := sign rest
      if e ≠ 'e' ∨ digits = [] ∨ !digits.all Text.isDecimal then none
      else
        let power : Int := Text.digitsValue digits
        some (.ofDecimal negative value (scale + if down then -power else power))

/-- A number with a fraction, or one of the words for the numbers that have none, with blanks around
and a sign in front allowed. -/
def readReal (t : Text) : Except Fault Binary64 :=
  let (negative, t) := sign (Text.strip t)
  if t = "inf".toList ∨ t = "infinity".toList then .ok (.infinite negative)
  else if t = "nan".toList then .ok .nan
  else
    match decimal? negative t with
    | some x => .ok x
    | none => .error .notANumber

/-- Numbers in units of sixty, the last first. -/
def realSixties (unit : Nat) (sum : Binary64) : List Binary64 → Binary64
  | [] => sum
  | part :: parts => realSixties (unit * 60) (sum.add (part.scale unit)) parts

/-- The number with a fraction that a text writes. -/
def realValue (t : Text) : Except Fault Binary64 := do
  let t := lower (withoutUnderscores t)
  if t = [] then throw .emptyNumber
  let (negative, t) := sign t
  let x ←
    if t = ".inf".toList then .ok (.infinite false)
    else if t = ".nan".toList then .ok .nan
    else if t.contains ':' then
      ((Text.split ':' t).mapM readReal).map fun parts =>
        realSixties 1 (.zero false) parts.reverse
    else readReal t
  return if negative then x.neg else x

/-! ## Truth values, dates and bytes -/

/-- The truth value that a word stands for. -/
def boolValue (t : Text) : Except Fault Bool :=
  match truth? t with
  | some b => .ok b
  | none => .error .notATruthValue

/-- The microseconds of a fraction's digits; further digits are cut off. -/
def microseconds (digits : Text) : Nat :=
  let kept := digits.take 6
  Text.digitsValue (kept ++ List.replicate (6 - kept.length) '0')

/-- The minutes of a zone. -/
def zoneMinutes : Option (Bool × Text × Text) → Int
  | none => 0
  | some (west, hours, minutes) =>
    let n : Int := Text.digitsValue hours * 60 + Text.digitsValue minutes
    if west then -n else n

/-- The date or moment that a text writes. -/
def stampValue (t : Text) : Except Fault Datum :=
  match stamp? (withoutFinalFeed t) with
  | none => .error .notADate
  | some s =>
    let n := Text.digitsValue
    let date : Date := ⟨n s.year, n s.month, n s.day⟩
    match s.time with
    | none => if date.isValid then .ok (.date date) else .error .noSuchDate
    | some (hour, minute, second, fraction) =>
      let m : Moment :=
        ⟨date, n hour, n minute, n second, microseconds fraction, s.zone.map zoneMinutes⟩
      if m.isValid then .ok (.moment m) else .error .noSuchDate

/-- The value of a character of base 64. -/
def sixBits? (c : Char) : Option Nat :=
  if 'A' ≤ c ∧ c ≤ 'Z' then some (c.toNat - 65)
  else if 'a' ≤ c ∧ c ≤ 'z' then some (c.toNat - 71)
  else if '0' ≤ c ∧ c ≤ '9' then some (c.toNat + 4)
  else if c = '+' then some 62
  else if c = '/' then some 63
  else none

/-- Why a text in base 64 is not read. -/
inductive BadBase64
  | badLength (count : Nat)
  | badPadding
  deriving DecidableEq

/-- The bytes of a text in base 64 from inside a group of four: `held` characters of the group are
read, `bits` are those not yet written, `pads` padding marks have come in a row, and `count` is the
number of characters that counted. Characters that are none of base 64 are passed over. -/
def base64From (held bits pads count : Nat) : Text → Except BadBase64 (List UInt8)
  | [] =>
    if held = 0 then .ok [] else if held = 1 then .error (.badLength count) else .error .badPadding
  | c :: cs =>
    if c = '=' then
      if 2 ≤ held ∧ 4 ≤ held + pads + 1 then .ok []
      else base64From held bits (if 2 ≤ held then pads + 1 else pads) count cs
    else
      match sixBits? c with
      | none => base64From held bits pads count cs
      | some n =>
        let put (byte rest held : Nat) : Except BadBase64 (List UInt8) :=
          (base64From held rest 0 (count + 1) cs).map (.ofNat byte :: ·)
        match held with
        | 0 => base64From 1 n 0 (count + 1) cs
        | 1 => put (bits * 4 + n / 16) (n % 16) 2
        | 2 => put (bits * 16 + n / 4) (n % 4) 3
        | _ => put (bits * 64 + n) 0 0

/-- The bytes of a text in base 64. -/
def base64 (t : Text) : Except BadBase64 (List UInt8) := base64From 0 0 0 0 t

end DiffGate.Yaml
