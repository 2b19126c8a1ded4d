/-!
# Double-precision numbers, exactly

A configuration file or a linter's answer may hold a number with a fraction. Such a number is a
double: a sign, a whole number `m` below 2^53 and an exponent `q`, standing for `m · 2^q`, or an
infinity, or no number at all. Every operation here is exact arithmetic on naturals followed by one
rounding, `Binary64.round`, to the nearest double with ties to the even `m`, so each result can be
computed by hand and by the kernel.
-/

set_option autoImplicit false

namespace DiffGate

/-- A double. -/
inductive Binary64
  /-- `m · 2^q`, negative or not; zero has both signs. -/
  | finite (negative : Bool) (m : Nat) (q : Int)
  | infinite (negative : Bool)
  | nan
  deriving DecidableEq

namespace Binary64

/-- A power of two. -/
def twoTo (n : Nat) : Nat := Nat.pow 2 n

/-- A power of ten. -/
def tenTo (n : Nat) : Nat := Nat.pow 10 n

/-- The exponent of the smallest doubles. -/
def leastExponent : Int := -1074

/-- The greatest exponent of a finite double. -/
def greatestExponent : Int := 971

/-- Zero. -/
def zero (negative : Bool) : Binary64 := .finite negative 0 leastExponent

/-- The quotient rounded to the nearest whole number, a half going to the even neighbour. -/
def roundDiv (num den : Nat) : Nat :=
  let whole := num / den
  let rest := num % den
  if 2 * rest < den then whole
  else if 2 * rest = den then whole + whole % 2
  else whole + 1

/-- The quotient `num / den` scaled by `2^(-q)` and rounded. -/
def scaledDiv (num den : Nat) (q : Int) : Nat :=
  if q ≤ 0 then roundDiv (num * twoTo q.natAbs) den else roundDiv num (den * twoTo q.natAbs)

/-- Whether `num / den` is at least `2^e`. -/
def atLeastPower (num den : Nat) (e : Int) : Bool :=
  if e ≤ 0 then den ≤ num * twoTo e.natAbs else den * twoTo e.natAbs ≤ num

/-- The double nearest to `num / den`. -/
def round (negative : Bool) (num den : Nat) : Binary64 :=
  if num = 0 then zero negative
  else
    let guess : Int := (Nat.log2 num : Int) - (Nat.log2 den : Int)
    let top := if atLeastPower num den guess then guess else guess - 1
    let q := max (top - 52) leastExponent
    let m := scaledDiv num den q
    let (m, q) := if m = twoTo 53 then (twoTo 52, q + 1) else (m, q)
    if greatestExponent < q then .infinite negative else .finite negative m q

/-- The double nearest to `digits · 10^exponent`. The value is far outside the range of doubles when
its decimal size is beyond 400 either way. -/
def ofDecimal (negative : Bool) (digits : Nat) (exponent : Int) : Binary64 :=
  let size := ((Nat.toDigits 10 digits).length : Int) + exponent
  if digits = 0 then zero negative
  else if 400 < size then .infinite negative
  else if size < -400 then zero negative
  else if exponent < 0 then round negative digits (tenTo exponent.natAbs)
  else round negative (digits * tenTo exponent.natAbs) 1

/-- A finite double as a fraction: a signed numerator and a power of two below it. -/
def fraction? : Binary64 → Option (Int × Nat)
  | .finite negative m q =>
    let size : Int := if q < 0 then m else m * twoTo q.natAbs
    some (if negative then -size else size, if q < 0 then twoTo q.natAbs else 1)
  | _ => none

/-- The number with the other sign. -/
def neg : Binary64 → Binary64
  | .finite negative m q => .finite (!negative) m q
  | .infinite negative => .infinite (!negative)
  | .nan => .nan

/-- The double nearest to `x` times a whole number other than zero. -/
def scale (x : Binary64) (n : Nat) : Binary64 :=
  match x with
  | .finite negative m q =>
    if q < 0 then round negative (m * n) (twoTo q.natAbs)
    else round negative (m * n * twoTo q.natAbs) 1
  | other => other

/-- The double nearest to the sum of two numbers that are not both infinite. -/
def add (x y : Binary64) : Binary64 :=
  match x.fraction?, y.fraction? with
  | some (a, b), some (c, d) =>
    let sum := a * d + c * b
    if sum = 0 then zero (a = 0 && c = 0 && x == zero true && y == zero true)
    else round (decide (sum < 0)) sum.natAbs (b * d)
  | some _, none => y
  | none, _ => x

/-- Whether the double is zero, of either sign. -/
def isZero : Binary64 → Bool
  | .finite _ m _ => m == 0
  | _ => false

/-- Whether two doubles are the same number: both zeros are, and nothing equals `nan`. -/
def sameNumber (x y : Binary64) : Bool :=
  match x, y with
  | .infinite a, .infinite b => a == b
  | .nan, _ => false
  | _, .nan => false
  | x, y =>
    match x.fraction?, y.fraction? with
    | some (a, b), some (c, d) => a * d == c * b
    | _, _ => false

/-- Whether one double is less than another; `nan` is neither less nor greater than anything. -/
def less (x y : Binary64) : Bool :=
  match x, y with
  | .nan, _ => false
  | _, .nan => false
  | .infinite a, .infinite b => a && !b
  | .infinite a, .finite .. => a
  | .finite .., .infinite b => !b
  | x, y =>
    match x.fraction?, y.fraction? with
    | some (a, b), some (c, d) => a * d < c * b
    | _, _ => false

/-- The integer that a double is, if it is one. -/
def toInt? (x : Binary64) : Option Int :=
  match x.fraction? with
  | some (a, b) => if a % b = 0 then some (a / b) else none
  | none => none

end Binary64

end DiffGate
