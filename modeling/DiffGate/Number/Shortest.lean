import DiffGate.Text
import DiffGate.Number.Binary64

/-!
# The shortest decimal of a double

A double is written with the fewest significant digits that read back as the same double, and of
those the decimal nearest to it. With `v = m · 2^q` the reals that read back as `v` form an interval
around it, its ends included exactly when `m` is even. For one digit, two digits and so on up to
seventeen, the two neighbours of `v` on the grid of decimals of that many digits are tested against
the interval in exact arithmetic; the first grid with a hit wins.

The written form is positional while the leading digit's place is at least 10^-4 and below 10^16,
and scientific outside. A whole number keeps one zero after the point.
-/

set_option autoImplicit false

namespace DiffGate.Binary64

/-- The interval of reals that read back as `m · 2^q`, in units of `2^(q - 2)`: its low end, the
value, its high end. The lower neighbour of a power of two is half as far away. -/
def roundingInterval (m : Nat) (q : Int) : Nat × Nat × Nat :=
  let low := if m = twoTo 52 ∧ leastExponent < q then 4 * m - 1 else 4 * m - 2
  (low, 4 * m, 4 * m + 2)

/-- A decimal point moved so that `a · 2^e` and `10^k` are whole: the numerator of `a · 2^e / 10^k`
and its denominator. -/
def gridFraction (a : Nat) (e k : Int) : Nat × Nat :=
  let num := if e < 0 then a else a * twoTo e.natAbs
  let den := if e < 0 then twoTo e.natAbs else 1
  if k < 0 then (num * tenTo k.natAbs, den) else (num, den * tenTo k.natAbs)

/-- The multiple of `10^k` nearest to `m · 2^q` among its two neighbours on that grid that read back
as it, if there is one. A tie goes to the even multiple. -/
def onGrid? (m : Nat) (q k : Int) : Option Nat :=
  let (low, mid, high) := roundingInterval m q
  let (lowN, den) := gridFraction low (q - 2) k
  let (midN, _) := gridFraction mid (q - 2) k
  let (highN, _) := gridFraction high (q - 2) k
  let inside (n : Nat) : Bool :=
    if m % 2 = 0 then lowN ≤ n * den && n * den ≤ highN else lowN < n * den && n * den < highN
  let below := midN / den
  let above := below + 1
  let rest := midN % den
  let belowNearer := 2 * rest < den || (2 * rest == den && below % 2 == 0)
  match inside below, inside above with
  | true, true => some (if belowNearer then below else above)
  | true, false => some below
  | false, true => some above
  | false, false => none

/-- The decimal place of the leading digit of `m · 2^q`: the greatest `p` with `10^p` at most the
value, searched upward from `p`. -/
def leadingPlace (fuel : Nat) (m : Nat) (q p : Int) : Int :=
  match fuel with
  | 0 => p
  | fuel + 1 =>
    let (num, den) := gridFraction m q (p + 1)
    if den ≤ num then leadingPlace fuel m q (p + 1) else p

/-- The first grid with a hit, from coarse to fine. -/
def firstHit (grids : Nat) (m : Nat) (q k : Int) : Nat × Int :=
  match grids with
  | 0 => ((onGrid? m q k).getD 0, k)
  | grids + 1 =>
    match onGrid? m q k with
    | some n => (n, k)
    | none => firstHit grids m q (k - 1)

/-- The digits of the shortest decimal of `m · 2^q`, for `m` above zero, and the place of the first:
digits `d₁ d₂ …` at place `p` stand for `d₁.d₂… · 10^p`. -/
def shortest (m : Nat) (q : Int) : Text × Int :=
  let estimate : Int := (((Nat.log2 m : Int) + q) * 30103) / 100000 - 2
  let place := leadingPlace 8 m q estimate
  let (n, k) := firstHit 17 m q place
  let digits := Text.ofNat n
  let place := k + ((digits.length : Int) - 1)
  let trimmed := Text.dropEndWhile (· == '0') digits
  (trimmed, place)

/-- The place below which a small number is written scientifically. -/
def leastPositionalPlace : Int := -4

/-- The place from which a large number is written scientifically. -/
def scientificPlace : Int := 16

/-- A digit string at a place, written with a point or with an exponent of at least two digits. -/
def writeDigits (digits : Text) (place : Int) : Text :=
  if leastPositionalPlace ≤ place ∧ place < scientificPlace then
    if place < 0 then "0.".toList ++ List.replicate (place.natAbs - 1) '0' ++ digits
    else
      let whole := place.natAbs + 1
      let padded := digits ++ List.replicate (whole - digits.length) '0'
      let fraction := padded.drop whole
      padded.take whole ++ '.' :: (if fraction.isEmpty then ['0'] else fraction)
  else
    let mantissa :=
      match digits with
      | [] => ['0']
      | [d] => [d]
      | d :: ds => d :: '.' :: ds
    mantissa ++ 'e' :: (if place < 0 then '-' else '+') ::
      Text.padLeft '0' 2 (Text.ofNat place.natAbs)

/-- The written form of a double. -/
def text : Binary64 → Text
  | .nan => "nan".toList
  | .infinite negative => (if negative then "-inf" else "inf").toList
  | .finite negative m q =>
    let size :=
      if m = 0 then "0.0".toList
      else
        let (digits, place) := shortest m q
        writeDigits digits place
    if negative then '-' :: size else size

end DiffGate.Binary64
