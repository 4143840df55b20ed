import PositionRelay.Binary64.Basic

/-!
# Rounding exact values to doubles

`Binary64.ofRatio` is the double nearest to a quotient of natural numbers, a tie going to the even
significand, with gradual underflow and overflow to infinity. Two functions of the relay rest on
it: reading a decimal number, and the distance `hypot` between two positions.

The distance is computed from the exact sum of squares, so neither square can overflow or vanish
on the way. An integer square root with more than two spare bits, marked when it is not exact,
rounds to the same double as the real root.
-/
namespace PositionRelay.Binary64

/-- Nearest natural number to `num / den`, a half going to the even neighbour. -/
def divNearest (num den : Nat) : Nat :=
  let quotient := num / den
  let twice := 2 * (num % den)
  if twice < den then quotient
  else if den < twice then quotient + 1
  else if quotient % 2 = 0 then quotient else quotient + 1

/-- The quotient `num / (den * 2 ^ e)` as numerator and denominator. -/
def scaleDown (num den : Nat) (e : Int) : Nat × Nat :=
  if 0 ≤ e then (num, den * Nat.pow 2 e.toNat) else (num * Nat.pow 2 (-e).toNat, den)

/-- Exponent of the last significand bit of the double nearest to `num / den`. -/
def lastPlace (num den : Nat) : Int :=
  let guess : Int := (Nat.log2 num : Int) - Nat.log2 den - 53
  let (n, d) := scaleDown num den guess
  let e := if n / d < Nat.pow 2 53 then guess else guess + 1
  max e (-1074)

/-- The double nearest to `num / den`; a quotient with no positive denominator counts as zero. -/
def ofRatio (num den : Nat) : Binary64 :=
  if num = 0 ∨ den = 0 then zero else
    let e := lastPlace num den
    let (n, d) := scaleDown num den e
    let bits := (e + 1074).toNat * Nat.pow 2 52 + divNearest n d
    if bits < 0x7ff0000000000000 then ⟨UInt64.ofNat bits⟩ else infinity

/-- Newton's iteration for the integer square root, downwards from a value not below it. -/
def sqrtFrom : Nat → Nat → Nat → Nat
  | 0, _, x => x
  | fuel + 1, n, x =>
      let y := (x + n / x) / 2
      if y < x then sqrtFrom fuel n y else x

/-- The largest natural number whose square is at most `n`. -/
def natSqrt (n : Nat) : Nat :=
  if n = 0 then 0 else sqrtFrom (2 * Nat.log2 n + 10) n (Nat.pow 2 (Nat.log2 n / 2 + 1))

/-- The double nearest to the square root of `n * 2 ^ (2 * e)`. -/
def ofSqrt (n : Nat) (e : Int) : Binary64 :=
  if n = 0 then zero else
    let widen : Nat := 60
    let root := natSqrt (n * Nat.pow 2 (2 * widen))
    let marked := 2 * root + (if root * root = n * Nat.pow 2 (2 * widen) then 0 else 1)
    let (num, den) := scaleDown marked 1 ((widen : Int) + 1 - e)
    ofRatio num den

/-- Length of the vector `(dx, dy)`: infinite as soon as one component is, otherwise a NaN as soon
as one component is, otherwise the double nearest to the exact length. -/
def hypot (dx dy : Binary64) : Binary64 :=
  if dx.isInfinite || dy.isInfinite then infinity
  else if dx.isNaN || dy.isNaN then quietNaN
  else
    let e := min dx.scale dy.scale
    let a := dx.significand * Nat.pow 2 (dx.scale - e).toNat
    let b := dy.significand * Nat.pow 2 (dy.scale - e).toNat
    ofSqrt (a * a + b * b) e

end PositionRelay.Binary64
