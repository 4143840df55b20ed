import PositionRelay.Binary64.Basic

/-!
# Decimal text of doubles

`shortest` finds the coarsest decimal grid with a point that reads back as the same double, and on
it the point nearest to the exact value. The reals that read back form an interval around the
double, its ends included exactly when the significand is even. All comparisons are between
natural numbers.

Two formats write the digits. `plain` is positional for every exponent and writes whole numbers
without a point; error messages use it. `precise` always shows a point or an exponent; it is the
form in which a terminated program reports its error.
-/
namespace PositionRelay.Binary64

/-- The number `digits * 10 ^ exponent`. -/
structure Decimal where
  digits : Nat
  exponent : Int
deriving DecidableEq, Repr

/-- A double and the interval of reals that read back as it, over the common denominator `den`. -/
structure ReadingInterval where
  low : Nat
  value : Nat
  high : Nat
  den : Nat
  closed : Bool
deriving DecidableEq, Repr

/-- The half-way points to both neighbours; below a power of two the lower one is nearer. -/
def readingInterval (v : Binary64) : ReadingInterval :=
  let below := if v.fractionField = 0 ∧ 1 < v.exponentField then 1 else 2
  let quarter := v.scale - 2
  let unit := Nat.pow 2 quarter.toNat
  { low := (4 * v.significand - below) * unit
    value := 4 * v.significand * unit
    high := (4 * v.significand + 2) * unit
    den := Nat.pow 2 (-quarter).toNat
    closed := v.significand % 2 = 0 }

def ReadingInterval.holds (i : ReadingInterval) (x widen : Nat) : Bool :=
  if i.closed then i.low * widen ≤ x && x ≤ i.high * widen
  else i.low * widen < x && x < i.high * widen

/-- The multiple of `10 ^ k` that reads back, if there is one: of two the nearer, of two equally
near the larger. -/
def ReadingInterval.onGrid? (i : ReadingInterval) (k : Int) : Option Decimal :=
  let widen := Nat.pow 10 (-k).toNat
  let cell := i.den * Nat.pow 10 k.toNat
  let exact := i.value * widen
  let d := exact / cell
  let down := i.holds (d * cell) widen
  let up := i.holds ((d + 1) * cell) widen
  if down && up then
    some ⟨if exact - d * cell < (d + 1) * cell - exact then d else d + 1, k⟩
  else if down then some ⟨d, k⟩
  else if up then some ⟨d + 1, k⟩
  else none

/-- Refines the grid one decimal place at a time. -/
def ReadingInterval.search (i : ReadingInterval) : Nat → Int → Decimal
  | 0, k => ⟨0, k⟩
  | fuel + 1, k =>
      match i.onGrid? k with
      | some d => d
      | none => i.search fuel (k - 1)

/-- The fewest digits that read back as the magnitude of a finite double other than zero. -/
def shortest (v : Binary64) : Decimal :=
  let i := v.readingInterval
  i.search 700 (Nat.log2 (i.value / i.den) / 3 + 1)

/-- What a format decides beyond the digits. -/
structure NumberFormat where
  /-- Whole numbers end in a point and a zero. -/
  wholePoint : Bool
  /-- Powers of ten of the leading digit that are written without an exponent. -/
  positional : Int → Bool

def NumberFormat.plain : NumberFormat := ⟨false, fun _ => true⟩

def NumberFormat.precise : NumberFormat := ⟨true, fun e => -5 < e && e < 16⟩

def zeros (n : Nat) : String := String.ofList (List.replicate n '0')

/-- The digits with a point after the first `point` of them, zeros filling the gap. -/
def NumberFormat.place (f : NumberFormat) (digits : List Char) (point : Int) : String :=
  let whole := if f.wholePoint then ".0" else ""
  if point ≤ 0 then
    "0." ++ zeros (-point).toNat ++ String.ofList digits
  else if digits.length ≤ point.toNat then
    String.ofList digits ++ zeros (point.toNat - digits.length) ++ whole
  else
    String.ofList (digits.take point.toNat) ++ "." ++ String.ofList (digits.drop point.toNat)

def NumberFormat.scientific (digits : List Char) (lead : Int) : String :=
  let tail := digits.drop 1
  let fraction := if tail.isEmpty then "" else "." ++ String.ofList tail
  String.ofList (digits.take 1) ++ fraction ++ "e" ++ toString lead

def NumberFormat.magnitude (f : NumberFormat) (v : Binary64) : String :=
  if v.magnitude = 0 then (if f.wholePoint then "0.0" else "0")
  else
    let d := v.shortest
    let digits := Nat.toDigits 10 d.digits
    let point : Int := digits.length + d.exponent
    if f.positional (point - 1) then f.place digits point
    else NumberFormat.scientific digits (point - 1)

/-- The text of a double; only a NaN is written without its sign. -/
def NumberFormat.write (f : NumberFormat) (v : Binary64) : String :=
  if v.isNaN then "NaN"
  else
    let body := if v.isInfinite then "inf" else f.magnitude v
    if v.isNegative then "-" ++ body else body

/-- The text of a double in messages. -/
def plain (v : Binary64) : String := NumberFormat.plain.write v

/-- The text of a double in a final error report. -/
def precise (v : Binary64) : String := NumberFormat.precise.write v

end PositionRelay.Binary64
