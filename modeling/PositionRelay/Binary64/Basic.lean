/-!
# Doubles held by their bits

A coordinate travels as the 64 bits of an IEEE 754 double and has to come out with the same bits,
the payload of a NaN included. The bits are therefore the value. Arithmetic goes through `Float`,
which knows one NaN only, so a NaN result is always the quiet one without a payload.
-/
namespace PositionRelay

/-- A double, identified by its bits: two NaNs with different payloads are different values. -/
structure Binary64 where
  bits : UInt64
deriving DecidableEq, Repr, Inhabited

namespace Binary64

def toFloat (v : Binary64) : Float := Float.ofBits v.bits

def ofFloat (f : Float) : Binary64 := ⟨f.toBits⟩

/-- Positive zero, the delta of a record that has not moved. -/
def zero : Binary64 := ⟨0⟩

def add (a b : Binary64) : Binary64 := ofFloat (a.toFloat + b.toFloat)

def sub (a b : Binary64) : Binary64 := ofFloat (a.toFloat - b.toFloat)

def mul (a b : Binary64) : Binary64 := ofFloat (a.toFloat * b.toFloat)

def div (a b : Binary64) : Binary64 := ofFloat (a.toFloat / b.toFloat)

def ofNat (n : Nat) : Binary64 := ofFloat (Float.ofNat n)

/-- All bits but the sign, so that magnitudes compare as numbers. -/
def magnitude (v : Binary64) : Nat := v.bits.toNat % Nat.pow 2 63

def isNegative (v : Binary64) : Bool := Nat.pow 2 63 ≤ v.bits.toNat

def exponentField (v : Binary64) : Nat := v.magnitude / Nat.pow 2 52

def fractionField (v : Binary64) : Nat := v.magnitude % Nat.pow 2 52

def isFinite (v : Binary64) : Bool := v.exponentField < 2047

def isInfinite (v : Binary64) : Bool := v.exponentField == 2047 && v.fractionField == 0

def isNaN (v : Binary64) : Bool := v.exponentField == 2047 && v.fractionField != 0

/-- A finite magnitude is `significand * 2 ^ scale`. -/
def significand (v : Binary64) : Nat :=
  if v.exponentField = 0 then v.fractionField else Nat.pow 2 52 + v.fractionField

def scale (v : Binary64) : Int := (max v.exponentField 1 : Int) - 1075

/-- The value without its sign. -/
def abs (v : Binary64) : Binary64 := ⟨UInt64.ofNat v.magnitude⟩

def infinity : Binary64 := ⟨0x7ff0000000000000⟩

def quietNaN : Binary64 := ⟨0x7ff8000000000000⟩

/-- Equality of numbers: a NaN equals nothing, and both zeros are equal. -/
def same (a b : Binary64) : Bool :=
  !a.isNaN && !b.isNaN && (a == b || (a.magnitude == 0 && b.magnitude == 0))

/-- A number above zero, infinity included. -/
def isPositive (v : Binary64) : Bool := !v.isNaN && !v.isNegative && v.magnitude != 0

/-- Order of two values that are not negative; false as soon as one is a NaN. -/
def nonnegLess (a b : Binary64) : Bool := !a.isNaN && !b.isNaN && a.magnitude < b.magnitude

end Binary64
end PositionRelay
