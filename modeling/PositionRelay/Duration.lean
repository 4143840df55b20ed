/-!
# Durations

A time limit counts nanoseconds. In a message it is written in the largest unit that fills it, with
a fraction that has no trailing zeros.
-/
namespace PositionRelay

structure Duration where
  nanoseconds : Nat
deriving DecidableEq, Repr, Inhabited

namespace Duration

def zero : Duration := ⟨0⟩

def ofSeconds (s : Nat) : Duration := ⟨s * 1000000000⟩

def ofMilliseconds (ms : Nat) : Duration := ⟨ms * 1000000⟩

def ofMicroseconds (us : Nat) : Duration := ⟨us * 1000⟩

/-- Whole seconds and nanoseconds together; the nanoseconds may exceed a second. -/
def ofParts (s ns : Nat) : Duration := ⟨s * 1000000000 + ns⟩

def seconds (d : Duration) : Nat := d.nanoseconds / 1000000000

def subsecond (d : Duration) : Nat := d.nanoseconds % 1000000000

/-- Digits of the fraction `part / 10 ^ places`, without trailing zeros. -/
def fractionDigits (part places : Nat) : List Char :=
  let digits := Nat.toDigits 10 part
  let padded := List.replicate (places - digits.length) '0' ++ digits
  (padded.reverse.dropWhile (· == '0')).reverse

def inUnit (d : Duration) (places : Nat) (unit : String) : String :=
  let part := d.nanoseconds % Nat.pow 10 places
  let fraction := if part = 0 then "" else "." ++ String.ofList (fractionDigits part places)
  toString (d.nanoseconds / Nat.pow 10 places) ++ fraction ++ unit

/-- The text of a duration, such as `5s`, `1.5ms` or `0ns`. -/
def text (d : Duration) : String :=
  if Nat.pow 10 9 ≤ d.nanoseconds then d.inUnit 9 "s"
  else if Nat.pow 10 6 ≤ d.nanoseconds then d.inUnit 6 "ms"
  else if Nat.pow 10 3 ≤ d.nanoseconds then d.inUnit 3 "µs"
  else d.inUnit 0 "ns"

end Duration
end PositionRelay
