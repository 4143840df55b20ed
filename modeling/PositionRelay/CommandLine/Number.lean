/-!
# Reading whole numbers from text

A whole number is an optional sign and decimal digits, read from the left. The first digit that does
not fit the type, or the first character that is no digit, settles the error. A minus sign counts as
no digit where negative numbers are not allowed, and a sign alone is no number.
-/
namespace PositionRelay.CommandLine

inductive NumberError where
  | empty
  | invalidDigit
  | tooLarge
  | tooSmall
deriving DecidableEq, Repr

def NumberError.message : NumberError → String
  | .empty => "cannot parse integer from empty string"
  | .invalidDigit => "invalid digit found in string"
  | .tooLarge => "number too large to fit in target type"
  | .tooSmall => "number too small to fit in target type"

/-- Digits of a number up to `limit`; `beyond` is the error past it. -/
def readDigits (limit : Nat) (beyond : NumberError) : Nat → List Char → Except NumberError Nat
  | n, [] => .ok n
  | n, c :: rest =>
      if !c.isDigit then .error .invalidDigit
      else
        let n := 10 * n + (c.toNat - '0'.toNat)
        if limit < n then .error beyond else readDigits limit beyond n rest

/-- At least one digit. -/
def readMagnitude (limit : Nat) (beyond : NumberError) (cs : List Char) : Except NumberError Nat :=
  if cs.isEmpty then .error .invalidDigit else readDigits limit beyond 0 cs

/-- An unsigned 64-bit number. -/
def readWord (text : String) : Except NumberError Nat :=
  match text.toList with
  | [] => .error .empty
  | '+' :: rest => readMagnitude (Nat.pow 2 64 - 1) .tooLarge rest
  | cs => readMagnitude (Nat.pow 2 64 - 1) .tooLarge cs

/-- A signed 64-bit number. -/
def readSigned (text : String) : Except NumberError Int :=
  match text.toList with
  | [] => .error .empty
  | '-' :: rest => (readMagnitude (Nat.pow 2 63) .tooSmall rest).map fun n => -(n : Int)
  | '+' :: rest => (readMagnitude (Nat.pow 2 63 - 1) .tooLarge rest).map Int.ofNat
  | cs => (readMagnitude (Nat.pow 2 63 - 1) .tooLarge cs).map Int.ofNat

end PositionRelay.CommandLine
