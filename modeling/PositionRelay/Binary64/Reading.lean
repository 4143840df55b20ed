import PositionRelay.Binary64.Rounding

/-!
# Reading doubles from text

A number is an optional sign followed by `inf`, `infinity` or `nan` in any case, or by decimal
digits with at most one point, at least one digit, and an optional exponent. Nothing may follow,
and no blanks or separators are allowed. The result is the double nearest to the number written.
-/
namespace PositionRelay.Binary64

inductive ReadError where
  | empty
  | invalid
deriving DecidableEq, Repr

def ReadError.message : ReadError → String
  | .empty => "cannot parse float from empty string"
  | .invalid => "invalid float literal"

def digitValue (c : Char) : Nat := c.toNat - '0'.toNat

/-- The number that decimal digits write, continuing from `acc`. -/
def digitsValue (acc : Nat) (cs : List Char) : Nat :=
  cs.foldl (fun n c => 10 * n + digitValue c) acc

/-- A sign in front of a text; without one the text is not negative. -/
def takeSign : List Char → Bool × List Char
  | '-' :: rest => (true, rest)
  | '+' :: rest => (false, rest)
  | cs => (false, cs)

/-- An exponent mark with a signed number of at least one digit, or nothing at all. -/
def readExponent? : List Char → Option Int
  | [] => some 0
  | c :: rest =>
      if c = 'e' ∨ c = 'E' then
        let (negative, digits) := takeSign rest
        if digits.isEmpty || !digits.all Char.isDigit then none
        else
          let n : Int := digitsValue 0 digits
          some (if negative then -n else n)
      else none

/-- The double nearest to `digits * 10 ^ exponent`. Numbers far outside the range are settled by
their leading digit, without a large power of ten. -/
def ofDecimal (digits : Nat) (exponent : Int) : Binary64 :=
  let lead := (Nat.toDigits 10 digits).length + exponent
  if digits = 0 then zero
  else if 400 < lead then infinity
  else if lead < -400 then zero
  else ofRatio (digits * Nat.pow 10 exponent.toNat) (Nat.pow 10 (-exponent).toNat)

/-- Digits, an optional point with more digits, and an optional exponent. -/
def readDecimal? (cs : List Char) : Option Binary64 :=
  let whole := cs.takeWhile Char.isDigit
  let rest := cs.drop whole.length
  let (fraction, rest) := match rest with
    | '.' :: tail =>
        let fraction := tail.takeWhile Char.isDigit
        (fraction, tail.drop fraction.length)
    | _ => ([], rest)
  if whole.isEmpty && fraction.isEmpty then none
  else
    (readExponent? rest).map fun e =>
      ofDecimal (digitsValue (digitsValue 0 whole) fraction) (e - fraction.length)

def readMagnitude? (cs : List Char) : Option Binary64 :=
  let word := String.ofList (cs.map Char.toLower)
  if word = "inf" ∨ word = "infinity" then some infinity
  else if word = "nan" then some quietNaN
  else readDecimal? cs

def negate (v : Binary64) : Binary64 := ⟨v.bits ^^^ 0x8000000000000000⟩

/-- The double that a text writes. -/
def read (text : String) : Except ReadError Binary64 :=
  if text.isEmpty then .error .empty
  else
    let (negative, rest) := takeSign text.toList
    match readMagnitude? rest with
    | some v => .ok (if negative then negate v else v)
    | none => .error .invalid

end PositionRelay.Binary64
