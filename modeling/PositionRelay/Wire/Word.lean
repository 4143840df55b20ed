import PositionRelay.Record

/-!
# Big-endian words

`bigEndian width n` writes the last `width` base-256 digits of `n`, most significant first, and
`wordValue` reads a string of bytes as a number. Each undoes the other on words of that width.
-/
namespace PositionRelay

abbrev Bytes := List UInt8

namespace Wire

/-- The number that bytes write in base 256, most significant first. -/
def wordValue (bytes : Bytes) : Nat := bytes.foldl (fun n b => 256 * n + b.toNat) 0

/-- The last `width` base-256 digits of a number. -/
def bigEndian : Nat → Nat → Bytes
  | 0, _ => []
  | width + 1, n => UInt8.ofNat (n / Nat.pow 256 width) :: bigEndian width n

@[simp] theorem bigEndian_length (width n : Nat) : (bigEndian width n).length = width := by
  induction width with
  | zero => rfl
  | succ width ih => simp [bigEndian, ih]

end Wire
end PositionRelay
