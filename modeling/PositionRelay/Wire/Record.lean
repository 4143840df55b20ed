import PositionRelay.Wire.Word

/-!
# Records on the wire

A record takes 28 bytes: the identifier as a 32-bit word and the bits of three doubles, all
big-endian. Every string of 28 bytes is the encoding of exactly one record.
-/
namespace PositionRelay.Wire

def recordLength : Nat := 28

def encodeRecord (r : Record) : Bytes :=
  bigEndian 4 r.id.toUInt32.toNat ++ bigEndian 8 r.x.bits.toNat ++
    bigEndian 8 r.y.bits.toNat ++ bigEndian 8 r.delta.bits.toNat

/-- The double whose eight bytes start at `offset`. -/
def doubleAt (bytes : Bytes) (offset : Nat) : Binary64 :=
  ⟨UInt64.ofNat (wordValue ((bytes.drop offset).take 8))⟩

/-- The record that the first 28 bytes encode. -/
def decodeRecord (bytes : Bytes) : Record where
  id := (UInt32.ofNat (wordValue (bytes.take 4))).toInt32
  x := doubleAt bytes 4
  y := doubleAt bytes 12
  delta := doubleAt bytes 20

def encodeRecords (records : Batch) : Bytes := records.flatMap encodeRecord

/-- The first `n` records that bytes encode. -/
def decodeRecords : Nat → Bytes → Batch
  | 0, _ => []
  | n + 1, bytes => decodeRecord bytes :: decodeRecords n (bytes.drop recordLength)

@[simp] theorem encodeRecord_length (r : Record) : (encodeRecord r).length = recordLength := by
  simp [encodeRecord, recordLength]

@[simp] theorem encodeRecords_length (records : Batch) :
    (encodeRecords records).length = recordLength * records.length := by
  induction records with
  | nil => rfl
  | cons r records ih =>
      simp only [encodeRecords, List.flatMap_cons, List.length_append] at ih ⊢
      rw [ih, encodeRecord_length, List.length_cons, Nat.mul_succ, Nat.add_comm]

@[simp] theorem decodeRecords_length (n : Nat) (bytes : Bytes) :
    (decodeRecords n bytes).length = n := by
  induction n generalizing bytes with
  | zero => rfl
  | succ n ih => simp [decodeRecords, ih]

end PositionRelay.Wire
