import Mathlib.Tactic.Ring
import PositionRelay.Wire.Frame

/-!
# Words and records are written one way

A word of some width and a string of that many bytes are the same thing (`wordValue_bigEndian`,
`bigEndian_wordValue`), and so are a record and a string of 28 bytes (`decodeRecord_encodeRecord`,
`encodeRecord_decodeRecord`). Hence a list of records and a string of a multiple of 28 bytes are the
same thing as well, once the number of records is known.

Nothing here looks at what the doubles of a record mean: their bits go through unchanged, those of
NaNs included.
-/
namespace PositionRelay.Wire

theorem wordValue_cons (b : UInt8) (bytes : Bytes) :
    wordValue (b :: bytes) = b.toNat * 256 ^ bytes.length + wordValue bytes := by
  have hfold : ∀ n, bytes.foldl (fun n b => 256 * n + b.toNat) n =
      n * 256 ^ bytes.length + wordValue bytes := by
    induction bytes with
    | nil => simp [wordValue]
    | cons c bytes ih =>
        intro n
        rw [List.foldl_cons, wordValue, List.foldl_cons, ih, ih (256 * 0 + c.toNat),
          List.length_cons, Nat.pow_succ]
        ring
  rw [wordValue, List.foldl_cons, hfold, Nat.mul_zero, Nat.zero_add]

theorem wordValue_lt (bytes : Bytes) : wordValue bytes < 256 ^ bytes.length := by
  induction bytes with
  | nil => simp [wordValue]
  | cons b bytes ih =>
      have hb : b.toNat < 256 := b.toNat_lt
      have hhead : (b.toNat + 1) * 256 ^ bytes.length ≤ 256 * 256 ^ bytes.length :=
        Nat.mul_le_mul_right _ hb
      rw [wordValue_cons, List.length_cons, Nat.pow_succ']
      rw [Nat.add_mul] at hhead
      omega

/-- Writing a number keeps what fits the width. -/
theorem wordValue_bigEndian (width n : Nat) : wordValue (bigEndian width n) = n % 256 ^ width := by
  induction width with
  | zero => simp [bigEndian, wordValue, Nat.mod_one]
  | succ width ih =>
      have hdigit : (UInt8.ofNat (n / Nat.pow 256 width)).toNat = n / 256 ^ width % 256 := by
        rw [UInt8.toNat_ofNat']
        rfl
      rw [bigEndian, wordValue_cons, bigEndian_length, ih, hdigit, Nat.mod_pow_succ]
      ring

/-- Strings of one length are told apart by their values. -/
theorem eq_of_wordValue_eq {a b : Bytes} (hlength : a.length = b.length)
    (h : wordValue a = wordValue b) : a = b := by
  induction a generalizing b with
  | nil => exact (List.eq_nil_of_length_eq_zero hlength.symm).symm
  | cons x a ih =>
      cases b with
      | nil => cases hlength
      | cons y b =>
          have hl : a.length = b.length := Nat.succ.inj hlength
          rw [wordValue_cons, wordValue_cons, hl] at h
          have ha := wordValue_lt a
          have hb := wordValue_lt b
          rw [hl] at ha
          have hpos : 0 < 256 ^ b.length := Nat.pow_pos (by decide)
          -- The first byte is the quotient by a power that the rest stays below.
          have hhead : x.toNat = y.toNat := by
            have hdiv := congrArg (· / 256 ^ b.length) h
            simpa only [Nat.mul_comm _ (256 ^ b.length), Nat.mul_add_div hpos,
              Nat.div_eq_of_lt ha, Nat.div_eq_of_lt hb, Nat.add_zero] using hdiv
          rw [hhead] at h
          rw [UInt8.toNat_inj.mp hhead, ih hl (Nat.add_left_cancel h)]

/-- Every string of bytes is what its value is written as. -/
theorem bigEndian_wordValue (bytes : Bytes) : bigEndian bytes.length (wordValue bytes) = bytes := by
  refine eq_of_wordValue_eq (bigEndian_length ..) ?_
  rw [wordValue_bigEndian, Nat.mod_eq_of_lt (wordValue_lt bytes)]

theorem wordValue_bigEndian_of_lt {width n : Nat} (h : n < 256 ^ width) :
    wordValue (bigEndian width n) = n := by
  rw [wordValue_bigEndian, Nat.mod_eq_of_lt h]

theorem decodeRecord_encodeRecord (r : Record) (rest : Bytes) :
    decodeRecord (encodeRecord r ++ rest) = r := by
  have hid : r.id.toUInt32.toNat < 256 ^ 4 := r.id.toUInt32.toNat_lt
  have hx : r.x.bits.toNat < 256 ^ 8 := r.x.bits.toNat_lt
  have hy : r.y.bits.toNat < 256 ^ 8 := r.y.bits.toNat_lt
  have hdelta : r.delta.bits.toNat < 256 ^ 8 := r.delta.bits.toNat_lt
  have hlength := bigEndian_length
  simp only [decodeRecord, doubleAt, encodeRecord, List.append_assoc]
  have hskip : ∀ {n : Nat} {head tail : Bytes} (m : Nat), head.length = n →
      (head ++ tail).drop (n + m) = tail.drop m := by
    rintro n head tail m rfl
    exact List.drop_length_add_append ..
  rw [List.take_left' (hlength ..), List.drop_left' (hlength ..), List.take_left' (hlength ..),
    hskip 8 (hlength 4 _), List.drop_left' (hlength ..), List.take_left' (hlength ..),
    hskip 16 (hlength 4 _), hskip 8 (hlength 8 _), List.drop_left' (hlength ..),
    List.take_left' (hlength ..), wordValue_bigEndian_of_lt hid, wordValue_bigEndian_of_lt hx,
    wordValue_bigEndian_of_lt hy, wordValue_bigEndian_of_lt hdelta]
  simp only [UInt32.ofNat_toNat, UInt64.ofNat_toNat]
  rfl

/-- A double is written as the eight bytes that it was read from. -/
theorem bigEndian_doubleAt {bytes : Bytes} {offset : Nat} (h : offset + 8 ≤ bytes.length) :
    bigEndian 8 (doubleAt bytes offset).bits.toNat = (bytes.drop offset).take 8 := by
  have hlength : ((bytes.drop offset).take 8).length = 8 := by
    rw [List.length_take, List.length_drop]
    omega
  have hlt := wordValue_lt ((bytes.drop offset).take 8)
  rw [hlength] at hlt
  rw [doubleAt, UInt64.toNat_ofNat_of_lt' hlt]
  have hback := bigEndian_wordValue ((bytes.drop offset).take 8)
  rwa [hlength] at hback

theorem encodeRecord_decodeRecord {bytes : Bytes} (h : recordLength ≤ bytes.length) :
    encodeRecord (decodeRecord bytes) = bytes.take recordLength := by
  have hlong : 28 ≤ bytes.length := h
  have hlength : (bytes.take 4).length = 4 := by
    rw [List.length_take]
    omega
  have hid : bigEndian 4 (decodeRecord bytes).id.toUInt32.toNat = bytes.take 4 := by
    have hlt := wordValue_lt (bytes.take 4)
    rw [hlength] at hlt
    have hback := bigEndian_wordValue (bytes.take 4)
    rw [hlength] at hback
    rwa [decodeRecord, UInt32.toUInt32_toInt32, UInt32.toNat_ofNat_of_lt' hlt]
  have hsplit : bytes.take recordLength = bytes.take 4 ++ (bytes.drop 4).take 8 ++
      (bytes.drop 12).take 8 ++ (bytes.drop 20).take 8 := by
    rw [recordLength, ← List.take_add, ← List.take_add, ← List.take_add]
  rw [encodeRecord, hid, hsplit]
  simp only [decodeRecord]
  rw [bigEndian_doubleAt (by omega), bigEndian_doubleAt (by omega), bigEndian_doubleAt (by omega)]

theorem encodeRecords_cons (r : Record) (records : Batch) :
    encodeRecords (r :: records) = encodeRecord r ++ encodeRecords records := rfl

theorem decodeRecords_encodeRecords (records : Batch) (rest : Bytes) :
    decodeRecords records.length (encodeRecords records ++ rest) = records := by
  induction records with
  | nil => rfl
  | cons r records ih =>
      rw [List.length_cons, decodeRecords, encodeRecords_cons, List.append_assoc,
        decodeRecord_encodeRecord, List.drop_left' (encodeRecord_length r), ih]

theorem encodeRecords_decodeRecords {n : Nat} {bytes : Bytes} (h : recordLength * n ≤ bytes.length) :
    encodeRecords (decodeRecords n bytes) = bytes.take (recordLength * n) := by
  induction n generalizing bytes with
  | zero => simp [decodeRecords, encodeRecords]
  | succ n ih =>
      rw [Nat.mul_succ] at h
      have hrest : recordLength * n ≤ (bytes.drop recordLength).length := by
        rw [List.length_drop]
        omega
      rw [decodeRecords, encodeRecords_cons, encodeRecord_decodeRecord (by omega), ih hrest,
        ← List.take_add, Nat.mul_succ, Nat.add_comm]

end PositionRelay.Wire
