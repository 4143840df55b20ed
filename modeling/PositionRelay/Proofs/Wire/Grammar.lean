import PositionRelay.Proofs.Wire.Layout

/-!
# The grammar of payloads

A payload is a count followed by as many records. Every string of bytes is too short for a count, or
has a count that does not match its length, or is the payload of exactly one list of records
(`exists_encodePayload_eq`, `encodePayload_inj`); a count near the end of its range is nothing
special, because the count is compared with the length and not the other way round. What a list of
records then comes to is `frameOf`: one record alone is an update and has to carry a valid
identifier, and from any other number the records without one are left out.

`decodePayload_follows_grammar` puts this together: it says of every string of bytes what decoding
answers, and that nothing is lost in an answer but the records that were left out.
-/
namespace PositionRelay

theorem Record.hasValidId_iff {r : Record} : r.hasValidId = true ↔ 0 < r.id := decide_eq_true_iff

theorem Record.hasValidId_eq_false_iff {r : Record} : r.hasValidId = false ↔ r.id ≤ 0 := by
  rw [← Bool.not_eq_true, hasValidId_iff, Int32.not_lt]

namespace Wire

theorem drop_encodeFrame (records : Batch) :
    (encodeFrame records).drop prefixLength = encodePayload records :=
  List.drop_left' (bigEndian_length ..)

@[simp] theorem encodePayload_length (records : Batch) :
    (encodePayload records).length = countLength + recordLength * records.length := by
  simp [encodePayload, countLength]

/-- The count of a payload; it wraps for a list that does not fit it. -/
theorem wordValue_take_encodePayload (records : Batch) :
    wordValue ((encodePayload records).take countLength) = records.length % 2 ^ 32 := by
  rw [encodePayload, List.take_left' (bigEndian_length ..), wordValue_bigEndian]
  rfl

theorem drop_encodePayload (records : Batch) :
    (encodePayload records).drop countLength = encodeRecords records :=
  List.drop_left' (bigEndian_length ..)

/-- A payload determines its records, whether or not their count fits. -/
theorem encodePayload_inj {s t : Batch} (h : encodePayload s = encodePayload t) : s = t := by
  have hlength := congrArg List.length h
  rw [encodePayload_length, encodePayload_length] at hlength
  have hsame : s.length = t.length :=
    Nat.eq_of_mul_eq_mul_left (by decide) (Nat.add_left_cancel hlength)
  have hrecords : encodeRecords s = encodeRecords t := by
    rw [← drop_encodePayload, h, drop_encodePayload]
  have hs := decodeRecords_encodeRecords s []
  have ht := decodeRecords_encodeRecords t []
  rw [hrecords, hsame, ht] at hs
  exact hs.symm

/-- A payload whose count agrees with its length is the payload of some records. -/
theorem exists_encodePayload_eq {p : Bytes} (hlong : countLength ≤ p.length)
    (hcount : recordLength * wordValue (p.take countLength) = p.length - countLength) :
    ∃ s : Batch, s.length < 2 ^ 32 ∧ p = encodePayload s := by
  have hword : (p.take countLength).length = countLength := by
    rw [List.length_take, Nat.min_eq_left hlong]
  have hlt := wordValue_lt (p.take countLength)
  rw [hword] at hlt
  have hbody : (p.drop countLength).length = recordLength * wordValue (p.take countLength) := by
    rw [List.length_drop, hcount]
  refine ⟨decodeRecords (wordValue (p.take countLength)) (p.drop countLength), ?_, ?_⟩
  · rw [decodeRecords_length]
    exact hlt
  · have hback := bigEndian_wordValue (p.take countLength)
    rw [hword] at hback
    rw [encodePayload, decodeRecords_length, hback,
      encodeRecords_decodeRecords (Nat.le_of_eq hbody.symm), ← hbody, List.take_length,
      List.take_append_drop]

/-- The frame that a list of records makes. -/
def frameOf : Batch → Except CodecError Frame
  | [r] => if r.hasValidId then .ok (.update r) else .error (.invalidIdentifier r.id)
  | records => .ok (.snapshot (records.filter Record.hasValidId))

theorem frameOf_single (r : Record) :
    frameOf [r] = if r.hasValidId then .ok (.update r) else .error (.invalidIdentifier r.id) := rfl

theorem frameOf_many {s : Batch} (h : s.length ≠ 1) :
    frameOf s = .ok (.snapshot (s.filter Record.hasValidId)) := by
  match s with
  | [] => rfl
  | [r] => exact absurd rfl h
  | _ :: _ :: _ => rfl

section
variable {s : Batch}

/-- One record alone, or any other number of them. -/
theorem single_or_many (s : Batch) : (∃ r, s = [r]) ∨ s.length ≠ 1 := by
  by_cases h : s.length = 1
  · exact .inl (List.length_eq_one_iff.mp h)
  · exact .inr h

theorem frameOf_eq_error_iff {e : CodecError} :
    frameOf s = .error e ↔ ∃ r, s = [r] ∧ r.id ≤ 0 ∧ e = .invalidIdentifier r.id := by
  rcases single_or_many s with ⟨r, rfl⟩ | hmany
  · rw [frameOf_single]
    cases hr : r.hasValidId with
    | true =>
        have hpos := Int32.not_le.mpr (Record.hasValidId_iff.mp hr)
        simp [hpos]
    | false =>
        have hneg := Record.hasValidId_eq_false_iff.mp hr
        simp [hneg, eq_comm]
  · rw [frameOf_many hmany]
    constructor
    · intro h
      cases h
    · rintro ⟨r, rfl, -⟩
      exact absurd rfl hmany

theorem frameOf_eq_update_iff {r : Record} :
    frameOf s = .ok (.update r) ↔ s = [r] ∧ 0 < r.id := by
  rcases single_or_many s with ⟨q, rfl⟩ | hmany
  · rw [frameOf_single, ← Record.hasValidId_iff]
    cases hq : q.hasValidId with
    | true =>
        constructor
        · intro h
          cases h
          exact ⟨rfl, hq⟩
        · rintro ⟨h, -⟩
          cases h
          rfl
    | false =>
        constructor
        · intro h
          cases h
        · rintro ⟨h, hr⟩
          cases h
          rw [hq] at hr
          cases hr
  · rw [frameOf_many hmany]
    constructor
    · intro h
      cases h
    · rintro ⟨rfl, -⟩
      exact absurd rfl hmany

theorem frameOf_eq_snapshot_iff {records : Batch} :
    frameOf s = .ok (.snapshot records) ↔
      s.length ≠ 1 ∧ records = s.filter Record.hasValidId := by
  rcases single_or_many s with ⟨r, rfl⟩ | hmany
  · rw [frameOf_single]
    constructor
    · intro h
      split at h <;> cases h
    · rintro ⟨h, -⟩
      exact absurd rfl h
  · rw [frameOf_many hmany]
    constructor
    · intro h
      cases h
      exact ⟨hmany, rfl⟩
    · rintro ⟨-, rfl⟩
      rfl

/-- A frame holds the valid records of the list. -/
theorem records_of_frameOf {frame : Frame} (h : frameOf s = .ok frame) :
    frame.records = s.filter Record.hasValidId := by
  cases frame with
  | update r =>
      obtain ⟨rfl, hpos⟩ := frameOf_eq_update_iff.mp h
      rw [List.filter_cons_of_pos (Record.hasValidId_iff.mpr hpos)]
      rfl
  | snapshot records => exact (frameOf_eq_snapshot_iff.mp h).2

/-- Valid records make a frame that holds them all. -/
theorem exists_frameOf_of_valid (h : ∀ r ∈ s, 0 < r.id) :
    ∃ frame, frameOf s = .ok frame ∧ frame.records = s := by
  have hframe : ∃ frame, frameOf s = .ok frame := by
    cases hs : frameOf s with
    | ok frame => exact ⟨frame, rfl⟩
    | error e =>
        obtain ⟨r, rfl, hneg, -⟩ := frameOf_eq_error_iff.mp hs
        exact absurd (h r (by simp)) (Int32.not_lt.mpr hneg)
  obtain ⟨frame, hframe⟩ := hframe
  refine ⟨frame, hframe, ?_⟩
  rw [records_of_frameOf hframe]
  exact List.filter_eq_self.mpr fun r hr => Record.hasValidId_iff.mpr (h r hr)

end

section
variable {p : Bytes}

theorem decodePayload_of_short (h : p.length < countLength) :
    decodePayload p = .error (.missingRecordCount p.length) := if_pos h

theorem decodePayload_of_mismatch (hlong : countLength ≤ p.length)
    (h : recordLength * wordValue (p.take countLength) ≠ p.length - countLength) :
    decodePayload p =
      .error (.recordCountMismatch (wordValue (p.take countLength)) p.length) := by
  have hbody : recordLength * wordValue (p.take countLength) ≠ (p.drop countLength).length := by
    rwa [List.length_drop]
  rw [decodePayload, if_neg (Nat.not_lt.mpr hlong)]
  exact if_pos hbody

theorem decodePayload_encodePayload {s : Batch} (h : s.length < 2 ^ 32) :
    decodePayload (encodePayload s) = frameOf s := by
  have hlong : ¬ (encodePayload s).length < countLength := by
    rw [encodePayload_length]
    omega
  have hback := decodeRecords_encodeRecords s []
  rw [List.append_nil] at hback
  rw [decodePayload, if_neg hlong, wordValue_take_encodePayload, drop_encodePayload,
    Nat.mod_eq_of_lt h]
  dsimp only
  rw [if_neg (by simp), hback]
  rfl

/-- A payload is too short for a count, or the count is wrong, or it is the payload of a list. -/
theorem payload_cases (p : Bytes) :
    p.length < countLength ∨
      (countLength ≤ p.length ∧
        recordLength * wordValue (p.take countLength) ≠ p.length - countLength) ∨
      ∃ s : Batch, s.length < 2 ^ 32 ∧ p = encodePayload s := by
  by_cases hshort : p.length < countLength
  · exact .inl hshort
  · have hlong := Nat.not_lt.mp hshort
    by_cases hcount : recordLength * wordValue (p.take countLength) = p.length - countLength
    · exact .inr (.inr (exists_encodePayload_eq hlong hcount))
    · exact .inr (.inl ⟨hlong, hcount⟩)

theorem decodePayload_eq_update_iff {r : Record} :
    decodePayload p = .ok (.update r) ↔ p = encodePayload [r] ∧ 0 < r.id := by
  constructor
  · intro h
    rcases payload_cases p with hshort | ⟨hlong, hcount⟩ | ⟨s, hs, rfl⟩
    · rw [decodePayload_of_short hshort] at h
      cases h
    · rw [decodePayload_of_mismatch hlong hcount] at h
      cases h
    · rw [decodePayload_encodePayload hs] at h
      obtain ⟨rfl, hvalid⟩ := frameOf_eq_update_iff.mp h
      exact ⟨rfl, hvalid⟩
  · rintro ⟨rfl, hvalid⟩
    rw [decodePayload_encodePayload (Nat.le_of_ble_eq_true rfl)]
    exact frameOf_eq_update_iff.mpr ⟨rfl, hvalid⟩

/-- The errors of a payload concern its count or a single record, and none of them is fatal. -/
theorem decodePayload_eq_error {e : CodecError} (h : decodePayload p = .error e) :
    e.isFatal = false ∧ (e = .missingRecordCount p.length ∨
      e = .recordCountMismatch (wordValue (p.take countLength)) p.length ∨
      ∃ id, e = .invalidIdentifier id) := by
  rcases payload_cases p with hshort | ⟨hlong, hcount⟩ | ⟨s, hs, rfl⟩
  · rw [decodePayload_of_short hshort] at h
    cases h
    exact ⟨rfl, .inl rfl⟩
  · rw [decodePayload_of_mismatch hlong hcount] at h
    cases h
    exact ⟨rfl, .inr (.inl rfl)⟩
  · rw [decodePayload_encodePayload hs] at h
    obtain ⟨r, -, -, rfl⟩ := frameOf_eq_error_iff.mp h
    exact ⟨rfl, .inr (.inr ⟨r.id, rfl⟩)⟩

/-- The records of a decoded frame are decoded to themselves. -/
theorem exists_decodePayload_records {frame : Frame} (h : decodePayload p = .ok frame) :
    ∃ again, decodePayload (encodePayload frame.records) = .ok again ∧
      again.records = frame.records := by
  rcases payload_cases p with hshort | ⟨hlong, hcount⟩ | ⟨s, hs, rfl⟩
  · rw [decodePayload_of_short hshort] at h
    cases h
  · rw [decodePayload_of_mismatch hlong hcount] at h
    cases h
  · rw [decodePayload_encodePayload hs] at h
    rw [records_of_frameOf h]
    have hfew : (s.filter Record.hasValidId).length < 2 ^ 32 :=
      Nat.lt_of_le_of_lt (List.length_filter_le ..) hs
    rw [decodePayload_encodePayload hfew]
    refine exists_frameOf_of_valid fun r hr => ?_
    exact Record.hasValidId_iff.mp (List.mem_filter.mp hr).2

end

/-- What decoding answers for a string of bytes. It is too short for a count; or the count does not
match the length; or the string is the payload of exactly one list of records, and the answer is an
update or an invalid identifier if that list has one record, and a snapshot of its valid records
otherwise. There are no other errors. Encoding the records of an answer and decoding them again
gives the same records, and the same payload if all records in it were valid. -/
theorem decodePayload_follows_grammar (p : Bytes) :
    let declared := wordValue (p.take countLength)
    (decodePayload p = .error (.missingRecordCount p.length) ↔ p.length < countLength) ∧
      (decodePayload p = .error (.recordCountMismatch declared p.length) ↔
        countLength ≤ p.length ∧ recordLength * declared ≠ p.length - countLength) ∧
      (countLength ≤ p.length → recordLength * declared = p.length - countLength →
        ∃ s : Batch, (∀ t : Batch, p = (encodeFrame t).drop prefixLength ↔ t = s) ∧
          (∀ id, decodePayload p = .error (.invalidIdentifier id) ↔
            ∃ r, s = [r] ∧ r.id ≤ 0 ∧ id = r.id) ∧
          (∀ r, decodePayload p = .ok (.update r) ↔ s = [r] ∧ 0 < r.id) ∧
          (∀ records, decodePayload p = .ok (.snapshot records) ↔
            s.length ≠ 1 ∧ records = s.filter Record.hasValidId) ∧
          ((∀ r ∈ s, 0 < r.id) → ∃ frame, decodePayload p = .ok frame ∧
            (encodeFrame frame.records).drop prefixLength = p)) ∧
      (∀ e, decodePayload p = .error e → e.isFatal = false ∧
        (e = .missingRecordCount p.length ∨ e = .recordCountMismatch declared p.length ∨
          ∃ id, e = .invalidIdentifier id)) ∧
      ∀ frame, decodePayload p = .ok frame →
        ∃ again, decodePayload ((encodeFrame frame.records).drop prefixLength) = .ok again ∧
          again.records = frame.records := by
  intro declared
  have hnoCount : ∀ {s : Batch} {n : Nat}, frameOf s ≠ .error (.missingRecordCount n) := by
    intro s n h
    obtain ⟨r, -, -, he⟩ := frameOf_eq_error_iff.mp h
    cases he
  have hnoMismatch : ∀ {s : Batch} {n m : Nat},
      frameOf s ≠ .error (.recordCountMismatch n m) := by
    intro s n m h
    obtain ⟨r, -, -, he⟩ := frameOf_eq_error_iff.mp h
    cases he
  refine ⟨⟨?_, decodePayload_of_short⟩, ⟨?_, fun h => decodePayload_of_mismatch h.1 h.2⟩, ?_,
    fun e => decodePayload_eq_error, ?_⟩
  · intro h
    rcases payload_cases p with hshort | ⟨hlong, hcount⟩ | ⟨s, hs, rfl⟩
    · exact hshort
    · rw [decodePayload_of_mismatch hlong hcount] at h
      cases h
    · rw [decodePayload_encodePayload hs] at h
      exact absurd h hnoCount
  · intro h
    rcases payload_cases p with hshort | hwrong | ⟨s, hs, rfl⟩
    · rw [decodePayload_of_short hshort] at h
      cases h
    · exact hwrong
    · rw [decodePayload_encodePayload hs] at h
      exact absurd h hnoMismatch
  · intro hlong hcount
    obtain ⟨s, hs, rfl⟩ := exists_encodePayload_eq hlong hcount
    rw [decodePayload_encodePayload hs]
    refine ⟨s, ?_, ?_, fun r => frameOf_eq_update_iff, fun records => frameOf_eq_snapshot_iff, ?_⟩
    · intro t
      rw [drop_encodeFrame]
      exact ⟨fun h => (encodePayload_inj h).symm, fun h => by rw [h]⟩
    · intro id
      simp only [frameOf_eq_error_iff, CodecError.invalidIdentifier.injEq]
    · intro hvalid
      obtain ⟨frame, hframe, hrecords⟩ := exists_frameOf_of_valid hvalid
      exact ⟨frame, hframe, by rw [hrecords, drop_encodeFrame]⟩
  · intro frame h
    rw [drop_encodeFrame]
    exact exists_decodePayload_records h

/-- Two records, the first with a NaN that carries a payload, the second without a valid
identifier. -/
def mixedRecords : Batch :=
  [⟨3, ⟨0x7ff8000000000123⟩, ⟨0x4000000000000000⟩, .zero⟩, ⟨-1, .zero, .zero, .zero⟩]

theorem decodePayload_of_mixedRecords :
    let p := encodePayload mixedRecords
    countLength ≤ p.length ∧
      recordLength * wordValue (p.take countLength) = p.length - countLength ∧
      decodePayload p = .ok (.snapshot (mixedRecords.take 1)) := by
  intro p
  have hlong : countLength ≤ p.length := by decide +kernel
  have hcount : recordLength * wordValue (p.take countLength) = p.length - countLength := by
    decide +kernel
  obtain ⟨s, hs, -, -, hsnapshot, -⟩ :=
    (decodePayload_follows_grammar p).2.2.1 hlong hcount
  have hrecords : mixedRecords = s := (hs mixedRecords).mp (drop_encodeFrame mixedRecords).symm
  refine ⟨hlong, hcount, (hsnapshot _).mpr ?_⟩
  rw [← hrecords]
  decide +kernel

end Wire
end PositionRelay
