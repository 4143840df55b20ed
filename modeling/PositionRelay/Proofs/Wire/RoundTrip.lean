import PositionRelay.Proofs.Wire.Grammar

/-!
# Frames that come back

Decoding the frame of a list of records gives back what the list comes to and takes exactly the bytes
of the frame, whatever follows them in the buffer, as long as the payload length fits its 32-bit word
(`decodeFrame_encodeFrame`). Beyond that the length wraps: the frame announces a shorter payload than
it has. What the decoder then finds may still be a well-formed frame, but it never takes all bytes.
-/
namespace PositionRelay.Wire

/-- The payload length that a stream begins with. -/
def announced (stream : Bytes) : Nat := wordValue (stream.take prefixLength)

theorem announced_append {stream : Bytes} (hlong : prefixLength ≤ stream.length) (more : Bytes) :
    announced (stream ++ more) = announced stream := by
  rw [announced, announced, List.take_append_of_le_length hlong]

theorem encodeFrame_eq (records : Batch) :
    encodeFrame records =
      bigEndian prefixLength (encodePayload records).length ++ encodePayload records := by
  rw [encodePayload_length]
  rfl

@[simp] theorem encodeFrame_length (records : Batch) :
    (encodeFrame records).length = 8 + 28 * records.length := by
  rw [encodeFrame_eq, List.length_append, bigEndian_length, encodePayload_length, ← Nat.add_assoc]
  rfl

theorem announced_encodeFrame (records : Batch) (rest : Bytes) :
    announced (encodeFrame records ++ rest) = (4 + 28 * records.length) % 2 ^ 32 := by
  rw [announced, encodeFrame_eq, List.append_assoc, List.take_left' (bigEndian_length ..),
    wordValue_bigEndian, encodePayload_length]
  rfl

section
variable {buffer : Bytes}

theorem decodeFrame_of_short (h : buffer.length < prefixLength) :
    decodeFrame buffer = .error (.truncated prefixLength buffer.length) := if_pos h

theorem decodeFrame_of_cut (hlong : prefixLength ≤ buffer.length)
    (h : buffer.length < prefixLength + announced buffer) :
    decodeFrame buffer =
      .error (.truncated (announced buffer) (buffer.length - prefixLength)) := by
  have hcut : (buffer.drop prefixLength).length < announced buffer := by
    rw [List.length_drop]
    omega
  rw [← List.length_drop, decodeFrame, if_neg (Nat.not_lt.mpr hlong)]
  exact if_pos hcut

theorem decodeFrame_of_whole (h : prefixLength + announced buffer ≤ buffer.length) :
    decodeFrame buffer =
      (decodePayload ((buffer.drop prefixLength).take (announced buffer))).map
        fun frame => (frame, prefixLength + announced buffer) := by
  have hwhole : ¬ (buffer.drop prefixLength).length < announced buffer := by
    rw [List.length_drop]
    omega
  rw [decodeFrame, if_neg (by omega)]
  exact if_neg hwhole

/-- A decoded frame takes its payload and the length in front of it. -/
theorem used_of_decodeFrame {frame : Frame} {used : Nat} (h : decodeFrame buffer = .ok (frame, used)) :
    used = prefixLength + announced buffer := by
  by_cases hlong : prefixLength ≤ buffer.length
  · by_cases hcut : buffer.length < prefixLength + announced buffer
    · rw [decodeFrame_of_cut hlong hcut] at h
      cases h
    · rw [decodeFrame_of_whole (by omega)] at h
      cases hp : decodePayload ((buffer.drop prefixLength).take (announced buffer)) with
      | error e =>
          rw [hp] at h
          cases h
      | ok found =>
          rw [hp] at h
          cases h
          rfl
  · rw [decodeFrame_of_short (by omega)] at h
    cases h

/-- A buffer ends too early, or something is wrong within a frame that is there as a whole. -/
theorem decodeFrame_eq_error {e : CodecError} (h : decodeFrame buffer = .error e) :
    (∃ expected received, e = .truncated expected received) ∨ e.isFatal = false := by
  by_cases hlong : prefixLength ≤ buffer.length
  · by_cases hcut : buffer.length < prefixLength + announced buffer
    · rw [decodeFrame_of_cut hlong hcut] at h
      cases h
      exact .inl ⟨_, _, rfl⟩
    · rw [decodeFrame_of_whole (by omega)] at h
      cases hp : decodePayload ((buffer.drop prefixLength).take (announced buffer)) with
      | ok found =>
          rw [hp] at h
          cases h
      | error cause =>
          rw [hp] at h
          cases h
          exact .inr (decodePayload_eq_error hp).1
  · rw [decodeFrame_of_short (by omega)] at h
    cases h
    exact .inl ⟨_, _, rfl⟩

end

/-- A frame whose length fits its word is decoded as a whole. -/
theorem decodeFrame_append {s : Batch} (h : 4 + 28 * s.length < 2 ^ 32) (rest : Bytes) :
    decodeFrame (encodeFrame s ++ rest) =
      (frameOf s).map fun frame => (frame, (encodeFrame s).length) := by
  have hannounced : announced (encodeFrame s ++ rest) = (encodePayload s).length := by
    rw [announced_encodeFrame, Nat.mod_eq_of_lt h, encodePayload_length]
    rfl
  have hsize : prefixLength + (encodePayload s).length = (encodeFrame s).length := by
    rw [encodeFrame_eq, List.length_append, bigEndian_length]
  have hpayload : ((encodeFrame s ++ rest).drop prefixLength).take (encodePayload s).length =
      encodePayload s := by
    rw [encodeFrame_eq, List.append_assoc, List.drop_left' (bigEndian_length ..), List.take_left]
  have hwhole : prefixLength + announced (encodeFrame s ++ rest) ≤
      (encodeFrame s ++ rest).length := by
    rw [hannounced, hsize, List.length_append]
    exact Nat.le_add_right ..
  rw [decodeFrame_of_whole hwhole, hannounced, hpayload, hsize,
    decodePayload_encodePayload (by omega)]

/-- The frame of one record under a valid identifier is decoded as an update. -/
theorem decodeFrame_update {r : Record} (h : 0 < r.id) (rest : Bytes) :
    decodeFrame (encodeFrame [r] ++ rest) = .ok (.update r, (encodeFrame [r]).length) := by
  have hframe : frameOf [r] = .ok (.update r) := frameOf_eq_update_iff.mpr ⟨rfl, h⟩
  rw [decodeFrame_append (by simp), hframe]
  rfl

/-- The frame of a list of `n` records has `8 + 28 * n` bytes. If its length fits the 32-bit word,
then decoding takes exactly these bytes of a buffer that begins with them: a single record is an
update or an invalid identifier, and any other number makes a snapshot of the valid records in their
order. If the length does not fit, then a frame may be found, but it never takes all these bytes. -/
theorem decodeFrame_encodeFrame (s : Batch) (rest : Bytes) :
    (encodeFrame s).length = 8 + 28 * s.length ∧
      (4 + 28 * s.length < 2 ^ 32 →
        (∀ r, s = [r] → 0 < r.id → decodeFrame (encodeFrame s ++ rest) =
          .ok (.update r, (encodeFrame s).length)) ∧
        (∀ r, s = [r] → r.id ≤ 0 → decodeFrame (encodeFrame s ++ rest) =
          .error (.invalidIdentifier r.id)) ∧
        (s.length ≠ 1 → decodeFrame (encodeFrame s ++ rest) =
          .ok (.snapshot (s.filter fun r => 0 < r.id), (encodeFrame s).length))) ∧
      (2 ^ 32 ≤ 4 + 28 * s.length → ∀ frame used,
        decodeFrame (encodeFrame s ++ rest) = .ok (frame, used) →
          used < (encodeFrame s).length) := by
  refine ⟨encodeFrame_length s, ?_, ?_⟩
  · intro hfits
    rw [decodeFrame_append hfits]
    refine ⟨?_, ?_, ?_⟩
    · rintro r rfl hpos
      rw [frameOf_eq_update_iff.mpr ⟨rfl, hpos⟩]
      rfl
    · rintro r rfl hneg
      rw [frameOf_eq_error_iff.mpr ⟨r, rfl, hneg, rfl⟩]
      rfl
    · intro hmany
      rw [frameOf_many hmany]
      rfl
  · intro hlong frame used h
    have hused := used_of_decodeFrame h
    rw [announced_encodeFrame] at hused
    have hwrapped : (4 + 28 * s.length) % 2 ^ 32 < 2 ^ 32 := Nat.mod_lt _ (by decide)
    have hprefix : prefixLength = 4 := rfl
    rw [encodeFrame_length]
    omega

/-- A frame with a byte behind it, and a frame of so many records that it looks like an empty
snapshot. -/
theorem decodeFrame_of_mixed_and_wrapped :
    (4 + 28 * mixedRecords.length < 2 ^ 32 ∧ decodeFrame (encodeFrame mixedRecords ++ [7]) =
      .ok (.snapshot (mixedRecords.take 1), 64)) ∧
    ∃ s : Batch, 2 ^ 32 ≤ 4 + 28 * s.length ∧ decodeFrame (encodeFrame s ++ []) =
      .ok (.snapshot [], 8) ∧ 8 < (encodeFrame s).length := by
  refine ⟨⟨by decide, ?_⟩, ?_⟩
  · obtain ⟨-, -, hsnapshot⟩ := (decodeFrame_encodeFrame mixedRecords [7]).2.1 (by decide)
    have hvalid : mixedRecords.filter (fun r => 0 < r.id) = mixedRecords.take 1 := by
      decide +kernel
    rw [hsnapshot (by decide), hvalid, encodeFrame_length]
    rfl
  · obtain ⟨s, hs⟩ : ∃ s : Batch, s.length = 2 ^ 32 :=
      ⟨List.replicate (2 ^ 32) default, List.length_replicate⟩
    have hlong : 2 ^ 32 ≤ 4 + 28 * s.length := by omega
    have hfour : announced (encodeFrame s ++ []) = 4 := by
      rw [announced_encodeFrame]
      omega
    have hzero : ((encodeFrame s ++ []).drop prefixLength).take 4 = bigEndian 4 (2 ^ 32) := by
      rw [List.append_nil, drop_encodeFrame, encodePayload, hs]
      exact List.take_left' (bigEndian_length ..)
    have hwhole : prefixLength + announced (encodeFrame s ++ []) ≤ (encodeFrame s ++ []).length := by
      rw [hfour, List.append_nil, encodeFrame_length]
      exact Nat.le_add_right ..
    have hfound : decodeFrame (encodeFrame s ++ []) = .ok (.snapshot [], 8) := by
      rw [decodeFrame_of_whole hwhole, hfour, hzero]
      rfl
    exact ⟨s, hlong, hfound, (decodeFrame_encodeFrame s []).2.2 hlong _ _ hfound⟩

end PositionRelay.Wire
