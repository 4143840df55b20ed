import PositionRelay.Proofs.Session.Patience

/-!
# Reading what a server sends

A session begins with the frame of the client's own record (`begin_of_early`), and whenever one begins,
it has taken just that frame from the stream (`bytes_of_begin`). After that, a frame of valid records is
taken with all of its records if its payload is within the limit, and refused otherwise
(`nextSnapshot_of_valid`).
-/
namespace PositionRelay

namespace Wire

/-- Decoding the frame of valid records leaves none of them out. -/
theorem decodeFrame_of_valid {records : Batch} (hvalid : ∀ r ∈ records, 0 < r.id)
    (hlength : 4 + 28 * records.length < 2 ^ 32) (rest : Bytes) :
    ∃ frame, decodeFrame (encodeFrame records ++ rest) =
        .ok (frame, (encodeFrame records).length) ∧ frame.records = records := by
  obtain ⟨frame, hframe, hrecords⟩ := exists_frameOf_of_valid hvalid
  refine ⟨frame, ?_, hrecords⟩
  rw [decodeFrame_append hlength, hframe]
  rfl

theorem readable_of_valid {records : Batch} (hvalid : ∀ r ∈ records, 0 < r.id)
    (hfits : 4 + 28 * records.length ≤ defaultPayloadLimit) : Readable records := by
  obtain ⟨frame, hframe, -⟩ := exists_frameOf_of_valid hvalid
  exact ⟨by rwa [encodePayload_length], frame, hframe⟩

section
variable {ended : Bool} {need length limit : Nat} {got bytes : Bytes} {as left : List Arrival}
  {source rest : Source}

theorem brought_of_collect (h : collect ended need got as = (.full bytes, left)) :
    bytes ++ brought left = got ++ brought as ∧ bytes.length = got.length + need := by
  fun_induction collect ended need got as with
  | case1 =>
      cases h
      exact ⟨rfl, rfl⟩
  | case2 => split at h <;> cases h
  | case3 need got wait rest ih => exact ih h
  | case4 => cases h
  | case5 => cases h
  | case6 need got chunk rest hne hle ih =>
      obtain ⟨hbytes, hlength⟩ := ih h
      rw [List.length_append] at hlength
      exact ⟨by rw [hbytes, brought_chunk, List.append_assoc], by omega⟩
  | case7 need got chunk rest hne hle =>
      cases h
      refine ⟨?_, ?_⟩
      · rw [brought_chunk, brought_chunk, List.append_assoc, ← List.append_assoc (chunk.take _),
          List.take_append_drop]
      · rw [List.length_append, List.length_take]
        omega

theorem bytes_of_readPrefix (h : source.readPrefix = (.value length, rest)) :
    ∃ word, word.length = prefixLength ∧ length = wordValue word ∧
      source.bytes = word ++ rest.bytes := by
  unfold Source.readPrefix Source.collect at h
  cases hc : collect source.ended prefixLength [] source.arrivals with
  | mk result left =>
      rw [hc] at h
      cases result with
      | full word =>
          cases h
          obtain ⟨hbytes, hlength⟩ := brought_of_collect hc
          exact ⟨word, by simpa using hlength, rfl, hbytes.symm⟩
      | short received => cases received <;> cases h
      | broken cause => cases h
      | stalled => cases h

theorem bytes_of_readPayload (h : source.readPayload length limit = (.value bytes, rest)) :
    bytes.length = length ∧ source.bytes = bytes ++ rest.bytes := by
  unfold Source.readPayload Source.collect at h
  split at h
  · cases h
  · cases hc : collect source.ended length [] source.arrivals with
    | mk result left =>
        rw [hc] at h
        cases result with
        | full payload =>
            cases h
            obtain ⟨hbytes, hlength⟩ := brought_of_collect hc
            exact ⟨by simpa using hlength, hbytes.symm⟩
        | short received => cases h
        | broken cause => cases h
        | stalled => cases h

/-- However a frame was read, its length and its payload are the first bytes of the stream. -/
theorem bytes_of_readFrame {frame : Frame} (h : source.readFrame limit = (.value frame, rest)) :
    ∃ word payload, word.length = prefixLength ∧ wordValue word = payload.length ∧
      decodePayload payload = .ok frame ∧ source.bytes = word ++ payload ++ rest.bytes := by
  unfold Source.readFrame at h
  split at h
  · next length after hprefix =>
      obtain ⟨word, hword, rfl, hbytes⟩ := bytes_of_readPrefix hprefix
      split at h
      · next payload last hpayload =>
          obtain ⟨hlength, hafter⟩ := bytes_of_readPayload hpayload
          rw [hafter, ← List.append_assoc] at hbytes
          cases hdecoded : decodePayload payload with
          | ok found =>
              rw [hdecoded] at h
              cases h
              exact ⟨word, payload, hword, hlength.symm, hdecoded, hbytes⟩
          | error e =>
              rw [hdecoded] at h
              cases h
      all_goals cases h
  all_goals cases h

end

end Wire

namespace Session

open Wire

section
variable {s : Session} {source : Source} {records : Batch} {rest : Bytes}

/-- A session begins with the record of the first frame. -/
theorem begin_of_early {patience : Duration} {own : Record} (h : Steady source.arrivals)
    (hvalid : 0 < own.id) (hbytes : source.bytes = encodeFrame [own] ++ rest)
    (hearly : (encodeFrame [own]).length ≤
      (brought (Source.splitAt patience.nanoseconds source.arrivals).1).length) :
    ∃ left, Steady left ∧ brought left = rest ∧
      begin patience source = (.ok ⟨own, patience⟩, { source with arrivals := left }) := by
  have hreadable : Readable [own] :=
    readable_of_valid (by simpa using hvalid) (Nat.le_of_ble_eq_true rfl)
  have hframe : frameOf [own] = .ok (.update own) := frameOf_eq_update_iff.mpr ⟨rfl, hvalid⟩
  obtain ⟨left, hleft, hrest, hcall⟩ := nextFrame_of_early h hreadable hframe hbytes hearly
  refine ⟨left, hleft, hrest, ?_⟩
  rw [begin, hcall]

/-- So it is for a call, although it sees only what arrives in its time. -/
theorem bytes_of_nextFrame {patience : Duration} {frame : Frame} {left : Source}
    (h : nextFrame patience source = (.ok frame, left)) :
    ∃ word payload, word.length = prefixLength ∧ wordValue word = payload.length ∧
      decodePayload payload = .ok frame ∧ source.bytes = word ++ payload ++ left.bytes := by
  unfold nextFrame Source.readFrameWithin at h
  cases hcut : Source.splitAt patience.nanoseconds source.arrivals with
  | mk early late =>
      rw [hcut] at h
      cases hread : Source.readFrame ⟨early, source.ended && late.isEmpty⟩ defaultPayloadLimit with
      | mk result after =>
          dsimp only at h
          rw [hread] at h
          cases result with
          | value found =>
              cases h
              obtain ⟨word, payload, hword, hcount, hdecoded, hbytes⟩ := bytes_of_readFrame hread
              refine ⟨word, payload, hword, hcount, hdecoded, ?_⟩
              have hsplit := brought_splitAt patience.nanoseconds source.arrivals
              rw [hcut] at hsplit
              calc
                source.bytes = brought early ++ brought late := hsplit.symm
                _ = word ++ payload ++ brought after.arrivals ++ brought late :=
                  congrArg (· ++ brought late) hbytes
                _ = word ++ payload ++ brought (after.arrivals ++ late) := by
                  rw [brought_append, List.append_assoc]
          | ended => cases h
          | failed e => cases h
          | stalled => cases h

/-- A session begins with a record that has a valid identifier, and takes the frame of that record and
nothing more from the stream. -/
theorem bytes_of_begin {patience : Duration} {left : Source}
    (h : begin patience source = (.ok s, left)) :
    0 < s.id ∧ s.patience = patience ∧ source.bytes = encodeFrame [s.own] ++ left.bytes := by
  unfold begin at h
  cases hcall : nextFrame patience source with
  | mk result rest =>
      rw [hcall] at h
      cases result with
      | error e => cases h
      | ok frame =>
          cases frame with
          | snapshot records => cases h
          | update own =>
              cases h
              obtain ⟨word, payload, hword, hcount, hdecoded, hbytes⟩ := bytes_of_nextFrame hcall
              obtain ⟨rfl, hvalid⟩ := decodePayload_eq_update_iff.mp hdecoded
              refine ⟨hvalid, rfl, ?_⟩
              rw [hbytes, encodeFrame_eq, ← hcount, ← hword, bigEndian_wordValue]

/-- If a session begins with a stream of frames of which the first is that of one record, then it begins
with that record. -/
theorem own_of_begin {patience : Duration} {own : Record} {left : Source} {tail : Bytes}
    (h : begin patience source = (.ok s, left)) (hvalid : 0 < own.id)
    (hbytes : source.bytes <+: encodeFrame [own] ++ tail) : s = ⟨own, patience⟩ := by
  obtain ⟨hid, rfl, hfirst⟩ := bytes_of_begin h
  obtain ⟨more, hmore⟩ := hbytes
  rw [hfirst, List.append_assoc] at hmore
  have hdecoded := congrArg decodeFrame hmore
  rw [decodeFrame_update hid, decodeFrame_update hvalid] at hdecoded
  cases hdecoded
  rfl

/-- No session begins with nothing. -/
theorem bytes_ne_nil_of_begin {patience : Duration} {left : Source}
    (h : begin patience source = (.ok s, left)) : source.bytes ≠ [] := by
  obtain ⟨-, -, hfirst⟩ := bytes_of_begin h
  rw [hfirst]
  exact List.append_ne_nil_of_left_ne_nil (List.ne_nil_of_length_pos (by simp)) _

/-- A frame over the limit is refused as soon as its length is there. -/
theorem nextSnapshot_of_tooLarge (h : Steady source.arrivals)
    (hlength : 4 + 28 * records.length < 2 ^ 32)
    (hlarge : defaultPayloadLimit < 4 + 28 * records.length)
    (hbytes : source.bytes = encodeFrame records ++ rest)
    (hearly : prefixLength ≤ (brought (s.early source)).length) :
    (s.nextSnapshot source).1 =
      .error (.codec (.payloadTooLarge (4 + 28 * records.length) defaultPayloadLimit)) := by
  obtain ⟨hsteady, -⟩ := steady_splitAt h s.patience.nanoseconds
  have hannounced : announced (brought (s.early source)) = 4 + 28 * records.length := by
    have hwhole := announced_encodeFrame records rest
    rw [← hbytes, ← s.brought_early_late, Nat.mod_eq_of_lt hlength, announced_append hearly]
      at hwhole
    exact hwhole
  have hdemand : demand defaultPayloadLimit (brought (s.early source)) = prefixLength := by
    rw [demand_of_long _ hearly, hannounced, if_pos hlarge]
  obtain ⟨left, -, -, hread⟩ := @readFrame_of_enough defaultPayloadLimit
    (source.ended && (s.late source).isEmpty) _ hsteady (by rw [hdemand]; exact hearly) []
  rw [List.append_nil, List.append_nil, hannounced, if_pos hlarge] at hread
  simp only [nextSnapshot, nextFrame, Source.readFrameWithin]
  rw [hread]
  rfl

/-- What a call comes to when the frame of valid records has arrived. -/
theorem nextSnapshot_of_valid (h : Steady source.arrivals) (hvalid : ∀ r ∈ records, 0 < r.id)
    (hlength : 4 + 28 * records.length < 2 ^ 32)
    (hbytes : source.bytes = encodeFrame records ++ rest)
    (hearly : (encodeFrame records).length ≤ (brought (s.early source)).length) :
    (s.nextSnapshot source).1 =
      if 4 + 28 * records.length ≤ defaultPayloadLimit then .ok records
      else .error
        (.codec (.payloadTooLarge (4 + 28 * records.length) defaultPayloadLimit)) := by
  split
  · next hfits =>
      obtain ⟨left, -, -, hcall⟩ :=
        nextSnapshot_of_early h (readable_of_valid hvalid hfits) hbytes hearly
      have hall : records.filter Record.hasValidId = records :=
        List.filter_eq_self.mpr fun r hr => Record.hasValidId_iff.mpr (hvalid r hr)
      rw [hcall, hall]
  · next hlarge =>
      refine nextSnapshot_of_tooLarge h hlength (Nat.not_le.mp hlarge) hbytes ?_
      rw [encodeFrame_length] at hearly
      have hfour : prefixLength = 4 := rfl
      omega

end

end Session
end PositionRelay
