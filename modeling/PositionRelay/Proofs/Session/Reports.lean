import PositionRelay.Proofs.Network.Stream
import PositionRelay.Proofs.Record.Merging
import PositionRelay.Proofs.Wire.RoundTrip
import PositionRelay.Session

/-!
# What a session reports

Two rules pick from the records that a session has written. The session itself goes where the last
one under its own identifier says (`position_afterCalls`). Whoever reads them off the stream takes
every one under a positive identifier (`updates_of_frames`), and a record into which these are merged
goes where the last of them says (`Record.place_merges`).
-/
namespace PositionRelay

namespace Record

/-- Every record under a foreign positive identifier is followed by one under this identifier. -/
def OwnLast (id : ClientId) : List Record → Prop
  | [] => True
  | r :: rest => (0 < r.id → r.id ≠ id → ∃ u ∈ rest, u.id = id) ∧ OwnLast id rest

instance OwnLast.decidable (id : ClientId) : (rs : List Record) → Decidable (OwnLast id rs)
  | [] => inferInstanceAs (Decidable True)
  | r :: rest =>
      have := OwnLast.decidable id rest
      inferInstanceAs
        (Decidable ((0 < r.id → r.id ≠ id → ∃ u ∈ rest, u.id = id) ∧ OwnLast id rest))

/-- Then the last record under a positive identifier is the last one under this identifier. -/
theorem OwnLast.placeAfter_filter {id : ClientId} (hpos : 0 < id) {rs : List Record}
    (h : OwnLast id rs) (start : Binary64 × Binary64) :
    placeAfter start (rs.filter hasValidId) = placeAfter start (rs.filter (·.id = id)) := by
  induction rs generalizing start with
  | nil => rfl
  | cons r rest ih =>
      obtain ⟨hnext, hrest⟩ := h
      have hsame := ih hrest
      by_cases hown : r.id = id
      · have hvalid : r.hasValidId = true := hasValidId_iff.mpr (hown ▸ hpos)
        rw [List.filter_cons_of_pos hvalid, List.filter_cons_of_pos (by simpa using hown),
          placeAfter_cons, placeAfter_cons, hsame]
      · have hskip : (r :: rest).filter (·.id = id) = rest.filter (·.id = id) :=
          List.filter_cons_of_neg (by simpa using hown)
        rw [hskip]
        by_cases hvalid : r.hasValidId = true
        · obtain ⟨u, hu, hid⟩ := hnext (hasValidId_iff.mp hvalid) hown
          have hlater : rest.filter (·.id = id) ≠ [] :=
            List.ne_nil_of_mem (List.mem_filter.mpr ⟨hu, by simpa using hid⟩)
          rw [List.filter_cons_of_pos hvalid, placeAfter_cons, hsame]
          exact placeAfter_of_ne_nil hlater ..
        · rw [List.filter_cons_of_neg hvalid]
          exact hsame start

end Record

open Record (placeAfter)

namespace Session

/-- A call that writes a record. -/
inductive Call where
  | move (x y : Binary64)
  | send (r : Record)
deriving DecidableEq, Repr

/-- The record that a call writes. -/
def report (s : Session) : Call → Record
  | .move x y => s.moveRecord x y
  | .send r => r

/-- The session after a call whose write comes out as given. -/
def afterCall (s : Session) : Call × Except IoFault Unit → Session
  | (.move x y, written) => (s.move x y written).2
  | (.send r, written) => (s.send r written).2

def afterCalls (s : Session) (calls : List (Call × Except IoFault Unit)) : Session :=
  calls.foldl afterCall s

/-- What a call reports: nothing if its write fails. -/
def reported (s : Session) : Call × Except IoFault Unit → List Record
  | (c, .ok ()) => [s.report c]
  | (_, .error _) => []

/-- What calls report one after another. -/
def reports (s : Session) : List (Call × Except IoFault Unit) → List Record
  | [] => []
  | c :: rest => s.reported c ++ (s.afterCall c).reports rest

section
variable (s : Session) (c : Call × Except IoFault Unit)

theorem afterCall_eq : s.afterCall c = (s.send (s.report c.1) c.2).2 := by
  obtain ⟨call, written⟩ := c
  cases call <;> rfl

@[simp] theorem id_afterCall : (s.afterCall c).id = s.id := by
  rw [afterCall_eq]
  unfold send
  split
  · rfl
  · dsimp only
    split
    · rfl
    · rfl

theorem position_afterCall :
    (s.afterCall c).position = placeAfter s.position ((s.reported c).filter (·.id = s.id)) := by
  obtain ⟨call, written⟩ := c
  rw [afterCall_eq]
  cases written with
  | error fault => rfl
  | ok _ =>
      by_cases hown : (s.report call).id = s.id
      · simp [send, reported, hown]
        rfl
      · simp [send, reported, hown]

/-- A session is where the last report under its own identifier says. -/
theorem position_afterCalls (calls : List (Call × Except IoFault Unit)) :
    (s.afterCalls calls).position =
      placeAfter s.position ((s.reports calls).filter (·.id = s.id)) := by
  induction calls generalizing s with
  | nil => rfl
  | cons c rest ih =>
      have hrest := ih (s.afterCall c)
      rw [id_afterCall, position_afterCall] at hrest
      rw [reports, List.filter_append, Record.placeAfter_append]
      exact hrest

end

end Session

section
variable {limit : Nat} {ended : Bool} {part : Bytes}

theorem Wire.updatesIn_encodePayload (r : Record) :
    updatesIn (encodePayload [r]) = [r].filter Record.hasValidId := by
  have hlength : [r].length < 2 ^ 32 := Nat.le_of_ble_eq_true rfl
  rw [updatesIn, decodePayload_encodePayload hlength, frameOf_single]
  cases h : r.hasValidId with
  | true => simp [h]
  | false => simp [h]

/-- The length in front of a record is within the limit. -/
theorem readStream_of_announced (hlimit : Wire.countLength + Wire.recordLength ≤ limit) (r : Record)
    (rest : Bytes) :
    readStream limit ended
        (Wire.bigEndian Wire.prefixLength (Wire.encodePayload [r]).length ++ rest) =
      readPayloadOf limit ended (Wire.encodePayload [r]).length rest := by
  have hlength : (Wire.encodePayload [r]).length = Wire.countLength + Wire.recordLength :=
    Wire.encodePayload_length [r]
  rw [readStream_of_word (Wire.bigEndian_length ..), hlength,
    Wire.wordValue_bigEndian_of_lt (Nat.le_of_ble_eq_true rfl), if_neg (Nat.not_lt.mpr hlimit)]

theorem readStream_encodeFrame (hlimit : Wire.countLength + Wire.recordLength ≤ limit) (r : Record)
    (rest : Bytes) :
    readStream limit ended (Wire.encodeFrame [r] ++ rest) =
      (readStream limit ended rest).prepend ([r].filter Record.hasValidId) := by
  rw [Wire.encodeFrame_eq, List.append_assoc, readStream_of_announced hlimit,
    readPayloadOf_of_complete rfl, Wire.updatesIn_encodePayload]

/-- Some of the frame of a record has come, but not all of it. -/
def Wire.Unfinished (part : Bytes) : Prop :=
  ∃ r, part <+: encodeFrame [r] ∧ part.length < (encodeFrame [r]).length

theorem updates_of_unfinished (hlimit : Wire.countLength + Wire.recordLength ≤ limit)
    (h : Wire.Unfinished part) : (readStream limit ended part).updates = [] := by
  obtain ⟨r, hpart, hshort⟩ := h
  by_cases hword : part.length < Wire.prefixLength
  · rw [readStream_of_short hword]
    rfl
  · rw [Wire.encodeFrame_eq] at hpart hshort
    obtain ⟨rest, rfl⟩ := List.prefix_of_prefix_length_le (List.prefix_append ..) hpart
      (by rw [Wire.bigEndian_length]; exact Nat.not_lt.mp hword)
    rw [List.length_append, List.length_append, Nat.add_lt_add_iff_left] at hshort
    rw [readStream_of_announced hlimit, readPayloadOf_of_short hshort]
    rfl

/-- Of the reports that come in a stream, those under a positive identifier are updates. -/
theorem updates_of_frames (hlimit : Wire.countLength + Wire.recordLength ≤ limit)
    (hpart : Wire.Unfinished part) (rs : List Record) :
    (readStream limit ended (rs.flatMap (fun r => Wire.encodeFrame [r]) ++ part)).updates =
      rs.filter Record.hasValidId := by
  induction rs with
  | nil => exact updates_of_unfinished hlimit hpart
  | cons r rest ih =>
      rw [List.flatMap_cons, List.append_assoc, readStream_encodeFrame hlimit, Reading.prepend, ih,
        ← List.filter_append]
      rfl

end

end PositionRelay
