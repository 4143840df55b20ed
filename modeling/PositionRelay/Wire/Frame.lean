import PositionRelay.Wire.Error
import PositionRelay.Wire.Record

/-!
# Frames

A frame is a 4-byte payload length followed by the payload: a 4-byte record count and that many
records. A single record is an update; any other number is a snapshot, whose records without a
valid identifier are left out. `decodePayload` answers for every string of bytes, and `decodeFrame`
says how many bytes of a buffer the frame took.
-/
namespace PositionRelay

inductive Frame where
  | update (record : Record)
  | snapshot (records : Batch)
deriving DecidableEq, Repr

namespace Frame

def records : Frame → Batch
  | update r => [r]
  | snapshot rs => rs

def length (f : Frame) : Nat := f.records.length

def isEmpty (f : Frame) : Bool := f.length == 0

/-- Equality of frames of one kind, record by record, as numbers. -/
def same : Frame → Frame → Bool
  | update a, update b => a.same b
  | snapshot as, snapshot bs =>
      as.length == bs.length && (as.zip bs).all fun (a, b) => a.same b
  | _, _ => false

end Frame

namespace Wire

/-- Bytes of the payload length in front of a payload. -/
def prefixLength : Nat := 4

/-- Bytes of the record count in front of the records. -/
def countLength : Nat := 4

/-- The payload limit unless a configuration sets another one. -/
def defaultPayloadLimit : Nat := 1048576

def encodePayload (records : Batch) : Bytes :=
  bigEndian countLength records.length ++ encodeRecords records

/-- The frame of a list of records. Length and count are 32-bit words and wrap on lists that do not
fit them. -/
def encodeFrame (records : Batch) : Bytes :=
  bigEndian prefixLength (countLength + recordLength * records.length) ++ encodePayload records

def decodePayload (payload : Bytes) : Except CodecError Frame :=
  if payload.length < countLength then .error (.missingRecordCount payload.length)
  else
    let declared := wordValue (payload.take countLength)
    let body := payload.drop countLength
    if recordLength * declared ≠ body.length then
      .error (.recordCountMismatch declared payload.length)
    else
      match decodeRecords declared body with
      | [r] => if r.hasValidId then .ok (.update r) else .error (.invalidIdentifier r.id)
      | records => .ok (.snapshot (records.filter Record.hasValidId))

/-- The first frame of a buffer and the number of bytes that it takes. -/
def decodeFrame (buffer : Bytes) : Except CodecError (Frame × Nat) :=
  if buffer.length < prefixLength then .error (.truncated prefixLength buffer.length)
  else
    let length := wordValue (buffer.take prefixLength)
    let rest := buffer.drop prefixLength
    if rest.length < length then .error (.truncated length rest.length)
    else (decodePayload (rest.take length)).map fun frame => (frame, prefixLength + length)

/-- A frame takes at least the four bytes of its length. -/
theorem prefixLength_le_of_decodeFrame {buffer : Bytes} {frame : Frame} {used : Nat}
    (h : decodeFrame buffer = .ok (frame, used)) : prefixLength ≤ used := by
  unfold decodeFrame at h
  split at h
  · cases h
  · dsimp only at h
    split at h
    · cases h
    · cases hp : decodePayload
          ((buffer.drop prefixLength).take (wordValue (buffer.take prefixLength))) with
      | error e => rw [hp] at h; cases h
      | ok f =>
          rw [hp] at h
          cases h
          exact Nat.le_add_right _ _

/-- Decodes what is left again and again, up to the first error or the end of the buffer. Each frame
comes with the number of bytes that it took. -/
def decodeAll (buffer : Bytes) : List (Except CodecError (Frame × Nat)) :=
  match hf : decodeFrame buffer with
  | .error e => [.error e]
  | .ok (frame, used) =>
      have hu := prefixLength_le_of_decodeFrame hf
      if hr : used < buffer.length then
        have : buffer.length - used < buffer.length := by unfold prefixLength at hu; omega
        .ok (frame, used) :: decodeAll (buffer.drop used)
      else [.ok (frame, used)]
termination_by buffer.length
decreasing_by
  rw [List.length_drop]
  exact this

/-- Cuts a stream into complete frames, each with its length in front, and what is left. -/
def splitFrames (stream : Bytes) : List Bytes × Bytes :=
  if stream.length < prefixLength then ([], stream)
  else
    let size := prefixLength + wordValue (stream.take prefixLength)
    if stream.length < size then ([], stream)
    else
      let (frames, rest) := splitFrames (stream.drop size)
      (stream.take size :: frames, rest)
termination_by stream.length
decreasing_by
  simp only [List.length_drop, prefixLength] at *
  omega

end Wire
end PositionRelay
