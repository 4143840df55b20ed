import PositionRelay.Duration
import PositionRelay.Wire.Frame

/-!
# Reading from a stream

A source lists what a reader will find: chunks of bytes, pauses in which nothing is there, and reads
that fail. After the list the stream has either ended or stays silent for good. One read returns at
most the rest of one chunk, so a prefix or payload is collected over as many reads as it takes. A
read that returns nothing counts as the end of the stream.

`readFrameWithin` is a read under a time limit. It sees only what arrives in time; bytes that it has
taken when the limit expires are lost.
-/
namespace PositionRelay.Wire

/-- What one read meets. -/
inductive Arrival where
  | chunk (bytes : Bytes)
  | pause (wait : Duration)
  | fault (cause : IoFault)
deriving DecidableEq, Repr

structure Source where
  arrivals : List Arrival
  /-- The stream ends after the arrivals; otherwise nothing follows, not even an end. -/
  ended : Bool := true
deriving DecidableEq, Repr

/-- How collecting a number of bytes came out. -/
inductive Collected where
  | full (bytes : Bytes)
  | short (received : Nat)
  | broken (cause : IoFault)
  | stalled
deriving DecidableEq, Repr

/-- Reads until `need` more bytes have joined `got`. -/
def collect (ended : Bool) : Nat → Bytes → List Arrival → Collected × List Arrival
  | 0, got, rest => (.full got, rest)
  | _ + 1, got, [] => (if ended then .short got.length else .stalled, [])
  | need + 1, got, .pause _ :: rest => collect ended (need + 1) got rest
  | _ + 1, _, .fault cause :: rest => (.broken cause, rest)
  | need + 1, got, .chunk bytes :: rest =>
      if bytes.isEmpty then (.short got.length, rest)
      else if bytes.length ≤ need + 1 then
        collect ended (need + 1 - bytes.length) (got ++ bytes) rest
      else
        (.full (got ++ bytes.take (need + 1)), .chunk (bytes.drop (need + 1)) :: rest)

/-- Bytes that the arrivals bring. -/
def volume : List Arrival → Nat
  | [] => 0
  | .chunk bytes :: rest => bytes.length + volume rest
  | _ :: rest => volume rest

@[simp] theorem volume_append (as bs : List Arrival) :
    volume (as ++ bs) = volume as + volume bs := by
  induction as with
  | nil => simp [volume]
  | cons a as ih => cases a <;> simp [volume, ih, Nat.add_assoc]

/-- Bytes that were collected no longer arrive. -/
theorem volume_collect {ended : Bool} {need : Nat} {got bytes : Bytes} {as rest : List Arrival}
    (h : collect ended need got as = (.full bytes, rest)) : volume rest + need = volume as := by
  fun_induction collect ended need got as with
  | case1 => cases h; rfl
  | case2 => split at h <;> cases h
  | case3 got rest need wait ih => exact ih h
  | case4 => cases h
  | case5 => cases h
  | case6 got rest need bytes hne hle ih =>
      have := ih h
      simp only [volume]
      omega
  | case7 got rest need bytes hne hle =>
      cases h
      simp only [volume, List.length_drop]
      omega

/-- How a read came out. -/
inductive Reading (α : Type) where
  | value (a : α)
  /-- The stream ended before the first byte. -/
  | ended
  | failed (error : CodecError)
  /-- Nothing more arrives, and the stream does not end either. -/
  | stalled
deriving DecidableEq, Repr

namespace Source

def collect (s : Source) (need : Nat) : Collected × Source :=
  let (result, rest) := Wire.collect s.ended need [] s.arrivals
  (result, { s with arrivals := rest })

/-- The payload length in front of a frame. -/
def readPrefix (s : Source) : Reading Nat × Source :=
  let (result, rest) := s.collect prefixLength
  (match result with
    | .full bytes => .value (wordValue bytes)
    | .short 0 => .ended
    | .short received => .failed (.truncated prefixLength received)
    | .broken cause => .failed (.io cause)
    | .stalled => .stalled, rest)

/-- A payload of known length; one over the limit is refused without reading. -/
def readPayload (s : Source) (length limit : Nat) : Reading Bytes × Source :=
  if limit < length then (.failed (.payloadTooLarge length limit), s)
  else
    let (result, rest) := s.collect length
    (match result with
      | .full bytes => .value bytes
      | .short received => .failed (.truncated length received)
      | .broken cause => .failed (.io cause)
      | .stalled => .stalled, rest)

/-- The next frame of the stream. -/
def readFrame (s : Source) (limit : Nat) : Reading Frame × Source :=
  match s.readPrefix with
  | (.value length, rest) =>
      match rest.readPayload length limit with
      | (.value payload, rest) =>
          (match decodePayload payload with
            | .ok frame => .value frame
            | .error e => .failed e, rest)
      | (.ended, rest) => (.ended, rest)
      | (.failed e, rest) => (.failed e, rest)
      | (.stalled, rest) => (.stalled, rest)
  | (.ended, rest) => (.ended, rest)
  | (.failed e, rest) => (.failed e, rest)
  | (.stalled, rest) => (.stalled, rest)

/-- Splits arrivals into those that come within a time limit and those that come later. -/
def splitAt : Nat → List Arrival → List Arrival × List Arrival
  | _, [] => ([], [])
  | time, .pause wait :: rest =>
      if wait.nanoseconds ≤ time then
        let (early, late) := splitAt (time - wait.nanoseconds) rest
        (.pause wait :: early, late)
      else ([.pause ⟨time⟩], .pause ⟨wait.nanoseconds - time⟩ :: rest)
  | time, a :: rest =>
      let (early, late) := splitAt time rest
      (a :: early, late)

/-- Bytes still to arrive. -/
def volume (s : Source) : Nat := Wire.volume s.arrivals

theorem volume_readPrefix {s rest : Source} {length : Nat}
    (h : s.readPrefix = (.value length, rest)) : rest.volume + prefixLength = s.volume := by
  unfold readPrefix collect at h
  cases hc : Wire.collect s.ended prefixLength [] s.arrivals with
  | mk result left =>
      rw [hc] at h
      cases result with
      | full bytes => cases h; exact volume_collect hc
      | short received => cases received <;> cases h
      | broken cause => cases h
      | stalled => cases h

theorem volume_readPayload {s rest : Source} {length limit : Nat} {payload : Bytes}
    (h : s.readPayload length limit = (.value payload, rest)) :
    rest.volume + length = s.volume := by
  unfold readPayload collect at h
  split at h
  · cases h
  · cases hc : Wire.collect s.ended length [] s.arrivals with
    | mk result left =>
        rw [hc] at h
        cases result with
        | full bytes => cases h; exact volume_collect hc
        | short received => cases h
        | broken cause => cases h
        | stalled => cases h

/-- Reading a frame takes at least its length from the stream. -/
theorem volume_readFrame {s rest : Source} {limit : Nat} {frame : Frame}
    (h : s.readFrame limit = (.value frame, rest)) : rest.volume < s.volume := by
  unfold readFrame at h
  split at h
  · next length left hp =>
      split at h
      · next payload left' hq =>
          have h₁ := volume_readPrefix hp
          have h₂ := volume_readPayload hq
          obtain ⟨-, rfl⟩ := Prod.mk.inj h
          unfold prefixLength at h₁
          omega
      all_goals cases h
  all_goals cases h

theorem volume_splitAt (time : Nat) (as : List Arrival) :
    Wire.volume (splitAt time as).1 + Wire.volume (splitAt time as).2 = Wire.volume as := by
  fun_induction splitAt time as with
  | case1 => rfl
  | case2 time wait rest hle early late he ih => rw [he] at ih; simpa [Wire.volume] using ih
  | case3 => simp [Wire.volume]
  | case4 time a rest hp early late he ih =>
      rw [he] at ih
      cases a <;> simp only [Wire.volume] at ih ⊢ <;> omega

/-- The next frame, as far as it arrives within a time limit; `stalled` when it does not. -/
def readFrameWithin (s : Source) (patience : Duration) (limit : Nat) : Reading Frame × Source :=
  let (early, late) := splitAt patience.nanoseconds s.arrivals
  let (result, rest) := readFrame ⟨early, s.ended && late.isEmpty⟩ limit
  (result, { s with arrivals := rest.arrivals ++ late })

theorem volume_readFrameWithin {s rest : Source} {patience : Duration} {limit : Nat}
    {frame : Frame} (h : s.readFrameWithin patience limit = (.value frame, rest)) :
    rest.volume < s.volume := by
  unfold readFrameWithin at h
  have hs := volume_splitAt patience.nanoseconds s.arrivals
  cases hr : readFrame ⟨(splitAt patience.nanoseconds s.arrivals).1,
      s.ended && (splitAt patience.nanoseconds s.arrivals).2.isEmpty⟩ limit with
  | mk result left =>
      dsimp only at h
      rw [hr] at h
      cases h
      have := volume_readFrame hr
      simp only [volume, volume_append] at this hs ⊢
      omega

/-- More bytes arrive after everything else. -/
def push (s : Source) (bytes : Bytes) : Source :=
  if bytes.isEmpty then s else { s with arrivals := s.arrivals ++ [.chunk bytes] }

/-- Everything that arrives, in order. -/
def bytes (s : Source) : Bytes :=
  s.arrivals.flatMap fun
    | .chunk bytes => bytes
    | _ => []

end Source
end PositionRelay.Wire
