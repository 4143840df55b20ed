import PositionRelay.Proofs.Wire.Delimiting
import PositionRelay.Proofs.Wire.Delivery

/-!
# Keeping one's place in a stream

After a call for a frame the reader is at the beginning of a frame again if and only if the call took
one complete frame. The outcome tells: after a value it did, and after an error it did if and only if
the error is not fatal (`exists_taken`), whichever of its ways the call has failed in.

So a reader that goes on after every error that is not fatal finds all frames of a stream of complete
ones, each answered for itself, and then the end (`readings_of_frames`).
-/
namespace PositionRelay.Wire

/-- No read comes back with nothing; it may fail. -/
def Lively (as : List Arrival) : Prop := ∀ a ∈ as, a ≠ .chunk []

instance (as : List Arrival) : Decidable (Lively as) :=
  inferInstanceAs (Decidable (∀ a ∈ as, a ≠ .chunk []))

theorem lively_append {as bs : List Arrival} : Lively (as ++ bs) ↔ Lively as ∧ Lively bs :=
  List.forall_mem_append

theorem Steady.lively {as : List Arrival} (h : Steady as) : Lively as := by
  rintro a ha rfl
  exact h _ ha rfl

/-- What the outcome of a call says about the bytes that it took. -/
def Reading.Explains (taken : Bytes) : Reading Frame → Prop
  | .value _ => Whole taken
  | .failed e => e.isFatal = false ↔ Whole taken
  | .ended => taken = []
  | .stalled => ¬ Whole taken

/-- The first read that fails, if there is one. -/
theorem Lively.steady_or_fault {as : List Arrival} (h : Lively as) :
    Steady as ∨ ∃ before cause after, as = before ++ .fault cause :: after ∧ Steady before := by
  induction as with
  | nil => exact .inl (List.forall_mem_nil _)
  | cons a as ih =>
      obtain ⟨ha, has⟩ := List.forall_mem_cons.mp h
      have further : a.IsSteady → Steady (a :: as) ∨
          ∃ before cause after, a :: as = before ++ .fault cause :: after ∧ Steady before := by
        intro hsteady
        rcases ih has with hall | ⟨before, cause, after, rfl, hbefore⟩
        · exact .inl (List.forall_mem_cons.mpr ⟨hsteady, hall⟩)
        · exact .inr ⟨a :: before, cause, after, rfl,
            List.forall_mem_cons.mpr ⟨hsteady, hbefore⟩⟩
      cases a with
      | chunk bytes => exact further fun he => ha (by rw [he])
      | pause wait => exact further trivial
      | fault cause => exact .inr ⟨[], cause, as, rfl, List.forall_mem_nil _⟩

section
variable {limit : Nat} {ended : Bool} {as : List Arrival} {stream : Bytes}

theorem lt_of_few (hfew : stream.length < demand limit stream) :
    stream.length < prefixLength + announced stream := by
  by_cases hlong : prefixLength ≤ stream.length
  · exact (lt_of_lt_demand hlong hfew).2
  · omega

theorem not_whole_of_few (hfew : stream.length < demand limit stream) : ¬ Whole stream := by
  intro hwhole
  have := lt_of_few hfew
  rw [Whole] at hwhole
  omega

theorem explains_fatal {e : CodecError} {taken : Bytes} (he : e.isFatal = true)
    (htaken : ¬ Whole taken) : Reading.Explains taken (.failed e) :=
  iff_of_false (by simp [he]) htaken

/-- A stream that ends too early. -/
theorem explains_at_end (hfew : stream.length < demand limit stream) :
    Reading.Explains stream (if stream = [] then .ended else answer (decodeFrame stream)) := by
  split
  · next hnil => exact hnil
  · obtain ⟨expected, received, he⟩ := exists_truncated (lt_of_few hfew)
    rw [he]
    exact explains_fatal rfl (not_whole_of_few hfew)

/-- All bytes are there that the reader asks for. -/
theorem explains_of_enough (henough : demand limit stream ≤ stream.length) :
    Reading.Explains (stream.take (demand limit stream))
      (if limit < announced stream then .failed (.payloadTooLarge (announced stream) limit)
      else answer (decodeFrame stream)) := by
  have hlong := Nat.le_trans (prefixLength_le_demand limit stream) henough
  rw [demand_of_long limit hlong] at henough ⊢
  by_cases hlimit : limit < announced stream
  · rw [if_pos hlimit, if_pos hlimit]
    -- Only the length was taken, and it is not zero.
    refine explains_fatal rfl fun hwhole => ?_
    rw [Whole, announced_take (Nat.le_refl _), List.length_take] at hwhole
    omega
  · rw [if_neg hlimit] at henough
    rw [if_neg hlimit, if_neg hlimit]
    have hwhole := whole_take henough
    cases hd : decodeFrame stream with
    | ok found => exact hwhole
    | error e =>
        rcases decodeFrame_eq_error hd with ⟨expected, received, rfl⟩ | hmild
        · exact absurd hd (decodeFrame_ne_truncated henough expected received)
        · exact iff_of_true hmild hwhole

/-- What a call takes is the beginning of the stream, and its outcome explains it. -/
theorem exists_taken {s : Source} (h : Lively s.arrivals) (limit : Nat) :
    ∃ taken, s.bytes = taken ++ (s.readFrame limit).2.bytes ∧
      (s.readFrame limit).1.Explains taken ∧ Lively (s.readFrame limit).2.arrivals := by
  obtain ⟨as, ended⟩ := s
  have nothing : Lively [] := List.forall_mem_nil _
  -- The reader has enough before the first failing read, or it gets to where nothing more comes.
  have enough : ∀ {before} later, Steady before → as = before ++ later →
      ¬ (brought before).length < demand limit (brought before) →
        ∃ taken, brought as = taken ++ (Source.readFrame ⟨as, ended⟩ limit).2.bytes ∧
          (Source.readFrame ⟨as, ended⟩ limit).1.Explains taken ∧
            Lively (Source.readFrame ⟨as, ended⟩ limit).2.arrivals := by
    rintro before later hbefore rfl henough
    obtain ⟨left, hsteady, hleft, hread⟩ :=
      @readFrame_of_enough limit ended _ hbefore (Nat.not_lt.mp henough) later
    refine ⟨(brought before).take (demand limit (brought before)), ?_⟩
    rw [hread]
    refine ⟨?_, explains_of_enough (Nat.not_lt.mp henough),
      lively_append.mpr ⟨hsteady.lively, (lively_append.mp h).2⟩⟩
    change brought (before ++ later) = _ ++ brought (left ++ later)
    rw [brought_append, brought_append, hleft, ← List.append_assoc, List.take_append_drop]
  rcases h.steady_or_fault with hsteady | ⟨before, cause, after, rfl, hbefore⟩
  · by_cases hfew : (brought as).length < demand limit (brought as)
    · refine ⟨brought as, ?_⟩
      cases ended with
      | true =>
          rw [readFrame_at_end hsteady hfew]
          exact ⟨(List.append_nil _).symm, explains_at_end hfew, nothing⟩
      | false =>
          rw [readFrame_in_silence hsteady hfew]
          exact ⟨(List.append_nil _).symm, not_whole_of_few hfew, nothing⟩
    · exact enough [] hsteady (List.append_nil _).symm hfew
  · by_cases hfew : (brought before).length < demand limit (brought before)
    · refine ⟨brought before, ?_⟩
      rw [readFrame_at_fault hbefore hfew]
      exact ⟨brought_append .., explains_fatal rfl (not_whole_of_few hfew),
        (List.forall_mem_cons.mp (lively_append.mp h).2).2⟩
    · exact enough _ hbefore rfl hfew

/-- What a number of calls in a row come to. -/
def Source.readings (limit : Nat) : Nat → Source → List (Reading Frame)
  | 0, _ => []
  | n + 1, s => (s.readFrame limit).1 :: readings limit n (s.readFrame limit).2

/-- What a payload comes to. -/
def verdict (payload : Bytes) : Reading Frame :=
  match decodePayload payload with
  | .ok frame => .value frame
  | .error e => .failed e

theorem answer_of_whole {frame : Bytes} (hframe : Whole frame) (rest : Bytes) :
    answer (decodeFrame (frame ++ rest)) = verdict (frame.drop prefixLength) := by
  have hall : (frame.drop prefixLength).length ≤ announced frame := by
    rw [Whole] at hframe
    rw [List.length_drop]
    omega
  rw [decodeFrame_append_of_complete (Nat.le_of_eq hframe.symm),
    decodeFrame_of_whole (Nat.le_of_eq hframe.symm), List.take_of_length_le hall, verdict]
  cases decodePayload (frame.drop prefixLength) <;> rfl

/-- A complete frame is taken and answered, and the next call goes on behind it. -/
theorem readFrame_of_frame (h : Steady as) {frame rest : Bytes} (hframe : Whole frame)
    (hlimit : announced frame ≤ limit) (hbytes : brought as = frame ++ rest) :
    ∃ left, Steady left ∧ brought left = rest ∧
      Source.readFrame ⟨as, ended⟩ limit =
        (verdict (frame.drop prefixLength), ⟨left, ended⟩) := by
  have hlong : prefixLength ≤ frame.length := by
    rw [Whole] at hframe
    omega
  have hsame : announced (brought as) = announced frame := by
    rw [hbytes, announced_append hlong]
  have hdemand : demand limit (brought as) = frame.length := by
    rw [demand_of_long, hsame, if_neg (Nat.not_lt.mpr hlimit), ← hframe]
    rw [hbytes, List.length_append]
    omega
  have henough : demand limit (brought as) ≤ (brought as).length := by
    rw [hdemand, hbytes, List.length_append]
    exact Nat.le_add_right ..
  obtain ⟨left, hleft, hrest, hread⟩ := @readFrame_of_enough limit ended _ h henough []
  refine ⟨left, hleft, ?_, ?_⟩
  · rw [hrest, hdemand, hbytes, List.drop_left]
  · rw [List.append_nil, List.append_nil, hsame, if_neg (Nat.not_lt.mpr hlimit), hbytes,
      answer_of_whole hframe] at hread
    exact hread

theorem readings_at_end (h : Steady as) (hnil : brought as = []) (n : Nat) :
    Source.readings limit n ⟨as, true⟩ = .replicate n .ended := by
  induction n generalizing as with
  | zero => rfl
  | succ n ih =>
      have hfew : (brought as).length < demand limit (brought as) := by
        rw [hnil]
        exact Nat.lt_of_lt_of_le (by decide) (prefixLength_le_demand limit [])
      have hnext : Steady [] := List.forall_mem_nil _
      rw [Source.readings, readFrame_at_end h hfew, if_pos hnil, List.replicate_succ]
      exact congrArg _ (ih hnext rfl)

/-- A stream of complete frames is answered frame by frame, whatever is in them, and then has ended. -/
theorem readings_of_frames {frames : List Bytes}
    (hframes : ∀ frame ∈ frames, Whole frame ∧ announced frame ≤ limit) (h : Steady as)
    (hbytes : brought as = frames.flatten) (n : Nat) :
    Source.readings limit (frames.length + n) ⟨as, true⟩ =
      (frames.map fun frame => verdict (frame.drop prefixLength)) ++ .replicate n .ended := by
  induction frames generalizing as with
  | nil =>
      rw [List.length_nil, Nat.zero_add]
      exact readings_at_end h hbytes n
  | cons frame frames ih =>
      obtain ⟨⟨hframe, hlimit⟩, hrest⟩ := List.forall_mem_cons.mp hframes
      obtain ⟨left, hleft, hnext, hread⟩ :=
        @readFrame_of_frame limit true _ h _ _ hframe hlimit hbytes
      rw [List.length_cons, Nat.add_right_comm, Source.readings, hread, ih hrest hleft hnext]
      rfl

end

/-- An error is not fatal if and only if the call that failed took one complete frame. So calls in a row
on a stream of complete frames within the limit answer for each payload what decoding it answers, and
find the end after the last one. -/
theorem fatal_unless_whole_frame :
    (∀ (s rest : Source) limit e, Lively s.arrivals → s.readFrame limit = (.failed e, rest) →
      Lively rest.arrivals ∧
        ∃ taken, s.bytes = taken ++ rest.bytes ∧ (e.isFatal = false ↔ Whole taken)) ∧
    ∀ limit (frames : List Bytes) as,
      (∀ frame ∈ frames, Whole frame ∧ announced frame ≤ limit) → Steady as →
        brought as = frames.flatten → ∀ n,
          Source.readings limit (frames.length + n) ⟨as, true⟩ =
            (frames.map fun frame => verdict (frame.drop prefixLength)) ++
              .replicate n .ended := by
  refine ⟨?_, fun limit frames as => readings_of_frames⟩
  intro s rest limit e h hread
  obtain ⟨taken, hbytes, hexplains, hlively⟩ := exists_taken h limit
  rw [hread] at hbytes hexplains hlively
  exact ⟨hlively, taken, hbytes, hexplains⟩

/-- A frame without a payload, one whose payload is too short for a count, and an update. -/
def unevenFrames : List Bytes := [[0, 0, 0, 0], [0, 0, 0, 1, 9], encodeFrame [.resting 2 .zero .zero]]

/-- The frames in pieces that do not end where the frames do, with a pause. -/
def unevenPieces : List Arrival :=
  let stream := unevenFrames.flatten
  [.chunk (stream.take 6), .pause ⟨5⟩, .chunk ((stream.drop 6).take 20), .chunk (stream.drop 26)]

/-- All three are answered, two of them by an error. With no payload within the limit, the second one
is fatal, and its payload stays behind. -/
theorem readings_of_unevenPieces :
    Source.readings 64 5 ⟨unevenPieces, true⟩ =
      [.failed (.missingRecordCount 0), .failed (.missingRecordCount 1),
        .value (.update (.resting 2 .zero .zero)), .ended, .ended] ∧
    ∃ taken, [(0 : UInt8), 0, 0, 1, 9] = taken ++ [9] ∧
      ((CodecError.payloadTooLarge 1 0).isFatal = false ↔ Whole taken) := by
  obtain ⟨htaken, hframes⟩ := fatal_unless_whole_frame
  constructor
  · have h := hframes 64 unevenFrames unevenPieces (by decide +kernel) (by decide +kernel)
      (by decide +kernel) 2
    have hvalue : (unevenFrames.map fun frame => verdict (frame.drop prefixLength)) =
        [.failed (.missingRecordCount 0), .failed (.missingRecordCount 1),
          .value (.update (.resting 2 .zero .zero))] := by decide +kernel
    rw [hvalue] at h
    exact h
  · have hread : (⟨[.chunk [0, 0, 0, 1, 9]], true⟩ : Source).readFrame 0 =
        (.failed (.payloadTooLarge 1 0), ⟨[.chunk [9]], true⟩) := by decide +kernel
    exact (htaken _ _ _ _ (by decide +kernel) hread).2

end PositionRelay.Wire
