import PositionRelay.Proofs.Wire.RoundTrip

/-!
# Frames in a buffer

Whether a buffer begins with a complete frame is decided by its first bytes: the length in front and
the number of bytes behind it. If it does, what comes behind the frame makes no difference to the
decoder (`decodeFrame_append_of_complete`). If it does not, the buffer is a proper prefix of a complete
frame and the decoder says that it is truncated, and nothing else is called truncated
(`exists_truncated_iff`).

So no frame is a proper prefix of another one, and a row of frames is cut apart again by decoding what
is left as long as something is left (`exists_cut`).
-/
namespace PositionRelay.Wire

/-- A complete frame: a length, and as many bytes as it says. -/
def Whole (bytes : Bytes) : Prop := bytes.length = prefixLength + announced bytes

instance (bytes : Bytes) : Decidable (Whole bytes) :=
  inferInstanceAs (Decidable (bytes.length = prefixLength + announced bytes))

theorem announced_take {n : Nat} (h : prefixLength ≤ n) (bytes : Bytes) :
    announced (bytes.take n) = announced bytes := by
  rw [announced, announced, List.take_take, Nat.min_eq_left h]

section
variable {buffer : Bytes}

/-- The first frame of a buffer, if all of it is there. -/
theorem whole_take (h : prefixLength + announced buffer ≤ buffer.length) :
    Whole (buffer.take (prefixLength + announced buffer)) := by
  rw [Whole, List.length_take, Nat.min_eq_left h, announced_take (Nat.le_add_right ..)]

/-- What is left of a complete frame without its end announces more than it has. -/
theorem lt_of_cut {part frame : Bytes} (hframe : Whole frame) (hpart : part <+: frame)
    (hne : part ≠ frame) : part.length < prefixLength + announced part := by
  have hlt : part.length < frame.length :=
    Nat.lt_of_le_of_ne hpart.length_le fun he => hne (hpart.eq_of_length he)
  obtain ⟨rest, rfl⟩ := hpart
  by_cases hlong : prefixLength ≤ part.length
  · rw [Whole, announced_append hlong] at hframe
    omega
  · omega

/-- Something can be put behind such a part that completes it. -/
theorem exists_whole_append (h : buffer.length < prefixLength + announced buffer) :
    ∃ more, more ≠ [] ∧ Whole (buffer ++ more) := by
  have hlong : ∀ start : Bytes, prefixLength ≤ start.length →
      start.length ≤ prefixLength + announced start →
        Whole (start ++ .replicate (prefixLength + announced start - start.length) 0) := by
    intro start hstart hle
    rw [Whole, announced_append hstart, List.length_append, List.length_replicate]
    omega
  have nonempty : ∀ more, Whole (buffer ++ more) → more ≠ [] := by
    rintro more hwhole rfl
    rw [List.append_nil, Whole] at hwhole
    omega
  by_cases hstart : prefixLength ≤ buffer.length
  · exact ⟨_, nonempty _ (hlong buffer hstart (Nat.le_of_lt h)), hlong buffer hstart (Nat.le_of_lt h)⟩
  · -- The length itself is incomplete and is filled up first.
    have hfour : (buffer ++ .replicate (prefixLength - buffer.length) 0).length = prefixLength := by
      rw [List.length_append, List.length_replicate]
      omega
    have hwhole := hlong _ (Nat.le_of_eq hfour.symm) (by omega)
    rw [List.append_assoc] at hwhole
    exact ⟨_, nonempty _ hwhole, hwhole⟩

theorem exists_truncated (h : buffer.length < prefixLength + announced buffer) :
    ∃ expected received, decodeFrame buffer = .error (.truncated expected received) := by
  by_cases hlong : prefixLength ≤ buffer.length
  · exact ⟨_, _, decodeFrame_of_cut hlong h⟩
  · exact ⟨_, _, decodeFrame_of_short (Nat.lt_of_not_le hlong)⟩

theorem decodeFrame_ne_truncated (h : prefixLength + announced buffer ≤ buffer.length)
    (expected received : Nat) : decodeFrame buffer ≠ .error (.truncated expected received) := by
  rw [decodeFrame_of_whole h]
  intro he
  cases hp : decodePayload ((buffer.drop prefixLength).take (announced buffer)) with
  | ok frame =>
      rw [hp] at he
      cases he
  | error e =>
      rw [hp] at he
      cases he
      cases (decodePayload_eq_error hp).1

theorem exists_truncated_iff :
    (∃ expected received, decodeFrame buffer = .error (.truncated expected received)) ↔
      buffer.length < prefixLength + announced buffer := by
  refine ⟨?_, exists_truncated⟩
  rintro ⟨expected, received, he⟩
  exact Nat.lt_of_not_le fun h => decodeFrame_ne_truncated h expected received he

theorem decodeFrame_append_of_complete (h : prefixLength + announced buffer ≤ buffer.length)
    (more : Bytes) : decodeFrame (buffer ++ more) = decodeFrame buffer := by
  have hsame : announced (buffer ++ more) = announced buffer := announced_append (by omega) more
  have hmore : prefixLength + announced (buffer ++ more) ≤ (buffer ++ more).length := by
    rw [hsame, List.length_append]
    omega
  have hpayload : announced buffer ≤ (buffer.drop prefixLength).length := by
    rw [List.length_drop]
    omega
  rw [decodeFrame_of_whole hmore, decodeFrame_of_whole h, hsame,
    List.drop_append_of_le_length (by omega), List.take_append_of_le_length hpayload]

section
variable {frame : Frame} {used : Nat}

theorem complete_of_decodeFrame (h : decodeFrame buffer = .ok (frame, used)) :
    prefixLength + announced buffer ≤ buffer.length := by
  refine Nat.not_lt.mp fun hcut => ?_
  obtain ⟨expected, received, he⟩ := exists_truncated hcut
  rw [h] at he
  cases he

theorem countLength_le_announced (h : decodeFrame buffer = .ok (frame, used)) :
    countLength ≤ announced buffer := by
  have hcomplete := complete_of_decodeFrame h
  refine Nat.not_lt.mp fun hshort => ?_
  have hfew : ((buffer.drop prefixLength).take (announced buffer)).length < countLength :=
    Nat.lt_of_le_of_lt (List.length_take_le ..) hshort
  rw [decodeFrame_of_whole hcomplete, decodePayload_of_short hfew] at h
  cases h

/-- The bytes that a frame took are a complete frame, which decodes to the same behind which nothing
matters. -/
theorem decodeFrame_take_append (h : decodeFrame buffer = .ok (frame, used)) (more : Bytes) :
    Whole (buffer.take used) ∧ decodeFrame (buffer.take used ++ more) = .ok (frame, used) := by
  have hcomplete := complete_of_decodeFrame h
  have hwhole := whole_take hcomplete
  rw [← used_of_decodeFrame h] at hwhole
  have hback := decodeFrame_append_of_complete (Nat.le_of_eq hwhole.symm) (buffer.drop used)
  rw [List.take_append_drop] at hback
  rw [decodeFrame_append_of_complete (Nat.le_of_eq hwhole.symm), ← hback]
  exact ⟨hwhole, h⟩

end
end

/-- Decodes what is left again and again, as long as something is left. -/
def decodeRest (buffer : Bytes) : List (Except CodecError (Frame × Nat)) :=
  if buffer = [] then [] else decodeAll buffer

theorem decodeAll_of_ok {buffer : Bytes} {frame : Frame} {used : Nat}
    (h : decodeFrame buffer = .ok (frame, used)) :
    decodeAll buffer = .ok (frame, used) :: decodeRest (buffer.drop used) := by
  rw [decodeAll]
  split
  · next e he =>
      rw [h] at he
      cases he
  · next frame' used' he =>
      rw [h] at he
      cases he
      unfold decodeRest
      split
      · next hlt => rw [if_neg (by simpa using hlt)]
      · next hle => rw [if_pos (List.drop_of_length_le (Nat.not_lt.mp hle))]

theorem decodeAll_of_error {buffer : Bytes} {e : CodecError} (h : decodeFrame buffer = .error e) :
    decodeAll buffer = [.error e] := by
  rw [decodeAll]
  split
  · next e' he =>
      rw [h] at he
      cases he
      rfl
  · next he =>
      rw [h] at he
      cases he

/-- Bytes that decode as a whole, with what they decode to. -/
structure Decoded where
  bytes : Bytes
  frame : Frame
  decodes : decodeFrame bytes = .ok (frame, bytes.length)

namespace Decoded

/-- What the decoder answers where such bytes begin. -/
def entry (d : Decoded) : Except CodecError (Frame × Nat) := .ok (d.frame, d.bytes.length)

theorem whole (d : Decoded) : Whole d.bytes := by
  have h := (decodeFrame_take_append d.decodes []).1
  rwa [List.take_length] at h

theorem decodeFrame_append (d : Decoded) (more : Bytes) :
    decodeFrame (d.bytes ++ more) = d.entry := by
  have h := (decodeFrame_take_append d.decodes more).2
  rwa [List.take_length] at h

theorem ne_nil (d : Decoded) : d.bytes ≠ [] := by
  intro h
  have hwhole := d.whole
  rw [Whole, h] at hwhole
  cases hwhole

end Decoded

/-- The first `n` bytes of a row of frames are some of the frames and a part of the next one. -/
structure CutAt (frames : List Decoded) (n : Nat) (complete later : List Decoded) (part : Bytes) :
    Prop where
  split : frames = complete ++ later
  taken : (frames.flatMap Decoded.bytes).take n = complete.flatMap Decoded.bytes ++ part
  inside : ∀ next ∈ later.head?, part <+: next.bytes ∧ part ≠ next.bytes
  at_end : later = [] → part = []

theorem CutAt.cons {frames complete later : List Decoded} {n : Nat} {part : Bytes}
    (h : CutAt frames n complete later part) (d : Decoded) :
    CutAt (d :: frames) (d.bytes.length + n) (d :: complete) later part where
  split := by rw [h.split, List.cons_append]
  taken := by
    rw [List.flatMap_cons, List.take_length_add_append, h.taken, List.flatMap_cons,
      List.append_assoc]
  inside := h.inside
  at_end := h.at_end

theorem cut_first {d : Decoded} {n : Nat} (hn : n < d.bytes.length) (frames : List Decoded) :
    CutAt (d :: frames) n [] (d :: frames) (d.bytes.take n) where
  split := rfl
  taken := by
    rw [List.flatMap_cons, List.take_append_of_le_length (Nat.le_of_lt hn)]
    rfl
  inside := by
    rintro next hnext
    obtain rfl : d = next := Option.some.inj hnext
    refine ⟨List.take_prefix .., fun he => ?_⟩
    have hlength := congrArg List.length he
    rw [List.length_take] at hlength
    omega
  at_end := nofun

/-- A row of frames can be cut anywhere. -/
theorem exists_cut (frames : List Decoded) (n : Nat) :
    ∃ complete later part, CutAt frames n complete later part := by
  induction frames generalizing n with
  | nil => exact ⟨[], [], [], rfl, List.take_nil, nofun, fun _ => rfl⟩
  | cons d frames ih =>
      by_cases hn : d.bytes.length ≤ n
      · obtain ⟨m, rfl⟩ := Nat.exists_eq_add_of_le hn
        obtain ⟨complete, later, part, hcut⟩ := ih m
        exact ⟨d :: complete, later, part, hcut.cons d⟩
      · exact ⟨[], d :: frames, d.bytes.take n, cut_first (Nat.lt_of_not_le hn) frames⟩

theorem decodeRest_row (complete : List Decoded) (part : Bytes) :
    decodeRest (complete.flatMap Decoded.bytes ++ part) =
      complete.map Decoded.entry ++ decodeRest part := by
  induction complete with
  | nil => rfl
  | cons d complete ih =>
      rw [List.flatMap_cons, List.append_assoc]
      have hne : d.bytes ++ (complete.flatMap Decoded.bytes ++ part) ≠ [] :=
        List.append_ne_nil_of_left_ne_nil d.ne_nil _
      rw [decodeRest, if_neg hne, decodeAll_of_ok (d.decodeFrame_append _), List.drop_left, ih]
      rfl

/-- Decoding again and again gives the frames that are there as a whole, and then says that the rest is
truncated, if there is a rest. -/
theorem CutAt.found {frames complete later : List Decoded} {n : Nat} {part : Bytes}
    (h : CutAt frames n complete later part) :
    let found := decodeRest ((frames.flatMap Decoded.bytes).take n)
    (part = [] → found = complete.map Decoded.entry) ∧
      (part ≠ [] → ∃ expected received,
        found = complete.map Decoded.entry ++ [.error (.truncated expected received)]) := by
  intro found
  have hfound : found = complete.map Decoded.entry ++ decodeRest part := by
    rw [← decodeRest_row, ← h.taken]
  rw [hfound]
  constructor
  · rintro rfl
    exact List.append_nil _
  · intro hne
    cases hlater : later with
    | nil => exact absurd (h.at_end hlater) hne
    | cons next rest =>
        obtain ⟨hpart, hcut⟩ := h.inside next (by rw [hlater]; rfl)
        obtain ⟨expected, received, he⟩ := exists_truncated (lt_of_cut next.whole hpart hcut)
        refine ⟨expected, received, ?_⟩
        rw [decodeRest, if_neg hne, decodeAll_of_error he]

/-- A decoded frame takes at least eight bytes of the buffer; these decode to the same with anything
behind them, and without their end they are truncated. An error that is not about truncation stays
whatever follows, and what is truncated can be completed. So decoding again and again finds the frames
of a row, as far as they are there. -/
theorem frames_delimit_themselves :
    (∀ buffer frame used, decodeFrame buffer = .ok (frame, used) →
      8 ≤ used ∧ used ≤ buffer.length ∧
        (∀ more, decodeFrame (buffer.take used ++ more) = .ok (frame, used)) ∧
        ∀ part, part <+: buffer.take used → part ≠ buffer.take used →
          ∃ expected received, decodeFrame part = .error (.truncated expected received)) ∧
    (∀ buffer e, decodeFrame buffer = .error e →
      (∀ expected received, e ≠ .truncated expected received) →
        ∀ more, decodeFrame (buffer ++ more) = .error e) ∧
    (∀ buffer expected received, decodeFrame buffer = .error (.truncated expected received) →
      ∃ more, more ≠ [] ∧ Whole (buffer ++ more) ∧
        ∀ expected received, decodeFrame (buffer ++ more) ≠ .error (.truncated expected received)) ∧
    ∀ (frames : List Decoded) n,
      (∃ complete later part, CutAt frames n complete later part) ∧
        ∀ complete later part, CutAt frames n complete later part →
          let found := decodeRest ((frames.flatMap Decoded.bytes).take n)
          (part = [] → found = complete.map Decoded.entry) ∧
            (part ≠ [] → ∃ expected received,
              found = complete.map Decoded.entry ++ [.error (.truncated expected received)]) := by
  refine ⟨?_, ?_, ?_, fun frames n => ⟨exists_cut frames n, fun _ _ _ => CutAt.found⟩⟩
  · intro buffer frame used h
    have hcomplete := complete_of_decodeFrame h
    have hcount := countLength_le_announced h
    have hused := used_of_decodeFrame h
    have hfour : prefixLength = 4 ∧ countLength = 4 := ⟨rfl, rfl⟩
    refine ⟨by omega, by omega, fun more => (decodeFrame_take_append h more).2, ?_⟩
    intro part hpart hne
    exact exists_truncated (lt_of_cut (decodeFrame_take_append h []).1 hpart hne)
  · intro buffer e he hother more
    have hcomplete : prefixLength + announced buffer ≤ buffer.length := by
      refine Nat.not_lt.mp fun hcut => ?_
      obtain ⟨expected, received, htruncated⟩ := exists_truncated hcut
      rw [he] at htruncated
      cases htruncated
      exact hother _ _ rfl
    rw [decodeFrame_append_of_complete hcomplete, he]
  · intro buffer expected received h
    obtain ⟨more, hne, hwhole⟩ := exists_whole_append (exists_truncated_iff.mp ⟨_, _, h⟩)
    exact ⟨more, hne, hwhole, decodeFrame_ne_truncated (Nat.le_of_eq hwhole.symm)⟩

/-- Three frames in a row: a snapshot of two records, an update and an empty snapshot. -/
def threeFrames : List Decoded :=
  [⟨encodeFrame mixedRecords, .snapshot (mixedRecords.take 1), by decide +kernel⟩,
    ⟨encodeFrame [.resting 2 .zero .zero], .update (.resting 2 .zero .zero), by decide +kernel⟩,
    ⟨encodeFrame [], .snapshot [], by decide +kernel⟩]

/-- The cut is six bytes into the second frame. -/
theorem decodeRest_of_threeFrames :
    let stream := threeFrames.flatMap Decoded.bytes
    (∃ expected received, decodeRest (stream.take 70) =
        (threeFrames.take 1).map Decoded.entry ++ [.error (.truncated expected received)]) ∧
      (∀ more, decodeFrame (stream.take 64 ++ more) = .ok (.snapshot (mixedRecords.take 1), 64)) ∧
      (∀ more, decodeFrame ([0, 0, 0, 0] ++ more) = .error (.missingRecordCount 0)) ∧
      ∃ more, more ≠ [] ∧ Whole ([0, 0, 1] ++ more) := by
  intro stream
  obtain ⟨hok, herror, htruncated, hrow⟩ := frames_delimit_themselves
  have hcut : CutAt threeFrames 70 (threeFrames.take 1) (threeFrames.drop 1)
      ((stream.drop 64).take 6) := by
    refine ⟨rfl, by decide +kernel, ?_, nofun⟩
    rintro next hnext
    obtain rfl := Option.some.inj hnext
    exact ⟨by decide +kernel, by decide +kernel⟩
  have hfirst : decodeFrame stream = .ok (.snapshot (mixedRecords.take 1), 64) := by
    decide +kernel
  have hempty : decodeFrame [0, 0, 0, 0] = .error (.missingRecordCount 0) := by decide +kernel
  have hshort : decodeFrame [0, 0, 1] = .error (.truncated 4 3) := by decide +kernel
  obtain ⟨more, hne, hwhole, -⟩ := htruncated _ _ _ hshort
  exact ⟨((hrow threeFrames 70).2 _ _ _ hcut).2 (by decide +kernel), (hok _ _ _ hfirst).2.2.1,
    herror _ _ hempty nofun, more, hne, hwhole⟩

end PositionRelay.Wire
