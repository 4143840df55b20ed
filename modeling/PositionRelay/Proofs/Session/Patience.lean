import PositionRelay.Proofs.Wire.Delivery
import PositionRelay.Session

/-!
# Reading under a time limit

A call for the next snapshot sees what arrives within its time. It answers with the next frame if all
of it does. If not, and the stream goes on, it gives up, and what it had taken is lost to the calls
after it (`nextSnapshot_of_late`).

So a call that is repeated goes on where the last one stopped only if that one had taken nothing. As
long as this is so the answers are the frames of the stream one after another
(`answers_follow_frames`). A frame that is cut by a time limit is not read again: the next call takes
its rest for the beginning of a frame (`answers_of_severedFrame`).
-/
namespace PositionRelay

namespace Wire

theorem steady_splitAt {as : List Arrival} (h : Steady as) (time : Nat) :
    Steady (Source.splitAt time as).1 ∧ Steady (Source.splitAt time as).2 := by
  fun_induction Source.splitAt time as with
  | case1 => exact ⟨h, h⟩
  | case2 time wait rest hle early late he ih =>
      obtain ⟨hwait, hrest⟩ := List.forall_mem_cons.mp h
      obtain ⟨hearly, hlate⟩ := ih hrest
      rw [he] at hearly hlate
      exact ⟨List.forall_mem_cons.mpr ⟨hwait, hearly⟩, hlate⟩
  | case3 time wait rest hlt =>
      obtain ⟨-, hrest⟩ := List.forall_mem_cons.mp h
      exact ⟨List.forall_mem_cons.mpr ⟨trivial, List.forall_mem_nil _⟩,
        List.forall_mem_cons.mpr ⟨trivial, hrest⟩⟩
  | case4 time a rest hp early late he ih =>
      obtain ⟨ha, hrest⟩ := List.forall_mem_cons.mp h
      obtain ⟨hearly, hlate⟩ := ih hrest
      rw [he] at hearly hlate
      exact ⟨List.forall_mem_cons.mpr ⟨ha, hearly⟩, hlate⟩

theorem brought_splitAt (time : Nat) (as : List Arrival) :
    brought (Source.splitAt time as).1 ++ brought (Source.splitAt time as).2 = brought as := by
  fun_induction Source.splitAt time as with
  | case1 => rfl
  | case2 time wait rest hle early late he ih =>
      rw [he] at ih
      exact ih
  | case3 => rfl
  | case4 time a rest hp early late he ih =>
      rw [he] at ih
      change brought (a :: early) ++ brought late = brought (a :: rest)
      rw [← List.singleton_append, brought_append, List.append_assoc, ih, ← brought_append]
      rfl

/-- A client takes the frame of these records: it is within the limit, and a record alone has a valid
identifier. -/
structure Readable (records : Batch) : Prop where
  fits : (encodePayload records).length ≤ defaultPayloadLimit
  frame : ∃ frame, frameOf records = .ok frame

section
variable {records : Batch}

theorem Readable.announced (h : Readable records) (rest : Bytes) :
    announced (encodeFrame records ++ rest) = (encodePayload records).length := by
  have hfits := h.fits
  rw [encodePayload_length] at hfits ⊢
  unfold countLength recordLength defaultPayloadLimit at *
  rw [announced_encodeFrame, Nat.mod_eq_of_lt (by omega)]

theorem Readable.demand (h : Readable records) (rest : Bytes) :
    demand defaultPayloadLimit (encodeFrame records ++ rest) = (encodeFrame records).length := by
  have hsize : (encodeFrame records).length = prefixLength + (encodePayload records).length := by
    rw [encodeFrame_eq, List.length_append, bigEndian_length]
  have hlong : prefixLength ≤ (encodeFrame records ++ rest).length := by
    rw [List.length_append, hsize]
    omega
  rw [demand_of_long _ hlong, h.announced, if_neg (Nat.not_lt.mpr h.fits), hsize]

theorem Readable.answer (h : Readable records) {frame : Frame} (hframe : frameOf records = .ok frame)
    (rest : Bytes) : answer (decodeFrame (encodeFrame records ++ rest)) = .value frame := by
  have hfits := h.fits
  rw [encodePayload_length] at hfits
  unfold countLength recordLength defaultPayloadLimit at hfits
  rw [decodeFrame_append (by omega), hframe]
  rfl

end

end Wire

namespace Session

open Wire

section
variable {s : Session} {source : Source} {records : Batch} {rest : Bytes}

/-- What arrives in the time of a call, and what comes later. -/
abbrev early (s : Session) (source : Source) : List Arrival :=
  (Source.splitAt s.patience.nanoseconds source.arrivals).1

abbrev late (s : Session) (source : Source) : List Arrival :=
  (Source.splitAt s.patience.nanoseconds source.arrivals).2

theorem brought_early_late (s : Session) (source : Source) :
    brought (s.early source) ++ brought (s.late source) = source.bytes :=
  brought_splitAt ..

/-- A frame that arrives in time. -/
theorem nextFrame_of_early {patience : Duration} {frame : Frame} (h : Steady source.arrivals)
    (hr : Readable records) (hframe : frameOf records = .ok frame)
    (hbytes : source.bytes = encodeFrame records ++ rest)
    (hearly : (encodeFrame records).length ≤
      (brought (Source.splitAt patience.nanoseconds source.arrivals).1).length) :
    ∃ left, Steady left ∧ brought left = rest ∧
      nextFrame patience source = (.ok frame, { source with arrivals := left }) := by
  obtain ⟨hsteady, hlater⟩ := steady_splitAt h patience.nanoseconds
  have hsplit : _ = source.bytes := brought_splitAt patience.nanoseconds source.arrivals
  rw [hbytes] at hsplit
  cases hcut : Source.splitAt patience.nanoseconds source.arrivals with
  | mk early late =>
      rw [hcut] at hsteady hlater hearly hsplit
      -- The early bytes begin with the frame.
      obtain ⟨more, hmore⟩ : ∃ more, brought early = encodeFrame records ++ more :=
        ⟨_, (List.prefix_of_prefix_length_le (List.prefix_append ..)
          (hsplit ▸ List.prefix_append ..) hearly).choose_spec.symm⟩
      have hdemand : demand defaultPayloadLimit (brought early) = (encodeFrame records).length := by
        rw [hmore, hr.demand]
      obtain ⟨left, hleft, hrest, hread⟩ := @readFrame_of_enough defaultPayloadLimit
        (source.ended && late.isEmpty) _ hsteady (by rw [hdemand]; exact hearly) []
      rw [List.append_nil, List.append_nil, hmore, hr.announced, if_neg (Nat.not_lt.mpr hr.fits),
        hr.answer hframe] at hread
      refine ⟨left ++ late, ?_, ?_, ?_⟩
      · exact fun a ha => (List.mem_append.mp ha).elim (hleft a) (hlater a)
      · rw [hmore, List.append_assoc, List.append_cancel_left_eq] at hsplit
        rw [brought_append, hrest, hdemand, hmore, List.drop_left, hsplit]
      · simp only [nextFrame, Source.readFrameWithin, hcut]
        rw [hread]

theorem nextSnapshot_of_early (h : Steady source.arrivals) (hr : Readable records)
    (hbytes : source.bytes = encodeFrame records ++ rest)
    (hearly : (encodeFrame records).length ≤ (brought (s.early source)).length) :
    ∃ left, Steady left ∧ brought left = rest ∧
      s.nextSnapshot source =
        (.ok (records.filter Record.hasValidId), { source with arrivals := left }) := by
  obtain ⟨frame, hframe⟩ := hr.frame
  obtain ⟨left, hleft, hrest, hcall⟩ := nextFrame_of_early h hr hframe hbytes hearly
  refine ⟨left, hleft, hrest, ?_⟩
  rw [nextSnapshot, hcall, ← records_of_frameOf hframe]
  rfl

/-- Too few bytes arrive in time, and the stream goes on: the call gives up, and they are lost. -/
theorem nextSnapshot_of_late (h : Steady source.arrivals)
    (hfew : (brought (s.early source)).length <
      demand defaultPayloadLimit (brought (s.early source)))
    (hon : ¬ (source.ended = true ∧ s.late source = [])) :
    s.nextSnapshot source =
      (.error (.timeout s.patience), { source with arrivals := s.late source }) := by
  obtain ⟨hsteady, -⟩ := steady_splitAt h s.patience.nanoseconds
  have hopen : (source.ended && (s.late source).isEmpty) = false := by
    rw [Bool.eq_false_iff]
    intro hclosed
    obtain ⟨hended, hempty⟩ := Bool.and_eq_true_iff.mp hclosed
    exact hon ⟨hended, List.isEmpty_iff.mp hempty⟩
  simp only [nextSnapshot, nextFrame, Source.readFrameWithin, hopen,
    readFrame_in_silence hsteady hfew]
  rfl

/-- Nothing more comes, and the stream has ended. -/
theorem nextSnapshot_at_end (h : Steady source.arrivals) (hended : source.ended = true)
    (hlate : s.late source = []) (hnone : source.bytes = []) :
    s.nextSnapshot source = (.error .disconnected, { source with arrivals := [] }) := by
  obtain ⟨hsteady, -⟩ := steady_splitAt h s.patience.nanoseconds
  have hearly : brought (s.early source) = [] := by
    have hsplit := s.brought_early_late source
    rw [hnone] at hsplit
    exact (List.append_eq_nil_iff.mp hsplit).1
  have hfew : (brought (s.early source)).length <
      demand defaultPayloadLimit (brought (s.early source)) := by
    rw [hearly]
    exact Nat.lt_of_lt_of_le (by decide) (prefixLength_le_demand ..)
  have hclosed : (source.ended && (s.late source).isEmpty) = true := by rw [hended, hlate]; rfl
  simp only [nextSnapshot, nextFrame, Source.readFrameWithin, hclosed, readFrame_at_end hsteady hfew,
    hearly, if_pos]
  have hnothing : (Source.splitAt s.patience.nanoseconds source.arrivals).2 = [] := hlate
  rw [hnothing]
  rfl

/-- What a call comes to when the stream holds nothing but frames: the next of them, the end, or a
wait in vain. -/
theorem nextSnapshot_cases (s : Session) {frames : List Batch} (h : Steady source.arrivals)
    (hbytes : source.bytes = frames.flatMap encodeFrame)
    (hreadable : ∀ records ∈ frames, Readable records) :
    ∃ left, Steady left ∧
      (s.nextSnapshot source).2 = { source with arrivals := left } ∧
      ((∃ records later, frames = records :: later ∧ brought left = later.flatMap encodeFrame ∧
          (s.nextSnapshot source).1 = .ok (records.filter Record.hasValidId)) ∨
        (frames = [] ∧ source.ended = true ∧ left = [] ∧
          (s.nextSnapshot source).1 = .error .disconnected) ∨
        (s.nextSnapshot source).1 = .error (.timeout s.patience)) := by
  have hsplit := s.brought_early_late source
  have hlater := (steady_splitAt h s.patience.nanoseconds).2
  by_cases hon : source.ended = true ∧ s.late source = []
  · -- All that ever comes has come in time.
    obtain ⟨hended, hlate⟩ := hon
    rw [hlate, brought_nil, List.append_nil] at hsplit
    cases frames with
    | nil =>
        have hcall := nextSnapshot_at_end h hended hlate hbytes
        exact ⟨[], List.forall_mem_nil _, congrArg Prod.snd hcall,
          .inr (.inl ⟨rfl, hended, rfl, congrArg Prod.fst hcall⟩)⟩
    | cons records later =>
        have hearly : (encodeFrame records).length ≤ (brought (s.early source)).length := by
          rw [hsplit, hbytes, List.flatMap_cons, List.length_append]
          exact Nat.le_add_right ..
        obtain ⟨left, hleft, hrest, hcall⟩ :=
          nextSnapshot_of_early h (hreadable records (by simp)) hbytes hearly
        exact ⟨left, hleft, congrArg Prod.snd hcall,
          .inl ⟨records, later, rfl, hrest, congrArg Prod.fst hcall⟩⟩
  · by_cases hfew : (brought (s.early source)).length <
        demand defaultPayloadLimit (brought (s.early source))
    · have hcall := nextSnapshot_of_late h hfew hon
      exact ⟨s.late source, hlater, congrArg Prod.snd hcall, .inr (.inr (congrArg Prod.fst hcall))⟩
    · cases frames with
      | nil =>
          have hnone : brought (s.early source) = [] := by
            rw [hbytes] at hsplit
            exact (List.append_eq_nil_iff.mp hsplit).1
          rw [hnone] at hfew
          exact absurd (Nat.lt_of_lt_of_le (by decide) (prefixLength_le_demand ..)) hfew
      | cons records later =>
          have hr := hreadable records (by simp)
          rw [← lt_demand_append_iff _ _ (brought (s.late source)), hsplit, hbytes,
            List.flatMap_cons, hr.demand] at hfew
          obtain ⟨left, hleft, hrest, hcall⟩ :=
            nextSnapshot_of_early h hr hbytes (Nat.not_lt.mp hfew)
          exact ⟨left, hleft, congrArg Prod.snd hcall,
            .inl ⟨records, later, rfl, hrest, congrArg Prod.fst hcall⟩⟩

end

/-- The source after a number of calls. -/
def sourceAfter (s : Session) (source : Source) (calls : Nat) : Source :=
  (fun source => (s.nextSnapshot source).2)^[calls] source

/-- The answer of a call, counted from zero. -/
def answerAt (s : Session) (source : Source) (call : Nat) : Except SessionError Batch :=
  (s.nextSnapshot (s.sourceAfter source call)).1

/-- The call did not time out. -/
def Answered : Except SessionError Batch → Bool
  | .error (.timeout _) => false
  | _ => true

/-- The answers of a number of calls without those that timed out. -/
def answers (s : Session) (source : Source) (calls : Nat) : List (Except SessionError Batch) :=
  ((List.range calls).map (s.answerAt source)).filter Answered

theorem sourceAfter_succ (s : Session) (source : Source) (calls : Nat) :
    s.sourceAfter source (calls + 1) = (s.nextSnapshot (s.sourceAfter source calls)).2 :=
  Function.iterate_succ_apply' ..

theorem answers_succ (s : Session) (source : Source) (calls : Nat) :
    s.answers source (calls + 1) =
      s.answers source calls ++ [s.answerAt source calls].filter Answered := by
  rw [answers, List.range_succ, List.map_append, List.filter_append]
  rfl

section
variable {s : Session} {source : Source} {frames : List Batch} {calls read ends : Nat}

/-- What some calls have come to: they have read a number of frames, and have found the end a number
of times. -/
structure Progress (s : Session) (source : Source) (frames : List Batch) (calls read ends : Nat) :
    Prop where
  within : read ≤ frames.length
  answers : s.answers source calls =
    (frames.take read).map (fun records => .ok (records.filter Record.hasValidId)) ++
      List.replicate ends (.error .disconnected)
  ended : 0 < ends → source.ended = true ∧ read = frames.length
  left : ∃ left, Steady left ∧ s.sourceAfter source calls = { source with arrivals := left } ∧
    brought left = (frames.drop read).flatMap encodeFrame

theorem progress_zero (s : Session) (h : Steady source.arrivals)
    (hbytes : source.bytes = frames.flatMap encodeFrame) : Progress s source frames 0 0 0 :=
  ⟨Nat.zero_le _, rfl, fun h => absurd h (Nat.lt_irrefl 0), source.arrivals, h, rfl, hbytes⟩

/-- One more call goes on where the ones before it stopped, unless it times out over bytes. -/
theorem Progress.next (h : Progress s source frames calls read ends)
    (hreadable : ∀ records ∈ frames, Readable records)
    (hkept : s.answerAt source calls = .error (.timeout s.patience) →
      (s.sourceAfter source (calls + 1)).bytes = (s.sourceAfter source calls).bytes) :
    ∃ read ends, Progress s source frames (calls + 1) read ends := by
  obtain ⟨left, hleft, hsource, hrest⟩ := h.left
  have hanswer : s.answerAt source calls = (s.nextSnapshot { source with arrivals := left }).1 := by
    rw [answerAt, hsource]
  obtain ⟨next, hnext, hafter, hcase⟩ := @nextSnapshot_cases { source with arrivals := left } s
    (frames.drop read) hleft hrest fun records hr => hreadable records (List.mem_of_mem_drop hr)
  have hstep : s.sourceAfter source (calls + 1) = { source with arrivals := next } := by
    rw [sourceAfter_succ, hsource, hafter]
  have hanswers : s.answers source (calls + 1) = _ := answers_succ s source calls
  rw [h.answers, hanswer] at hanswers
  rcases hcase with ⟨records, later, hframes, hlater, hcall⟩ | ⟨hnone, hended, hover, hcall⟩ | hcall
  · have hlt : read < frames.length := by
      rw [← Nat.not_le, ← List.drop_eq_nil_iff, hframes]
      exact List.cons_ne_nil records later
    have hzero : ends = 0 := by
      by_contra hne
      have := (h.ended (Nat.pos_of_ne_zero hne)).2
      omega
    obtain ⟨hget, htail⟩ := List.cons.inj ((List.drop_eq_getElem_cons hlt).symm.trans hframes)
    refine ⟨read + 1, 0, hlt, ?_, fun h => absurd h (Nat.lt_irrefl 0), next, hnext, hstep, ?_⟩
    · rw [hanswers, hcall, hzero, List.take_succ_eq_append_getElem hlt, hget, List.map_append]
      simp [Answered]
    · rw [htail]
      exact hlater
  · have hall : frames.length ≤ read := List.drop_eq_nil_iff.mp hnone
    refine ⟨read, ends + 1, h.within, ?_, fun _ => ⟨hended, Nat.le_antisymm h.within hall⟩, next,
      hnext, hstep, ?_⟩
    · rw [hanswers, hcall, List.append_assoc, List.replicate_succ']
      rfl
    · rw [hover, hnone]
      rfl
  · refine ⟨read, ends, h.within, ?_, h.ended, next, hnext, hstep, ?_⟩
    · rw [hanswers, hcall]
      exact List.append_nil _
    · rw [hanswer, hstep, hsource] at hkept
      exact (hkept hcall).trans hrest

/-- Calls for the next snapshot on a stream of frames, of which those that time out take nothing. The
others answer with the records of the frames in the order of the stream, none left out and none
twice; they find the end only if there is one, after all frames. What is left are the other frames. -/
theorem answers_follow_frames (s : Session) (h : Steady source.arrivals)
    (hbytes : source.bytes = frames.flatMap encodeFrame)
    (hreadable : ∀ records ∈ frames, Readable records)
    (hkept : ∀ call < calls, s.answerAt source call = .error (.timeout s.patience) →
      (s.sourceAfter source (call + 1)).bytes = (s.sourceAfter source call).bytes) :
    ∃ read ≤ frames.length, ∃ ends,
      s.answers source calls =
          (frames.take read).map (fun records => .ok (records.filter Record.hasValidId)) ++
            List.replicate ends (.error .disconnected) ∧
        (0 < ends → source.ended = true ∧ read = frames.length) ∧
        (s.sourceAfter source calls).bytes = (frames.drop read).flatMap encodeFrame := by
  have hprogress : ∃ read ends, Progress s source frames calls read ends := by
    induction calls with
    | zero => exact ⟨0, 0, progress_zero s h hbytes⟩
    | succ calls ih =>
        obtain ⟨read, ends, hp⟩ := ih fun call hcall => hkept call (Nat.lt_succ_of_lt hcall)
        exact hp.next hreadable (hkept calls (Nat.lt_succ_self calls))
  obtain ⟨read, ends, hp⟩ := hprogress
  obtain ⟨left, -, hsource, hrest⟩ := hp.left
  refine ⟨read, hp.within, ends, hp.answers, hp.ended, ?_⟩
  rw [hsource]
  exact hrest

end

/-- Two frames. The first one comes late and in two pieces, and the second one after a long pause. -/
def slowFrames : List Batch := [[.resting 2 .zero .zero], mixedRecords]

def slowSource : Source where
  arrivals :=
    let frame := encodeFrame [.resting 2 .zero .zero]
    [.pause ⟨1500⟩, .chunk (frame.take 6), .pause ⟨300⟩, .chunk (frame.drop 6), .pause ⟨2200⟩,
      .chunk (encodeFrame mixedRecords)]

/-- Three of six calls time out; the others read both frames and find the end. -/
theorem answers_of_slowSource :
    let s : Session := ⟨.resting 1 .zero .zero, ⟨1000⟩⟩
    Steady slowSource.arrivals ∧ slowSource.bytes = slowFrames.flatMap encodeFrame ∧
      (∀ records ∈ slowFrames, Readable records) ∧
      (∀ call < 6, s.answerAt slowSource call = .error (.timeout s.patience) →
        (s.sourceAfter slowSource (call + 1)).bytes = (s.sourceAfter slowSource call).bytes) ∧
      (∀ call ∈ [0, 2, 3], s.answerAt slowSource call = .error (.timeout s.patience)) ∧
      s.answers slowSource 6 =
        [.ok [.resting 2 .zero .zero], .ok (mixedRecords.take 1), .error .disconnected] := by
  intro s
  have h : Steady slowSource.arrivals := by decide +kernel
  have hbytes : slowSource.bytes = slowFrames.flatMap encodeFrame := by decide +kernel
  have hreadable : ∀ records ∈ slowFrames, Readable records := by
    intro records hr
    rcases List.mem_cons.mp hr with rfl | hr
    · exact ⟨by decide, _, rfl⟩
    · rw [List.mem_singleton.mp hr]
      exact ⟨by decide, _, rfl⟩
  have hkept : ∀ call < 6, s.answerAt slowSource call = .error (.timeout s.patience) →
      (s.sourceAfter slowSource (call + 1)).bytes = (s.sourceAfter slowSource call).bytes := by
    decide +kernel
  obtain ⟨read, hread, ends, hanswers, hends, hrest⟩ :=
    answers_follow_frames s h hbytes hreadable hkept
  -- Everything has been read, so the answers are one for each frame, and the rest are ends.
  have hnone : (slowFrames.drop read).flatMap encodeFrame = [] := by
    rw [← hrest]
    decide +kernel
  have hthree : (s.answers slowSource 6).length = 3 := by decide +kernel
  have hall : read = 2 := by
    have : read = 0 ∨ read = 1 ∨ read = 2 := by
      have : slowFrames.length = 2 := rfl
      omega
    rcases this with rfl | rfl | rfl
    · revert hnone
      decide +kernel
    · revert hnone
      decide +kernel
    · rfl
  subst hall
  have hone : ends = 1 := by
    rw [hanswers, List.length_append, List.length_replicate, List.length_map] at hthree
    have : (slowFrames.take 2).length = 2 := rfl
    omega
  subst hone
  refine ⟨h, hbytes, hreadable, hkept, by decide +kernel, ?_⟩
  rw [hanswers]
  rfl

/-- A frame that is cut after its length by a pause longer than a call waits. -/
def severedFrame : Source where
  arrivals :=
    let frame := encodeFrame [⟨1, ⟨0x3ff0000000000000⟩, ⟨0x4000000000000000⟩, .zero⟩]
    [.chunk (frame.take 4), .pause (.ofMilliseconds 300), .chunk (frame.drop 4)]

/-- The call after the one that timed out takes the count for a length. -/
theorem answers_of_severedFrame :
    let s : Session := ⟨.resting 1 .zero .zero, .ofMilliseconds 200⟩
    let records : Batch := [⟨1, ⟨0x3ff0000000000000⟩, ⟨0x4000000000000000⟩, .zero⟩]
    Steady severedFrame.arrivals ∧ severedFrame.bytes = [records].flatMap encodeFrame ∧
      Readable records ∧ s.answerAt severedFrame 0 = .error (.timeout s.patience) ∧
      s.answers severedFrame 2 = [.error (.codec (.missingRecordCount 1))] := by
  intro s records
  exact ⟨by decide +kernel, by decide +kernel, ⟨by decide, _, rfl⟩, by decide +kernel,
    by decide +kernel⟩

end Session
end PositionRelay
