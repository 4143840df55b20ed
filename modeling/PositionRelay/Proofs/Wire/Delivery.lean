import PositionRelay.Proofs.Wire.RoundTrip
import PositionRelay.Wire.Source

/-!
# Reading a frame as it arrives

A reader collects a prefix and a payload over as many reads as it takes. What it answers depends on
the bytes only and not on how they come: the answer is that of the buffer decoder on all of them,
except that a stream without a byte is no error, and that a length above the limit is refused before
the payload is looked at (`readFrame_eq_decodeFrame`).

Both follow from one fact about collecting. Bytes that suffice are taken in order whatever comes
after them (`collect_of_enough`), and bytes that do not suffice are only moved over to what was
collected (`collect_of_few`). So a failing read shows if and only if the reader gets to it, which it
does when the bytes before it are fewer than it asks for (`demand`).
-/
namespace PositionRelay.Wire

/-- A pause, or a chunk with something in it. -/
def Arrival.IsSteady : Arrival → Prop
  | .chunk bytes => bytes ≠ []
  | .pause _ => True
  | .fault _ => False

instance : DecidablePred Arrival.IsSteady
  | .chunk bytes => inferInstanceAs (Decidable (bytes ≠ []))
  | .pause _ => isTrue trivial
  | .fault _ => isFalse id

/-- Nothing but pauses and chunks with something in them. -/
def Steady (as : List Arrival) : Prop := ∀ a ∈ as, a.IsSteady

instance (as : List Arrival) : Decidable (Steady as) :=
  inferInstanceAs (Decidable (∀ a ∈ as, a.IsSteady))

/-- Everything that some arrivals bring. -/
def brought (as : List Arrival) : Bytes := ({ arrivals := as } : Source).bytes

@[simp] theorem brought_nil : brought [] = [] := rfl

@[simp] theorem brought_chunk (bytes : Bytes) (as : List Arrival) :
    brought (.chunk bytes :: as) = bytes ++ brought as := rfl

@[simp] theorem brought_pause (wait : Duration) (as : List Arrival) :
    brought (.pause wait :: as) = brought as := rfl

theorem brought_append (as bs : List Arrival) : brought (as ++ bs) = brought as ++ brought bs :=
  List.flatMap_append

section
variable {ended : Bool} {need : Nat} {got : Bytes} {as : List Arrival}

/-- What suffices is taken in order, and the reader does not look further. -/
theorem collect_of_enough (h : Steady as) (henough : need ≤ (brought as).length)
    (later : List Arrival) :
    ∃ left, Steady left ∧ brought left = (brought as).drop need ∧
      collect ended need got (as ++ later) =
        (.full (got ++ (brought as).take need), left ++ later) := by
  induction as generalizing need got with
  | nil =>
      obtain rfl : need = 0 := Nat.le_zero.mp henough
      exact ⟨[], h, rfl, by simp [collect]⟩
  | cons a as ih =>
      obtain ⟨ha, has⟩ := List.forall_mem_cons.mp h
      cases need with
      | zero => exact ⟨a :: as, h, rfl, by simp [collect]⟩
      | succ need =>
          cases a with
          | fault cause => cases ha
          | pause wait => exact ih has henough
          | chunk bytes =>
              rw [brought_chunk, List.length_append] at henough
              have hne : ¬ bytes.isEmpty = true := fun he => ha (List.isEmpty_iff.mp he)
              rw [List.cons_append, collect, if_neg hne]
              by_cases hle : bytes.length ≤ need + 1
              · obtain ⟨left, hleft, hbytes, hcollect⟩ :=
                  @ih (need + 1 - bytes.length) (got ++ bytes) has (by omega)
                refine ⟨left, hleft, ?_, ?_⟩
                · rw [hbytes, brought_chunk, List.drop_append, List.drop_of_length_le hle,
                    List.nil_append]
                · rw [if_pos hle, hcollect, brought_chunk, List.take_append,
                    List.take_of_length_le hle, List.append_assoc]
              · -- The chunk has more than enough; its rest stays.
                refine ⟨.chunk (bytes.drop (need + 1)) :: as, ?_, ?_, ?_⟩
                · refine List.forall_mem_cons.mpr ⟨?_, has⟩
                  intro hnil
                  have hlength := congrArg List.length hnil
                  rw [List.length_drop, List.length_nil] at hlength
                  omega
                · rw [brought_chunk, brought_chunk, List.drop_append_of_le_length (by omega)]
                · rw [if_neg hle, brought_chunk, List.take_append_of_le_length (by omega)]
                  rfl

/-- What does not suffice is collected, and the reader goes on with what comes later. -/
theorem collect_of_few (h : Steady as) (hfew : (brought as).length < need) (later : List Arrival) :
    collect ended need got (as ++ later) =
      collect ended (need - (brought as).length) (got ++ brought as) later := by
  induction as generalizing need got with
  | nil => simp
  | cons a as ih =>
      obtain ⟨ha, has⟩ := List.forall_mem_cons.mp h
      cases need with
      | zero => exact absurd hfew (Nat.not_lt_zero _)
      | succ need =>
          cases a with
          | fault cause => cases ha
          | pause wait => exact ih has hfew
          | chunk bytes =>
              rw [brought_chunk, List.length_append] at hfew
              have hne : ¬ bytes.isEmpty = true := fun he => ha (List.isEmpty_iff.mp he)
              have hle : bytes.length ≤ need + 1 := by omega
              rw [List.cons_append, collect, if_neg hne, if_pos hle, ih has (by omega),
                brought_chunk, List.length_append, List.append_assoc, Nat.sub_sub]

theorem collect_at_end (h : Steady as) (hfew : (brought as).length < need) :
    collect true need [] as = (.short (brought as).length, []) := by
  obtain ⟨more, hmore⟩ := Nat.exists_eq_add_of_lt hfew
  have hneed : need - (brought as).length = more + 1 := by omega
  have hcollect := @collect_of_few true need [] as h hfew []
  rw [List.append_nil, hneed] at hcollect
  exact hcollect

theorem collect_in_silence (h : Steady as) (hfew : (brought as).length < need) :
    collect false need got as = (.stalled, []) := by
  obtain ⟨more, hmore⟩ := Nat.exists_eq_add_of_lt hfew
  have hneed : need - (brought as).length = more + 1 := by omega
  have hcollect := @collect_of_few false need got as h hfew []
  rw [List.append_nil, hneed] at hcollect
  exact hcollect

theorem collect_at_fault (h : Steady as) (hfew : (brought as).length < need) (cause : IoFault)
    (later : List Arrival) :
    collect ended need got (as ++ .fault cause :: later) = (.broken cause, later) := by
  obtain ⟨more, hmore⟩ := Nat.exists_eq_add_of_lt hfew
  have hneed : need - (brought as).length = more + 1 := by omega
  rw [collect_of_few h hfew, hneed]
  rfl

end

/-- The bytes that a reader asks for: a length, and the payload after it unless its length is over
the limit. -/
def demand (limit : Nat) (stream : Bytes) : Nat :=
  if stream.length < prefixLength ∨ limit < announced stream then prefixLength
  else prefixLength + announced stream

/-- The answer of a decoder as that of a reader. -/
def answer : Except CodecError (Frame × Nat) → Reading Frame
  | .ok (frame, _) => .value frame
  | .error e => .failed e

theorem demand_of_long {stream : Bytes} (limit : Nat) (hlong : prefixLength ≤ stream.length) :
    demand limit stream =
      if limit < announced stream then prefixLength else prefixLength + announced stream := by
  simp [demand, Nat.not_lt.mpr hlong]

/-- With the length there and the rest not, the length is within the limit. -/
theorem lt_of_lt_demand {limit : Nat} {stream : Bytes} (hlong : prefixLength ≤ stream.length)
    (hfew : stream.length < demand limit stream) :
    ¬ limit < announced stream ∧ stream.length < prefixLength + announced stream := by
  rw [demand_of_long limit hlong] at hfew
  split at hfew
  · omega
  · next hlimit => exact ⟨hlimit, hfew⟩

theorem prefixLength_le_demand (limit : Nat) (stream : Bytes) :
    prefixLength ≤ demand limit stream := by
  unfold demand
  split
  · exact Nat.le_refl _
  · exact Nat.le_add_right ..

/-- Whether there is enough does not depend on what comes later. -/
theorem lt_demand_append_iff (limit : Nat) (stream more : Bytes) :
    stream.length < demand limit (stream ++ more) ↔ stream.length < demand limit stream := by
  by_cases hlong : prefixLength ≤ stream.length
  · have hsame : announced (stream ++ more) = announced stream := announced_append hlong more
    have hmore : prefixLength ≤ (stream ++ more).length := by
      rw [List.length_append]
      omega
    rw [demand_of_long limit hlong, demand_of_long limit hmore, hsame]
  · have hshort := Nat.lt_of_not_le hlong
    exact iff_of_true (Nat.lt_of_lt_of_le hshort (prefixLength_le_demand ..))
      (Nat.lt_of_lt_of_le hshort (prefixLength_le_demand ..))

theorem answer_ne_ended (result : Except CodecError (Frame × Nat)) : answer result ≠ .ended := by
  intro h
  cases result with
  | ok found => cases h
  | error e => cases h

theorem answer_ne_io (buffer : Bytes) (cause : IoFault) :
    answer (decodeFrame buffer) ≠ .failed (.io cause) := by
  intro h
  cases hd : decodeFrame buffer with
  | ok found =>
      rw [hd] at h
      cases h
  | error e =>
      rw [hd] at h
      cases h
      rcases decodeFrame_eq_error hd with ⟨expected, received, he⟩ | hfatal
      · cases he
      · cases hfatal

section
variable {limit : Nat} {ended : Bool} {as : List Arrival}

theorem readPrefix_of_long (h : Steady as) (hlong : prefixLength ≤ (brought as).length)
    (later : List Arrival) :
    ∃ left, Steady left ∧ brought left = (brought as).drop prefixLength ∧
      Source.readPrefix ⟨as ++ later, ended⟩ =
        (.value (announced (brought as)), ⟨left ++ later, ended⟩) := by
  obtain ⟨left, hleft, hbytes, hcollect⟩ := @collect_of_enough ended _ [] _ h hlong later
  refine ⟨left, hleft, hbytes, ?_⟩
  rw [Source.readPrefix, Source.collect, hcollect]
  rfl

theorem readPayload_of_long {length : Nat} (h : Steady as) (hlimit : ¬ limit < length)
    (hlong : length ≤ (brought as).length) (later : List Arrival) :
    ∃ left, Steady left ∧ brought left = (brought as).drop length ∧
      Source.readPayload ⟨as ++ later, ended⟩ length limit =
        (.value ((brought as).take length), ⟨left ++ later, ended⟩) := by
  obtain ⟨left, hleft, hbytes, hcollect⟩ := @collect_of_enough ended _ [] _ h hlong later
  refine ⟨left, hleft, hbytes, ?_⟩
  rw [Source.readPayload, if_neg hlimit, Source.collect, hcollect]
  rfl

/-- With all bytes there that it asks for, a reader takes these, and its answer is that of the
decoder unless the length is over the limit. -/
theorem readFrame_of_enough (h : Steady as) (henough : demand limit (brought as) ≤ (brought as).length)
    (later : List Arrival) :
    ∃ left, Steady left ∧ brought left = (brought as).drop (demand limit (brought as)) ∧
      Source.readFrame ⟨as ++ later, ended⟩ limit =
        (if limit < announced (brought as) then
          .failed (.payloadTooLarge (announced (brought as)) limit)
        else answer (decodeFrame (brought as)), ⟨left ++ later, ended⟩) := by
  have hlong := Nat.le_trans (prefixLength_le_demand limit (brought as)) henough
  obtain ⟨body, hbody, hbytes, hprefix⟩ := @readPrefix_of_long ended _ h hlong later
  rw [demand_of_long limit hlong] at henough ⊢
  by_cases hlimit : limit < announced (brought as)
  · refine ⟨body, hbody, ?_, ?_⟩
    · rw [if_pos hlimit, hbytes]
    · rw [Source.readFrame, hprefix, if_pos hlimit]
      simp only [Source.readPayload, if_pos hlimit]
  · rw [if_neg hlimit] at henough ⊢
    have hpayload : announced (brought as) ≤ (brought body).length := by
      rw [hbytes, List.length_drop]
      omega
    obtain ⟨left, hleft, hrest, hread⟩ := @readPayload_of_long limit ended _ _ hbody hlimit hpayload later
    refine ⟨left, hleft, ?_, ?_⟩
    · rw [hrest, hbytes, List.drop_drop]
    · rw [Source.readFrame, hprefix, if_neg hlimit]
      simp only [hread]
      rw [decodeFrame_of_whole henough, hbytes]
      cases decodePayload (((brought as).drop prefixLength).take (announced (brought as))) with
      | ok frame => rfl
      | error e => rfl

/-- A reader that gets to the end of the stream has found nothing at all, or less than was announced. -/
theorem readFrame_at_end (h : Steady as) (hfew : (brought as).length < demand limit (brought as)) :
    Source.readFrame ⟨as, true⟩ limit =
      (if brought as = [] then .ended else answer (decodeFrame (brought as)), ⟨[], true⟩) := by
  by_cases hlong : prefixLength ≤ (brought as).length
  · have hne : brought as ≠ [] := by
      intro hnil
      rw [hnil] at hlong
      cases hlong
    obtain ⟨body, hbody, hbytes, hprefix⟩ := @readPrefix_of_long true _ h hlong []
    rw [List.append_nil, List.append_nil] at hprefix
    obtain ⟨hlimit, hfew⟩ := lt_of_lt_demand hlong hfew
    have hcut : (brought body).length < announced (brought as) := by
      rw [hbytes, List.length_drop]
      omega
    rw [Source.readFrame, hprefix]
    simp only [Source.readPayload, if_neg hlimit, Source.collect, collect_at_end hbody hcut]
    rw [if_neg hne, decodeFrame_of_cut hlong hfew, hbytes, List.length_drop]
    rfl
  · have hshort := Nat.lt_of_not_le hlong
    rw [Source.readFrame, Source.readPrefix, Source.collect, collect_at_end h hshort]
    cases hb : brought as with
    | nil => rfl
    | cons b bytes =>
        rw [if_neg (List.cons_ne_nil b bytes), ← hb, decodeFrame_of_short hshort, hb]
        rfl

/-- A reader that is left waiting has taken all that came. -/
theorem readFrame_in_silence (h : Steady as)
    (hfew : (brought as).length < demand limit (brought as)) :
    Source.readFrame ⟨as, false⟩ limit = (.stalled, ⟨[], false⟩) := by
  by_cases hlong : prefixLength ≤ (brought as).length
  · obtain ⟨body, hbody, hbytes, hprefix⟩ := @readPrefix_of_long false _ h hlong []
    rw [List.append_nil, List.append_nil] at hprefix
    obtain ⟨hlimit, hfew⟩ := lt_of_lt_demand hlong hfew
    have hcut : (brought body).length < announced (brought as) := by
      rw [hbytes, List.length_drop]
      omega
    rw [Source.readFrame, hprefix]
    simp only [Source.readPayload, if_neg hlimit, Source.collect, collect_in_silence hbody hcut]
  · have hshort := Nat.lt_of_not_le hlong
    rw [Source.readFrame, Source.readPrefix, Source.collect, collect_in_silence h hshort]

/-- A reader that gets to a failing read passes the failure on. -/
theorem readFrame_at_fault (h : Steady as) (hfew : (brought as).length < demand limit (brought as))
    (cause : IoFault) (later : List Arrival) :
    Source.readFrame ⟨as ++ .fault cause :: later, ended⟩ limit =
      (.failed (.io cause), ⟨later, ended⟩) := by
  by_cases hlong : prefixLength ≤ (brought as).length
  · obtain ⟨body, hbody, hbytes, hprefix⟩ :=
      @readPrefix_of_long ended _ h hlong (.fault cause :: later)
    obtain ⟨hlimit, hfew⟩ := lt_of_lt_demand hlong hfew
    have hcut : (brought body).length < announced (brought as) := by
      rw [hbytes, List.length_drop]
      omega
    rw [Source.readFrame, hprefix]
    simp only [Source.readPayload, if_neg hlimit, Source.collect, collect_at_fault hbody hcut]
  · have hshort := Nat.lt_of_not_le hlong
    rw [Source.readFrame, Source.readPrefix, Source.collect, collect_at_fault h hshort]

/-- Nothing came, and the stream has ended. -/
theorem readFrame_eq_ended_iff (h : Steady as) :
    (Source.readFrame ⟨as, true⟩ limit).1 = .ended ↔ brought as = [] := by
  by_cases hfew : (brought as).length < demand limit (brought as)
  · rw [readFrame_at_end h hfew]
    dsimp only
    split
    · next hnil => exact iff_of_true rfl hnil
    · next hne => exact iff_of_false (answer_ne_ended _) hne
  · have henough := Nat.not_lt.mp hfew
    obtain ⟨left, -, -, hread⟩ := @readFrame_of_enough limit true _ h henough []
    rw [List.append_nil] at hread
    rw [hread]
    refine iff_of_false ?_ ?_
    · dsimp only
      split
      · intro he
        cases he
      · exact answer_ne_ended _
    · intro hnil
      rw [hnil] at henough
      cases Nat.le_trans (prefixLength_le_demand limit []) henough

/-- A length above the limit is refused as soon as it is known. -/
theorem readFrame_of_tooLarge (h : Steady as) (hlong : prefixLength ≤ (brought as).length)
    (hlimit : limit < announced (brought as)) :
    let read := Source.readFrame ⟨as, true⟩ limit
    read.1 = .failed (.payloadTooLarge (announced (brought as)) limit) ∧
      read.2.bytes = (brought as).drop prefixLength := by
  have hdemand : demand limit (brought as) = prefixLength := by
    rw [demand_of_long limit hlong, if_pos hlimit]
  have henough : demand limit (brought as) ≤ (brought as).length := by rwa [hdemand]
  obtain ⟨left, -, hbytes, hread⟩ := @readFrame_of_enough limit true _ h henough []
  rw [List.append_nil, List.append_nil, if_pos hlimit] at hread
  rw [hdemand] at hbytes
  rw [hread]
  exact ⟨rfl, hbytes⟩

/-- A length within the limit, or none: the answer is that of the decoder, and a frame that is there
as a whole is taken as a whole. -/
theorem readFrame_of_within (h : Steady as) (hne : brought as ≠ [])
    (hlimit : ¬ (prefixLength ≤ (brought as).length ∧ limit < announced (brought as))) :
    let read := Source.readFrame ⟨as, true⟩ limit
    read.1 = answer (decodeFrame (brought as)) ∧
      ((∀ e, read.1 = .failed e → e.isFatal = false) →
        prefixLength + announced (brought as) ≤ (brought as).length ∧
          read.2.bytes = (brought as).drop (prefixLength + announced (brought as))) := by
  by_cases hfew : (brought as).length < demand limit (brought as)
  · rw [readFrame_at_end h hfew, if_neg hne]
    refine ⟨rfl, fun hmild => ?_⟩
    -- The stream ended too early, which is fatal.
    by_cases hlong : prefixLength ≤ (brought as).length
    · rw [demand_of_long limit hlong, if_neg fun hl => hlimit ⟨hlong, hl⟩] at hfew
      rw [decodeFrame_of_cut hlong hfew] at hmild
      cases hmild _ rfl
    · rw [decodeFrame_of_short (Nat.lt_of_not_le hlong)] at hmild
      cases hmild _ rfl
  · have henough := Nat.not_lt.mp hfew
    have hlong := Nat.le_trans (prefixLength_le_demand limit (brought as)) henough
    have hwithin : ¬ limit < announced (brought as) := fun hl => hlimit ⟨hlong, hl⟩
    obtain ⟨left, -, hbytes, hread⟩ := @readFrame_of_enough limit true _ h henough []
    rw [List.append_nil, List.append_nil, if_neg hwithin] at hread
    rw [demand_of_long limit hlong, if_neg hwithin] at hbytes henough
    rw [hread]
    exact ⟨rfl, fun _ => ⟨henough, hbytes⟩⟩

/-- A failing read is passed on if and only if the reader needs it. -/
theorem readFrame_of_broken {before after : List Arrival} (h : Steady (before ++ after))
    (cause : IoFault) :
    let broken := Source.readFrame ⟨before ++ .fault cause :: after, true⟩ limit
    (broken.1 = .failed (.io cause) ↔
        (brought before).length < demand limit (brought (before ++ after))) ∧
      (demand limit (brought (before ++ after)) ≤ (brought before).length →
        broken.1 = (Source.readFrame ⟨before ++ after, true⟩ limit).1) := by
  have hbefore : Steady before := fun a ha => h a (List.mem_append_left _ ha)
  intro broken
  rw [← Nat.not_lt, brought_append, lt_demand_append_iff]
  by_cases hfew : (brought before).length < demand limit (brought before)
  · have hread : broken = _ := readFrame_at_fault hbefore hfew cause after
    rw [hread]
    exact ⟨iff_of_true rfl hfew, fun hc => absurd hfew hc⟩
  · obtain ⟨left, -, -, hread⟩ :=
      @readFrame_of_enough limit true _ hbefore (Nat.not_lt.mp hfew) (.fault cause :: after)
    obtain ⟨left', -, -, hread'⟩ :=
      @readFrame_of_enough limit true _ hbefore (Nat.not_lt.mp hfew) after
    have hbroken : broken = _ := hread
    rw [hbroken, hread']
    refine ⟨iff_of_false ?_ hfew, fun _ => rfl⟩
    dsimp only
    split
    · intro he
      cases he
    · exact answer_ne_io _ cause

end

/-- A frame that comes in pieces, with pauses anywhere, and then the stream ends. Reading finds the end
if nothing came. It refuses a length above the limit with nothing but the length taken. Otherwise it
answers what decoding all the bytes answers, and takes what the frame takes if that frame is there as
a whole. A failing read anywhere in between is passed on if the bytes before it are fewer than the
reader asks for; otherwise the reader does not get to it. -/
theorem readFrame_eq_decodeFrame {as : List Arrival} (h : Steady as) (limit : Nat) :
    let bytes := brought as
    let length := wordValue (bytes.take prefixLength)
    let read := Source.readFrame ⟨as, true⟩ limit
    (read.1 = .ended ↔ bytes = []) ∧
      (prefixLength ≤ bytes.length → limit < length →
        read.1 = .failed (.payloadTooLarge length limit) ∧
          read.2.bytes = bytes.drop prefixLength) ∧
      (bytes ≠ [] → ¬ (prefixLength ≤ bytes.length ∧ limit < length) →
        read.1 = answer (decodeFrame bytes) ∧
          ((∀ e, read.1 = .failed e → e.isFatal = false) →
            prefixLength + length ≤ bytes.length ∧
              read.2.bytes = bytes.drop (prefixLength + length))) ∧
      ∀ before cause after, as = before ++ after →
        let broken := Source.readFrame ⟨before ++ .fault cause :: after, true⟩ limit
        (broken.1 = .failed (.io cause) ↔ (brought before).length < demand limit bytes) ∧
          (demand limit bytes ≤ (brought before).length → broken.1 = read.1) := by
  refine ⟨readFrame_eq_ended_iff h, readFrame_of_tooLarge h, readFrame_of_within h, ?_⟩
  rintro before cause after rfl
  exact readFrame_of_broken h cause

/-- A frame and a byte of the next one, cut within the length and within a record. -/
def piecemeal : List Arrival :=
  let frame := encodeFrame mixedRecords
  [.chunk (frame.take 2), .pause ⟨5⟩, .chunk ((frame.drop 2).take 20), .chunk (frame.drop 22 ++ [7])]

/-- Read as it is, and with a read that fails after the first 22 bytes. -/
theorem readFrame_of_piecemeal :
    let read := Source.readFrame ⟨piecemeal, true⟩ 64
    let broken := Source.readFrame
      ⟨piecemeal.take 3 ++ .fault .brokenPipe :: piecemeal.drop 3, true⟩ 64
    Steady piecemeal ∧ read.1 = .value (.snapshot (mixedRecords.take 1)) ∧
      read.2.bytes = [7] ∧ broken.1 = .failed (.io .brokenPipe) := by
  intro read broken
  have h : Steady piecemeal := by decide +kernel
  obtain ⟨-, -, hwithin, hbroken⟩ := readFrame_eq_decodeFrame h 64
  have hdecoded : decodeFrame (brought piecemeal) =
      .ok (.snapshot (mixedRecords.take 1), 64) := by decide +kernel
  obtain ⟨hread, hrest⟩ := hwithin (by decide +kernel) (by decide +kernel)
  rw [hdecoded] at hread
  have htaken := (hrest fun e he => by rw [hread] at he; cases he).2
  have hlast : (brought piecemeal).drop
      (prefixLength + wordValue ((brought piecemeal).take prefixLength)) = [7] := by
    decide +kernel
  refine ⟨h, hread, htaken.trans hlast, ?_⟩
  exact (hbroken (piecemeal.take 3) .brokenPipe (piecemeal.drop 3) (by decide +kernel)).1.mpr
    (by decide +kernel)

end PositionRelay.Wire
