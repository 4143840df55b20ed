import PositionRelay.Proofs.Network.Turn

/-!
# Reading a stream at once

`readStream` is what a peer says, read off everything it sent: the updates in it, and why reading ends
if it does. It knows nothing of chunks, waits or turns. `Reader.resume` reads on from where a read
side has come to, and every turn of a read side that nothing disturbs leaves what is read in the end
as it is: the updates that the turn merges come first, and the rest is read on from the next state
(`readTurn?_reads`). So the cuts between the turns do not matter.
-/
namespace PositionRelay

/-- The update that a payload carries, if it is one. -/
def Wire.updatesIn (payload : Bytes) : List Record :=
  match decodePayload payload with
  | .ok (.update u) => [u]
  | _ => []

theorem Wire.updatesIn_nil : Wire.updatesIn [] = [] := rfl

/-- What is read off a stream. -/
structure Reading where
  updates : List Record
  ending : Option ConnectionError
deriving DecidableEq, Repr

def Reading.prepend (us : List Record) (r : Reading) : Reading := { r with updates := us ++ r.updates }

@[simp] theorem Reading.prepend_nil (r : Reading) : r.prepend [] = r := rfl

theorem Reading.prepend_prepend (us vs : List Record) (r : Reading) :
    (r.prepend vs).prepend us = r.prepend (us ++ vs) := by
  simp [prepend]

/-- What remains after the last complete frame: reading ends if nothing more comes. -/
def Reading.atEnd (ended : Bool) (why : ConnectionError) : Reading :=
  ⟨[], if ended then some why else none⟩

/-- Frame by frame: a length above the limit ends the reading at once, an update counts, and any other
frame is passed over. -/
def readStream (limit : Nat) (ended : Bool) (stream : Bytes) : Reading :=
  if stream.length < Wire.prefixLength then
    .atEnd ended (if stream.isEmpty then .disconnected else Connection.cut Wire.prefixLength stream)
  else
    let length := Wire.wordValue (stream.take Wire.prefixLength)
    let rest := stream.drop Wire.prefixLength
    if limit < length then ⟨[], some (.codec (.payloadTooLarge length limit))⟩
    else if rest.length < length then .atEnd ended (Connection.cut length rest)
    else
      (readStream limit ended (rest.drop length)).prepend (Wire.updatesIn (rest.take length))
termination_by stream.length
decreasing_by
  simp only [List.length_drop, Wire.prefixLength] at *
  omega

/-- What follows a length that is within the limit. -/
def readPayloadOf (limit : Nat) (ended : Bool) (length : Nat) (rest : Bytes) : Reading :=
  if rest.length < length then .atEnd ended (Connection.cut length rest)
  else (readStream limit ended (rest.drop length)).prepend (Wire.updatesIn (rest.take length))

section
variable {limit length : Nat} {ended : Bool}

theorem readStream_of_short {stream : Bytes} (h : stream.length < Wire.prefixLength) :
    readStream limit ended stream = .atEnd ended
      (if stream.isEmpty then .disconnected else Connection.cut Wire.prefixLength stream) := by
  rw [readStream, if_pos h]

theorem readStream_of_word {word rest : Bytes} (h : word.length = Wire.prefixLength) :
    readStream limit ended (word ++ rest) =
      if limit < Wire.wordValue word then
        ⟨[], some (.codec (.payloadTooLarge (Wire.wordValue word) limit))⟩
      else readPayloadOf limit ended (Wire.wordValue word) rest := by
  have hlong : ¬ (word ++ rest).length < Wire.prefixLength := by
    rw [List.length_append, h]
    omega
  rw [readStream, if_neg hlong, ← h]
  simp only [List.take_left, List.drop_left]
  rfl

theorem readPayloadOf_of_short {rest : Bytes} (h : rest.length < length) :
    readPayloadOf limit ended length rest = .atEnd ended (Connection.cut length rest) := if_pos h

theorem readPayloadOf_of_complete {payload rest : Bytes} (h : payload.length = length) :
    readPayloadOf limit ended length (payload ++ rest) =
      (readStream limit ended rest).prepend (Wire.updatesIn payload) := by
  have hlong : ¬ (payload ++ rest).length < length := by
    rw [List.length_append, h]
    omega
  rw [readPayloadOf, if_neg hlong, ← h, List.take_left, List.drop_left]

end

namespace Reader

/-- Reads on from where a read side has come to. -/
def resume (limit : Nat) (ended : Bool) (stream : Bytes) : Reader → Reading
  | .length got _ => readStream limit ended (got ++ stream)
  | .payload size got _ => readPayloadOf limit ended size (got ++ stream)
  | .stopped (.failed why) => ⟨[], some why⟩
  | .stopped .told => ⟨[], none⟩

/-- The side still has to wait for the rest of what it collects. -/
def Fits : Reader → Prop
  | .length got _ => got.length < Wire.prefixLength
  | .payload size got _ => got.length < size
  | .stopped _ => True

/-- With nothing more to read, a side that still waits has read nothing more. -/
theorem resume_nothing {reader : Reader} (limit : Nat) (hlive : reader.live = 1)
    (hfits : reader.Fits) : reader.resume limit false [] = ⟨[], none⟩ := by
  cases reader with
  | stopped why => cases hlive
  | length got since =>
      rw [resume, List.append_nil, readStream_of_short hfits]
      rfl
  | payload size got since =>
      rw [resume, List.append_nil, readPayloadOf_of_short hfits]
      rfl

theorem fits_nil (since : Moment) : (length [] since).Fits := Nat.succ_pos 3

end Reader

namespace Connection

/-- The update, if any, that the next turn of the read side merges. -/
def merging (k : Connection) (c : Client) : List Record :=
  match k.phase with
  | .running (.payload length got _) _ =>
      let chunk := k.inbound.bytes.take (length - got.length)
      if c.exitRead || chunk.isEmpty || (got ++ chunk).length < length then []
      else Wire.updatesIn (got ++ chunk)
  | _ => []

/-- A turn of a read side that nothing disturbs, with the updates that it merges: it goes on reading,
or it has come to the end. -/
inductive Reads (k : Connection) (id : ClientId) (c : Client) (reader : Reader) (writer : Writer) :
    List Record → Turn → Prop where
  | onward (j : Connection) (reader' : Reader) (us : List Record)
      (config : j.config = k.config) (closed : j.inbound.closed = k.inbound.closed)
      (live : reader'.live = 1) (fits : reader'.Fits)
      (rest : ∀ limit ended more, limit = k.config.payloadLimit →
        reader.resume limit ended (k.inbound.bytes ++ more) =
          (reader'.resume limit ended (j.inbound.bytes ++ more)).prepend us) :
      Reads k id c reader writer us
        ⟨us.foldl Client.merge c, j.become reader' writer, us.map fun _ => .broadcast⟩
  | finished (j : Connection) (why : ConnectionError)
      (config : j.config = k.config) (closed : j.inbound.closed = k.inbound.closed)
      (rest : ∀ limit ended more, limit = k.config.payloadLimit →
        (k.inbound.closed = true → more = [] ∧ ended = true) →
        reader.resume limit ended (k.inbound.bytes ++ more) = ⟨[], some why⟩) :
      Reads k id c reader writer [] (j.failReading id c writer why)

section
variable {k j : Connection} {id : ClientId} {c : Client} {reader : Reader} {writer : Writer}
  {now : Moment}

theorem flags_merges (c : Client) (us : List Record) : (us.foldl Client.merge c).flags = c.flags := by
  induction us generalizing c with
  | nil => rfl
  | cons u rest ih =>
      rw [List.foldl_cons, ih]
      rfl

theorem receive_of_listening (j : Connection) (now : Moment) (id : ClientId) (c : Client)
    (writer : Writer) (payload : Bytes) :
    j.receive now true id c writer payload =
      ⟨(Wire.updatesIn payload).foldl Client.merge c, j.become (.length [] now) writer,
        (Wire.updatesIn payload).map fun _ => .broadcast⟩ := by
  unfold receive Wire.updatesIn
  cases Wire.decodePayload payload with
  | error e => rfl
  | ok frame =>
      cases frame with
      | update u => exact if_pos rfl
      | snapshot records => rfl

/-- Moving a chunk from the pipe to what was collected changes nothing in the stream. -/
theorem collect_append (got bytes more : Bytes) (room : Nat) :
    got ++ (bytes ++ more) =
      got ++ bytes.take room ++ (bytes.drop (bytes.take room).length ++ more) := by
  have hchunk : bytes.take room ++ bytes.drop (bytes.take room).length = bytes :=
    List.prefix_iff_eq_append.mp (List.take_prefix room bytes)
  have hmore : bytes.take room ++ (bytes.drop (bytes.take room).length ++ more) = bytes ++ more := by
    rw [← List.append_assoc, hchunk]
  rw [List.append_assoc, hmore]

/-- Nothing comes any more. -/
theorem starve?_reads {since : Moment} {deadline : Deadline} {atEnd : ConnectionError} {t : Turn}
    (h : k.starve? now id c writer since deadline atEnd = some t)
    (htime : k.expired now since deadline = false)
    (hrest : ∀ limit, reader.resume limit true [] = ⟨[], some atEnd⟩) :
    Reads k id c reader writer [] t := by
  unfold starve? at h
  split at h
  · next hend =>
      cases h
      refine .finished k atEnd rfl rfl ?_
      intro limit ended more _ hmore
      rw [Bool.and_eq_true, List.isEmpty_iff] at hend
      obtain ⟨rfl, rfl⟩ := hmore hend.1
      rw [hend.2]
      exact hrest limit
  · split at h
    · next hexpired =>
        rw [htime] at hexpired
        cases hexpired
    · cases h

theorem readLength_reads {got : Bytes} {since : Moment} (hgot : got.length ≤ Wire.prefixLength)
    (hconfig : j.config = k.config) (hclosed : j.inbound.closed = k.inbound.closed)
    (hrest : ∀ limit ended more, reader.resume limit ended (k.inbound.bytes ++ more) =
      readStream limit ended (got ++ (j.inbound.bytes ++ more))) :
    Reads k id c reader writer [] (j.readLength now true id c writer got since) := by
  unfold readLength
  dsimp only
  split
  · next hshort =>
      exact .onward j (.length got since) [] hconfig hclosed rfl hshort
        fun limit ended more _ => hrest limit ended more
  · next hlong =>
      have hword : got.length = Wire.prefixLength := by omega
      split
      · next hlimit =>
          refine .finished j _ hconfig hclosed ?_
          intro limit ended more hl _
          rw [hrest, readStream_of_word hword, hl, ← hconfig, if_pos hlimit]
      · next hlimit =>
          have hnext : ∀ limit ended more, limit = k.config.payloadLimit →
              reader.resume limit ended (k.inbound.bytes ++ more) =
                readPayloadOf limit ended (Wire.wordValue got) (j.inbound.bytes ++ more) := by
            intro limit ended more hl
            rw [hrest, readStream_of_word hword, hl, ← hconfig, if_neg hlimit]
          split
          · next hzero =>
              rw [receive_of_listening, Wire.updatesIn_nil]
              refine .onward j (.length [] now) [] hconfig hclosed rfl (Reader.fits_nil now) ?_
              intro limit ended more hl
              rw [hnext limit ended more hl, hzero]
              have hempty : ([] : Bytes).length = 0 := rfl
              exact readPayloadOf_of_complete hempty
          · next hpos =>
              refine .onward j (.payload _ [] now) [] hconfig hclosed rfl ?_ ?_
              · exact Nat.pos_of_ne_zero hpos
              · exact hnext

theorem readPayload_reads {length : Nat} {got : Bytes} {since : Moment} (hgot : got.length ≤ length)
    (hconfig : j.config = k.config) (hclosed : j.inbound.closed = k.inbound.closed)
    (hrest : ∀ limit ended more, reader.resume limit ended (k.inbound.bytes ++ more) =
      readPayloadOf limit ended length (got ++ (j.inbound.bytes ++ more))) :
    Reads k id c reader writer (if got.length < length then [] else Wire.updatesIn got)
      (j.readPayload now true id c writer length got since) := by
  unfold readPayload
  split
  · next hshort =>
      exact .onward j (.payload length got since) [] hconfig hclosed rfl hshort
        fun limit ended more _ => hrest limit ended more
  · next hlong =>
      have hcomplete : got.length = length := by omega
      rw [receive_of_listening]
      refine .onward j (.length [] now) _ hconfig hclosed rfl (Reader.fits_nil now) ?_
      intro limit ended more _
      rw [hrest, readPayloadOf_of_complete hcomplete]
      rfl

/-- A chunk of a length is taken. -/
theorem lengthChunk_reads {got : Bytes} {since : Moment} (hgot : got.length < Wire.prefixLength) :
    let chunk := k.inbound.bytes.take (Wire.prefixLength - got.length)
    Reads k id c (.length got since) writer []
      ({ k with inbound := k.inbound.drop chunk.length }.readLength now true id c writer
        (got ++ chunk) since) := by
  refine readLength_reads ?_ rfl rfl ?_
  · rw [List.length_append, List.length_take]
    omega
  · intro limit ended more
    exact congrArg (readStream limit ended) (collect_append ..)

/-- A chunk of a payload is taken. -/
theorem payloadChunk_reads {length : Nat} {got : Bytes} {since : Moment}
    (hgot : got.length < length) :
    let chunk := k.inbound.bytes.take (length - got.length)
    Reads k id c (.payload length got since) writer
      (if (got ++ chunk).length < length then [] else Wire.updatesIn (got ++ chunk))
      ({ k with inbound := k.inbound.drop chunk.length }.readPayload now true id c writer length
        (got ++ chunk) since) := by
  refine readPayload_reads ?_ rfl rfl ?_
  · rw [List.length_append, List.length_take]
    omega
  · intro limit ended more
    exact congrArg (readPayloadOf limit ended length) (collect_append ..)

theorem merging_of_length {got : Bytes} {since : Moment}
    (hp : k.phase = .running (.length got since) writer) : k.merging c = [] := by
  simp [merging, hp]

theorem merging_of_silent (h : k.inbound.bytes = []) : k.merging c = [] := by
  unfold merging
  split
  · simp [h]
  · rfl

theorem merging_of_chunk {length : Nat} {got : Bytes} {since : Moment}
    (hp : k.phase = .running (.payload length got since) writer) (hexit : c.exitRead = false)
    (hchunk : (k.inbound.bytes.take (length - got.length)).isEmpty = false) :
    k.merging c =
      if (got ++ k.inbound.bytes.take (length - got.length)).length < length then []
      else Wire.updatesIn (got ++ k.inbound.bytes.take (length - got.length)) := by
  simp only [merging, hp, hexit, hchunk, Bool.false_or]
  simp

/-- However the bytes come, a turn that nothing disturbs reads on in the stream that they make. -/
theorem readTurn?_reads {t : Turn} (h : k.readTurn? now true id c = some t)
    (hp : k.phase = .running reader writer) (hfits : reader.Fits) (hexit : c.exitRead = false)
    (htime : ∀ wait, k.readWait? = some wait → k.expired now wait.1 wait.2 = false) :
    Reads k id c reader writer (k.merging c) t := by
  cases reader with
  | stopped why =>
      simp [readTurn?, hp] at h
  | length got since =>
      have hgot : got.length < Wire.prefixLength := hfits
      have hwait : k.expired now since .idleRead = false :=
        htime (since, .idleRead) (by simp [readWait?, hp])
      rw [merging_of_length hp]
      simp only [readTurn?, hp, hexit, Bool.false_eq_true, if_false] at h
      split at h
      · next hempty =>
          refine starve?_reads h hwait ?_
          intro limit
          rw [Reader.resume, List.append_nil, readStream_of_short hgot]
          rfl
      · cases h
        exact lengthChunk_reads hgot
  | payload length got since =>
      have hgot : got.length < length := hfits
      have hwait : k.expired now since .burstRead = false :=
        htime (since, .burstRead) (by simp [readWait?, hp])
      simp only [readTurn?, hp, hexit, Bool.false_eq_true, if_false] at h
      split at h
      · next hempty =>
          have hmerging : k.merging c = [] := by simp [merging, hp, hempty]
          rw [hmerging]
          refine starve?_reads h hwait ?_
          intro limit
          rw [Reader.resume, List.append_nil, readPayloadOf_of_short hgot]
          rfl
      · next hchunk =>
          cases h
          rw [merging_of_chunk hp hexit (Bool.eq_false_iff.mpr hchunk)]
          exact payloadChunk_reads hgot

theorem isLive_failReading (j : Connection) (why : ConnectionError) :
    (j.failReading id c writer why).connection.phase.isLive .read = false := by
  rw [failReading, isLive_become_read]
  rfl

theorem isLive_starve? {since : Moment} {deadline : Deadline} {atEnd : ConnectionError} {t : Turn}
    (h : k.starve? now id c writer since deadline atEnd = some t) :
    t.connection.phase.isLive .read = false := by
  unfold starve? at h
  split at h
  · cases h
    exact isLive_failReading ..
  · split at h
    · cases h
      exact isLive_failReading ..
    · cases h

/-- Whether the registry listens shows only in an update. -/
theorem receive_of_live {listening : Bool} {payload : Bytes}
    (h : (j.receive now listening id c writer payload).connection.phase.isLive .read = true) :
    j.receive now listening id c writer payload = j.receive now true id c writer payload := by
  cases listening with
  | true => rfl
  | false =>
      unfold receive at h ⊢
      split
      · next u hu =>
          rw [hu] at h
          dsimp only at h
          rw [if_neg Bool.false_ne_true, isLive_failReading] at h
          cases h
      · rfl

theorem readLength_of_live {listening : Bool} {got : Bytes} {since : Moment}
    (h : (j.readLength now listening id c writer got since).connection.phase.isLive .read = true) :
    j.readLength now listening id c writer got since =
      j.readLength now true id c writer got since := by
  unfold readLength at h ⊢
  dsimp only at h ⊢
  split
  · rfl
  · next hlong =>
      rw [if_neg hlong] at h
      split
      · rfl
      · next hlimit =>
          rw [if_neg hlimit] at h
          split
          · next hzero =>
              rw [if_pos hzero] at h
              exact receive_of_live h
          · rfl

theorem readPayload_of_live {listening : Bool} {length : Nat} {got : Bytes} {since : Moment}
    (h : (j.readPayload now listening id c writer length got since).connection.phase.isLive .read =
      true) :
    j.readPayload now listening id c writer length got since =
      j.readPayload now true id c writer length got since := by
  unfold readPayload at h ⊢
  split
  · rfl
  · next hlong =>
      rw [if_neg hlong] at h
      exact receive_of_live h

/-- A turn after which the read side goes on is one that nothing disturbs. -/
theorem readTurn?_reads_of_live {listening : Bool} {t : Turn}
    (h : k.readTurn? now listening id c = some t) (hp : k.phase = .running reader writer)
    (hfits : reader.Fits) (hlive : t.connection.phase.isLive .read = true) :
    c.exitRead = false ∧ Reads k id c reader writer (k.merging c) t := by
  have htold : (k.stopReading c writer).connection.phase.isLive .read = false := by
    rw [stopReading, isLive_become_read]
    rfl
  cases reader with
  | stopped why =>
      simp [readTurn?, hp] at h
  | length got since =>
      have hgot : got.length < Wire.prefixLength := hfits
      simp only [readTurn?, hp] at h
      split at h
      · cases h
        rw [htold] at hlive
        cases hlive
      · next hexit =>
          split at h
          · rw [isLive_starve? h] at hlive
            cases hlive
          · cases h
            rw [merging_of_length hp, readLength_of_live hlive]
            exact ⟨Bool.eq_false_iff.mpr hexit, lengthChunk_reads hgot⟩
  | payload length got since =>
      have hgot : got.length < length := hfits
      simp only [readTurn?, hp] at h
      split at h
      · cases h
        rw [htold] at hlive
        cases hlive
      · next hexit =>
          split at h
          · rw [isLive_starve? h] at hlive
            cases hlive
          · next hchunk =>
              cases h
              rw [merging_of_chunk hp (Bool.eq_false_iff.mpr hexit) (Bool.eq_false_iff.mpr hchunk),
                readPayload_of_live hlive]
              exact ⟨Bool.eq_false_iff.mpr hexit, payloadChunk_reads hgot⟩

theorem record_receive (j : Connection) (now : Moment) (listening : Bool) (id : ClientId) (c : Client)
    (writer : Writer) (payload : Bytes) :
    (j.receive now listening id c writer payload).client.record =
      (Wire.updatesIn payload).foldl Record.merge c.record := by
  unfold receive Wire.updatesIn
  cases Wire.decodePayload payload with
  | error e => rfl
  | ok frame =>
      cases frame with
      | snapshot records => rfl
      | update u =>
          dsimp only
          split
          · rfl
          · exact Client.record_fail (c.merge u) .read

theorem record_readLength (j : Connection) (now : Moment) (listening : Bool) (id : ClientId)
    (c : Client) (writer : Writer) (got : Bytes) (since : Moment) :
    (j.readLength now listening id c writer got since).client.record = c.record := by
  unfold readLength
  dsimp only
  split
  · rfl
  · split
    · exact Client.record_fail c .read
    · split
      · exact record_receive j now listening id c writer []
      · rfl

theorem record_starve? {since : Moment} {deadline : Deadline} {atEnd : ConnectionError} {t : Turn}
    (h : k.starve? now id c writer since deadline atEnd = some t) :
    t.client.record = c.record := by
  unfold starve? at h
  split at h
  · cases h
    exact Client.record_fail c .read
  · split at h
    · cases h
      exact Client.record_fail c .read
    · cases h

/-- Whatever happens, a turn merges what is complete. -/
theorem record_readTurn? {listening : Bool} {t : Turn}
    (h : k.readTurn? now listening id c = some t) :
    t.client.record = (k.merging c).foldl Record.merge c.record := by
  unfold readTurn? at h
  split at h
  · next got since writer hp =>
      dsimp only at h
      rw [merging_of_length hp, List.foldl_nil]
      split at h
      · cases h
        rfl
      · split at h
        · exact record_starve? h
        · cases h
          exact record_readLength ..
  · next length got since writer hp =>
      dsimp only at h
      split at h
      · next hexit =>
          cases h
          simp [merging, hp, hexit, stopReading]
      · next hexit =>
          split at h
          · next hempty =>
              rw [record_starve? h]
              simp [merging, hp, hempty]
          · next hchunk =>
              cases h
              rw [merging_of_chunk hp (Bool.eq_false_iff.mpr hexit) (Bool.eq_false_iff.mpr hchunk)]
              unfold readPayload
              split
              · rfl
              · exact record_receive ..
  · cases h

/-- A read side waits only if it was not told to stop and the pipe is empty and open. -/
theorem of_readTurn?_eq_none {listening : Bool} (h : k.readTurn? now listening id c = none)
    (hp : k.phase = .running reader writer) (hlive : reader.live = 1) (hfits : reader.Fits) :
    c.exitRead = false ∧ k.inbound.bytes = [] ∧ k.inbound.closed = false := by
  have hempty : ∀ {room : Nat}, 0 < room → (k.inbound.bytes.take room).isEmpty = true →
      k.inbound.bytes = [] := by
    intro room hroom hchunk
    rw [List.isEmpty_iff, List.take_eq_nil_iff] at hchunk
    exact hchunk.resolve_left (by omega)
  have hopen : ∀ {since : Moment} {deadline : Deadline} {atEnd : ConnectionError},
      k.inbound.bytes = [] → k.starve? now id c writer since deadline atEnd = none →
      k.inbound.closed = false := by
    intro since deadline atEnd hbytes hstarve
    unfold starve? at hstarve
    split at hstarve
    · cases hstarve
    · next hend => simpa [hbytes] using hend
  unfold readTurn? at h
  rw [hp] at h
  cases reader with
  | stopped why => cases hlive
  | length got since =>
      have hgot : got.length < Wire.prefixLength := hfits
      dsimp only at h
      split at h
      · cases h
      · next hexit =>
          split at h
          · next hchunk =>
              have hbytes := hempty (by omega) hchunk
              exact ⟨by simpa using hexit, hbytes, hopen hbytes h⟩
          · cases h
  | payload length got since =>
      have hgot : got.length < length := hfits
      dsimp only at h
      split at h
      · cases h
      · next hexit =>
          split at h
          · next hchunk =>
              have hbytes := hempty (by omega) hchunk
              exact ⟨by simpa using hexit, hbytes, hopen hbytes h⟩
          · cases h

end

end Connection
end PositionRelay
