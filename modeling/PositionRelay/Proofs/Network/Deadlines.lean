import PositionRelay.Proofs.Network.Entry
import PositionRelay.Proofs.Network.Isolation
import PositionRelay.Proofs.Network.Outbound
import PositionRelay.Proofs.Wire.RoundTrip

/-!
# Deadlines

A watch is kept on a connection from outside: it notes the bytes that the read side takes out of its
pipe, and when its waits began. The read side begins to wait when it is run, and again with every
payload length and every payload that is complete; what comes in between does not count. The write
side begins to wait when it takes a batch.

No wait of a settled network has lasted as long as its deadline allows, and none is ended by a deadline
before that (`deadlines_fire_when_due`). The times that a connection keeps for itself are those of the
watch (`Watched`).
-/
namespace PositionRelay

namespace Wire

variable {stream : Bytes}

theorem splitFrames_of_short (h : stream.length < prefixLength) :
    splitFrames stream = ([], stream) := by
  rw [splitFrames, if_pos h]

theorem splitFrames_of_cut (hlong : prefixLength ≤ stream.length)
    (h : stream.length < prefixLength + announced stream) : splitFrames stream = ([], stream) := by
  rw [splitFrames, if_neg (by omega)]
  exact if_pos h

theorem splitFrames_of_whole (h : prefixLength + announced stream ≤ stream.length) :
    splitFrames stream =
      (stream.take (prefixLength + announced stream) ::
          (splitFrames (stream.drop (prefixLength + announced stream))).1,
        (splitFrames (stream.drop (prefixLength + announced stream))).2) := by
  rw [splitFrames, if_neg (by omega)]
  exact if_neg (by unfold announced at h; omega)

/-- What is left of a stream is cut again together with what follows it. -/
theorem splitFrames_append (stream more : Bytes) :
    splitFrames (stream ++ more) =
      ((splitFrames stream).1 ++ (splitFrames ((splitFrames stream).2 ++ more)).1,
        (splitFrames ((splitFrames stream).2 ++ more)).2) := by
  induction stream using splitFrames.induct with
  | case1 stream hshort => rw [splitFrames_of_short hshort]; rfl
  | case2 stream hlong size hcut =>
      rw [splitFrames_of_cut (by omega) hcut]
      rfl
  | case3 stream hlong size hwhole frames rest hrest ih =>
      have hsize : size = prefixLength + announced stream := rfl
      have hsame : announced (stream ++ more) = announced stream := announced_append (by omega) more
      have henough : size ≤ stream.length := by omega
      have hnew := @splitFrames_of_whole (stream ++ more)
        (by rw [hsame, List.length_append]; omega)
      have hold := @splitFrames_of_whole stream henough
      rw [hsame, ← hsize, List.take_append_of_le_length henough,
        List.drop_append_of_le_length henough, ih] at hnew
      rw [← hsize] at hold
      rw [hnew, hold]
      rfl

/-- A payload length that is not zero is no frame yet. -/
theorem splitFrames_of_word (h : stream.length = prefixLength) (hpos : 0 < wordValue stream) :
    splitFrames stream = ([], stream) := by
  refine splitFrames_of_cut (by omega) ?_
  rw [announced, List.take_of_length_le (by omega)]
  omega

/-- A payload length with its payload is a frame. -/
theorem splitFrames_of_frame {word payload : Bytes} (hword : word.length = prefixLength)
    (hpayload : payload.length = wordValue word) :
    splitFrames (word ++ payload) = ([word ++ payload], []) := by
  have hannounced : announced (word ++ payload) = payload.length := by
    rw [announced, List.take_left' hword, hpayload]
  have hsize : prefixLength + announced (word ++ payload) = (word ++ payload).length := by
    rw [hannounced, List.length_append, hword]
  rw [splitFrames_of_whole (by omega), hsize, List.take_length, List.drop_length,
    splitFrames_of_short (by simp [prefixLength])]

end Wire

/-- The bytes that a read side has taken out of its pipe, and the times at which the current waits of
the two sides began. -/
structure Watch where
  taken : Bytes := []
  reading : Nat := 0
  writing : Nat := 0
deriving DecidableEq, Repr

namespace Watch

/-- The complete frames among the bytes taken. -/
def frames (w : Watch) : Nat := (Wire.splitFrames w.taken).1.length

/-- The bytes of the frame that is not complete yet. -/
def unfinished (w : Watch) : Bytes := (Wire.splitFrames w.taken).2

/-- The payload length of the next frame is complete. -/
def lengthKnown (w : Watch) : Bool := Wire.prefixLength ≤ w.unfinished.length

/-- The deadline under which a side waits. -/
def deadline (w : Watch) : Side → Deadline
  | .read => if w.lengthKnown then .burstRead else .idleRead
  | .write => .write

/-- When the wait of a side began. -/
def since (w : Watch) : Side → Nat
  | .read => w.reading
  | .write => w.writing

/-- The read side takes more bytes. It begins to wait anew if they complete a frame or a length. -/
def take (w : Watch) (bytes : Bytes) (time : Nat) : Watch :=
  let next := { w with taken := w.taken ++ bytes }
  if next.frames = w.frames ∧ next.lengthKnown = w.lengthKnown then next
  else { next with reading := time }

variable {w : Watch} {bytes : Bytes} {time : Nat}

@[simp] theorem taken_take : (w.take bytes time).taken = w.taken ++ bytes := by
  unfold take
  dsimp only
  split <;> rfl

@[simp] theorem writing_take : (w.take bytes time).writing = w.writing := by
  unfold take
  dsimp only
  split <;> rfl

theorem take_nil (w : Watch) (time : Nat) : w.take [] time = w := by
  have hsame : { w with taken := w.taken ++ [] } = w := by rw [List.append_nil]
  unfold take
  dsimp only
  rw [hsame, if_pos ⟨rfl, rfl⟩]

theorem frames_take :
    (w.take bytes time).frames =
      w.frames + (Wire.splitFrames (w.unfinished ++ bytes)).1.length := by
  rw [frames, taken_take, Wire.splitFrames_append, List.length_append]
  rfl

theorem unfinished_take :
    (w.take bytes time).unfinished = (Wire.splitFrames (w.unfinished ++ bytes)).2 := by
  rw [unfinished, taken_take, Wire.splitFrames_append]
  rfl

theorem lengthKnown_take : (w.take bytes time).lengthKnown =
    decide (Wire.prefixLength ≤ (Wire.splitFrames (w.unfinished ++ bytes)).2.length) := by
  rw [lengthKnown, unfinished_take]

/-- Bytes that complete neither a frame nor a length leave the wait as it is. -/
theorem reading_take_of_same (hframes : (w.take bytes time).frames = w.frames)
    (hknown : (w.take bytes time).lengthKnown = w.lengthKnown) :
    (w.take bytes time).reading = w.reading := by
  have hf : ({ w with taken := w.taken ++ bytes } : Watch).frames = w.frames := by
    rw [← hframes, frames, frames, taken_take]
  have hk : ({ w with taken := w.taken ++ bytes } : Watch).lengthKnown = w.lengthKnown := by
    rw [← hknown, lengthKnown, lengthKnown, unfinished, unfinished, taken_take]
  unfold take
  dsimp only
  rw [if_pos ⟨hf, hk⟩]

theorem reading_take_of_new (h : (w.take bytes time).frames = w.frames →
    (w.take bytes time).lengthKnown ≠ w.lengthKnown) : (w.take bytes time).reading = time := by
  have hnot : ¬ (({ w with taken := w.taken ++ bytes } : Watch).frames = w.frames ∧
      ({ w with taken := w.taken ++ bytes } : Watch).lengthKnown = w.lengthKnown) := by
    rintro ⟨hf, hk⟩
    refine h ?_ ?_
    · rw [← hf, frames, frames, taken_take]
    · rw [← hk, lengthKnown, lengthKnown, unfinished, unfinished, taken_take]
  unfold take
  dsimp only
  rw [if_neg hnot]

/-- Bytes that complete nothing go to the unfinished frame, and the wait goes on. -/
theorem take_of_unsplit {left : Bytes} (hleft : w.unfinished = left)
    (hsplit : Wire.splitFrames (left ++ bytes) = ([], left ++ bytes))
    (hsame : Wire.prefixLength ≤ (left ++ bytes).length ↔ Wire.prefixLength ≤ left.length) :
    (w.take bytes time).unfinished = left ++ bytes ∧
      (w.take bytes time).reading = w.reading ∧ (w.take bytes time).frames = w.frames := by
  subst hleft
  have hframes : (w.take bytes time).frames = w.frames := by
    rw [frames_take, hsplit]
    rfl
  refine ⟨by rw [unfinished_take, hsplit], reading_take_of_same hframes ?_, hframes⟩
  rw [lengthKnown_take, hsplit, lengthKnown, decide_eq_decide]
  exact hsame

/-- A frame is complete, and nothing is left of it. -/
theorem take_of_frame {left frame : Bytes} (hleft : w.unfinished = left)
    (hsplit : Wire.splitFrames (left ++ bytes) = ([frame], [])) :
    (w.take bytes time).unfinished = [] ∧ (w.take bytes time).reading = time := by
  subst hleft
  refine ⟨by rw [unfinished_take, hsplit], reading_take_of_new fun hframes => ?_⟩
  rw [frames_take, hsplit, List.length_singleton] at hframes
  omega

/-- A payload length is complete, and the wait for the payload begins. -/
theorem take_of_word {left : Bytes} (hleft : w.unfinished = left)
    (hshort : left.length < Wire.prefixLength)
    (hwhole : (left ++ bytes).length = Wire.prefixLength)
    (hpos : 0 < Wire.wordValue (left ++ bytes)) :
    (w.take bytes time).unfinished = left ++ bytes ∧ (w.take bytes time).reading = time ∧
      (w.take bytes time).frames = w.frames := by
  subst hleft
  have hsplit := Wire.splitFrames_of_word hwhole hpos
  refine ⟨by rw [unfinished_take, hsplit], reading_take_of_new fun _ => ?_,
    by rw [frames_take, hsplit]; rfl⟩
  rw [lengthKnown_take, hsplit, lengthKnown, ne_eq, decide_eq_decide]
  dsimp only
  omega

end Watch

/-- A read side holds an unfinished frame and has waited since a time. -/
inductive Reader.Stands : Bytes → Nat → Reader → Prop
  | length (got : Bytes) (since : Moment) (short : got.length < Wire.prefixLength) :
      Stands got since.time (.length got since)
  | payload (word got : Bytes) (since : Moment) (whole : word.length = Wire.prefixLength)
      (short : got.length < Wire.wordValue word) :
      Stands (word ++ got) since.time (.payload (Wire.wordValue word) got since)
  | stopped (left : Bytes) (time : Nat) (why : Stop) : Stands left time (.stopped why)

theorem Reader.stands_start (now : Moment) : Reader.Stands [] now.time (.length [] now) :=
  .length [] now (Nat.succ_pos 3)

section
variable {k : Connection} {now : Moment} {reader reader' : Reader} {count : Nat} {w : Watch}

/-- A turn of a read side keeps in step with the watch. If it completes a frame and goes on, nothing of
the next frame has been taken yet. -/
theorem Connection.Takes.stands (h : Takes k now reader count reader')
    (hs : reader.Stands w.unfinished w.reading) :
    let next := w.take (k.inbound.bytes.take count) now.time
    reader'.Stands next.unfinished next.reading ∧
      (next.frames = w.frames ∨ reader'.live = 0 ∨ next.unfinished = []) := by
  generalize hleft : w.unfinished = left at hs
  generalize htime : w.reading = time at hs
  dsimp only
  cases h with
  | stops reader count why => exact ⟨.stopped .., .inr (.inl rfl)⟩
  | expires reader since deadline waits due => exact ⟨.stopped .., .inr (.inl rfl)⟩
  | length got since count short =>
      cases hs with
      | length _ _ hgot =>
          have hle : ¬ Wire.prefixLength ≤ (left ++ k.inbound.bytes.take count).length := by omega
          obtain ⟨hu, hr, hf⟩ := @Watch.take_of_unsplit _ _ now.time _ hleft
            (Wire.splitFrames_of_short short) (iff_of_false hle (by omega))
          rw [hu, hr, htime]
          exact ⟨.length _ since short, .inl hf⟩
  | payload size got since count short =>
      cases hs with
      | payload word _ _ whole hgot =>
          have hlong : Wire.prefixLength ≤ (word ++ got ++ k.inbound.bytes.take count).length := by
            simp only [List.length_append]
            omega
          have hannounced : Wire.announced (word ++ got ++ k.inbound.bytes.take count) =
              Wire.wordValue word := by
            rw [Wire.announced, List.append_assoc, List.take_left' whole]
          have hcut : (word ++ got ++ k.inbound.bytes.take count).length <
              Wire.prefixLength + Wire.announced (word ++ got ++ k.inbound.bytes.take count) := by
            rw [hannounced]
            simp only [List.length_append] at short ⊢
            omega
          obtain ⟨hu, hr, hf⟩ := @Watch.take_of_unsplit _ _ now.time _ hleft
            (Wire.splitFrames_of_cut hlong hcut)
            (iff_of_true hlong (by rw [List.length_append]; omega))
          rw [hu, hr, htime, List.append_assoc]
          exact ⟨.payload word _ since whole short, .inl hf⟩
  | announced got since count whole pos =>
      cases hs with
      | length _ _ hgot =>
          obtain ⟨hu, hr, hf⟩ := @Watch.take_of_word _ _ now.time _ hleft hgot whole pos
          have hstart := Reader.Stands.payload (left ++ k.inbound.bytes.take count) [] now whole pos
          rw [List.append_nil] at hstart
          rw [hu, hr]
          exact ⟨hstart, .inl hf⟩
  | received got since size count hwhole =>
      cases hs with
      | payload word _ _ whole hgot =>
          have hsplit := Wire.splitFrames_of_frame whole hwhole
          rw [← List.append_assoc] at hsplit
          obtain ⟨hu, hr⟩ := @Watch.take_of_frame _ _ now.time _ _ hleft hsplit
          rw [hu, hr]
          exact ⟨Reader.stands_start now, .inr (.inr rfl)⟩
  | receivedNothing got since count whole zero =>
      cases hs with
      | length _ _ hgot =>
          have hsplit := @Wire.splitFrames_of_frame (left ++ k.inbound.bytes.take count) [] whole zero.symm
          rw [List.append_nil] at hsplit
          obtain ⟨hu, hr⟩ := @Watch.take_of_frame _ _ now.time _ _ hleft hsplit
          rw [hu, hr]
          exact ⟨Reader.stands_start now, .inr (.inr rfl)⟩

/-- The deadline and the beginning of a wait are those of the watch. -/
theorem Reader.Stands.readWait? {writer : Writer} (h : reader.Stands w.unfinished w.reading)
    (hp : k.phase = .running reader writer) (hlive : reader.live = 1) :
    ∃ since : Moment, k.readWait? = some (since, w.deadline .read) ∧ since.time = w.reading := by
  have hdeadline : w.deadline .read =
      if Wire.prefixLength ≤ w.unfinished.length then .burstRead else .idleRead := by
    simp [Watch.deadline, Watch.lengthKnown]
  rw [hdeadline]
  unfold Connection.readWait?
  rw [hp]
  generalize w.unfinished = left at h
  generalize w.reading = time at h
  cases h with
  | length got since short => exact ⟨since, by rw [if_neg (by omega)], rfl⟩
  | payload word got since whole short =>
      refine ⟨since, ?_, rfl⟩
      rw [if_pos (by rw [List.length_append]; omega)]
  | stopped left time why => cases hlive

end

/-- The write side is free to take a batch. -/
def Phase.isIdle : Phase → Bool
  | .running _ .idle => true
  | _ => false

namespace Network

/-- The bytes that the read side of a connection takes out of its pipe if it has a turn now. -/
def takenIn (n : Network) (id : ClientId) : Bytes :=
  match n.connection? id, (n.react (.task (.read id))).connection? id with
  | some k, some k' => k.inbound.bytes.take (k.inbound.bytes.length - k'.inbound.bytes.length)
  | _, _ => []

/-- A turn of the write side takes a batch. -/
def begins (n : Network) (id : ClientId) : Bool :=
  (n.connection? id).any (fun k => k.phase.isIdle) && !(n.registry.pending id).isEmpty

/-- What a watch on a connection notes of an event. -/
def watchIn (n : Network) (e : Event) (id : ClientId) (w : Watch) : Watch :=
  match e with
  | .move (.start j) => if j = id ∧ n.isFresh id = true then { w with reading := n.now.time } else w
  | .task (.read j) => if j = id then w.take (n.takenIn id) n.now.time else w
  | .task (.write j) =>
      if j = id ∧ n.begins id = true then { w with writing := n.now.time } else w
  | _ => w

/-- A watch kept from the beginning. -/
def watchOf (past : List (Network × Event)) (id : ClientId) : Watch :=
  past.foldl (fun w s => s.1.watchIn s.2 id w) {}

theorem watchOf_append (past : List (Network × Event)) (n : Network) (e : Event) (id : ClientId) :
    watchOf (past ++ [(n, e)]) id = n.watchIn e id (watchOf past id) := by
  simp [watchOf]

/-- What a connection knows of its waits is what a watch has noted. -/
structure Watched (n : Network) (id : ClientId) (w : Watch) : Prop where
  unstarted : ¬ n.HasStarted id → w.taken = []
  reads : ∀ k reader writer, n.connection? id = some k → k.phase = .running reader writer →
    reader.Stands w.unfinished w.reading
  writes : ∀ k reader rest since, n.connection? id = some k →
    k.phase = .running reader (.writing rest since) → since.time = w.writing

section
variable {n : Network} {id : ClientId} {k k' : Connection} {e : Event} {w : Watch}

theorem takenIn_of_same (hk : n.connection? id = some k)
    (hk' : (n.react (.task (.read id))).connection? id = some k')
    (hbytes : k'.inbound.bytes = k.inbound.bytes) : n.takenIn id = [] := by
  unfold takenIn
  rw [hk, hk']
  simp [hbytes]

/-- Unless bytes are taken or the connection is run, the watch on the read side notes nothing. -/
theorem watchIn_of_same (w : Watch) (hk : n.connection? id = some k)
    (hk' : (n.react e).connection? id = some k') (hbytes : k'.inbound.bytes = k.inbound.bytes) :
    (n.watchIn e id w).taken = w.taken ∧
      (k.phase.isStarted = true → (n.watchIn e id w).reading = w.reading) := by
  cases e with
  | move move =>
      cases move with
      | start j =>
          unfold watchIn
          dsimp only
          split
          · next hfresh =>
              refine ⟨rfl, fun hstarted => ?_⟩
              have hnot := HasStarted.not_isFresh ⟨k, hk, hstarted⟩
              rw [hfresh.2] at hnot
              cases hnot
          · exact ⟨rfl, fun _ => rfl⟩
      | _ => exact ⟨rfl, fun _ => rfl⟩
  | task task =>
      cases task with
      | read j =>
          unfold watchIn
          dsimp only
          split
          · next hj =>
              subst hj
              rw [takenIn_of_same hk hk' hbytes, Watch.take_nil]
              exact ⟨rfl, fun _ => rfl⟩
          · exact ⟨rfl, fun _ => rfl⟩
      | write j =>
          unfold watchIn
          dsimp only
          split
          · exact ⟨rfl, fun _ => rfl⟩
          · exact ⟨rfl, fun _ => rfl⟩
      | stop j => exact ⟨rfl, fun _ => rfl⟩
      | registry => exact ⟨rfl, fun _ => rfl⟩

theorem begins_of_not_idle (hk : n.connection? id = some k) (h : k.phase.isIdle = false) :
    n.begins id = false := by
  simp [begins, hk, h]

/-- Unless a batch is taken, the watch on the write side notes nothing. -/
theorem writing_watchIn (w : Watch) (h : n.begins id = false) (e : Event) :
    (n.watchIn e id w).writing = w.writing := by
  cases e with
  | move move =>
      cases move with
      | start j => unfold watchIn; dsimp only; split <;> rfl
      | _ => rfl
  | task task =>
      cases task with
      | read j =>
          unfold watchIn
          dsimp only
          split
          · exact Watch.writing_take
          · rfl
      | write j =>
          unfold watchIn
          dsimp only
          rw [if_neg (by simp [h])]
      | _ => rfl

/-- A wait goes on until a frame or a length is complete. -/
theorem reading_watchIn (hstarted : n.HasStarted id)
    (hframes : (n.watchIn e id w).frames = w.frames)
    (hknown : (n.watchIn e id w).lengthKnown = w.lengthKnown) :
    (n.watchIn e id w).reading = w.reading := by
  cases e with
  | move move =>
      cases move with
      | start j =>
          unfold watchIn
          dsimp only
          split
          · next hfresh =>
              obtain ⟨rfl, hfresh⟩ := hfresh
              rw [hstarted.not_isFresh] at hfresh
              cases hfresh
          · rfl
      | _ => rfl
  | task task =>
      cases task with
      | read j =>
          by_cases hj : j = id
          · have hwatch : n.watchIn (.task (.read j)) id w = w.take (n.takenIn id) n.now.time :=
              if_pos hj
            rw [hwatch] at hframes hknown ⊢
            exact Watch.reading_take_of_same hframes hknown
          · have hwatch : n.watchIn (.task (.read j)) id w = w := if_neg hj
            rw [hwatch]
      | write j => unfold watchIn; dsimp only; split <;> rfl
      | _ => rfl

/-- The connection as it is after an event, together with the watch. -/
theorem Watched.of_connection (hk' : (n.react e).connection? id = some k')
    (hunstarted : k'.phase.isStarted = false → w.taken = [])
    (hreads : ∀ reader writer, k'.phase = .running reader writer →
      reader.Stands w.unfinished w.reading)
    (hwrites : ∀ reader rest since, k'.phase = .running reader (.writing rest since) →
      since.time = w.writing) : (n.react e).Watched id w := by
  refine ⟨fun hnot => hunstarted ?_, fun i reader writer hi hp => ?_,
    fun i reader rest since hi hp => ?_⟩
  · rw [Bool.eq_false_iff]
    exact fun hstarted => hnot ⟨k', hk', hstarted⟩
  · rw [hk'] at hi
    cases hi
    exact hreads reader writer hp
  · rw [hk'] at hi
    cases hi
    exact hwrites reader rest since hp

/-- An event that leaves the phase and what is to be read as they are. -/
theorem Watched.quiet (h : n.Watched id w) (hk : n.connection? id = some k)
    (hk' : (n.react e).connection? id = some k') (hphase : k'.phase = k.phase)
    (hw : n.watchIn e id w = w) : (n.react e).Watched id (n.watchIn e id w) := by
  rw [hw]
  refine .of_connection hk' (fun hnot => h.unstarted ?_) (fun reader writer hp => ?_)
    fun reader rest since hp => ?_
  · rintro ⟨i, hi, hstarted⟩
    rw [hk] at hi
    cases hi
    rw [hphase, hstarted] at hnot
    cases hnot
  · exact h.reads k reader writer hk (hphase ▸ hp)
  · exact h.writes k reader rest since hk (hphase ▸ hp)

theorem Watched.unchanged (h : n.Watched id w) (hk : n.connection? id = some k)
    (hk' : (n.react e).connection? id = some k) : (n.react e).Watched id (n.watchIn e id w) := by
  obtain ⟨htaken, hreading⟩ := watchIn_of_same w hk hk' rfl
  refine .of_connection hk' (fun hnot => ?_) (fun reader writer hp => ?_)
    fun reader rest since hp => ?_
  · rw [htaken]
    refine h.unstarted ?_
    rintro ⟨i, hi, hstarted⟩
    rw [hk] at hi
    cases hi
    rw [hstarted] at hnot
    cases hnot
  · rw [Watch.unfinished, htaken, hreading (by rw [hp]; rfl)]
    exact h.reads k reader writer hk hp
  · rw [writing_watchIn w (begins_of_not_idle hk (by rw [hp]; rfl))]
    exact h.writes k reader rest since hk hp

/-- A turn of the read side takes the bytes that the watch notes. -/
theorem watchIn_read (w : Watch) (hk : n.connection? id = some k) {j : Connection} {count : Nat}
    {reader : Reader} {writer : Writer} (hj : j.inbound = k.inbound.drop count)
    (hk' : (n.react (.task (.read id))).connection? id = some (j.become reader writer)) :
    n.watchIn (.task (.read id)) id w = w.take (k.inbound.bytes.take count) n.now.time := by
  have htaken : n.takenIn id = k.inbound.bytes.take count := by
    unfold takenIn
    rw [hk, hk']
    dsimp only
    rw [Connection.inbound_bytes_become, hj, Pipe.drop, List.length_drop, List.take_eq_take_iff]
    omega
  unfold watchIn
  dsimp only
  rw [if_pos rfl, htaken]

theorem Watched.read (h : n.Watched id w) (hformed : k.Formed) (hk : n.connection? id = some k)
    {c : Client} {t : Turn} (ht : k.readTurn? n.now n.registry.running id c = some t)
    (hk' : (n.react (.task (.read id))).connection? id = some t.connection) :
    let next := n.watchIn (.task (.read id)) id w
    (n.react (.task (.read id))).Watched id next ∧
      (next.frames = w.frames ∨ t.connection.phase.isLive .read = false ∨
        next.unfinished = []) := by
  obtain ⟨reader, writer, hp, hr, hturn⟩ := Connection.readTurn?_cases ht
  obtain ⟨count, reader', htakes, hconnection⟩ :=
    Connection.readTurn?_takes ht hp (hformed.fits reader (by rw [hp]; rfl))
  have hstarted : t.connection.phase.isStarted = true := hturn.enters.isStarted
  obtain ⟨hstands, hframes⟩ := htakes.stands (h.reads k reader writer hk hp)
  dsimp only
  rw [watchIn_read w hk rfl (hconnection ▸ hk')]
  constructor
  · refine .of_connection hk' (fun hnot => ?_) (fun i j hphase => ?_) fun i rest since hphase => ?_
    · rw [hstarted] at hnot
      cases hnot
    · have hread := Connection.reader?_become
        { k with inbound := k.inbound.drop count } reader' writer
      rw [← hconnection, hphase] at hread
      cases hread
      exact hstands
    · -- The write side goes on with what it is doing.
      have hwriter : writer = .writing rest since := by
        rw [hconnection] at hphase
        cases reader' <;> cases writer <;> cases hphase <;> rfl
      rw [Watch.writing_take]
      exact h.writes k reader rest since hk (by rw [hp, hwriter])
  · refine hframes.imp_right (Or.imp_left fun hl => ?_)
    rw [hconnection, Connection.isLive_become_read, hl]
    rfl

/-- The write side stops, or it has a turn. -/
theorem Watched.write (h : n.Watched id w) (hk : n.connection? id = some k) {reader : Reader}
    {writer writer' : Writer} {outbound : Pipe} (hp : k.phase = .running reader writer)
    (hk' : (n.react e).connection? id = some ({ k with outbound }.become reader writer'))
    (hwrites : ∀ rest since, writer' = .writing rest since →
      since.time = (n.watchIn e id w).writing) :
    (n.react e).Watched id (n.watchIn e id w) := by
  obtain ⟨htaken, hreading⟩ := watchIn_of_same w hk hk' (Connection.inbound_bytes_become ..)
  refine .of_connection hk' (fun hnot => ?_) (fun i j hphase => ?_) fun i rest since hphase => ?_
  · rw [Connection.isStarted_become] at hnot
    cases hnot
  · have hread := Connection.reader?_become { k with outbound } reader writer'
    rw [hphase] at hread
    cases hread
    rw [Watch.unfinished, htaken, hreading (by rw [hp]; rfl)]
    exact h.reads k reader writer hk hp
  · have hwriter : writer' = .writing rest since := by
      cases reader <;> cases writer' <;> cases hphase <;> rfl
    exact hwrites rest since hwriter

theorem Watched.wrote (h : n.Watched id w) (hk : n.connection? id = some k) {c : Client} {t : Turn}
    (hc : n.client? id = some c) (ht : k.writeTurn? n.now id c = some t)
    (hk' : (n.react (.task (.write id))).connection? id = some t.connection) :
    (n.react (.task (.write id))).Watched id (n.watchIn (.task (.write id)) id w) := by
  obtain ⟨reader, writer, hp, -, -⟩ := Connection.writeTurn?_cases ht
  obtain ⟨outbound, writer', hgives, -, hconnection, -⟩ := Connection.writeTurn?_gives ht hp
  rw [hconnection] at hk'
  refine h.write hk hp hk' fun rest since hwriter => ?_
  cases hgives with
  | broken => cases hwriter
  | expires => cases hwriter
  | done => cases hwriter
  | begins batch later waiting =>
      cases hwriter
      have hbegins : n.begins id = true := by
        unfold begins
        rw [hk, pending_eq, hc]
        simp [Phase.isIdle, hp, waiting]
      unfold watchIn
      dsimp only
      rw [if_pos ⟨rfl, hbegins⟩]
  | goesOn _ left =>
      cases hwriter
      rw [writing_watchIn w (begins_of_not_idle hk (by rw [hp]; rfl))]
      exact h.writes k reader _ since hk hp

theorem Watched.evolves (h : n.Watched id w) (hformed : k.Formed) (hk : n.connection? id = some k)
    (hk' : (n.react e).connection? id = some k') (he : n.Evolves id k e k') :
    (n.react e).Watched id (n.watchIn e id w) := by
  cases he with
  | unchanged => exact h.unchanged hk hk'
  | started fresh =>
      have hfresh : n.isFresh id = true := isFresh_iff.mpr ⟨k, hk, fresh⟩
      have hwatch : n.watchIn (.move (.start id)) id w = { w with reading := n.now.time } := by
        unfold watchIn
        dsimp only
        rw [if_pos ⟨rfl, hfresh⟩]
      have htaken : w.taken = [] := by
        refine h.unstarted fun hs => ?_
        rw [hs.not_isFresh] at hfresh
        cases hfresh
      have hunfinished : (Watch.mk w.taken n.now.time w.writing).unfinished = [] := by
        rw [Watch.unfinished, htaken, Wire.splitFrames_of_short (by simp [Wire.prefixLength])]
      rw [hwatch]
      refine .of_connection hk' (fun hnot => by cases hnot) (fun reader writer hp => ?_)
        fun reader rest since hp => by cases hp
      cases hp
      rw [hunfinished]
      exact Reader.stands_start n.now
  | givenUp _ fresh phase gone =>
      obtain ⟨htaken, -⟩ := watchIn_of_same w hk hk' rfl
      have hnot : ¬ n.HasStarted id := by
        rintro ⟨i, hi, hstarted⟩
        rw [hk] at hi
        cases hi
        rw [fresh] at hstarted
        cases hstarted
      refine .of_connection hk' (fun _ => htaken.trans (h.unstarted hnot))
        (fun reader writer hp => ?_) fun reader rest since hp => ?_
      · rcases gone with rfl | rfl <;> cases hp
      · rcases gone with rfl | rfl <;> cases hp
  | heard => exact h.quiet hk hk' rfl rfl
  | withdrawn => exact h.quiet hk hk' rfl rfl
  | ended => exact h.quiet hk hk' rfl rfl
  | hungUp => exact h.quiet hk hk' rfl rfl
  | read c t _ turn => exact (h.read hformed hk turn hk').1
  | told c t _ turn =>
      obtain ⟨reader, writer, hp, -, -⟩ := @Connection.stopTurn?_cases _ id _ _ turn
      rw [Connection.stopTurn?_eq turn hp] at hk'
      exact h.write hk hp hk' fun rest since hwriter => by cases hwriter
  | wrote c t client turn => exact h.wrote hk client turn hk'

theorem Watched.react (h : n.Watched id w) (hi : n.Issued) (hf : n.Formed) (e : Event) :
    (n.react e).Watched id (n.watchIn e id w) := by
  cases hk : n.connection? id with
  | some k =>
      obtain ⟨k', hk', hevolves⟩ := Network.evolves hi hk e
      exact h.evolves (hf id k hk) hk hk' hevolves
  | none =>
      have htaken : w.taken = [] := h.unstarted fun ⟨i, hi, _⟩ => by rw [hk] at hi; cases hi
      have hsame : (n.watchIn e id w).taken = [] := by
        cases e with
        | move move =>
            cases move with
            | start j => unfold watchIn; dsimp only; split <;> exact htaken
            | _ => exact htaken
        | task task =>
            cases task with
            | read j =>
                have hnone : n.takenIn id = [] := by simp [takenIn, hk]
                unfold watchIn
                dsimp only
                rw [hnone, Watch.take_nil]
                split <;> exact htaken
            | write j => unfold watchIn; dsimp only; split <;> exact htaken
            | _ => exact htaken
      rcases connection?_react_of_none hk e with hnone | ⟨config, buffer, drawX, drawY, -, -, -, hid,
        he⟩
      · refine ⟨fun _ => hsame, fun i reader writer hi => ?_, fun i reader rest since hi => ?_⟩
        · rw [hnone] at hi
          cases hi
        · rw [hnone] at hi
          cases hi
      · refine .of_connection (by rw [he, connection?_built, if_pos hid]) (fun _ => hsame)
          (fun reader writer hp => by cases hp) fun reader rest since hp => by cases hp

/-- A deadline that ends the read side is the one that the watch knows, and is over by the watch. -/
theorem Watched.of_readDeadline (h : n.Watched id w) (hk : n.connection? id = some k)
    {reader : Reader} {writer : Writer} (hp : k.phase = .running reader writer)
    (hlive : reader.live = 1) {count : Nat} {d : Deadline}
    (ht : k.Takes n.now reader count (.stopped (.failed (.timeout d)))) :
    d = w.deadline .read ∧ w.since .read + (k.config.limitOf d).nanoseconds ≤ n.now.time := by
  obtain ⟨since, waits, due⟩ := ht.waited
  obtain ⟨began, hwait, htime⟩ := (h.reads k reader writer hk hp).readWait? hp hlive
  obtain ⟨rfl, rfl⟩ := Prod.mk.inj (Option.some.inj (waits.symm.trans hwait))
  refine ⟨rfl, ?_⟩
  change w.reading + _ ≤ _
  rw [← htime]
  exact of_decide_eq_true due

theorem Watched.of_writeDeadline (h : n.Watched id w) (hk : n.connection? id = some k)
    {reader : Reader} {writer : Writer} (hp : k.phase = .running reader writer) {c : Client}
    {d : Deadline} (ht : k.Gives n.now c writer (.stopped (.failed (.timeout d)))) :
    d = w.deadline .write ∧ w.since .write + (k.config.limitOf d).nanoseconds ≤ n.now.time := by
  obtain ⟨rest, since, rfl, rfl, due⟩ := ht.waited
  refine ⟨rfl, ?_⟩
  change w.writing + _ ≤ _
  rw [← h.writes k reader rest since hk hp]
  exact of_decide_eq_true due

/-- A side that a deadline ends has waited as long as the deadline allows. -/
theorem Watched.of_timeout (h : n.Watched id w) (hformed : k.Formed)
    (hk : n.connection? id = some k) (he : n.Evolves id k e k') {side : Side} {d : Deadline}
    (hbefore : k.phase.stop? side = none)
    (hafter : k'.phase.stop? side = some (.failed (.timeout d))) :
    d = w.deadline side ∧ w.since side + (k.config.limitOf d).nanoseconds ≤ n.now.time := by
  have still : ∀ {p : Phase}, p.stop? side = k.phase.stop? side →
      p.stop? side = some (.failed (.timeout d)) → False := by
    intro p hsame hstop
    rw [hsame, hbefore] at hstop
    cases hstop
  cases he with
  | unchanged => exact (still rfl hafter).elim
  | started => cases side <;> cases hafter
  | givenUp _ _ phase gone =>
      change phase.stop? side = _ at hafter
      rcases gone with rfl | rfl <;> cases side <;> cases hafter
  | heard => exact (still rfl hafter).elim
  | withdrawn => exact (still rfl hafter).elim
  | ended => exact (still rfl hafter).elim
  | hungUp => exact (still rfl hafter).elim
  | read c t _ turn =>
      obtain ⟨reader, writer, hp, hr, -⟩ := Connection.readTurn?_cases turn
      obtain ⟨count, reader', htakes, hconnection⟩ :=
        Connection.readTurn?_takes turn hp (hformed.fits reader (by rw [hp]; rfl))
      rw [hconnection] at hafter
      cases side with
      | write =>
          rw [Connection.stop?_become_write] at hafter
          rw [hp] at hbefore
          exact absurd (hbefore.symm.trans hafter) (by simp)
      | read =>
          rw [Connection.stop?_become_read] at hafter
          cases reader' with
          | length => cases hafter
          | payload => cases hafter
          | stopped why =>
              cases hafter
              exact h.of_readDeadline hk hp hr htakes
  | told c t _ turn =>
      obtain ⟨reader, writer, hp, -, -⟩ := @Connection.stopTurn?_cases _ id _ _ turn
      rw [Connection.stopTurn?_eq turn hp] at hafter
      cases side with
      | read =>
          rw [Connection.stop?_become_read] at hafter
          rw [hp] at hbefore
          exact absurd (hbefore.symm.trans hafter) (by simp)
      | write =>
          rw [Connection.stop?_become_write] at hafter
          cases hafter
  | wrote c t _ turn =>
      obtain ⟨reader, writer, hp, -, -⟩ := Connection.writeTurn?_cases turn
      obtain ⟨outbound, writer', hgives, -, hconnection, -⟩ := Connection.writeTurn?_gives turn hp
      rw [hconnection] at hafter
      cases side with
      | read =>
          rw [Connection.stop?_become_read] at hafter
          rw [hp] at hbefore
          exact absurd (hbefore.symm.trans hafter) (by simp)
      | write =>
          rw [Connection.stop?_become_write] at hafter
          cases writer' with
          | idle => cases hafter
          | writing => cases hafter
          | stopped why =>
              cases hafter
              exact h.of_writeDeadline hk hp hgives

/-- A frame that is complete begins the wait for the next length. -/
theorem Watched.restarts (h : n.Watched id w) (hformed : k.Formed) (hk : n.connection? id = some k)
    (hk' : (n.react e).connection? id = some k') (he : n.Evolves id k e k')
    (hframes : w.frames < (n.watchIn e id w).frames) (hlive : k'.phase.isLive .read = true) :
    (n.watchIn e id w).reading = n.now.time ∧ (n.watchIn e id w).deadline .read = .idleRead := by
  have silent : (n.watchIn e id w).taken = w.taken → False := by
    intro hsame
    rw [Watch.frames, Watch.frames, hsame] at hframes
    exact Nat.lt_irrefl _ hframes
  cases he with
  | unchanged => exact (silent (watchIn_of_same w hk hk' rfl).1).elim
  | started => exact (silent (watchIn_of_same w hk hk' rfl).1).elim
  | givenUp => exact (silent (watchIn_of_same w hk hk' rfl).1).elim
  | heard => exact (silent rfl).elim
  | withdrawn => exact (silent rfl).elim
  | ended => exact (silent rfl).elim
  | hungUp => exact (silent rfl).elim
  | told => exact (silent rfl).elim
  | wrote c t _ turn =>
      obtain ⟨reader, writer, hp, -, -⟩ := Connection.writeTurn?_cases turn
      obtain ⟨outbound, writer', -, -, hconnection, -⟩ := Connection.writeTurn?_gives turn hp
      refine (silent (watchIn_of_same w hk hk' ?_).1).elim
      rw [hconnection]
      exact Connection.inbound_bytes_become ..
  | read c t _ turn =>
      obtain ⟨-, hcases⟩ := h.read hformed hk turn hk'
      have hunfinished : (n.watchIn (.task (.read id)) id w).unfinished = [] := by
        rcases hcases with hsame | hstopped | hempty
        · omega
        · rw [hlive] at hstopped
          cases hstopped
        · exact hempty
      refine ⟨?_, by simp [Watch.deadline, Watch.lengthKnown, hunfinished, Wire.prefixLength]⟩
      obtain ⟨reader, writer, hp, -, -⟩ := Connection.readTurn?_cases turn
      obtain ⟨count, reader', -, hconnection⟩ :=
        Connection.readTurn?_takes turn hp (hformed.fits reader (by rw [hp]; rfl))
      rw [watchIn_read w hk rfl (hconnection ▸ hk')] at hframes ⊢
      exact Watch.reading_take_of_new fun hsame => by omega

/-- A running connection of a settled network waits, and its waits are not over. -/
theorem Watched.patient (h : n.Watched id w) (hr : n.Regular) (hs : n.Settled)
    (hk : n.connection? id = some k) (hrunning : k.phase.isRunning = true) :
    n.now.time < w.since .read + (k.config.limitOf (w.deadline .read)).nanoseconds ∧
      (k.unwritten ≠ [] →
        n.now.time < w.since .write + (k.config.limitOf (w.deadline .write)).nanoseconds) := by
  obtain ⟨causes, hreached⟩ := hr.reached id
  obtain ⟨-, hcalm⟩ := hs.calm hreached hr.formed hk hrunning
  obtain ⟨reader, writer, hp⟩ : ∃ reader writer, k.phase = .running reader writer := by
    cases hp : k.phase with
    | running reader writer => exact ⟨reader, writer, rfl⟩
    | _ => rw [hp] at hrunning; cases hrunning
  constructor
  · have hlive : reader.live = 1 := by
      have := hcalm.live .read
      rw [hp] at this
      exact beq_iff_eq.mp this
    obtain ⟨since, hwait, htime⟩ := (h.reads k reader writer hk hp).readWait? hp hlive
    have hleft := hcalm.patient _ hwait
    simp only [Connection.expired, decide_eq_false_iff_not, Nat.not_le] at hleft
    change _ < w.reading + _
    rw [← htime]
    exact hleft
  · intro hunwritten
    unfold Connection.unwritten at hunwritten
    rw [hp] at hunwritten
    cases writer with
    | stopped => exact absurd rfl hunwritten
    | idle => exact absurd rfl hunwritten
    | writing rest since =>
        have hleft := hcalm.timely (since, .write) (by rw [Connection.writeWait?, hp])
        simp only [Connection.expired, decide_eq_false_iff_not, Nat.not_le] at hleft
        change _ < w.writing + _
        rw [← h.writes k reader rest since hk hp]
        exact hleft

/-- Once a side has stopped, a settled connection does not run, and it is out of the registry. -/
theorem Settled.gone (hs : n.Settled) (hr : n.Regular) (hexits : n.Exits id) {p : Phase}
    {side : Side} (hp : n.phase? id = some p) (hstop : (p.stop? side).isSome) :
    ¬ n.IsRunning id ∧ id ∉ n.registry.members.ids := by
  obtain ⟨causes, hreached⟩ := hr.reached id
  have hidle : ¬ n.IsRunning id := by
    rintro ⟨q, hq, hrunning⟩
    obtain ⟨k, hk, rfl⟩ := connection?_of_phase? hq
    obtain ⟨-, hcalm⟩ := hs.calm hreached hr.formed hk hrunning
    cases hp.symm.trans hq
    rw [Phase.stop?_of_isLive (hcalm.live side)] at hstop
    cases hstop
  obtain ⟨f, hf, hstage⟩ : ∃ f, n.flags? id = some f ∧ Stage f p causes := by
    rcases hreached with ⟨-, hnone, -⟩ | ⟨f, q, hf, hq, hstage⟩
    · rw [hp] at hnone
      cases hnone
    · cases hp.symm.trans hq
      exact ⟨f, hf, hstage⟩
  have hclosing : f.closing = true := by
    cases hstage with
    | untouched _ live => rw [live side] at hstop; cases hstop
    | failed first _ flags => rw [flags]; exact Flags.closing_fail_clear first
    | told _ _ raised => rw [raised]; rfl
  obtain ⟨-, ⟨hmember, -⟩ | ⟨before, after, hq, -⟩⟩ := hexits f hf hclosing
  · exact ⟨hidle, hmember⟩
  · rw [hs.queue_eq_nil] at hq
    simp at hq

end

theorem watched_after (ids : IdentifierSource) (events : List Event) (id : ClientId) :
    (({ ids } : Network).after events).Watched id
      (watchOf (({ ids } : Network).trace events) id) := by
  suffices hall : (({ ids } : Network).after events).Regular ∧
      (({ ids } : Network).after events).Watched id
        (watchOf (({ ids } : Network).trace events) id) from hall.2
  refine run_induction (P := fun past n => n.Regular ∧ n.Watched id (watchOf past id))
    (Q := fun _ _ => True) ?_ ?_ events fun _ _ => trivial
  · rintro past n e ⟨hr, hw⟩ -
    rw [watchOf_append]
    exact ⟨hr.react e, hw.react hr.issued hr.formed e⟩
  · refine ⟨regular_empty ids, fun _ => rfl, fun k reader writer hk => ?_,
      fun k reader rest since hk => ?_⟩
    · cases hk
    · cases hk

/-- The waits of a connection go by the watch that was kept on it. In a settled network a running
connection still has time for the length or the payload that it waits for, and for the batch that it
writes, counted from the beginning of the wait. A side that fails by a deadline waits under this deadline
and has waited as long as it allows. A wait goes on until a frame, a length or a batch is complete, however
many bytes come in between; and with a complete frame the read side begins to wait for the next length.
Once everything has settled, a connection that a deadline ended does not run, and it is out of the
registry unless somebody else made it join or disconnected it. -/
theorem deadlines_fire_when_due (ids : IdentifierSource) (events : List Event) (id : ClientId) :
    let n := ({ ids } : Network).after events
    let w := watchOf (({ ids } : Network).trace events) id
    (n.Settled → ∀ k, n.connection? id = some k → k.phase.isRunning = true →
      n.now.time < w.since .read + (k.config.limitOf (w.deadline .read)).nanoseconds ∧
        (k.unwritten ≠ [] →
          n.now.time < w.since .write + (k.config.limitOf (w.deadline .write)).nanoseconds)) ∧
    (∀ e k k', n.connection? id = some k → (n.react e).connection? id = some k' →
      let next := n.watchIn e id w
      (∀ side d, k.phase.stop? side = none → k'.phase.stop? side = some (.failed (.timeout d)) →
        d = w.deadline side ∧ w.since side + (k.config.limitOf d).nanoseconds ≤ n.now.time) ∧
      (k.phase.isStarted = true → next.frames = w.frames → next.lengthKnown = w.lengthKnown →
        next.since .read = w.since .read) ∧
      (k.phase.isIdle = false → next.since .write = w.since .write) ∧
      (w.frames < next.frames → k'.phase.isLive .read = true →
        next.since .read = n.now.time ∧ next.deadline .read = .idleRead)) ∧
    (n.Settled → (∀ e ∈ events, e.Spares id) → ∀ k side d, n.connection? id = some k →
      k.phase.stop? side = some (.failed (.timeout d)) →
        ¬ n.IsRunning id ∧ id ∉ n.registry.members.ids) := by
  intro n w
  have hr : n.Regular := regular_after ids events
  have hw : n.Watched id w := watched_after ids events id
  refine ⟨fun hs k hk hrunning => hw.patient hr hs hk hrunning, ?_, ?_⟩
  · intro e k k' hk hk' next
    obtain ⟨j, hj, hevolves⟩ := evolves hr.issued hk e
    cases hk'.symm.trans hj
    have hformed := hr.formed id k hk
    refine ⟨fun side d hbefore hafter => hw.of_timeout hformed hk hevolves hbefore hafter, ?_, ?_,
      fun hframes hlive => hw.restarts hformed hk hk' hevolves hframes hlive⟩
    · intro hstarted hframes hknown
      exact reading_watchIn ⟨k, hk, hstarted⟩ hframes hknown
    · exact fun hbusy => writing_watchIn w (begins_of_not_idle hk hbusy) e
  · intro hs hspares k side d hk hstop
    exact hs.gone hr (exits_after ids hspares) (phase?_of_connection? hk) (by rw [hstop]; rfl)

/-- A peer sends two bytes of a length at once and one more after 500 seconds. -/
def slowPeer : List Event :=
  [.move (.build {} 256 0 0), .move (.start 1), .task .registry] ++
    List.replicate 4 (.task (.write 1)) ++
    [.move (.deliver 1 [0, 0]), .task (.read 1), .move (.advance (.ofSeconds 500)),
      .move (.deliver 1 [0]), .task (.read 1)]

/-- It sends nothing in the 100 seconds after that. -/
def tooSlowPeer : List Event :=
  slowPeer ++ [.move (.advance (.ofSeconds 100)), .task (.read 1), .task .registry, .task (.stop 1)]

theorem deadline_of_slowPeer :
    let n := ({} : Network).after slowPeer
    let late := n.react (.move (.advance (.ofSeconds 100)))
    let m := ({} : Network).after tooSlowPeer
    n.Settled ∧ n.IsRunning 1 ∧ n.now.time = 500000000000 ∧ n.now.time < 0 + 600000000000 ∧
      (∃ k, (late.react (.task (.read 1))).connection? 1 = some k ∧
        k.phase.stop? .read = some (.failed (.timeout .idleRead)) ∧
        0 + 600000000000 ≤ late.now.time) ∧
      m.Settled ∧ (∀ e ∈ tooSlowPeer, e.Spares 1) ∧ 1 ∉ m.registry.members.ids := by
  intro n late m
  have hs : n.Settled := settled_of_isNone (by decide +kernel)
  have hend : m.Settled := settled_of_isNone (by decide +kernel)
  have hspares : ∀ e ∈ tooSlowPeer, e.Spares 1 := by
    simp [tooSlowPeer, slowPeer, Event.Spares]
  have hwatch : watchOf (({} : Network).trace slowPeer) 1 = ⟨[0, 0, 0], 0, 0⟩ := by decide +kernel
  have hnow : (n.connection? 1).map (fun k => (k.phase.isRunning, k.config)) = some (true, {}) := by
    decide +kernel
  obtain ⟨k, hk, hstate⟩ := Option.map_eq_some_iff.mp hnow
  obtain ⟨hrunning, hconfig⟩ := Prod.mk.inj hstate
  obtain ⟨hpatient, -, -⟩ := deadlines_fire_when_due {} slowPeer 1
  have htime := (hpatient hs k hk hrunning).1
  have hidle : (Watch.mk [0, 0, 0] 0 0).deadline .read = .idleRead := by decide +kernel
  rw [hwatch, hconfig, hidle] at htime
  -- One event later the clock has moved, and the read side fails.
  have hlate : watchOf (({} : Network).trace (slowPeer ++ [.move (.advance (.ofSeconds 100))])) 1 =
      ⟨[0, 0, 0], 0, 0⟩ := by decide +kernel
  have hbefore : (late.connection? 1).map (fun k => (k.phase.stop? .read, k.config)) =
      some (none, {}) := by decide +kernel
  have hafter : ((late.react (.task (.read 1))).connection? 1).map (fun k => k.phase.stop? .read) =
      some (some (.failed (.timeout .idleRead))) := by decide +kernel
  obtain ⟨i, hi, hlive⟩ := Option.map_eq_some_iff.mp hbefore
  obtain ⟨hlive, hsame⟩ := Prod.mk.inj hlive
  obtain ⟨j, hj, hstop⟩ := Option.map_eq_some_iff.mp hafter
  obtain ⟨-, hnext, -⟩ :=
    deadlines_fire_when_due {} (slowPeer ++ [.move (.advance (.ofSeconds 100))]) 1
  obtain ⟨hexpired, -⟩ := hnext (.task (.read 1)) i j hi hj
  have hdue := (hexpired .read .idleRead hlive hstop).2
  rw [hlate, hsame] at hdue
  have hgone : (m.connection? 1).map (fun k => k.phase.stop? .read) =
      some (some (.failed (.timeout .idleRead))) := by decide +kernel
  obtain ⟨l, hl, hended⟩ := Option.map_eq_some_iff.mp hgone
  obtain ⟨-, -, hout⟩ := deadlines_fire_when_due {} tooSlowPeer 1
  exact ⟨hs, .of_connection hk hrunning, by decide +kernel, htime, ⟨j, hj, hstop, hdue⟩, hend,
    hspares, (hout hend hspares l .read .idleRead hl hended).2⟩

end Network
end PositionRelay
