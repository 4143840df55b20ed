import PositionRelay.Proofs.Network.Follow
import PositionRelay.Proofs.Network.Step

/-!
# What an event makes of a connection

`Evolves` lists what can become of one connection in one event. Turns are taken further apart by
`Takes` and `Gives`: which bytes a read side takes and what it waits for then, and what a write side
does with its batch, with the times at which these waits began.

Every connection of every run is well formed (`formed_after`). Its configuration was found valid, its
read side waits for bytes that have not come, the peer cannot be gone in one direction only, and a
connection whose sides have both stopped does not run.
-/
namespace PositionRelay

namespace Connection

/-- What a turn of a read side makes of it, and how many bytes it takes out of the pipe. -/
inductive Takes (k : Connection) (now : Moment) : Reader → Nat → Reader → Prop where
  | stops (reader : Reader) (count : Nat) (why : Stop)
      (early : ∀ deadline, why ≠ .failed (.timeout deadline)) :
      Takes k now reader count (.stopped why)
  | expires (reader : Reader) (since : Moment) (deadline : Deadline)
      (waits : k.readWait? = some (since, deadline)) (due : k.expired now since deadline = true) :
      Takes k now reader 0 (.stopped (.failed (.timeout deadline)))
  | length (got : Bytes) (since : Moment) (count : Nat)
      (short : (got ++ k.inbound.bytes.take count).length < Wire.prefixLength) :
      Takes k now (.length got since) count (.length (got ++ k.inbound.bytes.take count) since)
  | payload (size : Nat) (got : Bytes) (since : Moment) (count : Nat)
      (short : (got ++ k.inbound.bytes.take count).length < size) :
      Takes k now (.payload size got since) count
        (.payload size (got ++ k.inbound.bytes.take count) since)
  | announced (got : Bytes) (since : Moment) (count : Nat)
      (whole : (got ++ k.inbound.bytes.take count).length = Wire.prefixLength)
      (pos : 0 < Wire.wordValue (got ++ k.inbound.bytes.take count)) :
      Takes k now (.length got since) count
        (.payload (Wire.wordValue (got ++ k.inbound.bytes.take count)) [] now)
  | received (got : Bytes) (since : Moment) (size count : Nat)
      (whole : (got ++ k.inbound.bytes.take count).length = size) :
      Takes k now (.payload size got since) count (.length [] now)
  /-- A length of zero is a frame by itself. -/
  | receivedNothing (got : Bytes) (since : Moment) (count : Nat)
      (whole : (got ++ k.inbound.bytes.take count).length = Wire.prefixLength)
      (zero : Wire.wordValue (got ++ k.inbound.bytes.take count) = 0) :
      Takes k now (.length got since) count (.length [] now)

/-- What a turn of a write side makes of it. -/
inductive Gives (k : Connection) (now : Moment) (c : Client) : Writer → Writer → Prop where
  | broken (rest : Bytes) (since : Moment) (gone : k.outbound.closed = true) :
      Gives k now c (.writing rest since) (.stopped (.failed (.io .brokenPipe)))
  | expires (rest : Bytes) (since : Moment) (due : k.expired now since .write = true) :
      Gives k now c (.writing rest since) (.stopped (.failed (.timeout .write)))
  | begins (batch : Batch) (later : List Batch) (waiting : c.mailbox.pending = batch :: later) :
      Gives k now c .idle (.writing (Wire.encodeFrame batch) now)
  | goesOn (rest left : Bytes) (since : Moment) :
      Gives k now c (.writing rest since) (.writing left since)
  | done (rest : Bytes) (since : Moment) : Gives k now c (.writing rest since) .idle

section
variable {k : Connection} {now : Moment} {listening : Bool} {id : ClientId} {c : Client}
  {reader : Reader} {writer : Writer} {t : Turn}

/-- A turn leaves its reader next to the writer as it was, with some bytes less in the pipe. -/
def TakesTo (k : Connection) (now : Moment) (reader : Reader) (writer : Writer) (t : Turn) : Prop :=
  ∃ count reader', Takes k now reader count reader' ∧
    t.connection = { k with inbound := k.inbound.drop count }.become reader' writer

theorem takesTo_starve {since : Moment} {deadline : Deadline} {atEnd : ConnectionError}
    (h : k.starve? now id c writer since deadline atEnd = some t)
    (hwait : k.readWait? = some (since, deadline)) (hend : ∀ d, atEnd ≠ .timeout d) :
    TakesTo k now reader writer t := by
  have hpipe : { k with inbound := k.inbound.drop 0 } = k := rfl
  unfold starve? at h
  split at h
  · cases h
    have hearly : ∀ d, Stop.failed atEnd ≠ .failed (.timeout d) := by simpa using hend
    exact ⟨0, _, .stops reader 0 _ hearly, by rw [hpipe]; rfl⟩
  · split at h
    · next hdue =>
        cases h
        exact ⟨0, _, .expires reader since deadline hwait hdue, by rw [hpipe]; rfl⟩
    · cases h

/-- A payload has been received. Unless the registry is closed the next wait begins. -/
theorem takesTo_receive {count : Nat} (payload : Bytes)
    (hnext : Takes k now reader count (.length [] now)) :
    TakesTo k now reader writer
      ({ k with inbound := k.inbound.drop count }.receive now listening id c writer payload) := by
  unfold receive
  split
  · split
    · exact ⟨count, _, hnext, rfl⟩
    · exact ⟨count, _, .stops reader count _ (by simp), rfl⟩
  · exact ⟨count, _, hnext, rfl⟩

theorem takesTo_readLength {got : Bytes} {since : Moment} {count : Nat}
    (hroom : (got ++ k.inbound.bytes.take count).length ≤ Wire.prefixLength) :
    TakesTo k now (.length got since) writer
      ({ k with inbound := k.inbound.drop count }.readLength now listening id c writer
        (got ++ k.inbound.bytes.take count) since) := by
  unfold readLength
  dsimp only
  split
  · next hshort => exact ⟨count, _, .length got since count hshort, rfl⟩
  · next hlong =>
      have hwhole : (got ++ k.inbound.bytes.take count).length = Wire.prefixLength := by omega
      split
      · exact ⟨count, _, .stops _ count _ (by simp), rfl⟩
      · split
        · next hzero => exact takesTo_receive [] (.receivedNothing got since count hwhole hzero)
        · next hpos =>
            exact ⟨count, _, .announced got since count hwhole (Nat.pos_of_ne_zero hpos), rfl⟩

theorem takesTo_readPayload {size : Nat} {got : Bytes} {since : Moment} {count : Nat}
    (hroom : (got ++ k.inbound.bytes.take count).length ≤ size) :
    TakesTo k now (.payload size got since) writer
      ({ k with inbound := k.inbound.drop count }.readPayload now listening id c writer size
        (got ++ k.inbound.bytes.take count) since) := by
  unfold readPayload
  split
  · next hshort => exact ⟨count, _, .payload size got since count hshort, rfl⟩
  · next hlong => exact takesTo_receive _ (.received got since size count (by omega))

/-- What is taken out of the pipe is what fits. -/
theorem take_take_length (bytes : Bytes) (room : Nat) :
    bytes.take (bytes.take room).length = bytes.take room := by
  rw [List.length_take, List.take_eq_take_iff]
  omega

theorem readTurn?_takes (h : k.readTurn? now listening id c = some t)
    (hp : k.phase = .running reader writer) (hfits : reader.Fits) :
    TakesTo k now reader writer t := by
  have htold : TakesTo k now reader writer (k.stopReading c writer) :=
    ⟨0, _, .stops reader 0 .told (by simp), rfl⟩
  unfold readTurn? at h
  rw [hp] at h
  cases reader with
  | stopped why => cases h
  | length got since =>
      have hgot : got.length < Wire.prefixLength := hfits
      dsimp only at h
      split at h
      · cases h
        exact htold
      · split at h
        · refine takesTo_starve h (by simp [readWait?, hp]) ?_
          intro d
          split
          · simp
          · simp [cut]
        · cases h
          have htake := take_take_length k.inbound.bytes (Wire.prefixLength - got.length)
          have hturn := @takesTo_readLength k now listening id c writer got since
            (k.inbound.bytes.take (Wire.prefixLength - got.length)).length
          rw [htake] at hturn
          refine hturn ?_
          rw [List.length_append, List.length_take]
          omega
  | payload size got since =>
      have hgot : got.length < size := hfits
      dsimp only at h
      split at h
      · cases h
        exact htold
      · split at h
        · exact takesTo_starve h (by simp [readWait?, hp]) (by simp [cut])
        · cases h
          have htake := take_take_length k.inbound.bytes (size - got.length)
          have hturn := @takesTo_readPayload k now listening id c writer size got since
            (k.inbound.bytes.take (size - got.length)).length
          rw [htake] at hturn
          refine hturn ?_
          rw [List.length_append, List.length_take]
          omega

theorem Takes.fits {count : Nat} {reader' : Reader} (h : Takes k now reader count reader') :
    reader'.Fits := by
  cases h with
  | stops => trivial
  | expires => trivial
  | length got since count short => exact short
  | payload size got since count short => exact short
  | announced got since count whole pos => exact pos
  | received => exact Reader.fits_nil now
  | receivedNothing => exact Reader.fits_nil now

/-- A deadline ends a read side only when its wait is over. -/
theorem Takes.waited {count : Nat} {d : Deadline}
    (h : Takes k now reader count (.stopped (.failed (.timeout d)))) :
    ∃ since, k.readWait? = some (since, d) ∧ k.expired now since d = true := by
  cases h with
  | stops _ _ _ early => exact absurd rfl (early d)
  | expires _ since _ waits due => exact ⟨since, waits, due⟩

/-- A deadline ends a write side only when its wait is over. -/
theorem Gives.waited {d : Deadline} (h : Gives k now c writer (.stopped (.failed (.timeout d)))) :
    ∃ rest since, writer = .writing rest since ∧ d = .write ∧ k.expired now since .write = true := by
  cases h with
  | expires rest since due => exact ⟨rest, since, rfl, rfl, due⟩

theorem stopTurn?_eq (h : k.stopTurn? c = some t) (hp : k.phase = .running reader writer) :
    t.connection = k.become reader (.stopped .told) := by
  unfold stopTurn? at h
  rw [hp] at h
  cases writer with
  | stopped why => cases h
  | idle =>
      dsimp only at h
      split at h
      · cases h
        rfl
      · cases h
  | writing rest since =>
      dsimp only at h
      split at h
      · cases h
        rfl
      · cases h

theorem writeTurn?_gives (h : k.writeTurn? now id c = some t)
    (hp : k.phase = .running reader writer) :
    ∃ outbound writer', Gives k now c writer writer' ∧ outbound.closed = k.outbound.closed ∧
      t.connection = { k with outbound }.become reader writer' ∧
      (writer'.live = 1 → t.client.flags = c.flags ∧ t.requests = []) := by
  have stopped : ∀ why : Stop, (Writer.stopped why).live = 1 →
      t.client.flags = c.flags ∧ t.requests = [] := fun _ hl => by cases hl
  unfold writeTurn? at h
  rw [hp] at h
  cases writer with
  | stopped why => cases h
  | idle =>
      dsimp only at h
      split at h
      · cases h
      · next batch mailbox hm =>
          cases h
          unfold Mailbox.take? at hm
          split at hm
          · cases hm
          · next first later hpending =>
              cases hm
              exact ⟨k.outbound, _, .begins batch later hpending, rfl, rfl, fun _ => ⟨rfl, rfl⟩⟩
  | writing rest since =>
      dsimp only at h
      split at h
      · next hgone =>
          cases h
          exact ⟨k.outbound, _, .broken rest since hgone, rfl, rfl, stopped _⟩
      · split at h
        · split at h
          · next hdue =>
              cases h
              exact ⟨k.outbound, _, .expires rest since hdue, rfl, rfl, stopped _⟩
          · cases h
        · cases h
          refine ⟨k.outbound.append (rest.take k.outbound.space), _, ?_, rfl, rfl,
            fun _ => ⟨rfl, rfl⟩⟩
          split
          · exact .done rest since
          · exact .goesOn rest _ since

/-- A read side that waits has time left. -/
theorem not_expired_of_readTurn?_eq_none {wait : Moment × Deadline}
    (h : k.readTurn? now listening id c = none) (hw : k.readWait? = some wait) :
    k.expired now wait.1 wait.2 = false := by
  have starved : ∀ {writer : Writer} {since : Moment} {deadline : Deadline}
      {atEnd : ConnectionError}, k.starve? now id c writer since deadline atEnd = none →
      k.expired now since deadline = false := by
    intro writer since deadline atEnd hstarve
    unfold starve? at hstarve
    split at hstarve
    · cases hstarve
    · split at hstarve
      · cases hstarve
      · next hdue => simpa using hdue
  unfold readTurn? at h
  unfold readWait? at hw
  cases hp : k.phase with
  | running reader writer =>
      rw [hp] at h hw
      cases reader with
      | stopped why => cases hw
      | length got since =>
          cases hw
          dsimp only at h
          split at h
          · cases h
          · split at h
            · exact starved h
            · cases h
      | payload size got since =>
          cases hw
          dsimp only at h
          split at h
          · cases h
          · split at h
            · exact starved h
            · cases h
  | _ =>
      rw [hp] at hw
      cases hw

/-- A write side that waits has time left. -/
theorem not_expired_of_writeTurn?_eq_none {wait : Moment × Deadline}
    (h : k.writeTurn? now id c = none) (hw : k.writeWait? = some wait) :
    k.expired now wait.1 wait.2 = false := by
  unfold writeTurn? at h
  unfold writeWait? at hw
  cases hp : k.phase with
  | running reader writer =>
      rw [hp] at h hw
      cases writer with
      | stopped why => cases hw
      | idle => cases hw
      | writing rest since =>
          cases hw
          dsimp only at h
          split at h
          · cases h
          · split at h
            · split at h
              · cases h
              · next hdue => simpa using hdue
            · cases h
  | _ =>
      rw [hp] at hw
      cases hw

end

structure Formed (k : Connection) : Prop where
  valid : k.config.validate = .ok ()
  fits : ∀ reader, k.phase.reader? = some reader → reader.Fits
  closes : k.outbound.closed = true → k.inbound.closed = true
  busy : k.phase.isRunning = true → ∃ side, k.phase.isLive side = true

section
variable {k j : Connection} {reader : Reader} {writer : Writer}

theorem Formed.of_alike (h : k.Formed) (hconfig : j.config = k.config) (hphase : j.phase = k.phase)
    (hcloses : j.outbound.closed = true → j.inbound.closed = true) : j.Formed :=
  ⟨hconfig ▸ h.valid, hphase ▸ h.fits, hcloses, hphase ▸ h.busy⟩

theorem Formed.become (h : k.Formed) (hconfig : j.config = k.config)
    (hcloses : j.outbound.closed = true → j.inbound.closed = true) (hfits : reader.Fits) :
    (j.become reader writer).Formed := by
  refine ⟨?_, ?_, ?_, exists_isLive_become⟩
  · rw [config_become, hconfig]
    exact h.valid
  · intro reader' hr
    rw [reader?_become] at hr
    cases hr
    exact hfits
  · cases reader <;> cases writer <;> first | exact hcloses | exact fun _ => rfl

end

end Connection

/-- No wait of a valid configuration is over at once. -/
theorem Config.limitOf_pos {config : Config} (h : config.validate = .ok ()) (deadline : Deadline) :
    0 < (config.limitOf deadline).nanoseconds := by
  unfold validate at h
  split at h
  · cases h
  · split at h
    · cases h
    · next hnone =>
        have hall := List.find?_eq_none.mp hnone deadline (by cases deadline <;> simp)
        rw [Nat.pos_iff_ne_zero]
        intro hzero
        have : config.limitOf deadline = .zero := congrArg Duration.mk hzero
        simp [this] at hall

/-- A record fits into the payloads that a valid configuration allows. -/
theorem Config.le_payloadLimit {config : Config} (h : config.validate = .ok ()) :
    Wire.countLength + Wire.recordLength ≤ config.payloadLimit := by
  unfold validate at h
  split at h
  · cases h
  · split at h
    · cases h
    · split at h
      · cases h
      · split at h
        · cases h
        · omega

namespace Network

/-- What an event makes of a connection that was built. -/
inductive Evolves (n : Network) (id : ClientId) (k : Connection) : Event → Connection → Prop where
  | unchanged (e : Event) : Evolves n id k e k
  | started (fresh : k.phase = .fresh) :
      Evolves n id k (.move (.start id)) { k with phase := .running (.length [] n.now) .idle }
  | givenUp (e : Event) (fresh : k.phase = .fresh) (phase : Phase)
      (gone : phase = .refused ∨ phase = .dropped) :
      Evolves n id k e { k with phase }.closePipes
  | heard (bytes : Bytes) (listens : k.inbound.closed = false) :
      Evolves n id k (.move (.deliver id bytes)) { k with inbound := k.inbound.append bytes }
  | withdrawn (count : Nat) :
      Evolves n id k (.move (.withdraw id count)) { k with outbound := k.outbound.drop count }
  | ended : Evolves n id k (.move (.endStream id)) { k with inbound := k.inbound.close }
  | hungUp : Evolves n id k (.move (.hangUp id)) k.closePipes
  | read (c : Client) (t : Turn) (client : n.client? id = some c)
      (turn : k.readTurn? n.now n.registry.running id c = some t) :
      Evolves n id k (.task (.read id)) t.connection
  | told (c : Client) (t : Turn) (client : n.client? id = some c)
      (turn : k.stopTurn? c = some t) : Evolves n id k (.task (.stop id)) t.connection
  | wrote (c : Client) (t : Turn) (client : n.client? id = some c)
      (turn : k.writeTurn? n.now id c = some t) : Evolves n id k (.task (.write id)) t.connection

section
variable {n : Network} {id : ClientId} {k : Connection}

/-- A change to the connection of one identifier. -/
theorem evolves_modifyConnection (hk : n.connection? id = some k) {e : Event} (j : ClientId)
    (f : Connection → Connection) (hf : j = id → n.Evolves id k e (f k)) :
    ∃ k', (n.modifyConnection j f).connection? id = some k' ∧ n.Evolves id k e k' := by
  rw [connection?_modifyConnection]
  by_cases hj : id = j
  · rw [if_pos hj, hk]
    exact ⟨f k, rfl, hf hj.symm⟩
  · rw [if_neg hj]
    exact ⟨k, hk, .unchanged e⟩

theorem evolves_abandon (hk : n.connection? id = some k) {j : ClientId} (hfresh : n.isFresh j = true)
    {phase : Phase} (hover : phase = .refused ∨ phase = .dropped) (e : Event) :
    ∃ k', (n.abandon j phase).connection? id = some k' ∧ n.Evolves id k e k' := by
  unfold abandon
  rw [connection?_modifyClient]
  refine evolves_modifyConnection hk j _ ?_
  rintro rfl
  obtain ⟨i, hi, hp⟩ := isFresh_iff.mp hfresh
  rw [hk] at hi
  cases hi
  exact .givenUp e hp phase hover

theorem evolves_make (hi : n.Issued) (hk : n.connection? id = some k) (move : Move) :
    ∃ k', (n.make move).connection? id = some k' ∧ n.Evolves id k (.move move) k' := by
  have unchanged : ∀ {m : Network}, m.connection? id = n.connection? id →
      ∃ k', m.connection? id = some k' ∧ n.Evolves id k (.move move) k' :=
    fun h => ⟨k, h.trans hk, .unchanged _⟩
  cases move with
  | build config buffer drawX drawY =>
      rcases n.make_build config buffer drawX drawY with he | ⟨-, hpos, he⟩
      · rw [he]
        exact unchanged rfl
      · have hne : id ≠ n.ids.upcoming := by
          rintro rfl
          rw [hi.connection?_upcoming hpos] at hk
          cases hk
        rw [he]
        exact unchanged (by rw [connection?_built, if_neg hne])
  | start j =>
      unfold make run
      dsimp only
      split
      · next hfresh =>
          split
          · rw [connection?_enqueue]
            refine evolves_modifyConnection hk j _ ?_
            rintro rfl
            obtain ⟨i, hi, hp⟩ := isFresh_iff.mp hfresh
            rw [hk] at hi
            cases hi
            exact .started hp
          · exact evolves_abandon hk hfresh (.inl rfl) _
      · exact unchanged rfl
  | discard j =>
      unfold make discard
      dsimp only
      split
      · next hfresh => exact evolves_abandon hk hfresh (.inr rfl) _
      · exact unchanged rfl
  | deliver j bytes =>
      unfold make deliver
      dsimp only
      split
      · next hadmits =>
          refine evolves_modifyConnection hk j _ ?_
          rintro rfl
          refine .heard bytes ?_
          simp [admits, hk] at hadmits
          exact hadmits.1
      · exact unchanged rfl
  | withdraw j count =>
      refine evolves_modifyConnection hk j _ ?_
      rintro rfl
      exact .withdrawn count
  | endStream j =>
      refine evolves_modifyConnection hk j _ ?_
      rintro rfl
      exact .ended
  | hangUp j =>
      refine evolves_modifyConnection hk j _ ?_
      rintro rfl
      exact .hungUp
  | disconnect j => exact unchanged (connection?_modifyClient ..)
  | capture j => exact unchanged (connection?_modifyClient ..)
  | offer j batch => exact unchanged (connection?_modifyClient ..)
  | ask request =>
      rw [make_ask]
      exact unchanged (connection?_enqueue ..)
  | advance d => exact unchanged rfl

theorem evolves_turn (hk : n.connection? id = some k) {task : Task} {j : ClientId}
    {side : Client → Connection → Option Turn} (hstep : n.step? task = n.turn? j side)
    (hturn : j = id → ∀ c t, n.client? id = some c → side c k = some t →
      n.Evolves id k (.task task) t.connection) :
    ∃ k', (n.react (.task task)).connection? id = some k' ∧ n.Evolves id k (.task task) k' := by
  cases hs : n.step? task with
  | none =>
      rw [react_of_none hs]
      exact ⟨k, hk, .unchanged _⟩
  | some m =>
      obtain ⟨c, i, t, hc, hi, ht, rfl⟩ := turn?_eq_some (hstep.symm.trans hs)
      rw [react_of_some hs, connection?_apply]
      by_cases hj : id = j
      · subst hj
        rw [hk] at hi
        cases hi
        exact ⟨t.connection, if_pos rfl, hturn rfl c t hc ht⟩
      · rw [if_neg hj]
        exact ⟨k, hk, .unchanged _⟩

theorem evolves (hi : n.Issued) (hk : n.connection? id = some k) (e : Event) :
    ∃ k', (n.react e).connection? id = some k' ∧ n.Evolves id k e k' := by
  cases e with
  | move move => exact evolves_make hi hk move
  | task task =>
      cases task with
      | read j =>
          refine evolves_turn hk rfl ?_
          rintro rfl c t hc ht
          exact .read c t hc ht
      | stop j =>
          refine evolves_turn hk rfl ?_
          rintro rfl c t hc ht
          exact .told c t hc ht
      | write j =>
          refine evolves_turn hk rfl ?_
          rintro rfl c t hc ht
          exact .wrote c t hc ht
      | registry =>
          cases hs : n.step? .registry with
          | none =>
              rw [react_of_none hs]
              exact ⟨k, hk, .unchanged _⟩
          | some m =>
              obtain ⟨request, rest, -, -, -, hconnections, -⟩ := registryStep?_eq_some hs
              rw [react_of_some hs, connection?, hconnections]
              exact ⟨k, hk, .unchanged _⟩

theorem connection?_make_of_none (hk : n.connection? id = none) {move : Move}
    (hmove : ∀ config buffer drawX drawY, move ≠ .build config buffer drawX drawY) :
    (n.make move).connection? id = none := by
  have modified : ∀ (j : ClientId) (f : Connection → Connection),
      (n.modifyConnection j f).connection? id = none := by
    intro j f
    rw [connection?_modifyConnection, hk]
    split <;> rfl
  have abandoned : ∀ (j : ClientId) (phase : Phase), (n.abandon j phase).connection? id = none := by
    intro j phase
    rw [connection?_abandon, hk]
    split <;> rfl
  cases move with
  | build config buffer drawX drawY => exact absurd rfl (hmove config buffer drawX drawY)
  | start j =>
      unfold make run
      dsimp only
      split
      · split
        · rw [connection?_enqueue]
          exact modified j _
        · exact abandoned j _
      · exact hk
  | discard j =>
      unfold make discard
      dsimp only
      split
      · exact abandoned j _
      · exact hk
  | deliver j bytes =>
      unfold make deliver
      dsimp only
      split
      · exact modified j _
      · exact hk
  | withdraw j count => exact modified j _
  | endStream j => exact modified j _
  | hangUp j => exact modified j _
  | disconnect j => exact (connection?_modifyClient ..).trans hk
  | capture j => exact (connection?_modifyClient ..).trans hk
  | offer j batch => exact (connection?_modifyClient ..).trans hk
  | ask request =>
      rw [make_ask]
      exact (connection?_enqueue ..).trans hk
  | advance d => exact hk

theorem connection?_step_of_none (hk : n.connection? id = none) (task : Task) :
    (n.react (.task task)).connection? id = none := by
  cases hs : n.step? task with
  | none =>
      rw [react_of_none hs]
      exact hk
  | some m =>
      rw [react_of_some hs]
      rcases step?_cases hs with ⟨-, hr⟩ | ⟨-, j, c, k, t, ht, rfl⟩
      · obtain ⟨request, rest, -, -, -, hconnections, -⟩ := registryStep?_eq_some hr
        rw [connection?, hconnections]
        exact hk
      · have hj : id ≠ j := by
          rintro rfl
          rw [ht.connection] at hk
          cases hk
        rw [connection?_apply, if_neg hj]
        exact hk

/-- A connection that was not built stays so, or it is built now under the next identifier. -/
theorem connection?_react_of_none (hk : n.connection? id = none) (e : Event) :
    (n.react e).connection? id = none ∨
      ∃ config buffer drawX drawY, e = .move (.build config buffer drawX drawY) ∧
        config.validate = .ok () ∧ 0 < n.ids.upcoming ∧ id = n.ids.upcoming ∧
        n.react e = n.built config buffer drawX drawY := by
  cases e with
  | task task => exact .inl (connection?_step_of_none hk task)
  | move move =>
      by_cases hmove : ∃ config buffer drawX drawY, move = .build config buffer drawX drawY
      · obtain ⟨config, buffer, drawX, drawY, rfl⟩ := hmove
        rcases n.make_build config buffer drawX drawY with he | ⟨hvalid, hpos, he⟩
        · refine .inl ?_
          change (n.make _).connection? id = none
          rw [he, hk]
        · by_cases hid : id = n.ids.upcoming
          · exact .inr ⟨config, buffer, drawX, drawY, rfl, hvalid, hpos, hid, he⟩
          · refine .inl ?_
            change (n.make _).connection? id = none
            rw [he, connection?_built, if_neg hid, hk]
      · refine .inl (connection?_make_of_none hk ?_)
        intro config buffer drawX drawY hbuild
        exact hmove ⟨config, buffer, drawX, drawY, hbuild⟩

end

/-- All connections are well formed. -/
def Formed (n : Network) : Prop := ∀ id k, n.connection? id = some k → k.Formed

section
variable {n : Network} {id : ClientId} {k j : Connection} {e : Event}

theorem Evolves.formed (h : n.Evolves id k e j) (hk : k.Formed) : j.Formed := by
  cases h with
  | unchanged => exact hk
  | started fresh =>
      refine ⟨hk.valid, ?_, hk.closes, fun _ => ⟨.read, rfl⟩⟩
      intro reader hr
      cases hr
      exact Reader.fits_nil n.now
  | givenUp _ fresh phase gone =>
      refine ⟨hk.valid, ?_, fun _ => rfl, ?_⟩
      · intro reader hr
        rcases gone with rfl | rfl <;> cases hr
      · intro hr
        rcases gone with rfl | rfl <;> cases hr
  | heard bytes listens => exact hk.of_alike rfl rfl hk.closes
  | withdrawn count => exact hk.of_alike rfl rfl hk.closes
  | ended => exact hk.of_alike rfl rfl fun _ => rfl
  | hungUp => exact hk.of_alike rfl rfl fun _ => rfl
  | read c t _ turn =>
      obtain ⟨reader, writer, hp, -, -⟩ := Connection.readTurn?_cases turn
      obtain ⟨count, reader', htakes, hconnection⟩ :=
        Connection.readTurn?_takes turn hp (hk.fits reader (by rw [hp]; rfl))
      rw [hconnection]
      exact hk.become rfl hk.closes htakes.fits
  | told c t _ turn =>
      obtain ⟨reader, writer, hp, -, -⟩ := @Connection.stopTurn?_cases _ id _ _ turn
      rw [Connection.stopTurn?_eq turn hp]
      exact hk.become rfl hk.closes (hk.fits reader (by rw [hp]; rfl))
  | wrote c t _ turn =>
      obtain ⟨reader, writer, hp, -, -⟩ := Connection.writeTurn?_cases turn
      obtain ⟨outbound, writer', -, hclosed, hconnection, -⟩ :=
        Connection.writeTurn?_gives turn hp
      rw [hconnection]
      refine hk.become rfl ?_ (hk.fits reader (by rw [hp]; rfl))
      rw [hclosed]
      exact hk.closes

theorem Formed.react (h : n.Formed) (hi : n.Issued) (e : Event) : (n.react e).Formed := by
  intro id k' hk'
  cases hk : n.connection? id with
  | some k =>
      obtain ⟨j, hj, hevolves⟩ := evolves hi hk e
      rw [hk'] at hj
      cases hj
      exact hevolves.formed (h id k hk)
  | none =>
      rcases connection?_react_of_none hk e with hnone | ⟨config, buffer, drawX, drawY, -, hvalid, -,
        hid, he⟩
      · rw [hk'] at hnone
        cases hnone
      · rw [he, connection?_built, if_pos hid] at hk'
        cases hk'
        refine ⟨hvalid, ?_, fun hc => hc, fun hr => by cases hr⟩
        intro reader hr
        cases hr
        exact Reader.fits_nil _

end

theorem formed_after (ids : IdentifierSource) (events : List Event) :
    let n := ({ ids } : Network).after events
    n.Issued ∧ n.Formed := by
  refine run_induction (P := fun _ n => n.Issued ∧ n.Formed) (Q := fun _ _ => True) ?_ ?_ events
    fun _ _ => trivial
  · rintro past n e ⟨hi, hf⟩ -
    exact ⟨hi.react e, hf.react hi e⟩
  · refine ⟨issued_empty ids, ?_⟩
    intro id k hk
    cases hk

end Network
end PositionRelay
