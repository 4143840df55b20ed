import PositionRelay.Network.Work

/-!
# What one turn does to a connection

`ReadTurn` and `WriteTurn` say what the turns of the two sides can be; whatever holds of every turn is
read off them, and the functions that compute turns are opened nowhere else.

Seen from farther away, a turn does one of three things (`Outcome`). The side goes on, and at most
asks for a broadcast; or it was told to stop and stops without a word; or it fails, with what
`Client.fail` does to the flags and with the request to remove the client unless the connection was
closing already. Nothing else about turns is needed to follow a connection to its end.
-/
namespace PositionRelay

/-- The flags of a client. -/
structure Flags where
  closing : Bool
  exitRead : Bool
  exitWrite : Bool
deriving DecidableEq, Repr

namespace Flags

def clear : Flags := ⟨false, false, false⟩

def raised : Flags := ⟨true, true, true⟩

/-- A side has been told to stop. -/
def tells (f : Flags) : Side → Bool
  | .read => f.exitRead
  | .write => f.exitWrite

@[simp] theorem tells_clear (side : Side) : clear.tells side = false := by cases side <;> rfl

@[simp] theorem tells_raised (side : Side) : raised.tells side = true := by cases side <;> rfl

end Flags

namespace Client

def flags (c : Client) : Flags := ⟨c.closing, c.exitRead, c.exitWrite⟩

@[simp] theorem flags_disconnect (c : Client) : c.disconnect.flags = .raised := rfl

@[simp] theorem flags_settle (c : Client) : c.settle.flags = c.flags := rfl

@[simp] theorem flags_merge (c : Client) (update : Record) : (c.merge update).flags = c.flags := rfl

@[simp] theorem flags_closeMailbox (c : Client) : c.closeMailbox.flags = c.flags := rfl

@[simp] theorem record_fail (c : Client) (side : Side) : (c.fail side).record = c.record := by
  unfold fail
  split
  · rfl
  · cases side <;> rfl

theorem flags_fail_merge (c : Client) (update : Record) (side : Side) :
    ((c.merge update).fail side).flags = (c.fail side).flags := by
  unfold fail
  cases side <;> cases h : c.closing <;> simp [merge, flags, raiseExit, Side.other, h]

/-- After the connection began to close a failure changes nothing. -/
theorem flags_fail_of_closing {c : Client} (h : c.flags.closing = true) (side : Side) :
    (c.fail side).flags = c.flags := by
  have hc : c.closing = true := h
  simp [fail, hc]

theorem closing_fail (c : Client) (side : Side) : (c.fail side).flags.closing = true := by
  unfold fail
  split
  · assumption
  · cases side <;> rfl

/-- The first failure tells the other side to stop. -/
theorem tells_fail {c : Client} (h : c.flags.closing = false) (side : Side) :
    (c.fail side).flags.tells side.other = true := by
  have hc : c.closing = false := h
  cases side <;> simp [fail, hc, raiseExit, Side.other, flags, Flags.tells]

theorem eq_or_eq_other (a b : Side) : b = a ∨ b = a.other := by
  cases a <;> cases b <;> simp [Side.other]

end Client

namespace Phase

/-- A side of a running connection has not stopped. -/
def isLive : Phase → Side → Bool
  | running reader _, .read => reader.live == 1
  | running _ writer, .write => writer.live == 1
  | _, _ => false

/-- The connection has been run. -/
def isStarted : Phase → Bool
  | running .. | finished .. => true
  | _ => false

/-- The connection has been run and has not come to its end. -/
def isRunning : Phase → Bool
  | running .. => true
  | _ => false

theorem isStarted_of_isRunning {p : Phase} (h : p.isRunning = true) : p.isStarted = true := by
  cases p <;> simp_all [isRunning, isStarted]

theorem isRunning_of_isLive {p : Phase} {side : Side} (h : p.isLive side = true) :
    p.isRunning = true := by
  cases p <;> cases side <;> simp_all [isLive, isRunning]

end Phase

namespace Connection

theorem isLive_become_read (k : Connection) (reader : Reader) (writer : Writer) :
    (k.become reader writer).phase.isLive .read = (reader.live == 1) := by
  cases reader <;> cases writer <;> rfl

theorem isLive_become_write (k : Connection) (reader : Reader) (writer : Writer) :
    (k.become reader writer).phase.isLive .write = (writer.live == 1) := by
  cases reader <;> cases writer <;> rfl

theorem isStarted_become (k : Connection) (reader : Reader) (writer : Writer) :
    (k.become reader writer).phase.isStarted = true := by
  cases reader <;> cases writer <;> rfl

/-- A connection whose sides have both stopped does not run any more. -/
theorem exists_isLive_become {k : Connection} {reader : Reader} {writer : Writer}
    (h : (k.become reader writer).phase.isRunning = true) :
    ∃ side, (k.become reader writer).phase.isLive side = true := by
  cases reader with
  | stopped r =>
      cases writer with
      | stopped w => cases h
      | idle => exact ⟨.write, rfl⟩
      | writing => exact ⟨.write, rfl⟩
  | length => exact ⟨.read, by rw [isLive_become_read]; rfl⟩
  | payload => exact ⟨.read, by rw [isLive_become_read]; rfl⟩

/-- What a turn of a connection comes to. -/
inductive Outcome (id : ClientId) (c : Client) (k : Connection) (t : Turn) : Prop where
  | goesOn (running : k.phase.isRunning = true) (flags : t.client.flags = c.flags)
      (live : ∀ side, t.connection.phase.isLive side = k.phase.isLive side)
      (requests : ∀ request ∈ t.requests, request = .broadcast)
  | told (side : Side) (live : k.phase.isLive side = true) (told : c.flags.tells side = true)
      (flags : t.client.flags = c.flags) (ended : t.connection.phase.isLive side = false)
      (other : t.connection.phase.isLive side.other = k.phase.isLive side.other)
      (requests : t.requests = [])
  | failed (side : Side) (live : k.phase.isLive side = true)
      (flags : t.client.flags = (c.fail side).flags)
      (ended : t.connection.phase.isLive side = false)
      (other : t.connection.phase.isLive side.other = k.phase.isLive side.other)
      (requests : t.requests = farewell id c)

/-- Both sides are as live as before. -/
theorem isLive_become_of_live {k j : Connection} {reader reader' : Reader} {writer writer' : Writer}
    (hp : k.phase = .running reader writer) (hr : reader'.live = reader.live)
    (hw : writer'.live = writer.live) (side : Side) :
    (j.become reader' writer').phase.isLive side = k.phase.isLive side := by
  cases side with
  | read => rw [isLive_become_read, hp, hr]; rfl
  | write => rw [isLive_become_write, hp, hw]; rfl

section
variable {k j : Connection} {id : ClientId} {c : Client} {reader : Reader} {writer : Writer}

/-- The turns of a read side next to a given write side. They may take bytes out of the pipe. -/
inductive ReadTurn (k : Connection) (listening : Bool) (id : ClientId) (c : Client)
    (writer : Writer) : Turn → Prop where
  | told (told : c.exitRead = true) : ReadTurn k listening id c writer (k.stopReading c writer)
  | failed (inbound : Pipe) (why : ConnectionError) :
      ReadTurn k listening id c writer ({ k with inbound }.failReading id c writer why)
  | onward (inbound : Pipe) (reader : Reader) (live : reader.live = 1) :
      ReadTurn k listening id c writer ⟨c, { k with inbound }.become reader writer, []⟩
  | merged (inbound : Pipe) (reader : Reader) (u : Record) (live : reader.live = 1)
      (heard : listening = true) :
      ReadTurn k listening id c writer
        ⟨c.merge u, { k with inbound }.become reader writer, [.broadcast]⟩
  /-- The update is merged before the registry turns out to be closed. -/
  | unheard (inbound : Pipe) (u : Record) (unheard : listening = false) :
      ReadTurn k listening id c writer
        ({ k with inbound }.failReading id (c.merge u) writer .registryClosed)

/-- The turns of a write side next to a given read side. They may put bytes into the pipe. -/
inductive WriteTurn (k : Connection) (id : ClientId) (c : Client) (reader : Reader) :
    Turn → Prop where
  | told (told : c.exitWrite = true) :
      WriteTurn k id c reader ⟨c.closeMailbox, k.become reader (.stopped .told), []⟩
  | failed (why : ConnectionError) : WriteTurn k id c reader (k.failWriting id c reader why)
  | onward (outbound : Pipe) (mailbox : Mailbox) (writer : Writer) (live : writer.live = 1) :
      WriteTurn k id c reader ⟨{ c with mailbox }, { k with outbound }.become reader writer, []⟩

theorem receive_cases (k : Connection) (inbound : Pipe) (now : Moment) (listening : Bool)
    (id : ClientId) (c : Client) (writer : Writer) (payload : Bytes) :
    ReadTurn k listening id c writer
      ({ k with inbound }.receive now listening id c writer payload) := by
  unfold receive
  split
  · next u _ =>
      split
      · next heard => exact .merged inbound _ u rfl heard
      · next unheard => exact .unheard inbound u (by simpa using unheard)
  · exact .onward inbound _ rfl

theorem starve?_cases {now since : Moment} {listening : Bool} {deadline : Deadline}
    {atEnd : ConnectionError} {t : Turn}
    (h : k.starve? now id c writer since deadline atEnd = some t) :
    ReadTurn k listening id c writer t := by
  unfold starve? at h
  split at h
  · cases h
    exact .failed k.inbound atEnd
  · split at h
    · cases h
      exact .failed k.inbound _
    · cases h

theorem readLength_cases (k : Connection) (inbound : Pipe) (now : Moment) (listening : Bool)
    (id : ClientId) (c : Client) (writer : Writer) (got : Bytes) (since : Moment) :
    ReadTurn k listening id c writer
      ({ k with inbound }.readLength now listening id c writer got since) := by
  unfold readLength
  dsimp only
  split
  · exact .onward inbound _ rfl
  · split
    · exact .failed inbound _
    · split
      · exact receive_cases ..
      · exact .onward inbound _ rfl

theorem readPayload_cases (k : Connection) (inbound : Pipe) (now : Moment) (listening : Bool)
    (id : ClientId) (c : Client) (writer : Writer) (length : Nat) (got : Bytes) (since : Moment) :
    ReadTurn k listening id c writer
      ({ k with inbound }.readPayload now listening id c writer length got since) := by
  unfold readPayload
  split
  · exact .onward inbound _ rfl
  · exact receive_cases ..

theorem readTurn?_cases {now : Moment} {listening : Bool} {t : Turn}
    (h : k.readTurn? now listening id c = some t) :
    ∃ reader writer, k.phase = .running reader writer ∧ reader.live = 1 ∧
      ReadTurn k listening id c writer t := by
  unfold readTurn? at h
  split at h
  · next got since writer hp =>
      refine ⟨_, writer, hp, rfl, ?_⟩
      dsimp only at h
      split at h
      · next told =>
          cases h
          exact .told told
      · split at h
        · exact starve?_cases h
        · cases h
          exact readLength_cases ..
  · next length got since writer hp =>
      refine ⟨_, writer, hp, rfl, ?_⟩
      dsimp only at h
      split at h
      · next told =>
          cases h
          exact .told told
      · split at h
        · exact starve?_cases h
        · cases h
          exact readPayload_cases ..
  · cases h

theorem stopTurn?_cases {t : Turn} (h : k.stopTurn? c = some t) :
    ∃ reader writer, k.phase = .running reader writer ∧ writer.live = 1 ∧
      WriteTurn k id c reader t := by
  unfold stopTurn? at h
  split at h
  · next reader hp =>
      refine ⟨reader, _, hp, rfl, ?_⟩
      split at h
      · next told =>
          cases h
          exact .told told
      · cases h
  · next reader rest since hp =>
      refine ⟨reader, _, hp, rfl, ?_⟩
      split at h
      · next told =>
          cases h
          exact .told told
      · cases h
  · cases h

theorem writeTurn?_cases {now : Moment} {t : Turn} (h : k.writeTurn? now id c = some t) :
    ∃ reader writer, k.phase = .running reader writer ∧ writer.live = 1 ∧
      WriteTurn k id c reader t := by
  unfold writeTurn? at h
  split at h
  · next reader hp =>
      refine ⟨reader, _, hp, rfl, ?_⟩
      split at h
      · cases h
      · cases h
        exact .onward k.outbound _ _ rfl
  · next reader rest since hp =>
      refine ⟨reader, _, hp, rfl, ?_⟩
      dsimp only at h
      split at h
      · cases h
        exact .failed _
      · split at h
        · split at h
          · cases h
            exact .failed _
          · cases h
        · cases h
          refine .onward _ c.mailbox _ ?_
          split <;> rfl
  · cases h

/-- A live side that was told to stop has a turn. -/
theorem isSome_readTurn?_of_told (hlive : k.phase.isLive .read = true) (he : c.exitRead = true)
    (now : Moment) (listening : Bool) (id : ClientId) :
    (k.readTurn? now listening id c).isSome := by
  cases hp : k.phase with
  | running reader writer =>
      cases reader with
      | length => simp [readTurn?, hp, he]
      | payload => simp [readTurn?, hp, he]
      | stopped => rw [hp] at hlive; cases hlive
  | _ => rw [hp] at hlive; cases hlive

theorem isSome_stopTurn?_of_told (hlive : k.phase.isLive .write = true) (he : c.exitWrite = true) :
    (k.stopTurn? c).isSome := by
  cases hp : k.phase with
  | running reader writer =>
      cases writer with
      | idle => simp [stopTurn?, hp, he]
      | writing => simp [stopTurn?, hp, he]
      | stopped => rw [hp] at hlive; cases hlive
  | _ => rw [hp] at hlive; cases hlive

theorem ReadTurn.outcome {listening : Bool} {t : Turn} (h : ReadTurn k listening id c writer t)
    (hp : k.phase = .running reader writer) (hr : reader.live = 1) : Outcome id c k t := by
  have hrunning : k.phase.isRunning = true := by rw [hp]; rfl
  have hlive : k.phase.isLive .read = true := by rw [hp]; simp [Phase.isLive, hr]
  have hended : ∀ (j : Connection) (why : Stop),
      (j.become (.stopped why) writer).phase.isLive .read = false :=
    fun j why => isLive_become_read ..
  have hother : ∀ (j : Connection) (why : Stop),
      (j.become (.stopped why) writer).phase.isLive Side.read.other =
        k.phase.isLive Side.read.other := by
    intro j why
    rw [hp]
    exact isLive_become_write ..
  cases h with
  | told told => exact .told .read hlive told rfl (hended ..) (hother ..) rfl
  | failed inbound why => exact .failed .read hlive rfl (hended ..) (hother ..) rfl
  | onward inbound reader' live =>
      exact .goesOn hrunning rfl (isLive_become_of_live hp (live.trans hr.symm) rfl) (by simp)
  | merged inbound reader' u live =>
      exact .goesOn hrunning rfl (isLive_become_of_live hp (live.trans hr.symm) rfl) (by simp)
  | unheard inbound u =>
      exact .failed .read hlive (c.flags_fail_merge u .read) (hended ..) (hother ..) rfl

/-- A read side that goes on asks a closed registry for nothing. -/
theorem ReadTurn.requests_of_closed {t : Turn} (h : ReadTurn k false id c writer t)
    (hgoes : t.connection.phase.isLive .read = true) : t.requests = [] := by
  have hended : ∀ (j : Connection) (why : Stop),
      ¬ (j.become (.stopped why) writer).phase.isLive .read = true := by
    intro j why hlive
    rw [isLive_become_read] at hlive
    cases hlive
  cases h with
  | told told => rfl
  | failed inbound why => exact (hended _ _ hgoes).elim
  | onward inbound reader' live => rfl
  | merged inbound reader' u live heard => cases heard
  | unheard inbound u => exact (hended _ _ hgoes).elim

theorem WriteTurn.outcome {t : Turn} (h : WriteTurn k id c reader t)
    (hp : k.phase = .running reader writer) (hw : writer.live = 1) : Outcome id c k t := by
  have hlive : k.phase.isLive .write = true := by rw [hp]; simp [Phase.isLive, hw]
  have hended : ∀ (j : Connection) (why : Stop),
      (j.become reader (.stopped why)).phase.isLive .write = false :=
    fun j why => isLive_become_write ..
  have hother : ∀ (j : Connection) (why : Stop),
      (j.become reader (.stopped why)).phase.isLive Side.write.other =
        k.phase.isLive Side.write.other := by
    intro j why
    rw [hp]
    exact isLive_become_read ..
  cases h with
  | told told => exact .told .write hlive told rfl (hended ..) (hother ..) rfl
  | failed why => exact .failed .write hlive rfl (hended ..) (hother ..) rfl
  | onward outbound mailbox writer' live =>
      have hrunning : k.phase.isRunning = true := by rw [hp]; rfl
      exact .goesOn hrunning rfl (isLive_become_of_live hp rfl (live.trans hw.symm)) (by simp)

/-- The connection has just entered a phase of a run. -/
def Entered (k : Connection) : Prop := ∃ j reader writer, k = become j reader writer

theorem entered_become (k : Connection) (reader : Reader) (writer : Writer) :
    (k.become reader writer).Entered := ⟨k, reader, writer, rfl⟩

theorem Entered.isStarted (h : k.Entered) : k.phase.isStarted = true := by
  obtain ⟨i, reader, writer, rfl⟩ := h
  exact isStarted_become ..

theorem Entered.exists_isLive (h : k.Entered) (hr : k.phase.isRunning = true) :
    ∃ side, k.phase.isLive side = true := by
  obtain ⟨i, reader, writer, rfl⟩ := h
  exact exists_isLive_become hr

theorem ReadTurn.enters {listening : Bool} {t : Turn} (h : ReadTurn k listening id c writer t) :
    t.connection.Entered := by
  cases h with
  | told => exact entered_become ..
  | failed => exact entered_become ..
  | onward => exact entered_become ..
  | merged => exact entered_become ..
  | unheard => exact entered_become ..

theorem WriteTurn.enters {t : Turn} (h : WriteTurn k id c reader t) : t.connection.Entered := by
  cases h with
  | told => exact entered_become ..
  | failed => exact entered_become ..
  | onward => exact entered_become ..

end

end Connection
end PositionRelay
