import PositionRelay.Network.Error
import PositionRelay.Network.Pipe

/-!
# Connections

A connection has two sides that run on their own. The read side waits for a payload length, then for
the payload, each under a deadline that starts with the wait and is not extended by partial progress.
A complete update is merged into the client's cell and a broadcast is requested. The write side takes
batches from the mailbox and writes each as one frame, under a deadline per batch.

`readTurn?` and `writeTurn?` say what a side does next, given only its own client and connection; they
answer `none` while it has to wait. A failure stops its own side, tells the other side to stop, and
asks the registry to remove the client, unless the connection was closing already.
-/
namespace PositionRelay

/-- Why a side of a connection stopped. -/
inductive Stop where
  | told
  | failed (error : ConnectionError)
deriving DecidableEq, Repr

/-- A point of a run: nanoseconds on its clock, and the number of turns taken before. The second puts
in order what happens at one time. -/
structure Moment where
  time : Nat := 0
  turn : Nat := 0
deriving DecidableEq, Repr, Inhabited

inductive Reader where
  | length (got : Bytes) (since : Moment)
  | payload (length : Nat) (got : Bytes) (since : Moment)
  | stopped (why : Stop)
deriving DecidableEq, Repr

inductive Writer where
  | idle
  | writing (rest : Bytes) (since : Moment)
  | stopped (why : Stop)
deriving DecidableEq, Repr

inductive Phase where
  /-- Built, not yet run. -/
  | fresh
  | running (reader : Reader) (writer : Writer)
  /-- Both sides have stopped. -/
  | finished (reader writer : Stop)
  /-- Could not be run because the registry was closed. -/
  | refused
  /-- Given up without having been run. -/
  | dropped
deriving DecidableEq, Repr

structure Connection where
  config : Config
  /-- From the peer to the read side. -/
  inbound : Pipe
  /-- From the write side to the peer. -/
  outbound : Pipe
  phase : Phase := .fresh
deriving DecidableEq, Repr, Inhabited

/-- What one turn of a side leaves behind, and the requests that it sends to the registry. -/
structure Turn where
  client : Client
  connection : Connection
  requests : List Request := []
deriving DecidableEq, Repr

namespace Connection

def closePipes (k : Connection) : Connection :=
  { k with inbound := k.inbound.close, outbound := k.outbound.close }

/-- Enters a phase of a running connection. With both sides stopped the connection is finished, and
its end of both pipes is gone. -/
def become (k : Connection) : Reader → Writer → Connection
  | .stopped r, .stopped w => { k with phase := .finished r w }.closePipes
  | reader, writer => { k with phase := .running reader writer }

/-- The request with which a failing side has its client removed. -/
def farewell (id : ClientId) (c : Client) : List Request :=
  if c.closing then [] else [.leave id]

/-- A wait that began at `since` has lasted as long as its deadline allows. -/
def expired (k : Connection) (now since : Moment) (deadline : Deadline) : Bool :=
  since.time + (k.config.limitOf deadline).nanoseconds ≤ now.time

def stopReading (k : Connection) (c : Client) (writer : Writer) : Turn where
  client := c
  connection := k.become (.stopped .told) writer

def failReading (k : Connection) (id : ClientId) (c : Client) (writer : Writer)
    (why : ConnectionError) : Turn where
  client := c.fail .read
  connection := k.become (.stopped (.failed why)) writer
  requests := farewell id c

/-- A complete payload: an update is merged and broadcast, anything else is passed over. -/
def receive (k : Connection) (now : Moment) (listening : Bool) (id : ClientId) (c : Client)
    (writer : Writer) (payload : Bytes) : Turn :=
  match Wire.decodePayload payload with
  | .ok (.update u) =>
      if listening then ⟨c.merge u, k.become (.length [] now) writer, [.broadcast]⟩
      else k.failReading id (c.merge u) writer .registryClosed
  | _ => ⟨c, k.become (.length [] now) writer, []⟩

/-- A wait of the read side for which no byte is there: it ends with the stream or by its deadline. -/
def starve? (k : Connection) (now : Moment) (id : ClientId) (c : Client) (writer : Writer)
    (since : Moment) (deadline : Deadline) (atEnd : ConnectionError) : Option Turn :=
  if k.inbound.closed && k.inbound.bytes.isEmpty then some (k.failReading id c writer atEnd)
  else if k.expired now since deadline then
    some (k.failReading id c writer (.timeout deadline))
  else none

/-- The end of the stream while `expected` bytes are being collected. -/
def cut (expected : Nat) (got : Bytes) : ConnectionError := .codec (.truncated expected got.length)

/-- More bytes of a payload length. -/
def readLength (k : Connection) (now : Moment) (listening : Bool) (id : ClientId) (c : Client)
    (writer : Writer) (got : Bytes) (since : Moment) : Turn :=
  let length := Wire.wordValue got
  if got.length < Wire.prefixLength then ⟨c, k.become (.length got since) writer, []⟩
  else if k.config.payloadLimit < length then
    k.failReading id c writer (.codec (.payloadTooLarge length k.config.payloadLimit))
  else if length = 0 then k.receive now listening id c writer []
  else ⟨c, k.become (.payload length [] now) writer, []⟩

/-- More bytes of a payload. -/
def readPayload (k : Connection) (now : Moment) (listening : Bool) (id : ClientId) (c : Client)
    (writer : Writer) (length : Nat) (got : Bytes) (since : Moment) : Turn :=
  if got.length < length then ⟨c, k.become (.payload length got since) writer, []⟩
  else k.receive now listening id c writer got

/-- The next turn of the read side; being told to stop comes before everything else. -/
def readTurn? (k : Connection) (now : Moment) (listening : Bool) (id : ClientId) (c : Client) :
    Option Turn :=
  match k.phase with
  | .running (.length got since) writer =>
      let chunk := k.inbound.bytes.take (Wire.prefixLength - got.length)
      if c.exitRead then some (k.stopReading c writer)
      else if chunk.isEmpty then
        k.starve? now id c writer since .idleRead
          (if got.isEmpty then .disconnected else cut Wire.prefixLength got)
      else
        some ({ k with inbound := k.inbound.drop chunk.length }.readLength now listening id c
          writer (got ++ chunk) since)
  | .running (.payload length got since) writer =>
      let chunk := k.inbound.bytes.take (length - got.length)
      if c.exitRead then some (k.stopReading c writer)
      else if chunk.isEmpty then
        k.starve? now id c writer since .burstRead (cut length got)
      else
        some ({ k with inbound := k.inbound.drop chunk.length }.readPayload now listening id c
          writer length (got ++ chunk) since)
  | _ => none

/-- The write side was told to stop; its mailbox is gone. -/
def stopTurn? (k : Connection) (c : Client) : Option Turn :=
  match k.phase with
  | .running reader .idle | .running reader (.writing ..) =>
      if c.exitWrite then some ⟨c.closeMailbox, k.become reader (.stopped .told), []⟩ else none
  | _ => none

def failWriting (k : Connection) (id : ClientId) (c : Client) (reader : Reader)
    (why : ConnectionError) : Turn where
  client := (c.fail .write).closeMailbox
  connection := k.become reader (.stopped (.failed why))
  requests := farewell id c

/-- The next turn of the write side, whether or not it has been told to stop. -/
def writeTurn? (k : Connection) (now : Moment) (id : ClientId) (c : Client) : Option Turn :=
  match k.phase with
  | .running reader .idle =>
      match c.mailbox.take? with
      | none => none
      | some (batch, mailbox) =>
          some ⟨{ c with mailbox }, k.become reader (.writing (Wire.encodeFrame batch) now), []⟩
  | .running reader (.writing rest since) =>
      let chunk := rest.take k.outbound.space
      if k.outbound.closed then some (k.failWriting id c reader (.io .brokenPipe))
      else if chunk.isEmpty then
        if k.expired now since .write then
          some (k.failWriting id c reader (.timeout .write))
        else none
      else
        let left := rest.drop chunk.length
        some ⟨c, { k with outbound := k.outbound.append chunk }.become reader
          (if left.isEmpty then .idle else .writing left since), []⟩
  | _ => none

/-- A batch is being written, and the write side has not been told to stop. -/
def isWriting (k : Connection) (c : Client) : Bool :=
  match k.phase with
  | .running _ (.writing ..) => !c.exitWrite
  | _ => false

/-- The beginning and the deadline of what the read side waits for. -/
def readWait? (k : Connection) : Option (Moment × Deadline) :=
  match k.phase with
  | .running (.length _ since) _ => some (since, .idleRead)
  | .running (.payload _ _ since) _ => some (since, .burstRead)
  | _ => none

/-- The beginning and the deadline of the batch being written. -/
def writeWait? (k : Connection) : Option (Moment × Deadline) :=
  match k.phase with
  | .running _ (.writing _ since) => some (since, .write)
  | _ => none

/-- Deadlines are kept in milliseconds: the first one not before a wait may end. -/
def dueTick (k : Connection) (wait : Moment × Deadline) : Nat :=
  (wait.1.time + (k.config.limitOf wait.2).nanoseconds + 999999) / 1000000

end Connection
end PositionRelay
