import PositionRelay.Binary64.Rounding
import PositionRelay.Wire.Source

/-!
# Sessions

The client's end of a connection. A session begins when the first frame from the server is a single
record: the client's own state. From then on it reports movement under its own identifier and reads
snapshots under a time limit. It keeps its own position from what it wrote, never from what it read.
-/
namespace PositionRelay

inductive SessionError where
  | io (fault : IoFault)
  | codec (error : CodecError)
  | timeout (patience : Duration)
  | disconnected
  | handshake (count : Nat)
deriving DecidableEq, Repr

def SessionError.message : SessionError → String
  | io fault => s!"I/O error: {fault.message}"
  | codec error => error.message
  | timeout patience => s!"no frame from server within {patience.text}"
  | disconnected => "server closed the connection"
  | handshake count => s!"expected own state as first frame, got {count} records"

structure Session where
  /-- Identifier and position; the movement in it is not kept up. -/
  own : Record
  /-- How long a read waits for a complete frame. -/
  patience : Duration
deriving DecidableEq, Repr, Inhabited

namespace Session

def defaultPatience : Duration := .ofSeconds 5

def id (s : Session) : ClientId := s.own.id

def position (s : Session) : Binary64 × Binary64 := (s.own.x, s.own.y)

/-- The next frame from the server. -/
def nextFrame (patience : Duration) (source : Wire.Source) :
    Except SessionError Frame × Wire.Source :=
  let (result, rest) := source.readFrameWithin patience Wire.defaultPayloadLimit
  (match result with
    | .value frame => .ok frame
    | .ended => .error .disconnected
    | .failed e => .error (.codec e)
    | .stalled => .error (.timeout patience), rest)

/-- Begins a session with the first frame from the server. -/
def begin (patience : Duration) (source : Wire.Source) :
    Except SessionError Session × Wire.Source :=
  let (result, rest) := nextFrame patience source
  (match result with
    | .ok (.update own) => .ok { own, patience }
    | .ok frame => .error (.handshake frame.length)
    | .error e => .error e, rest)

/-- Sends a record whose write comes out as given. Only a record under the session's own identifier
that was written moves the session. -/
def send (s : Session) (r : Record) (written : Except IoFault Unit) :
    Except SessionError Unit × Session :=
  match written with
  | .error fault => (.error (.io fault), s)
  | .ok () => (.ok (), if r.id = s.id then { s with own := { s.own with x := r.x, y := r.y } } else s)

/-- The report of a move: the new position, and the distance to it as the movement. -/
def moveRecord (s : Session) (x y : Binary64) : Record where
  id := s.id
  x := x
  y := y
  delta := (x.sub s.own.x).hypot (y.sub s.own.y)

def move (s : Session) (x y : Binary64) (written : Except IoFault Unit) :
    Except SessionError Unit × Session :=
  s.send (s.moveRecord x y) written

/-- The records of the next frame. -/
def nextSnapshot (s : Session) (source : Wire.Source) :
    Except SessionError Batch × Wire.Source :=
  let (result, rest) := nextFrame s.patience source
  (result.map Frame.records, rest)

theorem volume_nextSnapshot {s : Session} {source rest : Wire.Source} {records : Batch}
    (h : s.nextSnapshot source = (.ok records, rest)) : rest.volume < source.volume := by
  unfold nextSnapshot nextFrame at h
  cases hr : source.readFrameWithin s.patience Wire.defaultPayloadLimit with
  | mk result left =>
      rw [hr] at h
      cases result with
      | value frame =>
          obtain ⟨-, rfl⟩ := Prod.mk.inj h
          exact Wire.Source.volume_readFrameWithin hr
      | ended => cases h
      | failed e => cases h
      | stalled => cases h

/-- Reads until a snapshot is accepted. -/
def waitFor (s : Session) (accept : Batch → Bool) (source : Wire.Source) :
    Except SessionError Batch × Wire.Source :=
  match h : s.nextSnapshot source with
  | (.ok records, rest) =>
      have := volume_nextSnapshot h
      if accept records then (.ok records, rest) else s.waitFor accept rest
  | (.error e, rest) => (.error e, rest)
termination_by source.volume

end Session
end PositionRelay
