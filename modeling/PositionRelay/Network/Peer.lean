import PositionRelay.Network.Schedule

/-!
# Peers

The far end of an in-memory connection. A peer writes as much as the pipe takes and reads what is
there; after each piece the tasks run, so that space it frees is used again and bytes it sends are
taken up. A send stops when everything is written, when the pipe stays full, or when its other end is
gone. A receive stops at the given number of bytes or when nothing more comes.
-/
namespace PositionRelay.Network

/-- How far a send came. -/
structure Sent where
  network : Network
  written : Nat
  /-- The other end was gone before everything was written. -/
  broken : Bool := false

/-- What a receive brought. -/
structure Received where
  network : Network
  bytes : Bytes
  /-- Everything was read and nothing more will follow. -/
  ended : Bool := false

def deliver (n : Network) (id : ClientId) (bytes : Bytes) : Network :=
  n.modifyConnection id fun k => { k with inbound := k.inbound.append bytes }

def withdraw (n : Network) (id : ClientId) (count : Nat) : Network :=
  n.modifyConnection id fun k => { k with outbound := k.outbound.drop count }

def sendFrom (n : Network) (id : ClientId) (written : Nat) (bytes : Bytes) : Sent :=
  if bytes.isEmpty then { network := n, written }
  else
    match n.connection? id with
    | none => { network := n, written, broken := true }
    | some k =>
        let chunk := bytes.take k.inbound.space
        if k.inbound.closed then { network := n, written, broken := true }
        else if h : chunk.isEmpty then { network := n, written }
        else
          have : (bytes.drop chunk.length).length < bytes.length := Connection.length_drop_lt h
          sendFrom (n.deliver id chunk).settle id (written + chunk.length)
            (bytes.drop chunk.length)
termination_by bytes.length
decreasing_by exact this

/-- The peer sends bytes. -/
def send (n : Network) (id : ClientId) (bytes : Bytes) : Sent := n.sendFrom id 0 bytes

def receiveFrom (n : Network) (id : ClientId) (got : Bytes) (room : Nat) : Received :=
  match n.connection? id with
  | none => { network := n, bytes := got, ended := true }
  | some k =>
      let chunk := k.outbound.bytes.take room
      if h : chunk.isEmpty then
        { network := n, bytes := got, ended := 0 < room && k.outbound.closed }
      else
        have : room - chunk.length < room := by
          rw [List.isEmpty_iff_length_eq_zero, List.length_take] at h
          rw [List.length_take]
          omega
        receiveFrom (n.withdraw id chunk.length).settle id (got ++ chunk) (room - chunk.length)
termination_by room
decreasing_by exact this

/-- Bytes on their way to the peer: in the pipe, in the batch being written and in the mailbox. -/
def backlog (n : Network) (id : ClientId) : Nat :=
  let waiting := (n.client? id).elim 0 fun c =>
    (c.mailbox.pending.flatMap Wire.encodeFrame).length
  let started := (n.connection? id).elim 0 fun k =>
    k.outbound.bytes.length + match k.phase with
      | .running _ (.writing rest _) => rest.length
      | _ => 0
  waiting + started

/-- The peer reads what is there, up to a number of bytes if one is given. -/
def receive (n : Network) (id : ClientId) (limit? : Option Nat) : Received :=
  n.receiveFrom id [] (limit?.getD (n.backlog id + 1))

end PositionRelay.Network
