import PositionRelay.Network.Peer
import PositionRelay.Wire.Source

/-!
# Links

The far end of a connection as a stream to read from. While a read has to wait, time passes from one
expiring deadline to the next, because nothing else can happen in a settled network; a read under a
time limit gives up once the limit is the next thing to happen.
-/
namespace PositionRelay

/-- A connection seen from the peer, with the bytes that have come but have not been read. -/
structure Link where
  id : ClientId
  unread : Bytes := []
deriving DecidableEq, Repr

namespace Network

/-- The times at which the waits of one connection expire, on the millisecond. -/
def expiriesOf (n : Network) (id : ClientId) : List Nat :=
  match n.connection? id with
  | none => []
  | some k => (k.readWait?.toList ++ k.writeWait?.toList).map fun wait => k.dueTick wait * 1000000

/-- The next time at which a wait expires. -/
def nextExpiry? (n : Network) : Option Nat := (n.connections.ids.flatMap n.expiriesOf).min?

/-- Moves the clock to a time that has not passed yet and lets the tasks run. -/
def passTo (n : Network) (time : Nat) : Network := (n.advance ⟨time - n.now.time⟩).settle

/-- Moves the clock to the next expiry, unless a time limit comes before it. -/
def elapse? (n : Network) (limit? : Option Nat) : Option Network :=
  match n.nextExpiry? with
  | none => none
  | some time =>
      match limit? with
      | some limit => if time < limit then some (n.passTo time) else none
      | none => some (n.passTo time)

/-- How often a wait can still expire before every side has stopped. -/
def liveSides (n : Network) : Nat := n.connections.sum Connection.sides

/-- Reads from a link, letting time pass as long as the answer of the read is to wait. -/
def readLink {α : Type} (read : Wire.Source → α × Wire.Source) (waits : α → Bool)
    (limit? : Option Nat) : Nat → Network → Link → α × Network × Link
  | fuel, n, l =>
      let got := n.receive l.id none
      let heard := l.unread ++ got.bytes
      let (a, rest) := read ({ arrivals := [], ended := got.ended : Wire.Source }.push heard)
      let stop (n : Network) := (a, n, { l with unread := rest.bytes })
      if waits a then
        match fuel, got.network.elapse? limit? with
        | fuel + 1, some n => readLink read waits limit? fuel n { l with unread := heard }
        | _, _ => stop (limit?.elim got.network got.network.passTo)
      else stop got.network

end Network
end PositionRelay
