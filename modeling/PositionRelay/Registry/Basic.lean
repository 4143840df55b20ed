import PositionRelay.Client
import PositionRelay.Registry.Members
import PositionRelay.Roster

/-!
# The registry

The registry decides which clients are live and offers every broadcast to each of them without
waiting. A round captures one record per member and offers the batch to all; a member whose mailbox
refuses it is evicted, and as long as a round evicts someone the survivors are offered a fresh batch
without it. Each further round has fewer members, so fanning out ends.

Rounds are returned as values: the batch, who took it and who refused it.
-/
namespace PositionRelay

structure Registry where
  /-- Requests are being handled; false for good once the registry has shut down. -/
  running : Bool := true
  members : Members := {}
  /-- Every client ever built, member or not. -/
  clients : Roster Client := {}

instance : Inhabited Registry := ⟨{}⟩

/-- One batch offered to a number of clients. -/
structure Round where
  batch : Batch
  takers : List ClientId
  refusers : List ClientId
deriving DecidableEq, Repr

/-- One offer of a round: the client's movement is part of the batch and starts anew, and a mailbox
that refuses ends the client. -/
def Client.visit (c : Client) (batch : Batch) : Client :=
  match c.settle.offer batch with
  | .ok c => c
  | .error _ => c.settle.disconnect

namespace Registry

/-- The records of all members, in ascending order of their identifiers. -/
def snapshot (r : Registry) : Batch :=
  r.members.ids.filterMap fun id => (r.clients.get? id).map Client.record

/-- The client's mailbox takes another batch. -/
def takes (r : Registry) (id : ClientId) : Bool :=
  (r.clients.get? id).any fun c => c.mailbox.refusal?.isNone

/-- What the next round offers, and how it is received. -/
def report (r : Registry) : Round where
  batch := r.snapshot
  takers := r.members.ids.filter r.takes
  refusers := r.members.ids.filter fun id => !r.takes id

/-- Offers a fresh snapshot to every member and evicts those that refuse it. -/
def round (r : Registry) : Registry :=
  { r with
    members := r.members.filter r.takes
    clients := r.clients.map fun id c => if id ∈ r.members.ids then c.visit r.snapshot else c }

theorem round_size_lt {r : Registry} (h : ¬ r.members.ids.all r.takes) :
    r.round.members.size < r.members.size :=
  List.length_filter_lt_length_iff_exists.mpr (by simpa using h)

/-- Broadcasts to all members, again to the survivors whenever a round evicts someone. -/
def fanOut (r : Registry) : Registry × List Round :=
  if r.members.ids.isEmpty then (r, [])
  else if h : r.members.ids.all r.takes then (r.round, [r.report])
  else
    have := round_size_lt h
    let (last, rounds) := r.round.fanOut
    (last, r.report :: rounds)
termination_by r.members.size

/-- Removes a member and tells both sides of its connection to stop. -/
def evict (r : Registry) (id : ClientId) : Registry :=
  { r with
    members := r.members.erase id
    clients := r.clients.modify id Client.disconnect }

/-- Makes a client a member, offers it its own record, then broadcasts. -/
def join (r : Registry) (id : ClientId) : Registry × List Round :=
  match r.clients.get? id with
  | none => (r, [])
  | some c =>
      let grown := { r with members := r.members.insert id }
      match c.offer [c.record] with
      | .ok c =>
          let (last, rounds) := { grown with clients := r.clients.set id c }.fanOut
          (last, ⟨[c.record], [id], []⟩ :: rounds)
      | .error _ =>
          let (last, rounds) := (grown.evict id).fanOut
          (last, ⟨[c.record], [], [id]⟩ :: rounds)

/-- Removes a member, if it is one, then broadcasts to the rest. -/
def leave (r : Registry) (id : ClientId) : Registry × List Round :=
  { r with members := r.members.erase id }.fanOut

/-- Disconnects every member and stops handling requests. -/
def shutDown (r : Registry) : Registry :=
  { r with
    running := false
    members := {}
    clients := r.clients.map fun id c => if id ∈ r.members.ids then c.disconnect else c }

end Registry
end PositionRelay
