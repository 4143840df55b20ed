import PositionRelay.Record

/-!
# Mailboxes

A mailbox is a bounded queue of batches between the registry, which offers without waiting, and the
write side of one connection, which takes them in order. Once its write side is gone the mailbox is
closed and whatever it held is dropped.
-/
namespace PositionRelay

inductive DeliveryError where
  | mailboxFull
  | mailboxClosed
deriving DecidableEq, Repr

def DeliveryError.message : DeliveryError → String
  | mailboxFull => "mailbox full"
  | mailboxClosed => "mailbox closed"

structure Mailbox where
  capacity : Nat
  pending : List Batch := []
  closed : Bool := false
deriving DecidableEq, Repr, Inhabited

namespace Mailbox

/-- Why the mailbox takes no further batch; being closed comes before being full. -/
def refusal? (m : Mailbox) : Option DeliveryError :=
  if m.closed then some .mailboxClosed
  else if m.capacity ≤ m.pending.length then some .mailboxFull
  else none

/-- Further batches that fit. -/
def free (m : Mailbox) : Nat := if m.closed then 0 else m.capacity - m.pending.length

def offer (m : Mailbox) (batch : Batch) : Except DeliveryError Mailbox :=
  match m.refusal? with
  | some reason => .error reason
  | none => .ok { m with pending := m.pending ++ [batch] }

/-- The oldest batch and the mailbox without it. -/
def take? (m : Mailbox) : Option (Batch × Mailbox) :=
  match m.pending with
  | [] => none
  | batch :: rest => some (batch, { m with pending := rest })

def close (m : Mailbox) : Mailbox := { m with pending := [], closed := true }

end Mailbox
end PositionRelay
