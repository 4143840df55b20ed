import PositionRelay.Cell
import PositionRelay.Mailbox

/-!
# Clients

A client is what the registry knows of a connection: its state cell, its mailbox, and three flags
that only ever go up. `closing` is raised by whatever ends the connection first; the two exit flags
tell the read side and the write side to stop. A side that fails stops by itself, so `fail` raises
the flag of the other side only, while `disconnect` raises both.
-/
namespace PositionRelay

/-- The two sides of a connection. -/
inductive Side where
  | read
  | write
deriving DecidableEq, Repr

def Side.other : Side → Side
  | read => write
  | write => read

structure Client where
  cell : Cell
  mailbox : Mailbox
  closing : Bool := false
  exitRead : Bool := false
  exitWrite : Bool := false
deriving DecidableEq, Repr, Inhabited

namespace Client

def create (id : ClientId) (x y : Binary64) (mailboxCapacity : Nat) : Client where
  cell := ⟨.resting id x y⟩
  mailbox := { capacity := mailboxCapacity }

def record (c : Client) : Record := c.cell.record

/-- The movement so far has been broadcast. -/
def settle (c : Client) : Client := { c with cell := c.cell.take.2 }

def merge (c : Client) (update : Record) : Client := { c with cell := c.cell.merge update }

def offer (c : Client) (batch : Batch) : Except DeliveryError Client :=
  (c.mailbox.offer batch).map fun m => { c with mailbox := m }

/-- Both sides have been told to stop. -/
def isStopped (c : Client) : Bool := c.exitRead && c.exitWrite

/-- Tells both sides to stop. -/
def disconnect (c : Client) : Client :=
  { c with closing := true, exitRead := true, exitWrite := true }

/-- Tells one side to stop. -/
def raiseExit (c : Client) : Side → Client
  | .read => { c with exitRead := true }
  | .write => { c with exitWrite := true }

/-- One side has failed. The first failure tells the other side to stop; what comes after the
connection began to close changes nothing. -/
def fail (c : Client) (side : Side) : Client :=
  if c.closing then c else { c with closing := true }.raiseExit side.other

def closeMailbox (c : Client) : Client := { c with mailbox := c.mailbox.close }

end Client
end PositionRelay
