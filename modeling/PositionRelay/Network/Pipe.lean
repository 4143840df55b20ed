import PositionRelay.Wire.Word

/-!
# Pipes

One direction of a connection: bytes on their way, at most `capacity` of them. A pipe is closed from
either end. After that nothing can be written, while what is in it can still be read.
-/
namespace PositionRelay

structure Pipe where
  capacity : Nat
  bytes : Bytes := []
  closed : Bool := false
deriving DecidableEq, Repr, Inhabited

namespace Pipe

/-- Bytes that can be written at once. -/
def space (p : Pipe) : Nat := p.capacity - p.bytes.length

def append (p : Pipe) (bytes : Bytes) : Pipe := { p with bytes := p.bytes ++ bytes }

def drop (p : Pipe) (n : Nat) : Pipe := { p with bytes := p.bytes.drop n }

def close (p : Pipe) : Pipe := { p with closed := true }

end Pipe
end PositionRelay
