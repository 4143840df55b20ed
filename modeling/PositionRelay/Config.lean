import PositionRelay.Binary64.Decimal
import PositionRelay.Duration
import PositionRelay.Wire.Frame

/-!
# Configuration

A configuration holds the limits under which connections are served. `Config.validate` answers with
the first limit that no connection could live with, in the order of the fields.
-/
namespace PositionRelay

/-- The three waits of a connection that have a time limit. -/
inductive Deadline where
  | idleRead
  | burstRead
  | write
deriving DecidableEq, Repr

def Deadline.name : Deadline → String
  | idleRead => "idle read"
  | burstRead => "burst read"
  | write => "write"

inductive ConfigError where
  | zeroMailboxCapacity
  | zeroTimeout (deadline : Deadline)
  | invalidSpawnExtent (extent : Binary64)
  | payloadLimitTooSmall (limit : Nat)
deriving DecidableEq, Repr

def ConfigError.message : ConfigError → String
  | zeroMailboxCapacity => "mailbox capacity must be at least 1"
  | zeroTimeout deadline => s!"{deadline.name} timeout must be non-zero"
  | invalidSpawnExtent extent =>
      s!"spawn extent must be a positive finite number, got {extent.plain}"
  | payloadLimitTooSmall limit => s!"payload limit of {limit} bytes cannot hold a single record"

structure Config where
  /-- Batches that a mailbox holds before its client counts as too slow. -/
  mailboxCapacity : Nat := 100
  /-- How long the read side waits for a complete payload length. -/
  idleRead : Duration := .ofSeconds 600
  /-- How long the read side waits for the payload after its length. -/
  burstRead : Duration := .ofSeconds 20
  /-- How long writing one batch may take. -/
  write : Duration := .ofSeconds 30
  /-- Clients start at coordinates from zero up to this one, itself excluded. -/
  spawnExtent : Binary64 := ⟨0x4059000000000000⟩
  payloadLimit : Nat := Wire.defaultPayloadLimit
deriving DecidableEq, Repr, Inhabited

namespace Config

def limitOf (c : Config) : Deadline → Duration
  | .idleRead => c.idleRead
  | .burstRead => c.burstRead
  | .write => c.write

/-- Refuses a configuration under which no client could be served. -/
def validate (c : Config) : Except ConfigError Unit :=
  if c.mailboxCapacity = 0 then .error .zeroMailboxCapacity
  else
    match [Deadline.idleRead, .burstRead, .write].find? fun d => c.limitOf d == .zero with
    | some d => .error (.zeroTimeout d)
    | none =>
        if !(c.spawnExtent.isFinite && c.spawnExtent.isPositive) then
          .error (.invalidSpawnExtent c.spawnExtent)
        else if c.payloadLimit < Wire.countLength + Wire.recordLength then
          .error (.payloadLimitTooSmall c.payloadLimit)
        else .ok ()

/-- A coordinate between zero and the extent, drawn by a 52-bit fraction. A product that rounds up
to the extent itself is replaced by zero. -/
def spawnCoordinate (c : Config) (draw : Nat) : Binary64 :=
  let fraction := (Binary64.ofNat (draw % Nat.pow 2 52)).div (.ofNat (Nat.pow 2 52))
  let p := fraction.mul c.spawnExtent
  if p.nonnegLess c.spawnExtent then p else .zero

end Config
end PositionRelay
