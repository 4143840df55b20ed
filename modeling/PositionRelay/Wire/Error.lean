import PositionRelay.Record

/-!
# Errors of the wire format

An error is fatal when the reader has lost its place in the stream: the frame that caused it was not
consumed as a whole. After any other error the next byte starts the next frame.
-/
namespace PositionRelay

/-- A failed read or write, or a connection that could not be made. -/
inductive IoFault where
  | described (text : String)
  /-- Refused before the operating system was asked. -/
  | refused (kind text : String)
  /-- Reported by the operating system. -/
  | system (code : Nat) (kind text : String)
deriving DecidableEq, Repr

namespace IoFault

def message : IoFault → String
  | described text => text
  | refused _ text => text
  | system code _ text => s!"{text} (os error {code})"

/-- The other end of an in-memory connection is gone. -/
def brokenPipe : IoFault := .described "broken pipe"

def connectionRefused : IoFault := .system 111 "ConnectionRefused" "Connection refused"

def connectionReset : IoFault := .system 104 "ConnectionReset" "Connection reset by peer"

/-- An address needs a host and a port with a colon between them. -/
def invalidAddress : IoFault := .refused "InvalidInput" "invalid socket address"

def invalidPort : IoFault := .refused "InvalidInput" "invalid port value"

end IoFault

inductive CodecError where
  /-- The stream or buffer ended inside a prefix or payload of `expected` bytes. -/
  | truncated (expected received : Nat)
  | payloadTooLarge (length limit : Nat)
  | missingRecordCount (length : Nat)
  | recordCountMismatch (declared payloadLength : Nat)
  | invalidIdentifier (id : ClientId)
  | unexpectedRecordCount (count : Nat)
  | serialization (text : String)
  | io (fault : IoFault)
deriving DecidableEq, Repr

namespace CodecError

def message : CodecError → String
  | truncated expected received =>
      s!"frame truncated: expected {expected} bytes, received {received}"
  | payloadTooLarge length limit => s!"payload of {length} bytes exceeds limit of {limit}"
  | missingRecordCount length =>
      s!"payload of {length} bytes is too short to hold a record count"
  | recordCountMismatch declared payloadLength =>
      s!"record count {declared} does not match a {payloadLength} byte payload"
  | invalidIdentifier id => s!"invalid client identifier {id.toInt}"
  | unexpectedRecordCount count => s!"expected a single-record update, got {count} records"
  | serialization text => s!"record serialization failed: {text}"
  | io fault => s!"I/O error: {fault.message}"

/-- The stream can no longer be read frame by frame. -/
def isFatal : CodecError → Bool
  | truncated .. | payloadTooLarge .. | io _ => true
  | _ => false

end CodecError
end PositionRelay
