import PositionRelay.Config
import PositionRelay.Registry.Request

/-!
# Errors of a connection

Why a connection could not be built, could not be run, or came to an end. Errors inside a complete
frame are the only ones that a connection survives.
-/
namespace PositionRelay

inductive ConnectionError where
  | timeout (deadline : Deadline)
  | disconnected
  | codec (error : CodecError)
  | io (fault : IoFault)
  | identifiersExhausted
  | config (error : ConfigError)
  | registryClosed
deriving DecidableEq, Repr

namespace ConnectionError

def message : ConnectionError → String
  | timeout deadline => s!"{deadline.name} deadline expired"
  | disconnected => "peer closed the connection"
  | codec error => error.message
  | io fault => s!"I/O error: {fault.message}"
  | identifiersExhausted => "client identifier space exhausted"
  | config error => s!"invalid configuration: {error.message}"
  | registryClosed => RegistryClosed.closed.message

/-- The connection has to be torn down. -/
def isFatal : ConnectionError → Bool
  | codec error => error.isFatal
  | _ => true

end ConnectionError
end PositionRelay
