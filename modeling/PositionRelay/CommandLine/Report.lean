import PositionRelay.CommandLine.Flag
import PositionRelay.Server

/-!
# Final error reports

A command that fails says so in one line: a usage error by its message, any other error by its kind
and its fields.
-/
namespace PositionRelay

/-- A kind with one unnamed field. -/
def reportOne (kind field : String) : String := s!"{kind}({field})"

/-- A kind with named fields. -/
def reportFields (kind : String) (fields : List (String × String)) : String :=
  let shown := ", ".intercalate (fields.map fun (name, value) => s!"{name}: {value}")
  s!"{kind} \x7b {shown} \x7d"

def reportText (text : String) : String := s!"\"{text}\""

def IoFault.report : IoFault → String
  | described text => reportFields "Custom" [("kind", "Other"), ("error", reportText text)]
  | refused kind text => reportFields "Error" [("kind", kind), ("message", reportText text)]
  | system code kind text =>
      reportFields "Os" [("code", toString code), ("kind", kind), ("message", reportText text)]

def CodecError.report : CodecError → String
  | truncated expected received =>
      reportFields "Truncated" [("expected", toString expected), ("received", toString received)]
  | payloadTooLarge length limit =>
      reportFields "PayloadTooLarge" [("len", toString length), ("limit", toString limit)]
  | missingRecordCount length => reportOne "MissingRecordCount" (toString length)
  | recordCountMismatch declared payloadLength =>
      reportFields "RecordCountMismatch"
        [("declared", toString declared), ("payload_len", toString payloadLength)]
  | invalidIdentifier id => reportOne "InvalidIdentifier" (toString id.toInt)
  | unexpectedRecordCount count => reportOne "UnexpectedRecordCount" (toString count)
  | serialization text => reportOne "Serialization" (reportOne "Custom" (reportText text))
  | io fault => reportOne "Io" fault.report

def SessionError.report : SessionError → String
  | io fault => reportOne "Io" fault.report
  | codec error => reportOne "Codec" error.report
  | timeout patience => reportOne "Timeout" patience.text
  | disconnected => "Disconnected"
  | handshake count => reportOne "Handshake" (toString count)

def ConfigError.report : ConfigError → String
  | zeroMailboxCapacity => "ZeroMailboxCapacity"
  | zeroTimeout deadline => reportOne "ZeroTimeout" (reportText deadline.name)
  | invalidSpawnExtent extent => reportOne "InvalidSpawnExtent" extent.precise
  | payloadLimitTooSmall limit => reportOne "PayloadLimitTooSmall" (toString limit)

def ServerError.report : ServerError → String
  | io fault => reportOne "Io" fault.report
  | config error => reportOne "Config" error.report

namespace CommandLine

/-- How a command ends: its exit code, and the line on standard error that says why, if any. -/
structure Outcome where
  code : Nat
  line? : Option String := none
deriving DecidableEq, Repr

def Outcome.success : Outcome := { code := 0 }

/-- A command that ran and failed. -/
def Outcome.failure (report : String) : Outcome := ⟨1, some s!"Error: {report}"⟩

def Halt.outcome : Halt → Outcome
  | .help | .version => .success
  | .misuse error => ⟨2, some s!"error: {error.message}"⟩

/-- Printed before the arguments are read, unless logging has been set up. -/
def loggingHint : String := "Set RUST_LOG=info for detailed logging"

end CommandLine
end PositionRelay
