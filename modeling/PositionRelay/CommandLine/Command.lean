import PositionRelay.CommandLine.Report

/-!
# The two commands

`serve` runs a server under the given limits. `walk` connects to one and moves at random a number of
times, reading a snapshot after every move.
-/
namespace PositionRelay.CommandLine

structure ServeOptions where
  host : String
  port : Nat
  config : Config
deriving DecidableEq, Repr

def serveFlags : List Flag :=
  [⟨"host", some 'H', .text⟩, ⟨"port", some 'p', .upTo 65535⟩, ⟨"mailbox-capacity", none, .word⟩,
    ⟨"idle-timeout-secs", none, .word⟩, ⟨"burst-timeout-secs", none, .word⟩,
    ⟨"write-timeout-secs", none, .word⟩, ⟨"spawn-extent", none, .double⟩]

def ServeOptions.ofSettings (s : Settings) : ServeOptions :=
  let base : Config := {}
  { host := s.text "host" "127.0.0.1"
    port := s.number "port" 8080
    config :=
      { base with
        mailboxCapacity := s.number "mailbox-capacity" base.mailboxCapacity
        idleRead := .ofSeconds (s.number "idle-timeout-secs" base.idleRead.seconds)
        burstRead := .ofSeconds (s.number "burst-timeout-secs" base.burstRead.seconds)
        write := .ofSeconds (s.number "write-timeout-secs" base.write.seconds)
        spawnExtent := s.double "spawn-extent" base.spawnExtent } }

def readServe (arguments : List String) : Except Halt ServeOptions :=
  (read serveFlags arguments).map .ofSettings

structure WalkOptions where
  server : String
  moves : Nat
  intervalMs : Nat
  step : Binary64
deriving DecidableEq, Repr

def walkFlags : List Flag :=
  [⟨"server", some 's', .text⟩, ⟨"moves", some 'm', .upTo 4294967295⟩,
    ⟨"interval-ms", some 'i', .word⟩, ⟨"step", none, .step⟩]

def WalkOptions.ofSettings (s : Settings) : WalkOptions where
  server := s.text "server" "127.0.0.1:8080"
  moves := s.number "moves" 50
  intervalMs := s.number "interval-ms" 100
  step := s.double "step" (.ofNat 5)

def readWalk (arguments : List String) : Except Halt WalkOptions :=
  (read walkFlags arguments).map .ofSettings

/-- Why nothing answers at an address: it is none, or nobody listens there. -/
def unreachable (server : String) : IoFault :=
  match server.toList.reverse.span (· != ':') with
  | (_, []) => .invalidAddress
  | (port, _) =>
      match readWord (String.ofList port.reverse) with
      | .ok n => if n ≤ 65535 then .connectionRefused else .invalidPort
      | .error _ => .invalidPort

/-- A draw between both ends of the range of a step; a step of zero stays where it is. -/
def stride (step : Binary64) (draw : Nat) : Binary64 :=
  if step.isPositive then
    let fraction := (Binary64.ofNat (draw % Nat.pow 2 52)).div (.ofNat (Nat.pow 2 52 - 1))
    (fraction.mul (step.add step)).sub step
  else .zero

/-- Where a walk goes next. -/
def nextStop (s : Session) (step : Binary64) (drawX drawY : Nat) : Binary64 × Binary64 :=
  (s.own.x.add (stride step drawX), s.own.y.add (stride step drawY))

/-- What a walk has written, and how it ended. -/
structure Walked where
  reports : List Bytes
  outcome : Outcome

/-- Moves and reads in turn, as long as the reads succeed. The replies are what the peer sends after
each report; after the last of them it ends the stream. -/
def walkOn (step : Binary64) (draw : Nat → Nat) :
    Nat → Session → Wire.Source → List Bytes → Walked
  | 0, _, _, _ => ⟨[], .success⟩
  | moves + 1, s, source, replies =>
      let (x, y) := nextStop s step (draw (2 * moves)) (draw (2 * moves + 1))
      let report := Wire.encodeFrame [s.moveRecord x y]
      let s := (s.move x y (.ok ())).2
      let source := { source.push (replies.headD []) with ended := replies.length ≤ 1 }
      match s.nextSnapshot source with
      | (.ok _, source) =>
          let rest := walkOn step draw moves s source replies.tail
          { rest with reports := report :: rest.reports }
      | (.error e, _) => ⟨[report], .failure e.report⟩

/-- A whole walk against a peer that answers as given. -/
def walk (options : WalkOptions) (draw : Nat → Nat) (replies : List Bytes) : Walked :=
  let hello := ({ arrivals := [], ended := replies.length ≤ 1 : Wire.Source }).push
    (replies.headD [])
  match Session.begin Session.defaultPatience hello with
  | (.ok s, source) => walkOn options.step draw options.moves s source replies.tail
  | (.error e, _) => ⟨[], .failure e.report⟩

end PositionRelay.CommandLine
