import PositionRelay.CommandLine.Command
import Std.Async.DNS
import Std.Async.Signal
import Std.Async.TCP
import Std.Async.Timer
import Std.Sync.Mutex

/-!
# The programs

The outer layer: sockets, the clock and the terminal. `serve` keeps one network behind a lock, hands it
what arrives and sends on what it holds ready; all decisions are the network's. `walk` reads through a
session, more bytes at a time until the session has its frame or its time is up.
-/
namespace PositionRelay.Outer

open Std.Async Std.Net CommandLine

/-- Bytes moved at a time. -/
def piece : Nat := 65536

/-- What the event loop reports; it gives error codes with the sign changed. -/
def faultOf (e : IO.Error) : IoFault :=
  let code := match e with
    | .noSuchThing _ code _ | .resourceVanished code _ => 0 - code
    | _ => 0
  if code = 111 then .connectionRefused
  else if code = 104 then .connectionReset
  else .described e.toString

/-- The address of a host, given by number or by name, and a port. -/
def resolve (host : String) (port : Nat) : Async SocketAddress := do
  let port := UInt16.ofNat port
  match IPv4Addr.ofString host with
  | some addr => return .v4 ⟨addr, port⟩
  | none =>
      let found ← DNS.getAddrInfo host (toString port)
      match found.toList with
      | .v4 addr :: _ => return .v4 ⟨addr, port⟩
      | .v6 addr :: _ => return .v6 ⟨addr, port⟩
      | [] => throw (.userError "no address for the host")

def randomDraw : IO Nat := do
  return (← IO.rand 0 (Nat.pow 2 26 - 1)) * Nat.pow 2 26 + (← IO.rand 0 (Nat.pow 2 26 - 1))

def pause (ms : Nat) : Async Unit := sleep (.ofInt ms)

def report (outcome : Outcome) : IO UInt32 := do
  match outcome.line? with
  | some line => IO.eprintln line
  | none => pure ()
  return UInt32.ofNat outcome.code

/-- The network of all connections. -/
abbrev Shared := Std.Mutex Network

def change (shared : Shared) (f : Network → Network) : BaseIO Unit := shared.atomically (modify f)

/-- Hands on what a socket receives, until its stream ends or breaks. -/
partial def receive (shared : Shared) (id : ClientId) (socket : TCP.Socket.Client) :
    Async Unit := do
  let got ← try socket.recv? (UInt64.ofNat piece) catch _ => pure none
  match got with
  | some bytes =>
      change shared fun n => (n.send id bytes.toList).network
      receive shared id socket
  | none => change shared fun n => (n.endStream id).settle

/-- Sends what the network holds ready for a socket, until the connection is over. -/
partial def transmit (shared : Shared) (id : ClientId) (socket : TCP.Socket.Client) :
    Async Unit := do
  let (bytes, ended) ← shared.atomically do
    let got := (← get).receive id (some piece)
    set got.network
    return (got.bytes, got.ended)
  if !bytes.isEmpty then
    try
      socket.send ⟨bytes.toArray⟩
    catch _ => change shared fun n => (n.hangUp id).settle
    transmit shared id socket
  else if ended then
    try socket.shutdown catch _ => pure ()
  else
    pause 2
    transmit shared id socket

/-- Keeps the network's clock at the time that has passed. -/
partial def keepTime (shared : Shared) (start : Nat) : Async Unit := do
  pause 5
  let now ← IO.monoNanosNow
  change shared fun n => n.passTo (now - start)
  keepTime shared start

partial def acceptAll (shared : Shared) (config : Config) (listener : TCP.Socket.Server) :
    Async Unit := do
  let socket ← listener.accept
  socket.noDelay
  let drawX ← randomDraw
  let drawY ← randomDraw
  let built ← shared.atomically do
    match (← get).accept config piece drawX drawY with
    | .error _ => return none
    | .ok (id, n) =>
        set (n.run id).settle
        return some id
  match built with
  | none => socket.shutdown
  | some id =>
      background (receive shared id socket)
      background (transmit shared id socket)
  acceptAll shared config listener

/-- The network of a server that has been stopped. -/
def stopped (s : Server) (n : Network) : Network := { s with network := n }.stop.network

/-- Serves until interrupted. -/
def serve (options : ServeOptions) : Async Outcome := do
  match Server.bind options.config with
  | .error e => return .failure e.report
  | .ok server =>
      let listener ← TCP.Socket.Server.mk
      try
        listener.bind (← resolve options.host options.port)
        listener.listen 128
      catch e => return .failure (ServerError.io (faultOf e)).report
      let shared : Shared ← Std.Mutex.new server.network
      background (acceptAll shared server.config listener)
      background (keepTime shared (← IO.monoNanosNow))
      let interrupt ← Signal.Waiter.mk .sigint false
      let _ ← await (← interrupt.wait)
      change shared (stopped server)
      pause 50
      return .success

/-- What is left to read from a socket. -/
structure Incoming where
  socket : TCP.Socket.Client
  unread : Bytes := []
  ended : Bool := false

/-- Reads until a frame is there or the time is up. -/
partial def Incoming.read {α : Type} (i : Incoming) (limit : Nat)
    (next : Wire.Source → Except SessionError α × Wire.Source) :
    Async (Except SessionError α × Incoming) := do
  let source : Wire.Source := { arrivals := [], ended := i.ended }
  let (result, rest) := next (source.push i.unread)
  let done := (result, { i with unread := rest.bytes })
  match result with
  | .error (.timeout _) =>
      let now ← IO.monoMsNow
      if limit ≤ now then return done
      else
        let timer ← Selector.sleep (.ofInt (limit - now : Nat))
        let got ← Selectable.one #[
          .case (i.socket.recvSelector (UInt64.ofNat piece)) fun bytes => pure (some bytes),
          .case timer fun _ => pure none]
        match got with
        | some (some bytes) => Incoming.read { i with unread := i.unread ++ bytes.toList } limit next
        | some none => Incoming.read { i with ended := true } limit next
        | none => return done
  | _ => return done

def milliseconds (d : Duration) : Nat := d.nanoseconds / 1000000

partial def moveOn (options : WalkOptions) (s : Session) (i : Incoming) :
    Nat → Async Outcome
  | 0 => return .success
  | moves + 1 => do
      let (x, y) := nextStop s options.step (← randomDraw) (← randomDraw)
      let written ← try
          i.socket.send ⟨(Wire.encodeFrame [s.moveRecord x y]).toArray⟩
          pure (.ok ())
        catch e => pure (.error (faultOf e))
      match s.move x y written with
      | (.error e, _) => return .failure e.report
      | (.ok (), s) =>
          let limit := (← IO.monoMsNow) + milliseconds s.patience
          match ← i.read limit s.nextSnapshot with
          | (.error e, _) => return .failure e.report
          | (.ok _, i) =>
              if 0 < moves then pause (max options.intervalMs 1)
              moveOn options s i moves

/-- Connects and walks. -/
def walkTo (options : WalkOptions) : Async Outcome := do
  let (port, host) := options.server.toList.reverse.span (· != ':')
  let socket ← TCP.Socket.Client.mk
  let made ← try
      if host.isEmpty then pure (some IoFault.invalidAddress)
      else
        match readWord (String.ofList port.reverse) with
        | .ok port =>
            socket.connect (← resolve (String.ofList host.tail.reverse) port)
            socket.noDelay
            pure none
        | .error _ => pure (some IoFault.invalidPort)
    catch e => pure (some (faultOf e))
  match made with
  | some fault => return .failure (SessionError.io fault).report
  | none =>
      let patience := Session.defaultPatience
      let limit := (← IO.monoMsNow) + milliseconds patience
      match ← Incoming.read { socket } limit (Session.begin patience) with
      | (.error e, _) => return .failure e.report
      | (.ok s, i) => moveOn options s i options.moves

def usage : String := "Usage: positionrelay serve|walk [OPTIONS]"

def run {α : Type} (options : Except Halt α) (command : α → Async Outcome) : IO UInt32 := do
  match options with
  | .ok options => report (← (command options).block)
  | .error .help => IO.println usage; return 0
  | .error .version => IO.println "positionrelay"; return 0
  | .error halt => report halt.outcome

end PositionRelay.Outer

open PositionRelay in
def main (arguments : List String) : IO UInt32 := do
  if (← IO.getEnv "RUST_LOG").isNone then IO.eprintln CommandLine.loggingHint
  match arguments with
  | "serve" :: rest => Outer.run (CommandLine.readServe rest) Outer.serve
  | "walk" :: rest => Outer.run (CommandLine.readWalk rest) Outer.walkTo
  | _ => IO.eprintln Outer.usage; return 2
