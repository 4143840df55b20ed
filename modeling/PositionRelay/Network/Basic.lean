import PositionRelay.Identifier
import PositionRelay.Network.Connection

/-!
# The network

A registry with its queue of requests, the connections, the source of identifiers and a clock that
moves only when told to. The tasks are the two sides of every running connection and the registry's
control loop; each of the `…Step?` functions is one step of one task, and `none` while it waits.

Moves come from outside: building, running and dropping connections, bytes and ends from the peers,
requests, and the clock.
-/
namespace PositionRelay

structure Network where
  now : Moment := {}
  registry : Registry := {}
  queue : List Request := []
  /-- Answers to counts, in the order of the requests. -/
  answers : List Nat := []
  ids : IdentifierSource := {}
  connections : Roster Connection := {}

namespace Network

def client? (n : Network) (id : ClientId) : Option Client := n.registry.clients.get? id

def connection? (n : Network) (id : ClientId) : Option Connection := n.connections.get? id

/-- Requests join the queue as long as the registry takes any. -/
def enqueue (n : Network) (requests : List Request) : Network :=
  if n.registry.running then { n with queue := n.queue ++ requests } else n

def setClient (n : Network) (id : ClientId) (c : Client) : Network :=
  { n with registry := { n.registry with clients := n.registry.clients.set id c } }

def setConnection (n : Network) (id : ClientId) (k : Connection) : Network :=
  { n with connections := n.connections.set id k }

def passTurn (n : Network) : Network := { n with now := { n.now with turn := n.now.turn + 1 } }

/-- The network after one side of a connection has had its turn. -/
def apply (n : Network) (id : ClientId) (t : Turn) : Network :=
  ((n.passTurn.setClient id t.client).setConnection id t.connection).enqueue t.requests

/-- Looks up a client with its connection and lets one side have its turn. -/
def turn? (n : Network) (id : ClientId) (side : Client → Connection → Option Turn) :
    Option Network :=
  match n.client? id, n.connection? id with
  | some c, some k => (side c k).map (n.apply id)
  | _, _ => none

def readStep? (n : Network) (id : ClientId) : Option Network :=
  n.turn? id fun c k => k.readTurn? n.now n.registry.running id c

def stopStep? (n : Network) (id : ClientId) : Option Network :=
  n.turn? id fun c k => k.stopTurn? c

def writeStep? (n : Network) (id : ClientId) : Option Network :=
  n.turn? id fun c k => k.writeTurn? n.now id c

/-- The registry handles the oldest request. Shutting down discards the requests behind it. -/
def registryStep? (n : Network) : Option Network :=
  match n.queue with
  | [] => none
  | request :: rest =>
      let handled := n.registry.handle request
      some { n with
        registry := handled.registry
        queue := if handled.registry.running then rest else []
        answers := n.answers ++ handled.answer.toList }

/-- A task together with what it does in one step. -/
inductive Task where
  | read (id : ClientId)
  | stop (id : ClientId)
  | write (id : ClientId)
  | registry
deriving DecidableEq, Repr

def step? (n : Network) : Task → Option Network
  | .read id => n.readStep? id
  | .stop id => n.stopStep? id
  | .write id => n.writeStep? id
  | .registry => n.registryStep?

/-- Builds a client and its connection, not yet running. An invalid configuration uses up no
identifier. The two draws place the client. -/
def accept (n : Network) (config : Config) (buffer : Nat) (drawX drawY : Nat) :
    Except ConnectionError (ClientId × Network) :=
  match config.validate with
  | .error e => .error (.config e)
  | .ok () =>
      match n.ids.issue? with
      | none => .error .identifiersExhausted
      | some (id, ids) =>
          let c := Client.create id (config.spawnCoordinate drawX) (config.spawnCoordinate drawY)
            config.mailboxCapacity
          let k : Connection :=
            { config, inbound := { capacity := buffer }, outbound := { capacity := buffer } }
          .ok (id, ({ n with ids }.setClient id c).setConnection id k)

/-- A request from outside. -/
def ask (n : Network) (request : Request) : Except RegistryClosed Network :=
  if n.registry.running then .ok (n.enqueue [request]) else .error .closed

def modifyClient (n : Network) (id : ClientId) (f : Client → Client) : Network :=
  match n.client? id with
  | some c => n.setClient id (f c)
  | none => n

def modifyConnection (n : Network) (id : ClientId) (f : Connection → Connection) : Network :=
  match n.connection? id with
  | some k => n.setConnection id (f k)
  | none => n

/-- Gives up a connection that does not run: its pipes and its mailbox are closed. -/
def abandon (n : Network) (id : ClientId) (phase : Phase) : Network :=
  (n.modifyConnection id fun k => { k with phase }.closePipes).modifyClient id Client.closeMailbox

/-- Runs a connection that was built: it joins the registry, and both sides start. -/
def run (n : Network) (id : ClientId) : Network :=
  if n.registry.running then
    (n.modifyConnection id fun k => { k with phase := .running (.length [] n.now) .idle }).enqueue
      [.join id]
  else n.abandon id .refused

/-- The connection was built and has neither been run nor dropped. -/
def isFresh (n : Network) (id : ClientId) : Bool :=
  (n.connection? id).any fun k => k.phase == .fresh

/-- Drops a connection that was never run. -/
def discard (n : Network) (id : ClientId) : Network :=
  if n.isFresh id then n.abandon id .dropped else n

def disconnect (n : Network) (id : ClientId) : Network := n.modifyClient id Client.disconnect

def advance (n : Network) (d : Duration) : Network :=
  { n with now := { n.now with time := n.now.time + d.nanoseconds } }

/-- The peer ends its stream; what it sent before can still be read. -/
def endStream (n : Network) (id : ClientId) : Network :=
  n.modifyConnection id fun k => { k with inbound := k.inbound.close }

/-- The peer is gone. -/
def hangUp (n : Network) (id : ClientId) : Network := n.modifyConnection id Connection.closePipes

end Network
end PositionRelay
