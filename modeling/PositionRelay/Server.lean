import PositionRelay.Network.Link
import PositionRelay.Session

/-!
# Servers

A server gives every connection that it accepts a client of its own and runs it at once. Stopping it
shuts the registry down, which disconnects everyone, and ends accepting; connections that are still
closing are not waited for.
-/
namespace PositionRelay

inductive ServerError where
  | io (fault : IoFault)
  | config (error : ConfigError)
deriving DecidableEq, Repr

def ServerError.message : ServerError → String
  | io fault => s!"I/O error: {fault.message}"
  | config error => s!"invalid configuration: {error.message}"

structure Server where
  config : Config
  network : Network := {}
  accepting : Bool := true

namespace Server

def bind (config : Config) : Except ServerError Server :=
  match config.validate with
  | .error e => .error (.config e)
  | .ok () => .ok { config }

/-- Bytes that a connection holds in each direction. -/
def socketBuffer : Nat := 4194304

/-- A connection from outside: it is run, or refused once the server no longer accepts. A connection
for which no identifier is left is closed without an answer. -/
def connect (s : Server) (drawX drawY : Nat) : Except SessionError (ClientId × Server) :=
  if !s.accepting then .error (.io .connectionRefused)
  else
    match s.network.accept s.config socketBuffer drawX drawY with
    | .error _ => .error .disconnected
    | .ok (id, n) => .ok (id, { s with network := (n.run id).settle })

def shutDownRegistry (s : Server) : Bool × Server :=
  match s.network.ask .shutDown with
  | .ok n => (true, { s with network := n.settle })
  | .error _ => (false, s)

def stop (s : Server) : Server := { s.shutDownRegistry.2 with accepting := false }

/-- The number of live clients, as long as the registry runs. -/
def count? (s : Server) : Option Nat :=
  if s.network.registry.running then some s.network.registry.members.size else none

end Server
end PositionRelay
