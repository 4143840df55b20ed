import PositionRelay.Registry.Basic

/-!
# Requests to the registry

Connections and callers reach the registry through requests, which it handles one at a time in the
order of their arrival. Once it has shut down it handles none.
-/
namespace PositionRelay

/-- The registry no longer takes requests. -/
inductive RegistryClosed where
  | closed
deriving DecidableEq, Repr

def RegistryClosed.message (_ : RegistryClosed) : String :=
  "registry control loop is not running"

inductive Request where
  | join (id : ClientId)
  | leave (id : ClientId)
  | broadcast
  | count
  | shutDown
deriving DecidableEq, Repr

/-- What handling a request did: the registry after it, the rounds of offers, and the answer to a
count. -/
structure Handled where
  registry : Registry
  rounds : List Round := []
  answer : Option Nat := none

namespace Registry

def handle (r : Registry) (request : Request) : Handled :=
  if !r.running then { registry := r }
  else
    match request with
    | .join id => let (registry, rounds) := r.join id; { registry, rounds }
    | .leave id => let (registry, rounds) := r.leave id; { registry, rounds }
    | .broadcast => let (registry, rounds) := r.fanOut; { registry, rounds }
    | .count => { registry := r, answer := some r.members.size }
    | .shutDown => { registry := r.shutDown }

end Registry
end PositionRelay
