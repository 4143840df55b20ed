import PositionRelay.Binary64.Basic

/-!
# Position records

A record says where one client is and how far it moved since its state was last broadcast. It is
both what a client reports and what a snapshot holds per client.
-/
namespace PositionRelay

/-- Identifier of a client; only positive ones are ever issued. -/
abbrev ClientId := Int32

structure Record where
  id : ClientId
  x : Binary64
  y : Binary64
  delta : Binary64
deriving DecidableEq, Repr, Inhabited

/-- What one broadcast carries: a record per client. -/
abbrev Batch := List Record

namespace Record

/-- A client that has not moved yet. -/
def resting (id : ClientId) (x y : Binary64) : Record := ⟨id, x, y, .zero⟩

def hasValidId (r : Record) : Bool := 0 < r.id

/-- Takes over the position of an update and adds up its movement. The identifier stays, whatever
identifier the update carries. -/
def merge (r update : Record) : Record :=
  { r with x := update.x, y := update.y, delta := r.delta.add update.delta }

/-- Forgets the movement that a broadcast has just carried. -/
def settled (r : Record) : Record := { r with delta := .zero }

/-- Equality of records as numbers. -/
def same (a b : Record) : Bool :=
  a.id == b.id && a.x.same b.x && a.y.same b.y && a.delta.same b.delta

@[simp] theorem merge_id (r update : Record) : (r.merge update).id = r.id := rfl

@[simp] theorem merge_x (r update : Record) : (r.merge update).x = update.x := rfl

@[simp] theorem merge_y (r update : Record) : (r.merge update).y = update.y := rfl

@[simp] theorem merge_delta (r update : Record) :
    (r.merge update).delta = r.delta.add update.delta := rfl

@[simp] theorem settled_id (r : Record) : r.settled.id = r.id := rfl

@[simp] theorem settled_x (r : Record) : r.settled.x = r.x := rfl

@[simp] theorem settled_y (r : Record) : r.settled.y = r.y := rfl

@[simp] theorem settled_delta (r : Record) : r.settled.delta = .zero := rfl

end Record
end PositionRelay
