import PositionRelay.Record

/-!
# State cells

The cell of a client holds its latest record. Updates are merged into it, a broadcast takes the
record out and thereby resets the movement, and anyone may look at it.
-/
namespace PositionRelay

structure Cell where
  record : Record
deriving DecidableEq, Repr, Inhabited

/-- A call on a cell; every call returns a record. -/
inductive CellCall where
  | current
  | take
  | merge (update : Record)
deriving DecidableEq, Repr

namespace Cell

/-- The record, left as it is. -/
def current (c : Cell) : Record := c.record

/-- The record for a broadcast, and the cell with its movement reset. -/
def take (c : Cell) : Record × Cell := (c.record, ⟨c.record.settled⟩)

def merge (c : Cell) (update : Record) : Cell := ⟨c.record.merge update⟩

/-- What a call returns, and the cell after it. -/
def call (c : Cell) : CellCall → Record × Cell
  | .current => (c.current, c)
  | .take => c.take
  | .merge update => ((c.merge update).record, c.merge update)

/-- What a sequence of calls returns. -/
def answers (c : Cell) : List CellCall → List Record
  | [] => []
  | op :: rest => (c.call op).1 :: (c.call op).2.answers rest

end Cell
end PositionRelay
