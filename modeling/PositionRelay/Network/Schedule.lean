import PositionRelay.Network.Work

/-!
# Running until nothing is left to do

`next?` lets one task take one step; `settle` repeats it until no task can. A network without a next
step is settled: only a move from outside can change it.

Deadlines that have expired come first, in the order in which they expired. Whatever else was set off
from outside (bytes, ends, closed pipes) follows, on both sides of all connections. The registry then
handles its whole queue before any write side takes the next batch, so a burst of requests meets the
mailboxes as they are.
-/
namespace PositionRelay.Network

/-- A batch is being written to this client, and its write side has not been told to stop. -/
def isWriting (n : Network) (id : ClientId) : Bool :=
  match n.client? id, n.connection? id with
  | some c, some k => k.isWriting c
  | _, _ => false

/-- An expired wait: its tick, the turn at which it began, and the task that waits. -/
structure Overdue where
  tick : Nat
  turn : Nat
  task : Task

def Overdue.before (a b : Overdue) : Bool :=
  a.tick < b.tick || a.tick == b.tick && a.turn ≤ b.turn

/-- The waits of one connection that have expired. -/
def overdueOf (n : Network) (id : ClientId) : List Overdue :=
  match n.connection? id with
  | none => []
  | some k =>
      let entry (task : Task) (wait : Moment × Deadline) : Option Overdue :=
        if k.expired n.now wait.1 wait.2 then some ⟨k.dueTick wait, wait.1.turn, task⟩ else none
      (k.readWait?.bind (entry (.read id))).toList ++
        if n.isWriting id then (k.writeWait?.bind (entry (.write id))).toList else []

/-- The tasks whose waits have expired, the earliest first; of waits that expire with the same tick,
the one that began first. -/
def overdue (n : Network) : List Task :=
  ((n.connections.ids.flatMap n.overdueOf).mergeSort Overdue.before).map Overdue.task

/-- All tasks, in the order in which they are asked for a step. -/
def agenda (n : Network) : List Task :=
  let ids := n.connections.ids
  n.overdue ++ ids.map .read ++ (ids.filter n.isWriting).map .write ++ [.registry] ++
    ids.map .stop ++ ids.map .write

/-- A step of the first task that can take one. -/
def next? (n : Network) : Option Network := n.agenda.findSome? n.step?

theorem exists_step_of_next {n m : Network} (h : n.next? = some m) :
    ∃ task, n.step? task = some m := by
  obtain ⟨task, -, ht⟩ := List.exists_of_findSome?_eq_some h
  exact ⟨task, ht⟩

theorem before_of_next {n m : Network} (h : n.next? = some m) : Before m.work n.work := by
  obtain ⟨task, ht⟩ := exists_step_of_next h
  exact before_of_step ht

/-- Lets the tasks run until none can take a step. -/
def settle (n : Network) : Network :=
  match h : n.next? with
  | none => n
  | some m =>
      have := before_of_next h
      m.settle
termination_by n.work
decreasing_by exact this

/-- No task can take a step after settling. -/
theorem next?_settle (n : Network) : n.settle.next? = none := by
  induction n using settle.induct with
  | case1 n h =>
      rw [settle]
      split
      · assumption
      · simp_all
  | case2 n m h _ ih =>
      rw [settle]
      split
      · simp_all
      · next m' h' =>
          rw [h] at h'
          cases h'
          exact ih

end PositionRelay.Network
