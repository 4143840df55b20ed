import PositionRelay.Network.Peer

/-!
# Runs

A run is a list of events, each a move from outside or a step of one task. Nothing is said about who
comes next: tasks may be passed over for as long as one likes, and moves may come between any two
steps. An event that is not possible when it comes changes nothing, so every list of events is a run.

`trace` keeps the networks that a run leaves behind, each with the event that left it. What was
delivered, merged or requested in a run is read off its trace. The scheduler of `settle` makes one of
these runs.
-/
namespace PositionRelay.Network

/-- A move from outside. -/
inductive Move where
  | build (config : Config) (buffer drawX drawY : Nat)
  | start (id : ClientId)
  | discard (id : ClientId)
  | deliver (id : ClientId) (bytes : Bytes)
  | withdraw (id : ClientId) (count : Nat)
  | endStream (id : ClientId)
  | hangUp (id : ClientId)
  | disconnect (id : ClientId)
  /-- Someone takes the record of a client and resets its movement. -/
  | capture (id : ClientId)
  | offer (id : ClientId) (batch : Batch)
  | ask (request : Request)
  | advance (d : Duration)
deriving DecidableEq, Repr

inductive Event where
  | move (move : Move)
  | task (task : Task)
deriving DecidableEq, Repr

/-- The pipe to a connection is open and has room for some more bytes. -/
def admits (n : Network) (id : ClientId) (bytes : Bytes) : Bool :=
  (n.connection? id).any fun k => !k.inbound.closed && decide (bytes.length ≤ k.inbound.space)

def make (n : Network) : Move → Network
  | .build config buffer drawX drawY =>
      match n.accept config buffer drawX drawY with
      | .ok (_, m) => m
      | .error _ => n
  | .start id => if n.isFresh id then n.run id else n
  | .discard id => n.discard id
  | .deliver id bytes => if n.admits id bytes then n.deliver id bytes else n
  | .withdraw id count => n.withdraw id count
  | .endStream id => n.endStream id
  | .hangUp id => n.hangUp id
  | .disconnect id => n.disconnect id
  | .capture id => n.modifyClient id Client.settle
  | .offer id batch => n.modifyClient id fun c => (c.offer batch).toOption.getD c
  | .ask request => (n.ask request).toOption.getD n
  | .advance d => n.advance d

def react (n : Network) : Event → Network
  | .move move => n.make move
  | .task task => (n.step? task).getD n

theorem react_of_none {n : Network} {task : Task} (h : n.step? task = none) :
    n.react (.task task) = n := by
  rw [react, h]
  rfl

theorem react_of_some {n m : Network} {task : Task} (h : n.step? task = some m) :
    n.react (.task task) = m := by
  rw [react, h]
  rfl

/-- The network after a run. -/
def after (n : Network) (events : List Event) : Network := events.foldl react n

def trace (n : Network) : List Event → List (Network × Event)
  | [] => []
  | e :: rest => (n, e) :: (n.react e).trace rest

/-- No task can take a step. -/
def Settled (n : Network) : Prop := ∀ task, n.step? task = none

theorem trace_append (n : Network) (before later : List Event) :
    n.trace (before ++ later) = n.trace before ++ (n.after before).trace later := by
  induction before generalizing n with
  | nil => rfl
  | cons e rest ih =>
      simp only [List.cons_append, trace, ih]
      rfl

theorem after_cons (n : Network) (e : Event) (rest : List Event) :
    n.after (e :: rest) = (n.react e).after rest := rfl

/-- What a trace holds is left behind by a part of the run. -/
theorem exists_of_mem_trace {n : Network} {events : List Event} {s : Network × Event}
    (h : s ∈ n.trace events) :
    ∃ before later, events = before ++ s.2 :: later ∧ s.1 = n.after before := by
  induction events generalizing n with
  | nil => cases h
  | cons e rest ih =>
      rcases List.mem_cons.mp h with rfl | hs
      · exact ⟨[], rest, rfl, rfl⟩
      · obtain ⟨before, later, he, hn⟩ := ih hs
        exact ⟨e :: before, later, by rw [he]; rfl, hn⟩

theorem event_mem_of_mem_trace {n : Network} {events : List Event} {s : Network × Event}
    (h : s ∈ n.trace events) : s.2 ∈ events := by
  obtain ⟨before, later, he, -⟩ := exists_of_mem_trace h
  rw [he]
  simp

/-- What holds at first and is kept by every event that may occur holds after every run. The
property may speak of the trace so far. -/
theorem run_induction {P : List (Network × Event) → Network → Prop} {Q : Network → Event → Prop}
    (step : ∀ past m e, P past m → Q m e → P (past ++ [(m, e)]) (m.react e))
    {n : Network} (start : P [] n) (events : List Event) (h : ∀ s ∈ n.trace events, Q s.1 s.2) :
    P (n.trace events) (n.after events) := by
  -- The past grows along the run, so the induction is on the events to come.
  suffices hs : ∀ past, P past n → P (past ++ n.trace events) (n.after events) from hs [] start
  clear start
  induction events generalizing n with
  | nil =>
      intro past hp
      rw [trace, List.append_nil]
      exact hp
  | cons e rest ih =>
      intro past hp
      have hfirst : Q n e := h (n, e) (by simp [trace])
      have hrest : ∀ s ∈ (n.react e).trace rest, Q s.1 s.2 := by
        intro s hs
        exact h s (by simp [trace, hs])
      have hlater := ih hrest (past ++ [(n, e)]) (step past n e hp hfirst)
      rw [List.append_assoc] at hlater
      exact hlater

theorem step?_eq_none_of_absent {n : Network} {id : ClientId} (h : n.connection? id = none)
    (side : Client → Connection → Option Turn) : n.turn? id side = none := by
  unfold turn?
  rw [h]
  split
  · next hk => cases hk
  · rfl

theorem mem_ids_of_connection {n : Network} {id : ClientId} {k : Connection}
    (h : n.connection? id = some k) : id ∈ n.connections.ids := by
  have hl : n.connections.entries.lookup id = some k := h
  obtain ⟨before, later, he, -⟩ := List.lookup_eq_some_iff.mp hl
  simp [Roster.ids, he]

/-- The tasks on the agenda are all that could take a step. -/
theorem settled_of_next? {n : Network} (h : n.next? = none) : n.Settled := by
  have hall : ∀ task ∈ n.agenda, n.step? task = none := List.findSome?_eq_none_iff.mp h
  intro task
  cases task with
  | registry => exact hall .registry (by simp [agenda])
  | read id =>
      cases hk : n.connection? id with
      | none => exact step?_eq_none_of_absent hk _
      | some k => exact hall (.read id) (by simp [agenda, mem_ids_of_connection hk])
  | stop id =>
      cases hk : n.connection? id with
      | none => exact step?_eq_none_of_absent hk _
      | some k => exact hall (.stop id) (by simp [agenda, mem_ids_of_connection hk])
  | write id =>
      cases hk : n.connection? id with
      | none => exact step?_eq_none_of_absent hk _
      | some k => exact hall (.write id) (by simp [agenda, mem_ids_of_connection hk])

/-- Whether a network is settled can be found out by looking for its next step. -/
theorem settled_of_isNone {n : Network} (h : n.next?.isNone = true) : n.Settled :=
  settled_of_next? (Option.isNone_iff_eq_none.mp h)

/-- Settling is a run of task steps, and it ends settled. -/
theorem exists_run_of_settle (n : Network) :
    ∃ tasks : List Task, n.settle = n.after (tasks.map .task) ∧ n.settle.Settled := by
  suffices hrun : ∃ tasks : List Task, n.settle = n.after (tasks.map .task) by
    obtain ⟨tasks, h⟩ := hrun
    exact ⟨tasks, h, settled_of_next? n.next?_settle⟩
  induction n using settle.induct with
  | case1 n h =>
      refine ⟨[], ?_⟩
      rw [settle]
      split
      · rfl
      · next hm => rw [h] at hm; cases hm
  | case2 n m h _ ih =>
      have he : n.settle = m.settle := by
        rw [settle]
        split
        · next hn => rw [h] at hn; cases hn
        · next hm => rw [h] at hm; cases hm; rfl
      obtain ⟨task, ht⟩ := exists_step_of_next h
      obtain ⟨tasks, hr⟩ := ih
      refine ⟨task :: tasks, ?_⟩
      rw [he, hr, List.map_cons, after_cons, react_of_some ht]

end PositionRelay.Network
