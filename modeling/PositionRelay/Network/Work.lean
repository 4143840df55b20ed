import PositionRelay.Network.Basic

/-!
# Every step uses something up

A step of a read side takes a byte or ends the side. A step of the registry shortens the queue. A
step of a write side ends the side, takes a batch out of a mailbox, or fills the pipe; it never
lengthens the queue unless it ends. Compared in this order, what is left to do gets smaller with every
step, so the tasks cannot keep each other busy for good.
-/
namespace PositionRelay

/-- Sum of a quantity over all entries. -/
def Roster.sum {α : Type} (r : Roster α) (f : α → Nat) : Nat :=
  r.entries.foldr (fun e n => f e.2 + n) 0

theorem Roster.sum_set {α : Type} {r : Roster α} {id : ClientId} {b : α} (a : α) (f : α → Nat)
    (h : r.get? id = some b) : (r.set id a).sum f + f b = r.sum f + f a := by
  obtain ⟨entries⟩ := r
  simp only [Roster.get?, Roster.set, Roster.sum] at h ⊢
  induction entries with
  | nil => simp at h
  | cons e rest ih =>
      obtain ⟨k, c⟩ := e
      by_cases hk : id = k
      · subst hk
        simp only [List.lookup_cons_self, Option.some.injEq] at h
        subst h
        simp only [Roster.put, if_true, List.foldr_cons]
        omega
      · rw [List.lookup_cons, beq_eq_false_iff_ne.mpr hk] at h
        have := ih h
        simp only [Roster.put, if_neg hk, List.foldr_cons]
        omega

def Reader.live : Reader → Nat
  | .stopped _ => 0
  | _ => 1

def Writer.live : Writer → Nat
  | .stopped _ => 0
  | _ => 1

def Writer.busy : Writer → Nat
  | .writing .. => 1
  | _ => 0

namespace Connection

/-- Sides that have not stopped. -/
def sides (k : Connection) : Nat :=
  match k.phase with
  | .running reader writer => reader.live + writer.live
  | _ => 0

/-- What the read side may still do. -/
def readWork (k : Connection) : Nat := k.inbound.bytes.length + k.sides

/-- What the write side may still do besides taking batches. -/
def writeWork (k : Connection) : Nat :=
  k.outbound.space + match k.phase with
    | .running _ writer => writer.busy
    | _ => 0

theorem sides_become (k : Connection) (reader : Reader) (writer : Writer) :
    (k.become reader writer).sides = reader.live + writer.live := by
  cases reader <;> cases writer <;> rfl

theorem inbound_bytes_become (k : Connection) (reader : Reader) (writer : Writer) :
    (k.become reader writer).inbound.bytes = k.inbound.bytes := by
  cases reader <;> cases writer <;> rfl

theorem readWork_become (k : Connection) (reader : Reader) (writer : Writer) :
    (k.become reader writer).readWork =
      k.inbound.bytes.length + (reader.live + writer.live) := by
  rw [readWork, sides_become, inbound_bytes_become]

theorem readWork_receive (k : Connection) (now : Moment) (listening : Bool) (id : ClientId)
    (c : Client) (writer : Writer) (payload : Bytes) :
    (k.receive now listening id c writer payload).connection.readWork ≤
      k.inbound.bytes.length + (1 + writer.live) := by
  unfold receive
  split
  · split
    · simp [readWork_become, Reader.live]
    · simp only [failReading, readWork_become, Reader.live]
      omega
  · simp [readWork_become, Reader.live]

theorem readWork_readLength (k : Connection) (now : Moment) (listening : Bool) (id : ClientId)
    (c : Client) (writer : Writer) (got : Bytes) (since : Moment) :
    (k.readLength now listening id c writer got since).connection.readWork ≤
      k.inbound.bytes.length + (1 + writer.live) := by
  unfold readLength
  dsimp only
  split
  · simp [readWork_become, Reader.live]
  · split
    · simp only [failReading, readWork_become, Reader.live]
      omega
    · split
      · exact readWork_receive ..
      · simp [readWork_become, Reader.live]

theorem readWork_readPayload (k : Connection) (now : Moment) (listening : Bool) (id : ClientId)
    (c : Client) (writer : Writer) (length : Nat) (got : Bytes) (since : Moment) :
    (k.readPayload now listening id c writer length got since).connection.readWork ≤
      k.inbound.bytes.length + (1 + writer.live) := by
  unfold readPayload
  split
  · simp [readWork_become, Reader.live]
  · exact readWork_receive ..

theorem readWork_starve {k : Connection} {now : Moment} {id : ClientId} {c : Client} {writer : Writer}
    {since : Moment} {deadline : Deadline} {atEnd : ConnectionError} {t : Turn}
    (h : k.starve? now id c writer since deadline atEnd = some t) :
    t.connection.readWork = k.inbound.bytes.length + writer.live := by
  unfold starve? at h
  split at h
  · cases h
    simp [failReading, readWork_become, Reader.live]
  · split at h
    · cases h
      simp [failReading, readWork_become, Reader.live]
    · cases h

theorem length_drop_lt {bytes : Bytes} {n : Nat} (h : ¬ (bytes.take n).isEmpty) :
    (bytes.drop (bytes.take n).length).length < bytes.length := by
  rw [List.isEmpty_iff_length_eq_zero, List.length_take] at h
  rw [List.length_drop, List.length_take]
  omega

/-- Every turn of the read side takes a byte or ends the side. -/
theorem readWork_lt_of_readTurn {k : Connection} {now : Moment} {listening : Bool} {id : ClientId}
    {c : Client} {t : Turn} (h : k.readTurn? now listening id c = some t) :
    t.connection.readWork < k.readWork := by
  unfold readTurn? at h
  split at h
  · next got since writer hp =>
      have hk : k.readWork = k.inbound.bytes.length + (1 + writer.live) := by
        simp [readWork, sides, hp, Reader.live]
      dsimp only at h
      split at h
      · cases h
        simp [stopReading, readWork_become, Reader.live, hk]
      · split at h
        · rw [readWork_starve h]
          omega
        · next hc =>
            cases h
            refine Nat.lt_of_le_of_lt (readWork_readLength ..) ?_
            have := length_drop_lt hc
            simp only [Pipe.drop]
            omega
  · next length got since writer hp =>
      have hk : k.readWork = k.inbound.bytes.length + (1 + writer.live) := by
        simp [readWork, sides, hp, Reader.live]
      dsimp only at h
      split at h
      · cases h
        simp [stopReading, readWork_become, Reader.live, hk]
      · split at h
        · rw [readWork_starve h]
          omega
        · next hc =>
            cases h
            refine Nat.lt_of_le_of_lt (readWork_readPayload ..) ?_
            have := length_drop_lt hc
            simp only [Pipe.drop]
            omega
  · cases h

/-- Being told to stop ends the write side. -/
theorem readWork_lt_of_stopTurn {k : Connection} {c : Client} {t : Turn}
    (h : k.stopTurn? c = some t) : t.connection.readWork < k.readWork := by
  unfold stopTurn? at h
  split at h
  · next reader hp =>
      split at h
      · cases h
        rw [readWork_become]
        simp [readWork, sides, hp, Writer.live]
      · cases h
  · next reader rest since hp =>
      split at h
      · cases h
        rw [readWork_become]
        simp [readWork, sides, hp, Writer.live]
      · cases h
  · cases h

/-- As long as the write side is live, only the phase changes. -/
theorem become_of_live {k : Connection} {reader : Reader} {writer : Writer}
    (h : writer.live = 1) :
    k.become reader writer = { k with phase := .running reader writer } := by
  cases writer with
  | stopped => cases h
  | idle => cases reader <;> rfl
  | writing => cases reader <;> rfl

theorem writeWork_become {k : Connection} {reader : Reader} {writer : Writer}
    (h : writer.live = 1) :
    (k.become reader writer).writeWork = k.outbound.space + writer.busy := by
  rw [become_of_live h]
  rfl

theorem readWork_failWriting {k : Connection} {id : ClientId} {c : Client} {reader : Reader}
    {writer : Writer} {why : ConnectionError} (hp : k.phase = .running reader writer)
    (hw : writer.live = 1) :
    (k.failWriting id c reader why).connection.readWork < k.readWork := by
  rw [failWriting, readWork_become]
  simp only [readWork, sides, hp, hw]
  exact Nat.lt_succ_self _

/-- Every turn of the write side ends the side, or sends no request and leaves less to write. -/
theorem work_lt_of_writeTurn {k : Connection} {now : Moment} {id : ClientId} {c : Client} {t : Turn}
    (h : k.writeTurn? now id c = some t) :
    t.connection.readWork < k.readWork ∨
      t.connection.readWork = k.readWork ∧ t.requests = [] ∧
        2 * t.client.mailbox.pending.length + t.connection.writeWork <
          2 * c.mailbox.pending.length + k.writeWork := by
  unfold writeTurn? at h
  split at h
  · next reader hp =>
      split at h
      · cases h
      · next batch mailbox hm =>
          cases h
          refine .inr ⟨?_, rfl, ?_⟩
          · rw [readWork_become]
            simp [readWork, sides, hp, Writer.live]
          · rw [writeWork_become rfl]
            unfold Mailbox.take? at hm
            split at hm
            · cases hm
            · next first rest hpend =>
                cases hm
                simp only [writeWork, hp, hpend, Writer.busy, List.length_cons]
                omega
  · next reader rest since hp =>
      dsimp only at h
      split at h
      · cases h
        exact .inl (readWork_failWriting hp rfl)
      · split at h
        · split at h
          · cases h
            exact .inl (readWork_failWriting hp rfl)
          · cases h
        · next hc =>
            cases h
            have hlive : (if (rest.drop (rest.take k.outbound.space).length).isEmpty then
                Writer.idle else .writing (rest.drop (rest.take k.outbound.space).length)
                  since).live = 1 := by
              split <;> rfl
            refine .inr ⟨?_, rfl, ?_⟩
            · rw [readWork_become, hlive]
              simp [readWork, sides, hp, Writer.live]
            · rw [writeWork_become hlive]
              rw [List.isEmpty_iff_length_eq_zero, List.length_take] at hc
              simp only [writeWork, hp, Pipe.space, Pipe.append, List.length_append,
                List.length_take] at hc ⊢
              split <;> simp only [Writer.busy] <;> omega
  · cases h

end Connection

namespace Network

/-- What the read sides may still do. -/
def readWork (n : Network) : Nat := n.connections.sum Connection.readWork

/-- What the write sides may still do. -/
def writeWork (n : Network) : Nat :=
  n.registry.clients.sum (fun c => 2 * c.mailbox.pending.length) +
    n.connections.sum Connection.writeWork

/-- What bounds the steps still to come, compared from left to right. -/
def work (n : Network) : Nat × Nat × Nat := (n.readWork, n.queue.length, n.writeWork)

/-- Fewer steps still to come. -/
def Before (a b : Nat × Nat × Nat) : Prop := Prod.Lex (· < ·) (Prod.Lex (· < ·) (· < ·)) a b

theorem turn?_eq_some {n m : Network} {id : ClientId} {side : Client → Connection → Option Turn}
    (h : n.turn? id side = some m) :
    ∃ c k t, n.client? id = some c ∧ n.connection? id = some k ∧ side c k = some t ∧
      n.apply id t = m := by
  unfold turn? at h
  split at h
  · next c k hc hk =>
      obtain ⟨t, ht, hm⟩ := Option.map_eq_some_iff.mp h
      exact ⟨c, k, t, hc, hk, ht, hm⟩
  · cases h

@[simp] theorem connections_enqueue (n : Network) (requests : List Request) :
    (n.enqueue requests).connections = n.connections := by
  unfold enqueue
  split <;> rfl

@[simp] theorem registry_enqueue (n : Network) (requests : List Request) :
    (n.enqueue requests).registry = n.registry := by
  unfold enqueue
  split <;> rfl

theorem readWork_apply {n : Network} {id : ClientId} {k : Connection} (t : Turn)
    (hk : n.connection? id = some k) :
    (n.apply id t).readWork + k.readWork = n.readWork + t.connection.readWork := by
  simp only [readWork, apply, connections_enqueue]
  exact Roster.sum_set t.connection Connection.readWork hk

theorem writeWork_apply {n : Network} {id : ClientId} {c : Client} {k : Connection} (t : Turn)
    (hc : n.client? id = some c) (hk : n.connection? id = some k) :
    (n.apply id t).writeWork + (2 * c.mailbox.pending.length + k.writeWork) =
      n.writeWork + (2 * t.client.mailbox.pending.length + t.connection.writeWork) := by
  simp only [writeWork, apply, connections_enqueue, registry_enqueue]
  have h₁ := Roster.sum_set t.client (fun c => 2 * c.mailbox.pending.length) hc
  have h₂ := Roster.sum_set t.connection Connection.writeWork hk
  simp only [setClient, setConnection, passTurn] at h₁ h₂ ⊢
  omega

theorem queue_apply_of_nil {n : Network} {id : ClientId} {t : Turn} (h : t.requests = []) :
    (n.apply id t).queue = n.queue := by
  unfold apply enqueue
  rw [h]
  split <;> simp [setConnection, setClient, passTurn]

theorem before_of_readStep {n m : Network} {id : ClientId} (h : n.readStep? id = some m) :
    Before m.work n.work := by
  obtain ⟨c, k, t, -, hk, ht, rfl⟩ := turn?_eq_some h
  have := readWork_apply t hk
  have := Connection.readWork_lt_of_readTurn ht
  exact Prod.Lex.left _ _ (by omega)

theorem before_of_stopStep {n m : Network} {id : ClientId} (h : n.stopStep? id = some m) :
    Before m.work n.work := by
  obtain ⟨c, k, t, -, hk, ht, rfl⟩ := turn?_eq_some h
  have := readWork_apply t hk
  have := Connection.readWork_lt_of_stopTurn ht
  exact Prod.Lex.left _ _ (by omega)

theorem before_of_writeStep {n m : Network} {id : ClientId} (h : n.writeStep? id = some m) :
    Before m.work n.work := by
  obtain ⟨c, k, t, hc, hk, ht, rfl⟩ := turn?_eq_some h
  have hr := readWork_apply t hk
  rcases Connection.work_lt_of_writeTurn ht with hlt | ⟨heq, hq, hlt⟩
  · exact Prod.Lex.left _ _ (by omega)
  · have hw := writeWork_apply t hc hk
    have he : (n.apply id t).readWork = n.readWork := by omega
    unfold Before work
    rw [he, queue_apply_of_nil hq]
    exact Prod.Lex.right _ (Prod.Lex.right _ (by omega))

theorem before_of_registryStep {n m : Network} (h : n.registryStep? = some m) :
    Before m.work n.work := by
  unfold registryStep? at h
  split at h
  · cases h
  · next request rest hq =>
      cases h
      refine Prod.Lex.right _ (Prod.Lex.left _ _ ?_)
      rw [hq]
      dsimp only
      split <;> simp

/-- Every step leaves fewer steps to come. -/
theorem before_of_step {n m : Network} {task : Task} (h : n.step? task = some m) :
    Before m.work n.work := by
  cases task with
  | read id => exact before_of_readStep h
  | stop id => exact before_of_stopStep h
  | write id => exact before_of_writeStep h
  | registry => exact before_of_registryStep h

end Network
end PositionRelay
