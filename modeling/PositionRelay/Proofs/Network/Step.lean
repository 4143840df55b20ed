import PositionRelay.Proofs.Network.Run
import PositionRelay.Proofs.Network.Turn
import PositionRelay.Proofs.Registry.FanOut

/-!
# Looking at a network

A network is looked at through the client and the connection of one identifier, the registry and the
queue of requests. The equations below say what each operation does to what is seen there. `made` says
what a move from outside can come to, and `step?_cases` what a step of a task is: a request handled by
the registry, or one turn of one connection.
-/
namespace PositionRelay.Network

section
variable (n : Network) (id j : ClientId)

@[simp] theorem client?_setClient (c : Client) :
    (n.setClient id c).client? j = if j = id then some c else n.client? j := by
  simp [client?, setClient]

@[simp] theorem connection?_setClient (c : Client) :
    (n.setClient id c).connection? j = n.connection? j := rfl

@[simp] theorem client?_setConnection (k : Connection) :
    (n.setConnection id k).client? j = n.client? j := rfl

@[simp] theorem connection?_setConnection (k : Connection) :
    (n.setConnection id k).connection? j = if j = id then some k else n.connection? j := by
  simp [connection?, setConnection]

@[simp] theorem client?_enqueue (requests : List Request) :
    (n.enqueue requests).client? j = n.client? j := by
  unfold client?
  rw [registry_enqueue]

@[simp] theorem connection?_enqueue (requests : List Request) :
    (n.enqueue requests).connection? j = n.connection? j := by
  unfold connection?
  rw [connections_enqueue]

@[simp] theorem ids_enqueue (requests : List Request) : (n.enqueue requests).ids = n.ids := by
  unfold enqueue
  split <;> rfl

theorem queue_enqueue (requests : List Request) :
    (n.enqueue requests).queue = if n.registry.running then n.queue ++ requests else n.queue := by
  unfold enqueue
  split <;> rfl

theorem client?_modifyClient (f : Client → Client) :
    (n.modifyClient id f).client? j = if j = id then (n.client? j).map f else n.client? j := by
  unfold modifyClient
  split
  · next c hc =>
      rw [client?_setClient]
      split
      · next he => rw [he, hc]; rfl
      · rfl
  · next hc =>
      split
      · next he => rw [he, hc]; rfl
      · rfl

theorem connection?_modifyConnection (f : Connection → Connection) :
    (n.modifyConnection id f).connection? j =
      if j = id then (n.connection? j).map f else n.connection? j := by
  unfold modifyConnection
  split
  · next k hk =>
      rw [connection?_setConnection]
      split
      · next he => rw [he, hk]; rfl
      · rfl
  · next hk =>
      split
      · next he => rw [he, hk]; rfl
      · rfl

@[simp] theorem connections_modifyClient (f : Client → Client) :
    (n.modifyClient id f).connections = n.connections := by
  unfold modifyClient
  split <;> rfl

@[simp] theorem members_modifyClient (f : Client → Client) :
    (n.modifyClient id f).registry.members = n.registry.members := by
  unfold modifyClient
  split <;> rfl

@[simp] theorem running_modifyClient (f : Client → Client) :
    (n.modifyClient id f).registry.running = n.registry.running := by
  unfold modifyClient
  split <;> rfl

@[simp] theorem queue_modifyClient (f : Client → Client) :
    (n.modifyClient id f).queue = n.queue := by
  unfold modifyClient
  split <;> rfl

@[simp] theorem ids_modifyClient (f : Client → Client) : (n.modifyClient id f).ids = n.ids := by
  unfold modifyClient
  split <;> rfl

@[simp] theorem registry_modifyConnection (f : Connection → Connection) :
    (n.modifyConnection id f).registry = n.registry := by
  unfold modifyConnection
  split <;> rfl

@[simp] theorem queue_modifyConnection (f : Connection → Connection) :
    (n.modifyConnection id f).queue = n.queue := by
  unfold modifyConnection
  split <;> rfl

@[simp] theorem ids_modifyConnection (f : Connection → Connection) :
    (n.modifyConnection id f).ids = n.ids := by
  unfold modifyConnection
  split <;> rfl

@[simp] theorem connection?_modifyClient (f : Client → Client) :
    (n.modifyClient id f).connection? j = n.connection? j := by
  unfold connection?
  rw [connections_modifyClient]

@[simp] theorem client?_modifyConnection (f : Connection → Connection) :
    (n.modifyConnection id f).client? j = n.client? j := by
  unfold client?
  rw [registry_modifyConnection]

theorem isSome_connection?_modifyConnection (f : Connection → Connection) :
    ((n.modifyConnection id f).connection? j).isSome = (n.connection? j).isSome := by
  rw [connection?_modifyConnection]
  split
  · rw [Option.isSome_map]
  · rfl

theorem client?_apply (t : Turn) :
    (n.apply id t).client? j = if j = id then some t.client else n.client? j := by
  simp [apply, passTurn, client?, setConnection, setClient]

theorem connection?_apply (t : Turn) :
    (n.apply id t).connection? j = if j = id then some t.connection else n.connection? j := by
  simp [apply, passTurn, connection?, setConnection, setClient]

theorem queue_apply (t : Turn) :
    (n.apply id t).queue =
      if n.registry.running then n.queue ++ t.requests else n.queue := by
  rw [apply, queue_enqueue]
  rfl

@[simp] theorem members_apply (t : Turn) :
    (n.apply id t).registry.members = n.registry.members := by
  rw [apply, registry_enqueue]
  rfl

@[simp] theorem running_apply (t : Turn) :
    (n.apply id t).registry.running = n.registry.running := by
  rw [apply, registry_enqueue]
  rfl

@[simp] theorem ids_apply (t : Turn) : (n.apply id t).ids = n.ids := by
  rw [apply, ids_enqueue]
  rfl

end

theorem make_ask (n : Network) (request : Request) :
    n.make (.ask request) = n.enqueue [request] := by
  simp only [make, ask]
  split
  · rfl
  · next h => simp only [enqueue, if_neg h]; rfl

theorem isFresh_iff {n : Network} {id : ClientId} :
    n.isFresh id = true ↔ ∃ k, n.connection? id = some k ∧ k.phase = .fresh := by
  unfold isFresh
  cases n.connection? id <;> simp

/-- A client and its connection were built under the next identifier. -/
def built (n : Network) (config : Config) (buffer drawX drawY : Nat) : Network :=
  ({ n with ids := ⟨n.ids.upcoming + 1⟩ }.setClient n.ids.upcoming
    (.create n.ids.upcoming (config.spawnCoordinate drawX) (config.spawnCoordinate drawY)
      config.mailboxCapacity)).setConnection n.ids.upcoming
    { config, inbound := { capacity := buffer }, outbound := { capacity := buffer } }

theorem client?_built (n : Network) (config : Config) (buffer drawX drawY : Nat) (j : ClientId) :
    (n.built config buffer drawX drawY).client? j =
      if j = n.ids.upcoming then
        some (.create n.ids.upcoming (config.spawnCoordinate drawX) (config.spawnCoordinate drawY)
          config.mailboxCapacity)
      else n.client? j := by
  rw [built, client?_setConnection, client?_setClient]
  rfl

theorem connection?_built (n : Network) (config : Config) (buffer drawX drawY : Nat)
    (j : ClientId) :
    (n.built config buffer drawX drawY).connection? j =
      if j = n.ids.upcoming then
        some { config, inbound := { capacity := buffer }, outbound := { capacity := buffer } }
      else n.connection? j := by
  rw [built, connection?_setConnection]
  rfl

theorem make_build (n : Network) (config : Config) (buffer drawX drawY : Nat) :
    n.make (.build config buffer drawX drawY) = n ∨
      (config.validate = .ok () ∧ 0 < n.ids.upcoming ∧
        n.make (.build config buffer drawX drawY) = n.built config buffer drawX drawY) := by
  simp only [make, accept]
  cases config.validate with
  | error e => exact .inl rfl
  | ok u =>
      unfold IdentifierSource.issue?
      by_cases hpos : 0 < n.ids.upcoming
      · rw [if_pos hpos]
        exact .inr ⟨rfl, hpos, rfl⟩
      · rw [if_neg hpos]
        exact .inl rfl

@[simp] theorem members_abandon (n : Network) (id : ClientId) (phase : Phase) :
    (n.abandon id phase).registry.members = n.registry.members := by simp [abandon]

@[simp] theorem queue_abandon (n : Network) (id : ClientId) (phase : Phase) :
    (n.abandon id phase).queue = n.queue := by simp [abandon]

@[simp] theorem ids_abandon (n : Network) (id : ClientId) (phase : Phase) :
    (n.abandon id phase).ids = n.ids := by simp [abandon]

theorem connection?_abandon (n : Network) (id j : ClientId) (phase : Phase) :
    (n.abandon id phase).connection? j =
      if j = id then (n.connection? j).map fun k => { k with phase }.closePipes
      else n.connection? j := by
  rw [abandon, connection?_modifyClient, connection?_modifyConnection]

theorem client?_abandon (n : Network) (id j : ClientId) (phase : Phase) :
    (n.abandon id phase).client? j =
      if j = id then (n.client? j).map Client.closeMailbox else n.client? j := by
  rw [abandon, client?_modifyClient, client?_modifyConnection]

/-- What a move from outside can come to. -/
inductive Made (n : Network) : Network → Prop where
  | nothing : Made n n
  | built (hpos : 0 < n.ids.upcoming) (config : Config) (buffer drawX drawY : Nat) :
      Made n (n.built config buffer drawX drawY)
  /-- A connection is started or a peer does something; the first comes with a request to join. -/
  | connection (id : ClientId) (f : Connection → Connection) (requests : List Request) :
      Made n ((n.modifyConnection id f).enqueue requests)
  | abandoned (id : ClientId) (phase : Phase) : Made n (n.abandon id phase)
  | client (id : ClientId) (f : Client → Client) (still : ∀ c, (f c).record = c.record) :
      Made n (n.modifyClient id f)
  | captured (id : ClientId) : Made n (n.modifyClient id Client.settle)
  | asked (request : Request) : Made n (n.enqueue [request])
  | advanced (d : Duration) : Made n (n.advance d)

theorem enqueue_nil (n : Network) : n.enqueue [] = n := by
  unfold enqueue
  split
  · rw [List.append_nil]
  · rfl

theorem Made.peer (n : Network) (id : ClientId) (f : Connection → Connection) :
    n.Made (n.modifyConnection id f) := by
  have h := Made.connection (n := n) id f []
  rwa [enqueue_nil] at h

theorem made (n : Network) (move : Move) : n.Made (n.make move) := by
  cases move with
  | build config buffer drawX drawY =>
      rcases n.make_build config buffer drawX drawY with he | ⟨-, hpos, he⟩
      · rw [he]
        exact .nothing
      · rw [he]
        exact .built hpos config buffer drawX drawY
  | start id =>
      unfold make run
      dsimp only
      split
      · split
        · exact .connection id _ _
        · exact .abandoned id _
      · exact .nothing
  | discard id =>
      unfold make discard
      dsimp only
      split
      · exact .abandoned id _
      · exact .nothing
  | deliver id bytes =>
      unfold make deliver
      dsimp only
      split
      · exact .peer n id _
      · exact .nothing
  | withdraw id count => exact .peer n id _
  | endStream id => exact .peer n id _
  | hangUp id => exact .peer n id _
  | disconnect id => exact .client id _ fun _ => rfl
  | capture id => exact .captured id
  | offer id batch =>
      refine .client id _ fun c => ?_
      rw [Client.getD_offer]
      rfl
  | ask request =>
      rw [make_ask]
      exact .asked request
  | advance d => exact .advanced d

/-- Moves from outside make or unmake no members. -/
theorem Made.members {n m : Network} (h : n.Made m) : m.registry.members = n.registry.members := by
  cases h with
  | nothing => rfl
  | built => rfl
  | connection => simp
  | abandoned => simp
  | client => simp
  | captured => simp
  | asked => simp
  | advanced => rfl

/-- Moves from outside do not handle requests. -/
theorem Made.queue {n m : Network} (h : n.Made m) : ∃ later, m.queue = n.queue ++ later := by
  have same : ∀ {m : Network}, m.queue = n.queue → ∃ later, m.queue = n.queue ++ later :=
    fun h => ⟨[], by rw [h, List.append_nil]⟩
  have added : ∀ {m : Network} (requests : List Request), m.queue = n.queue →
      ∃ later, (m.enqueue requests).queue = n.queue ++ later := by
    intro m requests h
    rw [queue_enqueue, h]
    split
    · exact ⟨requests, rfl⟩
    · exact ⟨[], (List.append_nil _).symm⟩
  cases h with
  | nothing => exact same rfl
  | built => exact same rfl
  | connection => exact added _ (queue_modifyConnection ..)
  | abandoned => exact same (queue_abandon ..)
  | client => exact same (queue_modifyClient ..)
  | captured => exact same (queue_modifyClient ..)
  | asked => exact added _ rfl
  | advanced => exact same rfl

/-- The registry handles the oldest request. -/
theorem registryStep?_eq_some {n m : Network} (h : n.registryStep? = some m) :
    ∃ request rest, n.queue = request :: rest ∧
      m.registry = (n.registry.handle request).registry ∧
      m.queue = (if (n.registry.handle request).registry.running then rest else []) ∧
      m.connections = n.connections ∧ m.ids = n.ids := by
  unfold registryStep? at h
  split at h
  · cases h
  · next request rest hq =>
      cases h
      exact ⟨request, rest, hq, rfl, rfl, rfl, rfl⟩

/-- The registry waits only for requests. -/
theorem registryStep?_eq_none {n : Network} (h : n.registryStep? = none) : n.queue = [] := by
  unfold registryStep? at h
  split at h
  · assumption
  · cases h

/-- One turn of a connection. -/
structure TurnOf (n : Network) (id : ClientId) (c : Client) (k : Connection) (t : Turn) : Prop where
  client : n.client? id = some c
  connection : n.connection? id = some k
  sides : ∃ reader writer, k.phase = .running reader writer ∧
    (reader.live = 1 ∧ Connection.ReadTurn k n.registry.running id c writer t ∨
      writer.live = 1 ∧ Connection.WriteTurn k id c reader t)

theorem TurnOf.outcome {n : Network} {id : ClientId} {c : Client} {k : Connection} {t : Turn}
    (h : n.TurnOf id c k t) : k.Outcome id c t := by
  obtain ⟨reader, writer, hp, ⟨hr, ht⟩ | ⟨hw, ht⟩⟩ := h.sides
  · exact ht.outcome hp hr
  · exact ht.outcome hp hw

theorem TurnOf.enters {n : Network} {id : ClientId} {c : Client} {k : Connection} {t : Turn}
    (h : n.TurnOf id c k t) : t.connection.Entered := by
  obtain ⟨reader, writer, -, ⟨-, ht⟩ | ⟨-, ht⟩⟩ := h.sides
  · exact ht.enters
  · exact ht.enters

theorem step?_cases {n m : Network} {task : Task} (h : n.step? task = some m) :
    (task = .registry ∧ n.registryStep? = some m) ∨
      (task ≠ .registry ∧ ∃ id c k t, n.TurnOf id c k t ∧ m = n.apply id t) := by
  cases task with
  | registry => exact .inl ⟨rfl, h⟩
  | read id =>
      obtain ⟨c, k, t, hc, hk, ht, hm⟩ := turn?_eq_some h
      obtain ⟨reader, writer, hp, hr, hturn⟩ := Connection.readTurn?_cases ht
      exact .inr ⟨by simp, id, c, k, t, ⟨hc, hk, reader, writer, hp, .inl ⟨hr, hturn⟩⟩, hm.symm⟩
  | stop id =>
      obtain ⟨c, k, t, hc, hk, ht, hm⟩ := turn?_eq_some h
      obtain ⟨reader, writer, hp, hw, hturn⟩ := Connection.stopTurn?_cases ht
      exact .inr ⟨by simp, id, c, k, t, ⟨hc, hk, reader, writer, hp, .inr ⟨hw, hturn⟩⟩, hm.symm⟩
  | write id =>
      obtain ⟨c, k, t, hc, hk, ht, hm⟩ := turn?_eq_some h
      obtain ⟨reader, writer, hp, hw, hturn⟩ := Connection.writeTurn?_cases ht
      exact .inr ⟨by simp, id, c, k, t, ⟨hc, hk, reader, writer, hp, .inr ⟨hw, hturn⟩⟩, hm.symm⟩

/-- The identifiers of all connections were issued, and none of them will be issued again. -/
def Issued (n : Network) : Prop :=
  ∀ id, (n.connection? id).isSome → n.ids.upcoming ≤ 0 ∨ id < n.ids.upcoming

/-- The counter of identifiers moves on, or it has come to its end. -/
theorem upcoming_succ {a : ClientId} (h : 0 < a) : a + 1 ≤ 0 ∨ a < a + 1 := by
  have hlt := Int32.toInt_lt a
  rw [Int32.lt_iff_toInt_lt, Int32.toInt_zero] at h
  rw [Int32.le_iff_toInt_le, Int32.lt_iff_toInt_lt, Int32.toInt_add, Int32.toInt_zero,
    Int32.toInt_one, Int.bmod]
  split <;> omega

theorem not_le_of_pos {a : ClientId} (h : 0 < a) : ¬ a ≤ 0 := by
  rw [Int32.lt_iff_toInt_lt] at h
  rw [Int32.le_iff_toInt_le]
  omega

/-- The next identifier has not been issued yet. -/
theorem Issued.connection?_upcoming {n : Network} (h : n.Issued) (hpos : 0 < n.ids.upcoming) :
    n.connection? n.ids.upcoming = none := by
  cases hk : n.connection? n.ids.upcoming with
  | none => rfl
  | some k =>
      rcases h _ (by rw [hk]; rfl) with hle | hlt
      · exact absurd hle (not_le_of_pos hpos)
      · exact absurd hlt Int32.lt_irrefl

theorem Issued.of_alike {n m : Network} (h : n.Issued)
    (hconnection : ∀ id, (m.connection? id).isSome = (n.connection? id).isSome)
    (hids : m.ids = n.ids) : m.Issued := by
  intro id hid
  rw [hids]
  exact h id ((hconnection id).symm.trans hid)

theorem issued_empty (ids : IdentifierSource) : ({ ids } : Network).Issued := by
  intro id hid
  cases hid

theorem Issued.built {n : Network} (h : n.Issued) (hpos : 0 < n.ids.upcoming) (config : Config)
    (buffer drawX drawY : Nat) : (n.built config buffer drawX drawY).Issued := by
  intro id hid
  change n.ids.upcoming + 1 ≤ 0 ∨ id < n.ids.upcoming + 1
  rcases upcoming_succ hpos with hend | hlt
  · exact .inl hend
  · refine .inr ?_
    rw [connection?_built] at hid
    split at hid
    · next he =>
        rw [he]
        exact hlt
    · rcases h id hid with hle | hid
      · exact absurd hle (not_le_of_pos hpos)
      · exact Int32.lt_trans hid hlt

theorem Made.issued {n m : Network} (h : n.Made m) (hi : n.Issued) : m.Issued := by
  have unchanged : ∀ {m : Network}, (∀ j, m.connection? j = n.connection? j) → m.ids = n.ids →
      m.Issued := fun hconnection hids => hi.of_alike (fun j => by rw [hconnection]) hids
  cases h with
  | nothing => exact hi
  | built hpos config buffer drawX drawY => exact hi.built hpos config buffer drawX drawY
  | connection id f requests =>
      refine hi.of_alike (fun j => ?_) (by simp)
      rw [connection?_enqueue, isSome_connection?_modifyConnection]
  | abandoned id phase =>
      refine hi.of_alike (fun j => ?_) (ids_abandon ..)
      rw [connection?_abandon]
      split
      · rw [Option.isSome_map]
      · rfl
  | client => exact unchanged (fun j => connection?_modifyClient ..) (ids_modifyClient ..)
  | captured => exact unchanged (fun j => connection?_modifyClient ..) (ids_modifyClient ..)
  | asked => exact unchanged (fun j => connection?_enqueue ..) (ids_enqueue ..)
  | advanced => exact hi

theorem Issued.react {n : Network} (h : n.Issued) (e : Event) : (n.react e).Issued := by
  cases e with
  | move move => exact (n.made move).issued h
  | task task =>
      cases hs : n.step? task with
      | none =>
          rw [react_of_none hs]
          exact h
      | some m =>
          rw [react_of_some hs]
          rcases step?_cases hs with ⟨-, hr⟩ | ⟨-, id, c, k, t, ht, rfl⟩
          · obtain ⟨request, rest, -, -, -, hconnections, hids⟩ := registryStep?_eq_some hr
            refine h.of_alike (fun j => ?_) hids
            rw [connection?, hconnections]
            rfl
          · refine h.of_alike (fun j => ?_) (ids_apply ..)
            rw [connection?_apply]
            split
            · next he => rw [he, ht.connection]; rfl
            · rfl

end PositionRelay.Network
