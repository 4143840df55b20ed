import PositionRelay.Proofs.Network.Step
import PositionRelay.Proofs.Registry.Offers

/-!
# What a peer is sent

A batch that a mailbox took waits there, is taken out to be written as a frame, goes into the pipe
piece by piece, and is read by the peer. As long as the write side can go on, what was read, what is
in the pipe, what is left of the batch being written and the frames of the waiting batches are
together the frames of all batches that the mailbox took, in their order. A write side that ends
leaves off somewhere in this sequence of bytes, and what the peer gets is the part before
(`ledger_balances`).

Nothing is assumed of the run: the peer may read when it likes and as much as it likes, and the pipe
may have any size.
-/
namespace PositionRelay

/-- The write side has not come to its end; it may not have begun. -/
def Phase.canWrite : Phase → Bool
  | .fresh => true
  | .running _ writer => writer.live == 1
  | _ => false

theorem Phase.canWrite_iff {p : Phase} :
    p.canWrite = true ↔ p.isLive .write = true ∨ p = .fresh := by
  cases p <;> simp [canWrite, isLive]

/-- What is left of the batch being written. -/
def Writer.unwritten : Writer → Bytes
  | .writing rest _ => rest
  | _ => []

/-- What a peer has read, and the batches that the mailbox on the other side took. -/
structure Ledger where
  received : Bytes := []
  accepted : List Batch := []
deriving DecidableEq, Repr

namespace Ledger

def plus (a b : Ledger) : Ledger := ⟨a.received ++ b.received, a.accepted ++ b.accepted⟩

/-- The frames of the accepted batches. -/
def frames (a : Ledger) : Bytes := a.accepted.flatMap Wire.encodeFrame

@[simp] theorem plus_empty (a : Ledger) : a.plus {} = a := by simp [plus]

end Ledger

theorem Client.mailbox_fail (c : Client) (side : Side) : (c.fail side).mailbox = c.mailbox := by
  unfold fail
  split
  · rfl
  · cases side <;> rfl

namespace Connection

def unwritten (k : Connection) : Bytes :=
  match k.phase with
  | .running _ writer => writer.unwritten
  | _ => []

/-- Bytes on their way to the peer, if these batches wait in the mailbox. -/
def outgoing (k : Connection) (waiting : List Batch) : Bytes :=
  k.outbound.bytes ++ k.unwritten ++ waiting.flatMap Wire.encodeFrame

/-- The ledger of a connection agrees with what is on its way. -/
structure Carries (k : Connection) (waiting : List Batch) (a : Ledger) : Prop where
  intact : k.phase.canWrite = true → a.received ++ k.outgoing waiting = a.frames
  begun : a.received ++ k.outbound.bytes <+: a.frames

/-- Bytes move on in their order, or the write side ends and leaves the pipe as it is. -/
structure Advances (k : Connection) (waiting : List Batch) (k' : Connection)
    (waiting' : List Batch) : Prop where
  goesOn : k'.phase.canWrite = true →
    k.phase.canWrite = true ∧ k'.outgoing waiting' = k.outgoing waiting
  ended : k'.phase.canWrite = false → k'.outbound.bytes = k.outbound.bytes

section
variable {k k' j : Connection} {waiting waiting' : List Batch} {a : Ledger} {id : ClientId}
  {c : Client} {reader reader' : Reader} {writer : Writer} {t : Turn}

theorem begun_of_intact (h : a.received ++ k.outgoing waiting = a.frames) :
    a.received ++ k.outbound.bytes <+: a.frames := by
  rw [← h, outgoing, List.append_assoc, ← List.append_assoc]
  exact List.prefix_append ..

theorem Carries.advance (h : k.Carries waiting a) (ha : k.Advances waiting k' waiting') :
    k'.Carries waiting' a := by
  cases hlive : k'.phase.canWrite with
  | true =>
      obtain ⟨hwas, hsame⟩ := ha.goesOn hlive
      have hintact : a.received ++ k'.outgoing waiting' = a.frames := by
        rw [hsame, h.intact hwas]
      exact ⟨fun _ => hintact, begun_of_intact hintact⟩
  | false =>
      refine ⟨fun hc => absurd hc (by simp [hlive]), ?_⟩
      rw [ha.ended hlive]
      exact h.begun

/-- The mailbox takes further batches. -/
theorem Carries.accept (h : k.Carries waiting a) (batches : List Batch) :
    k.Carries (waiting ++ batches) (a.plus { accepted := batches }) := by
  have hframes : (a.plus { accepted := batches }).frames =
      a.frames ++ batches.flatMap Wire.encodeFrame := List.flatMap_append
  have hreceived : (a.plus { accepted := batches }).received = a.received := List.append_nil _
  constructor
  · intro hlive
    rw [hframes, hreceived, ← h.intact hlive, outgoing, outgoing, List.flatMap_append]
    simp only [List.append_assoc]
  · rw [hframes, hreceived]
    exact h.begun.trans (List.prefix_append ..)

/-- The peer reads from the pipe. -/
theorem Carries.withdraw (h : k.Carries waiting a) (count : Nat) :
    Carries { k with outbound := k.outbound.drop count } waiting
      (a.plus { received := k.outbound.bytes.take count }) := by
  have hframes : (a.plus { received := k.outbound.bytes.take count }).frames = a.frames := by
    simp [Ledger.frames, Ledger.plus]
  have hpipe : (a.plus { received := k.outbound.bytes.take count }).received ++
      k.outbound.bytes.drop count = a.received ++ k.outbound.bytes := by
    simp only [Ledger.plus, List.append_assoc, List.take_append_drop]
  constructor
  · intro hlive
    calc (a.plus { received := k.outbound.bytes.take count }).received ++
          ({ k with outbound := k.outbound.drop count } : Connection).outgoing waiting
        = (a.plus { received := k.outbound.bytes.take count }).received ++
            k.outbound.bytes.drop count ++
            (k.unwritten ++ waiting.flatMap Wire.encodeFrame) := by
          simp only [outgoing, unwritten, Pipe.drop, List.append_assoc]
      _ = a.received ++ k.outgoing waiting := by
          rw [hpipe, outgoing, List.append_assoc, List.append_assoc]
      _ = (a.plus { received := k.outbound.bytes.take count }).frames := by
          rw [h.intact hlive, hframes]
  · rw [hframes]
    exact hpipe ▸ h.begun

theorem canWrite_become (k : Connection) (reader : Reader) (writer : Writer) :
    (k.become reader writer).phase.canWrite = (writer.live == 1) := by
  cases reader <;> cases writer <;> rfl

theorem outbound_bytes_become (k : Connection) (reader : Reader) (writer : Writer) :
    (k.become reader writer).outbound.bytes = k.outbound.bytes := by
  cases reader <;> cases writer <;> rfl

theorem unwritten_become (k : Connection) (reader : Reader) (writer : Writer) :
    (k.become reader writer).unwritten = writer.unwritten := by
  cases reader <;> cases writer <;> rfl

theorem outgoing_become (k : Connection) (reader : Reader) (writer : Writer) :
    (k.become reader writer).outgoing waiting =
      k.outbound.bytes ++ writer.unwritten ++ waiting.flatMap Wire.encodeFrame := by
  rw [outgoing, outbound_bytes_become, unwritten_become]

theorem advances_of_alike (hphase : k'.phase = k.phase) (houtbound : k'.outbound = k.outbound) :
    k.Advances waiting k' waiting := by
  refine ⟨fun hlive => ⟨hphase ▸ hlive, ?_⟩, fun _ => by rw [houtbound]⟩
  rw [outgoing, outgoing, unwritten, unwritten, hphase, houtbound]

/-- A turn after which the write side still runs. -/
theorem advances_of_live {writer' : Writer} (hp : k.phase = .running reader writer)
    (hlive : writer.live = 1)
    (hsame : j.outbound.bytes ++ writer'.unwritten ++ waiting'.flatMap Wire.encodeFrame =
      k.outbound.bytes ++ writer.unwritten ++ waiting.flatMap Wire.encodeFrame)
    (hlive' : writer'.live = 1) : k.Advances waiting (j.become reader' writer') waiting' := by
  have hcan : (j.become reader' writer').phase.canWrite = true := by
    rw [canWrite_become, hlive']
    rfl
  refine ⟨fun _ => ⟨by rw [hp]; simp [Phase.canWrite, hlive], ?_⟩, ?_⟩
  · rw [outgoing_become, hsame, outgoing, unwritten, hp]
  · intro hc
    rw [hcan] at hc
    cases hc

/-- The write side stops, and its mailbox is dropped. -/
theorem advances_of_stopped (k : Connection) (waiting waiting' : List Batch) (reader : Reader)
    (why : Stop) : k.Advances waiting (k.become reader (.stopped why)) waiting' := by
  refine ⟨?_, fun _ => outbound_bytes_become ..⟩
  intro hc
  rw [canWrite_become] at hc
  cases hc

/-- The read side has no part in what is sent. -/
theorem ReadTurn.advances {listening : Bool} (h : ReadTurn k listening id c writer t)
    (hp : k.phase = .running reader writer) :
    k.Advances c.mailbox.pending t.connection t.client.mailbox.pending := by
  have beside : ∀ (inbound : Pipe) (reader' : Reader), k.Advances c.mailbox.pending
      ({ k with inbound }.become reader' writer) c.mailbox.pending := by
    intro inbound reader'
    refine ⟨fun hc => ⟨?_, ?_⟩, fun _ => outbound_bytes_become ..⟩
    · rw [canWrite_become] at hc
      rw [hp]
      exact hc
    · rw [outgoing_become, outgoing, unwritten, hp]
  cases h with
  | told => exact beside k.inbound _
  | failed inbound why =>
      rw [failReading, Client.mailbox_fail]
      exact beside inbound _
  | onward inbound reader' live => exact beside inbound reader'
  | merged inbound reader' u live heard => exact beside inbound reader'
  | unheard inbound u unheard =>
      rw [failReading, Client.mailbox_fail]
      exact beside inbound _

theorem stopTurn?_advances (h : k.stopTurn? c = some t) :
    k.Advances c.mailbox.pending t.connection t.client.mailbox.pending := by
  unfold stopTurn? at h
  split at h
  · split at h
    · cases h
      exact advances_of_stopped ..
    · cases h
  · split at h
    · cases h
      exact advances_of_stopped ..
    · cases h
  · cases h

/-- The write side takes out a batch, puts into the pipe what fits of it, or fails. -/
theorem writeTurn?_advances {now : Moment} (h : k.writeTurn? now id c = some t) :
    k.Advances c.mailbox.pending t.connection t.client.mailbox.pending := by
  unfold writeTurn? at h
  split at h
  · next reader hp =>
      split at h
      · cases h
      · next batch mailbox hm =>
          cases h
          refine advances_of_live hp rfl ?_ rfl
          unfold Mailbox.take? at hm
          split at hm
          · cases hm
          · next first rest hpending =>
              cases hm
              rw [hpending, List.flatMap_cons, ← List.append_assoc]
              simp only [Writer.unwritten, List.append_nil]
  · next reader rest since hp =>
      dsimp only at h
      split at h
      · cases h
        exact advances_of_stopped ..
      · split at h
        · split at h
          · cases h
            exact advances_of_stopped ..
          · cases h
        · cases h
          refine advances_of_live hp rfl ?_ (by split <;> rfl)
          -- What went into the pipe and what is left are what there was to write.
          have hleft : ∀ left : Bytes,
              (if left.isEmpty then Writer.idle else .writing left since).unwritten = left := by
            intro left
            cases left <;> rfl
          rw [hleft]
          have hrest := List.prefix_iff_eq_append.mp (List.take_prefix k.outbound.space rest)
          simp only [Pipe.append, Writer.unwritten, List.append_assoc]
          rw [← List.append_assoc (List.take ..), hrest]
  · cases h

end

end Connection

namespace Network

/-- What an event adds to the ledger of a connection. -/
def ledgerIn (n : Network) (e : Event) (id : ClientId) : Ledger :=
  match e with
  | .move (.withdraw j count) =>
      { received := if j = id then
          (n.connection? id).elim [] fun k => k.outbound.bytes.take count else [] }
  | .move (.offer j batch) =>
      { accepted := if j = id ∧ n.registry.takes id = true then [batch] else [] }
  | .task .registry =>
      { accepted := n.queue.head?.elim [] fun request =>
          takenBy id (n.registry.handle request).rounds }
  | _ => {}

def ledgerOf (past : List (Network × Event)) (id : ClientId) : Ledger :=
  past.foldl (fun a s => a.plus (s.1.ledgerIn s.2 id)) {}

/-- The ledger of a connection agrees with what is on its way. A client is never without its
connection. -/
structure Conserves (n : Network) (id : ClientId) (a : Ledger) : Prop where
  absent : n.connection? id = none → n.client? id = none ∧ a = {}
  carries : ∀ k, n.connection? id = some k → k.Carries (n.registry.pending id) a

theorem pending_eq (n : Network) (id : ClientId) :
    n.registry.pending id = (n.client? id).elim [] fun c => c.mailbox.pending := rfl

section
variable {n m : Network} {id : ClientId} {a : Ledger}

/-- What the peer got are frames of what the client took. -/
theorem Conserves.received_of_accepted (h : n.Conserves id a) :
    a.received <+: a.accepted.flatMap Wire.encodeFrame := by
  cases hk : n.connection? id with
  | none =>
      rw [(h.absent hk).2]
      exact List.nil_prefix
  | some k => exact (List.prefix_append ..).trans (h.carries k hk).begun

/-- The connection is as before, and the mailbox has taken some batches. -/
theorem Conserves.accept (h : n.Conserves id a) (batches : List Batch)
    (hconnection : m.connection? id = n.connection? id)
    (hclient : n.client? id = none → m.client? id = none)
    (hpending : m.registry.pending id = n.registry.pending id ++ batches) :
    m.Conserves id (a.plus { accepted := batches }) := by
  constructor
  · intro hk
    obtain ⟨hc, ha⟩ := h.absent (hconnection.symm.trans hk)
    have hnone : batches = [] := by
      rw [pending_eq, pending_eq, hc, hclient hc] at hpending
      exact hpending.symm
    exact ⟨hclient hc, by rw [ha, hnone]; rfl⟩
  · intro k hk
    rw [hpending]
    exact (h.carries k (hconnection.symm.trans hk)).accept batches

/-- The connection goes on from where it was. -/
theorem Conserves.advance (h : n.Conserves id a)
    (hconnection : n.connection? id = none → m.connection? id = none)
    (hclient : n.client? id = none → m.client? id = none)
    (hadvances : ∀ k, n.connection? id = some k → ∃ k', m.connection? id = some k' ∧
      k.Advances (n.registry.pending id) k' (m.registry.pending id)) : m.Conserves id a := by
  cases hk : n.connection? id with
  | none =>
      obtain ⟨hc, ha⟩ := h.absent hk
      refine ⟨fun _ => ⟨hclient hc, ha⟩, ?_⟩
      intro k' hk'
      rw [hconnection hk] at hk'
      cases hk'
  | some k =>
      obtain ⟨k', hk', hadvance⟩ := hadvances k hk
      constructor
      · intro hnone
        rw [hk'] at hnone
        cases hnone
      · intro i hi
        rw [hk'] at hi
        cases hi
        exact (h.carries k hk).advance hadvance

theorem Conserves.of_alike (h : n.Conserves id a)
    (hconnection : m.connection? id = n.connection? id)
    (hclient : m.client? id = n.client? id) : m.Conserves id a := by
  have hpending : m.registry.pending id = n.registry.pending id := by
    rw [pending_eq, pending_eq, hclient]
  have hsame := h.accept [] hconnection (fun hc => hclient.trans hc)
    (by rw [hpending, List.append_nil])
  rwa [Ledger.plus_empty] at hsame

theorem Conserves.modifyClient (h : n.Conserves id a) (j : ClientId) {f : Client → Client}
    (hf : ∀ c, (f c).mailbox.pending = c.mailbox.pending) : (n.modifyClient j f).Conserves id a := by
  have hsame := h.accept (m := n.modifyClient j f) [] (connection?_modifyClient ..) ?_ ?_
  · rwa [Ledger.plus_empty] at hsame
  · intro hc
    rw [client?_modifyClient, hc]
    split <;> rfl
  · rw [pending_eq, pending_eq, client?_modifyClient, List.append_nil]
    split
    · cases n.client? id with
      | none => rfl
      | some c => exact hf c
    · rfl

theorem Conserves.modifyConnection (h : n.Conserves id a) (j : ClientId)
    {f : Connection → Connection}
    (hf : ∀ k waiting, n.connection? j = some k → Connection.Advances k waiting (f k) waiting) :
    (n.modifyConnection j f).Conserves id a := by
  refine h.advance ?_ (fun hc => by rw [client?_modifyConnection, hc]) ?_
  · intro hk
    rw [connection?_modifyConnection, hk]
    split <;> rfl
  · intro k hk
    rw [registry_modifyConnection, connection?_modifyConnection, hk]
    split
    · next he => exact ⟨f k, rfl, hf k _ (he ▸ hk)⟩
    · exact ⟨k, rfl, Connection.advances_of_alike rfl rfl⟩

/-- A connection that is given up writes no more. -/
theorem Conserves.abandon (h : n.Conserves id a) (j : ClientId) {phase : Phase}
    (hphase : phase.canWrite = false) : (n.abandon j phase).Conserves id a := by
  refine h.advance ?_ ?_ ?_
  · intro hk
    rw [connection?_abandon, hk]
    split <;> rfl
  · intro hc
    rw [client?_abandon, hc]
    split <;> rfl
  · intro k hk
    rw [connection?_abandon, hk]
    by_cases hid : id = j
    · rw [if_pos hid]
      refine ⟨_, rfl, ?_, fun _ => rfl⟩
      intro hlive
      change phase.canWrite = true at hlive
      rw [hphase] at hlive
      cases hlive
    · rw [if_neg hid, pending_eq (n.abandon j phase), client?_abandon, if_neg hid]
      exact ⟨k, rfl, Connection.advances_of_alike rfl rfl⟩

theorem Conserves.built (h : n.Conserves id a) (hi : n.Issued) (hpos : 0 < n.ids.upcoming)
    (config : Config) (buffer drawX drawY : Nat) :
    (n.built config buffer drawX drawY).Conserves id a := by
  by_cases hid : id = n.ids.upcoming
  · have hempty : a = {} := (h.absent (by rw [hid, hi.connection?_upcoming hpos])).2
    constructor
    · intro hk
      rw [connection?_built, if_pos hid] at hk
      cases hk
    · intro k hk
      rw [connection?_built, if_pos hid] at hk
      cases hk
      rw [pending_eq, client?_built, if_pos hid, hempty]
      exact ⟨fun _ => rfl, List.prefix_rfl⟩
  · refine h.of_alike ?_ ?_
    · rw [connection?_built, if_neg hid]
    · rw [client?_built, if_neg hid]

theorem Conserves.start (h : n.Conserves id a) (j : ClientId) :
    (n.make (.start j)).Conserves id a := by
  change (if n.isFresh j then n.run j else n).Conserves id a
  split
  · next hfresh =>
      obtain ⟨k, hk, hp⟩ := isFresh_iff.mp hfresh
      unfold run
      split
      · refine Conserves.of_alike ?_ (connection?_enqueue ..) (client?_enqueue ..)
        refine h.modifyConnection j ?_
        intro k' waiting hk'
        rw [hk] at hk'
        cases hk'
        have hunwritten : k.unwritten = [] := by rw [Connection.unwritten, hp]
        refine ⟨fun _ => ⟨by rw [hp]; rfl, ?_⟩, fun _ => rfl⟩
        rw [Connection.outgoing, Connection.outgoing, hunwritten]
        rfl
      · exact h.abandon j rfl
  · exact h

theorem Conserves.withdraw (h : n.Conserves id a) (j : ClientId) (count : Nat) :
    (n.make (.withdraw j count)).Conserves id
      (a.plus (n.ledgerIn (.move (.withdraw j count)) id)) := by
  change (n.modifyConnection j _).Conserves id (a.plus { received := if j = id then _ else [] })
  by_cases hj : j = id
  · subst hj
    rw [if_pos rfl]
    constructor
    · intro hk
      rw [connection?_modifyConnection, if_pos rfl, Option.map_eq_none_iff] at hk
      rw [client?_modifyConnection, hk]
      obtain ⟨hc, ha⟩ := h.absent hk
      exact ⟨hc, by rw [ha]; rfl⟩
    · intro k' hk'
      rw [connection?_modifyConnection, if_pos rfl] at hk'
      obtain ⟨k, hk, rfl⟩ := Option.map_eq_some_iff.mp hk'
      rw [registry_modifyConnection, hk]
      exact (h.carries k hk).withdraw count
  · rw [if_neg hj]
    refine (Ledger.plus_empty a).symm ▸ h.of_alike ?_ (client?_modifyConnection ..)
    rw [connection?_modifyConnection, if_neg (Ne.symm hj)]

theorem Conserves.offer (h : n.Conserves id a) (j : ClientId) (batch : Batch) :
    (n.make (.offer j batch)).Conserves id
      (a.plus (n.ledgerIn (.move (.offer j batch)) id)) := by
  refine h.accept _ (connection?_modifyClient ..) ?_ ?_
  · intro hc
    rw [make, client?_modifyClient, hc]
    split <;> rfl
  · rw [make, pending_eq, pending_eq, client?_modifyClient]
    by_cases hj : id = j
    · rw [if_pos hj]
      subst hj
      cases hc : n.client? id with
      | none =>
          have htakes : n.registry.takes id = false := by
            rw [Registry.takes, ← client?, hc]
            rfl
          simp [htakes]
      | some c =>
          have htakes : n.registry.takes id = c.mailbox.refusal?.isNone := by
            rw [Registry.takes, ← client?, hc]
            rfl
          simp [htakes, Client.getD_offer]
    · rw [if_neg hj, if_neg fun hc => hj hc.1.symm, List.append_nil]

theorem Conserves.make (h : n.Conserves id a) (hi : n.Issued) (move : Move) :
    (n.make move).Conserves id (a.plus (n.ledgerIn (.move move) id)) := by
  have quiet : ∀ {m : Network}, m.Conserves id a → m.Conserves id (a.plus {}) := by
    intro m hm
    rw [Ledger.plus_empty]
    exact hm
  cases move with
  | build config buffer drawX drawY =>
      refine quiet ?_
      rcases n.make_build config buffer drawX drawY with he | ⟨-, hpos, he⟩
      · rw [he]
        exact h
      · rw [he]
        exact h.built hi hpos config buffer drawX drawY
  | start j => exact quiet (h.start j)
  | discard j =>
      refine quiet ?_
      change (n.discard j).Conserves id a
      unfold discard
      split
      · exact h.abandon j rfl
      · exact h
  | deliver j bytes =>
      refine quiet ?_
      change (if n.admits j bytes then n.deliver j bytes else n).Conserves id a
      split
      · exact h.modifyConnection j fun k waiting _ => Connection.advances_of_alike rfl rfl
      · exact h
  | withdraw j count => exact h.withdraw j count
  | endStream j =>
      exact quiet (h.modifyConnection j fun k waiting _ => Connection.advances_of_alike rfl rfl)
  | hangUp j =>
      refine quiet (h.modifyConnection j fun k waiting _ => ?_)
      exact ⟨fun hlive => ⟨hlive, rfl⟩, fun _ => rfl⟩
  | disconnect j => exact quiet (h.modifyClient j fun _ => rfl)
  | capture j => exact quiet (h.modifyClient j fun _ => rfl)
  | offer j batch => exact h.offer j batch
  | ask request =>
      refine quiet ?_
      rw [make_ask]
      exact h.of_alike (connection?_enqueue ..) (client?_enqueue ..)
  | advance d => exact quiet (h.of_alike rfl rfl)

/-- The registry hands out the batches of its rounds. -/
theorem Conserves.registryStep (h : n.Conserves id a) (hm : n.registryStep? = some m) :
    m.Conserves id (a.plus (n.ledgerIn (.task .registry) id)) := by
  obtain ⟨request, rest, hqueue, hregistry, -, hconnections, -⟩ := registryStep?_eq_some hm
  rw [ledgerIn, hqueue]
  refine h.accept _ (by rw [connection?, hconnections]; rfl) ?_ ?_
  · intro hc
    have hposition := n.registry.position?_handle request id
    rw [← hregistry] at hposition
    have hnone : n.registry.position? id = none := by
      rw [Registry.position?, Registry.record?, ← client?, hc]
      rfl
    rw [hnone, Registry.position?, Option.map_eq_none_iff, Registry.record?,
      Option.map_eq_none_iff] at hposition
    exact hposition
  · rw [hregistry]
    exact n.registry.pending_handle request id

/-- A side of a connection takes its turn. -/
theorem Conserves.turn (h : n.Conserves id a) {j : ClientId}
    {side : Client → Connection → Option Turn} (hm : n.turn? j side = some m)
    (hside : ∀ c k t, side c k = some t →
      k.Advances c.mailbox.pending t.connection t.client.mailbox.pending) : m.Conserves id a := by
  obtain ⟨c, k, t, hc, hk, ht, rfl⟩ := turn?_eq_some hm
  by_cases hj : id = j
  · subst hj
    refine h.advance ?_ ?_ ?_
    · intro hnone
      rw [hk] at hnone
      cases hnone
    · intro hnone
      rw [hc] at hnone
      cases hnone
    · intro i hi
      rw [hk] at hi
      cases hi
      refine ⟨t.connection, by rw [connection?_apply, if_pos rfl], ?_⟩
      rw [pending_eq, pending_eq, hc, client?_apply, if_pos rfl]
      exact hside c k t ht
  · refine h.of_alike ?_ ?_
    · rw [connection?_apply, if_neg hj]
    · rw [client?_apply, if_neg hj]

theorem Conserves.step (h : n.Conserves id a) {task : Task} (hm : n.step? task = some m) :
    m.Conserves id (a.plus (n.ledgerIn (.task task) id)) := by
  cases task with
  | read j =>
      refine (Ledger.plus_empty a).symm ▸ h.turn hm fun c k t ht => ?_
      obtain ⟨reader, writer, hp, -, hturn⟩ := Connection.readTurn?_cases ht
      exact hturn.advances hp
  | stop j =>
      exact (Ledger.plus_empty a).symm ▸ h.turn hm fun c k t ht => Connection.stopTurn?_advances ht
  | write j =>
      exact (Ledger.plus_empty a).symm ▸ h.turn hm fun c k t ht => Connection.writeTurn?_advances ht
  | registry => exact h.registryStep hm

theorem ledgerIn_of_none {task : Task} (h : n.step? task = none) (id : ClientId) :
    n.ledgerIn (.task task) id = {} := by
  cases task with
  | registry =>
      rw [ledgerIn, registryStep?_eq_none h]
      rfl
  | _ => rfl

theorem Conserves.react (h : n.Conserves id a) (hi : n.Issued) (e : Event) :
    (n.react e).Conserves id (a.plus (n.ledgerIn e id)) := by
  cases e with
  | move move => exact h.make hi move
  | task task =>
      cases hs : n.step? task with
      | some m =>
          rw [react_of_some hs]
          exact h.step hs
      | none =>
          rw [react_of_none hs, ledgerIn_of_none hs, Ledger.plus_empty]
          exact h

end

theorem ledgerOf_append (past : List (Network × Event)) (n : Network) (e : Event) (id : ClientId) :
    ledgerOf (past ++ [(n, e)]) id = (ledgerOf past id).plus (n.ledgerIn e id) := by
  simp [ledgerOf]

theorem conserves_after (ids : IdentifierSource) (events : List Event) (id : ClientId) :
    (({ ids } : Network).after events).Conserves id
      (ledgerOf (({ ids } : Network).trace events) id) := by
  have hboth := run_induction
    (P := fun past n => n.Issued ∧ n.Conserves id (ledgerOf past id))
    (Q := fun _ _ => True) (n := { ids }) ?_ ?_ events fun _ _ => trivial
  · exact hboth.2
  · rintro past m e ⟨hi, hc⟩ -
    refine ⟨hi.react e, ?_⟩
    rw [ledgerOf_append]
    exact hc.react hi e
  · refine ⟨issued_empty ids, fun _ => ⟨rfl, rfl⟩, ?_⟩
    intro k hk
    cases hk

/-- As long as its write side can go on, what the peer has read, what is in the pipe, what is left of
the batch being written and the frames of the waiting batches are together the frames of all batches
that the mailbox took, in the order in which it took them. In any case the bytes that have come into
the pipe are the first ones of these frames. -/
theorem ledger_balances (ids : IdentifierSource) (events : List Event) {id : ClientId}
    {k : Connection} (hk : (({ ids } : Network).after events).connection? id = some k) :
    let n := ({ ids } : Network).after events
    let a := ledgerOf (({ ids } : Network).trace events) id
    let frames := a.accepted.flatMap Wire.encodeFrame
    (k.phase.isLive .write = true ∨ k.phase = .fresh →
        a.received ++ k.outbound.bytes ++ k.unwritten ++
          (n.registry.pending id).flatMap Wire.encodeFrame = frames) ∧
      a.received ++ k.outbound.bytes <+: frames := by
  intro n a frames
  obtain ⟨hintact, hbegun⟩ := (conserves_after ids events id).carries k hk
  refine ⟨?_, hbegun⟩
  intro hlive
  have hframes : a.received ++ k.outgoing (n.registry.pending id) = frames :=
    hintact (Phase.canWrite_iff.mpr hlive)
  rw [← hframes, Connection.outgoing]
  simp only [List.append_assoc]

/-- The pipe holds less than two frames, and its peer reads slowly while more is offered. -/
def slowReading : List Event :=
  [.move (.build {} 50 0 0), .move (.start 1), .task .registry, .task (.write 1), .task (.write 1),
    .task (.write 1), .task (.write 1), .move (.withdraw 1 20),
    .move (.offer 1 [.resting 1 .zero .zero, .resting 2 .zero .zero])]

/-- The same, but the write side is told to stop in the middle of the second frame. -/
def cutShort : List Event := slowReading ++ [.move (.disconnect 1), .task (.stop 1)]

theorem ledger_of_slowReading :
    (let n := ({} : Network).after slowReading
     let a := ledgerOf (({} : Network).trace slowReading) 1
     ∃ k, n.connection? 1 = some k ∧ k.phase.isLive .write = true ∧
      (a.received.length, k.outbound.bytes.length, k.unwritten.length) = (20, 30, 22) ∧
      n.registry.pending 1 = [[.resting 1 .zero .zero, .resting 2 .zero .zero]] ∧
      a.received ++ k.outbound.bytes ++ k.unwritten ++
          (n.registry.pending 1).flatMap Wire.encodeFrame =
        a.accepted.flatMap Wire.encodeFrame) ∧
    (let a := ledgerOf (({} : Network).trace cutShort) 1
     ∃ k, (({} : Network).after cutShort).connection? 1 = some k ∧
      k.phase.isLive .write = false ∧ (a.received.length, k.outbound.bytes.length) = (20, 30) ∧
      a.accepted.length = 3 ∧
      a.received ++ k.outbound.bytes <+: a.accepted.flatMap Wire.encodeFrame) := by
  constructor
  · have hknown : ((({} : Network).after slowReading).connection? 1).map (fun k =>
        (k.phase.isLive .write,
          ((ledgerOf (({} : Network).trace slowReading) 1).received.length,
            k.outbound.bytes.length, k.unwritten.length))) =
        some (true, (20, 30, 22)) := by decide +kernel
    obtain ⟨k, hk, hstate⟩ := Option.map_eq_some_iff.mp hknown
    obtain ⟨hlive, hlengths⟩ := Prod.mk.inj hstate
    obtain ⟨hintact, -⟩ := ledger_balances {} slowReading hk
    exact ⟨k, hk, hlive, hlengths, by decide +kernel, hintact (.inl hlive)⟩
  · have hknown : ((({} : Network).after cutShort).connection? 1).map (fun k =>
        (k.phase.isLive .write,
          ((ledgerOf (({} : Network).trace cutShort) 1).received.length,
            k.outbound.bytes.length))) =
        some (false, (20, 30)) := by decide +kernel
    obtain ⟨k, hk, hstate⟩ := Option.map_eq_some_iff.mp hknown
    obtain ⟨hlive, hlengths⟩ := Prod.mk.inj hstate
    obtain ⟨-, hbegun⟩ := ledger_balances {} cutShort hk
    exact ⟨k, hk, hlive, hlengths, by decide +kernel, hbegun⟩

end Network
end PositionRelay
