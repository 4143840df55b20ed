import PositionRelay.Proofs.Network.Follow
import PositionRelay.Proofs.Network.Step
import PositionRelay.Proofs.Registry.Fate
import PositionRelay.Proofs.Registry.Refresh

/-!
# What a peer sends and what comes of it

As long as no turn of its read side is disturbed, a connection does with the bytes of its peer what
reading them at once says, however they were cut and whatever happens in between
(`account_eq_readStream`): it merges the updates in their order, asks for one broadcast for each, and
stops for the same reason if at all, with one request to be removed.

A turn is disturbed if the registry is closed, if the side was told to stop, or if its wait has
expired. All other events may come at any time.
-/
namespace PositionRelay.Network

open Connection (Account Follows)

/-- The requests that a step of a task adds to the queue. -/
def sentAt (n : Network) (task : Task) : List Request :=
  (n.react (.task task)).queue.drop n.queue.length

/-- The updates that a step of a read side merges. -/
def mergedAt (n : Network) (id : ClientId) : List Record :=
  match n.readStep? id, n.client? id, n.connection? id with
  | some _, some c, some k => k.merging c
  | _, _, _ => []

/-- What an event adds to the account of a connection. -/
def accountIn (n : Network) (e : Event) (id : ClientId) : Account :=
  match e with
  | .move (.deliver j bytes) =>
      if j = id ∧ n.admits id bytes = true then { heard := bytes } else {}
  | .move (.endStream j) | .move (.hangUp j) =>
      if j = id ∧ (n.connection? id).isSome then { ended := true } else {}
  | .task (.read j) =>
      if j = id then { merged := n.mergedAt j, sent := n.sentAt (.read j) } else {}
  | .task (.stop j) => if j = id then { sent := n.sentAt (.stop j) } else {}
  | .task (.write j) => if j = id then { sent := n.sentAt (.write j) } else {}
  | _ => {}

def accountOf (past : List (Network × Event)) (id : ClientId) : Account :=
  past.foldl (fun a s => a.plus (s.1.accountIn s.2 id)) {}

/-- If the event is a turn of this read side, the registry takes requests, the side was not told to
stop, and its wait has not expired. -/
def Undisturbed (n : Network) (e : Event) (id : ClientId) : Prop :=
  e = .task (.read id) → n.registry.running = true ∧ (∀ c ∈ n.client? id, c.exitRead = false) ∧
    ∀ k ∈ n.connection? id, ∀ wait ∈ k.readWait?, k.expired n.now wait.1 wait.2 = false

instance (n : Network) (e : Event) (id : ClientId) : Decidable (n.Undisturbed e id) :=
  inferInstanceAs (Decidable (e = .task (.read id) → n.registry.running = true ∧
    (∀ c ∈ n.client? id, c.exitRead = false) ∧
    ∀ k ∈ n.connection? id, ∀ wait ∈ k.readWait?, k.expired n.now wait.1 wait.2 = false))

/-- The read side of a connection goes on, or has not begun. -/
def ReadsOn (n : Network) (id : ClientId) : Prop :=
  ∀ k, n.connection? id = some k → k.phase.canRead = true

/-- The account of a connection is that of its stream. -/
structure Tracks (n : Network) (id : ClientId) (a : Account) : Prop where
  absent : n.connection? id = none → a = {}
  follows : ∀ k, n.connection? id = some k → ∃ c, n.client? id = some c ∧
    ∀ reader, k.phase.reader? = some reader → Follows id a c.flags k reader

section
variable {n m : Network} {id : ClientId} {a b : Account} {e : Event}

/-- The connection is as before, and the flags are unless they are all raised. -/
theorem Tracks.of_alike (h : n.Tracks id a) (hconnection : m.connection? id = n.connection? id)
    (hclient : ∀ c, n.client? id = some c →
      ∃ d, m.client? id = some d ∧ (d.flags = c.flags ∨ d.flags = .raised)) :
    m.Tracks id a := by
  refine ⟨fun hk => h.absent (hconnection.symm.trans hk), ?_⟩
  intro k hk
  obtain ⟨c, hc, hfollows⟩ := h.follows k (hconnection.symm.trans hk)
  obtain ⟨d, hd, hflags⟩ := hclient c hc
  refine ⟨d, hd, fun reader hr => ?_⟩
  refine (hfollows reader hr).keep rfl rfl (fun hk => hk) (fun _ => rfl) ?_
  rcases hflags with hflags | hflags
  · exact .inl hflags
  · rw [hflags]
    exact .inr ⟨rfl, fun _ => rfl⟩

theorem Tracks.modifyClient (h : n.Tracks id a) (j : ClientId) {f : Client → Client}
    (hf : ∀ c, (f c).flags = c.flags ∨ (f c).flags = .raised) : (n.modifyClient j f).Tracks id a := by
  refine h.of_alike (connection?_modifyClient ..) ?_
  intro c hc
  rw [client?_modifyClient, hc]
  split
  · exact ⟨f c, rfl, hf c⟩
  · exact ⟨c, rfl, .inl rfl⟩

theorem Tracks.modifyOther (h : n.Tracks id a) {j : ClientId} (hj : j ≠ id)
    (f : Connection → Connection) : (n.modifyConnection j f).Tracks id a := by
  refine h.of_alike ?_ ?_
  · rw [connection?_modifyConnection, if_neg hj.symm]
  · intro c hc
    exact ⟨c, by rw [client?_modifyConnection, hc], .inl rfl⟩

theorem Tracks.modifyConnection (h : n.Tracks id a) {f : Connection → Connection}
    (hnone : n.connection? id = none → b = {})
    (hf : ∀ k c reader, n.connection? id = some k → (f k).phase.reader? = some reader →
      (∀ r, k.phase.reader? = some r → Follows id a c k r) → Follows id b c (f k) reader) :
    (n.modifyConnection id f).Tracks id b := by
  constructor
  · intro hk
    rw [connection?_modifyConnection, if_pos rfl, Option.map_eq_none_iff] at hk
    exact hnone hk
  · intro k hk
    rw [connection?_modifyConnection, if_pos rfl] at hk
    obtain ⟨i, hi, rfl⟩ := Option.map_eq_some_iff.mp hk
    obtain ⟨c, hc, hfollows⟩ := h.follows i hi
    refine ⟨c, by rw [client?_modifyConnection, hc], ?_⟩
    intro reader hr
    exact hf i c.flags reader hi hr hfollows

theorem Tracks.enqueue (h : n.Tracks id a) (requests : List Request) :
    (n.enqueue requests).Tracks id a := by
  refine h.of_alike (connection?_enqueue ..) ?_
  intro c hc
  exact ⟨c, by rw [client?_enqueue, hc], .inl rfl⟩

/-- A connection that is given up reads no more. -/
theorem Tracks.abandon (h : n.Tracks id a) (j : ClientId) {phase : Phase}
    (hphase : phase.reader? = none) : (n.abandon j phase).Tracks id a := by
  rw [Network.abandon]
  refine Tracks.modifyClient ?_ j fun c => .inl c.flags_closeMailbox
  by_cases hj : j = id
  · subst hj
    refine h.modifyConnection h.absent ?_
    intro k c reader _ hr _
    have hnone : ({ k with phase }.closePipes).phase.reader? = none := hphase
    rw [hnone] at hr
    cases hr
  · exact h.modifyOther hj _

theorem Tracks.built (h : n.Tracks id a) (hi : n.Issued) (hpos : 0 < n.ids.upcoming)
    (config : Config) (buffer drawX drawY : Nat) :
    (n.built config buffer drawX drawY).Tracks id a := by
  by_cases hid : id = n.ids.upcoming
  · have hempty : a = {} := h.absent (by rw [hid, hi.connection?_upcoming hpos])
    constructor
    · intro hk
      rw [connection?_built, if_pos hid] at hk
      cases hk
    · intro k hk
      rw [connection?_built, if_pos hid] at hk
      cases hk
      refine ⟨_, by rw [client?_built, if_pos hid], ?_⟩
      intro reader hr
      cases hr
      rw [hempty]
      exact Connection.follows_fresh id config _ _ rfl rfl
  · refine h.of_alike (by rw [connection?_built, if_neg hid]) ?_
    intro c hc
    exact ⟨c, by rw [client?_built, if_neg hid, hc], .inl rfl⟩

theorem Tracks.start (h : n.Tracks id a) (j : ClientId) : (n.make (.start j)).Tracks id a := by
  change (if n.isFresh j then n.run j else n).Tracks id a
  split
  · next hfresh =>
      unfold run
      split
      · refine Tracks.enqueue ?_ _
        by_cases hj : j = id
        · subst hj
          obtain ⟨k, hk, hp⟩ := isFresh_iff.mp hfresh
          refine h.modifyConnection h.absent ?_
          intro k' c reader hk' hr hfollows
          rw [hk] at hk'
          cases hk'
          cases hr
          have hreader : k.phase.reader? = some (.length [] {}) := by rw [hp]; rfl
          exact (hfollows _ hreader).start hp n.now hreader
        · exact h.modifyOther hj _
      · exact h.abandon j rfl
  · exact h

theorem Tracks.deliver (h : n.Tracks id a) (j : ClientId) (bytes : Bytes) :
    (n.make (.deliver j bytes)).Tracks id
      (a.plus (n.accountIn (.move (.deliver j bytes)) id)) := by
  change (if n.admits j bytes then n.deliver j bytes else n).Tracks id
    (a.plus (if j = id ∧ n.admits id bytes = true then { heard := bytes } else {}))
  by_cases hj : j = id
  · subst hj
    by_cases hadmits : n.admits j bytes = true
    · have hheard : j = j ∧ n.admits j bytes = true := ⟨rfl, hadmits⟩
      rw [if_pos hadmits, if_pos hheard, Account.plus_heard]
      unfold admits at hadmits
      refine h.modifyConnection ?_ ?_
      · intro hk
        simp [hk] at hadmits
      · intro k c reader hk hr hfollows
        have hopen : k.inbound.closed = false := by
          simp [hk] at hadmits
          exact hadmits.1
        exact (hfollows reader hr).deliver hopen bytes
    · have hunheard : ¬ (j = j ∧ n.admits j bytes = true) := fun hc => hadmits hc.2
      rw [if_neg hadmits, if_neg hunheard, Account.plus_empty]
      exact h
  · have hunheard : ¬ (j = id ∧ n.admits id bytes = true) := fun hc => hj hc.1
    rw [if_neg hunheard, Account.plus_empty]
    split
    · exact h.modifyOther hj _
    · exact h

/-- The peer ends its stream, or is gone. -/
theorem Tracks.close (h : n.Tracks id a) (j : ClientId) {f : Connection → Connection}
    (hphase : ∀ k, (f k).phase = k.phase) (hconfig : ∀ k, (f k).config = k.config)
    (hinbound : ∀ k, (f k).inbound = k.inbound.close) :
    (n.modifyConnection j f).Tracks id
      (a.plus (if j = id ∧ (n.connection? id).isSome then { ended := true } else {})) := by
  by_cases hj : j = id
  · subst hj
    by_cases hknown : (n.connection? j).isSome = true
    · rw [if_pos ⟨rfl, hknown⟩, Account.plus_ended]
      refine h.modifyConnection (fun hk => by rw [hk] at hknown; cases hknown) ?_
      intro k c reader _ hr hfollows
      rw [hphase] at hr
      exact (hfollows reader hr).close (hconfig k) (hinbound k)
    · have hnone : n.connection? j = none := by simpa using hknown
      rw [if_neg fun hc => hknown hc.2, Account.plus_empty]
      refine h.modifyConnection h.absent ?_
      intro k c reader hk
      rw [hnone] at hk
      cases hk
  · rw [if_neg fun hc => hj hc.1, Account.plus_empty]
    exact h.modifyOther hj f

theorem Tracks.make (h : n.Tracks id a) (hi : n.Issued) (move : Move) :
    (n.make move).Tracks id (a.plus (n.accountIn (.move move) id)) := by
  have quiet : ∀ {m : Network}, m.Tracks id a → m.Tracks id (a.plus {}) := by
    intro m hm
    rw [Account.plus_empty]
    exact hm
  cases move with
  | build config buffer drawX drawY =>
      refine quiet ?_
      rcases n.make_build config buffer drawX drawY with he | ⟨-, hpos, he⟩
      · rw [he]
        exact h
      · rw [he]
        exact h.built hi hpos config buffer drawX drawY
  | start j => exact quiet (h.start j)
  | discard j =>
      refine quiet ?_
      change (n.discard j).Tracks id a
      unfold discard
      split
      · exact h.abandon j rfl
      · exact h
  | deliver j bytes => exact h.deliver j bytes
  | withdraw j count =>
      refine quiet ?_
      change (n.modifyConnection j _).Tracks id a
      by_cases hj : j = id
      · subst hj
        refine h.modifyConnection h.absent ?_
        intro k c reader _ hr hfollows
        exact (hfollows reader hr).keep rfl rfl (fun hk => hk) (fun _ => rfl) (.inl rfl)
      · exact h.modifyOther hj _
  | endStream j => exact h.close j (fun _ => rfl) (fun _ => rfl) fun _ => rfl
  | hangUp j => exact h.close j (fun _ => rfl) (fun _ => rfl) fun _ => rfl
  | disconnect j => exact quiet (h.modifyClient j fun _ => .inr rfl)
  | capture j => exact quiet (h.modifyClient j fun c => .inl c.flags_settle)
  | offer j batch =>
      refine quiet (h.modifyClient j fun c => .inl ?_)
      rw [Client.getD_offer]
      rfl
  | ask request =>
      refine quiet ?_
      rw [make_ask]
      exact h.enqueue _
  | advance d => exact quiet (h.of_alike rfl fun c hc => ⟨c, hc, .inl rfl⟩)

theorem Tracks.registryStep (h : n.Tracks id a) (hm : n.registryStep? = some m) :
    m.Tracks id a := by
  obtain ⟨request, rest, -, hregistry, -, hconnections, -⟩ := registryStep?_eq_some hm
  refine h.of_alike (by rw [connection?, hconnections]; rfl) ?_
  intro c hc
  rw [client?, hregistry]
  by_cases hrunning : n.registry.running = true
  · have hknown : (n.registry.clients.get? id).isSome := by
      change (n.client? id).isSome
      rw [hc]
      rfl
    have hfate := @Registry.fate_handle _ _ hrunning request fun _ => hknown
    exact hfate.client hc
  · have hsame : (n.registry.handle request).registry = n.registry := by
      simp [Registry.handle, hrunning]
    rw [hsame]
    exact ⟨c, hc, .inl rfl⟩

theorem Tracks.apply (h : n.Tracks id a) {j : ClientId} {t : Turn}
    (hnext : j = id → ∀ reader, t.connection.phase.reader? = some reader →
      Follows id b t.client.flags t.connection reader)
    (hother : j ≠ id → b = a) : (n.apply j t).Tracks id b := by
  by_cases hj : j = id
  · subst hj
    constructor
    · intro hk
      rw [connection?_apply, if_pos rfl] at hk
      cases hk
    · intro k hk
      rw [connection?_apply, if_pos rfl] at hk
      cases hk
      exact ⟨t.client, by rw [client?_apply, if_pos rfl], hnext rfl⟩
  · rw [hother hj]
    refine h.of_alike ?_ ?_
    · rw [connection?_apply, if_neg (Ne.symm hj)]
    · intro c hc
      exact ⟨c, by rw [client?_apply, if_neg (Ne.symm hj), hc], .inl rfl⟩

theorem sentAt_of_none {task : Task} (h : n.step? task = none) : n.sentAt task = [] := by
  rw [sentAt, react_of_none h]
  exact List.drop_length

/-- The registry takes all requests of a turn, or none once it has shut down. -/
theorem sentAt_of_turn {task : Task} {j : ClientId} {t : Turn}
    (h : n.step? task = some (n.apply j t)) :
    n.sentAt task = if n.registry.running then t.requests else [] := by
  rw [sentAt, react_of_some h, queue_apply]
  split
  · rw [List.drop_left]
  · rw [List.drop_length]

theorem mergedAt_of_none (h : n.readStep? id = none) : n.mergedAt id = [] := by
  simp [mergedAt, h]

theorem mergedAt_of_some (h : n.readStep? id = some m) {c : Client} {k : Connection}
    (hc : n.client? id = some c) (hk : n.connection? id = some k) : n.mergedAt id = k.merging c := by
  simp [mergedAt, h, hc, hk]

/-- A step of the read side that nothing disturbs, or after which the side goes on. -/
theorem Tracks.reads (h : n.Tracks id a)
    (hu : n.Undisturbed (.task (.read id)) id ∨ m.ReadsOn id)
    (hs : n.step? (.read id) = some m) :
    ∃ c k t reader writer, m = n.apply id t ∧ n.client? id = some c ∧ c.exitRead = false ∧
      reader.live = 1 ∧ Follows id a c.flags k reader ∧
      Connection.Reads k id c reader writer (n.mergedAt id) t ∧
      n.sentAt (.read id) = t.requests := by
  obtain ⟨c, k, t, hc, hk, ht, rfl⟩ := turn?_eq_some hs
  obtain ⟨reader, writer, hp, hlive, hturn⟩ := Connection.readTurn?_cases ht
  obtain ⟨d, hd, hfollows⟩ := h.follows k hk
  rw [hc] at hd
  cases hd
  have hold := hfollows reader (by rw [hp]; rfl)
  suffices hquiet : c.exitRead = false ∧ Connection.Reads k id c reader writer (k.merging c) t ∧
      n.sentAt (.read id) = t.requests by
    rw [mergedAt_of_some hs hc hk]
    exact ⟨c, k, t, reader, writer, rfl, hc, hquiet.1, hlive, hold, hquiet.2⟩
  rw [sentAt_of_turn hs]
  rcases hu with hu | hon
  · obtain ⟨hrunning, hexit, htime⟩ := hu rfl
    rw [hrunning] at ht
    rw [if_pos hrunning]
    exact ⟨hexit c hc, Connection.readTurn?_reads ht hp hold.fits (hexit c hc) (htime k hk), rfl⟩
  · have hgoes : t.connection.phase.isLive .read = true :=
      hturn.enters.isLive_of_canRead (hon t.connection (by rw [connection?_apply, if_pos rfl]))
    obtain ⟨hexit, hreads⟩ := Connection.readTurn?_reads_of_live ht hp hold.fits hgoes
    refine ⟨hexit, hreads, ?_⟩
    split
    · rfl
    · next hclosed =>
        rw [Bool.eq_false_iff.mpr hclosed] at hturn
        exact (hturn.requests_of_closed hgoes).symm

theorem Tracks.readStep (h : n.Tracks id a) (j : ClientId)
    (hu : n.Undisturbed (.task (.read j)) id ∨ (n.react (.task (.read j))).ReadsOn id) :
    (n.react (.task (.read j))).Tracks id (a.plus (n.accountIn (.task (.read j)) id)) := by
  cases hs : n.step? (.read j) with
  | none =>
      rw [react_of_none hs, accountIn, mergedAt_of_none hs, sentAt_of_none hs]
      split
      · rw [Account.plus_empty]
        exact h
      · rw [Account.plus_empty]
        exact h
  | some m =>
      rw [react_of_some hs] at hu ⊢
      by_cases hj : j = id
      · subst hj
        obtain ⟨c, k, t, reader, writer, rfl, -, hexit, hlive, hold, hreads, hsent⟩ := h.reads hu hs
        refine h.apply ?_ fun hne => absurd rfl hne
        intro _ reader' hreader'
        obtain ⟨reader'', hreader'', hnew⟩ := hold.read hlive hexit hreads
        rw [hreader'] at hreader''
        cases hreader''
        rw [accountIn, if_pos rfl, hsent, Account.plus_done]
        exact hnew
      · obtain ⟨c, k, t, -, -, -, rfl⟩ := turn?_eq_some hs
        refine h.apply (fun he => absurd he hj) fun _ => ?_
        rw [accountIn, if_neg hj, Account.plus_empty]

/-- The turn puts the updates that it merges into the record of its client, in their order. Other
records and the members stay as they are. -/
theorem record?_read (n : Network) (id j : ClientId) :
    (n.react (.task (.read id))).registry.record? j =
      (n.registry.record? j).map
        ((if j = id then n.mergedAt id else []).foldl Record.merge) := by
  have hrecord : ∀ n : Network, n.registry.record? j = (n.client? j).map Client.record :=
    fun _ => rfl
  rw [hrecord, hrecord]
  cases hs : n.step? (.read id) with
  | none =>
      rw [react_of_none hs, mergedAt_of_none hs, ite_self]
      exact Option.map_id_apply.symm
  | some m =>
      obtain ⟨c, k, t, hc, hk, ht, rfl⟩ := turn?_eq_some hs
      rw [react_of_some hs, client?_apply, mergedAt_of_some hs hc hk]
      by_cases hj : j = id
      · rw [if_pos hj, if_pos hj, hj, hc, Option.map_some, Connection.record_readTurn? ht]
        rfl
      · rw [if_neg hj, if_neg hj]
        exact Option.map_id_apply.symm

theorem members_read (n : Network) (id : ClientId) :
    (n.react (.task (.read id))).registry.members = n.registry.members := by
  cases hs : n.step? (.read id) with
  | none => rw [react_of_none hs]
  | some m =>
      obtain ⟨c, k, t, -, -, -, rfl⟩ := turn?_eq_some hs
      rw [react_of_some hs, members_apply]

/-- A step in which the write side of a connection takes its turn, or nothing happens. -/
theorem Tracks.writeStep (h : n.Tracks id a) {task : Task} {j : ClientId}
    (hcases : ∀ m, n.step? task = some m → ∃ c k t, n.client? j = some c ∧
      n.connection? j = some k ∧ m = n.apply j t ∧
      ∃ reader writer, k.phase = .running reader writer ∧ Connection.WriteTurn k j c reader t)
    (haccount : n.accountIn (.task task) id = if j = id then { sent := n.sentAt task } else {}) :
    (n.react (.task task)).Tracks id (a.plus (n.accountIn (.task task) id)) := by
  rw [haccount]
  cases hs : n.step? task with
  | none =>
      rw [react_of_none hs, sentAt_of_none hs]
      split
      · rw [Account.plus_empty]
        exact h
      · rw [Account.plus_empty]
        exact h
  | some m =>
      obtain ⟨c, k, t, hc, hk, rfl, reader, writer, hp, ht⟩ := hcases m hs
      rw [react_of_some hs]
      refine h.apply ?_ ?_
      · rintro rfl reader' hreader'
        obtain ⟨d, hd, hfollows⟩ := h.follows k hk
        rw [hc] at hd
        cases hd
        have hold := hfollows reader (by rw [hp]; rfl)
        have hsent : ∀ request ∈ n.sentAt task, request ∈ t.requests := by
          intro request hr
          rw [sentAt_of_turn hs] at hr
          split at hr
          · exact hr
          · cases hr
        obtain ⟨hreader, hnew⟩ := hold.write ht hsent
        rw [hreader'] at hreader
        cases hreader
        rw [if_pos rfl, Account.plus_sent]
        exact hnew
      · intro hj
        rw [if_neg hj, Account.plus_empty]

theorem Tracks.react (h : n.Tracks id a) (hi : n.Issued)
    (hu : n.Undisturbed e id ∨ (n.react e).ReadsOn id) :
    (n.react e).Tracks id (a.plus (n.accountIn e id)) := by
  cases e with
  | move move => exact h.make hi move
  | task task =>
      cases task with
      | read j => exact h.readStep j hu
      | stop j =>
          refine h.writeStep ?_ rfl
          intro m hm
          obtain ⟨c, k, t, hc, hk, ht, rfl⟩ := turn?_eq_some hm
          obtain ⟨reader, writer, hp, -, hturn⟩ := Connection.stopTurn?_cases ht
          exact ⟨c, k, t, hc, hk, rfl, reader, writer, hp, hturn⟩
      | write j =>
          refine h.writeStep ?_ rfl
          intro m hm
          obtain ⟨c, k, t, hc, hk, ht, rfl⟩ := turn?_eq_some hm
          obtain ⟨reader, writer, hp, -, hturn⟩ := Connection.writeTurn?_cases ht
          exact ⟨c, k, t, hc, hk, rfl, reader, writer, hp, hturn⟩
      | registry =>
          have hquiet : n.accountIn (.task .registry) id = {} := rfl
          rw [hquiet, Account.plus_empty, Network.react]
          cases hs : n.step? .registry with
          | none => exact h
          | some m => exact h.registryStep hs

end

theorem accountOf_append (past : List (Network × Event)) (n : Network) (e : Event) (id : ClientId) :
    accountOf (past ++ [(n, e)]) id = (accountOf past id).plus (n.accountIn e id) := by
  simp [accountOf]

theorem tracks_after (ids : IdentifierSource) {events : List Event} {id : ClientId}
    (h : ∀ s ∈ ({ ids } : Network).trace events, s.1.Undisturbed s.2 id) :
    (({ ids } : Network).after events).Tracks id
      (accountOf (({ ids } : Network).trace events) id) := by
  have hboth := run_induction
    (P := fun past n => n.Issued ∧ n.Tracks id (accountOf past id))
    (Q := fun n e => n.Undisturbed e id) (n := { ids }) ?_ ?_ events h
  · exact hboth.2
  · rintro past m e ⟨hi, ht⟩ hu
    refine ⟨hi.react e, ?_⟩
    rw [accountOf_append]
    exact ht.react hi (.inl hu)
  · refine ⟨issued_empty ids, fun _ => rfl, ?_⟩
    intro k hk
    cases hk

/-- A read side that is live and takes no step waits for bytes. -/
theorem waits_of_step?_none {n : Network} {id : ClientId} {c : Client} {k : Connection}
    {reader : Reader} {writer : Writer} (hc : n.client? id = some c)
    (hk : n.connection? id = some k) (hs : n.step? (.read id) = none)
    (hp : k.phase = .running reader writer) (hlive : reader.live = 1) (hfits : reader.Fits) :
    c.exitRead = false ∧ k.inbound.bytes = [] ∧ k.inbound.closed = false := by
  have hturn : k.readTurn? n.now n.registry.running id c = none := by
    simpa only [step?, readStep?, turn?, hc, hk, Option.map_eq_none_iff] using hs
  exact Connection.of_readTurn?_eq_none hturn hp hlive hfits

theorem Tracks.complete {n : Network} {id : ClientId} {a : Account} (h : n.Tracks id a)
    {k : Connection} (hk : n.connection? id = some k) (hstarted : k.phase.isStarted = true)
    (hs : n.step? (.read id) = none) :
    let r := readStream k.config.payloadLimit a.ended a.heard
    a.Complete id r ∧ k.phase.readStop? = r.ending.map .failed := by
  intro r
  obtain ⟨c, hc, hfollows⟩ := h.follows k hk
  have hstopped : ∀ reader, k.phase.reader? = some reader → reader.live = 0 →
      a.Complete id r ∧ k.phase.readStop? = r.ending.map .failed := by
    intro reader hr hlive
    obtain ⟨why, rfl, hcomplete, hending⟩ := (hfollows reader hr).complete_of_stopped hlive
    refine ⟨hcomplete, ?_⟩
    rw [Phase.readStop?, hr, hending]
    rfl
  have hwaiting : ∀ reader writer, k.phase = .running reader writer → reader.live = 1 →
      a.Complete id r ∧ k.phase.readStop? = r.ending.map .failed := by
    intro reader writer hp hlive
    have hr : k.phase.reader? = some reader := by rw [hp]; rfl
    have hreader := hfollows reader hr
    obtain ⟨hexit, hbytes, hopen⟩ := waits_of_step?_none hc hk hs hp hlive hreader.fits
    obtain ⟨hcomplete, hending⟩ := hreader.complete_of_waiting hlive hexit hbytes hopen
    refine ⟨hcomplete, ?_⟩
    rw [Phase.readStop?, hr, hending]
    cases reader with
    | stopped why => cases hlive
    | length => rfl
    | payload => rfl
  cases hp : k.phase with
  | fresh => rw [hp] at hstarted; cases hstarted
  | refused => rw [hp] at hstarted; cases hstarted
  | dropped => rw [hp] at hstarted; cases hstarted
  | finished why w =>
      rw [← hp]
      exact hstopped (.stopped why) (by rw [hp]; rfl) rfl
  | running reader writer =>
      rw [← hp]
      cases reader with
      | stopped why => exact hstopped (.stopped why) (by rw [hp]; rfl) rfl
      | length => exact hwaiting _ writer hp rfl
      | payload => exact hwaiting _ writer hp rfl

/-- When a connection has read what its peer sent, it has merged what `readStream` reads off these
bytes and nothing else, has asked for one broadcast for each update, and has stopped for the reason
that `readStream` gives, if any, with one request to be removed. The merged updates have gone into
the record of the client, and no turn of the read side touched anything else of the registry. -/
theorem account_eq_readStream (ids : IdentifierSource) {events : List Event} {id : ClientId}
    (h : ∀ s ∈ ({ ids } : Network).trace events, s.1.Undisturbed s.2 id) {k : Connection}
    (hk : (({ ids } : Network).after events).connection? id = some k)
    (hstarted : k.phase.isStarted = true)
    (hs : (({ ids } : Network).after events).step? (.read id) = none) :
    let a := accountOf (({ ids } : Network).trace events) id
    let r := readStream k.config.payloadLimit a.ended a.heard
    a.merged = r.updates ∧
      a.sent = (r.updates.map fun _ => .broadcast) ++
        (if r.ending.isSome then [.leave id] else []) ∧
      k.phase.readStop? = r.ending.map .failed ∧
      ∀ s ∈ ({ ids } : Network).trace events, s.2 = .task (.read id) →
        (s.1.react s.2).registry.members = s.1.registry.members ∧
          ∀ j, (s.1.react s.2).registry.record? j = (s.1.registry.record? j).map
            ((if j = id then s.1.mergedAt id else []).foldl Record.merge) := by
  intro a r
  obtain ⟨⟨hmerged, hsent⟩, hstop⟩ := (tracks_after ids h).complete hk hstarted hs
  refine ⟨hmerged, hsent, hstop, ?_⟩
  rintro ⟨n, e⟩ - rfl
  exact ⟨members_read n id, record?_read n id⟩

def stride : Record :=
  ⟨1, ⟨0x3ff0000000000000⟩, ⟨0x4000000000000000⟩, ⟨0x3fe0000000000000⟩⟩

/-- A frame of one byte, which is no update, a frame with an update, and the beginning of a third. -/
def unevenStream : Bytes := [0, 0, 0, 1, 9] ++ Wire.encodeFrame [stride] ++ [0, 0]

/-- The stream comes in three pieces, cut within a length and within a payload, and then it ends. -/
def unevenTalk : List Event :=
  [.move (.build {} 256 0 0), .move (.start 1), .move (.deliver 1 (unevenStream.take 2)),
    .task (.read 1), .task .registry, .move (.deliver 1 ((unevenStream.drop 2).take 20)),
    .task (.read 1), .task (.read 1), .task (.read 1), .task (.read 1), .move (.advance ⟨5⟩),
    .move (.deliver 1 (unevenStream.drop 22)), .task (.read 1), .task (.read 1),
    .move (.endStream 1), .task (.read 1)]

theorem account_of_unevenTalk :
    let n := ({} : Network).after unevenTalk
    let a := accountOf (({} : Network).trace unevenTalk) 1
    (∀ s ∈ ({} : Network).trace unevenTalk, s.1.Undisturbed s.2 1) ∧
      n.step? (.read 1) = none ∧ ∃ k, n.connection? 1 = some k ∧ k.phase.isStarted = true ∧
        a.merged = [stride] ∧ a.sent = [.broadcast, .leave 1] ∧
        k.phase.readStop? = some (.failed (.codec (.truncated 4 2))) := by
  intro n a
  have h : ∀ s ∈ ({} : Network).trace unevenTalk, s.1.Undisturbed s.2 1 := by decide +kernel
  have hs : n.step? (.read 1) = none := Option.isNone_iff_eq_none.mp (by decide +kernel)
  have hknown : (n.connection? 1).map (fun k => (k.config.payloadLimit, k.phase.isStarted)) =
      some (Wire.defaultPayloadLimit, true) := by decide +kernel
  obtain ⟨k, hk, hlimit⟩ := Option.map_eq_some_iff.mp hknown
  obtain ⟨hlimit, hstarted⟩ := Prod.mk.inj hlimit
  have hheard : (a.heard, a.ended) = (unevenStream, true) := by decide +kernel
  obtain ⟨hheard, hended⟩ := Prod.mk.inj hheard
  have hread : readStream Wire.defaultPayloadLimit true unevenStream =
      ⟨[stride], some (.codec (.truncated 4 2))⟩ := by decide +kernel
  obtain ⟨hmerged, hsent, hstop, -⟩ := account_eq_readStream {} h hk hstarted hs
  change a.merged = (readStream k.config.payloadLimit a.ended a.heard).updates at hmerged
  change a.sent = ((readStream k.config.payloadLimit a.ended a.heard).updates.map _) ++ _ at hsent
  change k.phase.readStop? = (readStream k.config.payloadLimit a.ended a.heard).ending.map _ at hstop
  rw [hlimit, hheard, hended, hread] at hmerged hsent hstop
  exact ⟨h, hs, k, hk, hstarted, hmerged, hsent, hstop⟩

end PositionRelay.Network
