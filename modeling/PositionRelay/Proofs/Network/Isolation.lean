import PositionRelay.Proofs.Network.Evolution
import PositionRelay.Proofs.Network.Inbound
import PositionRelay.Proofs.Network.Membership
import PositionRelay.Proofs.Network.Teardown

/-!
# What one peer can do to the others

From a settled network on, the peer of one connection may send what it likes, stop reading, end its
stream or go away, and the tasks may run in any order. As long as the clock stands still, none of it
moves another client, and none of it ends another connection unless a mailbox refuses an offer
(`others_untouched`).

What carries this is that the other connections wait. A running connection of a settled network has
nothing to read and time left (`Connection.Calm`), so all it can do is to write what it is offered.
-/
namespace PositionRelay

namespace Connection

/-- The connection has nothing to read, both of its pipes are open, and none of its waits is over. -/
structure Calm (k : Connection) (now : Moment) : Prop where
  live : ∀ side, k.phase.isLive side = true
  silent : k.inbound.bytes = []
  listens : k.inbound.closed = false
  writes : k.outbound.closed = false
  patient : ∀ wait, k.readWait? = some wait → k.expired now wait.1 wait.2 = false
  timely : ∀ wait, k.writeWait? = some wait → k.expired now wait.1 wait.2 = false

section
variable {k : Connection} {now later : Moment} {listening : Bool} {id : ClientId} {c : Client}
  {t : Turn}

theorem Calm.of_time (h : k.Calm now) (htime : later.time = now.time) : k.Calm later := by
  have hsame : ∀ wait : Moment × Deadline,
      k.expired later wait.1 wait.2 = k.expired now wait.1 wait.2 := by
    intro wait
    rw [expired, expired, htime]
  refine ⟨h.live, h.silent, h.listens, h.writes, ?_, ?_⟩
  · intro wait hw
    rw [hsame]
    exact h.patient wait hw
  · intro wait hw
    rw [hsame]
    exact h.timely wait hw

theorem Calm.readTurn?_eq_none (h : k.Calm now) (hexit : c.exitRead = false) :
    k.readTurn? now listening id c = none := by
  have hread := h.patient
  unfold readWait? at hread
  unfold readTurn?
  cases hp : k.phase with
  | running reader writer =>
      rw [hp] at hread
      cases reader with
      | stopped why => rfl
      | length got since =>
          have hleft := hread (since, .idleRead) rfl
          simp [hexit, h.silent, starve?, h.listens, hleft]
      | payload size got since =>
          have hleft := hread (since, .burstRead) rfl
          simp [hexit, h.silent, starve?, h.listens, hleft]
  | _ => rfl

theorem stopTurn?_eq_none (hexit : c.exitWrite = false) : k.stopTurn? c = none := by
  unfold stopTurn?
  split <;> simp [hexit]

/-- All that a calm connection does is to write on. -/
theorem Calm.writeTurn (h : k.Calm now) (hformed : k.Formed)
    (ht : k.writeTurn? now id c = some t) :
    t.connection.Calm now ∧ t.client.flags = c.flags ∧ t.requests = [] := by
  obtain ⟨reader, writer, hp, -, -⟩ := writeTurn?_cases ht
  obtain ⟨outbound, writer', hgives, hclosed, hconnection, hsilent⟩ := writeTurn?_gives ht hp
  have hreader : reader.live = 1 := by
    have := h.live .read
    rw [hp] at this
    simpa [Phase.isLive] using this
  have hrest := h.timely
  unfold writeWait? at hrest
  rw [hp] at hrest
  -- The side goes on, and a batch that it has just taken has all its time left.
  have hnext : writer'.live = 1 ∧ ∀ left since, writer' = .writing left since →
      k.expired now since .write = false := by
    cases hgives with
    | broken rest since gone =>
        rw [h.writes] at gone
        cases gone
    | expires rest since due =>
        rw [hrest (since, .write) rfl] at due
        cases due
    | begins batch waiting =>
        refine ⟨rfl, fun left since hw => ?_⟩
        cases hw
        have := Config.limitOf_pos hformed.valid .write
        simp only [expired, decide_eq_false_iff_not]
        omega
    | goesOn rest left since =>
        refine ⟨rfl, fun left since hw => ?_⟩
        cases hw
        exact hrest (since, .write) rfl
    | done rest since => exact ⟨rfl, fun left since hw => by cases hw⟩
  refine ⟨?_, hsilent hnext.1⟩
  rw [hconnection, become_of_live hnext.1]
  refine ⟨?_, h.silent, h.listens, hclosed.trans h.writes, ?_, ?_⟩
  · intro side
    cases side with
    | read => exact beq_iff_eq.mpr hreader
    | write => exact beq_iff_eq.mpr hnext.1
  · intro wait hw
    refine h.patient wait ?_
    rw [← hw, readWait?, hp]
    cases reader <;> rfl
  · intro wait hw
    unfold writeWait? at hw
    cases writer' with
    | stopped why => cases hw
    | idle => cases hw
    | writing left since =>
        cases hw
        exact hnext.2 left since rfl

/-- A read side without bytes merges nothing. -/
theorem record_of_silent (h : k.readTurn? now listening id c = some t)
    (hsilent : k.inbound.bytes = []) : t.client.record = c.record := by
  rw [record_readTurn? h, merging_of_silent hsilent]
  rfl

theorem WriteTurn.record {reader : Reader} (h : WriteTurn k id c reader t) :
    t.client.record = c.record := by
  cases h with
  | told told => rfl
  | failed why => exact Client.record_fail c .write
  | onward outbound mailbox writer live => rfl

theorem Outcome.isRunning (h : k.Outcome id c t) : k.phase.isRunning = true := by
  cases h with
  | goesOn running => exact running
  | told _ live => exact Phase.isRunning_of_isLive live
  | failed _ live => exact Phase.isRunning_of_isLive live

theorem Outcome.requests_of (h : k.Outcome id c t) :
    ∀ request ∈ t.requests, request = .broadcast ∨ request = .leave id := by
  intro request hr
  cases h with
  | goesOn _ _ _ requests => exact .inl (requests request hr)
  | told _ _ _ _ _ _ requests => simp [requests] at hr
  | failed _ _ _ _ _ requests =>
      rw [requests, farewell] at hr
      split at hr
      · cases hr
      · exact .inr (List.mem_singleton.mp hr)

/-- Once it is closing, a connection asks for nothing but broadcasts. -/
theorem Outcome.of_closing (h : k.Outcome id c t) (hc : c.flags.closing = true) :
    t.client.flags = c.flags ∧ ∀ request ∈ t.requests, request = .broadcast := by
  cases h with
  | goesOn _ flags _ requests => exact ⟨flags, requests⟩
  | told _ _ _ flags _ _ requests => exact ⟨flags, by simp [requests]⟩
  | failed side _ flags _ _ requests =>
      have hclosing : c.closing = true := hc
      refine ⟨flags.trans (Client.flags_fail_of_closing hc side), ?_⟩
      simp [requests, farewell, hclosing]

end

end Connection

theorem Phase.isLive_of_stop? {p : Phase} (hrunning : p.isRunning = true) {side : Side}
    (h : p.stop? side = none) : p.isLive side = true := by
  cases p with
  | running reader writer =>
      cases side with
      | read => cases reader <;> first | rfl | cases h
      | write => cases writer <;> first | rfl | cases h
  | _ => cases hrunning

theorem Phase.stop?_of_isLive {p : Phase} {side : Side} (h : p.isLive side = true) :
    p.stop? side = none := by
  cases p with
  | running reader writer =>
      cases side with
      | read => cases reader <;> first | rfl | cases h
      | write => cases writer <;> first | rfl | cases h
  | _ => cases side <;> cases h

namespace Network

section
variable {n m : Network} {a b : ClientId} {k : Connection}

/-- Both sides of a connection that runs in a settled network are live, and its flags are down. -/
theorem Settled.isLive (hs : n.Settled) {causes : List Cause} (hreached : n.Reached b causes)
    (hformed : n.Formed) (hk : n.connection? b = some k) (hrunning : k.phase.isRunning = true) :
    n.flags? b = some .clear ∧ ∀ side, k.phase.isLive side = true := by
  obtain ⟨f, p, hf, hp, hstage⟩ : ∃ f p, n.flags? b = some f ∧ n.phase? b = some p ∧
      Stage f p causes := by
    rcases hreached with ⟨-, hnone, -⟩ | hsome
    · rw [phase?_of_connection? hk] at hnone
      cases hnone
    · exact hsome
  obtain rfl : p = k.phase := Option.some.inj (hp.symm.trans (phase?_of_connection? hk))
  obtain ⟨c, hc, rfl⟩ := client?_of_flags? hf
  obtain ⟨side, hside⟩ := (hformed b k hk).busy hrunning
  -- A side that had stopped would leave the other one stopped or told, and the one that is live is
  -- neither.
  have hstop : ∀ s, k.phase.stop? s = none := by
    intro s
    cases hstopped : k.phase.stop? s with
    | none => rfl
    | some why =>
        rcases Client.eq_or_eq_other s side with rfl | rfl
        · rw [Phase.stop?_of_isLive hside] at hstopped
          cases hstopped
        · rcases hstage.stopped_or_told (by rw [hstopped]; rfl) with hother | htold
          · rw [Phase.stop?_of_isLive hside] at hother
            cases hother
          · rw [hs.not_tells hc hk hside] at htold
            cases htold
  have hclear : c.flags = .clear := by
    cases hstage with
    | untouched clear => exact clear
    | failed first later flags stopped =>
        rw [hstop first] at stopped
        cases stopped
    | told first later raised =>
        have := hs.not_tells hc hk hside
        rw [raised, Flags.tells_raised] at this
        cases this
  exact ⟨hf.trans (congrArg some hclear), fun s => Phase.isLive_of_stop? hrunning (hstop s)⟩

/-- The running connections of a settled network are calm, and their flags are down. -/
theorem Settled.calm (hs : n.Settled) {causes : List Cause} (hreached : n.Reached b causes)
    (hformed : n.Formed) (hk : n.connection? b = some k) (hrunning : k.phase.isRunning = true) :
    n.flags? b = some .clear ∧ k.Calm n.now := by
  obtain ⟨hflags, hlive⟩ := hs.isLive hreached hformed hk hrunning
  obtain ⟨c, hc, -⟩ := client?_of_flags? hflags
  have hfine := hformed b k hk
  refine ⟨hflags, ?_⟩
  obtain ⟨reader, writer, hphase⟩ : ∃ reader writer, k.phase = .running reader writer := by
    cases hphase : k.phase with
    | running reader writer => exact ⟨reader, writer, rfl⟩
    | _ => rw [hphase] at hrunning; cases hrunning
  have hreader : reader.live = 1 := by
    have := hlive .read
    rw [hphase] at this
    simpa [Phase.isLive] using this
  obtain ⟨-, hbytes, hlistens⟩ := waits_of_step?_none hc hk (hs (.read b)) hphase hreader
    (hfine.fits reader (by rw [hphase]; rfl))
  have hread : k.readTurn? n.now n.registry.running b c = none := by
    simpa only [step?, readStep?, turn?, hc, hk, Option.map_eq_none_iff] using hs (.read b)
  have hwrite : k.writeTurn? n.now b c = none := by
    simpa only [step?, writeStep?, turn?, hc, hk, Option.map_eq_none_iff] using hs (.write b)
  refine ⟨hlive, hbytes, hlistens, ?_,
    fun wait hw => Connection.not_expired_of_readTurn?_eq_none hread hw,
    fun wait hw => Connection.not_expired_of_writeTurn?_eq_none hwrite hw⟩
  rw [Bool.eq_false_iff]
  intro hclosed
  rw [hfine.closes hclosed] at hlistens
  cases hlistens

/-- A step of a task, or something that the peer of one connection does. -/
def Event.IsOf (a : ClientId) : Event → Prop
  | .task _ => True
  | .move (.deliver j _) => j = a
  | .move (.withdraw j _) => j = a
  | .move (.endStream j) => j = a
  | .move (.hangUp j) => j = a
  | _ => False

instance (a : ClientId) : (e : Event) → Decidable (e.IsOf a)
  | .task _ => .isTrue trivial
  | .move (.deliver j _) => inferInstanceAs (Decidable (j = a))
  | .move (.withdraw j _) => inferInstanceAs (Decidable (j = a))
  | .move (.endStream j) => inferInstanceAs (Decidable (j = a))
  | .move (.hangUp j) => inferInstanceAs (Decidable (j = a))
  | .move (.build ..) | .move (.start _) | .move (.discard _) | .move (.disconnect _)
  | .move (.capture _) | .move (.offer ..) | .move (.ask _) | .move (.advance _) => .isFalse id

/-- In the event the mailbox of a client refuses an offer of the registry. -/
def refusesIn (n : Network) (e : Event) (id : ClientId) : Bool :=
  match e with
  | .task .registry =>
      n.queue.head?.any fun request => refusedIn id (n.registry.handle request).rounds
  | _ => false

def refusedOf (past : List (Network × Event)) (id : ClientId) : Bool :=
  past.any fun s => s.1.refusesIn s.2 id

/-- A client has been left alone since a settled network. -/
structure Kept (n m : Network) (b : ClientId) : Prop where
  flags : m.flags? b = n.flags? b
  member : b ∈ m.registry.members.ids ↔ b ∈ n.registry.members.ids
  running : m.IsRunning b ↔ n.IsRunning b
  calm : ∀ k, m.connection? b = some k → k.phase.isRunning = true →
    m.flags? b = some .clear ∧ k.Calm m.now

/-- Where a client is after what someone else's peer did. Either it has been left alone, or it refused
an offer and was told to stop. -/
structure Aside (n m : Network) (refused : Bool) (b : ClientId) : Prop where
  position : m.registry.position? b = n.registry.position? b
  silent : ∀ k, m.connection? b = some k → k.phase.isLive .read = true → k.inbound.bytes = []
  kept : refused = false → Kept n m b
  told : refused = true → ∀ f, m.flags? b = some f → f = .raised

/-- A turn that one of the two sides has next. -/
def OwnTurn (n : Network) (b : ClientId) (c : Client) (k : Connection) (t : Turn) : Prop :=
  k.readTurn? n.now n.registry.running b c = some t ∨ k.stopTurn? c = some t ∨
    k.writeTurn? n.now b c = some t

theorem OwnTurn.outcome {c : Client} {t : Turn} (h : n.OwnTurn b c k t) : k.Outcome b c t := by
  rcases h with ht | ht | ht
  · obtain ⟨reader, writer, hp, hr, hturn⟩ := Connection.readTurn?_cases ht
    exact hturn.outcome hp hr
  · obtain ⟨reader, writer, hp, hw, hturn⟩ := @Connection.stopTurn?_cases k b c t ht
    exact hturn.outcome hp hw
  · obtain ⟨reader, writer, hp, hw, hturn⟩ := Connection.writeTurn?_cases ht
    exact hturn.outcome hp hw

/-- A turn without bytes to read leaves the record as it is. -/
theorem OwnTurn.silent {c : Client} {t : Turn} (h : n.OwnTurn b c k t) (hformed : k.Formed)
    (hsilent : k.phase.isLive .read = true → k.inbound.bytes = []) :
    t.client.record = c.record ∧
      (t.connection.phase.isLive .read = true → t.connection.inbound.bytes = []) := by
  -- The write side leaves the read side and its pipe alone.
  have beside : ∀ {reader : Reader} {writer : Writer} {outbound : Pipe} {writer' : Writer},
      k.phase = .running reader writer →
      ({ k with outbound }.become reader writer').phase.isLive .read = true →
      ({ k with outbound }.become reader writer').inbound.bytes = [] := by
    intro reader writer outbound writer' hp hlive
    rw [Connection.isLive_become_read] at hlive
    rw [Connection.inbound_bytes_become]
    exact hsilent (by rw [hp]; exact hlive)
  rcases h with ht | ht | ht
  · obtain ⟨reader, writer, hp, hr, -⟩ := Connection.readTurn?_cases ht
    have hbytes : k.inbound.bytes = [] := hsilent (by rw [hp]; simp [Phase.isLive, hr])
    obtain ⟨count, reader', -, hconnection⟩ :=
      Connection.readTurn?_takes ht hp (hformed.fits reader (by rw [hp]; rfl))
    refine ⟨Connection.record_of_silent ht hbytes, fun _ => ?_⟩
    rw [hconnection, Connection.inbound_bytes_become]
    simp [Pipe.drop, hbytes]
  · obtain ⟨reader, writer, hp, -, hturn⟩ := @Connection.stopTurn?_cases k b c t ht
    refine ⟨hturn.record, ?_⟩
    rw [Connection.stopTurn?_eq ht hp]
    exact beside hp
  · obtain ⟨reader, writer, hp, -, hturn⟩ := Connection.writeTurn?_cases ht
    obtain ⟨outbound, writer', -, -, hconnection, -⟩ := Connection.writeTurn?_gives ht hp
    refine ⟨hturn.record, ?_⟩
    rw [hconnection]
    exact beside hp

end

section
variable {n m m' : Network} {a b j : ClientId} {refused : Bool}

theorem Settled.aside (hs : n.Settled) {causes : List Cause} (hreached : n.Reached b causes)
    (hformed : n.Formed) : Aside n n false b := by
  refine ⟨rfl, ?_, fun _ => ⟨rfl, Iff.rfl, Iff.rfl, fun k => hs.calm hreached hformed⟩,
    fun h => by cases h⟩
  intro k hk hlive
  exact (hs.calm hreached hformed hk (Phase.isRunning_of_isLive hlive)).2.silent

/-- Nothing happens to the client itself. -/
theorem Aside.of_alike (h : Aside n m refused b) (hclient : m'.client? b = m.client? b)
    (hconnection : m'.connection? b = m.connection? b)
    (hmembers : m'.registry.members = m.registry.members) (htime : m'.now.time = m.now.time) :
    Aside n m' refused b := by
  have hflags : m'.flags? b = m.flags? b := by
    change (m'.client? b).map Client.flags = (m.client? b).map Client.flags
    rw [hclient]
  have hrunning : m'.IsRunning b ↔ m.IsRunning b := by
    unfold IsRunning phase?
    rw [hconnection]
  refine ⟨?_, ?_, ?_, ?_⟩
  · rw [← h.position]
    change ((m'.client? b).map Client.record).map _ = ((m.client? b).map Client.record).map _
    rw [hclient]
  · rw [hconnection]
    exact h.silent
  · intro hr
    obtain ⟨hf, hm, hp, hcalm⟩ := h.kept hr
    refine ⟨hflags.trans hf, by rw [hmembers]; exact hm, hrunning.trans hp, ?_⟩
    intro k hk hrun
    rw [hconnection] at hk
    obtain ⟨hclear, hk⟩ := hcalm k hk hrun
    exact ⟨hflags.trans hclear, hk.of_time htime⟩
  · rw [hflags]
    exact h.told

/-- The peer of another connection does something. -/
theorem Aside.peer (h : Aside n m refused b) (hb : b ≠ a) (f : Connection → Connection) :
    Aside n (m.modifyConnection a f) refused b := by
  refine h.of_alike (client?_modifyConnection ..) ?_ (by simp) ?_
  · rw [connection?_modifyConnection, if_neg hb]
  · unfold modifyConnection
    split <;> rfl

theorem Aside.otherTurn (h : Aside n m refused b) (hb : b ≠ j) (t : Turn) :
    Aside n (m.apply j t) refused b := by
  refine h.of_alike ?_ ?_ (members_apply ..) ?_
  · rw [client?_apply, if_neg hb]
  · rw [connection?_apply, if_neg hb]
  · unfold apply enqueue
    split <;> rfl

theorem IsRunning.of_connection {k : Connection} (hk : n.connection? b = some k)
    (hrunning : k.phase.isRunning = true) : n.IsRunning b :=
  ⟨k.phase, phase?_of_connection? hk, hrunning⟩

/-- A calm connection has a turn only to write on. -/
theorem Kept.ownTurn (h : Kept n m b) (hformed : m.Formed) {c : Client} {k : Connection} {t : Turn}
    (hc : m.client? b = some c) (hk : m.connection? b = some k) (hrunning : k.phase.isRunning = true)
    (ht : m.OwnTurn b c k t) :
    Kept n (m.apply b t) b ∧ t.requests = [] := by
  obtain ⟨hf, hm, hp, hcalm⟩ := h
  obtain ⟨hclear, hk'⟩ := hcalm k hk hrunning
  have hflags : c.flags = .clear := Option.some.inj ((flags?_of_client? hc).symm.trans hclear)
  rcases ht with ht | ht | ht
  · rw [hk'.readTurn?_eq_none (congrArg Flags.exitRead hflags)] at ht
    cases ht
  · rw [Connection.stopTurn?_eq_none (congrArg Flags.exitWrite hflags)] at ht
    cases ht
  · obtain ⟨hnext, hsame, hrequests⟩ := hk'.writeTurn (hformed b k hk) ht
    have hconnection : (m.apply b t).connection? b = some t.connection := by
      rw [connection?_apply, if_pos rfl]
    have hlater : (m.apply b t).now.time = m.now.time := by
      unfold apply enqueue
      split <;> rfl
    have hflags' : (m.apply b t).flags? b = m.flags? b := by
      rw [flags?_apply, if_pos rfl, hsame, flags?_of_client? hc]
    refine ⟨⟨hflags'.trans hf, by rw [members_apply]; exact hm, ?_, ?_⟩, hrequests⟩
    · have hafter : (m.apply b t).IsRunning b :=
        .of_connection hconnection (Phase.isRunning_of_isLive (hnext.live .read))
      exact iff_of_true hafter (hp.mp (.of_connection hk hrunning))
    · intro i hi _
      rw [hconnection] at hi
      cases hi
      exact ⟨hflags'.trans hclear, hnext.of_time hlater⟩

/-- A turn of the client's own connection: it writes on, or it stops as it was told. -/
theorem Aside.ownTurn (h : Aside n m refused b) (hformed : m.Formed) {c : Client} {k : Connection}
    {t : Turn} (hc : m.client? b = some c) (hk : m.connection? b = some k)
    (ht : m.OwnTurn b c k t) :
    Aside n (m.apply b t) refused b ∧ ∀ request ∈ t.requests, request = .broadcast := by
  obtain ⟨hrecord, hsilent⟩ := ht.silent (hformed b k hk) (h.silent k hk)
  have hposition : (m.apply b t).registry.position? b = m.registry.position? b := by
    change (((m.apply b t).client? b).map Client.record).map _ = ((m.client? b).map _).map _
    rw [client?_apply, if_pos rfl, hc, Option.map_some, Option.map_some, hrecord]
    rfl
  have hsilent' : ∀ i, (m.apply b t).connection? b = some i → i.phase.isLive .read = true →
      i.inbound.bytes = [] := by
    intro i hi
    rw [connection?_apply, if_pos rfl] at hi
    cases hi
    exact hsilent
  cases refused with
  | false =>
      obtain ⟨hkept, hnone⟩ := (h.kept rfl).ownTurn hformed hc hk ht.outcome.isRunning ht
      refine ⟨⟨hposition.trans h.position, hsilent', fun _ => hkept, fun h => by cases h⟩, ?_⟩
      rw [hnone]
      simp
  | true =>
      have hraised := h.told rfl c.flags (flags?_of_client? hc)
      obtain ⟨hsame, hrequests⟩ := ht.outcome.of_closing (by rw [hraised]; rfl)
      refine ⟨⟨hposition.trans h.position, hsilent', (by simp), ?_⟩, hrequests⟩
      intro _ f hf
      rw [flags?_apply, if_pos rfl] at hf
      cases hf
      exact hsame.trans hraised

/-- The registry broadcasts, with or without the other client. -/
theorem Aside.registryStep (h : Aside n m refused b) (hb : b ≠ a)
    (hqueue : ∀ request ∈ m.queue, request = .broadcast ∨ request = .leave a)
    (hm : m.registryStep? = some m') :
    Aside n m' (refused || m.refusesIn (.task .registry) b) b := by
  obtain ⟨request, rest, hq, hregistry, -, hconnections, -⟩ := registryStep?_eq_some hm
  have hrefuses : m.refusesIn (.task .registry) b =
      refusedIn b (m.registry.handle request).rounds := by
    unfold refusesIn
    rw [hq]
    rfl
  have hconnection : m'.connection? b = m.connection? b := by
    rw [connection?, hconnections]
    rfl
  have htime : m'.now = m.now := by
    unfold registryStep? at hm
    rw [hq] at hm
    cases hm
    rfl
  have hrequest : request ≠ .shutDown ∧ request ≠ .join b ∧
      ∀ member, request.keeps b member = member := by
    rcases hqueue request (by simp [hq]) with rfl | rfl
    · exact ⟨by simp, by simp, fun _ => rfl⟩
    · exact ⟨by simp, by simp, fun member => by simp [Request.keeps, Ne.symm hb]⟩
  obtain ⟨hshut, hjoin, hkeeps⟩ := hrequest
  have hflags : m'.flags? b =
      if m.refusesIn (.task .registry) b then (m.flags? b).map fun _ => .raised
      else m.flags? b := by
    rw [flags?, hregistry, Registry.flags?_handle _ hshut, hrefuses]
    rfl
  have hmember : m.refusesIn (.task .registry) b = false →
      (b ∈ m'.registry.members.ids ↔ b ∈ m.registry.members.ids) := by
    intro hr
    rw [hregistry]
    by_cases hrunning : m.registry.running = true
    · rw [Registry.mem_handle_iff hrunning hshut fun h => absurd h hjoin, hkeeps, ← hrefuses, hr]
      simp
    · simp [Registry.handle, hrunning]
  refine ⟨?_, ?_, ?_, ?_⟩
  · rw [hregistry, Registry.position?_handle]
    exact h.position
  · rw [hconnection]
    exact h.silent
  · intro hr
    obtain ⟨hold, hnow⟩ := Bool.or_eq_false_iff.mp hr
    obtain ⟨hf, hmem, hp, hcalm⟩ := h.kept hold
    have hsame : m'.flags? b = m.flags? b := by
      rw [hflags, hnow]
      rfl
    refine ⟨hsame.trans hf, (hmember hnow).trans hmem, ?_, ?_⟩
    · rw [← hp]
      unfold IsRunning phase?
      rw [hconnection]
    · intro k hk hrun
      rw [hconnection] at hk
      rw [hsame, htime]
      exact hcalm k hk hrun
  · intro hr f hf
    rw [hflags] at hf
    split at hf
    · obtain ⟨-, -, rfl⟩ := Option.map_eq_some_iff.mp hf
      rfl
    · next hnow =>
        have hold : refused = true := by simpa [hnow] using hr
        exact h.told hold f hf

/-- The clock has stood still since a settled network, the requests that wait are broadcasts and the
departure of one client, and the others have been left aside. -/
structure Apart (a : ClientId) (n : Network) (past : List (Network × Event)) (m : Network) :
    Prop where
  issued : m.Issued
  formed : m.Formed
  queue : ∀ request ∈ m.queue, request = .broadcast ∨ request = .leave a
  others : ∀ b ≠ a, Aside n m (refusedOf past b) b

theorem refusedOf_append (past : List (Network × Event)) (m : Network) (e : Event) (b : ClientId) :
    refusedOf (past ++ [(m, e)]) b = (refusedOf past b || m.refusesIn e b) := by
  simp [refusedOf]

theorem Apart.peer {past : List (Network × Event)} (h : Apart a n past m) (move : Move)
    (f : Connection → Connection) (hm : m.react (.move move) = m.modifyConnection a f) :
    Apart a n (past ++ [(m, .move move)]) (m.react (.move move)) := by
  refine ⟨h.issued.react _, h.formed.react h.issued _, ?_, ?_⟩
  · rw [hm, queue_modifyConnection]
    exact h.queue
  · intro b hb
    rw [refusedOf_append, hm]
    simpa [refusesIn] using (h.others b hb).peer hb f

/-- Nothing happens. -/
theorem Apart.stay {past : List (Network × Event)} (h : Apart a n past m) {e : Event}
    (hm : m.react e = m) (hquiet : ∀ b, m.refusesIn e b = false) :
    Apart a n (past ++ [(m, e)]) (m.react e) := by
  rw [hm]
  refine ⟨h.issued, h.formed, h.queue, fun b hb => ?_⟩
  rw [refusedOf_append, hquiet, Bool.or_false]
  exact h.others b hb

/-- Any turn of any connection. -/
theorem Apart.turn {past : List (Network × Event)} (h : Apart a n past m) {task : Task}
    (htask : task ≠ .registry) {side : Client → Connection → Option Turn}
    (hstep : m.step? task = m.turn? j side)
    (hside : ∀ c k t, side c k = some t → m.OwnTurn j c k t) :
    Apart a n (past ++ [(m, .task task)]) (m.react (.task task)) := by
  have hquiet : ∀ b, m.refusesIn (.task task) b = false := by
    intro b
    cases task with
    | registry => exact absurd rfl htask
    | _ => rfl
  cases hs : m.step? task with
  | none => exact h.stay (react_of_none hs) hquiet
  | some m' =>
      obtain ⟨c, k, t, hc, hk, ht, rfl⟩ := turn?_eq_some (hstep.symm.trans hs)
      have hreact := react_of_some hs
      have hturn := hside c k t ht
      refine ⟨h.issued.react _, h.formed.react h.issued _, ?_, ?_⟩
      · have hsent : ∀ request ∈ t.requests, request = .broadcast ∨ request = .leave a := by
          intro request hr
          by_cases hj : j = a
          · subst hj
            exact hturn.outcome.requests_of request hr
          · exact .inl (((h.others j hj).ownTurn h.formed hc hk hturn).2 request hr)
        rw [hreact, queue_apply]
        split
        · intro request hr
          rcases List.mem_append.mp hr with hr | hr
          · exact h.queue request hr
          · exact hsent request hr
        · exact h.queue
      · intro b hb
        rw [refusedOf_append, hquiet, Bool.or_false, hreact]
        by_cases hj : b = j
        · subst hj
          exact ((h.others b hb).ownTurn h.formed hc hk hturn).1
        · exact (h.others b hb).otherTurn hj t

theorem Apart.react {past : List (Network × Event)} (h : Apart a n past m) {e : Event}
    (he : e.IsOf a) : Apart a n (past ++ [(m, e)]) (m.react e) := by
  cases e with
  | move move =>
      cases move with
      | deliver j bytes =>
          obtain rfl : j = a := he
          by_cases hadmits : m.admits j bytes = true
          · exact h.peer _ _ (if_pos hadmits)
          · exact h.stay (if_neg hadmits) fun _ => rfl
      | withdraw j count =>
          obtain rfl : j = a := he
          exact h.peer _ _ rfl
      | endStream j =>
          obtain rfl : j = a := he
          exact h.peer _ _ rfl
      | hangUp j =>
          obtain rfl : j = a := he
          exact h.peer _ _ rfl
      | _ => exact he.elim
  | task task =>
      cases task with
      | read j => exact h.turn (by simp) rfl fun c k t ht => .inl ht
      | stop j => exact h.turn (by simp) rfl fun c k t ht => .inr (.inl ht)
      | write j => exact h.turn (by simp) rfl fun c k t ht => .inr (.inr ht)
      | registry =>
          cases hs : m.step? .registry with
          | none =>
              refine h.stay (react_of_none hs) fun b => ?_
              have hq : m.queue = [] := registryStep?_eq_none hs
              simp [refusesIn, hq]
          | some m' =>
              refine ⟨h.issued.react _, h.formed.react h.issued _, ?_, ?_⟩
              · obtain ⟨request, rest, hq, -, hqueue, -, -⟩ := registryStep?_eq_some hs
                rw [react_of_some hs, hqueue]
                split
                · intro request hr
                  exact h.queue request (by rw [hq]; exact List.mem_cons_of_mem _ hr)
                · simp
              · intro b hb
                rw [refusedOf_append, react_of_some hs]
                exact (h.others b hb).registryStep hb h.queue hs

end

/-- From a settled network on, as long as the clock stands still and nobody but the peer of one
connection does anything, every other client keeps its identifier and its position. Unless its own
mailbox refuses an offer of the registry in that time, it also keeps its flags, it is a member just as
before, and its connection runs if and only if it ran before. -/
theorem others_untouched (ids : IdentifierSource) {events more : List Event} {a b : ClientId}
    (hs : (({ ids } : Network).after events).Settled) (hmore : ∀ e ∈ more, e.IsOf a) (hb : b ≠ a) :
    let n := ({ ids } : Network).after events
    let m := n.after more
    m.registry.position? b = n.registry.position? b ∧
      ((∀ s ∈ n.trace more, s.1.refusesIn s.2 b = false) →
        m.flags? b = n.flags? b ∧
          (b ∈ m.registry.members.ids ↔ b ∈ n.registry.members.ids) ∧
          (m.IsRunning b ↔ n.IsRunning b)) := by
  intro n m
  obtain ⟨hissued, hformed⟩ := formed_after ids events
  have hstart : Apart a n [] n := by
    refine ⟨hissued, hformed, ?_, fun b _ => ?_⟩
    · have hq : n.queue = [] := hs.queue_eq_nil
      simp [hq]
    · exact hs.aside (reached_after ids events b).2.1 hformed
  have hapart : Apart a n (n.trace more) m :=
    run_induction (P := Apart a n) (Q := fun _ e => e.IsOf a)
      (fun past m e h he => h.react he) hstart more
      fun s hmem => hmore s.2 (event_mem_of_mem_trace hmem)
  have haside := hapart.others b hb
  refine ⟨haside.position, fun hnone => ?_⟩
  obtain ⟨hflags, hmember, hrunning, -⟩ := haside.kept (List.any_eq_false.mpr (by simpa using hnone))
  exact ⟨hflags, hmember, hrunning⟩

/-- Two connections are run, and everything is written. -/
def twoAtRest : List Event :=
  [.move (.build {} 256 0 0), .move (.build {} 256 0 0), .move (.start 1), .move (.start 2),
    .task .registry, .task .registry] ++
    List.replicate 6 (.task (.write 1)) ++ List.replicate 4 (.task (.write 2))

/-- The first peer reports a position under the other identifier, sends a frame that is none, and then
a length that no payload may have. -/
def unrulyPeer : List Event :=
  [.move (.deliver 1 (Wire.encodeFrame [.resting 2 ⟨0x3ff0000000000000⟩ .zero])),
    .task (.read 1), .task (.read 1), .move (.deliver 1 [0, 0, 0, 1, 9]), .task (.read 1),
    .task (.read 1), .task .registry, .move (.deliver 1 [255, 255, 255, 255]), .task (.read 1),
    .task .registry, .task (.stop 1), .task (.write 2)]

theorem second_untouched_by_unrulyPeer :
    let n := ({} : Network).after twoAtRest
    let m := n.after unrulyPeer
    n.Settled ∧ (∀ e ∈ unrulyPeer, e.IsOf 1) ∧
      (∀ s ∈ n.trace unrulyPeer, s.1.refusesIn s.2 2 = false) ∧
      m.registry.position? 2 = some (.resting 2 .zero .zero) ∧ m.flags? 2 = some .clear ∧
      2 ∈ m.registry.members.ids ∧ 1 ∉ m.registry.members.ids := by
  intro n m
  have hs : n.Settled := settled_of_isNone (by decide +kernel)
  have hmore : ∀ e ∈ unrulyPeer, e.IsOf 1 := by decide +kernel
  have hnone : ∀ s ∈ n.trace unrulyPeer, s.1.refusesIn s.2 2 = false := by decide +kernel
  have hposition : n.registry.position? 2 = some (.resting 2 .zero .zero) := by decide +kernel
  have hflags : n.flags? 2 = some .clear := by decide +kernel
  have hids : (({} : Network).after twoAtRest).registry.members.ids = [1, 2] := by decide +kernel
  obtain ⟨hsame, hkept⟩ := others_untouched {} hs hmore (b := 2) (by decide)
  obtain ⟨hflags', hmember, -⟩ := hkept hnone
  have hlater : 2 ∈ m.registry.members.ids := by
    rw [hmember, hids]
    simp
  have hgone : 1 ∉ m.registry.members.ids := by decide +kernel
  exact ⟨hs, hmore, hnone, hsame.trans hposition, hflags'.trans hflags, hlater, hgone⟩

end Network
end PositionRelay
