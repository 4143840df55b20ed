import PositionRelay.Proofs.Network.Convergence
import PositionRelay.Proofs.Network.Evolution
import PositionRelay.Proofs.Network.Shutdown
import PositionRelay.Proofs.Registry.Service

/-!
# How a client enters and leaves the registry

A client that nobody makes join from outside enters the registry at most once: its join is sent when
its connection is run, and until that join is handled the client is no member (`entry_after`). Once its
connection has begun to close by itself, by an eviction or by a shutdown, it is out of the registry or
its departure waits behind its join (`exits_after`).

Both hold whatever other clients do. They rest on what holds of every run without exception
(`regular_after`): the registry knows its members, records carry the identifiers of their clients, and
a registry that was shut down is empty.
-/
namespace PositionRelay

/-- A member was one before, unless the request makes it one. -/
theorem Registry.keeps_of_mem_handle {r : Registry} {id : ClientId} {request : Request}
    (hrunning : r.running = true) (h : id ∈ (r.handle request).registry.members.ids) :
    request.keeps id (id ∈ r.members.ids) := by
  by_cases hknown : request = .join id → (r.clients.get? id).isSome
  · exact (fate_handle hrunning hknown).stays_of_mem h
  · obtain ⟨rfl, hnone⟩ := Classical.not_imp.mp hknown
    have hunknown : r.clients.get? id = none := by simpa using hnone
    rw [handle, if_neg (by simp [hrunning])] at h
    dsimp only at h
    rw [join_of_unknown hunknown] at h
    exact .inl h

namespace Network

/-- The connection was run. -/
def HasStarted (n : Network) (id : ClientId) : Prop :=
  ∃ k, n.connection? id = some k ∧ k.phase.isStarted = true

section
variable {n m : Network} {id : ClientId} {k j : Connection} {e : Event}

theorem Evolves.isStarted (h : n.Evolves id k e j) (hk : k.phase.isStarted = true) :
    j.phase.isStarted = true := by
  cases h with
  | unchanged => exact hk
  | started => rfl
  | givenUp _ fresh => rw [fresh] at hk; cases hk
  | heard => exact hk
  | withdrawn => exact hk
  | ended => exact hk
  | hungUp => exact hk
  | read c t _ turn =>
      obtain ⟨reader, writer, -, -, hturn⟩ := Connection.readTurn?_cases turn
      exact hturn.enters.isStarted
  | told c t _ turn =>
      obtain ⟨reader, writer, -, -, hturn⟩ := @Connection.stopTurn?_cases _ id _ _ turn
      exact hturn.enters.isStarted
  | wrote c t _ turn =>
      obtain ⟨reader, writer, -, -, hturn⟩ := Connection.writeTurn?_cases turn
      exact hturn.enters.isStarted

theorem HasStarted.react (h : n.HasStarted id) (hi : n.Issued) (e : Event) :
    (n.react e).HasStarted id := by
  obtain ⟨k, hk, hstarted⟩ := h
  obtain ⟨j, hj, hevolves⟩ := evolves hi hk e
  exact ⟨j, hj, hevolves.isStarted hstarted⟩

theorem HasStarted.not_isFresh (h : n.HasStarted id) : n.isFresh id = false := by
  obtain ⟨k, hk, hstarted⟩ := h
  rw [Bool.eq_false_iff]
  intro hfresh
  obtain ⟨i, hi, hp⟩ := isFresh_iff.mp hfresh
  rw [hk] at hi
  cases hi
  rw [hp] at hstarted
  cases hstarted

theorem hasStarted_run (hfresh : n.isFresh id = true) (hrunning : n.registry.running = true) :
    (n.run id).HasStarted id := by
  obtain ⟨k, hk, -⟩ := isFresh_iff.mp hfresh
  refine ⟨{ k with phase := .running (.length [] n.now) .idle }, ?_, rfl⟩
  rw [run, if_pos hrunning, connection?_enqueue, connection?_modifyConnection, if_pos rfl, hk]
  rfl

/-- A move adds to the queue, and a join only if it is asked for or the connection is run by it. -/
theorem queue_make (n : Network) (move : Move) :
    ∃ later, (n.make move).queue = n.queue ++ later ∧ ∀ id, .join id ∈ later →
      move = .ask (.join id) ∨
        (later = [.join id] ∧ n.isFresh id = true ∧ (n.make move).HasStarted id) := by
  have silent : ∀ {m : Network}, m.queue = n.queue → ∃ later, m.queue = n.queue ++ later ∧
      ∀ id, .join id ∈ later → move = .ask (.join id) ∨
        (later = [.join id] ∧ n.isFresh id = true ∧ m.HasStarted id) :=
    fun h => ⟨[], by rw [h, List.append_nil], fun _ hj => by cases hj⟩
  cases move with
  | start j =>
      unfold make
      dsimp only
      split
      · next hfresh =>
          by_cases hrunning : n.registry.running = true
          · refine ⟨[.join j], ?_, ?_⟩
            · rw [run, if_pos hrunning, queue_enqueue, queue_modifyConnection,
                registry_modifyConnection, if_pos hrunning]
            · intro id hj
              cases List.mem_singleton.mp hj
              exact .inr ⟨rfl, hfresh, hasStarted_run hfresh hrunning⟩
          · exact silent (by rw [run, if_neg hrunning, queue_abandon])
      · exact silent rfl
  | ask request =>
      rw [make_ask]
      by_cases hrunning : n.registry.running = true
      · refine ⟨[request], by rw [queue_enqueue, if_pos hrunning], ?_⟩
        intro id hj
        exact .inl (by rw [List.mem_singleton.mp hj])
      · exact silent (by rw [queue_enqueue, if_neg hrunning])
  | build config buffer drawX drawY =>
      rcases n.make_build config buffer drawX drawY with he | ⟨-, -, he⟩
      · exact silent (by rw [he])
      · exact silent (by rw [he]; rfl)
  | discard j =>
      refine silent ?_
      change (n.discard j).queue = n.queue
      unfold discard
      split
      · exact queue_abandon ..
      · rfl
  | deliver j bytes =>
      refine silent ?_
      change (if n.admits j bytes then n.deliver j bytes else n).queue = n.queue
      split
      · exact queue_modifyConnection ..
      · rfl
  | withdraw j count => exact silent (queue_modifyConnection ..)
  | endStream j => exact silent (queue_modifyConnection ..)
  | hangUp j => exact silent (queue_modifyConnection ..)
  | disconnect j => exact silent (queue_modifyClient ..)
  | capture j => exact silent (queue_modifyClient ..)
  | offer j batch => exact silent (queue_modifyClient ..)
  | advance d => exact silent rfl

/-- The registry handles a request, or the queue grows; and a join is added only if it is asked for or
the connection is run. -/
theorem queue_react (n : Network) (e : Event) :
    (e = .task .registry ∧ n.registryStep? = some (n.react e)) ∨
      ((n.react e).registry.members = n.registry.members ∧
        ∃ later, (n.react e).queue = n.queue ++ later ∧ ∀ id, .join id ∈ later →
          e = .move (.ask (.join id)) ∨
            (later = [.join id] ∧ n.isFresh id = true ∧ (n.react e).HasStarted id)) := by
  cases e with
  | move move =>
      obtain ⟨later, hqueue, hjoin⟩ := n.queue_make move
      refine .inr ⟨(n.made move).members, later, hqueue, fun id hj => ?_⟩
      exact (hjoin id hj).imp (congrArg Event.move) fun h => h
  | task task =>
      cases hs : n.step? task with
      | none =>
          rw [react_of_none hs]
          exact .inr ⟨rfl, [], (List.append_nil _).symm, fun _ hj => by cases hj⟩
      | some m =>
          rw [react_of_some hs]
          rcases step?_cases hs with ⟨rfl, hr⟩ | ⟨-, j, c, k, t, ht, rfl⟩
          · exact .inl ⟨rfl, hr⟩
          · refine .inr ⟨members_apply .., ?_⟩
            by_cases hrunning : n.registry.running = true
            · refine ⟨t.requests, by rw [queue_apply, if_pos hrunning], fun id hj => ?_⟩
              exact absurd rfl (ht.outcome.ne_join hj id)
            · refine ⟨[], by rw [queue_apply, if_neg hrunning, List.append_nil], ?_⟩
              intro id hj
              cases hj

/-- What holds of a network whatever its events were. -/
structure Regular (n : Network) : Prop where
  issued : n.Issued
  formed : n.Formed
  reached : ∀ id, ∃ causes, n.Reached id causes
  sound : n.registry.Sound
  closed : n.registry.running = false → n.queue = [] ∧ n.registry.members.ids = []

theorem record?_eq (n : Network) (id : ClientId) :
    n.registry.record? id = (n.client? id).map Client.record := rfl

theorem Regular.sound_make (h : n.Regular) (move : Move) : (n.make move).registry.Sound := by
  have hmade := n.made move
  constructor
  · intro id hid
    rw [hmade.members] at hid
    have hknown := h.sound.known id hid
    rcases hmade.record? id with hr | hr | ⟨-, -, x, y, hr⟩
    · rw [hr]
      exact hknown
    · rw [hr, Option.isSome_map]
      exact hknown
    · rw [hr]
      rfl
  · intro id record hrecord
    rcases hmade.record? id with hr | hr | ⟨-, -, x, y, hr⟩
    · exact h.sound.named id record (hr.symm.trans hrecord)
    · obtain ⟨old, hold, rfl⟩ := Option.map_eq_some_iff.mp (hr.symm.trans hrecord)
      exact h.sound.named id old hold
    · rw [hr] at hrecord
      cases hrecord
      rfl

theorem Regular.sound_apply (h : n.Regular) {c : Client} {t : Turn} (ht : n.TurnOf id c k t) :
    (n.apply id t).registry.Sound := by
  have hold : n.registry.record? id = some c.record := by rw [record?_eq, ht.client]; rfl
  have hsame : t.client.record.id = c.record.id := by
    rcases ht.record with hr | ⟨hr, -⟩
    · rw [hr]
    · exact hr
  constructor
  · intro j hj
    rw [members_apply] at hj
    rw [record?_apply]
    split
    · rfl
    · exact h.sound.known j hj
  · intro j record hrecord
    rw [record?_apply] at hrecord
    split at hrecord
    · next he =>
        cases hrecord
        rw [he, hsame]
        exact h.sound.named id _ hold
    · exact h.sound.named j record hrecord

theorem Regular.sound_react (h : n.Regular) (e : Event) : (n.react e).registry.Sound := by
  cases e with
  | move move => exact h.sound_make move
  | task task =>
      cases hs : n.step? task with
      | none =>
          rw [react_of_none hs]
          exact h.sound
      | some m =>
          rw [react_of_some hs]
          rcases step?_cases hs with ⟨-, hr⟩ | ⟨-, j, c, k, t, ht, rfl⟩
          · obtain ⟨request, rest, -, hregistry, -, -, -⟩ := registryStep?_eq_some hr
            rw [hregistry]
            exact h.sound.handle request
          · exact h.sound_apply ht

theorem Regular.closed_react (h : n.Regular) (e : Event)
    (hclosed : (n.react e).registry.running = false) :
    (n.react e).queue = [] ∧ (n.react e).registry.members.ids = [] := by
  rcases n.handles_or_waits e with ⟨-, hm⟩ | hw
  · obtain ⟨request, rest, hq, hregistry, hqueue, -, -⟩ := registryStep?_eq_some hm
    rw [hregistry] at hclosed
    refine ⟨by rw [hqueue, if_neg (by simp [hclosed])], ?_⟩
    -- Only a running registry has something to handle, and only a shutdown ends that.
    have hrunning : n.registry.running = true := by
      cases hr : n.registry.running with
      | true => rfl
      | false => simp [(h.closed hr).1] at hq
    have hrequest : request = .shutDown := by
      by_cases hr : request = .shutDown
      · exact hr
      · rw [(Registry.running_handle hrunning request).mpr hr] at hclosed
        cases hclosed
    rw [hregistry, hrequest, Registry.handle, if_neg (by simp [hrunning])]
    rfl
  · rw [hw.running] at hclosed
    obtain ⟨hq, hmembers⟩ := h.closed hclosed
    exact ⟨by rw [hw.closed hclosed, hq], by rw [hw.members, hmembers]⟩

theorem Regular.react (h : n.Regular) (e : Event) : (n.react e).Regular := by
  refine ⟨h.issued.react e, h.formed.react h.issued e, fun id => ?_, h.sound_react e,
    h.closed_react e⟩
  obtain ⟨causes, hr⟩ := h.reached id
  exact ⟨_, (hr.react h.issued e).1⟩

theorem regular_empty (ids : IdentifierSource) : ({ ids } : Network).Regular := by
  have hsound : ({ ids } : Network).registry.Sound :=
    ⟨fun id hid => (by cases hid), fun id record hr => (by cases hr)⟩
  exact ⟨issued_empty ids, fun id k hk => (by cases hk), fun id => ⟨[], .inl ⟨rfl, rfl, rfl⟩⟩,
    hsound, fun _ => ⟨rfl, rfl⟩⟩

theorem regular_after (ids : IdentifierSource) (events : List Event) :
    (({ ids } : Network).after events).Regular :=
  run_induction (P := fun _ n => n.Regular) (Q := fun _ _ => True) (fun _ _ e h _ => h.react e)
    (regular_empty ids) events fun _ _ => trivial

/-- A client is never without its connection. -/
theorem Regular.paired (h : n.Regular) (id : ClientId) :
    (n.flags? id).isSome = (n.phase? id).isSome := by
  obtain ⟨causes, ⟨hf, hp, -⟩ | ⟨f, p, hf, hp, -⟩⟩ := h.reached id
  · rw [hf, hp]
    rfl
  · rw [hf, hp]
    rfl

/-- A registry that handles a request has not been shut down. -/
theorem Regular.running_of_queue (h : n.Regular) {request : Request} {rest : List Request}
    (hq : n.queue = request :: rest) : n.registry.running = true := by
  cases hr : n.registry.running with
  | true => rfl
  | false => simp [(h.closed hr).1] at hq

/-- How far a client that enters by being run has come. -/
structure Entry (n : Network) (id : ClientId) : Prop where
  once : n.queue.count (.join id) ≤ 1
  inside : id ∈ n.registry.members.ids → .join id ∉ n.queue
  outside : ¬ n.HasStarted id → id ∉ n.registry.members.ids ∧ .join id ∉ n.queue

/-- When a request that has to do with the client is handled, no other join of it waits. -/
theorem Entry.join_notMem (h : n.Entry id) {request : Request} {rest : List Request}
    (hq : n.queue = request :: rest) (hkeeps : request.keeps id (id ∈ n.registry.members.ids)) :
    .join id ∉ rest := by
  have ofMember : id ∈ n.registry.members.ids → .join id ∉ rest := by
    intro hmem hjoin
    exact h.inside hmem (by rw [hq]; exact List.mem_cons_of_mem _ hjoin)
  cases request with
  | join j =>
      rcases hkeeps with hmem | rfl
      · exact ofMember hmem
      · have honce := h.once
        rw [hq, List.count_cons_self] at honce
        exact List.count_eq_zero.mp (by omega)
  | leave j => exact ofMember hkeeps.1
  | broadcast => exact ofMember hkeeps
  | count => exact ofMember hkeeps
  | shutDown => exact ofMember hkeeps

/-- Whoever a request has to do with was run. -/
theorem Entry.hasStarted (h : n.Entry id) {request : Request} {rest : List Request}
    (hq : n.queue = request :: rest) (hkeeps : request.keeps id (id ∈ n.registry.members.ids)) :
    n.HasStarted id := by
  by_cases hstarted : n.HasStarted id
  · exact hstarted
  obtain ⟨hmem, hjoin⟩ := h.outside hstarted
  cases request with
  | join j =>
      rcases hkeeps with hin | rfl
      · exact absurd hin hmem
      · simp [hq] at hjoin
  | leave j => exact absurd hkeeps.1 hmem
  | broadcast => exact absurd hkeeps hmem
  | count => exact absurd hkeeps hmem
  | shutDown => exact absurd hkeeps hmem

theorem Entry.registryStep (h : n.Entry id) (hr : n.Regular) (hm : n.registryStep? = some m)
    (hstarted : n.HasStarted id → m.HasStarted id) : m.Entry id := by
  obtain ⟨request, rest, hq, hregistry, hqueue, -, -⟩ := registryStep?_eq_some hm
  have hsub : m.queue.Sublist rest := by
    rw [hqueue]
    split
    · exact List.Sublist.refl _
    · exact List.nil_sublist _
  have hkeeps : id ∈ m.registry.members.ids → request.keeps id (id ∈ n.registry.members.ids) := by
    rw [hregistry]
    exact Registry.keeps_of_mem_handle (hr.running_of_queue hq)
  refine ⟨?_, ?_, ?_⟩
  · refine Nat.le_trans (hsub.count_le _) (Nat.le_trans ?_ h.once)
    rw [hq]
    exact List.count_le_count_cons
  · intro hmem hjoin
    exact h.join_notMem hq (hkeeps hmem) (hsub.mem hjoin)
  · intro hnot
    have hout : ¬ n.HasStarted id := fun hs => hnot (hstarted hs)
    refine ⟨fun hmem => hout (h.hasStarted hq (hkeeps hmem)), fun hjoin => ?_⟩
    exact (h.outside hout).2 (by rw [hq]; exact List.mem_cons_of_mem _ (hsub.mem hjoin))

theorem Entry.react (h : n.Entry id) (hr : n.Regular) (he : e ≠ .move (.ask (.join id))) :
    (n.react e).Entry id := by
  have hkept : n.HasStarted id → (n.react e).HasStarted id := fun hs => hs.react hr.issued e
  rcases n.queue_react e with ⟨-, hm⟩ | ⟨hmembers, later, hqueue, hjoin⟩
  · exact h.registryStep hr hm hkept
  by_cases hin : .join id ∈ later
  · obtain ⟨rfl, hfresh, hstarted⟩ := (hjoin id hin).resolve_left he
    -- Nothing is known yet of a connection that is run by this event.
    obtain ⟨hmem, hnone⟩ := h.outside fun hs => by
      rw [hs.not_isFresh] at hfresh
      cases hfresh
    refine ⟨?_, ?_, fun hnot => absurd hstarted hnot⟩
    · rw [hqueue, List.count_append, List.count_eq_zero.mpr hnone]
      simp
    · rw [hmembers]
      exact fun hin => absurd hin hmem
  · refine ⟨?_, ?_, ?_⟩
    · rw [hqueue, List.count_append, List.count_eq_zero.mpr hin]
      exact h.once
    · rw [hmembers, hqueue]
      intro hmem hj
      exact (List.mem_append.mp hj).elim (h.inside hmem) hin
    · intro hnot
      obtain ⟨hmem, hnone⟩ := h.outside fun hs => hnot (hkept hs)
      rw [hmembers, hqueue]
      exact ⟨hmem, fun hj => (List.mem_append.mp hj).elim hnone hin⟩

theorem entry_empty (ids : IdentifierSource) (id : ClientId) : ({ ids } : Network).Entry id :=
  ⟨Nat.zero_le 1, fun hmem => (by cases hmem), fun _ => ⟨by simp, by simp⟩⟩

/-- The client is out of the registry, or its departure waits behind its join. -/
def Leaves (n : Network) (id : ClientId) : Prop :=
  (id ∉ n.registry.members.ids ∧ .join id ∉ n.queue) ∨
    ∃ before after, n.queue = before ++ .leave id :: after ∧ .join id ∉ after

theorem leaves_of_closed (hr : n.Regular) (hclosed : n.registry.running = false) : n.Leaves id := by
  obtain ⟨hq, hmembers⟩ := hr.closed hclosed
  exact .inl ⟨by rw [hmembers]; simp, by rw [hq]; simp⟩

theorem Leaves.waits (h : n.Leaves id) (hmembers : m.registry.members = n.registry.members)
    {later : List Request} (hqueue : m.queue = n.queue ++ later) (hjoin : .join id ∉ later) :
    m.Leaves id := by
  rcases h with ⟨hmem, hnone⟩ | ⟨before, after, hq, hnone⟩
  · refine .inl ⟨by rw [hmembers]; exact hmem, ?_⟩
    rw [hqueue]
    exact fun hj => (List.mem_append.mp hj).elim hnone hjoin
  · refine .inr ⟨before, after ++ later, by rw [hqueue, hq]; simp, ?_⟩
    exact fun hj => (List.mem_append.mp hj).elim hnone hjoin

theorem Leaves.registryStep (h : n.Leaves id) (hr : n.Regular) (hr' : m.Regular)
    (hm : n.registryStep? = some m) : m.Leaves id := by
  obtain ⟨request, rest, hq, hregistry, hqueue, -, -⟩ := registryStep?_eq_some hm
  have hkeeps : id ∈ m.registry.members.ids → request.keeps id (id ∈ n.registry.members.ids) := by
    rw [hregistry]
    exact Registry.keeps_of_mem_handle (hr.running_of_queue hq)
  cases hon : m.registry.running with
  | false => exact leaves_of_closed hr' hon
  | true =>
      rw [← hregistry, if_pos hon] at hqueue
      rcases h with ⟨hmem, hnone⟩ | ⟨before, after, hbehind, hnone⟩
      · rw [hq] at hnone
        refine .inl ⟨fun hin => ?_, by rw [hqueue]; exact fun hj => hnone (.tail _ hj)⟩
        have := hkeeps hin
        cases request with
        | join j => rcases this with hin | rfl <;> simp_all
        | leave j => exact hmem this.1
        | broadcast => exact hmem this
        | count => exact hmem this
        | shutDown => exact hmem this
      · cases before with
        | nil =>
            rw [hq] at hbehind
            cases hbehind
            exact .inl ⟨fun hin => (hkeeps hin).2 rfl, by rw [hqueue]; exact hnone⟩
        | cons first before =>
            rw [hq] at hbehind
            cases hbehind
            exact .inr ⟨before, after, hqueue, hnone⟩

/-- A connection that is closing leaves the registry. -/
def Exits (n : Network) (id : ClientId) : Prop :=
  ∀ f, n.flags? id = some f → f.closing = true → n.HasStarted id ∧ n.Leaves id

/-- The client was closing before, or it fails, or it is dropped by the registry. -/
theorem exits_make (h : n.Exits id) (hr : n.Regular) {move : Move}
    (hjoin : move ≠ .ask (.join id)) (hdisconnect : move ≠ .disconnect id) :
    (n.make move).Exits id := by
  intro g hg hclosing
  have hold : n.flags? id = some g := by
    cases hf : n.flags? id with
    | none =>
        have hp : n.phase? id = none := by
          have hpaired := hr.paired id
          rw [hf] at hpaired
          simpa using hpaired.symm
        rcases react_unknown hf hp (.move move) with ⟨hnone, -⟩ | ⟨hclear, -⟩
        · exact absurd (hnone.symm.trans hg) (by simp)
        · cases hclear.symm.trans hg
          cases hclosing
    | some f =>
        by_cases hmove : ∃ j, move = .disconnect j
        · obtain ⟨j, rfl⟩ := hmove
          have hne : id ≠ j := fun he => hdisconnect (by rw [he])
          rw [← hf, ← hg]
          change (n.client? id).map Client.flags =
            ((n.modifyClient j Client.disconnect).client? id).map Client.flags
          rw [client?_modifyClient, if_neg hne]
        · have hphase : (n.phase? id).isSome := by
            rw [← hr.paired, hf]
            rfl
          obtain ⟨p, hp⟩ := Option.isSome_iff_exists.mp hphase
          have halike := make_alike hr.issued (fun j hj => hmove ⟨j, hj⟩) hp
          rw [← hf, ← halike.1, hg]
  obtain ⟨hstarted, hleaves⟩ := h g hold hclosing
  refine ⟨hstarted.react hr.issued (.move move), ?_⟩
  obtain ⟨later, hqueue, hin⟩ := n.queue_make move
  refine hleaves.waits (n.made move).members hqueue fun hj => ?_
  obtain ⟨-, hfresh, -⟩ := (hin id hj).resolve_left hjoin
  rw [hstarted.not_isFresh] at hfresh
  cases hfresh

theorem exits_apply (h : n.Exits id) (hr : n.Regular) {i : ClientId} {c : Client} {t : Turn}
    (ht : n.TurnOf i c k t) (hstarted : n.HasStarted id → (n.apply i t).HasStarted id) :
    (n.apply i t).Exits id := by
  intro g hg hclosing
  have hjoin : .join id ∉ t.requests := fun hj => ht.outcome.ne_join hj id rfl
  have later : n.Leaves id → (n.apply i t).Leaves id := by
    intro hleaves
    by_cases hrunning : n.registry.running = true
    · exact hleaves.waits (members_apply ..) (by rw [queue_apply, if_pos hrunning]) hjoin
    · have hsame : (n.apply i t).queue = n.queue ++ [] := by
        rw [queue_apply, if_neg hrunning, List.append_nil]
      exact hleaves.waits (members_apply ..) hsame (by simp)
  have ofSame : n.flags? id = some g →
      (n.apply i t).HasStarted id ∧ (n.apply i t).Leaves id := by
    intro hold
    obtain ⟨hs, hleaves⟩ := h g hold hclosing
    exact ⟨hstarted hs, later hleaves⟩
  rw [flags?_apply] at hg
  split at hg
  · next hi =>
      subst hi
      cases hg
      have hold := flags?_of_client? ht.client
      cases ht.outcome with
      | goesOn _ flags => exact ofSame (by rw [hold, flags])
      | told _ _ _ flags => exact ofSame (by rw [hold, flags])
      | failed side _ flags _ _ requests =>
          by_cases hc : c.flags.closing = true
          · exact ofSame (by rw [hold, flags, Client.flags_fail_of_closing hc])
          · -- The first failure asks for the departure, and the registry hears of it or is closed.
            have hfarewell : t.requests = [.leave id] := by
              have hopen : c.closing = false := Bool.eq_false_iff.mpr hc
              rw [requests, Connection.farewell, hopen]
              rfl
            refine ⟨hstarted ⟨k, ht.connection, ht.outcome.isStarted⟩, ?_⟩
            by_cases hrunning : n.registry.running = true
            · refine .inr ⟨n.queue, [], ?_, by simp⟩
              rw [queue_apply, if_pos hrunning, hfarewell]
            · exact later (leaves_of_closed hr (Bool.eq_false_iff.mpr hrunning))
  · exact ofSame hg

theorem exits_registryStep (h : n.Exits id) (hentry : n.Entry id) (hr : n.Regular)
    (hr' : m.Regular) (hm : n.registryStep? = some m)
    (hstarted : n.HasStarted id → m.HasStarted id) : m.Exits id := by
  intro g hg hclosing
  obtain ⟨request, rest, hq, hregistry, hqueue, -, -⟩ := registryStep?_eq_some hm
  have hknown : (n.registry.clients.get? id).isSome := by
    have hsame : (m.flags? id).isSome = (n.flags? id).isSome := by
      rw [flags?, hregistry]
      rcases n.registry.flags?_of_drops request id with ⟨-, hf⟩ | ⟨-, -, -, hf⟩
      · rw [hf]
        rfl
      · rw [hf, Option.isSome_map]
        rfl
    rw [hg] at hsame
    obtain ⟨f, hf⟩ := Option.isSome_iff_exists.mp hsame.symm
    obtain ⟨c, hc, -⟩ := client?_of_flags? hf
    exact Option.isSome_iff_exists.mpr ⟨c, hc⟩
  have hfate : Registry.Fate id n.registry m.registry
      (request.keeps id (id ∈ n.registry.members.ids)) := by
    rw [hregistry]
    exact Registry.fate_handle (hr.running_of_queue hq) fun _ => hknown
  rcases hfate with ⟨-, hflags⟩ | ⟨hkeeps, hmem, -⟩
  · obtain ⟨hs, hleaves⟩ := h g (hflags.symm.trans hg) hclosing
    exact ⟨hstarted hs, hleaves.registryStep hr hr' hm⟩
  · refine ⟨hstarted (hentry.hasStarted hq hkeeps), .inl ⟨hmem, ?_⟩⟩
    rw [hqueue]
    split
    · exact hentry.join_notMem hq hkeeps
    · simp

/-- The client is not made to join from outside, and it is not disconnected from outside. -/
def Event.Spares (id : ClientId) (e : Event) : Prop :=
  e ≠ .move (.ask (.join id)) ∧ e ≠ .move (.disconnect id)

theorem Exits.react (h : n.Exits id) (hentry : n.Entry id) (hr : n.Regular) (he : e.Spares id) :
    (n.react e).Exits id := by
  obtain ⟨hjoin, hdisconnect⟩ := he
  cases e with
  | move move =>
      exact exits_make h hr (fun hm => hjoin (by rw [hm])) fun hm => hdisconnect (by rw [hm])
  | task task =>
      cases hs : n.step? task with
      | none =>
          rw [react_of_none hs]
          exact h
      | some m =>
          have hreact := react_of_some hs
          have hr' := hr.react (.task task)
          have hstarted : n.HasStarted id → (n.react (.task task)).HasStarted id :=
            fun hold => hold.react hr.issued _
          rw [hreact] at hr' hstarted ⊢
          rcases step?_cases hs with ⟨-, hm⟩ | ⟨-, i, c, k, t, ht, rfl⟩
          · exact exits_registryStep h hentry hr hr' hm hstarted
          · exact exits_apply h hr ht hstarted

end

/-- A client that is not made to join from outside joins once. -/
theorem entry_after (ids : IdentifierSource) {events : List Event} {id : ClientId}
    (h : ∀ e ∈ events, e ≠ .move (.ask (.join id))) :
    (({ ids } : Network).after events).Entry id := by
  refine run_induction (P := fun _ n => n.Entry id)
    (Q := fun n e => n.Regular ∧ e ≠ .move (.ask (.join id))) ?_ (entry_empty ids id) events ?_
  · rintro past n e hentry ⟨hr, he⟩
    exact hentry.react hr he
  · rintro ⟨n, e⟩ hs
    obtain ⟨before, later, -, hn⟩ := exists_of_mem_trace hs
    exact ⟨hn ▸ regular_after ids before, h e (event_mem_of_mem_trace hs)⟩

/-- A connection that is closing was run, and it is out of the registry or its departure waits. -/
theorem exits_after (ids : IdentifierSource) {events : List Event} {id : ClientId}
    (h : ∀ e ∈ events, e.Spares id) : (({ ids } : Network).after events).Exits id := by
  refine run_induction (P := fun _ n => n.Exits id)
    (Q := fun n e => n.Regular ∧ n.Entry id ∧ e.Spares id) ?_ (fun f hf => by cases hf) events ?_
  · rintro past n e hexits ⟨hr, hentry, he⟩
    exact hexits.react hentry hr he
  · -- What comes before an event is a run too, so the client has entered as it should by then.
    rintro ⟨n, e⟩ hs
    obtain ⟨before, later, rfl, hn⟩ := exists_of_mem_trace hs
    have hentry : (({ ids } : Network).after before).Entry id :=
      entry_after ids fun e he => (h e (List.mem_append_left _ he)).1
    exact ⟨hn ▸ regular_after ids before, hn ▸ hentry, h e (event_mem_of_mem_trace hs)⟩

end Network
end PositionRelay
