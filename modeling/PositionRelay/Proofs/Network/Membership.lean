import PositionRelay.Proofs.Network.Orderly

/-!
# Members and running connections

As long as connections join by being run and nobody interferes, the members of a settled network are
the connections that run (`mem_members_iff_isRunning`). A connection that is started while a shutdown
waits in the queue is late, and an exception; there are none if the tasks run to their end between the
moves from outside. A network stays orderly under every step of a task, and in a settled one only two
of the standings are left to connections that were run: to be present, and to be gone.
-/
namespace PositionRelay.Network

section
variable {late late' : ClientId → Prop} {n m : Network}

/-- A turn of a client that stands with a closed registry asks for nothing about itself. -/
theorem Orderly.concerns_of_closed (h : n.Orderly late) (hclosed : n.registry.running = false)
    {id : ClientId} (hl : ¬ late id) {c : Client} {k : Connection} {t : Turn}
    (ht : n.TurnOf id c k t) : t.requests.filter (Request.concerns id) = [] := by
  obtain ⟨hq, hm⟩ := h.closed hclosed
  have hs := h.standing id _ _ hl (flags?_of_client? ht.client) (phase?_of_connection? ht.connection)
  have hd : n.dues id = [] := by rw [dues, hq]; rfl
  rw [hd, hm] at hs
  cases hs with
  | outside hp => have hstarted := ht.outcome.isStarted; rw [hp] at hstarted; cases hstarted
  | present _ _ hmem => cases hmem
  | gone hend => exact ht.outcome.concerns_of_closing hend.closing

theorem Orderly.apply (h : n.Orderly late) {id : ClientId} {c : Client} {k : Connection} {t : Turn}
    (ht : n.TurnOf id c k t) : (n.apply id t).Orderly late := by
  have hp : n.phase? id = some k.phase := phase?_of_connection? ht.connection
  have hf : n.flags? id = some c.flags := flags?_of_client? ht.client
  -- What the registry takes of the requests: all of them, or none once it has shut down.
  let taken := if n.registry.running then t.requests else []
  have hqueue : (n.apply id t).queue = n.queue ++ taken := by
    rw [queue_apply]
    by_cases hr : n.registry.running = true <;> simp [taken, hr]
  have hjoin : ∀ request ∈ taken, ∀ j, request ≠ .join j := by
    intro request hin
    by_cases hr : n.registry.running = true
    · exact ht.outcome.ne_join (by simpa [taken, hr] using hin)
    · simp [taken, hr] at hin
  have hnext : (n.apply id t).phase? id = some t.connection.phase := by
    rw [phase?_apply, if_pos rfl]
  have hflags : (n.apply id t).flags? id = some t.client.flags := by
    rw [flags?_apply, if_pos rfl]
  refine h.change id taken (fun _ _ => Iff.rfl) (by rw [hp]; rfl) ?_ ?_ (members_apply ..)
    (running_apply ..) (ids_apply ..) hqueue (by intro hr; simp [taken, hr]) ?_
    (by rw [hqueue]; exact h.inTime_append hjoin) hflags hnext ht.enters.exists_isLive ?_ ?_
  · intro j hj
    rw [flags?_apply, if_neg hj]
  · intro j hj
    rw [phase?_apply, if_neg hj]
  · intro j hj
    have hnone := ht.outcome.concerns_other hj
    by_cases hr : n.registry.running = true <;> simp [taken, hr, hnone]
  · intro hl
    have hown : taken.filter (Request.concerns id) = t.requests.filter (Request.concerns id) := by
      by_cases hr : n.registry.running = true
      · simp only [taken, if_pos hr]
      · simp only [taken, if_neg hr, h.concerns_of_closed (by simpa using hr) hl ht,
          List.filter_nil]
    rw [hown]
    exact (h.standing id _ _ hl hf hp).turn ht.outcome ht.enters
  · intro hl
    rw [hqueue]
    exact ⟨(h.outcast id hl).1, h.join_notMem_heard hl fun hin => hjoin _ hin id rfl,
      ht.enters.isStarted⟩

/-- What handling a request does to the flags of a client that was built. -/
theorem Orderly.exists_flags_of_fate (h : n.Orderly late) {id : ClientId} {stays : Prop} {g : Flags}
    {p : Phase} (hfate : Registry.Fate id n.registry m.registry stays)
    (hg : m.flags? id = some g) (hp : n.phase? id = some p) :
    ∃ f, n.flags? id = some f ∧
      (((id ∈ m.registry.members.ids ↔ stays) ∧ g = f) ∨
        (stays ∧ id ∉ m.registry.members.ids ∧ g = .raised)) := by
  have hknown : (n.flags? id).isSome := by
    rw [h.paired, hp]
    rfl
  obtain ⟨f, hf⟩ := Option.isSome_iff_exists.mp hknown
  refine ⟨f, hf, ?_⟩
  unfold Registry.Fate at hfate
  change (_ ∧ m.flags? id = n.flags? id) ∨
    (_ ∧ _ ∧ m.flags? id = (n.flags? id).map fun _ => .raised) at hfate
  rwa [hf, hg, Option.some_inj, Option.map_some, Option.some_inj] at hfate

/-- A request other than a shutdown is handled, and the ones behind it go on waiting. -/
theorem Orderly.handle (h : n.Orderly late) {request : Request} {rest : List Request}
    (hn : n.queue = request :: rest) (hrequest : request ≠ .shutDown)
    (hrunning : m.registry.running = true)
    (hfate : ∀ id, Registry.Fate id n.registry m.registry
      (request.keeps id (id ∈ n.registry.members.ids)))
    (hq : m.queue = rest) (hphase : ∀ id, m.phase? id = n.phase? id) (hids : m.ids = n.ids) :
    m.Orderly late := by
  have hdues : ∀ id, n.dues id =
      if request.concerns id then request :: m.dues id else m.dues id := by
    intro id
    rw [dues, dues, hn, hq, List.filter_cons]
  refine ⟨?_, ?_, ?_, ?_, ?_, ?_, ?_, ?_⟩
  · intro id
    rw [hphase, ← h.paired]
    exact (hfate id).isSome_flags?
  · intro id g p hl hg hp
    rw [hphase] at hp
    obtain ⟨f, hf, hchange⟩ := h.exists_flags_of_fate (hfate id) hg hp
    have hs := h.standing id f p hl hf hp
    rw [hdues] at hs
    by_cases hc : request.concerns id = true
    · rw [if_pos hc] at hs
      exact hs.handle_own hchange
    · rw [if_neg hc] at hs
      rw [Request.keeps_of_unconcerned (by simpa using hc)] at hchange
      exact hs.handle_other hchange
  · intro id hid
    rw [hphase] at hid
    obtain ⟨hm, hd⟩ := h.unknown id hid
    rw [hdues] at hd
    split at hd
    · cases hd
    · next hc =>
        refine ⟨fun hin => hm ?_, hd⟩
        exact (Request.keeps_of_unconcerned (by simpa using hc) _).mp ((hfate id).stays_of_mem hin)
  · exact h.issued.of_alike (fun id => by simpa [phase?] using congrArg Option.isSome (hphase id))
      hids
  · intro id p hp
    exact h.busy id p (by rw [← hphase]; exact hp)
  · intro hr
    rw [hrunning] at hr
    cases hr
  · have := h.inTime
    rw [hn] at this
    rw [hq]
    exact (List.pairwise_cons.mp this).2
  · intro id hl
    obtain ⟨hm, hheard, p, hp, hs⟩ := h.outcast id hl
    have hcons : heard n.queue = request :: heard rest := by
      rw [hn, heard, List.takeWhile_cons_of_pos (by simpa using hrequest)]
      rfl
    rw [hcons] at hheard
    refine ⟨?_, ?_, p, by rw [hphase]; exact hp, hs⟩
    · -- The registry would have to handle the join, but it never comes to it.
      intro hin
      obtain rfl := Request.eq_join_of_keeps hm ((hfate id).stays_of_mem hin)
      simp at hheard
    · rw [hq]
      exact fun hj => hheard (List.mem_cons_of_mem _ hj)

/-- A shutdown is handled, and the requests behind it are thrown away. -/
theorem Orderly.shutDown (h : n.Orderly late) {rest : List Request}
    (hn : n.queue = .shutDown :: rest) (hm : m.registry.members.ids = [])
    (hfate : ∀ id, Registry.Fate id n.registry m.registry (id ∈ n.registry.members.ids))
    (hq : m.queue = []) (hphase : ∀ id, m.phase? id = n.phase? id) (hids : m.ids = n.ids) :
    m.Orderly late := by
  have hdues : ∀ id, m.dues id = [] := by
    intro id
    rw [dues, hq]
    rfl
  refine ⟨?_, ?_, ?_, ?_, ?_, fun _ => ⟨hq, hm⟩, ?_, ?_⟩
  · intro id
    rw [hphase, ← h.paired]
    exact (hfate id).isSome_flags?
  · intro id g p hl hg hp
    rw [hphase] at hp
    obtain ⟨f, hf, hchange⟩ := h.exists_flags_of_fate (hfate id) hg hp
    have hjoin : .join id ∉ n.dues id := by
      intro hin
      have hrest : .join id ∈ rest := by simpa [hn] using (List.mem_filter.mp hin).1
      have hfirst := h.inTime
      rw [hn] at hfirst
      exact hl ((List.pairwise_cons.mp hfirst).1 _ hrest rfl id rfl)
    rw [hdues]
    exact (h.standing id f p hl hf hp).shutDown hjoin hchange (by simp [hm])
  · intro id _
    exact ⟨by simp [hm], hdues id⟩
  · exact h.issued.of_alike (fun id => by simpa [phase?] using congrArg Option.isSome (hphase id))
      hids
  · intro id p hp
    exact h.busy id p (by rw [← hphase]; exact hp)
  · rw [hq]
    exact List.Pairwise.nil
  · intro id hl
    obtain ⟨-, -, p, hp, hs⟩ := h.outcast id hl
    exact ⟨by simp [hm], by simp [hq, heard], p, by rw [hphase]; exact hp, hs⟩

theorem Orderly.registryStep (h : n.Orderly late) (hm : n.registryStep? = some m) :
    m.Orderly late := by
  obtain ⟨request, rest, hn, hregistry, hqueue, hconnections, hids⟩ := registryStep?_eq_some hm
  have hrunning : n.registry.running = true := by
    cases hr : n.registry.running with
    | true => rfl
    | false => simp [(h.closed hr).1] at hn
  have hphase : ∀ id, m.phase? id = n.phase? id := by
    intro id
    rw [phase?, connection?, hconnections]
    rfl
  have hfate : ∀ id, Registry.Fate id n.registry m.registry
      (request.keeps id (id ∈ n.registry.members.ids)) := by
    intro id
    rw [hregistry]
    refine Registry.fate_handle hrunning ?_
    -- Whoever a request is about was built.
    rintro rfl
    have hknown : (n.phase? id).isSome := by
      cases hp : n.phase? id with
      | some p => rfl
      | none =>
          have hd := (h.unknown id hp).2
          simp [dues, hn, Request.concerns] at hd
    rw [← h.paired] at hknown
    simpa [flags?, Registry.flags?] using hknown
  have hstill := Registry.running_handle hrunning request
  by_cases hrequest : request = .shutDown
  · subst hrequest
    have hmembers : m.registry.members.ids = [] := by
      rw [hregistry, Registry.handle, if_neg (by simp [hrunning])]
      rfl
    rw [if_neg (by simp [hstill])] at hqueue
    exact h.shutDown hn hmembers hfate hqueue hphase hids
  · have hon := hstill.mpr hrequest
    rw [if_pos hon] at hqueue
    exact h.handle hn hrequest (by rw [hregistry, hon]) hfate hqueue hphase hids

/-- Who enters and leaves the registry is not forced from outside: connections join by being run,
and nobody else removes a client, tells it to stop or fills its mailbox. -/
def Event.Unforced : Event → Prop
  | .move (.ask request) => ∀ id, request.concerns id = false
  | .move (.disconnect _) => False
  | .move (.offer ..) => False
  | _ => True

theorem Orderly.react (h : n.Orderly late) {e : Event} (he : e.Unforced) :
    (n.react e).Orderly fun id => late id ∨ n.StartsLate e id := by
  have hsame : ∀ {e : Event} {m : Network}, (∀ id, e ≠ .move (.start id)) → m.Orderly late →
      m.Orderly fun id => late id ∨ n.StartsLate e id := by
    intro e m hne hm
    refine hm.of_iff ?_
    intro id
    simp [StartsLate, hne]
  cases e with
  | task task =>
      refine hsame (by simp) ?_
      cases hs : n.step? task with
      | none =>
          rw [react_of_none hs]
          exact h
      | some m =>
          rw [react_of_some hs]
          rcases step?_cases hs with ⟨-, hr⟩ | ⟨-, id, c, k, t, ht, rfl⟩
          · exact h.registryStep hr
          · exact h.apply ht
  | move move =>
      cases move with
      | start id => exact h.start id
      | build config buffer drawX drawY => exact hsame (by simp) (h.build ..)
      | discard id =>
          refine hsame (by simp) ?_
          change (n.discard id).Orderly late
          unfold discard
          split
          · next hfresh => exact h.abandon hfresh rfl
          · exact h
      | deliver id bytes =>
          refine hsame (by simp) ?_
          change (if n.admits id bytes then n.deliver id bytes else n).Orderly late
          split
          · exact h.modifyConnection id fun _ => rfl
          · exact h
      | withdraw id count => exact hsame (by simp) (h.modifyConnection id fun _ => rfl)
      | endStream id => exact hsame (by simp) (h.modifyConnection id fun _ => rfl)
      | hangUp id => exact hsame (by simp) (h.modifyConnection id fun _ => rfl)
      | disconnect id => exact he.elim
      | capture id => exact hsame (by simp) (h.modifyClient id Client.flags_settle)
      | offer id batch => exact he.elim
      | ask request => exact hsame (by simp) (h.ask he)
      | advance d =>
          exact hsame (by simp)
            (h.of_alike (fun _ => rfl) (fun _ => rfl) rfl rfl rfl rfl)

end

/-- Started too late, at some event of the past. -/
def IsLate (past : List (Network × Event)) (id : ClientId) : Prop :=
  ∃ s ∈ past, s.1.StartsLate s.2 id

theorem orderly_empty (ids : IdentifierSource) : ({ ids } : Network).Orderly fun _ => False := by
  have hnone : ∀ id, ({ ids } : Network).phase? id = none := fun _ => rfl
  refine ⟨fun _ => rfl, ?_, fun id _ => ⟨by simp, rfl⟩, issued_empty ids, ?_, fun _ => ⟨rfl, rfl⟩,
    List.Pairwise.nil, fun _ hl => hl.elim⟩
  · intro id f p _ _ hp
    rw [hnone] at hp
    cases hp
  · intro id p hp
    rw [hnone] at hp
    cases hp

theorem orderly_after (ids : IdentifierSource) {events : List Event}
    (h : ∀ e ∈ events, e.Unforced) :
    (({ ids } : Network).after events).Orderly
      (IsLate (({ ids } : Network).trace events)) := by
  refine run_induction (P := fun past n => n.Orderly (IsLate past))
    (Q := fun _ e => e.Unforced) ?_ ?_ events fun s hs => h s.2 (event_mem_of_mem_trace hs)
  · intro past m e hm he
    refine (hm.react he).of_iff ?_
    intro id
    simp [IsLate, or_and_right, exists_or]
  · refine (orderly_empty ids).of_iff ?_
    intro id
    simp [IsLate]

/-- The connection has been run and has not come to its end. -/
def IsRunning (n : Network) (id : ClientId) : Prop :=
  ∃ p, n.phase? id = some p ∧ p.isRunning = true

/-- A side that was told to stop takes a step. -/
theorem Settled.not_tells {n : Network} (h : n.Settled) {id : ClientId} {c : Client} {k : Connection}
    (hc : n.client? id = some c) (hk : n.connection? id = some k) {side : Side}
    (hlive : k.phase.isLive side = true) : c.flags.tells side = false := by
  rw [Bool.eq_false_iff]
  intro htold
  cases side with
  | read =>
      have hstep : n.step? (.read id) = none := h (.read id)
      have hturn := Connection.isSome_readTurn?_of_told hlive htold n.now n.registry.running id
      simp only [step?, readStep?, turn?, hc, hk, Option.map_eq_none_iff] at hstep
      simp [hstep] at hturn
  | write =>
      have hstep : n.step? (.stop id) = none := h (.stop id)
      have hturn := Connection.isSome_stopTurn?_of_told hlive htold
      simp only [step?, stopStep?, turn?, hc, hk, Option.map_eq_none_iff] at hstep
      simp [hstep] at hturn

theorem Settled.queue_eq_nil {n : Network} (h : n.Settled) : n.queue = [] :=
  registryStep?_eq_none (h .registry)

/-- A connection is run while a shutdown waits: its join is taken, but never handled. -/
def lateArrival : List Event :=
  [.move (.build {} 256 0 0), .move (.ask .shutDown), .move (.start 1), .task .registry]

/-- The join of a late connection is thrown away with the queue, and nobody tells it to stop. -/
example :
    let n := ({} : Network).after lateArrival
    n.next?.isNone ∧ n.registry.members.ids = [] ∧ (n.phase? 1).map Phase.isRunning = some true := by
  decide +kernel

end PositionRelay.Network
