import PositionRelay.Proofs.Network.Membership
import PositionRelay.Proofs.Network.Teardown

/-!
# What a shutdown reaches

A shutdown tells the members of the registry to stop, and nobody else. Whoever was waiting to join when
it was requested is a member by the time it is handled, unless it has been told to stop already
(`told_of_join_heard`). A join that comes behind the shutdown is accepted like any other, but it is
thrown away with the queue, and its connection stays open with the registry gone
(`open_after_shutDown`).
-/
namespace PositionRelay.Network

section
variable {n m : Network} {id : ClientId} {f : Flags}

theorem Made.running (h : n.Made m) : m.registry.running = n.registry.running := by
  cases h with
  | nothing => rfl
  | built => rfl
  | connection => simp
  | abandoned => simp [abandon]
  | client => simp
  | captured => simp
  | asked => simp
  | advanced => rfl

/-- A closed registry takes no requests. -/
theorem Made.queue_of_closed (h : n.Made m) (hclosed : n.registry.running = false) :
    m.queue = n.queue := by
  cases h with
  | nothing => rfl
  | built => rfl
  | connection => simp [queue_enqueue, hclosed]
  | abandoned => exact queue_abandon ..
  | client => exact queue_modifyClient ..
  | captured => exact queue_modifyClient ..
  | asked => simp [queue_enqueue, hclosed]
  | advanced => rfl

/-- The registry goes on as it is, and requests join its queue as long as it takes any. -/
structure Waits (n m : Network) : Prop where
  members : m.registry.members = n.registry.members
  running : m.registry.running = n.registry.running
  queue : ∃ later, m.queue = n.queue ++ later
  closed : n.registry.running = false → m.queue = n.queue

/-- In every event the registry handles a request, or it goes on as it is. -/
theorem handles_or_waits (n : Network) (e : Event) :
    (e = .task .registry ∧ n.registryStep? = some (n.react e)) ∨ n.Waits (n.react e) := by
  cases e with
  | move move =>
      have h := n.made move
      exact .inr ⟨h.members, h.running, h.queue, h.queue_of_closed⟩
  | task task =>
      cases hs : n.step? task with
      | none =>
          rw [react_of_none hs]
          exact .inr ⟨rfl, rfl, ⟨[], (List.append_nil _).symm⟩, fun _ => rfl⟩
      | some m =>
          rw [react_of_some hs]
          rcases step?_cases hs with ⟨rfl, hr⟩ | ⟨-, j, c, k, t, -, rfl⟩
          · exact .inl ⟨rfl, hr⟩
          · refine .inr ⟨members_apply .., running_apply .., ?_, ?_⟩
            · rw [queue_apply]
              split
              · exact ⟨t.requests, rfl⟩
              · exact ⟨[], (List.append_nil _).symm⟩
            · intro hclosed
              rw [queue_apply, if_neg (by simp [hclosed])]

/-- The client has been told to stop, or a shutdown will reach it: it is a member, or its join will be
handled first. -/
def Reachable (n : Network) (id : ClientId) (f : Flags) : Prop :=
  f = .raised ∨
    (n.registry.running = true ∧ (id ∈ n.registry.members.ids ∨ .join id ∈ heard n.queue))

theorem Reachable.waits (h : n.Reachable id f) (hw : n.Waits m) : m.Reachable id f := by
  obtain ⟨later, hqueue⟩ := hw.queue
  rcases h with hraised | ⟨hr, hm | hj⟩
  · exact .inl hraised
  · exact .inr ⟨by rw [hw.running, hr], .inl (by rw [hw.members]; exact hm)⟩
  · refine .inr ⟨by rw [hw.running, hr], .inr ?_⟩
    rw [hqueue, heard_append]
    split
    · exact hj
    · exact List.mem_append_left _ (mem_of_mem_heard hj)

/-- Handling a request other than its leave keeps a client reachable, or tells it to stop. -/
theorem Reachable.handles (h : n.Reachable id f) (hf : n.flags? id = some f)
    (hleave : .leave id ∉ n.queue) (hm : n.registryStep? = some m) :
    m.Reachable id f ∨ m.flags? id = some .raised := by
  obtain ⟨request, rest, hq, hregistry, hqueue, -, -⟩ := registryStep?_eq_some hm
  rcases h with hraised | ⟨hrunning, hplace⟩
  · exact .inl (.inl hraised)
  have hclient : (n.registry.clients.get? id).isSome := by
    obtain ⟨c, hc, -⟩ := client?_of_flags? hf
    exact Option.isSome_iff_exists.mpr ⟨c, hc⟩
  have hfate : Registry.Fate id n.registry m.registry
      (request.keeps id (id ∈ n.registry.members.ids)) := by
    rw [hregistry]
    exact Registry.fate_handle hrunning fun _ => hclient
  have hflags : m.flags? id = m.registry.flags? id := rfl
  have hstill := Registry.running_handle hrunning request
  rw [hq] at hleave hplace
  rcases hfate with ⟨hkept, -⟩ | ⟨-, -, htold⟩
  · by_cases hrequest : request = .shutDown
    · -- A shutdown keeps no member, and nothing behind it is heard.
      subst hrequest
      have hempty : m.registry.members.ids = [] := by
        rw [hregistry, Registry.handle, if_neg (by simp [hrunning])]
        rfl
      rw [hempty] at hkept
      rcases hplace with hmem | hjoin
      · exact absurd (hkept.mpr hmem) (by simp)
      · simp [heard] at hjoin
    · have hon := hstill.mpr hrequest
      rw [if_pos hon] at hqueue
      refine .inl (.inr ⟨by rw [hregistry, hon], ?_⟩)
      have hheard : heard (request :: rest) = request :: heard rest := by
        rw [heard, List.takeWhile_cons_of_pos (by simpa using hrequest)]
        rfl
      rcases hplace with hmem | hjoin
      · refine .inl (hkept.mpr ?_)
        cases request with
        | join j => exact .inl hmem
        | leave j =>
            refine ⟨hmem, ?_⟩
            rintro rfl
            exact hleave (by simp)
        | broadcast => exact hmem
        | count => exact hmem
        | shutDown => exact hmem
      · rw [hheard] at hjoin
        rcases List.mem_cons.mp hjoin with rfl | hjoin
        · exact .inl (hkept.mpr (.inr rfl))
        · exact .inr (by rw [hqueue]; exact hjoin)
  · refine .inr ?_
    change n.registry.flags? id = some f at hf
    rw [hflags, htold, hf]
    rfl

theorem reachable_react (hi : n.Issued) {p : Phase} (hf : n.flags? id = some f)
    (hp : n.phase? id = some p) (h : n.Reachable id f) (hleave : .leave id ∉ n.queue) (e : Event) :
    ∃ g, (n.react e).flags? id = some g ∧ (n.react e).Reachable id g := by
  obtain ⟨g, q, hg, -, hchange⟩ := changes hi e hf hp
  refine ⟨g, hg, ?_⟩
  -- What is up stays up, so the new flags are as reachable as the old ones.
  have later : ∀ {m : Network}, m.Reachable id f → m.Reachable id g := by
    intro m hm
    rcases hm with rfl | hplace
    · exact .inl (Flags.eq_raised_of_le hchange.le)
    · exact .inr hplace
  rcases n.handles_or_waits e with ⟨rfl, hm⟩ | hw
  · rcases h.handles hf hleave hm with hnext | htold
    · exact later hnext
    · rw [hg] at htold
      exact .inl (Option.some.inj htold)
  · exact later (h.waits hw)

end

/-- A closed registry has no requests left. -/
theorem queue_of_closed (ids : IdentifierSource) (events : List Event) :
    let n := ({ ids } : Network).after events
    n.registry.running = false → n.queue = [] := by
  refine run_induction (P := fun _ n => n.registry.running = false → n.queue = [])
    (Q := fun _ _ => True) ?_ (fun _ => rfl) events fun _ _ => trivial
  intro past n e h _ hclosed
  rcases n.handles_or_waits e with ⟨-, hm⟩ | hw
  · obtain ⟨request, rest, -, hregistry, hqueue, -, -⟩ := registryStep?_eq_some hm
    rw [hregistry] at hclosed
    rw [hqueue, if_neg (by simp [hclosed])]
  · rw [hw.running] at hclosed
    rw [hw.closed hclosed, h hclosed]

/-- Once the registry has shut down, a client whose join waited at some time with no shutdown before
it, and whose leave never waited, has been told to stop: it is closing, and so are both sides. -/
theorem told_of_join_heard (ids : IdentifierSource) {events : List Event} {id : ClientId}
    (hclosed : (({ ids } : Network).after events).registry.running = false)
    (hjoin : ∃ s ∈ ({ ids } : Network).trace events,
      (s.1.flags? id).isSome ∧ .join id ∈ heard s.1.queue)
    (hleave : ∀ s ∈ ({ ids } : Network).trace events, .leave id ∉ s.1.queue) :
    (({ ids } : Network).after events).flags? id = some .raised := by
  obtain ⟨⟨n, e⟩, hmem, hknown, hheard⟩ := hjoin
  obtain ⟨before, later, rfl, hn⟩ := exists_of_mem_trace hmem
  change n = _ at hn
  change (n.flags? id).isSome at hknown
  change .join id ∈ heard n.queue at hheard
  -- What is left of the run begins where the join waits.
  have hafter : ({ ids } : Network).after (before ++ e :: later) = n.after (e :: later) := by
    rw [hn]
    exact List.foldl_append
  have hrest : ∀ s ∈ n.trace (e :: later), .leave id ∉ s.1.queue := by
    intro s hs
    refine hleave s ?_
    rw [trace_append, ← hn]
    exact List.mem_append_right _ hs
  have hopen : n.registry.running = true := by
    refine eq_true_of_ne_false fun hc => ?_
    rw [hn] at hc hheard
    rw [queue_of_closed ids before hc] at hheard
    cases hheard
  obtain ⟨hissued, hreached, -⟩ := reached_after ids before id
  rw [← hn] at hissued hreached
  obtain ⟨f, hf⟩ := Option.isSome_iff_exists.mp hknown
  have hend := run_induction
    (P := fun _ m => m.Issued ∧ (∃ causes, m.Reached id causes) ∧
      ∃ g, m.flags? id = some g ∧ m.Reachable id g)
    (Q := fun m _ => .leave id ∉ m.queue) ?_
    ⟨hissued, ⟨_, hreached⟩, f, hf, .inr ⟨hopen, .inr hheard⟩⟩ (e :: later) hrest
  · obtain ⟨-, -, g, hg, hplace⟩ := hend
    rw [← hafter] at hg hplace
    rcases hplace with rfl | ⟨hrunning, -⟩
    · exact hg
    · rw [hclosed] at hrunning
      cases hrunning
  · rintro past m e ⟨hi, ⟨causes, hr⟩, g, hg, hplace⟩ hquiet
    refine ⟨hi.react e, ⟨_, (hr.react hi e).1⟩, ?_⟩
    rcases hr with ⟨hnone, -, -⟩ | ⟨g', p, -, hp, -⟩
    · rw [hnone] at hg
      cases hg
    · exact reachable_react hi hg hp hplace hquiet e

/-- Two connections are run; a shutdown is requested while the second one waits to join. -/
def crowdedEnd : List Event :=
  [.move (.build {} 256 0 0), .move (.build {} 256 0 0), .move (.start 1), .task .registry,
    .move (.start 2), .move (.ask .broadcast), .move (.ask .shutDown), .task .registry,
    .task .registry, .task .registry]

theorem told_in_crowdedEnd :
    let n := ({} : Network).after crowdedEnd
    n.registry.running = false ∧ n.flags? 1 = some .raised ∧ n.flags? 2 = some .raised := by
  intro n
  have hclosed : n.registry.running = false := by decide +kernel
  have hfirst : n.flags? 1 = some .raised :=
    told_of_join_heard {} hclosed (by decide +kernel) (by decide +kernel)
  have hsecond : n.flags? 2 = some .raised :=
    told_of_join_heard {} hclosed (by decide +kernel) (by decide +kernel)
  exact ⟨hclosed, hfirst, hsecond⟩

/-- The connection joined, nobody asked for its leave, and it runs on untold with the registry gone. -/
theorem open_after_shutDown :
    let n := ({} : Network).after lateArrival
    n.registry.running = false ∧ n.Settled ∧
      (∃ s ∈ ({} : Network).trace lateArrival, .join 1 ∈ s.1.queue) ∧
      (∀ s ∈ ({} : Network).trace lateArrival, .leave 1 ∉ s.1.queue) ∧
      n.flags? 1 = some .clear ∧ n.IsRunning 1 := by
  intro n
  have hs : n.Settled := settled_of_isNone (by decide +kernel)
  have hphase : (n.phase? 1).map Phase.isRunning = some true := by decide +kernel
  obtain ⟨p, hp, hr⟩ := Option.map_eq_some_iff.mp hphase
  exact ⟨by decide +kernel, hs, by decide +kernel, by decide +kernel, by decide +kernel, p, hp, hr⟩

end PositionRelay.Network
