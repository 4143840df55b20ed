import Mathlib.Data.List.Nodup
import PositionRelay.Proofs.Network.Entry
import PositionRelay.Proofs.Network.Isolation
import PositionRelay.Proofs.Network.Outbound
import PositionRelay.Proofs.Registry.Stages
import PositionRelay.Proofs.Session.Handshake

/-!
# What a client that joins is sent

A client that joins by being run is offered its own record first and snapshots of the members after
that. It takes all of them up to the first one that it refuses, so what its peer gets are the frames of
these batches from the first one on. Every one of them can be read, and the first one begins a session
(`feed_after`).

What was offered is read off the trace, together with the registries at which the snapshots were taken
and the identifiers that were issued (`Given`). A client is in one of two states: its join has not been
handled, or it was offered what `Fed` says and waits to join no more.
-/
namespace PositionRelay.Network

/-- The request that the registry handles in an event. -/
def handledIn (n : Network) : Event → Option Request
  | .task .registry => n.queue.head?
  | _ => none

/-- The batches that the registry offers to a client in an event. -/
def offersIn (n : Network) (e : Event) (id : ClientId) : List Batch :=
  (n.handledIn e).elim [] fun request => offersTo id (n.registry.handle request).rounds

def offersOf (past : List (Network × Event)) (id : ClientId) : List Batch :=
  past.flatMap fun s => s.1.offersIn s.2 id

/-- The registries of which snapshots are offered in an event. -/
def stagesIn (n : Network) (e : Event) : List Registry :=
  (n.handledIn e).elim [] n.registry.stagesFor

def stagesOf (past : List (Network × Event)) : List Registry :=
  past.flatMap fun s => s.1.stagesIn s.2

/-- The identifiers that are issued in an event. -/
def issuedIn (n : Network) : Event → List ClientId
  | .move (.build config buffer drawX drawY) =>
      match n.accept config buffer drawX drawY with
      | .ok (id, _) => [id]
      | .error _ => []
  | _ => []

def issuedOf (past : List (Network × Event)) : List ClientId :=
  past.flatMap fun s => s.1.issuedIn s.2

section
variable {past : List (Network × Event)} {n m : Network} {id : ClientId} {e : Event}

theorem offersOf_append : offersOf (past ++ [(n, e)]) id = offersOf past id ++ n.offersIn e id := by
  simp [offersOf]

theorem stagesOf_append : stagesOf (past ++ [(n, e)]) = stagesOf past ++ n.stagesIn e := by
  simp [stagesOf]

theorem issuedOf_append : issuedOf (past ++ [(n, e)]) = issuedOf past ++ n.issuedIn e := by
  simp [issuedOf]

/-- A request is handled, or the members stay and the queue grows; and a join is added only if it is
asked for or the connection is run. -/
theorem handledIn_cases (n : Network) (e : Event) :
    (∃ request rest, n.handledIn e = some request ∧ e = .task .registry ∧
        n.queue = request :: rest ∧
        (n.react e).registry = (n.registry.handle request).registry ∧
        (n.react e).queue.Sublist rest) ∨
      (n.handledIn e = none ∧ (n.react e).registry.members = n.registry.members ∧
        ∃ later, (n.react e).queue = n.queue ++ later ∧ ∀ id, .join id ∈ later →
          e = .move (.ask (.join id)) ∨
            (later = [.join id] ∧ n.isFresh id = true ∧ (n.react e).HasStarted id)) := by
  cases hhandled : n.handledIn e with
  | some request =>
      obtain ⟨rfl, rest, hq⟩ : e = .task .registry ∧ ∃ rest, n.queue = request :: rest := by
        unfold handledIn at hhandled
        split at hhandled
        · exact ⟨rfl, List.head?_eq_some_iff.mp hhandled⟩
        · cases hhandled
      obtain ⟨m, hm⟩ : ∃ m, n.step? .registry = some m := by
        rw [step?, registryStep?, hq]
        exact ⟨_, rfl⟩
      obtain ⟨first, others, hq', hregistry, hqueue, -, -⟩ := registryStep?_eq_some hm
      cases hq.symm.trans hq'
      refine .inl ⟨request, rest, rfl, rfl, hq, ?_, ?_⟩
      · rw [react_of_some hm, hregistry]
      · rw [react_of_some hm, hqueue]
        split
        · exact List.Sublist.refl _
        · exact List.nil_sublist _
  | none =>
      refine .inr ⟨rfl, ?_⟩
      rcases n.queue_react e with ⟨rfl, hm⟩ | hwaits
      · obtain ⟨request, rest, hq, -, -, -, -⟩ := registryStep?_eq_some hm
        rw [handledIn, hq] at hhandled
        cases hhandled
      · exact hwaits

/-- A connection that was run asks for no other join. -/
theorem HasStarted.join_notMem_later (h : n.HasStarted id) (he : e ≠ .move (.ask (.join id)))
    {later : List Request} (hadded : ∀ id, .join id ∈ later → e = .move (.ask (.join id)) ∨
      (later = [.join id] ∧ n.isFresh id = true ∧ (n.react e).HasStarted id)) :
    .join id ∉ later := by
  intro hin
  obtain ⟨-, hfresh, -⟩ := (hadded id hin).resolve_left he
  rw [h.not_isFresh] at hfresh
  cases hfresh

/-- All connections are those of identifiers that were issued, and so are the members of all registries
of which snapshots were offered. -/
structure Given (past : List (Network × Event)) (n : Network) : Prop where
  connections : ∀ j, (n.connection? j).isSome → 0 < j ∧ j ∈ issuedOf past
  stages : ∀ s ∈ stagesOf past, s.Sound ∧ ∀ j ∈ s.members.ids, 0 < j ∧ j ∈ issuedOf past

/-- A client has a record as long as it has a connection. -/
theorem Regular.isSome_record? (h : n.Regular) (id : ClientId) :
    (n.registry.record? id).isSome = (n.connection? id).isSome := by
  have hpaired := h.paired id
  rw [flags?, Registry.flags?, phase?, Option.isSome_map, Option.isSome_map] at hpaired
  rw [Registry.record?, Option.isSome_map, hpaired]

theorem issuedIn_of_built {config : Config} {buffer drawX drawY : Nat}
    (hvalid : config.validate = .ok ()) (hpos : 0 < n.ids.upcoming) :
    n.issuedIn (.move (.build config buffer drawX drawY)) = [n.ids.upcoming] := by
  unfold issuedIn accept IdentifierSource.issue?
  dsimp only
  rw [hvalid, if_pos hpos]

theorem Given.react (h : Given past n) (hr : n.Regular) (e : Event) :
    Given (past ++ [(n, e)]) (n.react e) := by
  have later : ∀ {j}, 0 < j ∧ j ∈ issuedOf past → 0 < j ∧ j ∈ issuedOf (past ++ [(n, e)]) := by
    rintro j ⟨hpos, hissued⟩
    rw [issuedOf_append]
    exact ⟨hpos, List.mem_append_left _ hissued⟩
  constructor
  · intro j hj
    cases hk : n.connection? j with
    | some k => exact later (h.connections j (by rw [hk]; rfl))
    | none =>
        rcases connection?_react_of_none hk e with hnone | ⟨config, buffer, drawX, drawY, rfl,
          hvalid, hpos, rfl, -⟩
        · rw [hnone] at hj
          cases hj
        · rw [issuedOf_append, issuedIn_of_built hvalid hpos]
          exact ⟨hpos, List.mem_append_right _ (List.mem_singleton_self _)⟩
  · intro s hs
    rw [stagesOf_append] at hs
    rcases List.mem_append.mp hs with hs | hs
    · obtain ⟨hsound, hmembers⟩ := h.stages s hs
      exact ⟨hsound, fun j hj => later (hmembers j hj)⟩
    · unfold stagesIn at hs
      cases hhandled : n.handledIn e with
      | none =>
          rw [hhandled] at hs
          cases hs
      | some request =>
          rw [hhandled] at hs
          obtain ⟨hsound, hmembers⟩ := hr.sound.stagesFor hs
          refine ⟨hsound, fun j hj => later (h.connections j ?_)⟩
          rw [← hr.isSome_record?]
          exact (hmembers j hj).2

/-- The client had this record when the registry handled its join. -/
def JoinedWith (past : List (Network × Event)) (id : ClientId) (own : Record) : Prop :=
  own.id = id ∧ ∃ s ∈ past, s.1.handledIn s.2 = some (.join id) ∧
    s.1.registry.record? id = some own

/-- What a client was offered: nothing before its join, and its own record and snapshots since. -/
inductive Fed (past : List (Network × Event)) (n : Network) (id : ClientId) : Prop where
  | waits (none : offersOf past id = []) (unheard : ∀ s ∈ past, s.1.handledIn s.2 ≠ some (.join id))
      (outside : id ∉ n.registry.members.ids)
  | entered (own : Record) (snapshots : List Batch) (offers : offersOf past id = [own] :: snapshots)
      (joined : JoinedWith past id own)
      (taken : ∀ batch ∈ snapshots, ∃ s ∈ stagesOf past, id ∈ s.members.ids ∧ batch = s.snapshot)
      (handled : .join id ∉ n.queue) (started : n.HasStarted id)

/-- The snapshots of an event are those of the registries of which the client is a member. -/
theorem exists_stage_of_mem_filter {request : Request} {batch : Batch}
    (hhandled : n.handledIn e = some request)
    (hbatch : batch ∈ ((n.registry.stagesFor request).filter fun s => id ∈ s.members.ids).map
      Registry.snapshot) :
    ∃ s ∈ stagesOf (past ++ [(n, e)]), id ∈ s.members.ids ∧ batch = s.snapshot := by
  obtain ⟨s, hs, rfl⟩ := List.mem_map.mp hbatch
  obtain ⟨hs, hid⟩ := List.mem_filter.mp hs
  refine ⟨s, ?_, of_decide_eq_true hid, rfl⟩
  rw [stagesOf_append, stagesIn, hhandled]
  exact List.mem_append_right _ hs

theorem exists_stage_append {batch : Batch}
    (h : ∃ s ∈ stagesOf past, id ∈ s.members.ids ∧ batch = s.snapshot) (t : Network × Event) :
    ∃ s ∈ stagesOf (past ++ [t]), id ∈ s.members.ids ∧ batch = s.snapshot := by
  obtain ⟨s, hs, htaken⟩ := h
  refine ⟨s, ?_, htaken⟩
  rw [stagesOf_append]
  exact List.mem_append_left _ hs

/-- The client has a record when its join is handled. -/
theorem HasStarted.record? (h : n.HasStarted id) (hr : n.Regular) :
    ∃ own, n.registry.record? id = some own ∧ own.id = id := by
  obtain ⟨k, hk, -⟩ := h
  obtain ⟨own, hrecord⟩ := Option.isSome_iff_exists.mp ((hr.isSome_record? id).trans (by rw [hk]; rfl))
  exact ⟨own, hrecord, hr.sound.named id own hrecord⟩

theorem JoinedWith.append {own : Record} (h : JoinedWith past id own) (s : Network × Event) :
    JoinedWith (past ++ [s]) id own := by
  obtain ⟨hid, t, ht, hjoined⟩ := h
  exact ⟨hid, t, List.mem_append_left _ ht, hjoined⟩

theorem Fed.react (h : Fed past n id) (hr : n.Regular) (hentry : n.Entry id)
    (he : e ≠ .move (.ask (.join id))) : Fed (past ++ [(n, e)]) (n.react e) id := by
  have hkept : n.HasStarted id → (n.react e).HasStarted id := fun hs => hs.react hr.issued e
  rcases n.handledIn_cases e with ⟨request, rest, hhandled, -, hq, hregistry, hqueue⟩ |
    ⟨hquiet, hmembers, later, hqueue, hadded⟩
  · have hrunning := hr.running_of_queue hq
    have hoffers : n.offersIn e id = offersTo id (n.registry.handle request).rounds := by
      rw [offersIn, hhandled]
      rfl
    cases h with
    | waits none unheard outside =>
        by_cases hown : request = .join id
        · subst hown
          have hkeeps : (Request.join id).keeps id (id ∈ n.registry.members.ids) := .inr rfl
          have hstarted := hentry.hasStarted hq hkeeps
          obtain ⟨own, hrecord, hid⟩ := hstarted.record? hr
          have hgreeting : n.registry.greeting (.join id) = [[own]] := by
            rw [Registry.greeting, if_pos hrunning, hrecord]
            rfl
          refine .entered own _ ?_ ⟨hid, (n, e), by simp, hhandled, hrecord⟩
            (fun batch hbatch => exists_stage_of_mem_filter hhandled hbatch)
            (fun hin => hentry.join_notMem hq hkeeps (hqueue.mem hin)) (hkept hstarted)
          rw [offersOf_append, none, hoffers, Registry.offersTo_handle, if_pos rfl, hgreeting]
          rfl
        · have hkeeps : ¬ request.keeps id (id ∈ n.registry.members.ids) :=
            fun hkeeps => hown (Request.eq_join_of_keeps outside hkeeps)
          refine .waits ?_ ?_ ?_
          · rw [offersOf_append, none, hoffers,
              Registry.offersTo_handle_of_not_keeps hr.sound hkeeps]
            rfl
          · refine List.forall_mem_append.mpr ⟨unheard, List.forall_mem_singleton.mpr ?_⟩
            rw [hhandled]
            simpa using hown
          · rw [hregistry]
            exact fun hmem => hkeeps (Registry.keeps_of_mem_handle hrunning hmem)
    | entered own snapshots offers joined taken handled started =>
        have hne : request ≠ .join id := by
          rintro rfl
          exact handled (by rw [hq]; simp)
        refine .entered own (snapshots ++ n.offersIn e id) ?_ (joined.append _) ?_
          (fun hin => handled (by rw [hq]; exact .tail _ (hqueue.mem hin))) (hkept started)
        · rw [offersOf_append, offers]
          rfl
        · intro batch hbatch
          rcases List.mem_append.mp hbatch with hold | hnew
          · exact exists_stage_append (taken batch hold) (n, e)
          · rw [hoffers, Registry.offersTo_handle, if_neg hne] at hnew
            exact exists_stage_of_mem_filter hhandled hnew
  · have hnone : n.offersIn e id = [] := by
      rw [offersIn, hquiet]
      rfl
    cases h with
    | waits none unheard outside =>
        refine .waits ?_ ?_ (by rw [hmembers]; exact outside)
        · rw [offersOf_append, none, hnone]
          rfl
        · refine List.forall_mem_append.mpr ⟨unheard, List.forall_mem_singleton.mpr ?_⟩
          rw [hquiet]
          simp
    | entered own snapshots offers joined taken handled started =>
        refine .entered own snapshots ?_ (joined.append _) ?_ ?_ (hkept started)
        · rw [offersOf_append, offers, hnone, List.append_nil]
        · exact fun batch hbatch => exists_stage_append (taken batch hbatch) (n, e)
        · rw [hqueue]
          exact fun hin => (List.mem_append.mp hin).elim handled (started.join_notMem_later he hadded)

theorem accepted_ledgerIn (hoffer : ∀ batch, e ≠ .move (.offer id batch)) :
    (n.ledgerIn e id).accepted = (n.handledIn e).elim [] fun request =>
      takenBy id (n.registry.handle request).rounds := by
  cases e with
  | move move =>
      cases move with
      | offer j batch =>
          have hj : j ≠ id := by
            rintro rfl
            exact hoffer batch rfl
          exact if_neg fun h => hj h.1
      | _ => rfl
  | task task => cases task <;> rfl

theorem accepted_append (hoffer : ∀ batch, e ≠ .move (.offer id batch)) :
    (ledgerOf (past ++ [(n, e)]) id).accepted = (ledgerOf past id).accepted ++
      (n.handledIn e).elim [] fun request => takenBy id (n.registry.handle request).rounds := by
  rw [ledgerOf_append, ← accepted_ledgerIn hoffer]
  rfl

theorem refusesIn_eq (n : Network) (e : Event) (id : ClientId) :
    n.refusesIn e id = (n.handledIn e).any fun request =>
      refusedIn id (n.registry.handle request).rounds := by
  cases e with
  | move move => rfl
  | task task => cases task <;> rfl

/-- What a client took of what it was offered: everything, or the batches before one that it refused,
and then it is out for good. -/
structure Served (past : List (Network × Event)) (n : Network) (id : ClientId) : Prop where
  begun : (ledgerOf past id).accepted <+: offersOf past id
  all : refusedOf past id = false → (ledgerOf past id).accepted = offersOf past id
  out : refusedOf past id = true →
    id ∉ n.registry.members.ids ∧ .join id ∉ n.queue ∧ n.HasStarted id

theorem Served.react (h : Served past n id) (hr : n.Regular) (hentry : n.Entry id)
    (hjoin : e ≠ .move (.ask (.join id))) (hoffer : ∀ batch, e ≠ .move (.offer id batch)) :
    Served (past ++ [(n, e)]) (n.react e) id := by
  obtain ⟨hbegun, hall, hover⟩ := h
  have hkept : n.HasStarted id → (n.react e).HasStarted id := fun hs => hs.react hr.issued e
  have haccepted := @accepted_append past n id e hoffer
  have hrefused : refusedOf (past ++ [(n, e)]) id = (refusedOf past id ||
      (n.handledIn e).any fun request => refusedIn id (n.registry.handle request).rounds) := by
    rw [refusedOf_append, refusesIn_eq]
  have hoffers : offersOf (past ++ [(n, e)]) id = offersOf past id ++
      (n.handledIn e).elim [] fun request => offersTo id (n.registry.handle request).rounds :=
    offersOf_append
  rcases n.handledIn_cases e with ⟨request, rest, hhandled, -, hq, hregistry, hqueue⟩ |
    ⟨hquiet, hmembers, later, hqueue, hadded⟩
  · rw [hhandled] at haccepted hrefused hoffers
    simp only [Option.elim_some, Option.any_some] at haccepted hrefused hoffers
    have hrunning := hr.running_of_queue hq
    have hbefore := n.registry.takenBy_prefix_offersTo request id
    by_cases hkeeps : request.keeps id (id ∈ n.registry.members.ids)
    · -- The request has to do with the client, so it has refused nothing yet.
      have hnone : refusedOf past id = false := by
        rw [Bool.eq_false_iff]
        intro hold
        obtain ⟨hout, hnot, -⟩ := hover hold
        exact hnot (by rw [hq, Request.eq_join_of_keeps hout hkeeps]; simp)
      rw [hall hnone] at haccepted
      rw [hnone, Bool.false_or] at hrefused
      refine ⟨?_, ?_, ?_⟩
      · rw [haccepted, hoffers]
        exact (List.prefix_append_right_inj _).mpr hbefore
      · intro htook
        rw [haccepted, hoffers, takenBy_eq_offersTo (hrefused.symm.trans htook)]
      · intro hrefuses
        rw [hregistry]
        exact ⟨Registry.notMem_of_refusedIn hrunning (hrefused.symm.trans hrefuses),
          fun hin => hentry.join_notMem hq hkeeps (hqueue.mem hin),
          hkept (hentry.hasStarted hq hkeeps)⟩
    · have hnone := Registry.offersTo_handle_of_not_keeps hr.sound hkeeps
      rw [Registry.takenBy_eq_nil hnone, List.append_nil] at haccepted
      rw [hnone, List.append_nil] at hoffers
      rw [refusedIn_eq_false hnone, Bool.or_false] at hrefused
      rw [← haccepted, ← hoffers] at hbegun hall
      rw [← hrefused] at hall hover
      refine ⟨hbegun, hall, fun hold => ?_⟩
      obtain ⟨hout, hnot, hstarted⟩ := hover hold
      rw [hregistry]
      exact ⟨fun hin => hkeeps (Registry.keeps_of_mem_handle hrunning hin),
        fun hin => hnot (by rw [hq]; exact .tail _ (hqueue.mem hin)), hkept hstarted⟩
  · rw [hquiet] at haccepted hrefused hoffers
    simp only [Option.elim_none, Option.any_none, List.append_nil, Bool.or_false]
      at haccepted hrefused hoffers
    rw [← haccepted, ← hoffers] at hbegun hall
    rw [← hrefused] at hall hover
    refine ⟨hbegun, hall, fun hold => ?_⟩
    obtain ⟨hout, hnot, hstarted⟩ := hover hold
    rw [hmembers, hqueue]
    exact ⟨hout, fun hin => (List.mem_append.mp hin).elim hnot
      (hstarted.join_notMem_later hjoin hadded), hkept hstarted⟩

/-- A snapshot of members, with the client among them. Every record in it is the one that is stored
under its own identifier. -/
structure SnapshotFor (past : List (Network × Event)) (id : ClientId) (batch : Batch) : Prop where
  once : (batch.map Record.id).count id = 1
  ascending : (batch.map Record.id).Pairwise (· < ·)
  issued : ∀ r ∈ batch, 0 < r.id ∧ r.id ∈ issuedOf past
  stored : ∃ s ∈ stagesOf past, batch.map Record.id = s.members.ids ∧
    ∀ r ∈ batch, s.record? r.id = some r

theorem Given.snapshotFor (h : Given past n) {s : Registry} (hs : s ∈ stagesOf past)
    (hid : id ∈ s.members.ids) : SnapshotFor past id s.snapshot := by
  obtain ⟨hsound, hmembers⟩ := h.stages s hs
  have hids := hsound.map_id_snapshot
  refine ⟨?_, ?_, ?_, s, hs, hids, ?_⟩
  · rw [hids]
    exact List.count_eq_one_of_mem (s.members.ascending.imp fun h => Int32.ne_of_lt h) hid
  · rw [hids]
    exact s.members.ascending
  · intro r hr
    refine hmembers r.id ?_
    rw [← hids]
    exact List.mem_map_of_mem hr
  · intro r hr
    rw [Registry.snapshot_eq] at hr
    obtain ⟨j, -, hj⟩ := List.mem_filterMap.mp hr
    rw [hsound.named j r hj]
    exact hj

end

theorem given_after (ids : IdentifierSource) (events : List Event) :
    Given (({ ids } : Network).trace events) (({ ids } : Network).after events) := by
  suffices hall : (({ ids } : Network).after events).Regular ∧ _ from hall.2
  refine run_induction (P := fun past n => n.Regular ∧ Given past n) (Q := fun _ _ => True)
    ?_ ?_ events fun _ _ => trivial
  · rintro past n e ⟨hr, hgiven⟩ -
    exact ⟨hr.react e, hgiven.react hr e⟩
  · refine ⟨regular_empty ids, fun j hj => ?_, fun s hs => ?_⟩
    · cases hj
    · cases hs

theorem fed_after (ids : IdentifierSource) {events : List Event} {id : ClientId}
    (h : ∀ e ∈ events, e ≠ .move (.ask (.join id))) :
    Fed (({ ids } : Network).trace events) (({ ids } : Network).after events) id := by
  suffices hall : (({ ids } : Network).after events).Regular ∧
      (({ ids } : Network).after events).Entry id ∧ _ from hall.2.2
  refine run_induction (P := fun past n => n.Regular ∧ n.Entry id ∧ Fed past n id)
    (Q := fun _ e => e ≠ .move (.ask (.join id))) ?_ ?_ events
    fun s hs => h s.2 (event_mem_of_mem_trace hs)
  · rintro past n e ⟨hr, hentry, hfed⟩ he
    exact ⟨hr.react e, hentry.react hr he, hfed.react hr hentry he⟩
  · refine ⟨regular_empty ids, entry_empty ids id, .waits rfl (fun s hs => ?_) fun hid => ?_⟩
    · cases hs
    · cases hid

/-- Whatever a client took was offered by the registry or by someone else. -/
theorem offered_of_accepted (ids : IdentifierSource) (events : List Event) (id : ClientId) :
    ∀ batch ∈ (ledgerOf (({ ids } : Network).trace events) id).accepted,
      batch ∈ offersOf (({ ids } : Network).trace events) id ∨ .move (.offer id batch) ∈ events := by
  refine run_induction (P := fun past _ => ∀ batch ∈ (ledgerOf past id).accepted,
      batch ∈ offersOf past id ∨ .move (.offer id batch) ∈ events) (Q := fun _ e => e ∈ events)
    ?_ (fun batch hbatch => (by cases hbatch)) events fun s hs => event_mem_of_mem_trace hs
  intro past n e hold he batch hbatch
  rw [ledgerOf_append] at hbatch
  rw [offersOf_append]
  rcases List.mem_append.mp hbatch with hbatch | hbatch
  · exact (hold batch hbatch).imp (List.mem_append_left _) fun h => h
  · by_cases hoffer : ∃ batch, e = .move (.offer id batch)
    · obtain ⟨given, rfl⟩ := hoffer
      refine .inr ?_
      unfold ledgerIn at hbatch
      dsimp only at hbatch
      split at hbatch
      · rw [List.mem_singleton.mp hbatch]
        exact he
      · cases hbatch
    · rw [accepted_ledgerIn fun given hg => hoffer ⟨given, hg⟩] at hbatch
      refine .inl (List.mem_append_right _ ?_)
      unfold offersIn
      cases hhandled : n.handledIn e with
      | none =>
          rw [hhandled] at hbatch
          cases hbatch
      | some request =>
          rw [hhandled] at hbatch
          exact (n.registry.takenBy_prefix_offersTo request id).mem hbatch

theorem served_after (ids : IdentifierSource) {events : List Event} {id : ClientId}
    (hjoin : ∀ e ∈ events, e ≠ .move (.ask (.join id)))
    (hoffer : ∀ e ∈ events, ∀ batch, e ≠ .move (.offer id batch)) :
    Served (({ ids } : Network).trace events) (({ ids } : Network).after events) id := by
  suffices hall : (({ ids } : Network).after events).Regular ∧
      (({ ids } : Network).after events).Entry id ∧ _ from hall.2.2
  refine run_induction (P := fun past n => n.Regular ∧ n.Entry id ∧ Served past n id)
    (Q := fun _ e => e ≠ .move (.ask (.join id)) ∧ ∀ batch, e ≠ .move (.offer id batch)) ?_ ?_ events
    fun s hs => ⟨hjoin s.2 (event_mem_of_mem_trace hs), hoffer s.2 (event_mem_of_mem_trace hs)⟩
  · rintro past n e ⟨hr, hentry, hserved⟩ ⟨he, ho⟩
    exact ⟨hr.react e, hentry.react hr he, hserved.react hr hentry he ho⟩
  · exact ⟨regular_empty ids, entry_empty ids id, List.prefix_rfl, fun _ => rfl, fun h => by cases h⟩

section
variable {past : List (Network × Event)} {n : Network} {id : ClientId}

/-- All that is offered are valid records. -/
theorem Fed.valid (h : Fed past n id) (hg : Given past n) {batch : Batch}
    (hbatch : batch ∈ offersOf past id) : ∀ r ∈ batch, 0 < r.id := by
  intro r hr
  cases h with
  | waits none =>
      rw [none] at hbatch
      cases hbatch
  | entered own snapshots offers joined taken handled started =>
      rw [offers] at hbatch
      rcases List.mem_cons.mp hbatch with rfl | hbatch
      · obtain ⟨k, hk, -⟩ := started
        rw [List.mem_singleton.mp hr, joined.1]
        exact (hg.connections id (by rw [hk]; rfl)).1
      · obtain ⟨s, hs, hmem, rfl⟩ := taken batch hbatch
        exact ((hg.snapshotFor hs hmem).issued r hr).1

/-- What the peer gets are the frames of what was offered. -/
theorem Served.received (h : Served past n id) (hc : n.Conserves id (ledgerOf past id)) :
    (ledgerOf past id).received <+: (offersOf past id).flatMap Wire.encodeFrame := by
  obtain ⟨more, hmore⟩ := h.begun
  rw [← hmore, List.flatMap_append]
  exact hc.received_of_accepted.trans (List.prefix_append ..)

/-- A session begins with what a client was offered first. -/
theorem Fed.handshake (h : Fed past n id) (hg : Given past n) {patience : Duration}
    {source : Wire.Source} (hsteady : Wire.Steady source.arrivals)
    (hsource : source.bytes <+: (offersOf past id).flatMap Wire.encodeFrame)
    (hearly : 36 ≤
      (Wire.brought (Wire.Source.splitAt patience.nanoseconds source.arrivals).1).length) :
    ∃ own s rest, (offersOf past id).head? = some [own] ∧
      Session.begin patience source = (.ok s, rest) ∧ s.id = id ∧ s.position = (own.x, own.y) ∧
      Wire.Steady rest.arrivals ∧ source.bytes = Wire.encodeFrame [own] ++ rest.bytes := by
  have hlong : 36 ≤ source.bytes.length := by
    have hsplit := congrArg List.length
      (Wire.brought_splitAt patience.nanoseconds source.arrivals)
    rw [List.length_append] at hsplit
    exact Nat.le_trans hearly (Nat.le_of_add_right_le (Nat.le_of_eq hsplit))
  have hnonempty : source.bytes ≠ [] := by
    intro hnil
    rw [hnil] at hlong
    cases hlong
  cases hfed : h with
  | waits none =>
      rw [none] at hsource
      exact absurd (List.prefix_nil.mp hsource) hnonempty
  | entered own snapshots offers joined =>
      have hvalid : ∀ r ∈ [own], 0 < r.id := h.valid hg (by rw [offers]; simp)
      have hpos : 0 < own.id := hvalid own (by simp)
      rw [offers, List.flatMap_cons] at hsource
      have hlength : (Wire.encodeFrame [own]).length = 36 := Wire.encodeFrame_length [own]
      obtain ⟨rest, hrest⟩ := List.prefix_of_prefix_length_le
        (List.prefix_append (Wire.encodeFrame [own]) _) hsource (by rw [hlength]; exact hlong)
      obtain ⟨left, hleft, hbrought, hbegin⟩ :=
        Session.begin_of_early hsteady hpos hrest.symm (by rw [hlength]; exact hearly)
      refine ⟨own, _, _, by rw [offers]; rfl, hbegin, joined.1, rfl, hleft, ?_⟩
      rw [← hrest, ← hbrought]
      rfl

end

/-- A client that joins by being run is offered nothing before its join is handled, and then the
record that it has at that moment. All that it is offered after that are snapshots: they list it once
among the members of that moment, in ascending order, under identifiers that were issued, each with the
record that is stored under it.

As long as the length of such a batch fits its word, its frame is decoded to exactly these records,
and a client reads it if and only if its payload is within the limit. What is written are the frames of
the batches that the client took, each of them offered by the registry or by someone else. If nobody
else offers it anything, it took the offers of the registry from the first one on, all of them unless it
refused one, and a session that begins with what is written has the identifier of the client and the
position of that first record. -/
theorem sent_own_record_then_snapshots (ids : IdentifierSource) {events : List Event}
    {id : ClientId} (hjoin : ∀ e ∈ events, e ≠ .move (.ask (.join id))) :
    let past := ({ ids } : Network).trace events
    let n := ({ ids } : Network).after events
    let offers := offersOf past id
    let ledger := ledgerOf past id
    ((offers = [] ∧ ∀ s ∈ past, s.1.handledIn s.2 ≠ some (.join id)) ∨
        ∃ own snapshots, offers = [own] :: snapshots ∧ JoinedWith past id own ∧
          ∀ batch ∈ snapshots, SnapshotFor past id batch) ∧
      (∀ batch ∈ offers, 4 + 28 * batch.length < 2 ^ 32 →
        (∀ rest, ∃ frame, Wire.decodeFrame (Wire.encodeFrame batch ++ rest) =
          .ok (frame, (Wire.encodeFrame batch).length) ∧ frame.records = batch) ∧
        ∀ (s : Session) (source : Wire.Source) (rest : Bytes), Wire.Steady source.arrivals →
          source.bytes = Wire.encodeFrame batch ++ rest →
          (Wire.encodeFrame batch).length ≤ (Wire.brought (s.early source)).length →
          (s.nextSnapshot source).1 =
            if 4 + 28 * batch.length ≤ Wire.defaultPayloadLimit then .ok batch
            else .error (.codec
              (.payloadTooLarge (4 + 28 * batch.length) Wire.defaultPayloadLimit))) ∧
      (∀ k, n.connection? id = some k →
        ledger.received ++ k.outbound.bytes <+: ledger.accepted.flatMap Wire.encodeFrame) ∧
      (∀ batch ∈ ledger.accepted, batch ∈ offers ∨ .move (.offer id batch) ∈ events) ∧
      ((∀ e ∈ events, ∀ batch, e ≠ .move (.offer id batch)) →
        ledger.accepted <+: offers ∧ (refusedOf past id = false → ledger.accepted = offers) ∧
        ∀ (patience : Duration) (source : Wire.Source), Wire.Steady source.arrivals →
          source.bytes <+: ledger.received →
          36 ≤ (Wire.brought
            (Wire.Source.splitAt patience.nanoseconds source.arrivals).1).length →
          ∃ own s rest, offers.head? = some [own] ∧
            Session.begin patience source = (.ok s, rest) ∧
            s.id = id ∧ s.position = (own.x, own.y) ∧
            Wire.Steady rest.arrivals ∧ source.bytes = Wire.encodeFrame [own] ++ rest.bytes) := by
  intro past n offers ledger
  have hgiven := given_after ids events
  have hfed := fed_after ids hjoin
  have hconserves := conserves_after ids events id
  refine ⟨?_, ?_, fun k hk => (hconserves.carries k hk).begun, offered_of_accepted ids events id, ?_⟩
  · cases hfed with
    | waits none unheard => exact .inl ⟨none, unheard⟩
    | entered own snapshots hoffers joined taken =>
        refine .inr ⟨own, snapshots, hoffers, joined, fun batch hbatch => ?_⟩
        obtain ⟨s, hs, hmem, rfl⟩ := taken batch hbatch
        exact hgiven.snapshotFor hs hmem
  · intro batch hbatch hlength
    have hvalid := hfed.valid hgiven hbatch
    exact ⟨Wire.decodeFrame_of_valid hvalid hlength, fun s source rest hsteady hbytes hearly =>
      Session.nextSnapshot_of_valid hsteady hvalid hlength hbytes hearly⟩
  · intro hoffer
    have hserved := served_after ids hjoin hoffer
    refine ⟨hserved.begun, hserved.all, fun patience source hsteady hsource hearly => ?_⟩
    exact hfed.handshake hgiven hsteady (hsource.trans (hserved.received hconserves)) hearly

/-- Two connections are run. Then the first peer reports a position under the other identifier, and the
second one reads all that it is sent. -/
def strangeReport : List Event :=
  twoAtRest ++
    [.move (.deliver 1 (Wire.encodeFrame [.resting 2 ⟨0x3ff0000000000000⟩ .zero])),
      .task (.read 1), .task (.read 1), .task .registry, .task (.write 2), .task (.write 2),
      .move (.withdraw 2 256)]

theorem sent_in_strangeReport :
    let past := ({} : Network).trace strangeReport
    let moved : Record := .resting 1 ⟨0x3ff0000000000000⟩ .zero
    let second : Record := .resting 2 .zero .zero
    let source : Wire.Source := { arrivals := [.chunk (ledgerOf past 2).received] }
    (∀ e ∈ strangeReport, e ≠ .move (.ask (.join 2))) ∧
      offersOf past 2 = [[second], [.resting 1 .zero .zero, second], [moved, second]] ∧
      JoinedWith past 2 second ∧ SnapshotFor past 2 [moved, second] ∧
      ∃ s rest, Session.begin Session.defaultPatience source = (.ok s, rest) ∧ s.id = 2 ∧
        s.position = (.zero, .zero) := by
  intro past moved second source
  have hjoin : ∀ e ∈ strangeReport, e ≠ .move (.ask (.join 2)) := by decide +kernel
  have hoffers : offersOf past 2 = [[second], [.resting 1 .zero .zero, second], [moved, second]] := by
    decide +kernel
  have hquiet : ∀ e ∈ strangeReport, ∀ batch, e ≠ .move (.offer 2 batch) := by
    simp [strangeReport, twoAtRest]
  obtain ⟨hfed, -, -, -, hserved⟩ := sent_own_record_then_snapshots {} hjoin
  obtain ⟨-, -, hbegin⟩ := hserved hquiet
  have hsteady : Wire.Steady source.arrivals := by decide +kernel
  have hlong : 36 ≤ (Wire.brought (Wire.Source.splitAt Session.defaultPatience.nanoseconds
      source.arrivals).1).length := by decide +kernel
  have hsource : source.bytes <+: (ledgerOf past 2).received :=
    ⟨[], by simp [source, Wire.Source.bytes]⟩
  obtain ⟨own, s, rest, hfirst, hsession, hid, hposition, -, -⟩ :=
    hbegin Session.defaultPatience source hsteady hsource hlong
  rcases hfed with ⟨hnone, -⟩ | ⟨own', snapshots, hown, hjoined, hsnapshots⟩
  · rw [hoffers] at hnone
    cases hnone
  · obtain ⟨hsame, hlater⟩ := List.cons.inj (hoffers.symm.trans hown)
    cases hsame
    have hfirst' : some [second] = some [own] := by rw [← hfirst, hoffers]; rfl
    cases hfirst'
    exact ⟨hjoin, hoffers, hjoined, hsnapshots _ (by rw [← hlater]; simp), s, rest, hsession, hid,
      hposition⟩

end PositionRelay.Network
