import PositionRelay.Proofs.Network.Membership
import PositionRelay.Proofs.Registry.Refresh

/-!
# Convergence

In a settled network all members were offered the same batch last, it lists the members in ascending
order with the positions that their cells have, and no cell holds a movement that was not broadcast
(`shown_of_settled`). In between this need not be so, but then a broadcast waits in the queue: an
update is merged together with a request for one, and everything else that changes who is a member
or where a member is ends in a fan-out.
-/
namespace PositionRelay.Network

/-- The batches that the registry puts into the mailbox of a client in one event. -/
def deliveries (n : Network) (e : Event) (id : ClientId) : List Batch :=
  match e with
  | .task .registry =>
      ((n.react e).registry.pending id).drop (n.registry.pending id).length
  | _ => []

/-- The batches that the registry put into the mailbox of a client in the past. -/
def offered (past : List (Network × Event)) (id : ClientId) : List Batch :=
  past.flatMap fun s => s.1.deliveries s.2 id

/-- The members were offered one batch last, and their records are those of the batch with the
movement reset. -/
def Shown (past : List (Network × Event)) (n : Network) : Prop :=
  ∃ batch : Batch, (∀ id ∈ n.registry.members.ids, (offered past id).getLast? = some batch) ∧
    n.registry.snapshot = batch.map Record.settled

/-- What the members were shown is current, or a broadcast waits. -/
structure Current (past : List (Network × Event)) (n : Network) : Prop where
  named : ∀ id p, n.registry.position? id = some p → p.id = id
  shown : n.registry.members.ids ≠ [] → .broadcast ∈ n.queue ∨ Shown past n

section
variable {past : List (Network × Event)} {n m : Network} {e : Event} {late : ClientId → Prop}

theorem offered_append (id : ClientId) :
    offered (past ++ [(n, e)]) id = offered past id ++ n.deliveries e id := by
  simp [offered]

theorem deliveries_of_ne (he : e ≠ .task .registry) (id : ClientId) : n.deliveries e id = [] := by
  unfold deliveries
  split
  · exact absurd rfl he
  · rfl

/-- The records of what the members were shown stay the same when they are reset. -/
theorem Shown.settled {id : ClientId} (h : Shown past n) (hid : id ∈ n.registry.members.ids) :
    (n.registry.record? id).map Record.settled = n.registry.record? id := by
  obtain ⟨batch, -, hsnapshot⟩ := h
  cases hr : n.registry.record? id with
  | none => rfl
  | some r =>
      have hmem : r ∈ n.registry.snapshot := by
        rw [Registry.snapshot_eq]
        exact List.mem_filterMap.mpr ⟨id, hid, hr⟩
      rw [hsnapshot] at hmem
      obtain ⟨b, -, rfl⟩ := List.mem_map.mp hmem
      rfl

/-- An event in which the registry offers nothing: a member's record changes by being reset at most,
or a broadcast waits. -/
theorem Current.of_quiet (h : Current past n) (hquiet : ∀ id, n.deliveries e id = [])
    (hmembers : m.registry.members = n.registry.members)
    (hqueue : .broadcast ∈ n.queue → .broadcast ∈ m.queue)
    (hnamed : ∀ id p, m.registry.position? id = some p → p.id = id)
    (hrecord : .broadcast ∉ m.queue → ∀ id ∈ n.registry.members.ids,
      m.registry.record? id = n.registry.record? id ∨
        m.registry.record? id = (n.registry.record? id).map Record.settled) :
    Current (past ++ [(n, e)]) m := by
  refine ⟨hnamed, ?_⟩
  intro hne
  rw [hmembers] at hne
  by_cases hb : .broadcast ∈ m.queue
  · exact .inl hb
  · rcases h.shown hne with hold | hshown
    · exact absurd (hqueue hold) hb
    · have hsame : m.registry.snapshot = n.registry.snapshot := by
        rw [Registry.snapshot_eq, Registry.snapshot_eq, hmembers]
        refine List.filterMap_congr ?_
        intro id hid
        rcases hrecord hb id hid with hr | hr
        · exact hr
        · rw [hr, hshown.settled hid]
      obtain ⟨batch, hlast, hsnapshot⟩ := hshown
      refine .inr ⟨batch, ?_, hsame.trans hsnapshot⟩
      intro id hid
      rw [hmembers] at hid
      rw [offered_append, hquiet, List.append_nil]
      exact hlast id hid

/-- Moves from outside move nobody; they may reset a movement, and put a new client somewhere. -/
theorem Made.record? {n m : Network} (h : n.Made m) (id : ClientId) :
    m.registry.record? id = n.registry.record? id ∨
      m.registry.record? id = (n.registry.record? id).map Record.settled ∨
      (0 < n.ids.upcoming ∧ id = n.ids.upcoming ∧
        ∃ x y, m.registry.record? id = some (.resting id x y)) := by
  have same : ∀ {m : Network}, m.registry = n.registry →
      m.registry.record? id = n.registry.record? id := fun h => by rw [h]
  have modified : ∀ {m : Network} (j : ClientId) (f : Client → Client), m.registry = n.registry →
      (∀ c, (f c).record = c.record) →
      (m.modifyClient j f).registry.record? id = n.registry.record? id := by
    intro m j f hm hf
    change ((m.modifyClient j f).client? id).map Client.record = _
    rw [client?_modifyClient, client?, hm]
    split
    · rw [Option.map_map]
      exact congrArg (Option.map · _) (funext hf)
    · rfl
  cases h with
  | nothing => exact .inl rfl
  | built hpos config buffer drawX drawY =>
      change ((n.built config buffer drawX drawY).client? id).map Client.record = _ ∨ _ ∨ _
      by_cases hid : id = n.ids.upcoming
      · refine .inr (.inr ⟨hpos, hid, config.spawnCoordinate drawX,
          config.spawnCoordinate drawY, ?_⟩)
        change ((n.built config buffer drawX drawY).client? id).map Client.record = _
        rw [client?_built, if_pos hid, Option.map_some, hid]
        rfl
      · refine .inl ?_
        rw [client?_built, if_neg hid]
        rfl
  | connection => exact .inl (same (by rw [registry_enqueue, registry_modifyConnection]))
  | abandoned j phase => exact .inl (modified j _ (registry_modifyConnection ..) fun _ => rfl)
  | client j f still => exact .inl (modified j f rfl still)
  | captured j =>
      change ((n.modifyClient j Client.settle).client? id).map Client.record = _ ∨
        ((n.modifyClient j Client.settle).client? id).map Client.record = _ ∨ _
      rw [client?_modifyClient]
      split
      · refine .inr (.inl ?_)
        unfold Registry.record?
        rw [Option.map_map, Option.map_map]
        rfl
      · exact .inl rfl
  | asked => exact .inl (same (registry_enqueue ..))
  | advanced => exact .inl rfl

theorem Current.make (h : Current past n) (ho : n.Orderly late) (move : Move) :
    Current (past ++ [(n, .move move)]) (n.make move) := by
  refine h.of_quiet (deliveries_of_ne (by simp)) (n.made move).members ?_ ?_ ?_
  · intro hb
    obtain ⟨later, hq⟩ := (n.made move).queue
    rw [hq]
    exact List.mem_append_left _ hb
  · intro id p hp
    unfold Registry.position? at hp
    rcases (n.made move).record? id with hr | hr | ⟨-, -, x, y, hr⟩
    · rw [hr] at hp
      exact h.named id p hp
    · rw [hr, Option.map_map] at hp
      exact h.named id p hp
    · rw [hr] at hp
      cases hp
      rfl
  · intro _ id hid
    rcases (n.made move).record? id with hr | hr | ⟨hpos, rfl, -⟩
    · exact .inl hr
    · exact .inr hr
    · -- The new client was unknown, so it is no member.
      exact absurd hid (ho.unknown _ (ho.phase?_upcoming hpos)).1

/-- A turn that merges an update asks for a broadcast, unless the registry is closed. -/
theorem TurnOf.record {id : ClientId} {c : Client} {k : Connection} {t : Turn}
    (h : n.TurnOf id c k t) :
    t.client.record = c.record ∨
      (t.client.record.id = c.record.id ∧
        (.broadcast ∈ t.requests ∨ n.registry.running = false)) := by
  obtain ⟨reader, writer, -, ⟨-, ht⟩ | ⟨-, ht⟩⟩ := h.sides
  · cases ht with
    | told => exact .inl rfl
    | failed => exact .inl (c.record_fail .read)
    | onward => exact .inl rfl
    | merged => exact .inr ⟨rfl, .inl (by simp)⟩
    | unheard inbound u unheard =>
        have hrecord := congrArg Record.id ((c.merge u).record_fail .read)
        exact .inr ⟨hrecord.trans rfl, .inr unheard⟩
  · cases ht with
    | told => exact .inl rfl
    | failed => exact .inl (c.record_fail .write)
    | onward => exact .inl rfl

theorem record?_apply (n : Network) (id j : ClientId) (t : Turn) :
    (n.apply id t).registry.record? j =
      if j = id then some t.client.record else n.registry.record? j := by
  change ((n.apply id t).client? j).map Client.record = _
  rw [client?_apply]
  split
  · rfl
  · rfl

theorem Current.apply (h : Current past n) (ho : n.Orderly late) (he : e ≠ .task .registry)
    {id : ClientId} {c : Client} {k : Connection} {t : Turn} (ht : n.TurnOf id c k t) :
    Current (past ++ [(n, e)]) (n.apply id t) := by
  have hc : n.registry.record? id = some c.record := by
    change (n.client? id).map Client.record = _
    rw [ht.client]
    rfl
  have hid : t.client.record.id = id := by
    have hold : c.record.id = id := by
      refine h.named id c.record.settled ?_
      rw [Registry.position?, hc]
      rfl
    rcases ht.record with hr | ⟨hr, -⟩
    · rw [hr, hold]
    · rw [hr, hold]
  refine h.of_quiet (deliveries_of_ne he) (members_apply ..) ?_ ?_ ?_
  · intro hb
    rw [queue_apply]
    split
    · exact List.mem_append_left _ hb
    · exact hb
  · intro j p hp
    unfold Registry.position? at hp
    rw [record?_apply] at hp
    split at hp
    · next hj =>
        cases hp
        exact hid.trans hj.symm
    · exact h.named j p hp
  · intro hb j hj
    rw [record?_apply]
    split
    · next he =>
        rw [he, hc]
        rcases ht.record with hr | ⟨-, hask | hclosed⟩
        · exact .inl (by rw [hr])
        · have hrunning : n.registry.running = true := by
            cases hr : n.registry.running with
            | true => rfl
            | false => simp [(ho.closed hr).2] at hj
          rw [queue_apply, if_pos hrunning] at hb
          exact absurd (List.mem_append_right _ hask) hb
        · simp [(ho.closed hclosed).2] at hj
    · exact .inl rfl

/-- Nothing happens. -/
theorem Current.stay (h : Current past n) (hreact : n.react e = n) :
    Current (past ++ [(n, e)]) n := by
  refine h.of_quiet ?_ rfl id h.named fun _ _ _ => .inl rfl
  intro id
  unfold deliveries
  split
  · rw [hreact, List.drop_length]
  · rfl

theorem Current.registryStep (h : Current past n) (ho : n.Orderly late)
    (hm : n.registryStep? = some m) : Current (past ++ [(n, .task .registry)]) m := by
  obtain ⟨request, rest, hn, hregistry, hqueue, -, -⟩ := registryStep?_eq_some hm
  have hrunning : n.registry.running = true := by
    cases hr : n.registry.running with
    | true => rfl
    | false => simp [(ho.closed hr).1] at hn
  have hnamed : ∀ id p, m.registry.position? id = some p → p.id = id := by
    intro id p hp
    rw [hregistry, Registry.position?_handle] at hp
    exact h.named id p hp
  have hdeliveries : ∀ id, n.deliveries (.task .registry) id =
      (m.registry.pending id).drop (n.registry.pending id).length := by
    intro id
    rw [deliveries, react, step?, hm]
    rfl
  rcases Registry.refreshed_handle hrunning request with hfresh | ⟨hsame, hother⟩
  · rw [← hregistry] at hfresh
    refine ⟨hnamed, ?_⟩
    intro hne
    obtain ⟨batch, hlast, hsnapshot⟩ := hfresh hne
    refine .inr ⟨batch, ?_, hsnapshot⟩
    intro id hid
    obtain ⟨more, hmore⟩ := hlast id hid
    rw [offered_append, hdeliveries, hmore, List.append_assoc, List.drop_left]
    simp
  · -- Nothing was done, and a broadcast that waited waits on.
    rw [hsame, if_pos hrunning] at hqueue
    rw [hsame] at hregistry
    refine h.of_quiet ?_ (by rw [hregistry]) ?_ hnamed fun _ _ _ => .inl (by rw [hregistry])
    · intro id
      rw [hdeliveries, hregistry, List.drop_length]
    · intro hb
      rw [hn] at hb
      rw [hqueue]
      exact (List.mem_cons.mp hb).resolve_left (Ne.symm hother)

theorem Current.react (h : Current past n) (ho : n.Orderly late) (e : Event) :
    Current (past ++ [(n, e)]) (n.react e) := by
  cases e with
  | move move => exact h.make ho move
  | task task =>
      cases hs : n.step? task with
      | none =>
          rw [react_of_none hs]
          exact h.stay (react_of_none hs)
      | some m =>
          rw [react_of_some hs]
          rcases step?_cases hs with ⟨rfl, hr⟩ | ⟨hne, id, c, k, t, ht, rfl⟩
          · exact h.registryStep ho hr
          · exact h.apply ho (by simp [hne]) ht

end

theorem current_after (ids : IdentifierSource) {events : List Event}
    (h : ∀ e ∈ events, e.Unforced) :
    Current (({ ids } : Network).trace events) (({ ids } : Network).after events) := by
  have hboth := run_induction
    (P := fun past n => n.Orderly (IsLate past) ∧ Current past n) (Q := fun _ e => e.Unforced)
    (n := { ids }) ?_ ?_ events fun s hs => h s.2 (event_mem_of_mem_trace hs)
  · exact hboth.2
  · rintro past m e ⟨ho, hc⟩ he
    refine ⟨(ho.react he).of_iff ?_, hc.react ho e⟩
    intro id
    simp [IsLate, or_and_right, exists_or]
  · refine ⟨(orderly_empty ids).of_iff ?_, ?_, fun hne => absurd rfl hne⟩
    · intro id
      simp [IsLate]
    · intro id p hp
      cases hp

/-- Every member has a client, with a record under its own identifier. -/
theorem Current.record_of_mem {past : List (Network × Event)} {n : Network}
    {late : ClientId → Prop} (h : Current past n) (ho : n.Orderly late) {id : ClientId}
    (hid : id ∈ n.registry.members.ids) : ∃ r, n.registry.record? id = some r ∧ r.id = id := by
  have hknown : (n.flags? id).isSome := by
    rw [ho.paired]
    cases hp : n.phase? id with
    | some p => rfl
    | none => exact absurd hid (ho.unknown id hp).1
  obtain ⟨f, hf⟩ := Option.isSome_iff_exists.mp hknown
  obtain ⟨c, hc, -⟩ := client?_of_flags? hf
  have hr : n.registry.record? id = some c.record := by
    change (n.client? id).map Client.record = _
    rw [hc]
    rfl
  refine ⟨c.record, hr, h.named id c.record.settled ?_⟩
  rw [Registry.position?, hr]
  rfl

theorem Current.map_id_snapshot {past : List (Network × Event)} {n : Network}
    {late : ClientId → Prop} (h : Current past n) (ho : n.Orderly late) :
    n.registry.snapshot.map Record.id = n.registry.members.ids :=
  Registry.map_id_filterMap fun _ hid => h.record_of_mem ho hid

/-- In a settled network all members were offered the same batch last. It lists the members in
ascending order, each where its cell has it, and no cell holds a movement any more. -/
theorem shown_of_settled (ids : IdentifierSource) {events : List Event}
    (h : ∀ e ∈ events, e.Unforced) (hs : (({ ids } : Network).after events).Settled) :
    let n := ({ ids } : Network).after events
    ∃ batch : Batch,
      (∀ id ∈ n.registry.members.ids,
        (offered (({ ids } : Network).trace events) id).getLast? = some batch) ∧
      batch.map Record.id = n.registry.members.ids ∧
      (batch.map Record.id).Pairwise (· < ·) ∧
      ∀ b ∈ batch, ∃ c, n.client? b.id = some c ∧
        c.record.x = b.x ∧ c.record.y = b.y ∧ c.record.delta = .zero := by
  intro n
  have ho : n.Orderly _ := orderly_after ids h
  have hcurrent : Current _ n := current_after ids h
  by_cases hne : n.registry.members.ids = []
  · exact ⟨[], by simp [hne], by simp [hne], by simp, by simp⟩
  · have hqueue : n.queue = [] := hs.queue_eq_nil
    have hshown : Shown _ n := (hcurrent.shown hne).resolve_left (by simp [hqueue])
    obtain ⟨batch, hlast, hsnapshot⟩ := hshown
    have hmembers : batch.map Record.id = n.registry.members.ids := by
      rw [← hcurrent.map_id_snapshot ho, hsnapshot, List.map_map]
      rfl
    refine ⟨batch, hlast, hmembers, ?_, ?_⟩
    · rw [hmembers]
      exact n.registry.members.ascending
    · intro b hb
      have hmem : b.settled ∈ n.registry.snapshot := by
        rw [hsnapshot]
        exact List.mem_map_of_mem hb
      rw [Registry.snapshot_eq] at hmem
      obtain ⟨id, hid, hr⟩ := List.mem_filterMap.mp hmem
      obtain ⟨r, hr', hrid⟩ := hcurrent.record_of_mem ho hid
      rw [hr] at hr'
      cases hr'
      obtain ⟨c, hc, hrecord⟩ := Option.map_eq_some_iff.mp hr
      have hcid : n.client? b.id = some c := by
        have : b.id = id := hrid
        rw [this]
        exact hc
      exact ⟨c, hcid, by rw [hrecord]; rfl, by rw [hrecord]; rfl, by rw [hrecord]; rfl⟩

/-- Two connections are run, and the second one reports where it is before its join is handled. -/
def earlyReport : List Event :=
  let update : Record := ⟨2, ⟨0x3ff0000000000000⟩, ⟨0x4000000000000000⟩, ⟨0x3fe0000000000000⟩⟩
  [.move (.build {} 256 0 0), .move (.build {} 256 0 0), .move (.start 1), .move (.start 2),
    .move (.deliver 2 (Wire.encodeFrame [update])), .task (.read 2), .task (.read 2),
    .task .registry, .task .registry, .task .registry] ++
    List.replicate 8 (.task (.write 1)) ++ List.replicate 6 (.task (.write 2))

theorem shown_after_earlyReport :
    (∀ e ∈ earlyReport, e.Unforced) ∧ (({} : Network).after earlyReport).Settled ∧
      (({} : Network).after earlyReport).registry.members.ids = [1, 2] ∧
      ∃ batch : Batch, batch.map Record.id = [1, 2] ∧
        (offered (({} : Network).trace earlyReport) 1).getLast? = some batch ∧
        (offered (({} : Network).trace earlyReport) 2).getLast? = some batch := by
  have h : ∀ e ∈ earlyReport, e.Unforced := by simp [earlyReport, Event.Unforced]
  have hs : (({} : Network).after earlyReport).Settled :=
    settled_of_isNone (by decide +kernel)
  have hids : (({} : Network).after earlyReport).registry.members.ids = [1, 2] := by
    decide +kernel
  obtain ⟨batch, hlast, hmembers, -, -⟩ := shown_of_settled {} h hs
  rw [hids] at hmembers hlast
  exact ⟨h, hs, hids, batch, hmembers, hlast 1 (by simp), hlast 2 (by simp)⟩

end PositionRelay.Network
