import Mathlib.Data.List.Basic
import PositionRelay.Proofs.Registry.Refresh

/-!
# The registry at work

Handling a request is one step of the registry as far as members and mailboxes are concerned, but not
for the cells: while a round goes on, updates are merged, between two rounds and between the captures
of two records. `Service` takes a request apart into what it changes at once, the capture of one record
after another in any order, and the offer of the batch that is complete, so that anything else may
happen in between.

If nothing does, then this comes to what `handle` answers (`exists_acts_of_handle`).
-/
namespace PositionRelay

/-- An offer after the capture. -/
def Client.receive (c : Client) (batch : Batch) : Client :=
  match c.offer batch with
  | .ok c => c
  | .error _ => c.disconnect

namespace Registry

/-- Offers a batch to every member and evicts those that refuse it. -/
def deliver (r : Registry) (batch : Batch) : Registry :=
  { r with
    members := r.members.filter r.takes
    clients := r.clients.map fun id c => if id ∈ r.members.ids then c.receive batch else c }

/-- What a request changes before batches go out, and whether any do. -/
def enact (r : Registry) (request : Request) : Registry × Bool :=
  if !r.running then (r, false)
  else
    match request with
    | .join id =>
        match r.clients.get? id with
        | none => (r, false)
        | some c =>
            match c.offer [c.record] with
            | .ok d =>
                ({ r with members := r.members.insert id, clients := r.clients.set id d }, true)
            | .error _ => (({ r with members := r.members.insert id } : Registry).evict id, true)
    | .leave id => ({ r with members := r.members.erase id }, true)
    | .broadcast => (r, true)
    | .count => (r, false)
    | .shutDown => (r.shutDown, false)

end Registry

/-- The registry, with the records captured in the round under way, if there is one. -/
structure Service where
  registry : Registry
  captured? : Option (Roster Record) := none

/-- What can happen next. -/
inductive Act where
  | request (request : Request)
  | capture (id : ClientId)
  | offer
  | merge (id : ClientId) (update : Record)
  /-- Something happens to a client, its cell aside. -/
  | alter (id : ClientId) (other : Client)

/-- An act of the registry in the course of a round. -/
def Act.IsOwn : Act → Prop
  | capture _ => True
  | offer => True
  | _ => False

namespace Service

/-- The record that a round captures next from a client. -/
def taken? (s : Service) (id : ClientId) : Option Record :=
  match s.captured? with
  | none => none
  | some captured =>
      if id ∈ s.registry.members.ids ∧ (captured.get? id).isNone then s.registry.record? id else none

/-- The batch of a round, once all members are in it. -/
def batch? (s : Service) : Option Batch :=
  match s.captured? with
  | none => none
  | some captured =>
      if s.registry.members.ids.all fun id => (captured.get? id).isSome then
        some (s.registry.members.ids.filterMap captured.get?)
      else none

/-- A round begins if one is due and there is someone to send a batch to. -/
def enter (r : Registry) (due : Bool) : Service :=
  ⟨r, if due && !r.members.ids.isEmpty then some {} else none⟩

def modify (s : Service) (id : ClientId) (f : Client → Client) : Service :=
  { s with registry := { s.registry with clients := s.registry.clients.modify id f } }

/-- The record goes into the round, and its movement starts anew. -/
def capture (s : Service) (id : ClientId) (record : Record) : Service where
  registry := (s.modify id Client.settle).registry
  captured? := s.captured?.map fun captured => captured.set id record

/-- What is not possible changes nothing. A round that someone refuses is followed by another one. -/
def step (s : Service) : Act → Service
  | .request request =>
      if s.captured?.isSome then s
      else enter (s.registry.enact request).1 (s.registry.enact request).2
  | .capture id =>
      match s.taken? id with
      | none => s
      | some record => s.capture id record
  | .offer =>
      match s.batch? with
      | none => s
      | some batch =>
          enter (s.registry.deliver batch) (!s.registry.members.ids.all s.registry.takes)
  | .merge id update => s.modify id fun c => c.merge update
  | .alter id other => s.modify id fun c => { other with cell := c.cell }

def after (s : Service) (acts : List Act) : Service := acts.foldl step s

/-- The states that a run leaves behind, each with the act that left it. -/
def trace (s : Service) : List Act → List (Service × Act)
  | [] => []
  | a :: rest => (s, a) :: (s.step a).trace rest

/-- The batches of the rounds that were offered. -/
def snapshots (past : List (Service × Act)) : List Batch :=
  past.flatMap fun s =>
    match s.2 with
    | .offer => s.1.batch?.toList
    | _ => []

section
variable {s : Service} {id : ClientId} {request : Request}

theorem step_request_of_some {captured : Roster Record} (h : s.captured? = some captured) :
    s.step (.request request) = s := by simp [step, h]

theorem step_request (h : s.captured? = none) :
    s.step (.request request) = enter (s.registry.enact request).1 (s.registry.enact request).2 := by
  simp [step, h]

theorem step_capture_of_none (h : s.taken? id = none) : s.step (.capture id) = s := by simp [step, h]

theorem step_capture {record : Record} (h : s.taken? id = some record) :
    s.step (.capture id) = s.capture id record := by simp [step, h]

theorem step_offer_of_none (h : s.batch? = none) : s.step .offer = s := by simp [step, h]

theorem step_offer {batch : Batch} (h : s.batch? = some batch) :
    s.step .offer =
      enter (s.registry.deliver batch) (!s.registry.members.ids.all s.registry.takes) := by
  simp only [step, h]

end

theorem after_append (s : Service) (before later : List Act) :
    s.after (before ++ later) = (s.after before).after later := List.foldl_append

theorem trace_append (s : Service) (before later : List Act) :
    s.trace (before ++ later) = s.trace before ++ (s.after before).trace later := by
  induction before generalizing s with
  | nil => rfl
  | cons a rest ih =>
      simp only [List.cons_append, trace, ih]
      rfl

theorem snapshots_append (past later : List (Service × Act)) :
    snapshots (past ++ later) = snapshots past ++ snapshots later := List.flatMap_append

end Service

namespace Registry

/-- Every member has a client, and every record its own identifier. -/
structure Sound (r : Registry) : Prop where
  known : ∀ id ∈ r.members.ids, (r.record? id).isSome
  named : ∀ id record, r.record? id = some record → record.id = id

section
variable (r : Registry) (id : ClientId)

/-- Changes of clients that leave their records alone. -/
theorem record?_of_clients {r s : Registry} {id : ClientId} {f : Client → Client}
    (h : s.clients.get? id = (r.clients.get? id).map f) (hf : ∀ c, (f c).record = c.record) :
    s.record? id = r.record? id := by
  unfold record?
  rw [h, Option.map_map]
  exact congrArg (Option.map · _) (funext hf)

theorem record?_deliver (batch : Batch) : (r.deliver batch).record? id = r.record? id := by
  refine record?_of_clients (Roster.get?_map ..) fun c => ?_
  split
  · unfold Client.receive
    split
    · next d hd => rw [Client.offer_eq_ok hd]; rfl
    · rfl
  · rfl

theorem pending_deliver {r : Registry} {batch : Batch} {id : ClientId}
    (h : id ∈ (r.deliver batch).members.ids) :
    (r.deliver batch).pending id = r.pending id ++ [batch] := by
  obtain ⟨hid, ht⟩ := List.mem_filter.mp h
  have hget : (r.deliver batch).clients.get? id =
      (r.clients.get? id).map fun c => if id ∈ r.members.ids then c.receive batch else c :=
    Roster.get?_map ..
  unfold takes at ht
  unfold pending
  rw [hget]
  cases hc : r.clients.get? id with
  | none => simp [hc] at ht
  | some c =>
      have hroom : c.mailbox.refusal? = none := by simpa [hc] using ht
      simp only [Option.map_some, if_pos hid, Client.receive, Client.offer, Mailbox.offer, hroom]
      rfl

theorem record?_enact (request : Request) : (r.enact request).1.record? id = r.record? id := by
  unfold enact
  split
  · rfl
  · cases request with
    | join j =>
        dsimp only
        split
        · rfl
        · next c hc =>
            split
            · next d hd =>
                unfold record?
                dsimp only
                rw [Roster.get?_set]
                split
                · next he => rw [he, hc, Client.offer_eq_ok hd]; rfl
                · rfl
            · refine record?_of_clients (f := fun c => if id = j then c.disconnect else c) ?_ ?_
              · unfold evict
                dsimp only
                rw [Roster.get?_modify]
                split
                · rfl
                · exact Option.map_id_apply.symm
              · intro c
                split
                · rfl
                · rfl
    | leave j => rfl
    | broadcast => rfl
    | count => rfl
    | shutDown =>
        refine record?_of_clients (Roster.get?_map ..) fun c => ?_
        split
        · rfl
        · rfl

/-- Whoever a request makes a member has a client. -/
theorem mem_enact {r : Registry} {id : ClientId} {request : Request}
    (h : id ∈ (r.enact request).1.members.ids) :
    id ∈ r.members.ids ∨ (r.record? id).isSome := by
  unfold enact at h
  split at h
  · exact .inl h
  · cases request with
    | join j =>
        dsimp only at h
        split at h
        · exact .inl h
        · next c hc =>
            have hj : (r.record? j).isSome := by simp [record?, hc]
            split at h
            · rcases (mem_insertAscending).mp h with rfl | hmem
              · exact .inr hj
              · exact .inl hmem
            · have hmem : id ∈ (r.members.insert j).ids := (List.mem_filter.mp h).1
              rcases (mem_insertAscending).mp hmem with rfl | hmem
              · exact .inr hj
              · exact .inl hmem
    | leave j => exact .inl (List.mem_filter.mp h).1
    | broadcast => exact .inl h
    | count => exact .inl h
    | shutDown => cases h

theorem Sound.of_alike {r s : Registry} (h : r.Sound) (hrecord : ∀ id, s.record? id = r.record? id)
    (hmembers : ∀ id ∈ s.members.ids, id ∈ r.members.ids ∨ (r.record? id).isSome) : s.Sound := by
  refine ⟨fun id hid => ?_, fun id record hr => h.named id record ((hrecord id).symm.trans hr)⟩
  rw [hrecord]
  rcases hmembers id hid with hmem | hknown
  · exact h.known id hmem
  · exact hknown

/-- What a concrete registry is checked by. -/
theorem sound_of_entries {r : Registry}
    (hknown : r.members.ids.all fun id => (r.record? id).isSome)
    (hnamed : r.clients.entries.all fun e => e.2.record.id == e.1) : r.Sound := by
  refine ⟨List.all_eq_true.mp hknown, fun id record hr => ?_⟩
  obtain ⟨c, hc, rfl⟩ := Option.map_eq_some_iff.mp hr
  obtain ⟨before, later, he, -⟩ := List.lookup_eq_some_iff.mp hc
  exact beq_iff_eq.mp (List.all_eq_true.mp hnamed (id, c) (by rw [he]; simp))

theorem Sound.enact {r : Registry} (h : r.Sound) (request : Request) : (r.enact request).1.Sound :=
  h.of_alike (fun id => record?_enact r id request) fun _ => mem_enact

theorem Sound.deliver {r : Registry} (h : r.Sound) (batch : Batch) : (r.deliver batch).Sound :=
  h.of_alike (fun id => record?_deliver r id batch) fun _ hid => .inl (List.mem_filter.mp hid).1

theorem Sound.round {r : Registry} (h : r.Sound) : r.round.Sound := by
  constructor
  · intro id hid
    have hmem : id ∈ r.members.ids := (List.mem_filter.mp hid).1
    rw [record?_round, if_pos hmem, Option.isSome_map]
    exact h.known id hmem
  · intro id record hr
    rw [record?_round] at hr
    split at hr
    · obtain ⟨old, hold, rfl⟩ := Option.map_eq_some_iff.mp hr
      exact h.named id old hold
    · exact h.named id record hr

end

/-- The clients of some identifiers, with their movement reset. -/
def settling (r : Registry) (ids : List ClientId) : Registry :=
  { r with clients := r.clients.map fun id c => if id ∈ ids then c.settle else c }

theorem takes_settling (r : Registry) (ids : List ClientId) : (r.settling ids).takes = r.takes := by
  funext id
  unfold takes settling
  dsimp only
  rw [Roster.get?_map]
  cases r.clients.get? id with
  | none => rfl
  | some c => by_cases hid : id ∈ ids <;> simp [hid, Client.settle]

/-- A round is a capture of all records and an offer. -/
theorem deliver_settling (r : Registry) :
    (r.settling r.members.ids).deliver r.snapshot = r.round := by
  unfold deliver
  rw [takes_settling]
  unfold settling round Roster.map
  dsimp only
  rw [List.map_map]
  congr 2
  refine List.map_congr_left fun e _ => ?_
  by_cases hid : e.1 ∈ r.members.ids
  · simp only [Function.comp_apply, if_pos hid]
    rfl
  · simp [hid]

/-- The batch of its own that a client gets when it joins. -/
def greeting (r : Registry) : Request → List Batch
  | .join id => if r.running then (r.record? id).toList.map fun record => [record] else []
  | _ => []

theorem handle_eq_enact (r : Registry) (request : Request) :
    (r.handle request).registry =
        (if (r.enact request).2 then (r.enact request).1.fanOut.1 else (r.enact request).1) ∧
      (r.handle request).rounds.map Round.batch = r.greeting request ++
        if (r.enact request).2 then (r.enact request).1.fanOut.2.map Round.batch else [] := by
  by_cases hrunning : r.running = true
  · cases request with
    | join id =>
        cases hc : r.clients.get? id with
        | none => simp [handle, enact, greeting, record?, hrunning, hc, join_of_unknown hc]
        | some c =>
            cases ho : c.offer [c.record] with
            | ok d => simp [handle, enact, greeting, record?, hrunning, hc, ho, join_of_taken hc ho]
            | error why =>
                simp [handle, enact, greeting, record?, hrunning, hc, ho, join_of_refused hc ho]
    | leave id => simp [handle, enact, greeting, hrunning, leave]
    | broadcast => simp [handle, enact, greeting, hrunning]
    | count => simp [handle, enact, greeting, hrunning]
    | shutDown => simp [handle, enact, greeting, hrunning]
  · cases request <;> simp [handle, enact, greeting, hrunning]

theorem Sound.fanOut {r : Registry} (h : r.Sound) : r.fanOut.1.Sound := by
  induction r using fanOut_induction with
  | empty r hempty =>
      rw [fanOut_of_empty hempty]
      exact h
  | taken r hne hall =>
      rw [fanOut_of_taken hne hall]
      exact h.round
  | refused r hsome ih =>
      rw [fanOut_of_refused hsome]
      exact ih h.round

theorem Sound.handle {r : Registry} (h : r.Sound) (request : Request) :
    (r.handle request).registry.Sound := by
  rw [(r.handle_eq_enact request).1]
  split
  · exact (h.enact request).fanOut
  · exact h.enact request

end Registry

namespace Service

theorem snapshots_captures (s : Service) (ids : List ClientId) :
    snapshots (s.trace (ids.map .capture)) = [] := by
  induction ids generalizing s with
  | nil => rfl
  | cons id rest ih => exact ih (s.step (.capture id))

/-- The records of some clients are captured one after another. -/
theorem after_captures {r : Registry} {captured : Roster Record} {ids : List ClientId}
    (hmem : ∀ id ∈ ids, id ∈ r.members.ids) (hnodup : ids.Nodup)
    (hnew : ∀ id ∈ ids, captured.get? id = none) (hknown : ∀ id ∈ ids, (r.record? id).isSome) :
    ∃ all : Roster Record,
      (Service.mk r (some captured)).after (ids.map .capture) = ⟨r.settling ids, some all⟩ ∧
        ∀ id, all.get? id = if id ∈ ids then r.record? id else captured.get? id := by
  induction ids generalizing r captured with
  | nil =>
      refine ⟨captured, ?_, fun id => by simp⟩
      have hnone : r.settling [] = r := by
        unfold Registry.settling Roster.map
        simp
      rw [hnone]
      rfl
  | cons id rest ih =>
      obtain ⟨hid, hrest⟩ := List.nodup_cons.mp hnodup
      obtain ⟨record, hrecord⟩ := Option.isSome_iff_exists.mp (hknown id (by simp))
      have htaken : (Service.mk r (some captured)).taken? id = some record := by
        simp [taken?, hmem id (by simp), hnew id (by simp), hrecord]
      have hstep : (Service.mk r (some captured)).step (.capture id) =
          ⟨r.settling [id], some (captured.set id record)⟩ := by
        rw [step_capture htaken]
        simp only [capture, modify, Registry.settling, Roster.modify, List.mem_singleton,
          Option.map_some]
      have hother : ∀ j ∈ rest, j ≠ id := by
        rintro j hj rfl
        exact hid hj
      have hsame : ∀ j ∈ rest, (r.settling [id]).record? j = r.record? j := by
        intro j hj
        unfold Registry.record? Registry.settling
        dsimp only
        rw [Roster.get?_map]
        cases r.clients.get? j <;> simp [hother j hj]
      obtain ⟨all, hafter, hall⟩ := @ih (r.settling [id]) (captured.set id record)
        (fun j hj => hmem j (by simp [hj])) hrest
        (fun j hj => by rw [Roster.get?_set, if_neg (hother j hj)]; exact hnew j (by simp [hj]))
        (fun j hj => by rw [hsame j hj]; exact hknown j (by simp [hj]))
      refine ⟨all, ?_, ?_⟩
      · rw [List.map_cons, after, List.foldl_cons, hstep]
        refine hafter.trans ?_
        congr 1
        unfold Registry.settling Roster.map
        dsimp only
        rw [List.map_map]
        congr 2
        refine List.map_congr_left fun e _ => ?_
        by_cases he : e.1 = id
        · simp [he, hid]
        · simp [he]
      · intro j
        rw [hall]
        by_cases hj : j ∈ rest
        · rw [if_pos hj, if_pos (by simp [hj]), hsame j hj]
        · rw [if_neg hj, Roster.get?_set]
          by_cases he : j = id
          · rw [if_pos he, if_pos (by simp [he]), he, hrecord]
          · rw [if_neg he, if_neg (by simp [he, hj])]

theorem nodup_members (m : Members) : m.ids.Nodup := by
  refine m.ascending.imp ?_
  rintro a _ hlt rfl
  exact Int32.lt_irrefl hlt

/-- A round that nothing interrupts. -/
theorem exists_acts_of_round {r : Registry} (h : r.Sound) :
    ∃ acts : List Act, (∀ a ∈ acts, a.IsOwn) ∧
      (Service.mk r (some {})).after acts = enter r.round (!r.members.ids.all r.takes) ∧
      snapshots ((Service.mk r (some {})).trace acts) = [r.snapshot] := by
  obtain ⟨all, hafter, hall⟩ := @after_captures r {} r.members.ids (fun _ hid => hid)
    (nodup_members r.members) (fun _ _ => rfl) h.known
  have hbatch : (Service.mk (r.settling r.members.ids) (some all)).batch? = some r.snapshot := by
    have hget : ∀ id ∈ r.members.ids, all.get? id = r.record? id := by
      intro id hid
      rw [hall, if_pos hid]
    have hfull : r.members.ids.all (fun id => (all.get? id).isSome) = true := by
      refine List.all_eq_true.mpr fun id hid => ?_
      rw [hget id hid]
      exact h.known id hid
    unfold batch? Registry.settling
    dsimp only
    rw [if_pos hfull, Registry.snapshot_eq]
    exact congrArg some (List.filterMap_congr hget)
  refine ⟨r.members.ids.map .capture ++ [.offer], ?_, ?_, ?_⟩
  · intro a ha
    rcases List.mem_append.mp ha with ha | ha
    · obtain ⟨id, -, rfl⟩ := List.mem_map.mp ha
      trivial
    · rw [List.mem_singleton.mp ha]
      trivial
  · rw [after_append, hafter]
    change (Service.mk (r.settling r.members.ids) (some all)).step .offer = _
    rw [step_offer hbatch, Registry.deliver_settling, Registry.takes_settling]
    rfl
  · rw [trace_append, snapshots_append, snapshots_captures, hafter]
    simp [snapshots, trace, hbatch]

theorem exists_acts_of_fanOut {r : Registry} (h : r.Sound) :
    ∃ acts : List Act, (∀ a ∈ acts, a.IsOwn) ∧
      (enter r true).after acts = ⟨r.fanOut.1, none⟩ ∧
      snapshots ((enter r true).trace acts) = r.fanOut.2.map Round.batch := by
  have begun : ∀ {r : Registry}, r.members.ids ≠ [] → enter r true = ⟨r, some {}⟩ := by
    intro r hne
    simp [enter, hne]
  induction r using Registry.fanOut_induction with
  | empty r hempty =>
      rw [Registry.fanOut_of_empty hempty]
      exact ⟨[], by simp, by simp [enter, hempty, after], rfl⟩
  | taken r hne hall =>
      obtain ⟨acts, hown, hafter, hsnapshots⟩ := exists_acts_of_round h
      rw [Registry.fanOut_of_taken hne hall, begun hne]
      refine ⟨acts, hown, ?_, hsnapshots⟩
      rw [hafter, List.all_eq_true.mpr hall]
      rfl
  | refused r hsome ih =>
      obtain ⟨acts, hown, hafter, hsnapshots⟩ := exists_acts_of_round h
      obtain ⟨more, hmore, hlast, hrest⟩ := ih h.round
      have hne : r.members.ids ≠ [] := by
        obtain ⟨id, hid, -⟩ := hsome
        exact List.ne_nil_of_mem hid
      have hnot : r.members.ids.all r.takes = false := by
        obtain ⟨id, hid, ht⟩ := hsome
        refine Bool.eq_false_iff.mpr fun hall => ?_
        rw [List.all_eq_true.mp hall id hid] at ht
        cases ht
      rw [hnot] at hafter
      rw [Registry.fanOut_of_refused hsome, begun hne]
      refine ⟨acts ++ more, ?_, ?_, ?_⟩
      · exact fun a ha => (List.mem_append.mp ha).elim (hown a) (hmore a)
      · rw [after_append, hafter]
        exact hlast
      · rw [trace_append, snapshots_append, hsnapshots, hafter]
        exact congrArg _ hrest

/-- A request that nothing interrupts is handled as by `handle`, with the same batches. -/
theorem exists_acts_of_handle {s : Service} (h : s.registry.Sound) (hidle : s.captured? = none)
    (request : Request) :
    ∃ acts : List Act, (∀ a ∈ acts, a.IsOwn) ∧
      s.after (.request request :: acts) = ⟨(s.registry.handle request).registry, none⟩ ∧
      (s.registry.handle request).rounds.map Round.batch =
        s.registry.greeting request ++ snapshots (s.trace (.request request :: acts)) := by
  obtain ⟨r, captured?⟩ := s
  obtain rfl : captured? = none := hidle
  change r.Sound at h
  obtain ⟨hregistry, hrounds⟩ := r.handle_eq_enact request
  have hstep : (Service.mk r none).step (.request request) =
      enter (r.enact request).1 (r.enact request).2 := step_request rfl
  cases hdue : (r.enact request).2 with
  | false =>
      rw [hdue] at hregistry hrounds hstep
      refine ⟨[], by simp, ?_, ?_⟩
      · rw [hregistry]
        exact hstep
      · rw [hrounds]
        rfl
  | true =>
      rw [hdue] at hregistry hrounds hstep
      obtain ⟨acts, hown, hafter, hsnapshots⟩ := exists_acts_of_fanOut (h.enact request)
      refine ⟨acts, hown, ?_, ?_⟩
      · rw [after, List.foldl_cons, hstep, hregistry]
        exact hafter
      · rw [hrounds, trace, hstep]
        exact congrArg _ hsnapshots.symm

end Service
end PositionRelay
