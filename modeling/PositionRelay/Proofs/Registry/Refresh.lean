import Mathlib.Data.List.Basic
import PositionRelay.Proofs.Registry.FanOut

/-!
# What a fan-out leaves with its survivors

After a fan-out all members that are left got the same batch last, and their records are those of
that batch with nothing moved since (`refreshed_fanOut`). A round that evicts someone does not leave
this behind, since its batch still shows the evicted; the round after it does. Joins, departures and
broadcasts all end in a fan-out (`refreshed_handle`).
-/
namespace PositionRelay

theorem Client.record_visit (c : Client) (batch : Batch) :
    (c.visit batch).record = c.record.settled := by
  by_cases h : 0 < c.mailbox.free
  · rw [visit_of_free h]
    rfl
  · have hz : c.mailbox.free = 0 := by omega
    rw [visit_of_full hz]
    rfl

namespace Registry

def record? (r : Registry) (id : ClientId) : Option Record := (r.clients.get? id).map Client.record

/-- The batches in the mailbox of a client. -/
def pending (r : Registry) (id : ClientId) : List Batch :=
  (r.clients.get? id).elim [] fun c => c.mailbox.pending

/-- Where a client is, without its movement. -/
def position? (r : Registry) (id : ClientId) : Option Record := (r.record? id).map Record.settled

/-- All members of the later registry got one batch last, and their records are those of the batch
with the movement reset. -/
def Refreshed (r s : Registry) : Prop :=
  s.members.ids ≠ [] → ∃ batch : Batch,
    (∀ id ∈ s.members.ids, ∃ more, s.pending id = r.pending id ++ more ++ [batch]) ∧
      s.snapshot = batch.map Record.settled

theorem snapshot_eq (r : Registry) : r.snapshot = r.members.ids.filterMap r.record? := rfl

/-- Records that are looked up under their own identifiers. -/
theorem map_id_filterMap {ids : List ClientId} {f : ClientId → Option Record}
    (h : ∀ id ∈ ids, ∃ record, f id = some record ∧ record.id = id) :
    (ids.filterMap f).map Record.id = ids := by
  have hsome : ∀ id ∈ ids, (f id).map Record.id = some id := by
    intro id hid
    obtain ⟨record, hr, he⟩ := h id hid
    rw [hr, Option.map_some, he]
  rw [List.map_filterMap, List.filterMap_congr hsome, List.filterMap_some]

theorem record?_round (r : Registry) (id : ClientId) :
    r.round.record? id =
      if id ∈ r.members.ids then (r.record? id).map Record.settled else r.record? id := by
  unfold record?
  rw [get?_round]
  cases r.clients.get? id with
  | none => simp
  | some c =>
      by_cases hid : id ∈ r.members.ids
      · simp [hid, Client.record_visit]
      · simp [hid]

theorem pending_round {r : Registry} {id : ClientId} (hid : id ∈ r.members.ids)
    (hfree : 0 < r.free id) : r.round.pending id = r.pending id ++ [r.snapshot] := by
  unfold free at hfree
  unfold pending
  rw [get?_round]
  cases hc : r.clients.get? id with
  | none => simp [hc] at hfree
  | some c =>
      have : 0 < c.mailbox.free := by simpa [hc] using hfree
      simp [hid, Client.visit_of_free this]

/-- A round that all members take. -/
theorem snapshot_round {r : Registry} (h : ∀ id ∈ r.members.ids, r.takes id = true) :
    r.round.snapshot = r.snapshot.map Record.settled := by
  have hmembers : r.round.members.ids = r.members.ids := List.filter_eq_self.mpr h
  rw [snapshot_eq, snapshot_eq, hmembers, List.map_filterMap]
  refine List.filterMap_congr ?_
  intro id hid
  rw [record?_round, if_pos hid]

theorem refreshed_fanOut (r : Registry) : Refreshed r r.fanOut.1 := by
  induction r using fanOut_induction with
  | empty r hempty =>
      intro hne
      rw [fanOut_of_empty hempty] at hne
      exact absurd hempty hne
  | taken r hne hall =>
      rw [fanOut_of_taken hne hall]
      intro _
      refine ⟨r.snapshot, ?_, snapshot_round hall⟩
      intro id hid
      obtain ⟨hm, hfree⟩ := (mem_round_iff r id).mp hid
      exact ⟨[], by rw [List.append_nil, pending_round hm hfree]⟩
  | refused r hsome ih =>
      rw [fanOut_of_refused hsome]
      intro hne
      obtain ⟨batch, hpending, hsnapshot⟩ := ih hne
      refine ⟨batch, ?_, hsnapshot⟩
      intro id hid
      -- Who is left at the end took the first round as well.
      have hround : id ∈ r.round.members.ids := ((mem_fanOut_iff _ id).mp hid).1
      obtain ⟨hm, hfree⟩ := (mem_round_iff r id).mp hround
      obtain ⟨more, hmore⟩ := hpending id hid
      refine ⟨r.snapshot :: more, ?_⟩
      rw [hmore, pending_round hm hfree]
      simp

/-- What is put into the mailboxes before a fan-out does not matter. -/
theorem Refreshed.of_more {r s t : Registry} (h : Refreshed s t)
    (hpending : ∀ id, ∃ more, s.pending id = r.pending id ++ more) : Refreshed r t := by
  intro hne
  obtain ⟨batch, hlast, hsnapshot⟩ := h hne
  refine ⟨batch, ?_, hsnapshot⟩
  intro id hid
  obtain ⟨before, hbefore⟩ := hpending id
  obtain ⟨more, hmore⟩ := hlast id hid
  refine ⟨before ++ more, ?_⟩
  rw [hmore, hbefore]
  simp

theorem pending_evict (r : Registry) (id j : ClientId) : (r.evict j).pending id = r.pending id := by
  unfold pending evict
  dsimp only
  rw [Roster.get?_modify]
  split
  · cases r.clients.get? id <;> rfl
  · rfl

theorem refreshed_join {r : Registry} {j : ClientId} {c : Client} (hj : r.clients.get? j = some c) :
    Refreshed r (r.join j).1 := by
  unfold join
  rw [hj]
  dsimp only
  split
  · next d hoffer =>
      refine (refreshed_fanOut _).of_more ?_
      intro id
      unfold pending
      rw [Roster.get?_set]
      by_cases he : id = j
      · rw [if_pos he, he, hj, Client.offer_eq_ok hoffer]
        exact ⟨[[c.record]], rfl⟩
      · rw [if_neg he]
        exact ⟨[], (List.append_nil _).symm⟩
  · refine (refreshed_fanOut _).of_more ?_
    intro id
    rw [pending_evict]
    exact ⟨[], (List.append_nil _).symm⟩

/-- A request that changes the registry, or that is a broadcast, ends in a fan-out. -/
theorem refreshed_handle {r : Registry} (hrunning : r.running = true) (request : Request) :
    Refreshed r (r.handle request).registry ∨
      ((r.handle request).registry = r ∧ request ≠ .broadcast) := by
  unfold handle
  rw [if_neg (by simp [hrunning])]
  cases request with
  | join j =>
      cases hj : r.clients.get? j with
      | none => exact .inr ⟨by simp [join, hj], by simp⟩
      | some c => exact .inl (refreshed_join hj)
  | leave j => exact .inl ((refreshed_fanOut _).of_more fun id => ⟨[], (List.append_nil _).symm⟩)
  | broadcast => exact .inl (refreshed_fanOut r)
  | count => exact .inr ⟨rfl, by simp⟩
  | shutDown => exact .inl fun hne => absurd rfl hne

theorem position?_round (r : Registry) (id : ClientId) : r.round.position? id = r.position? id := by
  unfold position?
  rw [record?_round]
  split
  · cases r.record? id <;> rfl
  · rfl

theorem position?_fanOut (r : Registry) (id : ClientId) :
    r.fanOut.1.position? id = r.position? id := by
  induction r using fanOut_induction with
  | empty r hempty => rw [fanOut_of_empty hempty]
  | taken r hne hall =>
      rw [fanOut_of_taken hne hall]
      exact position?_round r id
  | refused r hsome ih =>
      rw [fanOut_of_refused hsome]
      exact ih.trans (position?_round r id)

theorem position?_join (r : Registry) (id j : ClientId) :
    (r.join j).1.position? id = r.position? id := by
  unfold join
  split
  · rfl
  · next c hj =>
      dsimp only
      split
      · next d hoffer =>
          rw [position?_fanOut]
          unfold position? record?
          rw [Roster.get?_set]
          split
          · next he =>
              rw [he, hj, Client.offer_eq_ok hoffer]
              rfl
          · rfl
      · rw [position?_fanOut]
        unfold position? record? evict
        dsimp only
        rw [Roster.get?_modify]
        split
        · cases r.clients.get? id <;> rfl
        · rfl

/-- Whatever the registry does, clients stay where they are. -/
theorem position?_handle (r : Registry) (request : Request) (id : ClientId) :
    (r.handle request).registry.position? id = r.position? id := by
  unfold handle
  split
  · rfl
  · cases request with
    | join j => exact position?_join r id j
    | leave j => exact position?_fanOut _ id
    | broadcast => exact position?_fanOut r id
    | count => rfl
    | shutDown =>
        unfold position? record? shutDown
        dsimp only
        rw [Roster.get?_map]
        cases r.clients.get? id with
        | none => rfl
        | some c =>
            by_cases hid : id ∈ r.members.ids
            · simp [hid]
              rfl
            · simp [hid]

end Registry
end PositionRelay
