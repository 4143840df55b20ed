import PositionRelay.Proofs.Registry.Cascade

/-!
# Requests that meet no full mailbox

What a request does depends on full mailboxes in two places. A newcomer may refuse its own record, and
members may refuse a round. If the newcomer has room for its record, then the members that the round
starts from are those that the request asks for, with one slot less for the newcomer
(`mem_enact_iff_keeps`, `free_enact`). If then all of them have room for one batch, there is one round,
which everyone takes (`fanOut_of_room`).
-/
namespace PositionRelay

/-- The request has the members sent a snapshot. -/
def Request.announces : Request → Bool
  | .join _ | .leave _ | .broadcast => true
  | .count | .shutDown => false

theorem Client.exists_offer_eq_ok {c : Client} (h : 0 < c.mailbox.free) (batch : Batch) :
    ∃ d, c.offer batch = .ok d := by
  have hr : c.mailbox.refusal? = none := (Mailbox.refusal?_eq_none_iff _).mpr h
  refine ⟨{ c with mailbox := { c.mailbox with pending := c.mailbox.pending ++ [batch] } }, ?_⟩
  simp only [offer, Mailbox.offer, hr]
  rfl

/-- A batch that is taken costs a slot. -/
theorem Client.free_of_offer {c d : Client} {batch : Batch} (h : c.offer batch = .ok d) :
    d.mailbox.free = c.mailbox.free - 1 := by
  rw [Client.offer_eq_ok h]
  unfold Mailbox.free
  dsimp only
  split
  · rfl
  · rw [List.length_append, List.length_singleton]
    omega

namespace Registry

section
variable {r : Registry} {request : Request}

/-- The newcomer of a request that has room for its own record is known and takes it. -/
theorem exists_offer_of_free {id : ClientId} (h : 0 < r.free id) :
    ∃ c d, r.clients.get? id = some c ∧ c.offer [c.record] = .ok d := by
  unfold free at h
  cases hc : r.clients.get? id with
  | none => simp [hc] at h
  | some c =>
      rw [hc] at h
      obtain ⟨d, hd⟩ := Client.exists_offer_eq_ok h [c.record]
      exact ⟨c, d, rfl, hd⟩

theorem enact_join_of_taken {id : ClientId} {c d : Client} (hrunning : r.running = true)
    (hc : r.clients.get? id = some c) (hd : c.offer [c.record] = .ok d) :
    r.enact (.join id) =
      ({ r with members := r.members.insert id, clients := r.clients.set id d }, true) := by
  simp [enact, hrunning, hc, hd]

variable (hrunning : r.running = true) (hon : request ≠ .shutDown)
  (hroom : ∀ id, request = .join id → 0 < r.free id)

include hrunning hon hroom

theorem enact_announces : (r.enact request).2 = request.announces := by
  cases request with
  | join j =>
      obtain ⟨c, d, hc, hd⟩ := exists_offer_of_free (hroom j rfl)
      rw [enact_join_of_taken hrunning hc hd]
      rfl
  | shutDown => exact absurd rfl hon
  | _ => simp [enact, hrunning, Request.announces]

theorem mem_enact_iff_keeps (id : ClientId) :
    id ∈ (r.enact request).1.members.ids ↔ request.keeps id (id ∈ r.members.ids) := by
  cases request with
  | join j =>
      obtain ⟨c, d, hc, hd⟩ := exists_offer_of_free (hroom j rfl)
      rw [enact_join_of_taken hrunning hc hd]
      exact mem_insert_iff ..
  | leave j =>
      simp only [enact, hrunning]
      exact mem_erase_iff ..
  | shutDown => exact absurd rfl hon
  | _ =>
      simp only [enact, hrunning]
      exact Iff.rfl

theorem free_enact (id : ClientId) :
    (r.enact request).1.free id = r.free id - if request = .join id then 1 else 0 := by
  cases request with
  | join j =>
      obtain ⟨c, d, hc, hd⟩ := exists_offer_of_free (hroom j rfl)
      rw [enact_join_of_taken hrunning hc hd]
      unfold free
      rw [Roster.get?_set]
      by_cases he : id = j
      · subst he
        simp [hc, Client.free_of_offer hd]
      · simp [he, Ne.symm he]
  | shutDown => exact absurd rfl hon
  | _ => simp [enact, hrunning, free]

end

section
variable {r : Registry} (hroom : ∀ id ∈ r.members.ids, 0 < r.free id)

include hroom

theorem fanOut_of_room :
    r.fanOut = if r.members.ids = [] then (r, []) else (r.round, [r.report]) := by
  by_cases hempty : r.members.ids = []
  · rw [if_pos hempty, fanOut_of_empty hempty]
  · rw [if_neg hempty, fanOut_of_taken hempty fun id hid => (r.takes_iff id).mpr (hroom id hid)]

theorem members_fanOut_of_room : r.fanOut.1.members.ids = r.members.ids := by
  rw [fanOut_of_room hroom]
  split
  · rfl
  · exact List.filter_eq_self.mpr fun id hid => (r.takes_iff id).mpr (hroom id hid)

theorem takenBy_fanOut_of_room (id : ClientId) :
    takenBy id r.fanOut.2 = if id ∈ r.members.ids then [r.snapshot] else [] := by
  rw [fanOut_of_room hroom]
  by_cases hid : id ∈ r.members.ids
  · have htaken : id ∈ r.report.takers := (r.mem_takers_report id).mpr ⟨hid, hroom id hid⟩
    rw [if_neg (List.ne_nil_of_mem hid), takenBy_cons, if_pos htaken, if_pos hid]
    rfl
  · have hnot : id ∉ r.report.takers := fun h => hid ((r.mem_takers_report id).mp h).1
    rw [if_neg hid]
    split
    · rfl
    · rw [takenBy_cons, if_neg hnot]
      rfl

theorem refusedIn_fanOut_of_room (id : ClientId) : refusedIn id r.fanOut.2 = false := by
  rw [fanOut_of_room hroom]
  split
  · rfl
  · rw [refusedIn_cons, Bool.or_eq_false_iff, Bool.eq_false_iff, ne_eq, mem_refusers_report]
    refine ⟨?_, rfl⟩
    rintro ⟨hid, ht⟩
    rw [(r.takes_iff id).mpr (hroom id hid)] at ht
    cases ht

theorem free_fanOut_of_room (id : ClientId) :
    r.fanOut.1.free id = r.free id - if id ∈ r.members.ids then 1 else 0 := by
  rw [fanOut_of_room hroom]
  by_cases hid : id ∈ r.members.ids
  · rw [if_neg (List.ne_nil_of_mem hid), if_pos hid]
    exact free_round hid
  · rw [if_neg hid]
    split
    · rfl
    · unfold free
      dsimp only
      rw [get?_round]
      cases r.clients.get? id <;> simp [hid]

end

end Registry
end PositionRelay
