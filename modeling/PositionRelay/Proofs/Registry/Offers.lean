import PositionRelay.Proofs.Registry.Refresh

/-!
# Where the batches of a round go

The registry returns the rounds in which it handled a request, each with its batch and with those who
took it. The mailbox of a client has grown by the batches of the rounds that it took, in the order of
the rounds, and has lost nothing: `pending_handle`.
-/
namespace PositionRelay

/-- The batches that a client took in a number of rounds. -/
def takenBy (id : ClientId) (rounds : List Round) : List Batch :=
  (rounds.filter fun round => id ∈ round.takers).map Round.batch

theorem takenBy_cons (id : ClientId) (round : Round) (rounds : List Round) :
    takenBy id (round :: rounds) =
      (if id ∈ round.takers then [round.batch] else []) ++ takenBy id rounds := by
  by_cases h : id ∈ round.takers <;> simp [takenBy, h]

namespace Registry

theorem mem_takers_report (r : Registry) (id : ClientId) :
    id ∈ r.report.takers ↔ id ∈ r.members.ids ∧ 0 < r.free id := by
  rw [← takes_iff]
  exact List.mem_filter

theorem pending_round_of_spared {r : Registry} {id : ClientId}
    (h : ¬ (id ∈ r.members.ids ∧ 0 < r.free id)) : r.round.pending id = r.pending id := by
  unfold pending
  rw [get?_round]
  cases hc : r.clients.get? id with
  | none => rfl
  | some c =>
      by_cases hid : id ∈ r.members.ids
      · have hfull : c.mailbox.free = 0 := by
          have : ¬ 0 < c.mailbox.free := fun hpos => h ⟨hid, by simpa [free, hc] using hpos⟩
          omega
        simp only [Option.map_some, if_pos hid, Client.visit_of_full hfull]
        rfl
      · simp [hid]

theorem pending_round_eq (r : Registry) (id : ClientId) :
    r.round.pending id =
      r.pending id ++ if id ∈ r.report.takers then [r.report.batch] else [] := by
  by_cases h : id ∈ r.members.ids ∧ 0 < r.free id
  · rw [pending_round h.1 h.2, if_pos ((r.mem_takers_report id).mpr h)]
    rfl
  · rw [pending_round_of_spared h, if_neg (mt (r.mem_takers_report id).mp h), List.append_nil]

theorem pending_fanOut (r : Registry) (id : ClientId) :
    r.fanOut.1.pending id = r.pending id ++ takenBy id r.fanOut.2 := by
  induction r using fanOut_induction with
  | empty r hempty =>
      rw [fanOut_of_empty hempty]
      exact (List.append_nil _).symm
  | taken r hne hall =>
      rw [fanOut_of_taken hne hall, takenBy_cons]
      exact (pending_round_eq r id).trans (congrArg _ (List.append_nil _).symm)
  | refused r hsome ih =>
      rw [fanOut_of_refused hsome]
      dsimp only
      rw [ih, pending_round_eq, takenBy_cons, List.append_assoc]

/-- A join offers the newcomer its own record before it broadcasts. -/
theorem pending_join (r : Registry) (id j : ClientId) :
    (r.join j).1.pending id = r.pending id ++ takenBy id (r.join j).2 := by
  unfold join
  split
  · exact (List.append_nil _).symm
  · next c hj =>
      dsimp only
      split
      · next d hoffer =>
          dsimp only
          rw [pending_fanOut, takenBy_cons, ← List.append_assoc]
          congr 1
          unfold pending
          rw [Roster.get?_set]
          by_cases he : id = j
          · rw [if_pos he, he, hj, Client.offer_eq_ok hoffer, if_pos (List.mem_singleton_self j)]
            rfl
          · rw [if_neg he, if_neg (mt List.mem_singleton.mp he), List.append_nil]
      · dsimp only
        rw [pending_fanOut, takenBy_cons, pending_evict]
        rfl

theorem pending_shutDown (r : Registry) (id : ClientId) : r.shutDown.pending id = r.pending id := by
  unfold pending shutDown
  dsimp only
  rw [Roster.get?_map]
  cases r.clients.get? id with
  | none => rfl
  | some c => by_cases hid : id ∈ r.members.ids <;> simp [hid, Client.disconnect]

/-- Whatever the registry handles, a mailbox gets the batches that its client took and keeps those
that it had. -/
theorem pending_handle (r : Registry) (request : Request) (id : ClientId) :
    (r.handle request).registry.pending id =
      r.pending id ++ takenBy id (r.handle request).rounds := by
  unfold handle
  split
  · exact (List.append_nil _).symm
  · cases request with
    | join j => exact pending_join r id j
    | leave j => exact pending_fanOut _ id
    | broadcast => exact pending_fanOut r id
    | count => exact (List.append_nil _).symm
    | shutDown => exact (pending_shutDown r id).trans (List.append_nil _).symm

end Registry
end PositionRelay
