import PositionRelay.Proofs.Network.Turn
import PositionRelay.Proofs.Registry.FanOut

/-!
# What a request does to one client

Whatever request the registry handles, one of two things happens to each client. Either its flags are
as before, and it is a member afterwards just as the request has it: a join makes one, a leave unmakes
one, and nothing else does. Or it would have been a member but is not, and all its flags are raised.
Nobody is dropped without being told, and nobody is told without being dropped (`fate_handle`). The
rounds of a request show who was told: those who refused a batch (`flags?_handle`).
-/
namespace PositionRelay

/-- Membership after a request under which nobody is evicted, from membership before. -/
def Request.keeps (id : ClientId) (member : Prop) : Request → Prop
  | .join j => member ∨ j = id
  | .leave j => member ∧ j ≠ id
  | _ => member

/-- Only its join has to do with a client that is no member. -/
theorem Request.eq_join_of_keeps {id : ClientId} {member : Prop} {request : Request}
    (hout : ¬ member) (h : request.keeps id member) : request = .join id := by
  cases request with
  | join j => rw [h.resolve_left hout]
  | leave j => exact absurd h.1 hout
  | _ => exact absurd h hout

namespace Registry

def flags? (r : Registry) (id : ClientId) : Option Flags := (r.clients.get? id).map Client.flags

/-- A client is kept as `stays` has it, or it is dropped and told so. -/
def Fate (id : ClientId) (r s : Registry) (stays : Prop) : Prop :=
  ((id ∈ s.members.ids ↔ stays) ∧ s.flags? id = r.flags? id) ∨
    (stays ∧ id ∉ s.members.ids ∧ s.flags? id = (r.flags? id).map fun _ => .raised)

theorem Fate.trans {id : ClientId} {r s t : Registry} {stays : Prop} (h : Fate id r s stays)
    (h' : Fate id s t (id ∈ s.members.ids)) : Fate id r t stays := by
  rcases h with ⟨hs, hf⟩ | ⟨hs, hm, hf⟩
  · rcases h' with ⟨ht, hg⟩ | ⟨hm, ht, hg⟩
    · exact .inl ⟨ht.trans hs, hg.trans hf⟩
    · exact .inr ⟨hs.mp hm, ht, by rw [hg, hf]⟩
  · rcases h' with ⟨ht, hg⟩ | ⟨hm', -, -⟩
    · exact .inr ⟨hs, fun hi => hm (ht.mp hi), hg.trans hf⟩
    · exact absurd hm' hm

theorem flags?_round (r : Registry) (id : ClientId) :
    r.round.flags? id =
      if id ∈ r.members.ids ∧ r.takes id = false then (r.flags? id).map fun _ => .raised
      else r.flags? id := by
  unfold flags?
  rw [get?_round]
  cases hc : r.clients.get? id with
  | none => simp
  | some c =>
      by_cases hid : id ∈ r.members.ids
      · by_cases hfree : 0 < c.mailbox.free
        · have ht : r.takes id = true := (r.takes_iff id).mpr (by simpa [free, hc] using hfree)
          simp [hid, ht, Client.visit_of_free hfree, Client.flags, Client.settle]
        · have hz : c.mailbox.free = 0 := by omega
          have ht : r.takes id = false := by
            rw [Bool.eq_false_iff]
            intro ht
            have := (r.takes_iff id).mp ht
            simp [free, hc, hz] at this
          simp [hid, ht, Client.visit_of_full hz]
      · simp [hid]

theorem fate_round (r : Registry) (id : ClientId) : Fate id r r.round (id ∈ r.members.ids) := by
  have hm : id ∈ r.round.members.ids ↔ id ∈ r.members.ids ∧ r.takes id = true := List.mem_filter
  unfold Fate
  rw [flags?_round, hm]
  by_cases hid : id ∈ r.members.ids
  · cases ht : r.takes id <;> simp [hid]
  · simp [hid]

theorem fate_fanOut (r : Registry) (id : ClientId) :
    Fate id r r.fanOut.1 (id ∈ r.members.ids) := by
  induction r using fanOut_induction with
  | empty r hempty =>
      rw [fanOut_of_empty hempty]
      exact .inl ⟨Iff.rfl, rfl⟩
  | taken r hne hall =>
      rw [fanOut_of_taken hne hall]
      exact fate_round r id
  | refused r hsome ih =>
      rw [fanOut_of_refused hsome]
      exact (fate_round r id).trans ih

theorem mem_insert_iff (m : Members) (j id : ClientId) :
    id ∈ (m.insert j).ids ↔ id ∈ m.ids ∨ j = id := by
  rw [Members.insert, mem_insertAscending, or_comm, eq_comm]

theorem mem_erase_iff (m : Members) (j id : ClientId) :
    id ∈ (m.erase j).ids ↔ id ∈ m.ids ∧ j ≠ id := by
  simp [Members.erase, Members.filter, ne_comm]

theorem fate_join {r : Registry} {id j : ClientId} (hid : j = id → (r.clients.get? id).isSome) :
    Fate id r (r.join j).1 (id ∈ r.members.ids ∨ j = id) := by
  unfold join
  split
  · next hj =>
      have hne : j ≠ id := by
        rintro rfl
        simpa [hj] using hid rfl
      exact .inl ⟨by simp [hne], rfl⟩
  · next c hj =>
      dsimp only
      split
      · next d hoffer =>
          refine Fate.trans (.inl ⟨mem_insert_iff .., ?_⟩) (fate_fanOut _ id)
          -- The offer changes the mailbox only.
          have hd : d.flags = c.flags := by
            rw [Client.offer_eq_ok hoffer]
            rfl
          unfold flags?
          rw [Roster.get?_set]
          split
          · next he => rw [he, hj]; simp [hd]
          · rfl
      · refine Fate.trans ?_ (fate_fanOut _ id)
        unfold Fate flags? evict
        dsimp only
        rw [mem_erase_iff, mem_insert_iff, Roster.get?_modify]
        by_cases he : j = id
        · subst he
          refine .inr ⟨.inr rfl, by simp, ?_⟩
          simp [Function.comp_def]
        · have he' : id ≠ j := fun h => he h.symm
          exact .inl ⟨by simp [he], by simp [he']⟩

theorem fate_leave (r : Registry) (id j : ClientId) :
    Fate id r (r.leave j).1 (id ∈ r.members.ids ∧ j ≠ id) := by
  have herased : Fate id r { r with members := r.members.erase j }
      (id ∈ r.members.ids ∧ j ≠ id) := .inl ⟨mem_erase_iff .., rfl⟩
  exact herased.trans (fate_fanOut _ id)

theorem fate_shutDown (r : Registry) (id : ClientId) :
    Fate id r r.shutDown (id ∈ r.members.ids) := by
  unfold Fate flags? shutDown
  dsimp only
  rw [Roster.get?_map]
  by_cases hid : id ∈ r.members.ids
  · refine .inr ⟨hid, by simp, ?_⟩
    simp [hid, Function.comp_def]
  · refine .inl ⟨by simp [hid], ?_⟩
    simp [hid]

theorem fate_handle {r : Registry} {id : ClientId} (hrunning : r.running = true)
    {request : Request} (hid : request = .join id → (r.clients.get? id).isSome) :
    Fate id r (r.handle request).registry (request.keeps id (id ∈ r.members.ids)) := by
  unfold handle
  rw [if_neg (by simp [hrunning])]
  cases request with
  | join j => exact fate_join fun hj => hid (hj ▸ rfl)
  | leave j => exact fate_leave r id j
  | broadcast => exact fate_fanOut r id
  | count => exact .inl ⟨Iff.rfl, rfl⟩
  | shutDown => exact fate_shutDown r id

theorem Fate.isSome_flags? {id : ClientId} {r s : Registry} {stays : Prop}
    (h : Fate id r s stays) : (s.flags? id).isSome = (r.flags? id).isSome := by
  rcases h with ⟨-, hf⟩ | ⟨-, -, hf⟩
  · rw [hf]
  · rw [hf, Option.isSome_map]

/-- The client is still there, with its flags as they were or all of them raised. -/
theorem Fate.client {id : ClientId} {r s : Registry} {stays : Prop} (h : Fate id r s stays)
    {c : Client} (hc : r.clients.get? id = some c) :
    ∃ d, s.clients.get? id = some d ∧ (d.flags = c.flags ∨ d.flags = .raised) := by
  have hr : r.flags? id = some c.flags := by
    rw [flags?, hc]
    rfl
  rcases h with ⟨-, hf⟩ | ⟨-, -, hf⟩
  · rw [hr] at hf
    obtain ⟨d, hd, hflags⟩ := Option.map_eq_some_iff.mp hf
    exact ⟨d, hd, .inl hflags⟩
  · rw [hr] at hf
    obtain ⟨d, hd, hflags⟩ := Option.map_eq_some_iff.mp hf
    exact ⟨d, hd, .inr hflags⟩

theorem Fate.stays_of_mem {id : ClientId} {r s : Registry} {stays : Prop} (h : Fate id r s stays)
    (hm : id ∈ s.members.ids) : stays := by
  rcases h with ⟨hs, -⟩ | ⟨hs, -, -⟩
  · exact hs.mp hm
  · exact hs

theorem running_fanOut (r : Registry) : r.fanOut.1.running = r.running := by
  induction r using fanOut_induction with
  | empty r hempty => rw [fanOut_of_empty hempty]
  | taken r hne hall =>
      rw [fanOut_of_taken hne hall]
      rfl
  | refused r hsome ih =>
      rw [fanOut_of_refused hsome]
      exact ih

/-- Only a shutdown ends the handling of requests. -/
theorem running_handle {r : Registry} (hrunning : r.running = true) (request : Request) :
    (r.handle request).registry.running = true ↔ request ≠ .shutDown := by
  unfold handle
  rw [if_neg (by simp [hrunning])]
  cases request with
  | join j =>
      have hjoin : (r.join j).1.running = r.running := by
        unfold join
        split
        · rfl
        · dsimp only
          split <;> exact running_fanOut _
      simp [hjoin, hrunning]
  | leave j =>
      have hleave : (r.leave j).1.running = r.running := running_fanOut _
      simp [hleave, hrunning]
  | broadcast => simp [running_fanOut, hrunning]
  | count => simp [hrunning]
  | shutDown => simp [shutDown]

end Registry

/-- The client refused a batch of one of the rounds. -/
def refusedIn (id : ClientId) (rounds : List Round) : Bool :=
  rounds.any fun round => round.refusers.contains id

theorem refusedIn_cons (id : ClientId) (round : Round) (rounds : List Round) :
    refusedIn id (round :: rounds) = (round.refusers.contains id || refusedIn id rounds) :=
  List.any_cons

namespace Registry

theorem mem_refusers_report (r : Registry) (id : ClientId) :
    r.report.refusers.contains id = true ↔ id ∈ r.members.ids ∧ r.takes id = false := by
  rw [List.contains_iff_mem]
  simp [report]

/-- A fan-out tells those to stop who refused a batch, and nobody else. -/
theorem flags?_fanOut (r : Registry) (id : ClientId) :
    r.fanOut.1.flags? id =
      if refusedIn id r.fanOut.2 then (r.flags? id).map fun _ => .raised else r.flags? id := by
  induction r using fanOut_induction with
  | empty r hempty =>
      rw [fanOut_of_empty hempty]
      rfl
  | taken r hne hall =>
      have hnone : ¬ (id ∈ r.members.ids ∧ r.takes id = false) := by
        rintro ⟨hid, ht⟩
        simp [hall id hid] at ht
      have hreport : r.report.refusers.contains id = false :=
        Bool.eq_false_iff.mpr fun h => hnone ((mem_refusers_report r id).mp h)
      rw [fanOut_of_taken hne hall, flags?_round, if_neg hnone, refusedIn_cons, hreport]
      rfl
  | refused r hsome ih =>
      rw [fanOut_of_refused hsome, refusedIn_cons]
      dsimp only
      rw [ih, flags?_round]
      by_cases hid : id ∈ r.members.ids ∧ r.takes id = false
      · -- Who refused this round is told, whether or not it is told again.
        rw [if_pos hid, (mem_refusers_report r id).mpr hid]
        simp [Function.comp_def]
      · have hreport : r.report.refusers.contains id = false :=
          Bool.eq_false_iff.mpr fun h => hid ((mem_refusers_report r id).mp h)
        rw [if_neg hid, hreport, Bool.false_or]

theorem flags?_join (r : Registry) (id j : ClientId) :
    (r.join j).1.flags? id =
      if refusedIn id (r.join j).2 then (r.flags? id).map fun _ => .raised else r.flags? id := by
  cases hj : r.clients.get? j with
  | none =>
      rw [join_of_unknown hj]
      rfl
  | some c =>
      cases hoffer : c.offer [c.record] with
      | ok d =>
          have hd : d.flags = c.flags := by
            rw [Client.offer_eq_ok hoffer]
            rfl
          have hsame : ({ r with members := r.members.insert j, clients := r.clients.set j d } :
              Registry).flags? id = r.flags? id := by
            unfold flags?
            rw [Roster.get?_set]
            split
            · next he => rw [he, hj, Option.map_some, Option.map_some, hd]
            · rfl
          rw [join_of_taken hj hoffer]
          dsimp only
          rw [refusedIn_cons, flags?_fanOut, hsame]
          rfl
      | error why =>
          have hevicted : (({ r with members := r.members.insert j } : Registry).evict j).flags? id =
              if id = j then (r.flags? id).map fun _ => .raised else r.flags? id := by
            unfold flags? evict
            dsimp only
            rw [Roster.get?_modify]
            split
            · simp [Function.comp_def]
            · rfl
          rw [join_of_refused hj hoffer]
          dsimp only
          rw [refusedIn_cons, flags?_fanOut, hevicted]
          by_cases he : id = j
          · simp [he, Function.comp_def]
          · simp [he]

theorem flags?_shutDown (r : Registry) (id : ClientId) :
    r.shutDown.flags? id =
      if id ∈ r.members.ids then (r.flags? id).map fun _ => .raised else r.flags? id := by
  unfold flags? shutDown
  dsimp only
  rw [Roster.get?_map]
  by_cases hid : id ∈ r.members.ids
  · simp [hid, Function.comp_def]
  · simp [hid]

/-- A request other than a shutdown tells those to stop who refused a batch, and nobody else. -/
theorem flags?_handle (r : Registry) {request : Request} (h : request ≠ .shutDown)
    (id : ClientId) :
    (r.handle request).registry.flags? id =
      if refusedIn id (r.handle request).rounds then (r.flags? id).map fun _ => .raised
      else r.flags? id := by
  unfold handle
  split
  · rfl
  · cases request with
    | join j => exact flags?_join r id j
    | leave j => exact flags?_fanOut _ id
    | broadcast => exact flags?_fanOut r id
    | count => rfl
    | shutDown => exact absurd rfl h

theorem mem_round_iff_refusers (r : Registry) (id : ClientId) :
    id ∈ r.round.members.ids ↔
      id ∈ r.members.ids ∧ r.report.refusers.contains id = false := by
  rw [mem_round_iff, ← takes_iff, Bool.eq_false_iff, ne_eq, mem_refusers_report]
  cases r.takes id <;> simp

/-- A fan-out leaves those members that refused nothing. -/
theorem mem_fanOut_iff_refusedIn (r : Registry) (id : ClientId) :
    id ∈ r.fanOut.1.members.ids ↔ id ∈ r.members.ids ∧ refusedIn id r.fanOut.2 = false := by
  induction r using fanOut_induction with
  | empty r hempty =>
      rw [fanOut_of_empty hempty]
      simp [refusedIn]
  | taken r hne hall =>
      rw [fanOut_of_taken hne hall, mem_round_iff_refusers, refusedIn_cons]
      simp [refusedIn]
  | refused r hsome ih =>
      rw [fanOut_of_refused hsome, refusedIn_cons, Bool.or_eq_false_iff]
      dsimp only
      rw [ih, mem_round_iff_refusers, and_assoc]

theorem mem_join_iff_refusedIn {r : Registry} {id j : ClientId}
    (hid : j = id → (r.clients.get? id).isSome) :
    id ∈ (r.join j).1.members.ids ↔
      (id ∈ r.members.ids ∨ j = id) ∧ refusedIn id (r.join j).2 = false := by
  cases hj : r.clients.get? j with
  | none =>
      have hne : j ≠ id := by
        rintro rfl
        simp [hj] at hid
      rw [join_of_unknown hj]
      simp [hne, refusedIn]
  | some c =>
      cases hoffer : c.offer [c.record] with
      | ok d =>
          rw [join_of_taken hj hoffer]
          dsimp only
          rw [refusedIn_cons, mem_fanOut_iff_refusedIn, mem_insert_iff]
          rfl
      | error why =>
          rw [join_of_refused hj hoffer]
          dsimp only
          rw [refusedIn_cons, mem_fanOut_iff_refusedIn, Bool.or_eq_false_iff, ← and_assoc]
          refine and_congr_left fun _ => ?_
          unfold evict
          dsimp only
          rw [mem_erase_iff, mem_insert_iff, List.contains_eq_mem, decide_eq_false_iff_not,
            List.mem_singleton, eq_comm (a := id)]

/-- Whoever refuses nothing is a member just as the request has it, and whoever refuses is none. -/
theorem mem_handle_iff {r : Registry} {id : ClientId} (hrunning : r.running = true)
    {request : Request} (hrequest : request ≠ .shutDown)
    (hid : request = .join id → (r.clients.get? id).isSome) :
    id ∈ (r.handle request).registry.members.ids ↔
      request.keeps id (id ∈ r.members.ids) ∧
        refusedIn id (r.handle request).rounds = false := by
  unfold handle
  rw [if_neg (by simp [hrunning])]
  cases request with
  | join j => exact mem_join_iff_refusedIn fun hj => hid (hj ▸ rfl)
  | leave j =>
      have herased := mem_erase_iff r.members j id
      exact (mem_fanOut_iff_refusedIn _ id).trans (and_congr_left fun _ => herased)
  | broadcast => exact mem_fanOut_iff_refusedIn r id
  | count => exact (and_iff_left rfl).symm
  | shutDown => exact absurd rfl hrequest

end Registry
end PositionRelay
