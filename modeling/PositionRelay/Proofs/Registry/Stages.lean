import PositionRelay.Proofs.Registry.Fate
import PositionRelay.Proofs.Registry.Offers
import PositionRelay.Proofs.Registry.Service

/-!
# What a client is offered

A fan-out goes through a number of registries, one for each of its rounds, and in each of them the
batch is the snapshot of that registry (`fanOut_rounds`). So what a request offers to one client is the
record of its own if the request is its join, and then the snapshots of those registries of which it is
a member (`offersTo_handle`). It takes all of these, or those before the one that it refuses
(`takenBy_prefix_offersTo`).
-/
namespace PositionRelay

/-- The batches that a client was offered in a number of rounds, whether or not it took them. -/
def offersTo (id : ClientId) (rounds : List Round) : List Batch :=
  (rounds.filter fun round => decide (id ∈ round.takers) || round.refusers.contains id).map
    Round.batch

theorem offersTo_cons (id : ClientId) (round : Round) (rounds : List Round) :
    offersTo id (round :: rounds) =
      (if decide (id ∈ round.takers) || round.refusers.contains id then [round.batch] else []) ++
        offersTo id rounds := by
  unfold offersTo
  rw [List.filter_cons]
  split <;> rfl

/-- Whoever refuses nothing takes what it is offered. -/
theorem takenBy_eq_offersTo {id : ClientId} {rounds : List Round}
    (h : refusedIn id rounds = false) : takenBy id rounds = offersTo id rounds := by
  unfold takenBy offersTo
  congr 1
  refine List.filter_congr fun round hround => ?_
  have hkept : round.refusers.contains id = false := by
    simpa using List.any_eq_false.mp h round hround
  rw [hkept, Bool.or_false]

/-- A client refuses only what it is offered. -/
theorem refusedIn_eq_false {id : ClientId} {rounds : List Round} (h : offersTo id rounds = []) :
    refusedIn id rounds = false := by
  rw [offersTo, List.map_eq_nil_iff, List.filter_eq_nil_iff] at h
  refine List.any_eq_false.mpr fun round hround hrefused => h round hround ?_
  rw [hrefused, Bool.or_true]

namespace Registry

/-- The registries at which the rounds of a fan-out offer their snapshots. -/
def stages (r : Registry) : List Registry :=
  if r.members.ids.isEmpty then []
  else if h : r.members.ids.all r.takes then [r]
  else
    have := round_size_lt h
    r :: r.round.stages
termination_by r.members.size

section
variable {r s : Registry} {id : ClientId} {request : Request}

theorem stages_of_empty (h : r.members.ids = []) : r.stages = [] := by
  rw [stages, if_pos (List.isEmpty_iff.mpr h)]

theorem stages_of_taken (hne : r.members.ids ≠ []) (h : ∀ id ∈ r.members.ids, r.takes id = true) :
    r.stages = [r] := by
  rw [stages, if_neg (by simpa using hne), dif_pos (List.all_eq_true.mpr h)]

theorem stages_of_refused (h : ∃ id ∈ r.members.ids, r.takes id = false) :
    r.stages = r :: r.round.stages := by
  obtain ⟨id, hid, ht⟩ := h
  have hall : ¬ r.members.ids.all r.takes = true := by
    intro hall
    rw [List.all_eq_true.mp hall id hid] at ht
    cases ht
  rw [stages, if_neg (by simpa using List.ne_nil_of_mem hid), dif_neg hall]

/-- Each round offers the snapshot of its registry. -/
theorem fanOut_rounds (r : Registry) : r.fanOut.2 = r.stages.map report := by
  induction r using fanOut_induction with
  | empty r hempty =>
      rw [fanOut_of_empty hempty, stages_of_empty hempty]
      rfl
  | taken r hne hall =>
      rw [fanOut_of_taken hne hall, stages_of_taken hne hall]
      rfl
  | refused r hsome ih =>
      rw [fanOut_of_refused hsome, stages_of_refused hsome, List.map_cons, ← ih]

/-- From stage to stage there are fewer members, and the records stay sound. -/
theorem Sound.stages (h : r.Sound) (hs : s ∈ r.stages) :
    s.Sound ∧ ∀ id ∈ s.members.ids, id ∈ r.members.ids := by
  induction r using fanOut_induction with
  | empty r hempty =>
      rw [stages_of_empty hempty] at hs
      cases hs
  | taken r hne hall =>
      rw [stages_of_taken hne hall, List.mem_singleton] at hs
      subst hs
      exact ⟨h, fun _ hid => hid⟩
  | refused r hsome ih =>
      rw [stages_of_refused hsome] at hs
      rcases List.mem_cons.mp hs with rfl | hs
      · exact ⟨h, fun _ hid => hid⟩
      · obtain ⟨hsound, hmembers⟩ := ih h.round hs
        exact ⟨hsound, fun id hid => (List.mem_filter.mp (hmembers id hid)).1⟩

/-- A round is offered to all members. -/
theorem offered_report (r : Registry) (id : ClientId) :
    (decide (id ∈ r.report.takers) || r.report.refusers.contains id) =
      decide (id ∈ r.members.ids) := by
  rw [Bool.eq_iff_iff, Bool.or_eq_true, decide_eq_true_iff, decide_eq_true_iff,
    mem_refusers_report, mem_takers_report, ← takes_iff]
  cases r.takes id <;> simp

theorem offersTo_fanOut (r : Registry) (id : ClientId) :
    offersTo id r.fanOut.2 = (r.stages.filter fun s => id ∈ s.members.ids).map snapshot := by
  rw [fanOut_rounds, offersTo, List.filter_map, List.map_map]
  congr 1
  exact List.filter_congr fun s _ => offered_report s id

theorem notMem_stages (h : id ∉ r.members.ids) (hs : s ∈ r.stages) : id ∉ s.members.ids := by
  induction r using fanOut_induction with
  | empty r hempty =>
      rw [stages_of_empty hempty] at hs
      cases hs
  | taken r hne hall =>
      rw [stages_of_taken hne hall, List.mem_singleton] at hs
      rw [hs]
      exact h
  | refused r hsome ih =>
      rw [stages_of_refused hsome] at hs
      rcases List.mem_cons.mp hs with rfl | hs
      · exact h
      · exact ih (fun hid => h (List.mem_filter.mp hid).1) hs

/-- Nothing is offered to someone who is no member. -/
theorem offersTo_fanOut_of_notMem (h : id ∉ r.members.ids) : offersTo id r.fanOut.2 = [] := by
  rw [offersTo_fanOut, List.map_eq_nil_iff, List.filter_eq_nil_iff]
  intro s hs
  simpa using notMem_stages h hs

/-- What is taken is also offered. -/
theorem takenBy_eq_nil {rounds : List Round} (h : offersTo id rounds = []) :
    takenBy id rounds = [] := by
  rw [offersTo, List.map_eq_nil_iff, List.filter_eq_nil_iff] at h
  rw [takenBy, List.map_eq_nil_iff, List.filter_eq_nil_iff]
  intro round hround htaken
  exact h round hround (by rw [htaken]; rfl)

/-- Who refuses a batch of a fan-out gets no more of it. -/
theorem takenBy_prefix_offersTo_fanOut (r : Registry) (id : ClientId) :
    takenBy id r.fanOut.2 <+: offersTo id r.fanOut.2 := by
  induction r using fanOut_induction with
  | empty r hempty =>
      rw [fanOut_of_empty hempty]
      exact List.prefix_rfl
  | taken r hne hall =>
      have hnone : refusedIn id [r.report] = false := by
        rw [refusedIn_cons, Bool.or_eq_false_iff]
        refine ⟨?_, rfl⟩
        rw [Bool.eq_false_iff]
        intro hrefused
        obtain ⟨hid, ht⟩ := (mem_refusers_report r id).mp hrefused
        rw [hall id hid] at ht
        cases ht
      rw [fanOut_of_taken hne hall]
      exact ⟨[], by rw [takenBy_eq_offersTo hnone, List.append_nil]⟩
  | refused r hsome ih =>
      rw [fanOut_of_refused hsome, takenBy_cons, offersTo_cons]
      by_cases hrefused : r.report.refusers.contains id = true
      · have hgone : id ∉ r.round.members.ids := by
          intro hid
          rw [((mem_round_iff_refusers r id).mp hid).2] at hrefused
          cases hrefused
        have htaken : id ∉ r.report.takers := by
          intro hin
          have ht := (mem_refusers_report r id).mp hrefused
          rw [(r.takes_iff id).mpr ((r.mem_takers_report id).mp hin).2] at ht
          cases ht.2
        rw [if_neg htaken, takenBy_eq_nil (offersTo_fanOut_of_notMem hgone)]
        exact List.nil_prefix
      · rw [Bool.eq_false_iff.mpr hrefused, Bool.or_false]
        simp only [decide_eq_true_iff]
        exact (List.prefix_append_right_inj _).mpr ih

/-- The registries at which the rounds of a request offer their snapshots. -/
def stagesFor (r : Registry) (request : Request) : List Registry :=
  if (r.enact request).2 then (r.enact request).1.stages else []

theorem offersTo_handle (r : Registry) (request : Request) (id : ClientId) :
    offersTo id (r.handle request).rounds =
      (if request = .join id then r.greeting request else []) ++
        ((r.stagesFor request).filter fun s => id ∈ s.members.ids).map snapshot := by
  have hnone : offersTo id [] = [] := rfl
  by_cases hrunning : r.running = true
  · cases request with
    | join j =>
        cases hc : r.clients.get? j with
        | none =>
            simp [handle, stagesFor, enact, greeting, record?, hrunning, hc, join_of_unknown hc, hnone]
        | some c =>
            cases ho : c.offer [c.record] with
            | ok d =>
                simp [handle, stagesFor, enact, greeting, record?, hrunning, hc, ho,
                  join_of_taken hc ho, offersTo_cons, offersTo_fanOut, eq_comm (a := id)]
            | error why =>
                simp [handle, stagesFor, enact, greeting, record?, hrunning, hc, ho,
                  join_of_refused hc ho, offersTo_cons, offersTo_fanOut, eq_comm (a := id)]
    | leave j => simp [handle, stagesFor, enact, hrunning, leave, offersTo_fanOut]
    | broadcast => simp [handle, stagesFor, enact, hrunning, offersTo_fanOut]
    | count => simp [handle, stagesFor, enact, hrunning, hnone]
    | shutDown => simp [handle, stagesFor, enact, hrunning, hnone]
  · cases request <;> simp [handle, stagesFor, enact, greeting, hrunning, hnone]

/-- Batches go out to those who were members, the newcomer and the departed aside. -/
theorem keeps_of_mem_enact (h : id ∈ (r.enact request).1.members.ids)
    (hdue : (r.enact request).2 = true) : request.keeps id (id ∈ r.members.ids) := by
  by_cases hrunning : r.running = true
  · cases request with
    | join j =>
        cases hc : r.clients.get? j with
        | none => simp [enact, hrunning, hc] at hdue
        | some c =>
            cases ho : c.offer [c.record] with
            | ok d =>
                simp only [enact, hrunning, hc, ho] at h
                exact (mem_insert_iff ..).mp h
            | error why =>
                simp only [enact, hrunning, hc, ho] at h
                exact (mem_insert_iff ..).mp ((mem_erase_iff ..).mp h).1
    | leave j =>
        simp only [enact, hrunning] at h
        exact (mem_erase_iff ..).mp h
    | broadcast =>
        simp only [enact, hrunning] at h
        exact h
    | count => simp [enact, hrunning] at hdue
    | shutDown => simp [enact, hrunning] at hdue
  · simp [enact, hrunning] at hdue

theorem Sound.stagesFor (h : r.Sound) (hs : s ∈ r.stagesFor request) :
    s.Sound ∧ ∀ id ∈ s.members.ids, request.keeps id (id ∈ r.members.ids) ∧
      (r.record? id).isSome := by
  unfold Registry.stagesFor at hs
  split at hs
  · next hdue =>
      obtain ⟨hsound, hmembers⟩ := (h.enact request).stages hs
      refine ⟨hsound, fun id hid => ⟨keeps_of_mem_enact (hmembers id hid) hdue, ?_⟩⟩
      rw [← record?_enact r id request]
      exact (h.enact request).known id (hmembers id hid)
  · cases hs

/-- A request that does not keep a client as a member offers it nothing. -/
theorem offersTo_handle_of_not_keeps (hsound : r.Sound)
    (h : ¬ request.keeps id (id ∈ r.members.ids)) :
    offersTo id (r.handle request).rounds = [] := by
  have hne : request ≠ .join id := by
    rintro rfl
    exact h (.inr rfl)
  rw [offersTo_handle, if_neg hne, List.nil_append, List.map_eq_nil_iff, List.filter_eq_nil_iff]
  intro s hs hid
  exact h ((hsound.stagesFor hs).2 id (of_decide_eq_true hid)).1

/-- What a client takes of a request is the beginning of what it is offered. -/
theorem takenBy_prefix_offersTo (r : Registry) (request : Request) (id : ClientId) :
    takenBy id (r.handle request).rounds <+: offersTo id (r.handle request).rounds := by
  unfold handle
  split
  · exact List.prefix_rfl
  · cases request with
    | join j =>
        dsimp only
        cases hc : r.clients.get? j with
        | none =>
            rw [join_of_unknown hc]
            exact List.prefix_rfl
        | some c =>
            cases ho : c.offer [c.record] with
            | ok d =>
                rw [join_of_taken hc ho]
                dsimp only
                rw [takenBy_cons, offersTo_cons]
                have hsame : (decide (id ∈ [j]) || ([] : List ClientId).contains id) =
                    decide (id ∈ [j]) := Bool.or_false _
                rw [hsame]
                simp only [decide_eq_true_iff]
                exact (List.prefix_append_right_inj _).mpr (takenBy_prefix_offersTo_fanOut _ id)
            | error why =>
                rw [join_of_refused hc ho]
                dsimp only
                rw [takenBy_cons, offersTo_cons, if_neg (by simp), List.nil_append]
                by_cases hj : id = j
                · -- It was evicted before the fan-out, so nothing of that is for it.
                  have hgone : id ∉ (({ r with members := r.members.insert j } : Registry).evict
                      j).members.ids := fun hid => ((mem_erase_iff ..).mp hid).2 hj.symm
                  rw [takenBy_eq_nil (offersTo_fanOut_of_notMem hgone)]
                  exact List.nil_prefix
                · rw [if_neg (by simp [hj]), List.nil_append]
                  exact takenBy_prefix_offersTo_fanOut _ id
    | leave j => exact takenBy_prefix_offersTo_fanOut _ id
    | broadcast => exact takenBy_prefix_offersTo_fanOut r id
    | count => exact List.prefix_rfl
    | shutDown => exact List.prefix_rfl

/-- Whoever refuses a batch of a request is out afterwards. -/
theorem notMem_of_refusedIn (hrunning : r.running = true)
    (h : refusedIn id (r.handle request).rounds = true) :
    id ∉ (r.handle request).registry.members.ids := by
  have hrequest : request ≠ .shutDown := by
    rintro rfl
    rw [handle, if_neg (by simp [hrunning])] at h
    cases h
  have hknown : request = .join id → (r.clients.get? id).isSome := by
    rintro rfl
    cases hc : r.clients.get? id with
    | some c => rfl
    | none =>
        rw [handle, if_neg (by simp [hrunning])] at h
        dsimp only at h
        rw [join_of_unknown hc] at h
        cases h
  rw [mem_handle_iff hrunning hrequest hknown, h]
  simp

/-- A join of a client that is no member greets it with its own record, or leaves it outside. -/
theorem takenBy_join (hrunning : r.running = true) (hout : id ∉ r.members.ids) :
    (takenBy id (r.handle (.join id)).rounds = [] ∧
        id ∉ (r.handle (.join id)).registry.members.ids) ∨
      ∃ own later, takenBy id (r.handle (.join id)).rounds = [own] :: later ∧
        r.record? id = some own := by
  cases hrecord : r.record? id with
  | none =>
      have hunknown : r.clients.get? id = none := Option.map_eq_none_iff.mp hrecord
      rw [handle, if_neg (by simp [hrunning])]
      dsimp only
      rw [join_of_unknown hunknown]
      exact .inl ⟨rfl, hout⟩
  | some own =>
      have htaken := r.takenBy_prefix_offersTo (.join id) id
      have hgreeting : r.greeting (.join id) = [[own]] := by
        rw [greeting, if_pos hrunning, hrecord]
        rfl
      have hoffers := r.offersTo_handle (.join id) id
      rw [if_pos rfl, hgreeting] at hoffers
      cases htook : takenBy id (r.handle (.join id)).rounds with
      | nil =>
          refine .inl ⟨rfl, notMem_of_refusedIn hrunning ?_⟩
          rw [← Bool.not_eq_false]
          intro hall
          rw [← takenBy_eq_offersTo hall, htook] at hoffers
          cases hoffers
      | cons batch later =>
          rw [htook, hoffers] at htaken
          obtain ⟨rfl, -⟩ := List.cons_prefix_cons.mp htaken
          exact .inr ⟨own, later, rfl, rfl⟩

/-- The snapshot of a sound registry lists its members, each once and in ascending order. -/
theorem Sound.map_id_snapshot (h : r.Sound) : r.snapshot.map Record.id = r.members.ids := by
  refine map_id_filterMap fun id hid => ?_
  obtain ⟨record, hr⟩ := Option.isSome_iff_exists.mp (h.known id hid)
  exact ⟨record, hr, h.named id record hr⟩

end

end Registry
end PositionRelay
