import Mathlib.Data.Finset.Dedup
import Mathlib.Data.List.Sort
import PositionRelay.Proofs.Registry.Room

/-!
# The registry as a plain set

If every mailbox has room for all batches that some requests send to it, then it does not matter that
there are mailboxes. The requests insert into a set and erase from it, a count answers with its size,
and whatever else happens is that each member is sent a snapshot of the set (`HandlesAsSet`). The set
is all that a snapshot depends on, so clients that join one after another end with the same batch in
whatever order they came: `serve_refines_set`.
-/
namespace PositionRelay

/-- What a request makes of a plain set of clients. -/
def Request.update (s : Finset ClientId) : Request → Finset ClientId
  | .join id => insert id s
  | .leave id => s.erase id
  | .broadcast | .count | .shutDown => s

/-- How many batches a request to a plain set sends to a client: its own record if it joins, and a
snapshot if it is in the set afterwards. -/
def Request.batchesTo (id : ClientId) (s : Finset ClientId) (request : Request) : Nat :=
  (if request = .join id then 1 else 0) +
    if request.announces ∧ id ∈ request.update s then 1 else 0

/-- How many batches some requests to a plain set send to a client. -/
def batchesTo (id : ClientId) (s : Finset ClientId) : List Request → Nat
  | [] => 0
  | request :: rest => request.batchesTo id s + batchesTo id (request.update s) rest

namespace Registry

def clientSet (r : Registry) : Finset ClientId := r.members.ids.toFinset

/-- The registry after some requests. -/
def serve (r : Registry) (requests : List Request) : Registry :=
  requests.foldl (fun r request => (r.handle request).registry) r

/-- Handling a request is what the request makes of the set of members, and a snapshot. -/
structure HandlesAsSet (r : Registry) (request : Request) : Prop where
  members : (r.handle request).registry.clientSet = request.update r.clientSet
  /-- Nobody is evicted. -/
  spared : ∀ id, refusedIn id (r.handle request).rounds = false
  answer : request = .count → (r.handle request).answer = some (request.update r.clientSet).card
  /-- A newcomer gets its own record, and then every member gets one batch, with the records of exactly
  the members. -/
  mail : ∃ own snapshot : Batch,
    (∀ id, request = .join id → ∃ record, r.record? id = some record ∧ own = [record]) ∧
      snapshot.map Record.id = (r.handle request).registry.members.ids ∧
      (∀ record ∈ snapshot, r.record? record.id = some record) ∧
      ∀ id, (r.handle request).registry.pending id = r.pending id ++
        (if request = .join id then [own] else []) ++
        if request.announces ∧ id ∈ request.update r.clientSet then [snapshot] else []

section
variable {r : Registry} {id : ClientId} {request : Request} {requests before later : List Request}

theorem mem_clientSet : id ∈ r.clientSet ↔ id ∈ r.members.ids := List.mem_toFinset

theorem card_clientSet (r : Registry) : r.clientSet.card = r.members.size :=
  List.toFinset_card_of_nodup (Service.nodup_members r.members)

theorem exists_record_of_free (h : 0 < r.free id) : ∃ record, r.record? id = some record := by
  obtain ⟨c, -, hc, -⟩ := exists_offer_of_free h
  exact ⟨c.record, by rw [record?, hc]; rfl⟩

theorem mem_update_iff_keeps (s : Finset ClientId) (request : Request) (id : ClientId) :
    id ∈ request.update s ↔ request.keeps id (id ∈ s) := by
  cases request with
  | join j => rw [Request.update, Finset.mem_insert, Request.keeps, or_comm, eq_comm]
  | leave j => rw [Request.update, Finset.mem_erase, Request.keeps, and_comm, ne_comm]
  | _ => exact Iff.rfl

section
variable (hrunning : r.running = true) (hon : request ≠ .shutDown)
  (hroom : ∀ id, request.batchesTo id r.clientSet ≤ r.free id)

include hroom in
theorem free_of_join (id : ClientId) (h : request = .join id) : 0 < r.free id := by
  have := hroom id
  rw [Request.batchesTo, if_pos h] at this
  omega

include hrunning hroom in
/-- A newcomer is greeted with its own record. -/
theorem exists_greeting : ∃ own : Batch, ∀ id, request = .join id →
    r.greeting request = [own] ∧ ∃ record, r.record? id = some record ∧ own = [record] := by
  cases request with
  | join j =>
      obtain ⟨record, hrecord⟩ := exists_record_of_free (free_of_join hroom j rfl)
      refine ⟨[record], fun id hid => ?_⟩
      cases hid
      exact ⟨by rw [greeting, if_pos hrunning, hrecord]; rfl, record, hrecord, rfl⟩
  | _ => exact ⟨[], fun id hid => by cases hid⟩

include hrunning hon hroom

theorem enact_clientSet : (r.enact request).1.clientSet = request.update r.clientSet := by
  ext id
  rw [mem_clientSet, mem_enact_iff_keeps hrunning hon (free_of_join hroom), mem_update_iff_keeps,
    mem_clientSet]

theorem mem_update_iff_enact (id : ClientId) :
    id ∈ request.update r.clientSet ↔ id ∈ (r.enact request).1.members.ids := by
  rw [← enact_clientSet hrunning hon hroom, mem_clientSet]

/-- What the request leaves for its snapshot. -/
theorem free_enact_of_room (h : request.announces = true) :
    ∀ id ∈ (r.enact request).1.members.ids, 0 < (r.enact request).1.free id := by
  intro id hid
  rw [← mem_update_iff_enact hrunning hon hroom] at hid
  have hsnapshot : request.announces ∧ id ∈ request.update r.clientSet := ⟨h, hid⟩
  have := hroom id
  rw [Request.batchesTo, if_pos hsnapshot] at this
  rw [free_enact hrunning hon (free_of_join hroom)]
  omega

theorem members_handle_of_room :
    (r.handle request).registry.members.ids = (r.enact request).1.members.ids := by
  rw [(r.handle_eq_enact request).1, enact_announces hrunning hon (free_of_join hroom)]
  split
  · next h => exact members_fanOut_of_room (free_enact_of_room hrunning hon hroom h)
  · rfl

theorem clientSet_handle : (r.handle request).registry.clientSet = request.update r.clientSet := by
  rw [clientSet, members_handle_of_room hrunning hon hroom]
  exact enact_clientSet hrunning hon hroom

/-- The request takes from each mailbox what it sends there. -/
theorem free_handle (id : ClientId) :
    (r.handle request).registry.free id = r.free id - request.batchesTo id r.clientSet := by
  have henact := free_enact hrunning hon (free_of_join hroom) id
  rw [(r.handle_eq_enact request).1, enact_announces hrunning hon (free_of_join hroom),
    Request.batchesTo]
  by_cases h : request.announces = true
  · rw [if_pos h, free_fanOut_of_room (free_enact_of_room hrunning hon hroom h), henact]
    simp only [h, true_and, mem_update_iff_enact hrunning hon hroom]
    omega
  · have hnone : ¬ (request.announces ∧ id ∈ request.update r.clientSet) := fun hand => h hand.1
    rw [if_neg h, henact, if_neg hnone]
    omega

theorem refusedIn_handle_of_room (hsound : r.Sound) (id : ClientId) :
    refusedIn id (r.handle request).rounds = false := by
  by_cases hkeeps : request.keeps id (id ∈ r.members.ids)
  · -- Whoever is a member afterwards has refused nothing.
    have hin : id ∈ (r.handle request).registry.members.ids := by
      rw [members_handle_of_room hrunning hon hroom,
        mem_enact_iff_keeps hrunning hon (free_of_join hroom)]
      exact hkeeps
    have hknown : request = .join id → (r.clients.get? id).isSome := by
      intro hjoin
      obtain ⟨c, -, hc, -⟩ := exists_offer_of_free (free_of_join hroom id hjoin)
      rw [hc]
      rfl
    exact ((mem_handle_iff hrunning hon hknown).mp hin).2
  · exact refusedIn_eq_false (offersTo_handle_of_not_keeps hsound hkeeps)

theorem takenBy_handle_of_room (hsound : r.Sound) (id : ClientId) :
    takenBy id (r.handle request).rounds = (if request = .join id then r.greeting request else []) ++
      if request.announces ∧ id ∈ request.update r.clientSet then
        [(r.handle request).registry.members.ids.filterMap r.record?] else [] := by
  have hsnapshot : (r.enact request).1.snapshot =
      (r.handle request).registry.members.ids.filterMap r.record? := by
    rw [snapshot_eq, members_handle_of_room hrunning hon hroom]
    exact List.filterMap_congr fun id _ => record?_enact r id request
  rw [takenBy_eq_offersTo (refusedIn_handle_of_room hrunning hon hroom hsound id), offersTo_handle,
    ← hsnapshot, stagesFor, enact_announces hrunning hon (free_of_join hroom)]
  congr 1
  by_cases h : request.announces = true
  · have hroom' := free_enact_of_room hrunning hon hroom h
    rw [if_pos h, ← offersTo_fanOut, ← takenBy_eq_offersTo (refusedIn_fanOut_of_room hroom' id),
      takenBy_fanOut_of_room hroom']
    simp only [h, true_and, mem_update_iff_enact hrunning hon hroom]
  · rw [if_neg h, if_neg (fun hand => h hand.1)]
    rfl

theorem handlesAsSet (hsound : r.Sound) : r.HandlesAsSet request := by
  refine ⟨clientSet_handle hrunning hon hroom, refusedIn_handle_of_room hrunning hon hroom hsound,
    ?_, ?_⟩
  · rintro rfl
    rw [handle, if_neg (by simp [hrunning]), Request.update, card_clientSet]
  · have hnames : ∀ id ∈ (r.handle request).registry.members.ids,
        ∃ record, r.record? id = some record ∧ record.id = id := by
      intro id hid
      rw [members_handle_of_room hrunning hon hroom] at hid
      obtain ⟨record, hrecord⟩ := Option.isSome_iff_exists.mp
        ((hsound.enact request).known id hid)
      rw [record?_enact] at hrecord
      exact ⟨record, hrecord, hsound.named id record hrecord⟩
    obtain ⟨own, hown⟩ := exists_greeting hrunning hroom
    refine ⟨own, (r.handle request).registry.members.ids.filterMap r.record?, fun id hid =>
      (hown id hid).2, map_id_filterMap hnames, ?_, ?_⟩
    · intro record hrecord
      obtain ⟨id, -, hid⟩ := List.mem_filterMap.mp hrecord
      rw [hsound.named id record hid, hid]
    · intro id
      rw [pending_handle, takenBy_handle_of_room hrunning hon hroom hsound, List.append_assoc]
      congr 2
      split
      · next hjoin => rw [(hown id hjoin).1]
      · rfl

end

/-- The requests are handled, and every mailbox has room for what they send to it. -/
structure Roomy (r : Registry) (requests : List Request) : Prop where
  running : r.running = true
  sound : r.Sound
  on : .shutDown ∉ requests
  room : ∀ id, batchesTo id r.clientSet requests ≤ r.free id

theorem Roomy.first_on (h : r.Roomy (request :: later)) : request ≠ .shutDown := by
  rintro rfl
  exact h.on (List.mem_cons_self ..)

theorem Roomy.first_room (h : r.Roomy (request :: later)) (id : ClientId) :
    request.batchesTo id r.clientSet ≤ r.free id :=
  Nat.le_trans (Nat.le_add_right ..) (h.room id)

theorem Roomy.handlesAsSet (h : r.Roomy (request :: later)) : r.HandlesAsSet request :=
  Registry.handlesAsSet h.running h.first_on h.first_room h.sound

theorem Roomy.rest (h : r.Roomy (request :: later)) : (r.handle request).registry.Roomy later := by
  refine ⟨(running_handle h.running request).mpr h.first_on, h.sound.handle request,
    fun hmem => h.on (List.mem_cons_of_mem _ hmem), fun id => ?_⟩
  have hall : request.batchesTo id r.clientSet +
      batchesTo id (request.update r.clientSet) later ≤ r.free id := h.room id
  rw [clientSet_handle h.running h.first_on h.first_room,
    free_handle h.running h.first_on h.first_room]
  omega

/-- Part of the way, the members are those of the plain set, and nobody has been told to stop. -/
theorem Roomy.serve (h : r.Roomy (before ++ later)) :
    (r.serve before).Roomy later ∧
      (r.serve before).clientSet = before.foldl Request.update r.clientSet ∧
      ∀ id, (r.serve before).flags? id = r.flags? id := by
  induction before generalizing r with
  | nil => exact ⟨h, rfl, fun _ => rfl⟩
  | cons request before ih =>
      obtain ⟨hroomy, hset, hflags⟩ := ih h.rest
      refine ⟨hroomy, ?_, fun id => (hflags id).trans ?_⟩
      · rw [List.foldl_cons, ← h.handlesAsSet.members]
        exact hset
      · rw [flags?_handle r h.first_on, h.handlesAsSet.spared]
        rfl

theorem Roomy.serve_all (h : r.Roomy requests) :
    (r.serve requests).clientSet = requests.foldl Request.update r.clientSet ∧
      ∀ id, (r.serve requests).flags? id = r.flags? id := by
  have hwhole : r.Roomy (requests ++ []) := by rwa [List.append_nil]
  exact hwhole.serve.2

theorem batchesTo_joins_le (id : ClientId) (s : Finset ClientId) (ids : List ClientId) :
    batchesTo id s (ids.map .join) ≤ ids.length + ids.count id := by
  induction ids generalizing s with
  | nil => exact Nat.le_refl 0
  | cons j rest ih =>
      have hfirst : (Request.join j).batchesTo id s ≤ (if j = id then 1 else 0) + 1 := by
        rw [Request.batchesTo]
        simp only [Request.join.injEq]
        split <;> split <;> omega
      have hrest := ih (insert j s)
      rw [List.map_cons, batchesTo, List.length_cons, List.count_cons]
      simp only [beq_iff_eq]
      change _ + batchesTo id (insert j s) (rest.map .join) ≤ _
      omega

/-- Nothing is sent to someone who neither is in the set nor joins. -/
theorem batchesTo_joins_eq_zero {s : Finset ClientId} {ids : List ClientId} (hs : id ∉ s)
    (hids : id ∉ ids) : batchesTo id s (ids.map .join) = 0 := by
  induction ids generalizing s with
  | nil => rfl
  | cons j rest ih =>
      obtain ⟨hj, hrest⟩ : id ≠ j ∧ id ∉ rest := by simpa using hids
      have hout : id ∉ insert j s := by simp [hj, hs]
      rw [List.map_cons, batchesTo]
      change _ + batchesTo id (insert j s) (rest.map .join) = 0
      rw [ih hout hrest]
      simp [Request.batchesTo, Request.update, Ne.symm hj, hout]

theorem foldl_update_joins (s : Finset ClientId) (ids : List ClientId) :
    (ids.map .join).foldl Request.update s = s ∪ ids.toFinset := by
  induction ids generalizing s with
  | nil => simp
  | cons j rest ih =>
      rw [List.map_cons, List.foldl_cons, ih]
      simp [Request.update, Finset.insert_union]

theorem roomy_joins {ids : List ClientId} (hrunning : r.running = true) (hsound : r.Sound)
    (hempty : r.members.ids = []) (hnodup : ids.Nodup)
    (hroom : ∀ id ∈ ids, ids.length + 1 ≤ r.free id) : r.Roomy (ids.map .join) := by
  refine ⟨hrunning, hsound, by simp, fun id => ?_⟩
  by_cases hid : id ∈ ids
  · have hcount : ids.count id ≤ 1 := List.nodup_iff_count_le_one.mp hnodup id
    have := batchesTo_joins_le id r.clientSet ids
    have := hroom id hid
    omega
  · have hout : id ∉ r.clientSet := by simp [mem_clientSet, hempty]
    rw [batchesTo_joins_eq_zero hout hid]
    exact Nat.zero_le _

/-- The set determines the order in which the registry lists it. -/
theorem members_eq_of_clientSet {s : Registry} (h : s.clientSet = r.clientSet) :
    s.members.ids = r.members.ids := by
  have hperm : s.members.ids.Perm r.members.ids :=
    List.perm_of_nodup_nodup_toFinset_eq (Service.nodup_members _) (Service.nodup_members _) h
  refine hperm.eq_of_pairwise ?_ s.members.ascending r.members.ascending
  intro a b _ _ hab hba
  exact absurd hab (Int32.lt_asymm hba)

section
variable {ids : List ClientId} (h : r.Roomy (ids.map .join)) (hempty : r.members.ids = [])

include h hempty

theorem clientSet_serve_joins : (r.serve (ids.map .join)).clientSet = ids.toFinset := by
  have hnone : r.clientSet = ∅ := by rw [clientSet, hempty, List.toFinset_nil]
  rw [h.serve_all.1, foldl_update_joins, hnone, Finset.empty_union]

theorem mem_serve_joins_iff : id ∈ (r.serve (ids.map .join)).members.ids ↔ id ∈ ids := by
  rw [← mem_clientSet, clientSet_serve_joins h hempty, List.mem_toFinset]

theorem size_serve_joins (hnodup : ids.Nodup) :
    (r.serve (ids.map .join)).members.size = ids.length := by
  rw [← card_clientSet, clientSet_serve_joins h hempty, List.toFinset_card_of_nodup hnodup]

end

theorem members_serve_joins_of_perm {ids order : List ClientId} (horder : r.Roomy (order.map .join))
    (h : r.Roomy (ids.map .join)) (hempty : r.members.ids = []) (hperm : order.Perm ids) :
    (r.serve (order.map .join)).members.ids = (r.serve (ids.map .join)).members.ids := by
  refine members_eq_of_clientSet ?_
  rw [clientSet_serve_joins horder hempty, clientSet_serve_joins h hempty,
    List.toFinset_eq_of_perm _ _ hperm]

theorem position?_serve (r : Registry) (requests : List Request) (id : ClientId) :
    (r.serve requests).position? id = r.position? id := by
  induction requests generalizing r with
  | nil => rfl
  | cons request rest ih => exact (ih _).trans (position?_handle r request id)

/-- Clients that have room are known, so each of them has a position. -/
theorem map_id_positions {ids : List ClientId} (hsound : r.Sound)
    (hfree : ∀ id ∈ ids, 0 < r.free id) :
    (ids.filterMap r.position?).map Record.id = ids := by
  refine map_id_filterMap fun id hid => ?_
  obtain ⟨record, hrecord⟩ := exists_record_of_free (hfree id hid)
  exact ⟨record.settled, by rw [position?, hrecord]; rfl, hsound.named id record hrecord⟩

theorem record?_fanOut_of_rest (h : r.position? id = r.record? id) :
    r.fanOut.1.record? id = r.record? id := by
  have hround : ∀ {r : Registry}, r.position? id = r.record? id →
      r.round.record? id = r.record? id := by
    intro r h
    rw [record?_round]
    split
    · exact h
    · rfl
  induction r using fanOut_induction with
  | empty r hempty => rw [fanOut_of_empty hempty]
  | taken r hne hall =>
      rw [fanOut_of_taken hne hall]
      exact hround h
  | refused r hsome ih =>
      rw [fanOut_of_refused hsome]
      dsimp only
      rw [ih (by rw [position?_round, hround h, h]), hround h]

/-- The record of a client that has not moved stays as it is. -/
theorem record?_serve_of_rest (h : r.position? id = r.record? id) (requests : List Request) :
    (r.serve requests).record? id = r.record? id := by
  induction requests generalizing r with
  | nil => rfl
  | cons request rest ih =>
      have hfirst : (r.handle request).registry.record? id = r.record? id := by
        have henact := record?_enact r id request
        rw [(r.handle_eq_enact request).1]
        split
        · rw [record?_fanOut_of_rest, henact]
          rw [position?, henact]
          exact h
        · exact henact
      refine (ih ?_).trans hfirst
      rw [position?_handle, hfirst, h]

/-- A snapshot is found again from its identifiers. -/
theorem eq_filterMap_of_names {snapshot : Batch} {ids : List ClientId}
    (hids : snapshot.map Record.id = ids)
    (hrecords : ∀ record ∈ snapshot, r.record? record.id = some record) :
    snapshot = ids.filterMap r.record? := by
  have hsome : snapshot.filterMap (r.record? ∘ Record.id) = snapshot.filterMap some :=
    List.filterMap_congr hrecords
  rw [← hids, List.filterMap_map, hsome, List.filterMap_some]

/-- Clients that joined one after another have the same batch last, which shows where all of them
are. -/
theorem exists_last_of_joins {ids : List ClientId} (h : r.Roomy (ids.map .join))
    (hempty : r.members.ids = []) :
    let joined := r.serve (ids.map .join)
    ∃ last : Batch, (∀ id ∈ ids, (joined.pending id).getLast? = some last) ∧
      last.map Record.settled = joined.members.ids.filterMap r.position? ∧
      ((∀ id ∈ joined.members.ids, r.position? id = r.record? id) →
        last = joined.members.ids.filterMap r.position?) := by
  intro joined
  rcases List.eq_nil_or_concat' ids with rfl | ⟨before, j, rfl⟩
  · have hnone : joined.members.ids = [] := hempty
    exact ⟨[], by simp, by simp [hnone], by simp [hnone]⟩
  · -- The last join sends the snapshot that everyone has last.
    have hsplit : (before ++ [j]).map Request.join = before.map .join ++ [.join j] := List.map_append
    rw [hsplit] at h
    have hjoined : joined = ((r.serve (before.map .join)).handle (.join j)).registry := by
      change r.serve ((before ++ [j]).map .join) = _
      rw [hsplit]
      exact List.foldl_append
    obtain ⟨hroomy, hset, -⟩ := h.serve
    have hlast := hroomy.handlesAsSet
    obtain ⟨own, last, -, hids, hrecords, hpending⟩ := hlast.mail
    rw [← hjoined] at hids hpending
    have hlast := eq_filterMap_of_names hids hrecords
    refine ⟨last, ?_, ?_, ?_⟩
    · intro id hid
      have hmem : (Request.join j).announces ∧
          id ∈ (Request.join j).update (r.serve (before.map .join)).clientSet := by
        refine ⟨rfl, ?_⟩
        rw [hset, foldl_update_joins, Request.update, Finset.mem_insert, Finset.mem_union,
          List.mem_toFinset]
        rcases List.mem_append.mp hid with hid | hid
        · exact .inr (.inr hid)
        · exact .inl (List.mem_singleton.mp hid)
      rw [hpending id, if_pos hmem, List.getLast?_concat]
    · rw [hlast, List.map_filterMap]
      exact List.filterMap_congr fun id _ => position?_serve r (before.map .join) id
    · intro hrest
      rw [hlast]
      refine List.filterMap_congr fun id hid => ?_
      rw [record?_serve_of_rest (hrest id hid), hrest id hid]

/-- As long as no mailbox overflows, the registry is the plain set that the requests make, every count
is the size of that set, nobody is told to stop, and every other request sends one snapshot of the set
to all members. Clients that join an empty registry one after another, with room for one batch more
than there are clients, all become members and have one batch last, with a record for each of them; the
order of the joins shows in no more than who has moved before it joined. -/
theorem serve_refines_set (hrunning : r.running = true) (hsound : r.Sound) :
    (∀ requests : List Request, .shutDown ∉ requests →
      (∀ id, batchesTo id r.clientSet requests ≤ r.free id) →
      (r.serve requests).clientSet = requests.foldl Request.update r.clientSet ∧
        (∀ id, (r.serve requests).flags? id = r.flags? id) ∧
        ∀ before request later, requests = before ++ request :: later →
          (r.serve before).clientSet = before.foldl Request.update r.clientSet ∧
            (r.serve before).HandlesAsSet request) ∧
    ∀ ids : List ClientId, ids.Nodup → r.members.ids = [] →
      (∀ id ∈ ids, ids.length + 1 ≤ r.free id) →
      ∃ places : Batch, places.length = ids.length ∧ ∀ order : List ClientId, order.Perm ids →
        let joined := r.serve (order.map .join)
        joined.clientSet = ids.toFinset ∧ joined.members.size = ids.length ∧
          places.map Record.id = joined.members.ids ∧
          ∃ last : Batch, (∀ id ∈ ids, (joined.pending id).getLast? = some last) ∧
            last.map Record.settled = places ∧
            ((∀ id ∈ ids, r.position? id = r.record? id) → last = places) := by
  constructor
  · intro requests hon hroom
    have hroomy : r.Roomy requests := ⟨hrunning, hsound, hon, hroom⟩
    obtain ⟨hset, hflags⟩ := hroomy.serve_all
    refine ⟨hset, hflags, ?_⟩
    rintro before request later rfl
    obtain ⟨hnext, hbefore, -⟩ := hroomy.serve
    exact ⟨hbefore, hnext.handlesAsSet⟩
  · intro ids hnodup hempty hroom
    have hroomy : ∀ order : List ClientId, order.Perm ids → r.Roomy (order.map .join) := by
      intro order hperm
      refine roomy_joins hrunning hsound hempty (hperm.nodup_iff.mpr hnodup) fun id hid => ?_
      rw [hperm.length_eq]
      exact hroom id (hperm.mem_iff.mp hid)
    have hfirst : r.Roomy (ids.map .join) := hroomy ids (.refl _)
    have hin : ∀ id ∈ (r.serve (ids.map .join)).members.ids, id ∈ ids := fun _ =>
      (mem_serve_joins_iff hfirst hempty).mp
    have hsize := size_serve_joins hfirst hempty hnodup
    have hnames := map_id_positions hsound fun id hid =>
      Nat.lt_of_lt_of_le (Nat.succ_pos _) (hroom id (hin id hid))
    refine ⟨(r.serve (ids.map .join)).members.ids.filterMap r.position?, ?_, ?_⟩
    · rw [← hsize, Members.size, ← congrArg List.length hnames, List.length_map]
    · intro order hperm joined
      have hsame := members_serve_joins_of_perm (hroomy order hperm) hfirst hempty hperm
      obtain ⟨last, hlast, hplaces, hrest⟩ := exists_last_of_joins (hroomy order hperm) hempty
      rw [hsame] at hplaces hrest
      refine ⟨?_, ?_, ?_, last, ?_, hplaces, ?_⟩
      · exact (clientSet_serve_joins (hroomy order hperm) hempty).trans
          (List.toFinset_eq_of_perm _ _ hperm)
      · rw [Members.size, hsame]
        exact hsize
      · rw [hnames, hsame]
      · exact fun id hid => hlast id (hperm.mem_iff.mpr hid)
      · exact fun hstill => hrest fun id hid => hstill id (hin id hid)

/-- Three clients with four slots each, none of them a member. -/
def trio : Registry where
  clients := ⟨[(1, .create 1 .zero .zero 4), (2, .create 2 .zero .zero 4),
    (3, .create 3 .zero .zero 4)]⟩

/-- The second client is there when a stranger leaves and when the first one joins, and is counted. -/
def visits : List Request := [.join 2, .leave 3, .join 1, .count, .leave 2]

theorem trio_serves_as_set :
    trio.running = true ∧ trio.Sound ∧ (trio.serve visits).clientSet = {1} ∧
      ((trio.serve [.join 2, .leave 3, .join 1]).handle .count).answer = some 2 ∧
      ∃ last : Batch, last.length = 3 ∧ ∀ order : List ClientId, order.Perm [1, 2, 3] →
        ∀ id ∈ ([1, 2, 3] : List ClientId),
          ((trio.serve (order.map .join)).pending id).getLast? = some last := by
  have hrunning : trio.running = true := rfl
  have hsound : trio.Sound := sound_of_entries (by decide +kernel) (by decide +kernel)
  have hroom : ∀ id, batchesTo id trio.clientSet visits ≤ trio.free id := by
    intro id
    by_cases hfirst : id = 1
    · subst hfirst
      decide +kernel
    · by_cases hsecond : id = 2
      · subst hsecond
        decide +kernel
      · have hnone : batchesTo id trio.clientSet visits = 0 := by
          simp [batchesTo, visits, Request.batchesTo, Request.update, Request.announces, clientSet,
            trio, hfirst, hsecond, Ne.symm hfirst, Ne.symm hsecond]
        rw [hnone]
        exact Nat.zero_le _
  obtain ⟨hrequests, hjoins⟩ := serve_refines_set hrunning hsound
  obtain ⟨hset, -, hsteps⟩ := hrequests visits (by decide) hroom
  obtain ⟨hbefore, hcount⟩ := hsteps [.join 2, .leave 3, .join 1] .count [.leave 2] rfl
  have hslots : ([1, 2, 3] : List ClientId).all fun id => 4 ≤ trio.free id := by decide +kernel
  have hstill : ([1, 2, 3] : List ClientId).all fun id => trio.position? id == trio.record? id := by
    decide +kernel
  obtain ⟨places, hlength, horders⟩ := hjoins [1, 2, 3] (by decide) rfl fun id hid =>
    of_decide_eq_true (List.all_eq_true.mp hslots id hid)
  refine ⟨hrunning, hsound, ?_, ?_, places, hlength, ?_⟩
  · rw [hset]
    decide +kernel
  · rw [hcount.answer rfl, Request.update, hbefore]
    decide +kernel
  · intro order hperm id hid
    obtain ⟨-, -, -, last, hlast, -, hrest⟩ := horders order hperm
    rw [hlast id hid, hrest fun id hid => beq_iff_eq.mp (List.all_eq_true.mp hstill id hid)]

end

end Registry
end PositionRelay
