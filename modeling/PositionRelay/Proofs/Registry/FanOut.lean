import PositionRelay.Registry.Request

/-!
# Who stays in a fan-out

Every round takes one slot from each mailbox, so a member is refused in the round that follows its
last free slot, provided that there is such a round: a round is followed by another one only if it
evicts someone. Hence a member stays if and only if some number of slots below its own is nobody's
(`mem_fanOut_iff`).

A broadcast therefore spares all members with a free slot unless one mailbox is full or closed and
another one has a single slot left. Then the first is evicted, the round after that finds the
second one full, and a member that had room when the request came is gone.
-/
namespace PositionRelay

theorem Mailbox.refusal?_eq_none_iff (m : Mailbox) : m.refusal? = none ↔ 0 < m.free := by
  unfold refusal? free
  split
  · simp
  · split
    · simp
      omega
    · simp
      omega

/-- An offer that is taken changes the mailbox only. -/
theorem Client.offer_eq_ok {c d : Client} {batch : Batch} (h : c.offer batch = .ok d) :
    d = { c with mailbox := { c.mailbox with pending := c.mailbox.pending ++ [batch] } } := by
  unfold offer Mailbox.offer at h
  split at h
  · cases h
  · cases h
    rfl

/-- An offer changes the mailbox only, and that only if the mailbox does not refuse it. -/
theorem Client.getD_offer (c : Client) (batch : Batch) :
    (c.offer batch).toOption.getD c =
      { c with mailbox := { c.mailbox with pending :=
          c.mailbox.pending ++ if c.mailbox.refusal?.isNone then [batch] else [] } } := by
  unfold offer Mailbox.offer
  cases c.mailbox.refusal? with
  | none => rfl
  | some reason =>
      rw [if_neg (by simp), List.append_nil]
      rfl

/-- A mailbox with room gets the batch at its end. -/
theorem Client.visit_of_free {c : Client} {batch : Batch} (h : 0 < c.mailbox.free) :
    c.visit batch =
      { c.settle with mailbox := { c.mailbox with pending := c.mailbox.pending ++ [batch] } } := by
  have hr : c.settle.mailbox.refusal? = none := (Mailbox.refusal?_eq_none_iff _).mpr h
  simp only [visit, offer, Mailbox.offer, hr]
  rfl

theorem Client.visit_of_full {c : Client} {batch : Batch} (h : c.mailbox.free = 0) :
    c.visit batch = c.settle.disconnect := by
  have hr : c.settle.mailbox.refusal? ≠ none := by
    intro hn
    have : 0 < c.mailbox.free := (Mailbox.refusal?_eq_none_iff _).mp hn
    omega
  obtain ⟨reason, hreason⟩ := Option.ne_none_iff_exists'.mp hr
  simp only [visit, offer, Mailbox.offer, hreason]
  rfl

/-- Every visit takes a slot, if there is one. -/
theorem Client.free_visit (c : Client) (batch : Batch) :
    (c.visit batch).mailbox.free = c.mailbox.free - 1 := by
  by_cases h : 0 < c.mailbox.free
  · rw [visit_of_free h]
    unfold Mailbox.free
    dsimp only
    split
    · rfl
    · rw [List.length_append, List.length_singleton]
      omega
  · have hz : c.mailbox.free = 0 := by omega
    rw [visit_of_full hz, hz]
    exact hz

namespace Registry

/-- Batches that the mailbox of a client still takes; none if there is no such client. -/
def free (r : Registry) (id : ClientId) : Nat :=
  (r.clients.get? id).elim 0 fun c => c.mailbox.free

theorem takes_iff (r : Registry) (id : ClientId) : r.takes id = true ↔ 0 < r.free id := by
  unfold takes free
  cases r.clients.get? id with
  | none => simp
  | some c => simp [Option.isNone_iff_eq_none, Mailbox.refusal?_eq_none_iff]

theorem mem_round_iff (r : Registry) (id : ClientId) :
    id ∈ r.round.members.ids ↔ id ∈ r.members.ids ∧ 0 < r.free id := by
  rw [← takes_iff]
  exact List.mem_filter

theorem get?_round (r : Registry) (id : ClientId) :
    r.round.clients.get? id =
      (r.clients.get? id).map fun c => if id ∈ r.members.ids then c.visit r.snapshot else c :=
  Roster.get?_map ..

theorem free_round {r : Registry} {id : ClientId} (h : id ∈ r.members.ids) :
    r.round.free id = r.free id - 1 := by
  unfold free
  rw [get?_round]
  cases r.clients.get? id with
  | none => rfl
  | some c => simp [h, Client.free_visit]

theorem fanOut_of_empty {r : Registry} (h : r.members.ids = []) : r.fanOut = (r, []) := by
  rw [fanOut, if_pos (List.isEmpty_iff.mpr h)]

theorem fanOut_of_taken {r : Registry} (hne : r.members.ids ≠ [])
    (h : ∀ id ∈ r.members.ids, r.takes id = true) : r.fanOut = (r.round, [r.report]) := by
  rw [fanOut, if_neg (by simpa using hne), dif_pos (List.all_eq_true.mpr h)]

theorem fanOut_of_refused {r : Registry} (h : ∃ id ∈ r.members.ids, r.takes id = false) :
    r.fanOut = (r.round.fanOut.1, r.report :: r.round.fanOut.2) := by
  obtain ⟨id, hid, ht⟩ := h
  have hne : r.members.ids ≠ [] := List.ne_nil_of_mem hid
  have hall : ¬ r.members.ids.all r.takes = true := by
    intro hall
    rw [List.all_eq_true.mp hall id hid] at ht
    cases ht
  rw [fanOut, if_neg (by simpa using hne), dif_neg hall]

/-- A fan-out without members, one that all members take, and one that goes on with the survivors
of its first round. -/
theorem fanOut_induction {P : Registry → Prop}
    (empty : ∀ r : Registry, r.members.ids = [] → P r)
    (taken : ∀ r : Registry, r.members.ids ≠ [] → (∀ id ∈ r.members.ids, r.takes id = true) → P r)
    (refused : ∀ r : Registry, (∃ id ∈ r.members.ids, r.takes id = false) → P r.round → P r)
    (r : Registry) : P r := by
  induction r using fanOut.induct with
  | case1 r hempty => exact empty r (List.isEmpty_iff.mp hempty)
  | case2 r hne hall => exact taken r (by simpa using hne) (List.all_eq_true.mp hall)
  | case3 r hne hall _ last rounds _ ih => exact refused r (by simpa using hall) ih

theorem join_of_unknown {r : Registry} {id : ClientId} (h : r.clients.get? id = none) :
    r.join id = (r, []) := by
  unfold join
  rw [h]

/-- The client takes its own record. -/
theorem join_of_taken {r : Registry} {id : ClientId} {c d : Client}
    (hc : r.clients.get? id = some c) (ho : c.offer [c.record] = .ok d) :
    r.join id =
      let joined := { r with members := r.members.insert id, clients := r.clients.set id d }
      (joined.fanOut.1, ⟨[c.record], [id], []⟩ :: joined.fanOut.2) := by
  have hrecord : d.record = c.record := by
    rw [Client.offer_eq_ok ho]
    rfl
  simp only [join, hc, ho, hrecord]

theorem join_of_refused {r : Registry} {id : ClientId} {c : Client} {why : DeliveryError}
    (hc : r.clients.get? id = some c) (ho : c.offer [c.record] = .error why) :
    r.join id =
      let evicted := ({ r with members := r.members.insert id } : Registry).evict id
      (evicted.fanOut.1, ⟨[c.record], [], [id]⟩ :: evicted.fanOut.2) := by
  simp only [join, hc, ho]

/-- A member stays in a fan-out if and only if there is a number of slots, less than its own, that
is the number of no member. -/
theorem mem_fanOut_iff (r : Registry) (id : ClientId) :
    id ∈ r.fanOut.1.members.ids ↔
      id ∈ r.members.ids ∧ ∃ gap < r.free id, ∀ m ∈ r.members.ids, r.free m ≠ gap := by
  induction r using fanOut_induction with
  | empty r hempty =>
      rw [fanOut_of_empty hempty]
      simp [hempty]
  | taken r hne hall =>
      have hfree : ∀ m ∈ r.members.ids, 0 < r.free m := fun m hm => (r.takes_iff m).mp (hall m hm)
      rw [fanOut_of_taken hne hall, mem_round_iff]
      constructor
      · rintro ⟨hm, hpos⟩
        exact ⟨hm, 0, hpos, fun m hm => Nat.ne_of_gt (hfree m hm)⟩
      · rintro ⟨hm, -⟩
        exact ⟨hm, hfree id hm⟩
  | refused r hsome ih =>
      -- Someone has no slot left, so the gap is not zero; after the round it is one less.
      have hfull : ∃ m ∈ r.members.ids, r.free m = 0 := by
        obtain ⟨m, hm, ht⟩ := hsome
        have : ¬ 0 < r.free m := fun hp => by simp [(r.takes_iff m).mpr hp] at ht
        exact ⟨m, hm, by omega⟩
      rw [fanOut_of_refused hsome]
      dsimp only
      rw [ih, mem_round_iff]
      constructor
      · rintro ⟨⟨hm, hpos⟩, gap, hlt, hgap⟩
        rw [free_round hm] at hlt
        refine ⟨hm, gap + 1, by omega, ?_⟩
        intro j hj he
        have hround := hgap j ((mem_round_iff r j).mpr ⟨hj, by omega⟩)
        rw [free_round hj] at hround
        omega
      · rintro ⟨hm, gap, hlt, hgap⟩
        have hpos : 0 < gap := by
          obtain ⟨m, hm, hz⟩ := hfull
          have := hgap m hm
          omega
        refine ⟨⟨hm, by omega⟩, gap - 1, ?_, ?_⟩
        · rw [free_round hm]
          omega
        · intro j hj
          obtain ⟨hj, hjpos⟩ := (mem_round_iff r j).mp hj
          have := hgap j hj
          rw [free_round hj]
          omega

/-- Handling a broadcast keeps all members that had a free slot when the request came, unless there
were both a member without a slot and a member with exactly one. -/
theorem broadcast_spares_free_iff {r : Registry} (h : r.running = true) :
    (∀ id ∈ r.members.ids, 0 < r.free id → id ∈ (r.handle .broadcast).registry.members.ids) ↔
      ¬ ((∃ a ∈ r.members.ids, r.free a = 0) ∧ ∃ b ∈ r.members.ids, r.free b = 1) := by
  have hhandled : (r.handle .broadcast).registry = r.fanOut.1 := by simp [handle, h]
  simp only [hhandled, mem_fanOut_iff]
  constructor
  · rintro hspared ⟨⟨a, ha, hfull⟩, b, hb, hlast⟩
    -- The only number of slots below one is that of the full mailbox.
    obtain ⟨-, gap, hlt, hgap⟩ := hspared b hb (by omega)
    have : r.free a ≠ gap := hgap a ha
    omega
  · intro hnot id hid hpos
    refine ⟨hid, ?_⟩
    by_cases hfull : ∃ a ∈ r.members.ids, r.free a = 0
    · have hlast : ∀ b ∈ r.members.ids, r.free b ≠ 1 := fun b hb hone => hnot ⟨hfull, b, hb, hone⟩
      have : r.free id ≠ 1 := hlast id hid
      exact ⟨1, by omega, hlast⟩
    · exact ⟨0, hpos, fun m hm hz => hfull ⟨m, hm, hz⟩⟩

/-- Two clients with three slots each that joined one after the other and read nothing: the first
has no slot left, the second one. -/
def crowded : Registry :=
  let built : Registry :=
    { clients := (({} : Roster Client).set 1 (.create 1 .zero .zero 3)).set 2
        (.create 2 .zero .zero 3) }
  ((built.handle (.join 1)).registry.handle (.join 2)).registry

theorem broadcast_drops_free_of_crowded :
    crowded.running = true ∧ crowded.free 1 = 0 ∧ crowded.free 2 = 1 ∧
      ¬ ∀ id ∈ crowded.members.ids, 0 < crowded.free id →
        id ∈ (crowded.handle .broadcast).registry.members.ids := by
  have hrunning : crowded.running = true := by decide +kernel
  have hmembers : crowded.members.ids = [1, 2] := by decide +kernel
  have hfirst : crowded.free 1 = 0 := by decide +kernel
  have hsecond : crowded.free 2 = 1 := by decide +kernel
  refine ⟨hrunning, hfirst, hsecond, ?_⟩
  intro hspared
  exact (broadcast_spares_free_iff hrunning).mp hspared
    ⟨⟨1, by simp [hmembers], hfirst⟩, 2, by simp [hmembers], hsecond⟩

end Registry
end PositionRelay
