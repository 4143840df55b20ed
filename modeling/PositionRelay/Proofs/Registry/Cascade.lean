import Mathlib.Data.Finset.Card
import Mathlib.Data.Nat.Find
import PositionRelay.Proofs.Registry.Stages

/-!
# How far a fan-out goes

The first round of a fan-out is refused by the members without a free slot, the second one by those
that had one slot, and so on. It goes on like this until it comes to a number of slots that is
nobody's: the `gap` of the registry. So the numbers of free slots decide everything at once, who
stays, how many rounds there are, and what is in each of them (`fanOut_rounds_eq`,
`mem_fanOut_iff_gap`, `takenBy_fanOut_eq_take`).
-/
namespace PositionRelay.Registry

section
variable {r : Registry} {id : ClientId} {n : Nat}

/-- There are not enough members to have all the numbers up to their own. -/
theorem exists_gap_le_size (r : Registry) :
    ∃ n ≤ r.members.size, n ∉ r.members.ids.map r.free := by
  by_contra hall
  have hsub : Finset.range (r.members.size + 1) ⊆ (r.members.ids.map r.free).toFinset := by
    intro n hn
    by_contra hnone
    exact hall ⟨n, Nat.lt_succ_iff.mp (Finset.mem_range.mp hn), mt List.mem_toFinset.mpr hnone⟩
  have hcard : r.members.size + 1 ≤ r.members.size := by
    calc r.members.size + 1 = (Finset.range (r.members.size + 1)).card := (Finset.card_range _).symm
      _ ≤ (r.members.ids.map r.free).toFinset.card := Finset.card_le_card hsub
      _ ≤ (r.members.ids.map r.free).length := List.toFinset_card_le _
      _ = r.members.size := List.length_map ..
  omega

theorem exists_gap (r : Registry) : ∃ n, n ∉ r.members.ids.map r.free :=
  r.exists_gap_le_size.imp fun _ h => h.2

/-- The least number that is the number of free slots of no member. -/
def gap (r : Registry) : Nat := Nat.find r.exists_gap

theorem free_ne_gap (h : id ∈ r.members.ids) : r.free id ≠ r.gap := by
  intro he
  refine Nat.find_spec r.exists_gap (List.mem_map.mpr ⟨id, h, he⟩)

theorem exists_free_eq (h : n < r.gap) : ∃ m ∈ r.members.ids, r.free m = n :=
  List.mem_map.mp (Decidable.not_not.mp (Nat.find_min r.exists_gap h))

theorem gap_eq (hnone : n ∉ r.members.ids.map r.free)
    (hsome : ∀ i < n, i ∈ r.members.ids.map r.free) : r.gap = n :=
  (Nat.find_eq_iff r.exists_gap).mpr ⟨hnone, fun i hi => not_not_intro (hsome i hi)⟩

theorem gap_le_size (r : Registry) : r.gap ≤ r.members.size := by
  obtain ⟨n, hle, hn⟩ := r.exists_gap_le_size
  exact Nat.le_trans (Nat.find_min' r.exists_gap hn) hle

theorem gap_eq_zero (h : ∀ m ∈ r.members.ids, 0 < r.free m) : r.gap = 0 := by
  refine gap_eq (fun hzero => ?_) fun i hi => absurd hi (Nat.not_lt_zero i)
  obtain ⟨m, hm, he⟩ := List.mem_map.mp hzero
  have := h m hm
  omega

/-- A round that someone refuses brings the gap one step closer. -/
theorem gap_round (h : ∃ m ∈ r.members.ids, r.free m = 0) : r.gap = r.round.gap + 1 := by
  refine gap_eq ?_ ?_
  · intro hnext
    obtain ⟨m, hm, he⟩ := List.mem_map.mp hnext
    have hround : m ∈ r.round.members.ids := (mem_round_iff r m).mpr ⟨hm, by omega⟩
    have := free_ne_gap hround
    rw [free_round hm] at this
    omega
  · rintro (_ | i) hi
    · exact List.mem_map.mpr h
    · obtain ⟨m, hround, he⟩ := exists_free_eq (r := r.round) (Nat.lt_of_succ_lt_succ hi)
      obtain ⟨hm, hpos⟩ := (mem_round_iff r m).mp hround
      rw [free_round hm] at he
      exact List.mem_map.mpr ⟨m, hm, by omega⟩

theorem mem_fanOut_iff_gap (r : Registry) (id : ClientId) :
    id ∈ r.fanOut.1.members.ids ↔ id ∈ r.members.ids ∧ r.gap < r.free id := by
  rw [mem_fanOut_iff]
  refine and_congr_right fun _ => ⟨?_, fun h => ⟨r.gap, h, fun m hm => free_ne_gap hm⟩⟩
  rintro ⟨n, hlt, hn⟩
  have hnone : n ∉ r.members.ids.map r.free := by
    intro hmem
    obtain ⟨m, hm, he⟩ := List.mem_map.mp hmem
    exact hn m hm he
  exact Nat.lt_of_le_of_lt (Nat.find_min' r.exists_gap hnone) hlt

/-- What is offered in a round of a fan-out, and how it is received, by the number of rounds before it.
The first round carries the movement so far. -/
def nthRound (r : Registry) (n : Nat) : Round where
  batch := (r.members.ids.filter fun id => n ≤ r.free id).filterMap fun id =>
    if n = 0 then r.record? id else r.position? id
  takers := r.members.ids.filter fun id => n < r.free id
  refusers := r.members.ids.filter fun id => r.free id = n

/-- Only if someone is left at the gap there is a round without refusals. -/
def roundCount (r : Registry) : Nat :=
  r.gap + if r.members.ids.any fun id => r.gap < r.free id then 1 else 0

/-- Someone has more slots than the gap. -/
theorem any_beyond_gap_iff (r : Registry) :
    (r.members.ids.any fun id => r.gap < r.free id) = true ↔
      ∃ id ∈ r.members.ids, r.gap < r.free id := by simp

theorem nthRound_zero (r : Registry) : r.nthRound 0 = r.report := by
  have htakers : r.members.ids.filter (fun id => 0 < r.free id) = r.members.ids.filter r.takes := by
    refine List.filter_congr fun id _ => ?_
    rw [Bool.eq_iff_iff, decide_eq_true_iff, takes_iff]
  have hrefusers : r.members.ids.filter (fun id => r.free id = 0) =
      r.members.ids.filter fun id => !r.takes id := by
    refine List.filter_congr fun id _ => ?_
    rw [Bool.eq_iff_iff, decide_eq_true_iff, Bool.not_eq_true', Bool.eq_false_iff, ne_eq, takes_iff]
    omega
  unfold nthRound report
  rw [htakers, hrefusers, snapshot_eq]
  simp

/-- A round takes a slot from everyone, so the rounds after it are the later ones of the registry
before it. -/
theorem nthRound_round (r : Registry) (n : Nat) : r.round.nthRound n = r.nthRound (n + 1) := by
  have hmembers : r.round.members.ids = r.members.ids.filter r.takes := rfl
  have hfilter : ∀ p q : Nat → Bool, (∀ k, (decide (0 < k) && p (k - 1)) = q k) →
      r.round.members.ids.filter (fun id => p (r.round.free id)) =
        r.members.ids.filter fun id => q (r.free id) := by
    intro p q hpq
    rw [hmembers, List.filter_filter]
    refine List.filter_congr fun id hid => ?_
    rw [free_round hid, ← hpq, Bool.and_comm]
    congr 1
    rw [Bool.eq_iff_iff, decide_eq_true_iff, takes_iff]
  unfold nthRound
  congr 1
  · rw [hfilter (fun k => decide (n ≤ k)) (fun k => decide (n + 1 ≤ k)) fun k => by grind]
    refine List.filterMap_congr fun id hid => ?_
    have hm : id ∈ r.members.ids := (List.mem_filter.mp hid).1
    rw [position?_round, record?_round, if_pos hm, if_neg (Nat.succ_ne_zero n)]
    split <;> rfl
  · exact hfilter (fun k => decide (n < k)) (fun k => decide (n + 1 < k)) fun k => by grind
  · exact hfilter (fun k => decide (k = n)) (fun k => decide (k = n + 1)) fun k => by grind

/-- If everyone has room, the first round is the only one. -/
theorem roundCount_of_room (hne : r.members.ids ≠ []) (hroom : ∀ m ∈ r.members.ids, 0 < r.free m) :
    r.roundCount = 1 := by
  obtain ⟨m, hm⟩ := List.exists_mem_of_ne_nil _ hne
  have hgap : r.gap = 0 := gap_eq_zero hroom
  have hany := r.any_beyond_gap_iff.mpr ⟨m, hm, by rw [hgap]; exact hroom m hm⟩
  rw [roundCount, if_pos hany, hgap]

theorem roundCount_round (h : ∃ m ∈ r.members.ids, r.free m = 0) :
    r.roundCount = r.round.roundCount + 1 := by
  -- Who is left at the gap is left by this round, with one slot less.
  have hleft : (r.members.ids.any fun id => r.gap < r.free id) = true ↔
      (r.round.members.ids.any fun id => r.round.gap < r.round.free id) = true := by
    rw [any_beyond_gap_iff, any_beyond_gap_iff, gap_round h]
    constructor
    · rintro ⟨id, hid, hlt⟩
      exact ⟨id, (mem_round_iff r id).mpr ⟨hid, by omega⟩, by rw [free_round hid]; omega⟩
    · rintro ⟨id, hid, hlt⟩
      obtain ⟨hid, -⟩ := (mem_round_iff r id).mp hid
      rw [free_round hid] at hlt
      exact ⟨id, hid, by omega⟩
  unfold roundCount
  rw [if_congr hleft rfl rfl, gap_round h]
  omega

theorem fanOut_rounds_eq (r : Registry) : r.fanOut.2 = (List.range r.roundCount).map r.nthRound := by
  induction r using fanOut_induction with
  | empty r hempty =>
      have hgap : r.gap = 0 := gap_eq_zero (by simp [hempty])
      have hcount : r.roundCount = 0 := by simp [roundCount, hgap, hempty]
      rw [fanOut_of_empty hempty, hcount]
      rfl
  | taken r hne hall =>
      have hroom : ∀ m ∈ r.members.ids, 0 < r.free m := fun m hm => (r.takes_iff m).mp (hall m hm)
      rw [fanOut_of_taken hne hall, roundCount_of_room hne hroom, ← nthRound_zero]
      rfl
  | refused r hsome ih =>
      have hfull : ∃ m ∈ r.members.ids, r.free m = 0 := by
        obtain ⟨m, hm, ht⟩ := hsome
        have : ¬ 0 < r.free m := fun hp => by simp [(r.takes_iff m).mpr hp] at ht
        exact ⟨m, hm, by omega⟩
      rw [fanOut_of_refused hsome, roundCount_round hfull, List.range_succ_eq_map, List.map_cons,
        nthRound_zero, List.map_map]
      dsimp only
      rw [ih]
      exact congrArg _ (List.map_congr_left fun n _ => nthRound_round r n)

theorem length_fanOut_rounds (r : Registry) : r.fanOut.2.length = r.roundCount := by
  rw [fanOut_rounds_eq, List.length_map, List.length_range]

theorem getElem?_fanOut_rounds (h : n < r.roundCount) : r.fanOut.2[n]? = some (r.nthRound n) := by
  rw [fanOut_rounds_eq, List.getElem?_map, List.getElem?_range h]
  rfl

/-- The pass over an empty registry, in which the fan-out finds that it is over, counts as one. -/
theorem length_fanOut_add (r : Registry) :
    r.fanOut.2.length + (if r.fanOut.1.members.ids = [] then 1 else 0) = r.gap + 1 := by
  have hleft : r.fanOut.1.members.ids = [] ↔
      ¬ (r.members.ids.any fun id => r.gap < r.free id) = true := by
    rw [List.eq_nil_iff_forall_not_mem, any_beyond_gap_iff]
    simp only [mem_fanOut_iff_gap, not_exists]
  rw [length_fanOut_rounds, roundCount]
  by_cases hsome : (r.members.ids.any fun id => r.gap < r.free id) = true
  · rw [if_pos hsome, if_neg (fun he => hleft.mp he hsome)]
  · rw [if_neg hsome, if_pos (hleft.mpr hsome)]

theorem filter_range_lt (count bound : Nat) :
    (List.range count).filter (fun n => n < bound) = (List.range count).take bound := by
  rw [List.take_range]
  induction count with
  | zero => simp
  | succ count ih =>
      rw [List.range_succ, List.filter_append, ih]
      by_cases h : count < bound
      · rw [Nat.min_eq_right (by omega), Nat.min_eq_right (by omega), List.range_succ]
        simp [h]
      · rw [Nat.min_eq_left (by omega), Nat.min_eq_left (by omega)]
        simp [h]

/-- A member takes a batch for every slot it has, as long as there are batches. -/
theorem takenBy_fanOut_eq_take (h : id ∈ r.members.ids) :
    takenBy id r.fanOut.2 = (r.fanOut.2.map Round.batch).take (r.free id) := by
  have htakers : ∀ n, decide (id ∈ (r.nthRound n).takers) = decide (n < r.free id) := by
    intro n
    rw [decide_eq_decide, nthRound, List.mem_filter, decide_eq_true_iff]
    exact and_iff_right h
  rw [takenBy, fanOut_rounds_eq, List.filter_map, List.map_map, List.map_map, ← List.map_take,
    ← filter_range_lt]
  congr 1
  exact List.filter_congr fun n _ => htakers n

theorem Sound.map_id_nthRound (h : r.Sound) (n : Nat) :
    (r.nthRound n).batch.map Record.id = r.members.ids.filter fun id => n ≤ r.free id := by
  refine map_id_filterMap fun id hid => ?_
  obtain ⟨record, hrecord⟩ := Option.isSome_iff_exists.mp (h.known id (List.mem_filter.mp hid).1)
  have hname := h.named id record hrecord
  by_cases hn : n = 0
  · exact ⟨record, by rw [if_pos hn, hrecord], hname⟩
  · exact ⟨record.settled, by rw [if_neg hn, position?, hrecord]; rfl, hname⟩

/-- The first round carries the records as they are, the later ones what is left of them. -/
theorem Sound.record_of_mem_nthRound (h : r.Sound) {record : Record}
    (hrecord : record ∈ (r.nthRound n).batch) :
    if n = 0 then r.record? record.id = some record
    else r.position? record.id = some record ∧ record.delta = .zero := by
  obtain ⟨id, -, hid⟩ := List.mem_filterMap.mp hrecord
  by_cases hn : n = 0
  · rw [if_pos hn] at hid ⊢
    rw [h.named id record hid, hid]
  · rw [if_neg hn] at hid ⊢
    obtain ⟨own, hown, rfl⟩ := Option.map_eq_some_iff.mp hid
    have hname : own.settled.id = id := h.named id own hown
    exact ⟨by rw [hname, hid], rfl⟩

/-- A fan-out goes on up to the gap. Who has more slots stays and gets all batches; who has fewer
gets one for each slot and refuses the next. Each batch holds those who have not refused yet, and
shows the movement in the first round only. -/
theorem fanOut_goes_to_gap (h : r.Sound) :
    let batches := r.fanOut.2.map Round.batch
    (r.fanOut.2.length + (if r.fanOut.1.members.ids = [] then 1 else 0) = r.gap + 1 ∧
        r.gap ≤ r.members.size) ∧
      (∀ id, id ∈ r.fanOut.1.members.ids ↔ id ∈ r.members.ids ∧ r.gap < r.free id) ∧
      (∀ id ∈ r.fanOut.1.members.ids,
        batches.length = r.gap + 1 ∧ r.fanOut.1.pending id = r.pending id ++ batches) ∧
      (∀ n batch, batches[n]? = some batch →
        batch.map Record.id = r.members.ids.filter (fun id => n ≤ r.free id) ∧
          (batch.map Record.id).Pairwise (· < ·) ∧
          ∀ record ∈ batch,
            if n = 0 then r.record? record.id = some record
            else r.position? record.id = some record ∧ record.delta = .zero) ∧
      (∀ id ∈ r.members.ids, id ∉ r.fanOut.1.members.ids →
        (∃ received, received <+: batches ∧ received.length = r.free id ∧
          r.fanOut.1.pending id = r.pending id ++ received) ∧
          ∃ round, r.fanOut.2[r.free id]? = some round ∧ id ∈ round.refusers) ∧
      (r.members.ids = [] → r.fanOut = (r, [])) := by
  intro batches
  have hlength : batches.length = r.roundCount := by
    rw [List.length_map, length_fanOut_rounds]
  have hpending : ∀ id ∈ r.members.ids,
      r.fanOut.1.pending id = r.pending id ++ batches.take (r.free id) := by
    intro id hid
    rw [pending_fanOut, takenBy_fanOut_eq_take hid]
  refine ⟨⟨r.length_fanOut_add, r.gap_le_size⟩, r.mem_fanOut_iff_gap, ?_, ?_, ?_, fanOut_of_empty⟩
  · intro id hid
    obtain ⟨hm, hlt⟩ := (r.mem_fanOut_iff_gap id).mp hid
    have hall : batches.length = r.gap + 1 := by
      rw [hlength, roundCount, if_pos (r.any_beyond_gap_iff.mpr ⟨id, hm, hlt⟩)]
    exact ⟨hall, by rw [hpending id hm, List.take_of_length_le (by omega)]⟩
  · intro n batch hbatch
    rw [List.getElem?_map] at hbatch
    obtain ⟨round, hround, rfl⟩ := Option.map_eq_some_iff.mp hbatch
    have hn : n < r.roundCount := by
      rw [← length_fanOut_rounds]
      exact (List.getElem?_eq_some_iff.mp hround).1
    rw [getElem?_fanOut_rounds hn] at hround
    cases hround
    refine ⟨h.map_id_nthRound n, ?_, fun record => h.record_of_mem_nthRound⟩
    rw [h.map_id_nthRound n]
    exact r.members.ascending.filter _
  · intro id hid hout
    have hlt : r.free id < r.gap := by
      have := free_ne_gap hid
      have : ¬ r.gap < r.free id := fun hlt => hout ((r.mem_fanOut_iff_gap id).mpr ⟨hid, hlt⟩)
      omega
    have hround : r.free id < r.roundCount := Nat.lt_of_lt_of_le hlt (Nat.le_add_right ..)
    refine ⟨⟨batches.take (r.free id), List.take_prefix .., ?_, hpending id hid⟩,
      r.nthRound (r.free id), getElem?_fanOut_rounds hround, ?_⟩
    · rw [List.length_take, hlength]
      omega
    · exact List.mem_filter.mpr ⟨hid, decide_eq_true rfl⟩

/-- Four members: one whose mailbox is closed, two with one slot, of which one has moved, and one with
three slots. Nobody has two. -/
def staggered : Registry where
  members := (((({} : Members).insert 4).insert 3).insert 2).insert 1
  clients := ⟨[(1, (Client.create 1 .zero .zero 4).closeMailbox), (2, .create 2 .zero .zero 1),
    (3, (Client.create 3 .zero .zero 1).merge ⟨3, .zero, .zero, ⟨0x3ff0000000000000⟩⟩),
    (4, .create 4 .zero .zero 3)]⟩

theorem fanOut_of_staggered :
    staggered.Sound ∧ staggered.gap = 2 ∧ 4 ∈ staggered.fanOut.1.members.ids ∧
      (∃ received, received.length = 1 ∧ staggered.fanOut.1.pending 3 = received) ∧
      ∃ first second third : Batch, staggered.fanOut.1.pending 4 = [first, second, third] ∧
        first.map Record.id = [1, 2, 3, 4] ∧ second.map Record.id = [2, 3, 4] ∧
        third.map Record.id = [4] ∧ (∀ record ∈ second, record.delta = .zero) := by
  have hsound : staggered.Sound := sound_of_entries (by decide +kernel) (by decide +kernel)
  have hmembers : staggered.members.ids = [1, 2, 3, 4] := by decide +kernel
  have hgap : staggered.gap = 2 := gap_eq (by decide +kernel) (by decide +kernel)
  obtain ⟨-, hstay, hkept, hbatches, hlost, -⟩ := fanOut_goes_to_gap hsound
  have hlast : 4 ∈ staggered.fanOut.1.members.ids :=
    (hstay 4).mpr ⟨by rw [hmembers]; decide, by rw [hgap]; decide +kernel⟩
  have hthird : 3 ∉ staggered.fanOut.1.members.ids := by
    rw [hstay, hgap]
    decide +kernel
  obtain ⟨⟨received, -, hlength, hreceived⟩, -⟩ := hlost 3 (by rw [hmembers]; decide) hthird
  obtain ⟨hcount, hpending⟩ := hkept 4 hlast
  rw [hgap] at hcount
  obtain ⟨first, second, third, hthree⟩ := List.length_eq_three.mp hcount
  obtain ⟨hfirst, -, -⟩ := hbatches 0 first (by rw [hthree]; rfl)
  obtain ⟨hsecond, -, hsettled⟩ := hbatches 1 second (by rw [hthree]; rfl)
  obtain ⟨hlastly, -, -⟩ := hbatches 2 third (by rw [hthree]; rfl)
  refine ⟨hsound, hgap, hlast, ⟨received, ?_, hreceived⟩, first, second, third, ?_, ?_, ?_, ?_, ?_⟩
  · rw [hlength]
    decide +kernel
  · rw [hpending, hthree]
    rfl
  · rw [hfirst]
    decide +kernel
  · rw [hsecond]
    decide +kernel
  · rw [hlastly]
    decide +kernel
  · intro record hrecord
    have := hsettled record hrecord
    rw [if_neg Nat.one_ne_zero] at this
    exact this.2

end

end PositionRelay.Registry
