import PositionRelay.Proofs.Network.Step
import PositionRelay.Proofs.Registry.Room

/-!
# Mailboxes with little room

Two requests that do nothing to anyone's mailbox on purpose can still fail for lack of room.

A join sends its newcomer two batches before anything can be taken out of its mailbox, its own record
and a snapshot. A configuration is valid if mailboxes hold at least one batch, but with mailboxes of
exactly one slot every newcomer is evicted by its own join (`join_of_fresh`).

The leave of someone who is no member removes nobody, but it sends a snapshot all the same. It leaves
the members as they are if and only if all of them have a free slot (`members_leave_of_absent_iff`).
-/
namespace PositionRelay

theorem Config.mailboxCapacity_pos {config : Config} (h : config.validate = .ok ()) :
    0 < config.mailboxCapacity := by
  refine Nat.pos_of_ne_zero fun hzero => ?_
  rw [Config.validate, if_pos hzero] at h
  cases h

/-- A newcomer that takes its own record stays if and only if it has a slot left for the snapshot, as
long as nobody else is without one. -/
theorem Registry.mem_handle_join_iff {r : Registry} {id : ClientId} (hrunning : r.running = true)
    (hfree : 0 < r.free id) (hroom : ∀ j ∈ r.members.ids, 0 < r.free j) :
    id ∈ (r.handle (.join id)).registry.members.ids ↔ 1 < r.free id := by
  have hjoin : ∀ j, Request.join id = .join j → 0 < r.free j := by
    intro j hj
    cases hj
    exact hfree
  have hon : Request.join id ≠ .shutDown := by simp
  have henact := free_enact hrunning hon hjoin
  have hmem := mem_enact_iff_keeps hrunning hon hjoin
  rw [(r.handle_eq_enact (.join id)).1, enact_announces hrunning hon hjoin]
  change id ∈ (r.enact (.join id)).1.fanOut.1.members.ids ↔ _
  rw [mem_fanOut_iff, hmem, henact, if_pos rfl]
  constructor
  · rintro ⟨-, gap, hlt, -⟩
    omega
  · intro hlt
    refine ⟨.inr rfl, 0, by omega, fun j hj => ?_⟩
    rw [henact]
    rcases (hmem j).mp hj with hold | rfl
    · have := hroom j hold
      split
      · next he =>
          cases he
          omega
      · omega
    · rw [if_pos rfl]
      omega

namespace Network

/-- Under a valid configuration a connection is built as long as there are identifiers. If its client
is as it was built when its join is handled, and every member has room for one batch, then it is a
member afterwards and has not been told to stop, except that with a mailbox of a single slot it is
evicted and told. -/
theorem join_of_fresh {n : Network} {config : Config} (hvalid : config.validate = .ok ())
    (hleft : 0 < n.ids.upcoming) (buffer drawX drawY : Nat) :
    let id := n.ids.upcoming
    let m := n.built config buffer drawX drawY
    n.accept config buffer drawX drawY = .ok (id, m) ∧
      ∀ r : Registry, r.running = true → r.clients.get? id = m.client? id →
        (∀ j ∈ r.members.ids, 0 < r.free j) →
        let joined := (r.handle (.join id)).registry
        if config.mailboxCapacity = 1 then
          id ∉ joined.members.ids ∧ joined.flags? id = some .raised
        else id ∈ joined.members.ids ∧ joined.flags? id = some .clear := by
  intro id m
  have hbuilt : n.accept config buffer drawX drawY = .ok (id, m) := by
    simp only [accept, hvalid, IdentifierSource.issue?, if_pos hleft]
    rfl
  refine ⟨hbuilt, ?_⟩
  intro r hrunning hfresh hroom joined
  rw [client?_built, if_pos rfl] at hfresh
  have hcapacity : 0 < config.mailboxCapacity := config.mailboxCapacity_pos hvalid
  have hfree : r.free id = config.mailboxCapacity := by
    rw [Registry.free, hfresh]
    rfl
  have hflags : r.flags? id = some .clear := by
    rw [Registry.flags?, hfresh]
    rfl
  have hstays : id ∈ joined.members.ids ↔ 1 < config.mailboxCapacity := by
    rw [← hfree]
    exact Registry.mem_handle_join_iff hrunning (by omega) hroom
  have hfate : Registry.Fate id r joined ((Request.join id).keeps id (id ∈ r.members.ids)) :=
    Registry.fate_handle hrunning fun _ => by rw [hfresh]; rfl
  split
  · next hone =>
      have hout : id ∉ joined.members.ids := fun hin => by
        have := hstays.mp hin
        omega
      rcases hfate with ⟨hkept, -⟩ | ⟨-, -, htold⟩
      · exact absurd (hkept.mpr (.inr rfl)) hout
      · exact ⟨hout, by rw [htold, hflags]; rfl⟩
  · next hmore =>
      have hin : id ∈ joined.members.ids := hstays.mpr (by omega)
      rcases hfate with ⟨-, hsame⟩ | ⟨-, hout, -⟩
      · exact ⟨hin, hsame.trans hflags⟩
      · exact absurd hin hout

/-- A network with one member, which has read nothing and has room for one batch. -/
def oneGuest : Network :=
  ({} : Network).after
    [.move (.build { mailboxCapacity := 3 } 256 0 0), .move (.ask (.join 1)), .task .registry]

theorem join_of_fresh_beside_oneGuest :
    oneGuest.registry.members.ids = [1] ∧ oneGuest.registry.free 1 = 1 ∧
      ({ mailboxCapacity := 1 } : Config).validate = .ok () ∧
      ({ mailboxCapacity := 2 } : Config).validate = .ok () ∧
      (let r := (oneGuest.built { mailboxCapacity := 1 } 256 0 0).registry
       2 ∉ (r.handle (.join 2)).registry.members.ids ∧
        (r.handle (.join 2)).registry.flags? 2 = some .raised) ∧
      (let r := (oneGuest.built { mailboxCapacity := 2 } 256 0 0).registry
       2 ∈ (r.handle (.join 2)).registry.members.ids ∧
        (r.handle (.join 2)).registry.flags? 2 = some .clear) := by
  have hone : ({ mailboxCapacity := 1 } : Config).validate = .ok () := by decide +kernel
  have htwo : ({ mailboxCapacity := 2 } : Config).validate = .ok () := by decide +kernel
  have hmembers : oneGuest.registry.members.ids = [1] := by decide +kernel
  have hfree : oneGuest.registry.free 1 = 1 := by decide +kernel
  have hleft : 0 < oneGuest.ids.upcoming := by decide +kernel
  have hnext : oneGuest.ids.upcoming = 2 := by decide +kernel
  obtain ⟨-, hsmall⟩ := join_of_fresh hone hleft 256 0 0
  obtain ⟨-, hlarge⟩ := join_of_fresh htwo hleft 256 0 0
  rw [hnext] at hsmall hlarge
  have hroom : ∀ r : Registry, r.members.ids = [1] → r.free 1 = 1 →
      ∀ j ∈ r.members.ids, 0 < r.free j := by
    intro r hids hslot j hj
    rw [hids, List.mem_singleton] at hj
    rw [hj, hslot]
    exact Nat.one_pos
  exact ⟨hmembers, hfree, hone, htwo,
    hsmall _ (by decide +kernel) rfl (hroom _ (by decide +kernel) (by decide +kernel)),
    hlarge _ (by decide +kernel) rfl (hroom _ (by decide +kernel) (by decide +kernel))⟩

end Network

theorem Members.eq_of_ids {m s : Members} (h : m.ids = s.ids) : m = s := by
  cases m
  cases s
  cases h
  rfl

theorem Members.erase_of_notMem {m : Members} {id : ClientId} (h : id ∉ m.ids) : m.erase id = m := by
  refine Members.eq_of_ids (List.filter_eq_self.mpr fun j hj => ?_)
  rw [bne_iff_ne]
  rintro rfl
  exact h hj

namespace Registry

/-- The leave of someone who is no member is a broadcast, and changes the members unless everyone has
a free slot. -/
theorem members_leave_of_absent_iff {r : Registry} {id : ClientId} (hrunning : r.running = true)
    (hout : id ∉ r.members.ids) :
    ((r.handle (.leave id)).registry = (r.handle .broadcast).registry ∧
        (r.handle (.leave id)).rounds = (r.handle .broadcast).rounds) ∧
      ((r.handle (.leave id)).registry.members = r.members ↔ ∀ j ∈ r.members.ids, 0 < r.free j) := by
  have hleave : r.leave id = r.fanOut := by rw [leave, Members.erase_of_notMem hout]
  have hregistry : (r.handle (.leave id)).registry = r.fanOut.1 := by simp [handle, hrunning, hleave]
  refine ⟨by simp [handle, hrunning, hleave], ?_⟩
  rw [hregistry]
  constructor
  · intro hsame j hj
    rw [← hsame, mem_fanOut_iff] at hj
    obtain ⟨-, gap, hlt, -⟩ := hj
    omega
  · exact fun hroom => Members.eq_of_ids (members_fanOut_of_room hroom)

/-- Two connections with the same number of slots are made members, and the first one is made to leave.
The second one has read nothing. -/
def departure (mailboxCapacity : Nat) : Registry :=
  (({} : Network).after
    [.move (.build { mailboxCapacity } 256 0 0), .move (.build { mailboxCapacity } 256 0 0),
      .move (.ask (.join 1)), .task .registry, .move (.ask (.join 2)), .task .registry,
      .move (.ask (.leave 1)), .task .registry]).registry

/-- With four slots nobody minds that the first one is made to leave again. -/
theorem members_kept_in_second_leave :
    (departure 4).running = true ∧ 1 ∉ (departure 4).members.ids ∧
      (departure 4).members.ids = [2] ∧
      ((departure 4).handle (.leave 1)).registry.members = (departure 4).members := by
  have hrunning : (departure 4).running = true := by decide +kernel
  have hout : 1 ∉ (departure 4).members.ids := by decide +kernel
  have hmembers : (departure 4).members.ids = [2] := by decide +kernel
  have hfree : (departure 4).free 2 = 1 := by decide +kernel
  refine ⟨hrunning, hout, hmembers, (members_leave_of_absent_iff hrunning hout).2.mpr ?_⟩
  intro j hj
  rw [hmembers, List.mem_singleton] at hj
  rw [hj, hfree]
  exact Nat.one_pos

/-- With three slots this evicts the second one. -/
theorem members_lost_to_second_leave :
    (departure 3).running = true ∧ 1 ∉ (departure 3).members.ids ∧
      (departure 3).members.ids = [2] ∧
      ((departure 3).handle (.leave 1)).registry.members.ids = [] := by
  decide +kernel

end Registry
end PositionRelay
