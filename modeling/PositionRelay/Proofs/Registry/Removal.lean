import PositionRelay.Proofs.Network.Shutdown
import PositionRelay.Proofs.Registry.Refresh
import PositionRelay.Proofs.Registry.Stages

/-!
# Members, removed and stopped

A client that is a member when a request comes, or is made one by it, has one of three outcomes: it
stays and is told nothing, it is removed and told to stop, or it leaves by its own request and is told
nothing. Which one it is can be read off the request and the refusals of its rounds, so no client has
two outcomes (`outcome_unique`) and none goes without (`exists_outcome`). Everyone else is left alone
altogether (`get?_handle_of_outsider`), and a registry that has shut down is never changed by a request
again.
-/
namespace PositionRelay

/-- What becomes of a member under a request. -/
inductive MemberOutcome where
  | stays
  /-- Removed and told to stop. -/
  | stopped
  | left
deriving DecidableEq, Repr

/-- Nothing but its own leave unmakes a member that refuses nothing. -/
theorem Request.keeps_of_ne_leave {id : ClientId} {member : Prop} {request : Request}
    (h : member ∨ request = .join id) (hleave : request ≠ .leave id) : request.keeps id member := by
  cases request with
  | join j => exact h.imp_right fun hj => by injection hj
  | leave j => exact ⟨h.resolve_right nofun, fun hj => hleave (by rw [hj])⟩
  | broadcast | count | shutDown => exact h.resolve_right nofun

namespace Registry

variable {r : Registry} {id : ClientId} {request : Request}

/-- The request brings about an outcome for a client. -/
def Meets (r : Registry) (request : Request) (id : ClientId) : MemberOutcome → Prop
  | .stays =>
      id ∈ (r.handle request).registry.members.ids ∧
        (r.handle request).registry.flags? id = r.flags? id
  | .stopped =>
      id ∉ (r.handle request).registry.members.ids ∧
        (refusedIn id (r.handle request).rounds = true ∨ request = .shutDown) ∧
        (r.handle request).registry.flags? id = some .raised
  | .left =>
      id ∉ (r.handle request).registry.members.ids ∧ request = .leave id ∧
        (r.handle request).registry.flags? id = r.flags? id

theorem refusedIn_fanOut_of_notMem (h : id ∉ r.members.ids) : refusedIn id r.fanOut.2 = false :=
  refusedIn_eq_false (offersTo_fanOut_of_notMem h)

/-- Whoever leaves is offered nothing any more. -/
theorem refusedIn_leave (r : Registry) (id : ClientId) :
    refusedIn id (r.handle (.leave id)).rounds = false := by
  unfold handle
  split
  · rfl
  · refine refusedIn_fanOut_of_notMem fun hid => ?_
    exact ((mem_erase_iff ..).mp hid).2 rfl

theorem outcome_unique {a b : MemberOutcome} (ha : r.Meets request id a) (hb : r.Meets request id b) :
    a = b := by
  have apart : r.Meets request id .stopped → ¬ r.Meets request id .left := by
    rintro ⟨-, hcause, -⟩ ⟨-, rfl, -⟩
    rw [refusedIn_leave] at hcause
    rcases hcause with hrefused | hshut
    · cases hrefused
    · cases hshut
  cases a <;> cases b
  case stays.stays | stopped.stopped | left.left => rfl
  case stays.stopped | stays.left => exact absurd ha.1 hb.1
  case stopped.stays | left.stays => exact absurd hb.1 ha.1
  case stopped.left => exact absurd hb (apart ha)
  case left.stopped => exact absurd ha (apart hb)

theorem exists_outcome (hrunning : r.running = true) (hclient : (r.clients.get? id).isSome)
    (hmember : id ∈ r.members.ids ∨ request = .join id) : ∃ o, r.Meets request id o := by
  obtain ⟨f, hf⟩ : ∃ f, r.flags? id = some f := by
    obtain ⟨c, hc⟩ := Option.isSome_iff_exists.mp hclient
    exact ⟨c.flags, by rw [flags?, hc]; rfl⟩
  by_cases hshut : request = .shutDown
  · have hmem : id ∈ r.members.ids := hmember.resolve_right (by simp [hshut])
    have hafter : (r.handle request).registry = r.shutDown := by
      rw [hshut, handle, if_neg (by simp [hrunning])]
    refine ⟨.stopped, ?_, .inr hshut, ?_⟩
    · rw [hafter]
      exact List.not_mem_nil
    · rw [hafter, flags?_shutDown, if_pos hmem, hf]
      rfl
  · have hplace := mem_handle_iff hrunning hshut fun _ => hclient
    have hflags := flags?_handle r hshut id
    cases hrefused : refusedIn id (r.handle request).rounds with
    | true =>
        rw [hrefused] at hplace hflags
        refine ⟨.stopped, by simp [hplace], .inl hrefused, ?_⟩
        rw [hflags, if_pos rfl, hf]
        rfl
    | false =>
        rw [hrefused, if_neg Bool.false_ne_true] at hflags
        rw [hrefused, and_iff_left rfl] at hplace
        by_cases hleave : request = .leave id
        · refine ⟨.left, ?_, hleave, hflags⟩
          rw [hplace, hleave]
          exact fun h => h.2 rfl
        · exact ⟨.stays, hplace.mpr (Request.keeps_of_ne_leave hmember hleave), hflags⟩

theorem get?_fanOut_of_notMem (h : id ∉ r.members.ids) :
    r.fanOut.1.clients.get? id = r.clients.get? id := by
  have hround : ∀ r : Registry, id ∉ r.members.ids →
      r.round.clients.get? id = r.clients.get? id := by
    intro r h
    rw [get?_round]
    simp [h]
  induction r using fanOut_induction with
  | empty r hempty => rw [fanOut_of_empty hempty]
  | taken r hne hall =>
      rw [fanOut_of_taken hne hall]
      exact hround r h
  | refused r hsome ih =>
      rw [fanOut_of_refused hsome]
      exact (ih fun hid => h (List.mem_filter.mp hid).1).trans (hround r h)

/-- Whoever is no member and does not join is left alone: cell, mailbox and flags. -/
theorem get?_handle_of_outsider (hout : id ∉ r.members.ids) (hjoin : request ≠ .join id) :
    (r.handle request).registry.clients.get? id = r.clients.get? id := by
  unfold handle
  split
  · rfl
  cases request with
  | join j =>
      have hne : id ≠ j := by
        rintro rfl
        exact hjoin rfl
      have hgrown : id ∉ (r.members.insert j).ids := by
        rw [mem_insert_iff, not_or]
        exact ⟨hout, hne.symm⟩
      change (r.join j).1.clients.get? id = _
      cases hj : r.clients.get? j with
      | none => rw [join_of_unknown hj]
      | some c =>
          cases hoffer : c.offer [c.record] with
          | ok d =>
              rw [join_of_taken hj hoffer]
              dsimp only
              rw [get?_fanOut_of_notMem hgrown]
              simp [hne]
          | error why =>
              have hevicted : id ∉ ((r.members.insert j).erase j).ids := by
                rw [mem_erase_iff]
                exact fun h => hgrown h.1
              rw [join_of_refused hj hoffer]
              dsimp only
              rw [get?_fanOut_of_notMem hevicted]
              simp [evict, hne]
  | leave j =>
      have herased : id ∉ (r.members.erase j).ids := by
        rw [mem_erase_iff]
        exact fun h => hout h.1
      exact get?_fanOut_of_notMem herased
  | broadcast => exact get?_fanOut_of_notMem hout
  | count => rfl
  | shutDown => simp [shutDown, hout]

/-- Clients stay where they are under the identifier they have. -/
theorem exists_client_in_place (r : Registry) (request : Request) {c : Client}
    (hc : r.clients.get? id = some c) :
    ∃ d, (r.handle request).registry.clients.get? id = some d ∧ d.record.id = c.record.id ∧
      d.record.x = c.record.x ∧ d.record.y = c.record.y := by
  have hplace : (r.handle request).registry.position? id = some c.record.settled := by
    rw [position?_handle, position?, record?, hc]
    rfl
  obtain ⟨record, hrecord, hsettled⟩ := Option.map_eq_some_iff.mp hplace
  obtain ⟨d, hd, rfl⟩ := Option.map_eq_some_iff.mp hrecord
  obtain ⟨hid, hx, hy, -⟩ := Record.mk.inj hsettled
  exact ⟨d, hd, hid, hx, hy⟩

end Registry

theorem Registry.handle_of_closed {r : Registry} (h : r.running = false) (request : Request) :
    r.handle request = { registry := r } := by
  unfold handle
  exact if_pos (by simp [h])

namespace Network

theorem running_react_of_closed {n : Network} (h : n.registry.running = false) (e : Event) :
    (n.react e).registry.running = false := by
  rcases n.handles_or_waits e with ⟨-, hm⟩ | hw
  · obtain ⟨request, rest, -, hregistry, -, -, -⟩ := registryStep?_eq_some hm
    rw [hregistry, Registry.handle_of_closed h]
    exact h
  · rw [hw.running]
    exact h

theorem running_after_of_closed {n : Network} (h : n.registry.running = false)
    (events : List Event) : (n.after events).registry.running = false :=
  run_induction (P := fun _ m => m.registry.running = false) (Q := fun _ _ => True)
    (fun _ _ e h _ => running_react_of_closed h e) h events fun _ _ => trivial

/-- A closed registry turns every request down and stays as it is. -/
theorem ask_of_closed {n : Network} (h : n.registry.running = false) (request : Request) :
    n.ask request = .error .closed ∧ n.react (.move (.ask request)) = n ∧
      n.registry.handle request = { registry := n.registry } := by
  refine ⟨by simp [ask, h], ?_, Registry.handle_of_closed h request⟩
  rw [react, make_ask, enqueue]
  exact if_neg (by simp [h])

end Network

namespace Registry

/-- A client that was a member, or is made one by the request, has exactly one outcome. All others
are left alone, nobody's identifier or place changes, and after a shutdown no request is taken and
none changes anything, whatever else happens. -/
theorem removed_as_stopped {r : Registry} (hrunning : r.running = true) (hsound : r.Sound)
    (request : Request) :
    (∀ id, id ∈ r.members.ids ∨ request = .join id ∧ (r.clients.get? id).isSome →
      ∃! o, r.Meets request id o) ∧
    (∀ id, id ∉ r.members.ids → request ≠ .join id →
      (r.handle request).registry.clients.get? id = r.clients.get? id) ∧
    (∀ id c, r.clients.get? id = some c →
      ∃ d, (r.handle request).registry.clients.get? id = some d ∧ d.record.id = c.record.id ∧
        d.record.x = c.record.x ∧ d.record.y = c.record.y) ∧
    (request = .shutDown → ∀ n : Network, n.registry = (r.handle request).registry →
      ∀ events later,
        let m := n.after events
        m.ask later = .error .closed ∧ m.react (.move (.ask later)) = m ∧
          m.registry.handle later = { registry := m.registry }) := by
  refine ⟨?_, fun id => get?_handle_of_outsider, fun id c => exists_client_in_place r request, ?_⟩
  · intro id hid
    have hclient : (r.clients.get? id).isSome := by
      rcases hid with hmember | ⟨-, hknown⟩
      · simpa [record?] using hsound.known id hmember
      · exact hknown
    obtain ⟨o, ho⟩ := exists_outcome hrunning hclient (hid.imp_right And.left)
    exact ⟨o, ho, fun other hother => outcome_unique hother ho⟩
  · intro hshut n hn events later
    have hclosed : n.registry.running = false := by
      rw [hn, ← Bool.not_eq_true, running_handle hrunning]
      exact fun h => h hshut
    exact Network.ask_of_closed (Network.running_after_of_closed hclosed events) later

/-- Three members, of which the first one's mailbox is closed, and one client that is no member. -/
def mixed : Registry where
  members := ((({} : Members).insert 3).insert 2).insert 1
  clients := ⟨[(1, (Client.create 1 .zero .zero 4).closeMailbox), (2, .create 2 .zero .zero 4),
    (3, .create 3 .zero .zero 4), (4, .create 4 .zero .zero 4)]⟩

theorem outcomes_of_mixed :
    mixed.running = true ∧ mixed.Sound ∧ mixed.members.ids = [1, 2, 3] ∧
      (∀ o, mixed.Meets (.leave 2) 1 o ↔ o = .stopped) ∧
      (∀ o, mixed.Meets (.leave 2) 2 o ↔ o = .left) ∧
      (∀ o, mixed.Meets (.leave 2) 3 o ↔ o = .stays) ∧
      (mixed.handle (.leave 2)).registry.clients.get? 4 = some (.create 4 .zero .zero 4) ∧
      ∀ later, ({ registry := (mixed.handle .shutDown).registry } : Network).ask later =
        .error .closed := by
  have hrunning : mixed.running = true := rfl
  have hsound : mixed.Sound := sound_of_entries (by decide +kernel) (by decide +kernel)
  have hmembers : mixed.members.ids = [1, 2, 3] := by decide +kernel
  obtain ⟨honce, hout, -, -⟩ := removed_as_stopped hrunning hsound (.leave 2)
  obtain ⟨-, -, -, hclosed⟩ := removed_as_stopped hrunning hsound .shutDown
  have only : ∀ {id o}, id ∈ mixed.members.ids → mixed.Meets (.leave 2) id o →
      ∀ other, mixed.Meets (.leave 2) id other ↔ other = o := by
    intro id o hid ho other
    refine ⟨fun h => (honce id (.inl hid)).unique h ho, ?_⟩
    rintro rfl
    exact ho
  rw [hmembers] at only
  refine ⟨hrunning, hsound, hmembers, only (by decide) ?_, only (by decide) ?_,
    only (by decide) ?_, hout 4 (by rw [hmembers]; decide) (by decide),
    fun later => (hclosed rfl _ rfl [] later).1⟩
  · exact ⟨by decide +kernel, .inl (by decide +kernel), by decide +kernel⟩
  · exact ⟨by decide +kernel, rfl, by decide +kernel⟩
  · exact ⟨by decide +kernel, by decide +kernel⟩

end Registry
end PositionRelay
