import PositionRelay.Proofs.Network.Step
import PositionRelay.Proofs.Registry.Fate

/-!
# Where a connection stands with the registry

A connection and the registry know of each other through the flags of its client, through its
membership, and through the requests about it that still wait in the queue. There are six ways in
which these go together (`Standing`). A connection that is not closing is a member or about to join,
and nothing about it is left to say. One that is closing has each live side told to stop, and unless it
is no member and will not be one, a request to remove it waits behind everything else about it.

Turns of the connection and requests handled by the registry lead from standing to standing.
-/
namespace PositionRelay

/-- The request makes one client a member or unmakes it. -/
def Request.concerns (id : ClientId) : Request → Bool
  | .join j => j == id
  | .leave j => j == id
  | _ => false

theorem Request.keeps_of_unconcerned {id : ClientId} {request : Request}
    (h : request.concerns id = false) (member : Prop) : request.keeps id member ↔ member := by
  cases request with
  | join j => simp_all [concerns, keeps]
  | leave j => simp_all [concerns, keeps]
  | broadcast => rfl
  | count => rfl
  | shutDown => rfl

/-- A connection that is on its way to its end. -/
structure Ending (f : Flags) (p : Phase) : Prop where
  started : p.isStarted = true
  closing : f.closing = true
  told : ∀ side, p.isLive side = true → f.tells side = true

/-- Where a connection stands with the registry, by the requests about it that wait. -/
inductive Standing (id : ClientId) (f : Flags) (p : Phase) (member : Prop) : List Request → Prop
  | outside : p.isStarted = false → f = .clear → ¬ member → Standing id f p member []
  | joining : (∀ side, p.isLive side = true) → f = .clear → ¬ member →
      Standing id f p member [.join id]
  | present : (∀ side, p.isLive side = true) → f = .clear → member → Standing id f p member []
  /-- Failed before the registry came to its join. -/
  | hasty : Ending f p → ¬ member → Standing id f p member [.join id, .leave id]
  | leaving : Ending f p → Standing id f p member [.leave id]
  | gone : Ending f p → ¬ member → Standing id f p member []

section
variable {id : ClientId} {f g : Flags} {p q : Phase} {member member' : Prop}

/-- A request about the client is handled. -/
theorem Standing.handle_own {request : Request} {rest : List Request}
    (h : Standing id f p member (request :: rest))
    (hfate : ((member' ↔ request.keeps id member) ∧ g = f) ∨
      (request.keeps id member ∧ ¬ member' ∧ g = .raised)) :
    Standing id g p member' rest := by
  cases h with
  | joining hlive hclear hm =>
      rcases hfate with ⟨hm', rfl⟩ | ⟨-, hm', rfl⟩
      · exact .present hlive hclear (hm'.mpr (.inr rfl))
      · have hstarted := Phase.isStarted_of_isRunning (Phase.isRunning_of_isLive (hlive .read))
        exact .gone ⟨hstarted, rfl, fun side _ => Flags.tells_raised side⟩ hm'
  | hasty hend hm =>
      rcases hfate with ⟨-, rfl⟩ | ⟨-, -, rfl⟩
      · exact .leaving hend
      · exact .leaving ⟨hend.started, rfl, fun side _ => Flags.tells_raised side⟩
  | leaving hend =>
      rcases hfate with ⟨hm', rfl⟩ | ⟨hm, -, -⟩
      · exact .gone hend (fun hm => (hm'.mp hm).2 rfl)
      · exact absurd rfl hm.2

/-- A request about someone else is handled; the client may be evicted by it. -/
theorem Standing.handle_other {dues : List Request} (h : Standing id f p member dues)
    (hfate : ((member' ↔ member) ∧ g = f) ∨ (member ∧ ¬ member' ∧ g = .raised)) :
    Standing id g p member' dues := by
  rcases hfate with ⟨hm, rfl⟩ | ⟨hm, hm', rfl⟩
  · rw [propext hm]
    exact h
  · cases h with
    | outside _ _ hno => exact absurd hm hno
    | joining _ _ hno => exact absurd hm hno
    | hasty _ hno => exact absurd hm hno
    | gone _ hno => exact absurd hm hno
    | present hlive _ _ =>
        have hstarted := Phase.isStarted_of_isRunning (Phase.isRunning_of_isLive (hlive .read))
        exact .gone ⟨hstarted, rfl, fun side _ => Flags.tells_raised side⟩ hm'
    | leaving hend => exact .leaving ⟨hend.started, rfl, fun side _ => Flags.tells_raised side⟩

/-- The requests that wait are thrown away, with no join among them. -/
theorem Standing.shutDown {dues : List Request} (h : Standing id f p member dues)
    (hjoin : .join id ∉ dues)
    (hfate : ((member' ↔ member) ∧ g = f) ∨ (member ∧ ¬ member' ∧ g = .raised))
    (hnone : ¬ member') : Standing id g p member' [] := by
  have hs := h.handle_other hfate
  cases hs with
  | outside hp hf hm => exact .outside hp hf hm
  | joining => simp at hjoin
  | present _ _ hm => exact absurd hm hnone
  | hasty => simp at hjoin
  | leaving hend => exact .gone hend hnone
  | gone hend hm => exact .gone hend hm

end

theorem Connection.Outcome.isStarted {id : ClientId} {c : Client} {k : Connection} {t : Turn}
    (h : k.Outcome id c t) : k.phase.isStarted = true := by
  cases h with
  | goesOn running => exact Phase.isStarted_of_isRunning running
  | told _ live => exact Phase.isStarted_of_isRunning (Phase.isRunning_of_isLive live)
  | failed _ live => exact Phase.isStarted_of_isRunning (Phase.isRunning_of_isLive live)

/-- A turn sends no request about any client but its own. -/
theorem Connection.Outcome.concerns_other {id j : ClientId} {c : Client} {k : Connection} {t : Turn}
    (h : k.Outcome id c t) (hj : j ≠ id) : t.requests.filter (Request.concerns j) = [] := by
  rw [List.filter_eq_nil_iff]
  intro request hr
  cases h with
  | goesOn _ _ _ requests =>
      rw [requests request hr]
      simp [Request.concerns]
  | told _ _ _ _ _ _ requests => simp [requests] at hr
  | failed _ _ _ _ _ requests =>
      rw [requests, Connection.farewell] at hr
      split at hr
      · cases hr
      · rw [List.mem_singleton.mp hr]
        simpa [Request.concerns] using hj.symm

/-- Connections join by being run, not in a turn. -/
theorem Connection.Outcome.ne_join {id : ClientId} {c : Client} {k : Connection} {t : Turn}
    (h : k.Outcome id c t) {request : Request} (hr : request ∈ t.requests) (j : ClientId) :
    request ≠ .join j := by
  cases h with
  | goesOn _ _ _ requests => simp [requests request hr]
  | told _ _ _ _ _ _ requests => simp [requests] at hr
  | failed _ _ _ _ _ requests =>
      rw [requests, Connection.farewell] at hr
      split at hr
      · cases hr
      · simp [List.mem_singleton.mp hr]

/-- A connection that is closing asks for nothing. -/
theorem Connection.Outcome.concerns_of_closing {id : ClientId} {c : Client} {k : Connection}
    {t : Turn} (h : k.Outcome id c t) (hc : c.flags.closing = true) :
    t.requests.filter (Request.concerns id) = [] := by
  cases h with
  | goesOn _ _ _ requests =>
      rw [List.filter_eq_nil_iff]
      intro request hr
      rw [requests request hr]
      simp [Request.concerns]
  | told _ _ _ _ _ _ requests => rw [requests]; rfl
  | failed _ _ _ _ _ requests =>
      have hclosing : c.closing = true := hc
      simp [requests, Connection.farewell, hclosing]

theorem Ending.turn {id : ClientId} {c : Client} {k : Connection} {t : Turn}
    (h : Ending c.flags k.phase) (ho : k.Outcome id c t) (he : t.connection.Entered) :
    Ending t.client.flags t.connection.phase := by
  -- A side that has just stopped is not live, and the other one is as live as before.
  have hlive : ∀ ended side : Side, t.connection.phase.isLive ended = false →
      t.connection.phase.isLive ended.other = k.phase.isLive ended.other →
      t.connection.phase.isLive side = true → k.phase.isLive side = true := by
    intro ended side hend hother hs
    rcases Client.eq_or_eq_other ended side with rfl | rfl
    · rw [hend] at hs
      cases hs
    · rw [← hother]
      exact hs
  cases ho with
  | goesOn _ flags live _ =>
      rw [flags]
      exact ⟨he.isStarted, h.closing, fun side hs => h.told side ((live side).symm.trans hs)⟩
  | told side _ _ flags ended other _ =>
      rw [flags]
      exact ⟨he.isStarted, h.closing, fun s hs => h.told s (hlive side s ended other hs)⟩
  | failed side _ flags ended other _ =>
      rw [flags, Client.flags_fail_of_closing h.closing]
      exact ⟨he.isStarted, h.closing, fun s hs => h.told s (hlive side s ended other hs)⟩

/-- A connection that has not begun to close goes on in silence, or fails and asks to be removed. -/
theorem Connection.Outcome.of_clear {id : ClientId} {c : Client} {k : Connection} {t : Turn}
    (h : k.Outcome id c t) (he : t.connection.Entered) (hclear : c.flags = .clear) :
    (t.client.flags = .clear ∧
      (∀ side, t.connection.phase.isLive side = k.phase.isLive side) ∧
      t.requests.filter (Request.concerns id) = []) ∨
    (Ending t.client.flags t.connection.phase ∧
      t.requests.filter (Request.concerns id) = [.leave id]) := by
  have hopen : c.closing = false := congrArg Flags.closing hclear
  cases h with
  | goesOn _ flags live requests =>
      refine .inl ⟨flags.trans hclear, live, ?_⟩
      rw [List.filter_eq_nil_iff]
      intro request hr
      rw [requests request hr]
      simp [Request.concerns]
  | told side _ told =>
      rw [hclear] at told
      simp at told
  | failed side _ flags ended _ requests =>
      refine .inr ⟨⟨he.isStarted, by rw [flags]; exact c.closing_fail side, ?_⟩, ?_⟩
      · -- The side that failed has stopped, and the other one is told to.
        intro s hs
        rw [flags]
        rcases Client.eq_or_eq_other side s with rfl | rfl
        · rw [ended] at hs
          cases hs
        · exact Client.tells_fail hopen side
      · simp [requests, Connection.farewell, hopen, Request.concerns]

theorem Standing.turn {id : ClientId} {c : Client} {k : Connection} {t : Turn} {member : Prop}
    {dues : List Request} (h : Standing id c.flags k.phase member dues) (ho : k.Outcome id c t)
    (he : t.connection.Entered) :
    Standing id t.client.flags t.connection.phase member
      (dues ++ t.requests.filter (Request.concerns id)) := by
  have hstarted := ho.isStarted
  -- An ending goes on as one, and nothing is added to what waits.
  have hquiet : Ending c.flags k.phase → t.requests.filter (Request.concerns id) = [] :=
    fun hend => ho.concerns_of_closing hend.closing
  cases h with
  | outside hp => rw [hp] at hstarted; cases hstarted
  | hasty hend hm => rw [hquiet hend]; exact .hasty (hend.turn ho he) hm
  | leaving hend => rw [hquiet hend]; exact .leaving (hend.turn ho he)
  | gone hend hm => rw [hquiet hend]; exact .gone (hend.turn ho he) hm
  | joining hlive hclear hm =>
      rcases ho.of_clear he hclear with ⟨hf, hl, hnone⟩ | ⟨hend, hdue⟩
      · rw [hnone]
        exact .joining (fun side => (hl side).trans (hlive side)) hf hm
      · rw [hdue]
        exact .hasty hend hm
  | present hlive hclear hm =>
      rcases ho.of_clear he hclear with ⟨hf, hl, hnone⟩ | ⟨hend, hdue⟩
      · rw [hnone]
        exact .present (fun side => (hl side).trans (hlive side)) hf hm
      · rw [hdue]
        exact .leaving hend

end PositionRelay
