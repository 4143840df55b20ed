import PositionRelay.Proofs.Network.Standing

/-!
# Orderly networks

A network is orderly if every connection keeps one of the six standings, except those that are late:
a shutdown throws away what waits behind it, so a connection that is started while a shutdown waits
runs, and the registry never hears of it. Of a late connection it is only known that it is no member
and will not become one.

This module has the invariant and what the moves from outside do to it. They add at most one request
to the queue and change at most one connection.
-/
namespace PositionRelay

/-- The order of two requests that wait: only late joins stand behind a shutdown. -/
def Request.Precedes (late : ClientId → Prop) (a b : Request) : Prop :=
  a = .shutDown → ∀ id, b = .join id → late id

theorem Request.ne_join_of_concerns {id : ClientId} {request : Request}
    (h : request.concerns id = false) : request ≠ .join id := by
  rintro rfl
  simp [concerns] at h

namespace Network

def flags? (n : Network) (id : ClientId) : Option Flags := n.registry.flags? id

def phase? (n : Network) (id : ClientId) : Option Phase := (n.connection? id).map Connection.phase

section
variable (n : Network) (id j : ClientId)

@[simp] theorem flags?_enqueue (requests : List Request) :
    (n.enqueue requests).flags? j = n.flags? j := by
  rw [flags?, registry_enqueue]
  rfl

@[simp] theorem phase?_enqueue (requests : List Request) :
    (n.enqueue requests).phase? j = n.phase? j := by
  rw [phase?, connection?_enqueue]
  rfl

@[simp] theorem flags?_modifyConnection (f : Connection → Connection) :
    (n.modifyConnection id f).flags? j = n.flags? j := by
  rw [flags?, registry_modifyConnection]
  rfl

@[simp] theorem phase?_modifyClient (f : Client → Client) :
    (n.modifyClient id f).phase? j = n.phase? j := by
  rw [phase?, connection?_modifyClient]
  rfl

theorem flags?_modifyClient {f : Client → Client} (hf : ∀ c, (f c).flags = c.flags) :
    (n.modifyClient id f).flags? j = n.flags? j := by
  change ((n.modifyClient id f).client? j).map _ = (n.client? j).map _
  rw [client?_modifyClient]
  split
  · rw [Option.map_map]
    exact congrArg (Option.map · _) (funext hf)
  · rfl

theorem phase?_modifyConnection {f : Connection → Connection} (hf : ∀ k, (f k).phase = k.phase) :
    (n.modifyConnection id f).phase? j = n.phase? j := by
  rw [phase?, phase?, connection?_modifyConnection]
  split
  · rw [Option.map_map]
    exact congrArg (Option.map · _) (funext hf)
  · rfl

theorem flags?_apply (t : Turn) :
    (n.apply id t).flags? j = if j = id then some t.client.flags else n.flags? j := by
  change ((n.apply id t).client? j).map _ = _
  rw [client?_apply]
  split
  · rfl
  · rfl

theorem phase?_apply (t : Turn) :
    (n.apply id t).phase? j = if j = id then some t.connection.phase else n.phase? j := by
  rw [phase?, connection?_apply]
  split
  · rfl
  · rfl

theorem flags?_abandon (phase : Phase) : (n.abandon id phase).flags? j = n.flags? j :=
  (flags?_modifyClient _ id j Client.flags_closeMailbox).trans (flags?_modifyConnection ..)

theorem phase?_abandon (phase : Phase) :
    (n.abandon id phase).phase? j =
      if j = id then (n.phase? j).map fun _ => phase else n.phase? j := by
  rw [phase?, phase?, connection?_abandon]
  split
  · rw [Option.map_map, Option.map_map]
    rfl
  · rfl

theorem flags?_built (config : Config) (buffer drawX drawY : Nat) :
    (n.built config buffer drawX drawY).flags? j =
      if j = n.ids.upcoming then some .clear else n.flags? j := by
  change ((n.built config buffer drawX drawY).client? j).map _ = _
  rw [client?_built]
  split
  · rfl
  · rfl

theorem phase?_built (config : Config) (buffer drawX drawY : Nat) :
    (n.built config buffer drawX drawY).phase? j =
      if j = n.ids.upcoming then some .fresh else n.phase? j := by
  rw [phase?, connection?_built]
  split
  · rfl
  · rfl

end

/-- The requests about one client that wait. -/
def dues (n : Network) (id : ClientId) : List Request := n.queue.filter (Request.concerns id)

/-- The requests that will be handled. -/
def heard (queue : List Request) : List Request := queue.takeWhile (· != .shutDown)

theorem mem_of_mem_heard {queue : List Request} {request : Request} (h : request ∈ heard queue) :
    request ∈ queue := (List.takeWhile_sublist _).mem h

theorem heard_append (queue requests : List Request) :
    heard (queue ++ requests) =
      if .shutDown ∈ queue then heard queue else queue ++ heard requests := by
  induction queue with
  | nil => rfl
  | cons request rest ih =>
      unfold heard at ih ⊢
      by_cases hr : request = .shutDown
      · simp [hr]
      · rw [List.cons_append, List.takeWhile_cons_of_pos (by simpa using hr), ih,
          List.takeWhile_cons_of_pos (by simpa using hr)]
        have hmem : .shutDown ∈ request :: rest ↔ .shutDown ∈ rest := by simp [Ne.symm hr]
        by_cases hs : .shutDown ∈ rest
        · rw [if_pos hs, if_pos (hmem.mpr hs)]
        · rw [if_neg hs, if_neg fun h => hs (hmem.mp h)]
          rfl

structure Orderly (late : ClientId → Prop) (n : Network) : Prop where
  paired : ∀ id, (n.flags? id).isSome = (n.phase? id).isSome
  standing : ∀ id f p, ¬ late id → n.flags? id = some f → n.phase? id = some p →
    Standing id f p (id ∈ n.registry.members.ids) (n.dues id)
  /-- Nothing is known of a client that was not built. -/
  unknown : ∀ id, n.phase? id = none → id ∉ n.registry.members.ids ∧ n.dues id = []
  issued : n.Issued
  /-- A connection whose sides have both stopped does not run. -/
  busy : ∀ id p, n.phase? id = some p → p.isRunning = true → ∃ side, p.isLive side = true
  closed : n.registry.running = false → n.queue = [] ∧ n.registry.members.ids = []
  inTime : n.queue.Pairwise (Request.Precedes late)
  outcast : ∀ id, late id → id ∉ n.registry.members.ids ∧ .join id ∉ heard n.queue ∧
    ∃ p, n.phase? id = some p ∧ p.isStarted = true

section
variable {late late' : ClientId → Prop} {n m : Network}

/-- Clients change where they stand, and requests are added to the queue. -/
theorem Orderly.extend (h : n.Orderly late) (requests : List Request)
    (hflags : ∀ id, (m.flags? id).isSome = (n.flags? id).isSome)
    (hphase : ∀ id, (m.phase? id).isSome = (n.phase? id).isSome)
    (hmembers : m.registry.members = n.registry.members)
    (hrunning : m.registry.running = n.registry.running) (hids : m.ids = n.ids)
    (hqueue : m.queue = n.queue ++ requests)
    (hclosed : n.registry.running = false → requests = [])
    (hknown : ∀ id, n.phase? id = none → requests.filter (Request.concerns id) = [])
    (hinTime : m.queue.Pairwise (Request.Precedes late'))
    (hstanding : ∀ id f p, ¬ late' id → m.flags? id = some f → m.phase? id = some p →
      Standing id f p (id ∈ n.registry.members.ids)
        (n.dues id ++ requests.filter (Request.concerns id)))
    (hbusy : ∀ id p, m.phase? id = some p → p.isRunning = true →
      ∃ side, p.isLive side = true)
    (houtcast : ∀ id, late' id → id ∉ n.registry.members.ids ∧ .join id ∉ heard m.queue ∧
      ∃ p, m.phase? id = some p ∧ p.isStarted = true) : m.Orderly late' := by
  have hdues : ∀ id, m.dues id = n.dues id ++ requests.filter (Request.concerns id) := by
    intro id
    rw [dues, dues, hqueue, List.filter_append]
  have hnone : ∀ id, m.phase? id = none → n.phase? id = none := by
    intro id hid
    have := hphase id
    rw [hid] at this
    simpa using this.symm
  refine ⟨?_, ?_, ?_, ?_, hbusy, ?_, hinTime, ?_⟩
  · intro id
    rw [hflags, hphase]
    exact h.paired id
  · intro id f p hl hf hp
    rw [hmembers, hdues]
    exact hstanding id f p hl hf hp
  · intro id hid
    obtain ⟨hm, hd⟩ := h.unknown id (hnone id hid)
    rw [hmembers, hdues, hd, hknown id (hnone id hid)]
    exact ⟨hm, rfl⟩
  · exact h.issued.of_alike (fun id => by simpa [phase?] using hphase id) hids
  · intro hr
    rw [hrunning] at hr
    obtain ⟨hq, hm⟩ := h.closed hr
    rw [hqueue, hmembers, hq, hclosed hr]
    exact ⟨rfl, hm⟩
  · rw [hmembers]
    exact houtcast

/-- An event that changes neither flags nor phases and leaves the registry and the queue alone. -/
theorem Orderly.of_alike (h : n.Orderly late) (hflags : ∀ id, m.flags? id = n.flags? id)
    (hphase : ∀ id, m.phase? id = n.phase? id)
    (hmembers : m.registry.members = n.registry.members)
    (hrunning : m.registry.running = n.registry.running) (hids : m.ids = n.ids)
    (hqueue : m.queue = n.queue) : m.Orderly late := by
  refine h.extend [] (fun id => by rw [hflags]) (fun id => by rw [hphase]) hmembers
    hrunning hids (by rw [hqueue, List.append_nil]) (fun _ => rfl) (fun _ _ => rfl)
    (by rw [hqueue]; exact h.inTime) ?_ ?_ ?_
  · intro id f p hl hf hp
    rw [List.filter_nil, List.append_nil]
    exact h.standing id f p hl ((hflags id).symm.trans hf) ((hphase id).symm.trans hp)
  · intro id p hp
    exact h.busy id p ((hphase id).symm.trans hp)
  · intro id hl
    rw [hqueue, hphase]
    exact h.outcast id hl

/-- Requests that are no joins come at any time. -/
theorem Orderly.inTime_append (h : n.Orderly late) {requests : List Request}
    (hr : ∀ request ∈ requests, ∀ id, request ≠ .join id) :
    (n.queue ++ requests).Pairwise (Request.Precedes late) := by
  have hnew : requests.Pairwise (Request.Precedes late) := by
    refine List.pairwise_of_forall_mem_list ?_
    intro a _ b hb _ id hid
    exact absurd hid (hr b hb id)
  refine List.pairwise_append.mpr ⟨h.inTime, hnew, ?_⟩
  intro a _ b hb _ id hid
  exact absurd hid (hr b hb id)

theorem Orderly.join_notMem_heard (h : n.Orderly late) {id : ClientId} (hl : late id)
    {requests : List Request} (hr : .join id ∉ requests) :
    .join id ∉ heard (n.queue ++ requests) := by
  have hold := (h.outcast id hl).2.1
  rw [heard_append]
  split
  · exact hold
  · next hs =>
      have hall : heard n.queue = n.queue := by
        have := heard_append n.queue []
        rw [if_neg hs] at this
        simpa [heard] using this
      rw [hall] at hold
      intro hj
      rcases List.mem_append.mp hj with hj | hj
      · exact hold hj
      · exact hr (mem_of_mem_heard hj)

theorem Orderly.modifyClient (h : n.Orderly late) (id : ClientId) {f : Client → Client}
    (hf : ∀ c, (f c).flags = c.flags) : (n.modifyClient id f).Orderly late := by
  exact h.of_alike (fun j => flags?_modifyClient n id j hf) (fun j => phase?_modifyClient n id j f)
    (by simp) (by simp) (by simp) (by simp)

theorem Orderly.modifyConnection (h : n.Orderly late) (id : ClientId)
    {f : Connection → Connection} (hf : ∀ k, (f k).phase = k.phase) :
    (n.modifyConnection id f).Orderly late := by
  exact h.of_alike (fun j => flags?_modifyConnection n id j f)
    (fun j => phase?_modifyConnection n id j hf) (by simp) (by simp) (by simp) (by simp)

theorem client?_of_flags? {id : ClientId} {f : Flags} (h : n.flags? id = some f) :
    ∃ c, n.client? id = some c ∧ c.flags = f := Option.map_eq_some_iff.mp h

theorem connection?_of_phase? {id : ClientId} {p : Phase} (h : n.phase? id = some p) :
    ∃ k, n.connection? id = some k ∧ k.phase = p := Option.map_eq_some_iff.mp h

theorem flags?_of_client? {id : ClientId} {c : Client} (h : n.client? id = some c) :
    n.flags? id = some c.flags := by
  change (n.client? id).map Client.flags = _
  rw [h]
  rfl

theorem phase?_of_connection? {id : ClientId} {k : Connection}
    (h : n.connection? id = some k) : n.phase? id = some k.phase := by
  rw [phase?, h]
  rfl

theorem Orderly.phase?_upcoming (h : n.Orderly late) (hpos : 0 < n.ids.upcoming) :
    n.phase? n.ids.upcoming = none := by
  rw [phase?, h.issued.connection?_upcoming hpos]
  rfl

/-- A client that was just built stands outside. -/
theorem Orderly.built (h : n.Orderly late) (hpos : 0 < n.ids.upcoming) (config : Config)
    (buffer drawX drawY : Nat) : (n.built config buffer drawX drawY).Orderly late := by
  have hnew := h.phase?_upcoming hpos
  have hissued := h.issued.built hpos config buffer drawX drawY
  generalize hm : n.built config buffer drawX drawY = m at hissued
  generalize hid : n.ids.upcoming = id at hnew
  have hflags : ∀ j, m.flags? j = if j = id then some .clear else n.flags? j := by
    intro j
    rw [← hm, ← hid]
    exact flags?_built ..
  have hphase : ∀ j, m.phase? j = if j = id then some .fresh else n.phase? j := by
    intro j
    rw [← hm, ← hid]
    exact phase?_built ..
  have hmembers : m.registry.members = n.registry.members := by rw [← hm]; rfl
  have hdues : ∀ j, m.dues j = n.dues j := by intro j; rw [← hm]; rfl
  refine ⟨?_, ?_, ?_, ?_, ?_, ?_, ?_, ?_⟩
  · intro j
    rw [hflags, hphase]
    split
    · rfl
    · exact h.paired j
  · intro j f p hl hf hp
    rw [hmembers, hdues]
    rw [hflags] at hf
    rw [hphase] at hp
    by_cases hj : j = id
    · rw [if_pos hj] at hf hp
      cases hf
      cases hp
      obtain ⟨hmem, hdue⟩ := h.unknown j (hj ▸ hnew)
      rw [hdue]
      exact .outside rfl rfl hmem
    · rw [if_neg hj] at hf hp
      exact h.standing j f p hl hf hp
  · intro j hj
    rw [hmembers, hdues]
    rw [hphase] at hj
    split at hj
    · cases hj
    · exact h.unknown j hj
  · exact hissued
  · intro j p hp hr
    rw [hphase] at hp
    split at hp
    · cases hp
      cases hr
    · exact h.busy j p hp hr
  · intro hr
    rw [← hm] at hr ⊢
    exact h.closed hr
  · rw [← hm]
    exact h.inTime
  · intro j hl
    obtain ⟨hmem, hheard, p, hp, hs⟩ := h.outcast j hl
    have hj : j ≠ id := by
      rintro rfl
      rw [hnew] at hp
      cases hp
    refine ⟨by rw [hmembers]; exact hmem, by rw [← hm]; exact hheard, p, ?_, hs⟩
    rw [hphase, if_neg hj, hp]

theorem Orderly.build (h : n.Orderly late) (config : Config) (buffer drawX drawY : Nat) :
    (n.make (.build config buffer drawX drawY)).Orderly late := by
  rcases n.make_build config buffer drawX drawY with he | ⟨-, hpos, he⟩
  · rw [he]
    exact h
  · rw [he]
    exact h.built hpos config buffer drawX drawY

/-- One client changes where it stands, and nothing is asked for about any other. -/
theorem Orderly.change (h : n.Orderly late) (id : ClientId) (requests : List Request)
    (hlate : ∀ j ≠ id, late' j ↔ late j) (hknown : (n.phase? id).isSome)
    (hflags : ∀ j ≠ id, m.flags? j = n.flags? j) (hphase : ∀ j ≠ id, m.phase? j = n.phase? j)
    (hmembers : m.registry.members = n.registry.members)
    (hrunning : m.registry.running = n.registry.running) (hids : m.ids = n.ids)
    (hqueue : m.queue = n.queue ++ requests)
    (hclosed : n.registry.running = false → requests = [])
    (hothers : ∀ j ≠ id, requests.filter (Request.concerns j) = [])
    (hinTime : m.queue.Pairwise (Request.Precedes late')) {f : Flags} {p : Phase}
    (hf : m.flags? id = some f) (hp : m.phase? id = some p)
    (hbusy : p.isRunning = true → ∃ side, p.isLive side = true)
    (hstanding : ¬ late' id → Standing id f p (id ∈ n.registry.members.ids)
      (n.dues id ++ requests.filter (Request.concerns id)))
    (houtcast : late' id → id ∉ n.registry.members.ids ∧ .join id ∉ heard m.queue ∧
      p.isStarted = true) : m.Orderly late' := by
  refine h.extend requests ?_ ?_ hmembers hrunning hids hqueue hclosed ?_ hinTime ?_ ?_ ?_
  · intro j
    by_cases hj : j = id
    · rw [hj, hf, h.paired, hknown]
      rfl
    · rw [hflags j hj]
  · intro j
    by_cases hj : j = id
    · rw [hj, hp, hknown]
      rfl
    · rw [hphase j hj]
  · intro j hnone
    refine hothers j ?_
    rintro rfl
    rw [hnone] at hknown
    cases hknown
  · intro j g q hl hg hq
    by_cases hj : j = id
    · subst hj
      rw [hf] at hg
      rw [hp] at hq
      cases hg
      cases hq
      exact hstanding hl
    · rw [hothers j hj, List.append_nil]
      rw [hflags j hj] at hg
      rw [hphase j hj] at hq
      exact h.standing j g q (fun hl' => hl ((hlate j hj).mpr hl')) hg hq
  · intro j q hq
    by_cases hj : j = id
    · subst hj
      rw [hp] at hq
      cases hq
      exact hbusy
    · rw [hphase j hj] at hq
      exact h.busy j q hq
  · intro j hl
    by_cases hj : j = id
    · subst hj
      obtain ⟨hmem, hheard, hs⟩ := houtcast hl
      exact ⟨hmem, hheard, p, hp, hs⟩
    · have hold := (hlate j hj).mp hl
      obtain ⟨hmem, -, q, hq, hs⟩ := h.outcast j hold
      have hjoin : .join j ∉ requests := by
        intro hin
        have := List.filter_eq_nil_iff.mp (hothers j hj) _ hin
        simp [Request.concerns] at this
      rw [hphase j hj, hqueue]
      exact ⟨hmem, h.join_notMem_heard hold hjoin, q, hq, hs⟩

theorem Orderly.not_late_of_fresh (h : n.Orderly late) {id : ClientId}
    (hfresh : n.phase? id = some .fresh) : ¬ late id := by
  intro hl
  obtain ⟨-, -, p, hp, hs⟩ := h.outcast id hl
  rw [hfresh] at hp
  cases hp
  cases hs

theorem Orderly.standing_of_fresh (h : n.Orderly late) {id : ClientId}
    (hfresh : n.isFresh id = true) :
    n.phase? id = some .fresh ∧ n.flags? id = some .clear ∧ id ∉ n.registry.members.ids ∧
      n.dues id = [] := by
  obtain ⟨k, hk, hp⟩ := isFresh_iff.mp hfresh
  have hphase : n.phase? id = some .fresh := by rw [phase?_of_connection? hk, hp]
  have hflags : (n.flags? id).isSome := by
    rw [h.paired, hphase]
    rfl
  obtain ⟨f, hf⟩ := Option.isSome_iff_exists.mp hflags
  have hs := h.standing id f .fresh (h.not_late_of_fresh hphase) hf hphase
  generalize n.dues id = dues at hs
  cases hs with
  | outside _ hclear hm => exact ⟨hphase, by rw [hf, hclear], hm, rfl⟩
  | joining hlive => cases hlive .read
  | present hlive => cases hlive .read
  | hasty hend => cases hend.started
  | leaving hend => cases hend.started
  | gone hend => cases hend.started

/-- A connection is given up before it was run. -/
theorem Orderly.abandon (h : n.Orderly late) {id : ClientId} (hfresh : n.isFresh id = true)
    {phase : Phase} (hphase : phase.isStarted = false) : (n.abandon id phase).Orderly late := by
  obtain ⟨hp, hf, hm, hd⟩ := h.standing_of_fresh hfresh
  have hflags : ∀ j, (n.abandon id phase).flags? j = n.flags? j :=
    fun j => flags?_abandon n id j phase
  have hnext : (n.abandon id phase).phase? id = some phase := by
    rw [phase?_abandon, if_pos rfl, hp]
    rfl
  refine h.change id [] (fun _ _ => Iff.rfl) (by rw [hp]; rfl) (fun j _ => hflags j) ?_
    (by simp) (by simp [Network.abandon]) (by simp) (by simp) (fun _ => rfl) (fun _ _ => rfl)
    (by simpa using h.inTime) ((hflags id).trans hf) hnext ?_ ?_ ?_
  · intro j hj
    rw [phase?_abandon, if_neg hj]
  · intro hr
    rw [Phase.isStarted_of_isRunning hr] at hphase
    cases hphase
  · intro _
    rw [hd]
    exact .outside hphase rfl hm
  · intro hl
    exact absurd hl (h.not_late_of_fresh hp)

/-- A connection is started while a shutdown waits. -/
def StartsLate (n : Network) (e : Event) (id : ClientId) : Prop :=
  e = .move (.start id) ∧ n.isFresh id = true ∧ .shutDown ∈ n.queue

theorem Orderly.of_iff (h : n.Orderly late) (hl : ∀ id, late' id ↔ late id) : n.Orderly late' := by
  have : late' = late := funext fun id => propext (hl id)
  rw [this]
  exact h

/-- A connection that is run joins, in time or late. -/
theorem Orderly.start (h : n.Orderly late) (id : ClientId) :
    (n.make (.start id)).Orderly fun j => late j ∨ n.StartsLate (.move (.start id)) j := by
  by_cases hfresh : n.isFresh id = true
  · obtain ⟨hp, hf, hm, hd⟩ := h.standing_of_fresh hfresh
    have hmade : n.make (.start id) = n.run id := by simp [make, hfresh]
    have hlate : ∀ j, n.StartsLate (.move (.start id)) j ↔ j = id ∧ .shutDown ∈ n.queue := by
      intro j
      constructor
      · rintro ⟨he, -, hs⟩
        cases he
        exact ⟨rfl, hs⟩
      · rintro ⟨rfl, hs⟩
        exact ⟨rfl, hfresh, hs⟩
    rw [hmade]
    unfold run
    by_cases hrunning : n.registry.running = true
    · rw [if_pos hrunning]
      generalize hstart : (fun k : Connection =>
        { k with phase := .running (.length [] n.now) .idle }) = begun
      obtain ⟨k, hk, -⟩ := connection?_of_phase? hp
      have hqueue : ((n.modifyConnection id begun).enqueue [.join id]).queue =
          n.queue ++ [.join id] := by
        rw [queue_enqueue, registry_modifyConnection, if_pos hrunning, queue_modifyConnection]
      have hothers : ∀ j ≠ id, [Request.join id].filter (Request.concerns j) = [] := by
        intro j hj
        simp [Request.concerns, hj.symm]
      have hflags : ∀ j, ((n.modifyConnection id begun).enqueue [.join id]).flags? j =
          n.flags? j := by
        intro j
        rw [flags?_enqueue, flags?_modifyConnection]
      have hnext : ((n.modifyConnection id begun).enqueue [.join id]).phase? id =
          some (.running (.length [] n.now) .idle) := by
        rw [phase?, connection?_enqueue, connection?_modifyConnection, if_pos rfl, hk, ← hstart]
        rfl
      refine h.change id [.join id] ?_ (by rw [hp]; rfl) (fun j _ => hflags j) ?_ (by simp) (by simp)
        (by simp) hqueue (by simp [hrunning]) hothers ?_ ((hflags id).trans hf) hnext
        (fun _ => ⟨.read, rfl⟩) ?_ ?_
      · intro j hj
        simp [hlate, hj]
      · intro j hj
        rw [phase?, connection?_enqueue, connection?_modifyConnection, if_neg hj]
        rfl
      · rw [hqueue]
        refine List.pairwise_append.mpr ⟨h.inTime.imp ?_, List.pairwise_singleton _ _, ?_⟩
        · intro a b hab ha j hj
          exact .inl (hab ha j hj)
        · intro a ha b hb hshut j hjoin
          rw [List.mem_singleton.mp hb] at hjoin
          cases hjoin
          exact .inr ((hlate id).mpr ⟨rfl, hshut ▸ ha⟩)
      · intro _
        have hdue : [Request.join id].filter (Request.concerns id) = [.join id] := by
          simp [Request.concerns]
        rw [hd, hdue]
        exact .joining (fun side => by cases side <;> rfl) rfl hm
      · rintro (hl | hl)
        · exact absurd hl (h.not_late_of_fresh hp)
        · refine ⟨hm, ?_, rfl⟩
          rw [hqueue, heard_append, if_pos ((hlate id).mp hl).2]
          intro hj
          have := List.filter_eq_nil_iff.mp hd _ (mem_of_mem_heard hj)
          simp [Request.concerns] at this
    · have hq : n.queue = [] := (h.closed (by simpa using hrunning)).1
      rw [if_neg hrunning]
      refine (h.abandon hfresh rfl).of_iff ?_
      intro j
      simp [hlate, hq]
  · have hmade : n.make (.start id) = n := by simp [make, hfresh]
    rw [hmade]
    refine h.of_iff ?_
    intro j
    simp only [StartsLate, or_iff_left_iff_imp]
    rintro ⟨he, hj, -⟩
    cases he
    exact absurd hj hfresh

/-- A request that is about no client. -/
theorem Orderly.ask (h : n.Orderly late) {request : Request}
    (hr : ∀ id, request.concerns id = false) : (n.make (.ask request)).Orderly late := by
  rw [make_ask]
  have hflags : ∀ id, (n.enqueue [request]).flags? id = n.flags? id :=
    fun id => flags?_enqueue n id [request]
  have hphase : ∀ id, (n.enqueue [request]).phase? id = n.phase? id :=
    fun id => phase?_enqueue n id [request]
  by_cases hrunning : n.registry.running = true
  · have hqueue : (n.enqueue [request]).queue = n.queue ++ [request] := by
      rw [queue_enqueue, if_pos hrunning]
    have hnone : ∀ id, [request].filter (Request.concerns id) = [] := by
      intro id
      simp [hr id]
    have hjoin : ∀ a ∈ [request], ∀ id, a ≠ .join id := by
      intro a ha id
      rw [List.mem_singleton.mp ha]
      exact Request.ne_join_of_concerns (hr id)
    refine h.extend [request] (fun id => by rw [hflags]) (fun id => by rw [hphase])
      (by rw [registry_enqueue]) (by rw [registry_enqueue]) (ids_enqueue ..) hqueue
      (by simp [hrunning]) (fun id _ => hnone id) (by rw [hqueue]; exact h.inTime_append hjoin)
      ?_ ?_ ?_
    · intro id f p hl hf hp
      rw [hnone, List.append_nil]
      exact h.standing id f p hl ((hflags id).symm.trans hf) ((hphase id).symm.trans hp)
    · intro id p hp
      exact h.busy id p ((hphase id).symm.trans hp)
    · intro id hl
      obtain ⟨hm, -, p, hp, hs⟩ := h.outcast id hl
      rw [hqueue, hphase]
      exact ⟨hm, h.join_notMem_heard hl fun hj => hjoin _ hj id rfl, p, hp, hs⟩
  · have hqueue : (n.enqueue [request]).queue = n.queue := by
      rw [queue_enqueue, if_neg hrunning]
    exact h.of_alike hflags hphase (by rw [registry_enqueue]) (by rw [registry_enqueue])
      (ids_enqueue ..) hqueue

end

end Network
end PositionRelay
