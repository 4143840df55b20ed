import PositionRelay.Proofs.Network.Orderly

/-!
# How a connection ends

A connection begins to end for one of four causes: one of its sides fails, the registry evicts it, the
registry shuts down, or it is disconnected from outside. The causes may come in any order and any
number. The first one decides: the connection asks to be removed if and only if it is a failure, and
asks once; a failure that comes later changes nothing. Flags never go down again, and a side does not
stop without the other one having stopped or having been told to (`asks_once_to_leave`).

`Change` says what an event can do to one connection. All of the above is read off it, through the
three stages that a connection can be in (`Stage`).
-/
namespace PositionRelay

/-- What a connection can end by. -/
inductive Cause where
  | failure (side : Side)
  | eviction
  | shutDown
  | disconnect
deriving DecidableEq, Repr

def Cause.isFailure : Cause → Bool
  | failure _ => true
  | _ => false

def Request.isLeave : Request → Bool
  | .leave _ => true
  | _ => false

def Stop.isFailure : Stop → Bool
  | told => false
  | failed _ => true

namespace Flags

/-- What the failure of a side does to the flags. -/
def fail (f : Flags) (side : Side) : Flags :=
  if f.closing then f
  else
    match side with
    | .read => { f with closing := true, exitWrite := true }
    | .write => { f with closing := true, exitRead := true }

/-- No flag is down that was up before. -/
instance : LE Flags :=
  ⟨fun f g => f.closing ≤ g.closing ∧ f.exitRead ≤ g.exitRead ∧ f.exitWrite ≤ g.exitWrite⟩

theorem le_refl (f : Flags) : f ≤ f := ⟨Bool.le_refl _, Bool.le_refl _, Bool.le_refl _⟩

theorem le_raised (f : Flags) : f ≤ raised := ⟨Bool.le_true _, Bool.le_true _, Bool.le_true _⟩

theorem le_fail (f : Flags) (side : Side) : f ≤ f.fail side := by
  unfold fail
  split
  · exact f.le_refl
  · cases side
    · exact ⟨Bool.le_true _, Bool.le_refl _, Bool.le_true _⟩
    · exact ⟨Bool.le_true _, Bool.le_true _, Bool.le_refl _⟩

theorem eq_raised_of_le {f : Flags} (h : raised ≤ f) : f = raised := by
  obtain ⟨closing, exitRead, exitWrite⟩ := f
  obtain ⟨hc, hr, hw⟩ := h
  have up : ∀ {b : Bool}, true ≤ b → b = true := fun hb => hb rfl
  obtain rfl : closing = true := up hc
  obtain rfl : exitRead = true := up hr
  obtain rfl : exitWrite = true := up hw
  rfl

theorem fail_of_closing {f : Flags} (h : f.closing = true) (side : Side) : f.fail side = f := by
  simp [fail, h]

theorem closing_fail_clear (side : Side) : (clear.fail side).closing = true := by
  cases side <;> rfl

/-- Only the other side is told. -/
theorem tells_fail_clear (failed side : Side) :
    (clear.fail failed).tells side = true ↔ side = failed.other := by
  cases failed <;> cases side <;> decide

end Flags

theorem Client.flags_fail (c : Client) (side : Side) : (c.fail side).flags = c.flags.fail side := by
  unfold Client.fail Flags.fail
  cases side <;> cases h : c.closing <;> simp [flags, raiseExit, Side.other, h]

def Reader.stop? : Reader → Option Stop
  | .stopped why => some why
  | _ => none

def Writer.stop? : Writer → Option Stop
  | .stopped why => some why
  | _ => none

namespace Phase

/-- Why a side has stopped, once it has. -/
def stop? : Phase → Side → Option Stop
  | running reader _, .read => reader.stop?
  | running _ writer, .write => writer.stop?
  | finished reader _, .read => some reader
  | finished _ writer, .write => some writer
  | _, _ => none

theorem stop?_of_unstarted {p : Phase} (h : p.isStarted = false) (side : Side) :
    p.stop? side = none := by
  cases p with
  | running => cases h
  | finished => cases h
  | _ => cases side <;> rfl

/-- A side fails between two phases. -/
def fails (p q : Phase) (side : Side) : Bool :=
  (p.stop? side).isNone && (q.stop? side).any Stop.isFailure

/-- The sides that fail between two phases. -/
def failures (p q : Phase) : List Cause := ([Side.read, .write].filter (p.fails q)).map .failure

theorem fails_of_same {p q : Phase} {side : Side} (h : q.stop? side = p.stop? side) :
    p.fails q side = false := by
  unfold fails
  rw [h]
  cases p.stop? side <;> rfl

theorem failures_of_none {p q : Phase} (h : ∀ side, p.fails q side = false) : p.failures q = [] := by
  simp [failures, h]

theorem failures_of_one {p q : Phase} (side : Side) (h : p.fails q side = true)
    (hother : p.fails q side.other = false) : p.failures q = [.failure side] := by
  cases side <;> simp_all [failures, Side.other]

end Phase

theorem Reader.stop?_of_live {reader : Reader} (h : reader.live = 1) : reader.stop? = none := by
  cases reader with
  | stopped why => cases h
  | length got since => rfl
  | payload length got since => rfl

theorem Writer.stop?_of_live {writer : Writer} (h : writer.live = 1) : writer.stop? = none := by
  cases writer with
  | stopped why => cases h
  | idle => rfl
  | writing rest since => rfl

namespace Connection

theorem stop?_become_read (k : Connection) (reader : Reader) (writer : Writer) :
    (k.become reader writer).phase.stop? .read = reader.stop? := by
  cases reader <;> cases writer <;> rfl

theorem stop?_become_write (k : Connection) (reader : Reader) (writer : Writer) :
    (k.become reader writer).phase.stop? .write = writer.stop? := by
  cases reader <;> cases writer <;> rfl

end Connection

/-- What an event does to one connection: its flags and its phase before and after, the causes that the
event brings, and the requests that the connection sends. -/
inductive Change (id : ClientId) (f : Flags) (p : Phase) :
    Flags → Phase → List Cause → List Request → Prop
  | quiet (q : Phase) (requests : List Request) (same : ∀ side, q.stop? side = p.stop? side)
      (silent : ∀ request ∈ requests, request = .broadcast) : Change id f p f q [] requests
  /-- A side that was told to stop does so. -/
  | told (q : Phase) (side : Side) (told : f.tells side = true) (stops : q.stop? side = some .told)
      (same : q.stop? side.other = p.stop? side.other) : Change id f p f q [] []
  | failed (q : Phase) (side : Side) (error : ConnectionError) (live : p.stop? side = none)
      (stops : q.stop? side = some (.failed error))
      (same : q.stop? side.other = p.stop? side.other) :
      Change id f p (f.fail side) q [.failure side] (if f.closing then [] else [.leave id])
  /-- The connection is ended by someone else. -/
  | dropped (cause : Cause) (foreign : cause.isFailure = false) :
      Change id f p .raised p [cause] []

namespace Change

variable {id : ClientId} {f g : Flags} {p q : Phase} {causes : List Cause}
  {requests : List Request}

theorem le (h : Change id f p g q causes requests) : f ≤ g := by
  cases h with
  | quiet => exact f.le_refl
  | told => exact f.le_refl
  | failed => exact f.le_fail _
  | dropped => exact f.le_raised

/-- Once the connection is closing, a failure changes no flag and sends nothing. -/
theorem of_failure (h : Change id f p g q causes requests) (hclosing : f.closing = true)
    {side : Side} (hside : .failure side ∈ causes) : g = f ∧ requests = [] := by
  cases h with
  | quiet => cases hside
  | told => cases hside
  | failed =>
      rw [if_pos hclosing]
      exact ⟨Flags.fail_of_closing hclosing _, rfl⟩
  | dropped cause foreign =>
      rw [← List.mem_singleton.mp hside] at foreign
      cases foreign

end Change

namespace Connection

section
variable {k : Connection} {id : ClientId} {c : Client} {reader : Reader} {writer : Writer} {t : Turn}

theorem ReadTurn.change {listening : Bool} (h : ReadTurn k listening id c writer t)
    (hp : k.phase = .running reader writer) (hr : reader.live = 1) :
    Change id c.flags k.phase t.client.flags t.connection.phase
      (k.phase.failures t.connection.phase) t.requests := by
  have hlive : k.phase.stop? .read = none := by
    rw [hp]
    exact Reader.stop?_of_live hr
  have hother : ∀ (j : Connection) (reader' : Reader),
      (j.become reader' writer).phase.stop? .write = k.phase.stop? .write := by
    intro j reader'
    rw [stop?_become_write, hp]
    rfl
  have goesOn : ∀ (inbound : Pipe) (reader' : Reader) (requests : List Request),
      reader'.live = 1 → (∀ request ∈ requests, request = .broadcast) →
      Change id c.flags k.phase c.flags ({ k with inbound }.become reader' writer).phase
        (k.phase.failures ({ k with inbound }.become reader' writer).phase) requests := by
    intro inbound reader' requests hr' hrequests
    have hsame : ∀ side, ({ k with inbound }.become reader' writer).phase.stop? side =
        k.phase.stop? side := by
      intro side
      cases side with
      | read => rw [stop?_become_read, hlive, Reader.stop?_of_live hr']
      | write => exact hother ..
    rw [Phase.failures_of_none fun side => Phase.fails_of_same (hsame side)]
    exact .quiet _ requests hsame hrequests
  have fails : ∀ (inbound : Pipe) (why : ConnectionError),
      Change id c.flags k.phase (c.flags.fail .read)
        ({ k with inbound }.become (.stopped (.failed why)) writer).phase
        (k.phase.failures ({ k with inbound }.become (.stopped (.failed why)) writer).phase)
        (farewell id c) := by
    intro inbound why
    have hstop : ({ k with inbound }.become (.stopped (.failed why)) writer).phase.stop? .read =
        some (.failed why) := stop?_become_read ..
    rw [Phase.failures_of_one .read (by simp [Phase.fails, hlive, hstop, Stop.isFailure])
      (Phase.fails_of_same (hother ..))]
    exact .failed _ .read why hlive hstop (hother ..)
  cases h with
  | told told =>
      have hstop : (k.become (.stopped .told) writer).phase.stop? .read = some .told :=
        stop?_become_read ..
      have hnone : ∀ side, k.phase.fails (k.become (.stopped .told) writer).phase side = false := by
        intro side
        cases side with
        | read => simp [Phase.fails, hstop, Stop.isFailure]
        | write => exact Phase.fails_of_same (hother ..)
      unfold stopReading
      rw [Phase.failures_of_none hnone]
      exact .told _ .read told hstop (hother ..)
  | failed inbound why =>
      rw [failReading, Client.flags_fail]
      exact fails inbound why
  | onward inbound reader' live => exact goesOn inbound reader' [] live (by simp)
  | merged inbound reader' u live heard => exact goesOn inbound reader' _ live (by simp)
  | unheard inbound u unheard =>
      rw [failReading, Client.flags_fail, Client.flags_merge]
      exact fails inbound _

theorem WriteTurn.change (h : WriteTurn k id c reader t) (hp : k.phase = .running reader writer)
    (hw : writer.live = 1) :
    Change id c.flags k.phase t.client.flags t.connection.phase
      (k.phase.failures t.connection.phase) t.requests := by
  have hlive : k.phase.stop? .write = none := by
    rw [hp]
    exact Writer.stop?_of_live hw
  have hother : ∀ (j : Connection) (writer' : Writer),
      (j.become reader writer').phase.stop? .read = k.phase.stop? .read := by
    intro j writer'
    rw [stop?_become_read, hp]
    rfl
  cases h with
  | told told =>
      have hstop : (k.become reader (.stopped .told)).phase.stop? .write = some .told :=
        stop?_become_write ..
      have hnone : ∀ side, k.phase.fails (k.become reader (.stopped .told)).phase side = false := by
        intro side
        cases side with
        | read => exact Phase.fails_of_same (hother ..)
        | write => simp [Phase.fails, hstop, Stop.isFailure]
      dsimp only
      rw [Phase.failures_of_none hnone, Client.flags_closeMailbox]
      exact .told _ .write told hstop (hother ..)
  | failed why =>
      have hstop : (k.become reader (.stopped (.failed why))).phase.stop? .write =
          some (.failed why) := stop?_become_write ..
      unfold failWriting
      rw [Client.flags_closeMailbox, Client.flags_fail,
        Phase.failures_of_one .write
          (by simp [Phase.fails, hlive, hstop, Stop.isFailure]) (Phase.fails_of_same (hother ..))]
      exact .failed _ .write why hlive hstop (hother ..)
  | onward outbound mailbox writer' live =>
      have hsame : ∀ side, ({ k with outbound }.become reader writer').phase.stop? side =
          k.phase.stop? side := by
        intro side
        cases side with
        | read => exact hother ..
        | write => rw [stop?_become_write, hlive, Writer.stop?_of_live live]
      dsimp only
      rw [Phase.failures_of_none fun side => Phase.fails_of_same (hsame side)]
      exact .quiet _ [] hsame (by simp)

end

end Connection

/-- How far a connection has come after some causes. -/
inductive Stage (f : Flags) (p : Phase) : List Cause → Prop
  | untouched (clear : f = .clear) (live : ∀ side, p.stop? side = none) : Stage f p []
  /-- One side has failed and the other one was told. -/
  | failed (side : Side) (later : List Cause) (flags : f = Flags.clear.fail side)
      (stopped : (p.stop? side).isSome) : Stage f p (.failure side :: later)
  | told (first : Cause) (later : List Cause) (raised : f = .raised) : Stage f p (first :: later)

/-- The requests to be removed that the causes so far give rise to: the first one decides. -/
def owed (id : ClientId) : List Cause → List Request
  | [] => []
  | first :: _ => if first.isFailure then [.leave id] else []

namespace Stage

variable {id : ClientId} {f g : Flags} {p q : Phase} {causes new : List Cause}
  {requests : List Request}

theorem closing_of_ne_nil (h : Stage f p causes) (hne : causes ≠ []) : f.closing = true := by
  cases h with
  | untouched => exact absurd rfl hne
  | failed side later flags =>
      rw [flags]
      exact Flags.closing_fail_clear side
  | told first later raised =>
      rw [raised]
      rfl

theorem closing_of_tells (h : Stage f p causes) {side : Side} (ht : f.tells side = true) :
    f.closing = true := by
  refine h.closing_of_ne_nil ?_
  rintro rfl
  cases h with
  | untouched clear => simp [clear] at ht

/-- No side is left behind by the other one. -/
theorem stopped_or_told (h : Stage f p causes) {side : Side} (hs : (p.stop? side).isSome) :
    (p.stop? side.other).isSome ∨ f.tells side.other = true := by
  cases h with
  | untouched clear live =>
      rw [live side] at hs
      cases hs
  | failed first later flags stopped =>
      rcases Client.eq_or_eq_other first side with rfl | rfl
      · refine .inr ?_
        rw [flags]
        exact (Flags.tells_fail_clear ..).mpr rfl
      · refine .inl ?_
        cases first <;> exact stopped
  | told first later raised => exact .inr (by rw [raised, Flags.tells_raised])

/-- The stages that a change leads to, and the requests to be removed that come with it. -/
theorem change (h : Stage f p causes) (hc : Change id f p g q new requests) :
    Stage g q (causes ++ new) ∧
      owed id (causes ++ new) = owed id causes ++ requests.filter Request.isLeave := by
  cases hc with
  | quiet _ _ same silent =>
      have hnone : requests.filter Request.isLeave = [] := by
        refine List.filter_eq_nil_iff.mpr fun request hr => ?_
        rw [silent request hr]
        simp [Request.isLeave]
      rw [List.append_nil, hnone, List.append_nil]
      refine ⟨?_, rfl⟩
      cases h with
      | untouched clear live => exact .untouched clear fun side => (same side).trans (live side)
      | failed side later flags stopped => exact .failed side later flags (by rw [same]; exact stopped)
      | told first later raised => exact .told first later raised
  | told _ side told stops same =>
      rw [List.append_nil]
      refine ⟨?_, (List.append_nil _).symm⟩
      cases h with
      | untouched clear live => simp [clear] at told
      | failed first later flags stopped =>
          -- Only the side that did not fail was told.
          rw [flags] at told
          obtain rfl : side = first.other := (Flags.tells_fail_clear ..).mp told
          have hother : first.other.other = first := by cases first <;> rfl
          rw [hother] at same
          exact .failed first later flags (by rw [same]; exact stopped)
      | told first later raised => exact .told first later raised
  | failed _ side error live stops same =>
      cases h with
      | untouched clear _ =>
          rw [clear]
          exact ⟨.failed side [] rfl (by rw [stops]; rfl), rfl⟩
      | failed first later flags stopped =>
          have hclosing : f.closing = true := by
            rw [flags]
            exact Flags.closing_fail_clear first
          rw [Flags.fail_of_closing hclosing, if_pos hclosing]
          refine ⟨.failed first _ flags ?_, (List.append_nil _).symm⟩
          -- The side that failed first has stopped, so it is the other one that fails now.
          rcases Client.eq_or_eq_other side first with rfl | rfl
          · rw [stops]
            rfl
          · rw [same]
            exact stopped
      | told first later raised =>
          have hclosing : f.closing = true := by
            rw [raised]
            rfl
          rw [Flags.fail_of_closing hclosing, if_pos hclosing]
          exact ⟨.told first _ raised, (List.append_nil _).symm⟩
  | dropped cause foreign =>
      cases h with
      | untouched clear live => exact ⟨.told cause [] rfl, by simp [owed, foreign]⟩
      | failed side later flags stopped =>
          exact ⟨.told (.failure side) _ rfl, (List.append_nil _).symm⟩
      | told first later raised => exact ⟨.told first _ rfl, (List.append_nil _).symm⟩

end Stage

namespace Registry

/-- The end that handling a request is for a client. A shutdown ends the members, every other request
those who refuse a batch. -/
def drops (r : Registry) (request : Request) (id : ClientId) : List Cause :=
  if request = .shutDown then
    if r.running = true ∧ id ∈ r.members.ids then [.shutDown] else []
  else if refusedIn id (r.handle request).rounds then [.eviction]
  else []

theorem flags?_of_drops (r : Registry) (request : Request) (id : ClientId) :
    (r.drops request id = [] ∧ (r.handle request).registry.flags? id = r.flags? id) ∨
      ∃ cause : Cause, cause.isFailure = false ∧ r.drops request id = [cause] ∧
        (r.handle request).registry.flags? id = (r.flags? id).map fun _ => .raised := by
  unfold drops
  by_cases hrequest : request = .shutDown
  · rw [if_pos hrequest, hrequest]
    by_cases hrunning : r.running = true
    · have hhandled : (r.handle .shutDown).registry = r.shutDown := by simp [handle, hrunning]
      rw [hhandled, flags?_shutDown]
      by_cases hid : id ∈ r.members.ids
      · rw [if_pos ⟨hrunning, hid⟩, if_pos hid]
        exact .inr ⟨.shutDown, rfl, rfl, rfl⟩
      · rw [if_neg fun h => hid h.2, if_neg hid]
        exact .inl ⟨rfl, rfl⟩
    · have hhandled : (r.handle .shutDown).registry = r := by simp [handle, hrunning]
      rw [hhandled, if_neg fun h => hrunning h.1]
      exact .inl ⟨rfl, rfl⟩
  · rw [if_neg hrequest, flags?_handle r hrequest]
    cases refusedIn id (r.handle request).rounds with
    | true => exact .inr ⟨.eviction, rfl, rfl, rfl⟩
    | false => exact .inl ⟨rfl, rfl⟩

end Registry

namespace Network

/-- The end that an event is for a client, other than by a failure of its connection. -/
def dropsIn (n : Network) (e : Event) (id : ClientId) : List Cause :=
  match e with
  | .move (.disconnect j) => if j = id then [.disconnect] else []
  | .task .registry => n.queue.head?.elim [] fun request => n.registry.drops request id
  | _ => []

theorem dropsIn_registry (n : Network) (id : ClientId) :
    n.dropsIn (.task .registry) id =
      n.queue.head?.elim [] fun request => n.registry.drops request id := rfl

/-- The causes for which a connection ends that an event brings. -/
def causesIn (n : Network) (e : Event) (id : ClientId) : List Cause :=
  match n.phase? id, (n.react e).phase? id with
  | some p, some q => p.failures q ++ n.dropsIn e id
  | _, _ => []

/-- The requests that a connection sends in an event, whether or not the registry takes them. -/
def saidIn (n : Network) (e : Event) (id : ClientId) : List Request :=
  let said (turn? : Client → Connection → Option Turn) : List Request :=
    match n.client? id, n.connection? id with
    | some c, some k => (turn? c k).elim [] Turn.requests
    | _, _ => []
  match e with
  | .task (.read j) => if j = id then said fun c k => k.readTurn? n.now n.registry.running j c else []
  | .task (.stop j) => if j = id then said fun c k => k.stopTurn? c else []
  | .task (.write j) => if j = id then said fun c k => k.writeTurn? n.now j c else []
  | _ => []

/-- The causes of a run, in their order. -/
def causesOf (past : List (Network × Event)) (id : ClientId) : List Cause :=
  past.flatMap fun s => s.1.causesIn s.2 id

def saidOf (past : List (Network × Event)) (id : ClientId) : List Request :=
  past.flatMap fun s => s.1.saidIn s.2 id

section
variable {n : Network} {id j : ClientId} {f : Flags} {p : Phase} {task : Task}
  {side : Client → Connection → Option Turn}

/-- What an event does to the connection of a client that was built. -/
def Changes (n : Network) (e : Event) (id : ClientId) (f : Flags) (p : Phase) : Prop :=
  ∃ g q, (n.react e).flags? id = some g ∧ (n.react e).phase? id = some q ∧
    Change id f p g q (n.causesIn e id) (n.saidIn e id)

theorem Changes.of_same {e : Event} {q : Phase} (hp : n.phase? id = some p)
    (hf : (n.react e).flags? id = some f) (hq : (n.react e).phase? id = some q)
    (hsame : ∀ side, q.stop? side = p.stop? side) (hdrops : n.dropsIn e id = [])
    (hsaid : n.saidIn e id = []) : n.Changes e id f p := by
  refine ⟨f, q, hf, hq, ?_⟩
  have hcauses : n.causesIn e id = [] := by
    simp only [causesIn, hp, hq, hdrops, List.append_nil]
    exact Phase.failures_of_none fun side => Phase.fails_of_same (hsame side)
  rw [hcauses, hsaid]
  exact .quiet q [] hsame (by simp)

theorem Changes.of_drop {e : Event} {cause : Cause} (hp : n.phase? id = some p)
    (hf : (n.react e).flags? id = some .raised) (hq : (n.react e).phase? id = some p)
    (hdrops : n.dropsIn e id = [cause]) (hforeign : cause.isFailure = false)
    (hsaid : n.saidIn e id = []) : n.Changes e id f p := by
  refine ⟨.raised, p, hf, hq, ?_⟩
  have hcauses : n.causesIn e id = [cause] := by
    simp only [causesIn, hp, hq, hdrops]
    rw [Phase.failures_of_none fun side => Phase.fails_of_same rfl]
    rfl
  rw [hcauses, hsaid]
  exact .dropped cause hforeign

/-- The flags of a client are as before, and so is what stopped each side of its connection. -/
def Alike (n m : Network) (id : ClientId) : Prop :=
  m.flags? id = n.flags? id ∧
    ∀ side, (m.phase? id).map (fun q => q.stop? side) = (n.phase? id).map fun p => p.stop? side

section
variable {m : Network} {j : ClientId}

theorem Alike.of_eq (hflags : m.flags? id = n.flags? id) (hphase : m.phase? id = n.phase? id) :
    n.Alike m id :=
  ⟨hflags, fun side => by rw [hphase]⟩

/-- A connection that has not been started gets into another phase in which both sides could run. -/
theorem Alike.of_fresh {q : Phase} (hfresh : n.isFresh id = true) (hflags : m.flags? id = n.flags? id)
    (hphase : m.phase? id = some q) (hstop : ∀ side, q.stop? side = none) : n.Alike m id := by
  obtain ⟨k, hk, hfresh⟩ := isFresh_iff.mp hfresh
  refine ⟨hflags, fun side => ?_⟩
  rw [hphase, phase?_of_connection? hk, hfresh, Option.map_some, Option.map_some, hstop,
    Phase.stop?_of_unstarted rfl]

theorem Alike.phase? (h : n.Alike m id) (hp : n.phase? id = some p) :
    ∃ q, m.phase? id = some q ∧ ∀ side, q.stop? side = p.stop? side := by
  have hstop : ∀ side, (m.phase? id).map (fun q => q.stop? side) = some (p.stop? side) := by
    intro side
    rw [h.2, hp, Option.map_some]
  obtain ⟨q, hq, -⟩ := Option.map_eq_some_iff.mp (hstop .read)
  refine ⟨q, hq, fun side => ?_⟩
  have := hstop side
  rw [hq, Option.map_some] at this
  exact Option.some.inj this

theorem alike_abandon {phase : Phase} (hfresh : n.isFresh j = true) (hphase : phase.isStarted = false) :
    n.Alike (n.abandon j phase) id := by
  by_cases hj : id = j
  · subst hj
    obtain ⟨k, hk, -⟩ := isFresh_iff.mp hfresh
    refine .of_fresh hfresh (flags?_abandon ..) ?_ (Phase.stop?_of_unstarted hphase)
    rw [phase?_abandon, if_pos rfl, phase?_of_connection? hk]
    rfl
  · exact .of_eq (flags?_abandon ..) (by rw [phase?_abandon, if_neg hj])

theorem alike_run (hfresh : n.isFresh j = true) : n.Alike (n.run j) id := by
  unfold run
  split
  · by_cases hj : id = j
    · subst hj
      obtain ⟨k, hk, -⟩ := isFresh_iff.mp hfresh
      have hstop : ∀ side, (Phase.running (.length [] n.now) .idle).stop? side = none := by
        intro side
        cases side with
        | read => rfl
        | write => rfl
      refine .of_fresh hfresh (by simp) ?_ hstop
      rw [phase?_enqueue, Network.phase?, connection?_modifyConnection, if_pos rfl, hk]
      rfl
    · refine .of_eq (by simp) ?_
      rw [phase?_enqueue, Network.phase?, connection?_modifyConnection, if_neg hj]
      rfl
  · exact alike_abandon hfresh rfl

theorem alike_built (hi : n.Issued) (hp : n.phase? id = some p) (config : Config)
    (buffer drawX drawY : Nat) : n.Alike (n.make (.build config buffer drawX drawY)) id := by
  rcases n.make_build config buffer drawX drawY with he | ⟨-, hpos, he⟩
  · rw [he]
    exact .of_eq rfl rfl
  · have hne : id ≠ n.ids.upcoming := by
      rintro rfl
      rw [Network.phase?, hi.connection?_upcoming hpos] at hp
      cases hp
    rw [he]
    exact .of_eq (by rw [flags?_built, if_neg hne]) (by rw [phase?_built, if_neg hne])

end

/-- Only being disconnected from outside ends a connection. -/
theorem make_alike (hi : n.Issued) {move : Move} (hmove : ∀ j, move ≠ .disconnect j)
    (hp : n.phase? id = some p) : n.Alike (n.make move) id := by
  have client : ∀ (j : ClientId) {f : Client → Client}, (∀ c, (f c).flags = c.flags) →
      n.Alike (n.modifyClient j f) id :=
    fun j _ h => .of_eq (flags?_modifyClient n j id h) (phase?_modifyClient ..)
  have connection : ∀ (j : ClientId) {f : Connection → Connection}, (∀ k, (f k).phase = k.phase) →
      n.Alike (n.modifyConnection j f) id :=
    fun j _ h => .of_eq (flags?_modifyConnection ..) (phase?_modifyConnection n j id h)
  cases move with
  | build config buffer drawX drawY => exact alike_built hi hp config buffer drawX drawY
  | start j =>
      change n.Alike (if n.isFresh j then n.run j else n) id
      split
      · next hfresh => exact alike_run hfresh
      · exact .of_eq rfl rfl
  | discard j =>
      change n.Alike (n.discard j) id
      unfold discard
      split
      · next hfresh => exact alike_abandon hfresh rfl
      · exact .of_eq rfl rfl
  | deliver j bytes =>
      change n.Alike (if n.admits j bytes then n.deliver j bytes else n) id
      split
      · exact connection j fun _ => rfl
      · exact .of_eq rfl rfl
  | withdraw j count => exact connection j fun _ => rfl
  | endStream j => exact connection j fun _ => rfl
  | hangUp j => exact connection j fun _ => rfl
  | disconnect j => exact absurd rfl (hmove j)
  | capture j => exact client j Client.flags_settle
  | offer j batch =>
      refine client j fun c => ?_
      rw [Client.getD_offer]
      rfl
  | ask request =>
      rw [make_ask]
      exact .of_eq (flags?_enqueue ..) (phase?_enqueue ..)
  | advance d => exact .of_eq rfl rfl

theorem changes_disconnect (j : ClientId) (hf : n.flags? id = some f) (hp : n.phase? id = some p) :
    n.Changes (.move (.disconnect j)) id f p := by
  have hphase : (n.make (.disconnect j)).phase? id = some p :=
    (phase?_modifyClient n j id Client.disconnect).trans hp
  by_cases hj : j = id
  · subst hj
    obtain ⟨c, hc, -⟩ := client?_of_flags? hf
    refine .of_drop hp ?_ hphase (if_pos rfl) rfl rfl
    change ((n.modifyClient j Client.disconnect).client? j).map Client.flags = _
    rw [client?_modifyClient, if_pos rfl, hc]
    rfl
  · refine .of_same hp ?_ hphase (fun _ => rfl) (if_neg hj) rfl
    change ((n.modifyClient j Client.disconnect).client? id).map Client.flags = _
    rw [client?_modifyClient, if_neg (Ne.symm hj)]
    exact hf

theorem changes_make (hi : n.Issued) (move : Move) (hf : n.flags? id = some f)
    (hp : n.phase? id = some p) : n.Changes (.move move) id f p := by
  by_cases hmove : ∃ j, move = .disconnect j
  · obtain ⟨j, rfl⟩ := hmove
    exact changes_disconnect j hf hp
  · have hne : ∀ j, move ≠ .disconnect j := fun j hj => hmove ⟨j, hj⟩
    have halike : n.Alike (n.make move) id := make_alike hi hne hp
    obtain ⟨q, hphase, hsame⟩ := halike.phase? hp
    have hdrops : n.dropsIn (.move move) id = [] := by
      cases move with
      | disconnect j => exact absurd rfl (hne j)
      | _ => rfl
    exact .of_same hp (halike.1.trans hf) hphase hsame hdrops rfl

/-- A task that has nothing to do. -/
theorem changes_of_none (hs : n.step? task = none) (hf : n.flags? id = some f)
    (hp : n.phase? id = some p) (hdrops : n.dropsIn (.task task) id = [])
    (hsaid : n.saidIn (.task task) id = []) : n.Changes (.task task) id f p := by
  have hreact := react_of_none hs
  exact .of_same hp (by rw [hreact]; exact hf) (by rw [hreact]; exact hp) (fun _ => rfl) hdrops hsaid

theorem changes_registry (hf : n.flags? id = some f) (hp : n.phase? id = some p) :
    n.Changes (.task .registry) id f p := by
  cases hs : n.step? .registry with
  | none =>
      have hq : n.queue = [] := registryStep?_eq_none hs
      exact changes_of_none hs hf hp (by rw [dropsIn_registry, hq]; rfl) rfl
  | some m =>
      obtain ⟨request, rest, hq, hregistry, -, hconnections, -⟩ := registryStep?_eq_some hs
      have hreact := react_of_some hs
      have hphase : (n.react (.task .registry)).phase? id = some p := by
        rw [hreact, phase?, connection?, hconnections]
        exact hp
      have hflags : (n.react (.task .registry)).flags? id =
          (n.registry.handle request).registry.flags? id := by
        rw [hreact, flags?, hregistry]
      have hdrops : n.dropsIn (.task .registry) id = n.registry.drops request id := by
        rw [dropsIn_registry, hq]
        rfl
      change n.registry.flags? id = _ at hf
      rcases n.registry.flags?_of_drops request id with ⟨hnone, hkept⟩ | ⟨cause, hc, hone, hraised⟩
      · exact .of_same hp (by rw [hflags, hkept, hf]) hphase (fun _ => rfl) (hdrops.trans hnone) rfl
      · exact .of_drop hp (by rw [hflags, hraised, hf]; rfl) hphase (hdrops.trans hone) hc rfl

/-- A turn of someone else. -/
theorem changes_other (hstep : n.step? task = n.turn? j side) (hj : j ≠ id)
    (hf : n.flags? id = some f) (hp : n.phase? id = some p)
    (hdrops : n.dropsIn (.task task) id = []) (hsaid : n.saidIn (.task task) id = []) :
    n.Changes (.task task) id f p := by
  cases hs : n.step? task with
  | none => exact changes_of_none hs hf hp hdrops hsaid
  | some m =>
      obtain ⟨c, k, t, -, -, -, rfl⟩ := turn?_eq_some (hstep.symm.trans hs)
      have hreact := react_of_some hs
      refine .of_same hp ?_ ?_ (fun _ => rfl) hdrops hsaid
      · rw [hreact, flags?_apply, if_neg (Ne.symm hj)]
        exact hf
      · rw [hreact, phase?_apply, if_neg (Ne.symm hj)]
        exact hp

/-- A turn of its own, if the side has one. -/
theorem changes_own (hstep : n.step? task = n.turn? id side) {c : Client} {k : Connection}
    (hc : n.client? id = some c) (hk : n.connection? id = some k)
    (hdrops : n.dropsIn (.task task) id = [])
    (hsaid : n.saidIn (.task task) id = (side c k).elim [] Turn.requests)
    (hturn : ∀ t, side c k = some t → Change id c.flags k.phase t.client.flags t.connection.phase
      (k.phase.failures t.connection.phase) t.requests) :
    n.Changes (.task task) id c.flags k.phase := by
  have hf := flags?_of_client? hc
  have hp := phase?_of_connection? hk
  cases ht : side c k with
  | none =>
      have hs : n.step? task = none := hstep.trans (by simp [turn?, hc, hk, ht])
      rw [ht] at hsaid
      exact changes_of_none hs hf hp hdrops hsaid
  | some t =>
      have hreact : n.react (.task task) = n.apply id t := by
        refine react_of_some (hstep.trans ?_)
        simp [turn?, hc, hk, ht]
      rw [ht] at hsaid
      have hphase : (n.react (.task task)).phase? id = some t.connection.phase := by
        rw [hreact, phase?_apply, if_pos rfl]
      refine ⟨t.client.flags, t.connection.phase, ?_, hphase, ?_⟩
      · rw [hreact, flags?_apply, if_pos rfl]
      · have hcauses : n.causesIn (.task task) id = k.phase.failures t.connection.phase := by
          simp only [causesIn, hp, hphase, hdrops, List.append_nil]
        rw [hcauses, hsaid]
        exact hturn t ht

theorem changes (hi : n.Issued) (e : Event) (hf : n.flags? id = some f)
    (hp : n.phase? id = some p) : n.Changes e id f p := by
  obtain ⟨c, hc, rfl⟩ := client?_of_flags? hf
  obtain ⟨k, hk, rfl⟩ := connection?_of_phase? hp
  cases e with
  | move move => exact changes_make hi move hf hp
  | task task =>
      cases task with
      | registry => exact changes_registry hf hp
      | read j =>
          by_cases hj : j = id
          · subst hj
            refine changes_own rfl hc hk rfl (by simp [saidIn, hc, hk]) fun t ht => ?_
            obtain ⟨reader, writer, hphase, hr, hturn⟩ := Connection.readTurn?_cases ht
            exact Connection.ReadTurn.change hturn hphase hr
          · exact changes_other rfl hj hf hp rfl (if_neg hj)
      | stop j =>
          by_cases hj : j = id
          · subst hj
            refine changes_own rfl hc hk rfl (by simp [saidIn, hc, hk]) fun t ht => ?_
            obtain ⟨reader, writer, hphase, hw, hturn⟩ := Connection.stopTurn?_cases ht
            exact Connection.WriteTurn.change hturn hphase hw
          · exact changes_other rfl hj hf hp rfl (if_neg hj)
      | write j =>
          by_cases hj : j = id
          · subst hj
            refine changes_own rfl hc hk rfl (by simp [saidIn, hc, hk]) fun t ht => ?_
            obtain ⟨reader, writer, hphase, hw, hturn⟩ := Connection.writeTurn?_cases ht
            exact Connection.WriteTurn.change hturn hphase hw
          · exact changes_other rfl hj hf hp rfl (if_neg hj)

end

/-- The client is not known yet, or it is at the stage to which some causes have brought it. -/
def Reached (n : Network) (id : ClientId) (causes : List Cause) : Prop :=
  (n.flags? id = none ∧ n.phase? id = none ∧ causes = []) ∨
    ∃ f p, n.flags? id = some f ∧ n.phase? id = some p ∧ Stage f p causes

theorem saidIn_of_unknown {n : Network} {id : ClientId} (h : n.client? id = none) (e : Event) :
    n.saidIn e id = [] := by
  cases e with
  | move move => rfl
  | task task => cases task <;> simp [saidIn, h]

theorem Made.unknown {n m : Network} (h : n.Made m) {id : ClientId} (hc : n.client? id = none)
    (hk : n.connection? id = none) :
    (m.flags? id = none ∧ m.phase? id = none) ∨
      (m.flags? id = some .clear ∧ m.phase? id = some .fresh) := by
  have still : ∀ {m : Network}, m.client? id = none → m.connection? id = none →
      (m.flags? id = none ∧ m.phase? id = none) ∨
        (m.flags? id = some .clear ∧ m.phase? id = some .fresh) :=
    fun hc hk => .inl ⟨Option.map_eq_none_iff.mpr hc, Option.map_eq_none_iff.mpr hk⟩
  cases h with
  | nothing => exact still hc hk
  | built hpos config buffer drawX drawY =>
      by_cases hid : id = n.ids.upcoming
      · exact .inr ⟨by rw [flags?_built, if_pos hid], by rw [phase?_built, if_pos hid]⟩
      · exact still (by rw [client?_built, if_neg hid, hc]) (by rw [connection?_built, if_neg hid, hk])
  | connection j f requests => exact still (by simp [hc]) (by simp [connection?_modifyConnection, hk])
  | abandoned j phase =>
      exact still (by simp [client?_abandon, hc]) (by simp [connection?_abandon, hk])
  | client j f => exact still (by simp [client?_modifyClient, hc]) (by simp [hk])
  | captured j => exact still (by simp [client?_modifyClient, hc]) (by simp [hk])
  | asked => exact still (by simp [hc]) (by simp [hk])
  | advanced => exact still hc hk

theorem react_unknown {n : Network} {id : ClientId} (hf : n.flags? id = none)
    (hp : n.phase? id = none) (e : Event) :
    ((n.react e).flags? id = none ∧ (n.react e).phase? id = none) ∨
      ((n.react e).flags? id = some .clear ∧ (n.react e).phase? id = some .fresh) := by
  have hc : n.client? id = none := Option.map_eq_none_iff.mp hf
  have hk : n.connection? id = none := Option.map_eq_none_iff.mp hp
  cases e with
  | move move => exact (n.made move).unknown hc hk
  | task task =>
      refine .inl ?_
      cases hs : n.step? task with
      | none =>
          rw [react_of_none hs]
          exact ⟨hf, hp⟩
      | some m =>
          rw [react_of_some hs]
          rcases step?_cases hs with ⟨-, hr⟩ | ⟨-, j, c, k, t, ht, rfl⟩
          · obtain ⟨request, rest, -, hregistry, -, hconnections, -⟩ := registryStep?_eq_some hr
            change n.registry.flags? id = none at hf
            refine ⟨?_, by rw [phase?, connection?, hconnections]; exact hp⟩
            rw [flags?, hregistry]
            rcases n.registry.flags?_of_drops request id with ⟨-, h⟩ | ⟨-, -, -, h⟩
            · rw [h, hf]
            · rw [h, hf]
              rfl
          · have hj : id ≠ j := by
              rintro rfl
              rw [ht.client] at hc
              cases hc
            exact ⟨by rw [flags?_apply, if_neg hj, hf], by rw [phase?_apply, if_neg hj, hp]⟩

theorem Reached.react {n : Network} {id : ClientId} {causes : List Cause}
    (h : n.Reached id causes) (hi : n.Issued) (e : Event) :
    (n.react e).Reached id (causes ++ n.causesIn e id) ∧
      owed id (causes ++ n.causesIn e id) =
        owed id causes ++ (n.saidIn e id).filter Request.isLeave := by
  rcases h with ⟨hf, hp, rfl⟩ | ⟨f, p, hf, hp, hs⟩
  · have hcauses : n.causesIn e id = [] := by simp [causesIn, hp]
    have hsaid : n.saidIn e id = [] := saidIn_of_unknown (Option.map_eq_none_iff.mp hf) e
    rw [hcauses, hsaid]
    refine ⟨?_, rfl⟩
    rcases react_unknown hf hp e with ⟨hg, hq⟩ | ⟨hg, hq⟩
    · exact .inl ⟨hg, hq, rfl⟩
    · exact .inr ⟨.clear, .fresh, hg, hq, .untouched rfl (Phase.stop?_of_unstarted rfl)⟩
  · obtain ⟨g, q, hg, hq, hchange⟩ := changes hi e hf hp
    obtain ⟨hstage, howed⟩ := hs.change hchange
    exact ⟨.inr ⟨g, q, hg, hq, hstage⟩, howed⟩

theorem reached_after (ids : IdentifierSource) (events : List Event) (id : ClientId) :
    let n := ({ ids } : Network).after events
    let past := ({ ids } : Network).trace events
    n.Issued ∧ n.Reached id (causesOf past id) ∧
      (saidOf past id).filter Request.isLeave = owed id (causesOf past id) := by
  refine run_induction
    (P := fun past n => n.Issued ∧ n.Reached id (causesOf past id) ∧
      (saidOf past id).filter Request.isLeave = owed id (causesOf past id))
    (Q := fun _ _ => True) ?_ ?_ events fun _ _ => trivial
  · rintro past n e ⟨hi, hr, hleaves⟩ -
    obtain ⟨hnext, howed⟩ := hr.react hi e
    have hcauses : causesOf (past ++ [(n, e)]) id = causesOf past id ++ n.causesIn e id := by
      simp [causesOf]
    have hsaid : saidOf (past ++ [(n, e)]) id = saidOf past id ++ n.saidIn e id := by
      simp [saidOf]
    rw [hcauses, hsaid, List.filter_append, hleaves]
    exact ⟨hi.react e, hnext, howed.symm⟩
  · exact ⟨issued_empty ids, .inl ⟨rfl, rfl, rfl⟩, rfl⟩

/-- A connection asks at most once to be removed, and it does if and only if what came first of all
that could end it was a failure of its own. In every event the flags of its client only go up, and a
failure that is not the first cause changes no flag and sends nothing. A side that was told to stop
belongs to a connection that is closing; and if one side has stopped, the other one has stopped as
well or was told to. -/
theorem asks_once_to_leave (ids : IdentifierSource) (events : List Event) (id : ClientId) :
    let n := ({ ids } : Network).after events
    let past := ({ ids } : Network).trace events
    let leaves := (saidOf past id).filter Request.isLeave
    leaves.length ≤ 1 ∧
      (leaves = [.leave id] ↔ ∃ side, (causesOf past id).head? = some (.failure side)) ∧
      (∀ e f, n.flags? id = some f → ∃ g, (n.react e).flags? id = some g ∧ f ≤ g ∧
        ∀ side, .failure side ∈ n.causesIn e id → causesOf past id ≠ [] →
          g = f ∧ n.saidIn e id = []) ∧
      ∀ f p, n.flags? id = some f → n.phase? id = some p →
        (∀ side, f.tells side = true → f.closing = true) ∧
          ∀ side, (p.stop? side).isSome →
            (p.stop? side.other).isSome ∨ f.tells side.other = true := by
  intro n past leaves
  obtain ⟨hi, hreached, hleaves⟩ := reached_after ids events id
  change leaves = owed id (causesOf past id) at hleaves
  have hstage : ∀ f, n.flags? id = some f →
      ∃ p, n.phase? id = some p ∧ Stage f p (causesOf past id) := by
    intro f hf
    rcases hreached with ⟨hnone, -, -⟩ | ⟨g, p, hg, hp, hs⟩
    · rw [hnone] at hf
      cases hf
    · obtain rfl : g = f := Option.some.inj (hg.symm.trans hf)
      exact ⟨p, hp, hs⟩
  refine ⟨?_, ?_, ?_, ?_⟩
  · rw [hleaves]
    cases causesOf past id with
    | nil => exact Nat.zero_le 1
    | cons first later => cases first <;> simp [owed, Cause.isFailure]
  · rw [hleaves]
    cases causesOf past id with
    | nil => simp [owed]
    | cons first later => cases first <;> simp [owed, Cause.isFailure]
  · intro e f hf
    obtain ⟨p, hp, hs⟩ := hstage f hf
    obtain ⟨g, q, hg, -, hchange⟩ := changes hi e hf hp
    refine ⟨g, hg, hchange.le, ?_⟩
    intro side hfailure hlater
    have hclosing := hs.closing_of_ne_nil hlater
    exact hchange.of_failure hclosing hfailure
  · intro f p hf hp
    obtain ⟨q, hq, hs⟩ := hstage f hf
    obtain rfl : q = p := Option.some.inj (hq.symm.trans hp)
    exact ⟨fun side => hs.closing_of_tells, fun side => hs.stopped_or_told⟩

/-- The peer goes away while the first batch waits: the read side fails, then the write side, and then
the client is disconnected from outside. -/
def lonelyEnd : List Event :=
  [.move (.build {} 256 0 0), .move (.start 1), .task .registry, .move (.hangUp 1),
    .task (.read 1), .task (.write 1), .task (.write 1), .move (.disconnect 1)]

theorem asks_once_in_lonelyEnd :
    let past := ({} : Network).trace lonelyEnd
    causesOf past 1 = [.failure .read, .failure .write, .disconnect] ∧
      (saidOf past 1).filter Request.isLeave = [.leave 1] ∧
      (({} : Network).after lonelyEnd).flags? 1 = some .raised := by
  intro past
  have hcauses : causesOf past 1 = [.failure .read, .failure .write, .disconnect] := by
    decide +kernel
  obtain ⟨-, hiff, -, -⟩ := asks_once_to_leave {} lonelyEnd 1
  exact ⟨hcauses, hiff.mpr ⟨.read, by rw [hcauses]; rfl⟩, by decide +kernel⟩

end Network
end PositionRelay
