import PositionRelay.Proofs.Session.Handshake
import PositionRelay.Proofs.Session.Reports

/-!
# Where a session is

A session is used in any order of reports and reads, while anything may arrive on its stream and any
write may fail. Its identifier is that of the record it began with, for good. Its position is that of
the last record under this identifier that was written as a whole: a read leaves it alone, whatever it
brings, and so does a write that fails or a record under another identifier. So the movement in the
report of a move is the distance from there (`position_follows_reports`).
-/
namespace PositionRelay.Session

open Wire
open Record (placeAfter)

/-- How the write of a frame comes out. -/
inductive Written where
  | whole
  /-- The write fails when some bytes of the frame are already gone. -/
  | broken (fault : IoFault) (gone : Nat)
deriving DecidableEq, Repr

namespace Written

def result : Written → Except IoFault Unit
  | whole => .ok ()
  | broken fault _ => .error fault

/-- The bytes of a frame that reach the wire. -/
def part (frame : Bytes) : Written → Bytes
  | whole => frame
  | broken _ gone => frame.take gone

end Written

/-- What happens to a session. -/
inductive Event where
  | report (c : Call) (written : Written)
  | read
  | readUntil (accept : Batch → Bool)
  /-- More arrives from the server; after it the stream has ended, or goes on. -/
  | arrive (more : Source)

/-- A session in use, with what it has still to read and what it has written. -/
structure Exchange where
  session : Session
  source : Source
  /-- The records of all reports, each with how its write came out. -/
  written : List (Record × Written) := []

namespace Exchange

def react (e : Exchange) : Event → Exchange
  | .report c written =>
      { e with
        session := e.session.afterCall (c, written.result)
        written := e.written ++ [(e.session.report c, written)] }
  | .read => { e with source := (e.session.nextSnapshot e.source).2 }
  | .readUntil accept => { e with source := (e.session.waitFor accept e.source).2 }
  | .arrive more => { e with source := ⟨e.source.arrivals ++ more.arrivals, more.ended⟩ }

def after (e : Exchange) (events : List Event) : Exchange := events.foldl react e

/-- The bytes that the reports have put on the wire. -/
def wire (e : Exchange) : Bytes := e.written.flatMap fun w => w.2.part (encodeFrame [w.1])

/-- The records that were written as a whole. -/
def delivered (e : Exchange) : List Record := (e.written.filter (·.2 = .whole)).map Prod.fst

end Exchange

/-- The event puts a record under this identifier on the wire as a whole. -/
def Event.Moves (id : ClientId) : Event → Prop
  | .report (.move _ _) written => written = .whole
  | .report (.send r) written => r.id = id ∧ written = .whole
  | _ => False

section
variable (s : Session) (c : Call)

theorem afterCall_broken (fault : IoFault) : s.afterCall (c, .error fault) = s := by
  cases c <;> rfl

theorem afterCall_foreign {r : Record} (h : r.id ≠ s.id) (result : Except IoFault Unit) :
    s.afterCall (.send r, result) = s := by
  cases result with
  | error fault => exact s.afterCall_broken _ fault
  | ok _ => exact if_neg h

end

namespace Exchange

section
variable (e : Exchange) (event : Event) (c : Call) (written : Written)

theorem delivered_report :
    (e.react (.report c written)).delivered =
      e.delivered ++ e.session.reported (c, written.result) := by
  rw [delivered, react, List.filter_append, List.map_append]
  cases written <;> rfl

theorem wire_report :
    (e.react (.report c written)).wire =
      e.wire ++ written.part (encodeFrame [e.session.report c]) := by
  rw [wire, react, List.flatMap_append, List.flatMap_singleton]
  rfl

/-- The session stays as it is unless it writes a record of its own. -/
theorem session_react_of_not_moves (h : ¬ event.Moves e.session.id) :
    (e.react event).session = e.session := by
  cases event with
  | report c written =>
      cases written with
      | broken fault gone => exact e.session.afterCall_broken c fault
      | whole =>
          cases c with
          | move x y => exact absurd rfl h
          | send r => exact e.session.afterCall_foreign (fun hid => h ⟨hid, rfl⟩) _
  | read => rfl
  | readUntil accept => rfl
  | arrive more => rfl

end

/-- The session has the identifier of the record that it began with, and is where the last of its own
records says that was written as a whole. -/
structure Tracks (own : Record) (e : Exchange) : Prop where
  id : e.session.id = own.id
  position : e.session.position = placeAfter own.place (e.delivered.filter (·.id = own.id))

section
variable {own : Record} {e : Exchange}

theorem tracks_begin (own : Record) (patience : Duration) (source : Source) :
    Tracks own ⟨⟨own, patience⟩, source, []⟩ := ⟨rfl, rfl⟩

/-- What is written moves the session, and what is read does not. -/
theorem Tracks.react (h : Tracks own e) (event : Event) : Tracks own (e.react event) := by
  cases event with
  | report c written =>
      have hmoved := e.session.position_afterCall (c, written.result)
      refine ⟨(e.session.id_afterCall _).trans h.id, ?_⟩
      rw [delivered_report, List.filter_append, Record.placeAfter_append, ← h.position, ← h.id]
      exact hmoved
  | read => exact ⟨h.id, h.position⟩
  | readUntil accept => exact ⟨h.id, h.position⟩
  | arrive more => exact ⟨h.id, h.position⟩

theorem Tracks.after (h : Tracks own e) (events : List Event) : Tracks own (e.after events) := by
  induction events generalizing e with
  | nil => exact h
  | cons event rest ih => exact ih (h.react event)

end

end Exchange

/-- A session in use. It begins with a record under a valid identifier, which is the first frame of the
stream. After any events the identifier is that of this record, and the position that of the last record
under it that was written as a whole, or of the first record. Any other event leaves the session as it
is. The report of a move carries the identifier, the place and the distance to it from the position just
before; its frame is what reaches the wire, up to where the write breaks off, and decodes to it. -/
theorem position_follows_reports {patience : Duration} {source left : Source} {s : Session}
    (h : begin patience source = (.ok s, left)) :
    ∃ own, 0 < own.id ∧ source.bytes = encodeFrame [own] ++ left.bytes ∧
      ∀ events,
        let e := Exchange.after ⟨s, left, []⟩ events
        e.session.id = own.id ∧
          e.session.position = placeAfter own.place (e.delivered.filter (·.id = own.id)) ∧
          (∀ event : Event, ¬ event.Moves own.id → (e.react event).session = e.session) ∧
          ∀ x y written,
            let r : Record := ⟨own.id, x, y,
              (x.sub e.session.position.1).hypot (y.sub e.session.position.2)⟩
            (e.react (.report (.move x y) written)).wire =
                e.wire ++ written.part (encodeFrame [r]) ∧
              ∀ rest, decodeFrame (encodeFrame [r] ++ rest) =
                .ok (.update r, (encodeFrame [r]).length) := by
  obtain ⟨hvalid, rfl, hfirst⟩ := bytes_of_begin h
  refine ⟨s.own, hvalid, hfirst, fun events => ?_⟩
  intro e
  have htracks : e.Tracks s.own := (Exchange.tracks_begin s.own s.patience left).after events
  refine ⟨htracks.id, htracks.position, fun event hevent => ?_, fun x y written => ?_⟩
  · rw [← htracks.id] at hevent
    exact e.session_react_of_not_moves event hevent
  · intro r
    have hreport : e.session.report (.move x y) = r := by
      rw [report, moveRecord, htracks.id]
      rfl
    refine ⟨?_, decodeFrame_update hvalid⟩
    rw [e.wire_report, hreport]

/-- The frame of the first record comes in two pieces, the second of which holds a snapshot as well. -/
def hello : Source where
  arrivals :=
    let frame := encodeFrame [.resting 7 (.ofNat 1) (.ofNat 2)]
    let snapshot := encodeFrame [.resting 7 (.ofNat 9) (.ofNat 9), .resting 8 .zero .zero]
    [.pause ⟨500⟩, .chunk (frame.take 20), .chunk (frame.drop 20 ++ snapshot)]
  ended := false

/-- A snapshot that has the client elsewhere, a move, a move whose write breaks off, a report under a
foreign identifier, and a wait that ends with the connection. -/
def stroll : List Event :=
  [.read, .report (.move (.ofNat 4) (.ofNat 6)) .whole,
    .report (.move (.ofNat 9) (.ofNat 9)) (.broken .connectionReset 20),
    .report (.send (.resting 8 .zero .zero)) .whole,
    .arrive { arrivals := [.pause ⟨5000⟩, .fault .connectionReset] }, .readUntil fun _ => false]

/-- Only the first move counts: the next one is reported as five from there. -/
theorem position_of_stroll :
    let s : Session := ⟨.resting 7 (.ofNat 1) (.ofNat 2), ⟨1000⟩⟩
    let left := (begin s.patience hello).2
    let e := Exchange.after ⟨s, left, []⟩ stroll
    begin s.patience hello = (.ok s, left) ∧ e.session.id = 7 ∧
      e.session.position = (.ofNat 4, .ofNat 6) ∧
      (e.react (.report (.move (.ofNat 7) (.ofNat 10)) .whole)).wire =
        e.wire ++ encodeFrame [⟨7, .ofNat 7, .ofNat 10, .ofNat 5⟩] := by
  intro s left e
  have hbegin : begin s.patience hello = (.ok s, left) := Prod.ext (by decide +kernel) rfl
  obtain ⟨own, -, -, hall⟩ := position_follows_reports hbegin
  have hown : own.id = 7 := (hall []).1.symm
  obtain ⟨hid, hposition, -, hmove⟩ := hall stroll
  rw [hown] at hid hposition
  have hdelivered : e.delivered.filter (·.id = 7) = [⟨7, .ofNat 4, .ofNat 6, .ofNat 5⟩] := by
    decide +kernel
  rw [hdelivered] at hposition
  have hplace : e.session.position = (.ofNat 4, .ofNat 6) := hposition
  obtain ⟨hwire, -⟩ := hmove (.ofNat 7) (.ofNat 10) .whole
  have hfive : Binary64.hypot ((Binary64.ofNat 7).sub (.ofNat 4)) ((Binary64.ofNat 10).sub (.ofNat 6)) =
      .ofNat 5 := by
    decide +kernel
  refine ⟨hbegin, hid, hplace, hwire.trans ?_⟩
  rw [hown, hplace, hfive]
  rfl

end PositionRelay.Session
