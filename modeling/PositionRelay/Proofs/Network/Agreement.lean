import PositionRelay.Proofs.Network.Feed
import PositionRelay.Proofs.Network.Inbound
import PositionRelay.Proofs.Session.Reports

/-!
# Where a client is

The server and the session of a client each keep where the client is. What the server keeps is the
place of the last report under a positive identifier, whatever identifier that is; the session goes
by its own identifier alone (`place_of_reports`). They agree if every report under a foreign
positive identifier is followed by one under the session's own, and may differ otherwise
(`places_after_foreign_report`).

Three things meet here. `Placed` follows the record of a client through a run: it is where the last
merged update says, and so it was at every moment before. What was merged is read off the stream
(`tracks_of_readsOn`), since a read side that goes on was never disturbed. And the session begins
with the record that the client had at some moment (`Greeted`).
-/
namespace PositionRelay

open Record (placeAfter)
open Connection (Account)

/-- Where the record of a client is. -/
def Registry.place? (r : Registry) (id : ClientId) : Option (Binary64 × Binary64) :=
  (r.record? id).map Record.place

theorem Registry.place?_handle (r : Registry) (request : Request) (id : ClientId) :
    (r.handle request).registry.place? id = r.place? id := by
  have hplace : ∀ r : Registry, r.place? id = (r.position? id).map Record.place := by
    intro r
    rw [place?, position?, Option.map_map]
    rfl
  rw [hplace, hplace, position?_handle]

namespace Network

section
variable {past : List (Network × Event)} {n : Network} {id : ClientId} {k j : Connection}
  {e : Event} {p : Binary64 × Binary64}

/-- A read side that goes on after an event went on before it. -/
theorem Evolves.canRead (h : n.Evolves id k e j) (hj : j.phase.canRead = true) :
    k.phase.canRead = true := by
  cases h with
  | unchanged => exact hj
  | started fresh => rw [fresh]; rfl
  | givenUp _ fresh => rw [fresh]; rfl
  | heard => exact hj
  | withdrawn => exact hj
  | ended => exact hj
  | hungUp => exact hj
  | read c t _ turn =>
      obtain ⟨reader, writer, hp, hlive, -⟩ := Connection.readTurn?_cases turn
      rw [hp, Phase.canRead, hlive]
      rfl
  | told c t _ turn =>
      obtain ⟨reader, writer, hp, -, -⟩ := @Connection.stopTurn?_cases _ id _ _ turn
      rw [Connection.stopTurn?_eq turn hp, Connection.canRead_become] at hj
      rw [hp]
      exact hj
  | wrote c t _ turn =>
      obtain ⟨reader, writer, hp, -, -⟩ := Connection.writeTurn?_cases turn
      obtain ⟨outbound, writer', -, -, hconnection, -⟩ := Connection.writeTurn?_gives turn hp
      rw [hconnection, Connection.canRead_become] at hj
      rw [hp]
      exact hj

theorem ReadsOn.of_react (h : (n.react e).ReadsOn id) (hi : n.Issued) : n.ReadsOn id := by
  intro k hk
  obtain ⟨j, hj, hevolves⟩ := evolves hi hk e
  exact hevolves.canRead (h j hj)

end

/-- A read side that goes on has done what its stream says. -/
theorem tracks_of_readsOn (ids : IdentifierSource) {events : List Event} {id : ClientId}
    (h : (({ ids } : Network).after events).ReadsOn id) :
    (({ ids } : Network).after events).Tracks id
      (accountOf (({ ids } : Network).trace events) id) := by
  have hboth := run_induction
    (P := fun past n => n.Issued ∧ (n.ReadsOn id → n.Tracks id (accountOf past id)))
    (Q := fun _ _ => True) (n := { ids }) ?_ ?_ events fun _ _ => trivial
  · exact hboth.2 h
  · rintro past n e ⟨hi, htracks⟩ -
    refine ⟨hi.react e, fun hon => ?_⟩
    rw [accountOf_append]
    exact (htracks (hon.of_react hi)).react hi (.inr hon)
  · refine ⟨issued_empty ids, fun _ => ⟨fun _ => rfl, ?_⟩⟩
    intro k hk
    cases hk

section
variable {past : List (Network × Event)} {n : Network} {id : ClientId} {e : Event}
  {p : Binary64 × Binary64}

theorem place?_apply (n : Network) (id j : ClientId) (t : Turn) :
    (n.apply id t).registry.place? j =
      if j = id then some t.client.record.place else n.registry.place? j := by
  rw [Registry.place?, record?_apply]
  split
  · rfl
  · rfl

theorem place?_of_client {c : Client} (hc : n.client? id = some c) :
    n.registry.place? id = some c.record.place := by
  rw [Registry.place?, record?_eq, hc]
  rfl

theorem place?_make (hi : n.Regular) (hp : n.registry.place? id = some p) (move : Move) :
    (n.make move).registry.place? id = some p := by
  unfold Registry.place? at hp ⊢
  rcases (n.made move).record? id with hr | hr | ⟨hpos, rfl, -⟩
  · rw [hr, hp]
  · rw [hr, Option.map_map]
    exact hp
  · -- A new client was not known.
    have hknown := hi.isSome_record? n.ids.upcoming
    obtain ⟨r, hr, -⟩ := Option.map_eq_some_iff.mp hp
    rw [hi.issued.connection?_upcoming hpos, hr] at hknown
    cases hknown

/-- The turn of a connection moves its client by the updates that it merges. -/
theorem place?_turn (hp : n.registry.place? id = some p) {j : ClientId} {c : Client} {t : Turn}
    (hc : n.client? j = some c) {us : List Record}
    (hrecord : t.client.record = us.foldl Record.merge c.record) :
    (n.apply j t).registry.place? id = some (placeAfter p (if j = id then us else [])) := by
  rw [place?_apply]
  by_cases hj : j = id
  · subst hj
    rw [place?_of_client hc] at hp
    rw [if_pos rfl, if_pos rfl, hrecord, Record.place_merges, Option.some.inj hp]
  · rw [if_neg (Ne.symm hj), if_neg hj, Record.placeAfter_nil, hp]

/-- A write side moves nobody. -/
theorem place?_write (hp : n.registry.place? id = some p) {j : ClientId} {c : Client}
    {k : Connection} {reader : Reader} {t : Turn} (hc : n.client? j = some c)
    (ht : Connection.WriteTurn k j c reader t) : (n.apply j t).registry.place? id = some p := by
  have hmoved := @place?_turn _ _ _ hp _ _ _ hc [] ht.record
  rwa [ite_self] at hmoved

theorem merged_accountIn_read (n : Network) (j id : ClientId) :
    (n.accountIn (.task (.read j)) id).merged = if j = id then n.mergedAt j else [] := by
  dsimp only [accountIn]
  split
  · rfl
  · rfl

/-- Only a read side merges anything. -/
theorem merged_accountIn_of_ne (h : ∀ j, e ≠ .task (.read j)) : (n.accountIn e id).merged = [] := by
  have hquiet : ∀ (q : Prop) [Decidable q] (a : Account), a.merged = [] →
      (if q then a else {}).merged = [] := by
    intro q _ a ha
    split
    · exact ha
    · rfl
  cases e with
  | move move =>
      cases move with
      | deliver j bytes => exact hquiet _ _ rfl
      | endStream j => exact hquiet _ _ rfl
      | hangUp j => exact hquiet _ _ rfl
      | _ => rfl
  | task task =>
      cases task with
      | read j => exact absurd rfl (h j)
      | registry => rfl
      | stop j => exact hquiet _ _ rfl
      | write j => exact hquiet _ _ rfl

/-- An event moves a client by the updates that are merged in it. -/
theorem place?_react (hr : n.Regular) (hp : n.registry.place? id = some p) (e : Event) :
    (n.react e).registry.place? id = some (placeAfter p (n.accountIn e id).merged) := by
  cases e with
  | move move =>
      rw [merged_accountIn_of_ne fun j => by simp]
      exact place?_make hr hp move
  | task task =>
      cases hs : n.step? task with
      | none =>
          have hmerged : (n.accountIn (.task task) id).merged = [] := by
            cases task with
            | read j => rw [merged_accountIn_read, mergedAt_of_none hs, ite_self]
            | _ => exact merged_accountIn_of_ne fun j => by simp
          rw [react_of_none hs, hmerged]
          exact hp
      | some m =>
          rw [react_of_some hs]
          cases task with
          | registry =>
              obtain ⟨request, rest, -, hregistry, -, -, -⟩ := registryStep?_eq_some hs
              rw [hregistry, Registry.place?_handle, merged_accountIn_of_ne fun j => by simp]
              exact hp
          | read j =>
              obtain ⟨c, k, t, hc, hk, ht, rfl⟩ := turn?_eq_some hs
              rw [merged_accountIn_read, mergedAt_of_some hs hc hk]
              exact place?_turn hp hc (Connection.record_readTurn? ht)
          | stop j =>
              obtain ⟨c, k, t, hc, hk, ht, rfl⟩ := turn?_eq_some hs
              obtain ⟨reader, writer, -, -, hturn⟩ := @Connection.stopTurn?_cases _ j _ _ ht
              rw [merged_accountIn_of_ne fun i => by simp]
              exact place?_write hp hc hturn
          | write j =>
              obtain ⟨c, k, t, hc, hk, ht, rfl⟩ := turn?_eq_some hs
              obtain ⟨reader, writer, -, -, hturn⟩ := Connection.writeTurn?_cases ht
              rw [merged_accountIn_of_ne fun i => by simp]
              exact place?_write hp hc hturn

/-- The record of a client is where the last update says that was merged into it. Where it was at any
moment before is what an earlier update said, or where it was put first. -/
inductive Placed (past : List (Network × Event)) (n : Network) (id : ClientId) : Prop where
  | unknown (now : n.registry.place? id = none) (before : ∀ s ∈ past, s.1.registry.place? id = none)
      (unmoved : (accountOf past id).merged = [])
  | known (start : Binary64 × Binary64)
      (now : n.registry.place? id = some (placeAfter start (accountOf past id).merged))
      (before : ∀ s ∈ past, ∀ p, s.1.registry.place? id = some p →
        ∃ us, us <+: (accountOf past id).merged ∧ p = placeAfter start us)

theorem merged_append : (accountOf (past ++ [(n, e)]) id).merged =
    (accountOf past id).merged ++ (n.accountIn e id).merged := by
  rw [accountOf_append]
  rfl

/-- Nothing is merged into a record that there is not. -/
theorem merged_accountIn_of_unknown (h : n.registry.place? id = none) :
    (n.accountIn e id).merged = [] := by
  by_cases he : e = .task (.read id)
  · subst he
    rw [merged_accountIn_read, if_pos rfl, mergedAt_of_none]
    have hc : n.client? id = none := by
      rw [Registry.place?, Option.map_eq_none_iff, record?_eq, Option.map_eq_none_iff] at h
      exact h
    rw [readStep?, turn?, hc]
  · by_cases hread : ∃ j, e = .task (.read j)
    · obtain ⟨j, rfl⟩ := hread
      rw [merged_accountIn_read, if_neg fun hj => he (by rw [hj])]
    · exact merged_accountIn_of_ne fun j hj => hread ⟨j, hj⟩

theorem Placed.react (h : Placed past n id) (hr : n.Regular) (e : Event) :
    Placed (past ++ [(n, e)]) (n.react e) id := by
  cases h with
  | unknown now before unmoved =>
      have hmerged : (accountOf (past ++ [(n, e)]) id).merged = [] := by
        rw [merged_append, unmoved, merged_accountIn_of_unknown now]
        rfl
      have hbefore : ∀ s ∈ past ++ [(n, e)], s.1.registry.place? id = none :=
        List.forall_mem_append.mpr ⟨before, List.forall_mem_singleton.mpr now⟩
      cases hnext : (n.react e).registry.place? id with
      | none => exact .unknown hnext hbefore hmerged
      | some start =>
          refine .known start (by rw [hnext, hmerged]; rfl) fun s hs p hp => ?_
          rw [hbefore s hs] at hp
          cases hp
  | known start now before =>
      refine .known start ?_ fun s hs p hp => ?_
      · rw [merged_append, Record.placeAfter_append]
        exact place?_react hr now e
      · rw [merged_append]
        rcases List.mem_append.mp hs with hs | hs
        · obtain ⟨us, hus, hplace⟩ := before s hs p hp
          exact ⟨us, hus.trans (List.prefix_append ..), hplace⟩
        · rw [List.mem_singleton.mp hs, now] at hp
          exact ⟨_, List.prefix_append .., (Option.some.inj hp).symm⟩

/-- A client is where the last of all updates says, or still where it was at some moment. -/
theorem Placed.place?_of_mem (h : Placed past n id) {s : Network × Event} (hs : s ∈ past)
    (hp : s.1.registry.place? id = some p) :
    n.registry.place? id = some (placeAfter p (accountOf past id).merged) := by
  cases h with
  | unknown now before =>
      rw [before s hs] at hp
      cases hp
  | known start now before =>
      obtain ⟨us, ⟨later, hlater⟩, rfl⟩ := before s hs p hp
      rw [now]
      by_cases hnone : (accountOf past id).merged = []
      · rw [hnone] at hlater ⊢
        rw [(List.append_eq_nil_iff.mp hlater).1]
        rfl
      · rw [Record.placeAfter_of_ne_nil hnone]

end

theorem placed_after (ids : IdentifierSource) (events : List Event) (id : ClientId) :
    Placed (({ ids } : Network).trace events) (({ ids } : Network).after events) id := by
  suffices hall : (({ ids } : Network).after events).Regular ∧ _ from hall.2
  refine run_induction (P := fun past n => n.Regular ∧ Placed past n id) (Q := fun _ _ => True)
    ?_ ?_ events fun _ _ => trivial
  · rintro past n e ⟨hr, hplaced⟩ -
    exact ⟨hr.react e, hplaced.react hr e⟩
  · exact ⟨regular_empty ids, .unknown rfl (fun s hs => by cases hs) rfl⟩

section
variable {past : List (Network × Event)} {n : Network} {id : ClientId} {e : Event}

/-- What a client took begins with the record that it had when a join of it was handled. As long as it
took nothing it is no member. -/
inductive Greeted (past : List (Network × Event)) (n : Network) (id : ClientId) : Prop where
  | waits (none : (ledgerOf past id).accepted = []) (outside : id ∉ n.registry.members.ids)
  | greeted (own : Record) (later : List Batch)
      (accepted : (ledgerOf past id).accepted = [own] :: later) (joined : JoinedWith past id own)

theorem Greeted.react (h : Greeted past n id) (hr : n.Regular)
    (hoffer : ∀ batch, e ≠ .move (.offer id batch)) :
    Greeted (past ++ [(n, e)]) (n.react e) id := by
  have haccepted := @accepted_append past n id e hoffer
  cases h with
  | greeted own later accepted joined =>
      rw [accepted, List.cons_append] at haccepted
      exact .greeted own _ haccepted (joined.append _)
  | waits none outside =>
      rw [none, List.nil_append] at haccepted
      rcases n.handledIn_cases e with ⟨request, rest, hhandled, -, hq, hregistry, -⟩ |
        ⟨hquiet, hmembers, -⟩
      · have hrunning := hr.running_of_queue hq
        rw [hhandled, Option.elim_some] at haccepted
        by_cases hkeeps : request.keeps id (id ∈ n.registry.members.ids)
        · obtain rfl := Request.eq_join_of_keeps outside hkeeps
          rcases Registry.takenBy_join hrunning outside with ⟨htook, hout⟩ |
            ⟨own, later, htook, hrecord⟩
          · exact .waits (haccepted.trans htook) (by rw [hregistry]; exact hout)
          · exact .greeted own later (haccepted.trans htook)
              ⟨hr.sound.named id own hrecord, (n, e), by simp, hhandled, hrecord⟩
        · have htook := Registry.takenBy_eq_nil
            (Registry.offersTo_handle_of_not_keeps hr.sound hkeeps)
          refine .waits (haccepted.trans htook) ?_
          rw [hregistry]
          exact fun hin => hkeeps (Registry.keeps_of_mem_handle hrunning hin)
      · rw [hquiet] at haccepted
        exact .waits haccepted (by rw [hmembers]; exact outside)

/-- A session that begins with what a client is sent begins with the record that the client had when
its join was handled. -/
theorem Greeted.joinedWith_of_begin (h : Greeted past n id) (hpos : 0 < id) {patience : Duration}
    {source rest : Wire.Source} {s : Session}
    (hbegin : Session.begin patience source = (.ok s, rest))
    (hsource : source.bytes <+: (ledgerOf past id).accepted.flatMap Wire.encodeFrame) :
    JoinedWith past id s.own := by
  cases h with
  | waits none =>
      rw [none] at hsource
      exact absurd (List.prefix_nil.mp hsource) (Session.bytes_ne_nil_of_begin hbegin)
  | greeted own later accepted joined =>
      rw [accepted, List.flatMap_cons] at hsource
      rw [Session.own_of_begin hbegin (by rw [joined.1]; exact hpos) hsource]
      exact joined

end

theorem greeted_after (ids : IdentifierSource) {events : List Event} {id : ClientId}
    (h : ∀ e ∈ events, ∀ batch, e ≠ .move (.offer id batch)) :
    Greeted (({ ids } : Network).trace events) (({ ids } : Network).after events) id := by
  suffices hall : (({ ids } : Network).after events).Regular ∧ _ from hall.2
  refine run_induction (P := fun past n => n.Regular ∧ Greeted past n id)
    (Q := fun _ e => ∀ batch, e ≠ .move (.offer id batch)) ?_ ?_ events
    fun s hs => h s.2 (event_mem_of_mem_trace hs)
  · rintro past n e ⟨hr, hgreeted⟩ he
    exact ⟨hr.react e, hgreeted.react hr he⟩
  · exact ⟨regular_empty ids, .waits rfl fun hid => by cases hid⟩

/-- A session begins with what the server sends its client, and nobody but the registry offers the
client anything. When the connection is still up and has read what the session has sent, the client
is where the last report under a positive identifier says, and the session is where the last one
under its own identifier says; each is where the session began if there is none. So they agree if
every report under a foreign positive identifier is followed by one under the session's own. -/
theorem place_of_reports (ids : IdentifierSource) {events : List Event} {id : ClientId}
    (hoffer : ∀ e ∈ events, ∀ batch, e ≠ .move (.offer id batch)) {k : Connection}
    (hk : (({ ids } : Network).after events).connection? id = some k)
    (hup : k.phase.isLive .read = true)
    (hidle : (({ ids } : Network).after events).step? (.read id) = none)
    {patience : Duration} {source rest : Wire.Source} {s : Session}
    (hbegin : Session.begin patience source = (.ok s, rest))
    (hsource : source.bytes <+: (ledgerOf (({ ids } : Network).trace events) id).received)
    {calls : List (Session.Call × Except IoFault Unit)} {part : Bytes}
    (hpart : Wire.Unfinished part)
    (hheard : (accountOf (({ ids } : Network).trace events) id).heard =
      (s.reports calls).flatMap (fun r => Wire.encodeFrame [r]) ++ part) :
    let n := ({ ids } : Network).after events
    let reports := s.reports calls
    s.id = id ∧
      n.registry.place? id = some (placeAfter s.position (reports.filter Record.hasValidId)) ∧
      (s.afterCalls calls).position = placeAfter s.position (reports.filter (·.id = id)) ∧
      (Record.OwnLast id reports →
        n.registry.place? id = some (s.afterCalls calls).position) := by
  intro n reports
  have hpos : 0 < id := ((given_after ids events).connections id (by rw [hk]; rfl)).1
  have hreceived := (conserves_after ids events id).received_of_accepted
  obtain ⟨hid, moment, hmoment, -, hrecord⟩ :=
    (greeted_after ids hoffer).joinedWith_of_begin hpos hbegin (hsource.trans hreceived)
  -- What was merged are the valid reports.
  have hon : n.ReadsOn id := by
    intro j hj
    cases hk.symm.trans hj
    exact Phase.canRead_of_isLive hup
  have hstarted := Phase.isStarted_of_isRunning (Phase.isRunning_of_isLive hup)
  obtain ⟨⟨hmerged, -⟩, -⟩ := (tracks_of_readsOn ids hon).complete hk hstarted hidle
  have hlimit := Config.le_payloadLimit ((formed_after ids events).2 id k hk).valid
  rw [hheard, updates_of_frames hlimit hpart] at hmerged
  have hplace : n.registry.place? id =
      some (placeAfter s.position (reports.filter Record.hasValidId)) := by
    rw [← hmerged]
    refine (placed_after ids events id).place?_of_mem hmoment ?_
    rw [Registry.place?, hrecord]
    rfl
  have hposition := s.position_afterCalls calls
  rw [show s.id = id from hid] at hposition
  refine ⟨hid, hplace, hposition, fun hlast => ?_⟩
  rw [hplace, hposition, hlast.placeAfter_filter hpos]

/-- A connection is run, and the client is sent its own record. -/
def greetedRun : List Event :=
  [.move (.build {} 256 0 0), .move (.start 1), .task .registry, .task (.write 1), .task (.write 1),
    .move (.withdraw 1 256)]

/-- The peer sends some bytes, and the read side takes so many turns. -/
def hearing (bytes : Bytes) (turns : Nat) : List Event :=
  greetedRun ++ [.move (.deliver 1 bytes)] ++ List.replicate turns (.task (.read 1))

/-- The session of the client, and the stream that it began with. -/
def greetedSession : Session := ⟨.resting 1 .zero .zero, Session.defaultPatience⟩

def greetingSource : Wire.Source := { arrivals := [.chunk (Wire.encodeFrame [greetedSession.own])] }

/-- A move, a report under a foreign identifier, one under an invalid identifier and one under the
session's own, and a move that the session cannot write any more. -/
def mixedCalls : List (Session.Call × Except IoFault Unit) :=
  [(.move ⟨0x4008000000000000⟩ ⟨0x4010000000000000⟩, .ok ()),
    (.send (.resting 1001 ⟨0x3ff0000000000000⟩ .zero), .ok ()),
    (.send (.resting (-1) ⟨0x4014000000000000⟩ .zero), .ok ()),
    (.send (.resting 1 ⟨0x4000000000000000⟩ ⟨0x3ff0000000000000⟩), .ok ()),
    (.move .zero .zero, .error .brokenPipe)]

/-- The frames of these reports, and the beginning of the one that could not be written. -/
def mixedStream : Bytes :=
  (greetedSession.reports mixedCalls).flatMap (fun r => Wire.encodeFrame [r]) ++
    (Wire.encodeFrame [default]).take 10

theorem place_of_mixedCalls :
    let n := ({} : Network).after (hearing mixedStream 10)
    let past := ({} : Network).trace (hearing mixedStream 10)
    let s := greetedSession
    (∀ e ∈ hearing mixedStream 10, ∀ batch, e ≠ .move (.offer 1 batch)) ∧
      (∃ k, n.connection? 1 = some k ∧ k.phase.isLive .read = true) ∧
      n.step? (.read 1) = none ∧
      (∃ rest, Session.begin s.patience greetingSource = (.ok s, rest)) ∧
      greetingSource.bytes <+: (ledgerOf past 1).received ∧
      (∃ part, Wire.Unfinished part ∧ (accountOf past 1).heard =
        (s.reports mixedCalls).flatMap (fun r => Wire.encodeFrame [r]) ++ part) ∧
      Record.OwnLast 1 (s.reports mixedCalls) ∧
      n.registry.place? 1 = some (s.afterCalls mixedCalls).position ∧
      (s.afterCalls mixedCalls).position = (⟨0x4000000000000000⟩, ⟨0x3ff0000000000000⟩) := by
  intro n past s
  have hoffer : ∀ e ∈ hearing mixedStream 10, ∀ batch, e ≠ .move (.offer 1 batch) := by
    simp [hearing, greetedRun]
  have hlive : (n.connection? 1).map (fun k => k.phase.isLive .read) = some true := by
    decide +kernel
  obtain ⟨k, hk, hup⟩ := Option.map_eq_some_iff.mp hlive
  have hidle : n.step? (.read 1) = none := Option.isNone_iff_eq_none.mp (by decide +kernel)
  have hsession : (Session.begin s.patience greetingSource).1 = .ok s := by decide +kernel
  have hbegin : Session.begin s.patience greetingSource = (.ok s, _) := Prod.ext hsession rfl
  have hsource : greetingSource.bytes <+: (ledgerOf past 1).received := by decide +kernel
  have hpart : Wire.Unfinished ((Wire.encodeFrame [default]).take 10) :=
    ⟨default, List.take_prefix .., by decide +kernel⟩
  have hheard : (accountOf past 1).heard = mixedStream := by decide +kernel
  have hlast : Record.OwnLast 1 (s.reports mixedCalls) := by decide +kernel
  obtain ⟨-, -, hposition, hagree⟩ :=
    place_of_reports {} hoffer hk hup hidle hbegin hsource hpart hheard
  exact ⟨hoffer, ⟨k, hk, hup⟩, hidle, ⟨_, hbegin⟩, hsource,
    ⟨_, hpart, hheard⟩, hlast, hagree hlast, by decide +kernel⟩

/-- A report under a foreign identifier. -/
def foreignCalls : List (Session.Call × Except IoFault Unit) :=
  [(.send (.resting 1001 ⟨0x4008000000000000⟩ ⟨0x4010000000000000⟩), .ok ())]

def foreignStream : Bytes :=
  (greetedSession.reports foreignCalls).flatMap fun r => Wire.encodeFrame [r]

/-- After a report under a foreign identifier the server and the session disagree. -/
theorem places_after_foreign_report :
    let n := ({} : Network).after (hearing foreignStream 2)
    let past := ({} : Network).trace (hearing foreignStream 2)
    let s := greetedSession
    (∃ k, n.connection? 1 = some k ∧ k.phase.isLive .read = true ∧ k.phase.isLive .write = true) ∧
      n.step? (.read 1) = none ∧
      (∃ rest, Session.begin s.patience greetingSource = (.ok s, rest)) ∧
      greetingSource.bytes <+: (ledgerOf past 1).received ∧
      (accountOf past 1).heard =
        (s.reports foreignCalls).flatMap (fun r => Wire.encodeFrame [r]) ∧
      n.registry.place? 1 = some (⟨0x4008000000000000⟩, ⟨0x4010000000000000⟩) ∧
      (s.afterCalls foreignCalls).position = (.zero, .zero) ∧
      n.registry.place? 1 ≠ some (s.afterCalls foreignCalls).position := by
  intro n past s
  have hlive : (n.connection? 1).map (fun k => (k.phase.isLive .read, k.phase.isLive .write)) =
      some (true, true) := by decide +kernel
  obtain ⟨k, hk, hup⟩ := Option.map_eq_some_iff.mp hlive
  obtain ⟨hread, hwrite⟩ := Prod.mk.inj hup
  have hsession : (Session.begin s.patience greetingSource).1 = .ok s := by decide +kernel
  exact ⟨⟨k, hk, hread, hwrite⟩, Option.isNone_iff_eq_none.mp (by decide +kernel),
    ⟨_, Prod.ext hsession rfl⟩, by decide +kernel, by decide +kernel, by decide +kernel,
    by decide +kernel, by decide +kernel⟩
end Network
end PositionRelay
