import Mathlib.Data.List.Induction
import PositionRelay.Proofs.Record.Merging
import PositionRelay.Proofs.Registry.Service

/-!
# Movement is shown once

What a client has moved is the sum of the updates that were merged since its record was captured last.
Captures cut the updates of a client into shares (`Cut`): the movement in the record of each snapshot is
the sum of one share, from zero, or from what was there at first. Every update belongs to one share or
is still waiting, and it waits no longer than to the next round that the client is a member of. That
holds whatever happens between the captures, the rounds and the requests (`movement_shown_once`).
-/
namespace PositionRelay

/-- What happens to a cell. -/
inductive Entry where
  | merged (update : Record)
  | captured (record : Record)

namespace Entry

def update? : Entry → Option Record
  | merged update => some update
  | captured _ => none

def record? : Entry → Option Record
  | merged _ => none
  | captured record => some record

end Entry

/-- The merged updates of a history. -/
def updatesOf (history : List Entry) : List Record := history.filterMap Entry.update?

/-- The captured records of a history. -/
def recordsOf (history : List Entry) : List Record := history.filterMap Entry.record?

/-- Updates that are cut into shares, and those that wait for the next cut. -/
structure Cut where
  shares : List (List Record) := []
  waiting : List Record := []
deriving DecidableEq

/-- The movement of each share; the first one is added to what was there. -/
def totals (start : Binary64) : List (List Record) → List Binary64
  | [] => []
  | first :: rest => total start first :: rest.map (total .zero)

theorem totals_append (start : Binary64) (shares : List (List Record)) (share : List Record) :
    totals start (shares ++ [share]) =
      totals start shares ++ [total (if shares = [] then start else .zero) share] := by
  cases shares with
  | nil => rfl
  | cons first rest => simp [totals]

namespace Cut

def add (c : Cut) : Entry → Cut
  | .merged update => { c with waiting := c.waiting ++ [update] }
  | .captured _ => { shares := c.shares ++ [c.waiting] }

/-- The shares of a history. -/
def of (history : List Entry) : Cut := history.foldl add {}

theorem of_append (history later : List Entry) : of (history ++ later) = later.foldl add (of history) :=
  List.foldl_append

theorem of_append_merged (history : List Entry) (update : Record) :
    of (history ++ [.merged update]) =
      { of history with waiting := (of history).waiting ++ [update] } := of_append ..

theorem of_append_captured (history : List Entry) (record : Record) :
    of (history ++ [.captured record]) = { shares := (of history).shares ++ [(of history).waiting] } :=
  of_append ..

/-- Every update is in one share, or waits. -/
theorem flatten_of (history : List Entry) :
    (of history).shares.flatten ++ (of history).waiting = updatesOf history := by
  induction history using List.reverseRecOn with
  | nil => rfl
  | append_singleton history e ih =>
      rw [updatesOf, List.filterMap_append, ← updatesOf, ← ih]
      cases e with
      | merged update =>
          rw [of_append_merged]
          simp [Entry.update?]
      | captured record =>
          rw [of_append_captured]
          simp [Entry.update?]

/-- Shares stay as they are. -/
theorem shares_of_append (history later : List Entry) :
    (of history).shares <+: (of (history ++ later)).shares := by
  induction later using List.reverseRecOn with
  | nil => simp
  | append_singleton later e ih =>
      rw [← List.append_assoc, of_append]
      refine ih.trans ?_
      cases e with
      | merged update => exact List.prefix_rfl
      | captured record => exact List.prefix_append ..

/-- What was merged before a capture is in the shares. -/
theorem updates_of_captured {history later : List Entry} {record : Record}
    (h : .captured record ∈ later) :
    updatesOf history <+: (of (history ++ later)).shares.flatten := by
  obtain ⟨before, rest, rfl⟩ := List.append_of_mem h
  have hcut := of_append_captured (history ++ before) record
  have hall := flatten_of ((history ++ before) ++ [.captured record])
  rw [hcut, List.append_nil, updatesOf, List.filterMap_append, List.filterMap_append] at hall
  obtain ⟨more, hmore⟩ := shares_of_append ((history ++ before) ++ [.captured record]) rest
  rw [hcut] at hmore
  have hsame : history ++ (before ++ .captured record :: rest) =
      ((history ++ before) ++ [.captured record]) ++ rest := by simp
  rw [hsame, ← hmore, List.flatten_append, hall, List.append_assoc, List.append_assoc]
  exact List.prefix_append ..

end Cut

namespace Service

/-- What an act does to the cell of a client. -/
def entryIn (s : Service) (a : Act) (id : ClientId) : List Entry :=
  match a with
  | .merge j update => if j = id then [.merged update] else []
  | .capture j => if j = id then (s.taken? j).toList.map .captured else []
  | _ => []

def historyOf (past : List (Service × Act)) (id : ClientId) : List Entry :=
  past.flatMap fun s => s.1.entryIn s.2 id

theorem historyOf_append (past later : List (Service × Act)) (id : ClientId) :
    historyOf (past ++ later) id = historyOf past id ++ historyOf later id := List.flatMap_append

/-- The record of a client that is captured in the round under way. -/
def inRound? (s : Service) (id : ClientId) : Option Record :=
  s.captured?.bind fun captured => captured.get? id

/-- What holds at first and is kept by every act holds after every run. -/
theorem run_induction {P : List (Service × Act) → Service → Prop}
    (step : ∀ past s a, P past s → P (past ++ [(s, a)]) (s.step a)) {s : Service} (start : P [] s)
    (acts : List Act) : P (s.trace acts) (s.after acts) := by
  induction acts using List.reverseRecOn with
  | nil => exact start
  | append_singleton acts a ih =>
      rw [trace_append, after_append]
      exact step _ _ a ih

section
variable {s : Service} {id j : ClientId}

theorem record?_modify {f : Client → Client} (g : Record → Record)
    (hf : ∀ c, (f c).record = g c.record) :
    (s.modify j f).registry.record? id =
      if id = j then (s.registry.record? id).map g else s.registry.record? id := by
  unfold Registry.record? modify
  dsimp only
  rw [Roster.get?_modify]
  split
  · rw [Option.map_map, Option.map_map]
    exact congrArg (Option.map · _) (funext hf)
  · rfl

theorem sound_modify (h : s.registry.Sound) {f : Client → Client} (g : Record → Record)
    (hf : ∀ c, (f c).record = g c.record) (hg : ∀ record, (g record).id = record.id) :
    (s.modify j f).registry.Sound := by
  constructor
  · intro id hid
    rw [record?_modify g hf]
    split
    · rw [Option.isSome_map]
      exact h.known id hid
    · exact h.known id hid
  · intro id record hr
    rw [record?_modify g hf] at hr
    split at hr
    · obtain ⟨old, hold, rfl⟩ := Option.map_eq_some_iff.mp hr
      rw [hg]
      exact h.named id old hold
    · exact h.named id record hr

theorem taken?_eq_some {record : Record} (h : s.taken? id = some record) :
    ∃ captured, s.captured? = some captured ∧ id ∈ s.registry.members.ids ∧
      captured.get? id = none ∧ s.registry.record? id = some record := by
  unfold taken? at h
  split at h
  · cases h
  · next captured hc =>
      split at h
      · next hid => exact ⟨captured, hc, hid.1, Option.isNone_iff_eq_none.mp hid.2, h⟩
      · cases h

theorem batch?_eq_some {batch : Batch} (h : s.batch? = some batch) :
    ∃ captured, s.captured? = some captured ∧
      (∀ id ∈ s.registry.members.ids, (captured.get? id).isSome) ∧
      batch = s.registry.members.ids.filterMap captured.get? := by
  unfold batch? at h
  split at h
  · cases h
  · next captured hc =>
      split at h
      · next hall =>
          cases h
          exact ⟨captured, hc, List.all_eq_true.mp hall, rfl⟩
      · cases h

theorem inRound?_enter (r : Registry) (due : Bool) (id : ClientId) :
    (enter r due).inRound? id = none := by
  unfold enter inRound?
  split
  · rfl
  · rfl

theorem inRound?_capture {captured : Roster Record} (hc : s.captured? = some captured)
    (record : Record) :
    (s.capture j record).inRound? id = if id = j then some record else s.inRound? id := by
  simp only [inRound?, capture, hc, Option.map_some, Option.bind_some, Roster.get?_set]

end

/-- What a list of records, one for each identifier, says about one of them. -/
theorem filter_records {ids : List ClientId} (hnodup : ids.Nodup) {f : ClientId → Option Record}
    (hf : ∀ j record, f j = some record → record.id = j) (id : ClientId) :
    (ids.filterMap f).filter (fun record => record.id = id) =
      if id ∈ ids then (f id).toList else [] := by
  induction ids with
  | nil => rfl
  | cons j rest ih =>
      obtain ⟨hj, hrest⟩ := List.nodup_cons.mp hnodup
      cases hr : f j with
      | none =>
          rw [List.filterMap_cons_none hr, ih hrest]
          by_cases he : id = j
          · rw [he, if_neg hj, if_pos (by simp), hr]
            rfl
          · simp [he]
      | some record =>
          have hid := hf j record hr
          rw [List.filterMap_cons_some hr, List.filter_cons, ih hrest, hid]
          by_cases he : id = j
          · rw [he, if_neg hj, if_pos (by simp), if_pos (by simp), hr]
            rfl
          · simp [he, Ne.symm he]

/-- The registry is sound, and every record in the round under way is that of a member, under its own
identifier. -/
structure Tidy (s : Service) : Prop where
  sound : s.registry.Sound
  captured : ∀ j record, s.inRound? j = some record → j ∈ s.registry.members.ids ∧ record.id = j

section
variable {s : Service} {j : ClientId}

theorem tidy_enter {r : Registry} (h : r.Sound) (due : Bool) : (enter r due).Tidy where
  sound := h
  captured := by
    intro j record hr
    rw [inRound?_enter] at hr
    cases hr

theorem Tidy.modify (h : s.Tidy) {f : Client → Client} (g : Record → Record)
    (hf : ∀ c, (f c).record = g c.record) (hg : ∀ record, (g record).id = record.id) :
    (s.modify j f).Tidy where
  sound := sound_modify h.sound g hf hg
  captured := h.captured

theorem Tidy.capture (h : s.Tidy) {record : Record} (ht : s.taken? j = some record) :
    (s.capture j record).Tidy := by
  obtain ⟨captured, hc, hmem, -, hrecord⟩ := taken?_eq_some ht
  refine ⟨sound_modify h.sound Record.settled (fun _ => rfl) fun _ => rfl, ?_⟩
  intro i old hi
  rw [inRound?_capture hc] at hi
  split at hi
  · next he =>
      cases hi
      rw [he]
      exact ⟨hmem, h.sound.named j record hrecord⟩
  · exact h.captured i old hi

theorem Tidy.step (h : s.Tidy) (a : Act) : (s.step a).Tidy := by
  cases a with
  | request request =>
      cases hc : s.captured? with
      | some captured => exact (step_request_of_some hc).symm ▸ h
      | none => exact (step_request hc).symm ▸ tidy_enter (h.sound.enact request) _
  | capture j =>
      cases ht : s.taken? j with
      | none => exact (step_capture_of_none ht).symm ▸ h
      | some record => exact (step_capture ht).symm ▸ h.capture ht
  | offer =>
      cases hb : s.batch? with
      | none => exact (step_offer_of_none hb).symm ▸ h
      | some batch => exact (step_offer hb).symm ▸ tidy_enter (h.sound.deliver batch) _
  | merge j update => exact h.modify (·.merge update) (fun _ => rfl) fun _ => rfl
  | alter j other => exact h.modify (fun record => record) (fun _ => rfl) fun _ => rfl

end

/-- What has been captured of a client is what the snapshots show of it, and what it has moved is what
was merged since. -/
structure Accounts (start : Binary64) (id : ClientId) (past : List (Service × Act)) (s : Service) :
    Prop where
  tidy : s.Tidy
  delta : ∃ record, s.registry.record? id = some record ∧
    record.delta = total (if (Cut.of (historyOf past id)).shares = [] then start else .zero)
      (Cut.of (historyOf past id)).waiting
  shown : recordsOf (historyOf past id) =
    ((snapshots past).flatten.filter fun record => record.id = id) ++ (s.inRound? id).toList
  totals : (recordsOf (historyOf past id)).map Record.delta =
    totals start (Cut.of (historyOf past id)).shares

section
variable {start : Binary64} {id : ClientId} {past : List (Service × Act)} {s : Service} {a : Act}

/-- An act that neither merges into the cell of the client nor captures its record. -/
theorem Accounts.of_alike (h : Accounts start id past s) (hentry : s.entryIn a id = [])
    (hrecord : (s.step a).registry.record? id = s.registry.record? id)
    (hshown : (snapshots [(s, a)]).flatten.filter (fun record => record.id = id) ++
      ((s.step a).inRound? id).toList = (s.inRound? id).toList) :
    Accounts start id (past ++ [(s, a)]) (s.step a) := by
  have hhistory : historyOf (past ++ [(s, a)]) id = historyOf past id := by
    rw [historyOf_append]
    simp [historyOf, hentry]
  refine ⟨h.tidy.step a, ?_, ?_, ?_⟩
  · rw [hhistory, hrecord]
    exact h.delta
  · rw [hhistory, h.shown, snapshots_append, List.flatten_append, List.filter_append,
      List.append_assoc, hshown]
  · rw [hhistory]
    exact h.totals

theorem Accounts.stay (h : Accounts start id past s) (hstep : s.step a = s)
    (hentry : s.entryIn a id = []) (hnone : snapshots [(s, a)] = []) :
    Accounts start id (past ++ [(s, a)]) (s.step a) :=
  h.of_alike hentry (by rw [hstep]) (by rw [hnone, hstep]; rfl)

theorem Accounts.request (h : Accounts start id past s) (request : Request) :
    Accounts start id (past ++ [(s, .request request)]) (s.step (.request request)) := by
  cases hc : s.captured? with
  | some captured => exact h.stay (step_request_of_some hc) rfl rfl
  | none =>
      refine h.of_alike rfl ?_ ?_
      · rw [step_request hc]
        exact Registry.record?_enact ..
      · rw [step_request hc, inRound?_enter]
        simp [snapshots, inRound?, hc]

/-- The record of the client goes into the round, and with it what has been waiting. -/
theorem Accounts.capture_own (h : Accounts start id past s) {record : Record}
    (ht : s.taken? id = some record) :
    Accounts start id (past ++ [(s, .capture id)]) (s.step (.capture id)) := by
  obtain ⟨captured, hc, -, hnew, hrecord⟩ := taken?_eq_some ht
  have hhistory : historyOf (past ++ [(s, .capture id)]) id =
      historyOf past id ++ [.captured record] := by
    rw [historyOf_append]
    simp [historyOf, entryIn, ht]
  have hrecords : recordsOf (historyOf (past ++ [(s, .capture id)]) id) =
      recordsOf (historyOf past id) ++ [record] := by
    rw [hhistory, recordsOf, List.filterMap_append]
    rfl
  refine ⟨h.tidy.step _, ⟨record.settled, ?_, ?_⟩, ?_, ?_⟩
  · rw [step_capture ht]
    refine (record?_modify Record.settled fun _ => rfl).trans ?_
    rw [if_pos rfl, hrecord]
    rfl
  · rw [hhistory, Cut.of_append_captured]
    simp [total]
  · have hnone : s.inRound? id = none := by simp [inRound?, hc, hnew]
    rw [hrecords, h.shown, hnone, step_capture ht, inRound?_capture hc, if_pos rfl, snapshots_append]
    simp [snapshots]
  · obtain ⟨old, hold, hdelta⟩ := h.delta
    rw [hrecord] at hold
    cases hold
    rw [hrecords, List.map_append, h.totals, hhistory, Cut.of_append_captured, totals_append, ← hdelta]
    rfl

theorem Accounts.capture (h : Accounts start id past s) (j : ClientId) :
    Accounts start id (past ++ [(s, .capture j)]) (s.step (.capture j)) := by
  cases ht : s.taken? j with
  | none => exact h.stay (step_capture_of_none ht) (by simp [entryIn, ht]) rfl
  | some record =>
      by_cases hj : j = id
      · subst hj
        exact h.capture_own ht
      · obtain ⟨captured, hc, -⟩ := taken?_eq_some ht
        refine h.of_alike (by simp [entryIn, hj]) ?_ ?_
        · rw [step_capture ht]
          exact (record?_modify Record.settled fun _ => rfl).trans (if_neg (Ne.symm hj))
        · rw [step_capture ht, inRound?_capture hc, if_neg (Ne.symm hj)]
          rfl

/-- The batch of a round shows what was captured in it. -/
theorem Accounts.offer (h : Accounts start id past s) :
    Accounts start id (past ++ [(s, .offer)]) (s.step .offer) := by
  cases hb : s.batch? with
  | none => exact h.stay (step_offer_of_none hb) rfl (by simp [snapshots, hb])
  | some batch =>
      obtain ⟨captured, hc, hall, rfl⟩ := batch?_eq_some hb
      have hget : ∀ j, s.inRound? j = captured.get? j := fun j => by simp [inRound?, hc]
      have hone : (snapshots [(s, .offer)]).flatten =
          s.registry.members.ids.filterMap captured.get? := by simp [snapshots, hb]
      have hnamed : ∀ j record, captured.get? j = some record → record.id = j :=
        fun j record hr => (h.tidy.captured j record ((hget j).trans hr)).2
      refine h.of_alike rfl ?_ ?_
      · rw [step_offer hb]
        exact Registry.record?_deliver ..
      · rw [step_offer hb, inRound?_enter, hone, filter_records (nodup_members _) hnamed, hget,
          Option.toList_none, List.append_nil]
        split
        · rfl
        · next hid =>
            cases hr : captured.get? id with
            | none => rfl
            | some record => exact absurd (h.tidy.captured id record ((hget id).trans hr)).1 hid

theorem Accounts.merge (h : Accounts start id past s) (j : ClientId) (update : Record) :
    Accounts start id (past ++ [(s, .merge j update)]) (s.step (.merge j update)) := by
  have hmerged : (s.step (.merge j update)).registry.record? id =
      if id = j then (s.registry.record? id).map (·.merge update) else s.registry.record? id :=
    record?_modify (·.merge update) fun _ => rfl
  by_cases hj : j = id
  · subst hj
    have hhistory : historyOf (past ++ [(s, .merge j update)]) j =
        historyOf past j ++ [.merged update] := by
      rw [historyOf_append]
      simp [historyOf, entryIn]
    have hrecords : recordsOf (historyOf (past ++ [(s, .merge j update)]) j) =
        recordsOf (historyOf past j) := by
      rw [hhistory, recordsOf, List.filterMap_append]
      exact List.append_nil _
    obtain ⟨record, hrecord, hdelta⟩ := h.delta
    refine ⟨h.tidy.step _, ⟨record.merge update, ?_, ?_⟩, ?_, ?_⟩
    · rw [hmerged, if_pos rfl, hrecord]
      rfl
    · rw [hhistory, Cut.of_append_merged, Record.merge_delta, hdelta]
      simp [total]
    · rw [hrecords, h.shown, snapshots_append]
      simp [snapshots, step, inRound?, Service.modify]
    · rw [hrecords, h.totals, hhistory, Cut.of_append_merged]
  · exact h.of_alike (by simp [entryIn, hj]) (hmerged.trans (if_neg (Ne.symm hj))) rfl

theorem Accounts.alter (h : Accounts start id past s) (j : ClientId) (other : Client) :
    Accounts start id (past ++ [(s, .alter j other)]) (s.step (.alter j other)) := by
  refine h.of_alike rfl ?_ rfl
  have hsame : ∀ c : Client, ({ other with cell := c.cell } : Client).record = c.record := fun _ => rfl
  refine (record?_modify (fun record => record) hsame).trans ?_
  split
  · exact Option.map_id_apply
  · rfl

theorem Accounts.step (h : Accounts start id past s) (a : Act) :
    Accounts start id (past ++ [(s, a)]) (s.step a) := by
  cases a with
  | request request => exact h.request request
  | capture j => exact h.capture j
  | offer => exact h.offer
  | merge j update => exact h.merge j update
  | alter j other => exact h.alter j other

end

theorem accounts_idle {r : Registry} (h : r.Sound) {id : ClientId} {first : Record}
    (hfirst : r.record? id = some first) : Accounts first.delta id [] ⟨r, none⟩ where
  tidy := tidy_enter h false
  delta := ⟨first, hfirst, rfl⟩
  shown := rfl
  totals := rfl

section
variable {s : Service} {id : ClientId} {a : Act}

/-- Only its capture puts a record into a round. -/
theorem entryIn_of_inRound (hnew : s.inRound? id = none) (h : (s.step a).inRound? id ≠ none) :
    ∃ record, Entry.captured record ∈ s.entryIn a id := by
  cases a with
  | request request =>
      cases hc : s.captured? with
      | some captured => exact absurd ((step_request_of_some hc).symm ▸ hnew) h
      | none => exact absurd ((step_request hc).symm ▸ inRound?_enter ..) h
  | capture j =>
      cases ht : s.taken? j with
      | none => exact absurd ((step_capture_of_none ht).symm ▸ hnew) h
      | some record =>
          obtain ⟨captured, hc, -⟩ := taken?_eq_some ht
          by_cases hj : j = id
          · subst hj
            exact ⟨record, by simp [entryIn, ht]⟩
          · refine absurd ?_ h
            rw [step_capture ht, inRound?_capture hc, if_neg (Ne.symm hj)]
            exact hnew
  | offer =>
      cases hb : s.batch? with
      | none => exact absurd ((step_offer_of_none hb).symm ▸ hnew) h
      | some batch => exact absurd ((step_offer hb).symm ▸ inRound?_enter ..) h
  | merge j update => exact absurd hnew h
  | alter j other => exact absurd hnew h

theorem captured_of_inRound {acts : List Act} (hnew : s.inRound? id = none)
    (h : (s.after acts).inRound? id ≠ none) :
    ∃ record, Entry.captured record ∈ historyOf (s.trace acts) id := by
  induction acts generalizing s with
  | nil => exact absurd hnew h
  | cons a rest ih =>
      have hhistory : historyOf (s.trace (a :: rest)) id =
          s.entryIn a id ++ historyOf ((s.step a).trace rest) id := rfl
      rw [hhistory]
      by_cases hnext : (s.step a).inRound? id = none
      · obtain ⟨record, hr⟩ := ih hnext h
        exact ⟨record, List.mem_append_right _ hr⟩
      · obtain ⟨record, hr⟩ := entryIn_of_inRound hnew hnext
        exact ⟨record, List.mem_append_left _ hr⟩

/-- Without requests nobody becomes a member. -/
theorem members_step (ha : ∀ request, a ≠ .request request)
    (h : id ∈ (s.step a).registry.members.ids) : id ∈ s.registry.members.ids := by
  cases a with
  | request request => exact absurd rfl (ha request)
  | capture j =>
      cases ht : s.taken? j with
      | none => exact step_capture_of_none ht ▸ h
      | some record =>
          rw [step_capture ht] at h
          exact h
  | offer =>
      cases hb : s.batch? with
      | none => exact step_offer_of_none hb ▸ h
      | some batch =>
          rw [step_offer hb] at h
          exact (List.mem_filter.mp h).1
  | merge j update => exact h
  | alter j other => exact h

theorem members_after {acts : List Act} (hacts : ∀ a ∈ acts, ∀ request, a ≠ .request request)
    (h : id ∈ (s.after acts).registry.members.ids) : id ∈ s.registry.members.ids := by
  induction acts generalizing s with
  | nil => exact h
  | cons a rest ih =>
      exact members_step (hacts a (by simp)) (ih (fun b hb => hacts b (by simp [hb])) h)

end

/-- The updates that a run merges into the cell of a client. -/
def mergedIn (acts : List Act) (id : ClientId) : List Record :=
  acts.filterMap fun a =>
    match a with
    | .merge j update => if j = id then some update else none
    | _ => none

/-- The records that the rounds of a run, the one under way included, show of a client. -/
def shownIn (s : Service) (acts : List Act) (id : ClientId) : List Record :=
  ((snapshots (s.trace acts)).flatten.filter fun record => record.id = id) ++
    ((s.after acts).inRound? id).toList

/-- The updates of a client, cut at the captures of its record. -/
def cutIn (s : Service) (acts : List Act) (id : ClientId) : Cut :=
  Cut.of (historyOf (s.trace acts) id)

theorem updatesOf_historyOf (s : Service) (acts : List Act) (id : ClientId) :
    updatesOf (historyOf (s.trace acts) id) = mergedIn acts id := by
  induction acts generalizing s with
  | nil => rfl
  | cons a rest ih =>
      have hhistory : historyOf (s.trace (a :: rest)) id =
          s.entryIn a id ++ historyOf ((s.step a).trace rest) id := rfl
      have hmerged : mergedIn (a :: rest) id = mergedIn [a] id ++ mergedIn rest id :=
        List.filterMap_append (l := [a])
      have hentry : updatesOf (s.entryIn a id) = mergedIn [a] id := by
        cases a with
        | request request => rfl
        | capture j =>
            unfold entryIn
            dsimp only
            split
            · cases s.taken? j <;> rfl
            · rfl
        | offer => rfl
        | merge j update =>
            by_cases hj : j = id <;> simp [entryIn, mergedIn, updatesOf, hj, Entry.update?]
        | alter j other => rfl
      rw [hhistory, hmerged, ← ih (s.step a), ← hentry]
      exact List.filterMap_append

/-- What has been merged before a member is captured for a round is shown from then on. -/
theorem merged_of_due {s : Service} {earlier between later : List Act} {id : ClientId} {batch : Batch}
    (hnew : (s.after earlier).inRound? id = none)
    (hdue : (s.after (earlier ++ between)).batch? = some batch)
    (hid : id ∈ (s.after (earlier ++ between)).registry.members.ids) :
    mergedIn earlier id <+: (s.cutIn (earlier ++ between ++ later) id).shares.flatten := by
  obtain ⟨captured, hc, hall, -⟩ := batch?_eq_some hdue
  have hround : ((s.after earlier).after between).inRound? id ≠ none := by
    rw [← after_append, inRound?, hc, Option.bind_some]
    exact Option.isSome_iff_ne_none.mp (hall id hid)
  obtain ⟨record, hrecord⟩ := captured_of_inRound hnew hround
  unfold cutIn
  rw [← updatesOf_historyOf s, List.append_assoc, trace_append, trace_append, historyOf_append,
    historyOf_append]
  exact Cut.updates_of_captured (List.mem_append_left _ hrecord)

/-- Whatever happens, the movement that the rounds show of a client is that of the shares of its
updates, and there is one share for each record. Every update is in one share or waits for the next
capture, and once a round shows a member, all updates from before its capture are in the shares.
Who is left when a request has been handled got the batches of all its rounds, each with the records
of all who were members then. A request that nothing interrupts is handled as by `handle`. -/
theorem movement_shown_once {r : Registry} (h : r.Sound) (acts : List Act) {id : ClientId}
    {first : Record} (hfirst : r.record? id = some first) :
    let idle : Service := ⟨r, none⟩
    let s := idle.after acts
    let cut := idle.cutIn acts id
    (idle.shownIn acts id).map Record.delta = totals first.delta cut.shares ∧
      cut.shares.flatten ++ cut.waiting = mergedIn acts id ∧
      (∀ earlier between later batch, acts = earlier ++ between ++ later →
        (idle.after earlier).inRound? id = none →
        (idle.after (earlier ++ between)).batch? = some batch →
        id ∈ (idle.after (earlier ++ between)).registry.members.ids →
        mergedIn earlier id <+: cut.shares.flatten) ∧
      (∀ batch, s.batch? = some batch →
        batch.map Record.id = s.registry.members.ids ∧
        ∀ between, (∀ a ∈ between, ∀ request, a ≠ .request request) →
          ∀ j ∈ (s.after (.offer :: between)).registry.members.ids,
            (s.step .offer).registry.pending j = s.registry.pending j ++ [batch]) ∧
      (s.captured? = none → ∀ request, ∃ own : List Act, (∀ a ∈ own, a.IsOwn) ∧
        s.after (.request request :: own) = ⟨(s.registry.handle request).registry, none⟩ ∧
        (s.registry.handle request).rounds.map Round.batch =
          s.registry.greeting request ++ snapshots (s.trace (.request request :: own))) := by
  intro idle s cut
  have haccounts : Accounts first.delta id (idle.trace acts) s :=
    run_induction (P := Accounts first.delta id) (fun _ _ a hs => hs.step a)
      (accounts_idle h hfirst) acts
  refine ⟨?_, ?_, ?_, ?_, fun hidle => exists_acts_of_handle haccounts.tidy.sound hidle⟩
  · have htotals := haccounts.totals
    rw [haccounts.shown] at htotals
    exact htotals
  · rw [← updatesOf_historyOf idle]
    exact Cut.flatten_of _
  · rintro earlier between later batch rfl hnew hdue hid
    exact merged_of_due hnew hdue hid
  · intro batch hdue
    obtain ⟨captured, hc, hall, hbatch⟩ := batch?_eq_some hdue
    constructor
    · rw [hbatch]
      refine Registry.map_id_filterMap fun j hj => ?_
      obtain ⟨record, hr⟩ := Option.isSome_iff_exists.mp (hall j hj)
      have hround : s.inRound? j = some record := by
        rw [inRound?, hc]
        exact hr
      exact ⟨record, hr, (haccounts.tidy.captured j record hround).2⟩
    · intro between hbetween j hj
      have hleft : j ∈ (s.step .offer).registry.members.ids := members_after hbetween hj
      rw [step_offer hdue] at hleft ⊢
      exact Registry.pending_deliver hleft

/-- Two clients. The mailbox of the second one has a single slot. -/
def uneven : Registry where
  clients := (({} : Roster Client).set 1 (.create 1 .zero .zero 8)).set 2 (.create 2 .zero .zero 1)

theorem sound_uneven : uneven.Sound where
  known := fun _ hid => by cases hid
  named := by
    intro id record hr
    unfold Registry.record? uneven at hr
    dsimp only at hr
    rw [Roster.get?_set, Roster.get?_set] at hr
    split at hr
    · next he =>
        cases hr
        exact he.symm
    · split at hr
      · next he =>
          cases hr
          exact he.symm
      · cases hr

/-- An update that moves the first client. -/
def nudge (delta : UInt64) : Record := ⟨1, .zero, .zero, ⟨delta⟩⟩

/-- The first client moves before it is captured, before the round is over, and while the second
client, whose mailbox is full since it joined, is in a round. -/
def unevenJoins : List Act :=
  [.request (.join 1), .merge 1 (nudge 0x3fe0000000000000), .capture 1,
    .merge 1 (nudge 0x3ff0000000000000), .offer, .request (.join 2), .capture 2,
    .merge 1 (nudge 0x3fb999999999999a), .capture 1]

theorem movement_of_unevenJoins :
    let idle : Service := ⟨uneven, none⟩
    let s := idle.after unevenJoins
    let late : List Act := [.merge 1 (nudge 0x4000000000000000), .capture 1, .offer]
    uneven.Sound ∧ uneven.record? 1 = some (.resting 1 .zero .zero) ∧
      (idle.cutIn unevenJoins 1).shares = [[nudge 0x3fe0000000000000],
        [nudge 0x3ff0000000000000, nudge 0x3fb999999999999a]] ∧
      (idle.shownIn unevenJoins 1).map Record.delta =
        [⟨0x3fe0000000000000⟩, ⟨0x3ff199999999999a⟩] ∧
      (s.after (.offer :: late)).registry.members.ids = [1] ∧
      ∃ batch, batch.map Record.id = [1, 2] ∧
        (s.step .offer).registry.pending 1 = s.registry.pending 1 ++ [batch] := by
  intro idle s late
  have hfirst : uneven.record? 1 = some (.resting 1 .zero .zero) := by decide +kernel
  have hshares : (idle.cutIn unevenJoins 1).shares = [[nudge 0x3fe0000000000000],
      [nudge 0x3ff0000000000000, nudge 0x3fb999999999999a]] := by decide +kernel
  have hmembers : ((Service.mk uneven none).after unevenJoins).registry.members.ids = [1, 2] := by
    decide +kernel
  have hleft : (s.after (.offer :: late)).registry.members.ids = [1] := by decide +kernel
  obtain ⟨batch, hdue⟩ : ∃ batch, s.batch? = some batch :=
    Option.isSome_iff_exists.mp (by decide +kernel)
  obtain ⟨htotals, -, -, hheld, -⟩ := movement_shown_once sound_uneven unevenJoins hfirst
  obtain ⟨hids, hpending⟩ := hheld batch hdue
  rw [hmembers] at hids
  refine ⟨sound_uneven, hfirst, hshares, ?_, hleft, batch, hids, ?_⟩
  · rw [htotals, hshares]
    decide +kernel
  · exact hpending late (by simp [late]) 1 (by rw [hleft]; simp)

end Service
end PositionRelay
