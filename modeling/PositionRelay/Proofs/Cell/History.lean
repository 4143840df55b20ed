import Mathlib.Data.List.DropRight
import Mathlib.Data.List.ReduceOption
import PositionRelay.Cell
import PositionRelay.Proofs.Record.Merging

/-!
# What the calls on a cell answer

The calls on a cell come one after another, and the answer of each is determined by the first record and
the calls before it. Identifier and place are those of all updates merged into the first record. The
movement begins anew with every call that takes the record, so it is the total of the updates since the
last one of these. A call that only looks changes nothing, and the other calls answer the same with it
and without it (`answers_follow_history`).
-/
namespace PositionRelay

namespace CellCall

/-- The update that a call merges. -/
def update? : CellCall → Option Record
  | merge update => some update
  | _ => none

/-- The updates that calls merge. -/
def updates (calls : List CellCall) : List Record := calls.filterMap update?

/-- The updates that are merged after the last call that takes the record. -/
def untaken (calls : List CellCall) : List Record := updates (calls.rtakeWhile (· ≠ take))

/-- The movement that a history of calls leaves. -/
def movement (start : Binary64) (calls : List CellCall) : Binary64 :=
  total (if take ∈ calls then .zero else start) (untaken calls)

section
variable (calls : List CellCall) (call : CellCall)

theorem updates_concat : updates (calls ++ [call]) = updates calls ++ call.update?.toList := by
  rw [updates, List.filterMap_append, updates]
  cases call <;> rfl

theorem untaken_concat :
    untaken (calls ++ [call]) = if call = take then [] else untaken calls ++ call.update?.toList := by
  rw [untaken, List.rtakeWhile_concat]
  by_cases htake : call = take
  · simp [htake, updates]
  · simp [htake, updates_concat, untaken]

theorem movement_concat (start : Binary64) :
    movement start (calls ++ [call]) =
      if call = take then .zero else total (movement start calls) call.update?.toList := by
  rw [movement, untaken_concat]
  by_cases htake : call = take
  · simp [htake, total]
  · simp [htake, Ne.symm htake, movement, total_append]

end

end CellCall

namespace Cell

open CellCall Record

section
variable (c : Cell) (call : CellCall)

/-- A call answers with its update merged into the record. -/
theorem call_answer : (c.call call).1 = call.update?.toList.foldl Record.merge c.record := by
  cases call <;> rfl

theorem id_call : (c.call call).2.record.id = c.record.id := by
  cases call <;> rfl

theorem place_call :
    (c.call call).2.record.place = placeAfter c.record.place call.update?.toList := by
  cases call <;> rfl

theorem delta_call :
    (c.call call).2.record.delta =
      if call = .take then .zero else total c.record.delta call.update?.toList := by
  cases call <;> rfl

end

/-- The cell after a sequence of calls. -/
def after (c : Cell) (calls : List CellCall) : Cell := calls.foldl (fun c call => (c.call call).2) c

section
variable (c : Cell) (calls later : List CellCall) (call : CellCall)

theorem after_concat : c.after (calls ++ [call]) = ((c.after calls).call call).2 := by
  rw [after, List.foldl_append]
  rfl

theorem answers_append :
    c.answers (calls ++ later) = c.answers calls ++ (c.after calls).answers later := by
  induction calls generalizing c with
  | nil => rfl
  | cons first rest ih =>
      rw [List.cons_append, answers, answers, ih, List.cons_append]
      rfl

@[simp] theorem length_answers : (c.answers calls).length = calls.length := by
  induction calls generalizing c with
  | nil => rfl
  | cons first rest ih => rw [answers, List.length_cons, List.length_cons, ih]

theorem id_after : (c.after calls).record.id = c.record.id := by
  induction calls using List.reverseRecOn with
  | nil => rfl
  | append_singleton calls call ih => rw [after_concat, id_call, ih]

theorem place_after : (c.after calls).record.place = placeAfter c.record.place (updates calls) := by
  induction calls using List.reverseRecOn with
  | nil => rfl
  | append_singleton calls call ih =>
      rw [after_concat, place_call, ih, updates_concat, placeAfter_append]

/-- Every call that takes the record cuts the history: what was merged before it counts no more. -/
theorem delta_after : (c.after calls).record.delta = movement c.record.delta calls := by
  induction calls using List.reverseRecOn with
  | nil => rfl
  | append_singleton calls call ih =>
      rw [after_concat, delta_call, ih, movement_concat]

/-- The answer of a call in the midst of others. -/
theorem getElem?_answers :
    (c.answers (calls ++ call :: later))[calls.length]? =
      some (call.update?.toList.foldl Record.merge (c.after calls).record) := by
  rw [answers_append, List.getElem?_append_right (Nat.le_of_eq (c.length_answers calls)),
    length_answers, Nat.sub_self, ← call_answer]
  rfl

end

/-- A row of calls in which some, given as `none`, only look: the others answer as if these had not been
made. -/
theorem answers_reduceOption (c : Cell) (calls : List (Option CellCall)) :
    c.answers calls.reduceOption =
      ((calls.zip (c.answers (calls.map (·.getD .current)))).filter (·.1.isSome)).map (·.2) := by
  induction calls generalizing c with
  | nil => rfl
  | cons call rest ih =>
      cases call with
      | none => exact ih c
      | some call =>
          rw [List.reduceOption_cons_of_some, answers, ih]
          rfl

/-- What a cell answers. Each answer carries the first identifier, the place of the last update so far or
the first place, and the movement of the updates since the record was taken last, added up in order from
zero, or from the first movement if it was never taken; an update is part of its own answer. Calls
that only look, here given as `none`, may be put in and left out anywhere: no other answer changes. -/
theorem answers_follow_history (initial : Record) :
    (∀ past call later, ∃ r,
      (answers ⟨initial⟩ (past ++ call :: later))[past.length]? = some r ∧
        r.id = initial.id ∧
        r.place = placeAfter initial.place (updates past ++ call.update?.toList) ∧
        r.delta = total (if .take ∈ past then .zero else initial.delta)
          (untaken past ++ call.update?.toList)) ∧
      ∀ calls : List (Option CellCall),
        answers ⟨initial⟩ calls.reduceOption =
          ((calls.zip (answers ⟨initial⟩ (calls.map (·.getD .current)))).filter (·.1.isSome)).map
            (·.2) := by
  refine ⟨fun past call later => ⟨_, getElem?_answers .., ?_, ?_, ?_⟩, answers_reduceOption _⟩
  · rw [id_merges, id_after]
  · rw [place_merges, place_after, placeAfter_append]
  · rw [delta_merges, delta_after, movement, total_append]

end Cell
end PositionRelay
