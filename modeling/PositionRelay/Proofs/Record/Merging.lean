import PositionRelay.Record

/-!
# Merging updates

A record into which updates are merged one after another keeps its identifier, goes where the last of
them says (`place_merges`), and adds up their movement in the order in which they come
(`delta_merges`). Sums of doubles depend on that order, so a total is a fold and not a sum over a set.
-/
namespace PositionRelay

/-- Adds up the movement of some updates, one after another. -/
def total (start : Binary64) (updates : List Record) : Binary64 :=
  updates.foldl (fun sum update => sum.add update.delta) start

theorem total_append (start : Binary64) (us vs : List Record) :
    total start (us ++ vs) = total (total start us) vs := List.foldl_append

namespace Record

/-- Where a record is. -/
def place (r : Record) : Binary64 × Binary64 := (r.x, r.y)

/-- The place of the last of some records, or the one before them. -/
def placeAfter (start : Binary64 × Binary64) (rs : List Record) : Binary64 × Binary64 :=
  (rs.getLast?.map place).getD start

@[simp] theorem placeAfter_nil (start : Binary64 × Binary64) : placeAfter start [] = start := rfl

@[simp] theorem placeAfter_cons (start : Binary64 × Binary64) (r : Record) (rs : List Record) :
    placeAfter start (r :: rs) = placeAfter r.place rs := by
  rw [placeAfter, placeAfter, List.getLast?_cons]
  cases rs.getLast? <;> rfl

theorem placeAfter_append (start : Binary64 × Binary64) (rs us : List Record) :
    placeAfter start (rs ++ us) = placeAfter (placeAfter start rs) us := by
  induction rs generalizing start with
  | nil => rfl
  | cons r rest ih => rw [List.cons_append, placeAfter_cons, placeAfter_cons, ih]

theorem placeAfter_of_ne_nil {rs : List Record} (h : rs ≠ []) (p q : Binary64 × Binary64) :
    placeAfter p rs = placeAfter q rs := by
  cases rs with
  | nil => exact absurd rfl h
  | cons r rest => rw [placeAfter_cons, placeAfter_cons]

theorem id_merges (r : Record) (us : List Record) : (us.foldl merge r).id = r.id := by
  induction us generalizing r with
  | nil => rfl
  | cons u rest ih =>
      rw [List.foldl_cons, ih]
      rfl

theorem place_merges (r : Record) (us : List Record) :
    (us.foldl merge r).place = placeAfter r.place us := by
  induction us generalizing r with
  | nil => rfl
  | cons u rest ih =>
      rw [List.foldl_cons, ih, placeAfter_cons]
      rfl

theorem delta_merges (r : Record) (us : List Record) :
    (us.foldl merge r).delta = total r.delta us := by
  induction us generalizing r with
  | nil => rfl
  | cons u rest ih =>
      rw [List.foldl_cons, ih]
      rfl

end Record
end PositionRelay
