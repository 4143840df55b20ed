import PositionRelay.Record

/-!
# Rosters

A roster keeps one entry per client, found by its identifier. `get?` is the view through which all
else is described: each operation has one equation that says what it does to `get?`.
-/
namespace PositionRelay

structure Roster (α : Type) where
  entries : List (ClientId × α) := []
deriving DecidableEq, Repr

namespace Roster

variable {α : Type}

instance : Inhabited (Roster α) := ⟨{}⟩

def get? (r : Roster α) (id : ClientId) : Option α := r.entries.lookup id

def ids (r : Roster α) : List ClientId := r.entries.map Prod.fst

/-- Replaces the first entry of an identifier, or adds one at the end. -/
def put (id : ClientId) (a : α) : List (ClientId × α) → List (ClientId × α)
  | [] => [(id, a)]
  | (j, b) :: rest => if id = j then (j, a) :: rest else (j, b) :: put id a rest

def set (r : Roster α) (id : ClientId) (a : α) : Roster α := ⟨put id a r.entries⟩

/-- Changes every entry by a rule that sees its identifier. -/
def map (r : Roster α) (f : ClientId → α → α) : Roster α :=
  ⟨r.entries.map fun e => (e.1, f e.1 e.2)⟩

/-- Changes the entry of one identifier. -/
def modify (r : Roster α) (id : ClientId) (f : α → α) : Roster α :=
  r.map fun j a => if j = id then f a else a

@[simp] theorem get?_empty (id : ClientId) : (({} : Roster α)).get? id = none := rfl

@[simp] theorem get?_set (r : Roster α) (id j : ClientId) (a : α) :
    (r.set id a).get? j = if j = id then some a else r.get? j := by
  obtain ⟨entries⟩ := r
  simp only [get?, set]
  induction entries with
  | nil => by_cases h : j = id <;> simp [put, List.lookup_cons, h, beq_eq_false_iff_ne.mpr]
  | cons e rest ih =>
      obtain ⟨k, b⟩ := e
      by_cases hk : id = k
      · subst hk
        by_cases h : j = id
        · simp [put, h]
        · simp [put, List.lookup_cons, h, beq_eq_false_iff_ne.mpr]
      · by_cases h : j = k
        · subst h
          simp [put, hk, Ne.symm hk]
        · rw [put, if_neg hk, List.lookup_cons, List.lookup_cons, beq_eq_false_iff_ne.mpr h]
          exact ih

@[simp] theorem get?_map (r : Roster α) (f : ClientId → α → α) (j : ClientId) :
    (r.map f).get? j = (r.get? j).map (f j) := by
  obtain ⟨entries⟩ := r
  simp only [get?, map]
  induction entries with
  | nil => rfl
  | cons e rest ih =>
      obtain ⟨k, b⟩ := e
      by_cases h : j = k
      · subst h
        simp
      · rw [List.map_cons, List.lookup_cons, List.lookup_cons, beq_eq_false_iff_ne.mpr h]
        exact ih

@[simp] theorem get?_modify (r : Roster α) (id j : ClientId) (f : α → α) :
    (r.modify id f).get? j = if j = id then (r.get? j).map f else r.get? j := by
  rw [modify, get?_map]
  by_cases h : j = id <;> simp [h]

end Roster
end PositionRelay
