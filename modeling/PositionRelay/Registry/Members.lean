import PositionRelay.Record

/-!
# Members

The identifiers of the live clients, kept in ascending order and therefore each once. Snapshots list
their records in this order.
-/
namespace PositionRelay

/-- Puts an identifier at its place among ascending ones, unless it is there already. -/
def insertAscending (id : ClientId) : List ClientId → List ClientId
  | [] => [id]
  | j :: rest =>
      if id < j then id :: j :: rest
      else if id = j then j :: rest
      else j :: insertAscending id rest

theorem mem_insertAscending {id j : ClientId} {ids : List ClientId} :
    j ∈ insertAscending id ids ↔ j = id ∨ j ∈ ids := by
  induction ids with
  | nil => simp [insertAscending]
  | cons k rest ih =>
      unfold insertAscending
      split
      · simp
      · split
        · next h => simp [h]
        · simp only [List.mem_cons, ih]
          constructor <;> rintro (h | h | h) <;> simp [h]

theorem ClientId.lt_of_not_lt_of_ne {a b : ClientId} (h : ¬ a < b) (hne : a ≠ b) : b < a := by
  rw [Int32.lt_iff_toInt_lt] at h ⊢
  have hv : a.toInt ≠ b.toInt := fun he => hne (Int32.toInt_inj.mp he)
  omega

theorem insertAscending_pairwise {id : ClientId} {ids : List ClientId}
    (h : ids.Pairwise (· < ·)) : (insertAscending id ids).Pairwise (· < ·) := by
  induction ids with
  | nil => simp [insertAscending]
  | cons k rest ih =>
      obtain ⟨hk, hrest⟩ := List.pairwise_cons.mp h
      unfold insertAscending
      split
      · next hlt =>
          refine List.pairwise_cons.mpr ⟨?_, h⟩
          intro j hj
          rcases List.mem_cons.mp hj with rfl | hj
          · exact hlt
          · exact Int32.lt_trans hlt (hk j hj)
      · split
        · exact h
        · next hlt hne =>
            refine List.pairwise_cons.mpr ⟨?_, ih hrest⟩
            intro j hj
            rcases mem_insertAscending.mp hj with rfl | hj
            · exact ClientId.lt_of_not_lt_of_ne hlt hne
            · exact hk j hj

theorem ascending_nil : ([] : List ClientId).Pairwise (· < ·) := .nil

structure Members where
  ids : List ClientId := []
  ascending : ids.Pairwise (· < ·) := by exact ascending_nil
deriving DecidableEq

namespace Members

instance : Inhabited Members := ⟨{}⟩

instance : Membership ClientId Members := ⟨fun m id => id ∈ m.ids⟩

def insert (m : Members) (id : ClientId) : Members :=
  ⟨insertAscending id m.ids, insertAscending_pairwise m.ascending⟩

/-- The members that a test lets stay. -/
def filter (m : Members) (stays : ClientId → Bool) : Members :=
  ⟨m.ids.filter stays, m.ascending.filter _⟩

def erase (m : Members) (id : ClientId) : Members := m.filter (· != id)

def size (m : Members) : Nat := m.ids.length

end Members
end PositionRelay
