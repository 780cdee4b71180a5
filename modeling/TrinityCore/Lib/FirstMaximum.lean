import Mathlib.Order.Lattice

/-!
# The first of the greatest

A loop that remembers an item and replaces it by one of strictly greater value ends with the
first item of greatest value, if any item exceeds the value it starts from.
-/

namespace FirstMaximum

open List

universe u v

variable {α : Type u} {ρ : Type v} [LinearOrder ρ] {rank : α → ρ}

/-- Keep the item, or take the next one if its value is greater. -/
def improve (rank : α → ρ) (best next : α) : α := if rank best < rank next then next else best

/-- The item is the first of the greatest ones of the list. -/
def IsFirstMax (rank : α → ρ) (l : List α) (a : α) : Prop :=
  ∃ before after, l = before ++ a :: after ∧ (∀ b ∈ before, rank b < rank a) ∧
    ∀ b ∈ after, rank b ≤ rank a

/-- The first of the greatest is in the list. -/
theorem IsFirstMax.mem {l : List α} {a : α} (h : IsFirstMax rank l a) : a ∈ l := by
  obtain ⟨before, after, rfl, -, -⟩ := h
  simp

/-- The loop keeps what it starts from, or ends with the first of the greatest. -/
theorem foldl_improve_cases (rank : α → ρ) (l : List α) (best : α) :
    (l.foldl (improve rank) best = best ∧ ∀ b ∈ l, rank b ≤ rank best) ∨
      (IsFirstMax rank l (l.foldl (improve rank) best) ∧
        rank best < rank (l.foldl (improve rank) best)) := by
  induction l generalizing best with
  | nil => simp
  | cons a l ih =>
    rw [foldl_cons]
    by_cases hlt : rank best < rank a
    · have hnext : improve rank best a = a := if_pos hlt
      rw [hnext]
      right
      rcases ih a with ⟨heq, hall⟩ | ⟨⟨before, after, hl, hbefore, hafter⟩, hgt⟩
      · rw [heq]
        exact ⟨⟨[], l, rfl, by simp, hall⟩, hlt⟩
      · refine ⟨⟨a :: before, after, by rw [cons_append, ← hl], ?_, hafter⟩, hlt.trans hgt⟩
        rw [forall_mem_cons]
        exact ⟨hgt, hbefore⟩
    · have hnext : improve rank best a = best := if_neg hlt
      rw [hnext]
      rcases ih best with ⟨heq, hall⟩ | ⟨⟨before, after, hl, hbefore, hafter⟩, hgt⟩
      · left
        rw [forall_mem_cons]
        exact ⟨heq, not_lt.mp hlt, hall⟩
      · right
        refine ⟨⟨a :: before, after, by rw [cons_append, ← hl], ?_, hafter⟩, hgt⟩
        rw [forall_mem_cons]
        exact ⟨lt_of_le_of_lt (not_lt.mp hlt) hgt, hbefore⟩

/-- From a value below all others, the loop ends with the first of the greatest. -/
theorem isFirstMax_foldl_improve {l : List α} {best : α} (hl : l ≠ [])
    (hbest : ∀ b ∈ l, rank best < rank b) : IsFirstMax rank l (l.foldl (improve rank) best) := by
  rcases foldl_improve_cases rank l best with ⟨-, hall⟩ | ⟨hfirst, -⟩
  · obtain ⟨b, hb⟩ := exists_mem_of_ne_nil l hl
    exact absurd (hbest b hb) (not_lt.mpr (hall b hb))
  · exact hfirst

end FirstMaximum
