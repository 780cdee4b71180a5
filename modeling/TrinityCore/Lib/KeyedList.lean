import Mathlib.Algebra.BigOperators.Group.List.Basic
import Mathlib.Data.List.Nodup

/-!
# Lists of records with a key

Lists whose records have different keys. One record is found, changed or left out by its key, and
sums over the list change by what that record adds to them.
-/

namespace KeyedList

open List

universe u v w

variable {β : Type u} {κ : Type v} [DecidableEq κ] {key : β → κ} {l : List β} {a : β}

omit [DecidableEq κ] in
/-- The record is the only one with its key. -/
theorem eq_of_key_eq (hnodup : (l.map key).Nodup) (ha : a ∈ l) {b : β} (hb : b ∈ l)
    (h : key b = key a) : b = a := inj_on_of_nodup_map hnodup hb ha h

/-- A record is found by its key. -/
theorem find?_of_mem (hnodup : (l.map key).Nodup) (ha : a ∈ l) :
    (l.find? fun b => key b = key a) = some a := by
  cases hfind : l.find? fun b => key b = key a with
  | none =>
    have hnone := find?_eq_none.mp hfind a ha
    simp at hnone
  | some b =>
    have hkey := find?_some hfind
    simp only [decide_eq_true_eq] at hkey
    rw [eq_of_key_eq hnodup ha (mem_of_find?_eq_some hfind) hkey]

/-- Leaving out a key that no record has changes nothing. -/
theorem filter_key_ne {k : κ} (h : k ∉ l.map key) : (l.filter fun b => key b ≠ k) = l := by
  rw [filter_eq_self]
  intro b hb
  apply decide_eq_true
  rintro rfl
  exact h (mem_map_of_mem hb)

/-- Changing the records with a key changes nothing when there are none. -/
theorem map_key_ne {k : κ} {g : β → β} (h : k ∉ l.map key) :
    (l.map fun b => if key b = k then g b else b) = l := by
  conv_rhs => rw [← map_id l]
  apply map_congr_left
  intro b hb
  rw [if_neg, id]
  rintro rfl
  exact h (mem_map_of_mem hb)

/-- A changed record is left out as it was. -/
theorem filter_map_key {g : β → β} (hg : ∀ b, key (g b) = key b) (k : κ) :
    ((l.map fun b => if key b = k then g b else b).filter fun b => key b ≠ k) =
      l.filter fun b => key b ≠ k := by
  induction l with
  | nil => rfl
  | cons b l ih =>
    rw [map_cons, filter_cons, filter_cons, ih]
    by_cases hkey : key b = k
    · simp [hkey, hg]
    · simp [hkey]

/-- A list is one of its records and those with other keys. -/
theorem perm_filter_key (hnodup : (l.map key).Nodup) (ha : a ∈ l) :
    l.Perm (a :: l.filter fun b => key b ≠ key a) := by
  induction l with
  | nil => cases ha
  | cons b l ih =>
    rw [map_cons, nodup_cons] at hnodup
    rcases mem_cons.mp ha with rfl | hmem
    · rw [filter_cons, if_neg (by simp), filter_key_ne hnodup.1]
    · have hne : key b ≠ key a := by
        intro heq
        exact hnodup.1 (heq ▸ mem_map_of_mem hmem)
      rw [filter_cons, if_pos (decide_eq_true hne)]
      exact ((ih hnodup.2 hmem).cons b).trans (List.Perm.swap a b _)

variable {M : Type w} [AddCommMonoid M]

/-- A sum without a record is less by what it adds. -/
theorem sum_filter_key (hnodup : (l.map key).Nodup) (ha : a ∈ l) (f : β → M) :
    ((l.filter fun b => key b ≠ key a).map f).sum + f a = (l.map f).sum := by
  rw [((perm_filter_key hnodup ha).map f).sum_eq, map_cons, sum_cons, add_comm]

/-- A sum changes by what the changed record adds. -/
theorem sum_map_key (hnodup : (l.map key).Nodup) (ha : a ∈ l) (g : β → β) (f : β → M) :
    ((l.map fun b => if key b = key a then g b else b).map f).sum + f a =
      (l.map f).sum + f (g a) := by
  induction l with
  | nil => cases ha
  | cons b l ih =>
    rw [map_cons, nodup_cons] at hnodup
    rcases mem_cons.mp ha with rfl | hmem
    · rw [map_cons, if_pos rfl, map_key_ne hnodup.1, map_cons, map_cons,
        sum_cons, sum_cons, add_right_comm, add_comm (f (g a)), add_right_comm]
    · have hne : key b ≠ key a := by
        intro heq
        exact hnodup.1 (heq ▸ mem_map_of_mem hmem)
      rw [map_cons, if_neg hne, map_cons, map_cons, sum_cons, sum_cons,
        add_assoc, ih hnodup.2 hmem, add_assoc]

/-- A sum to which only one record adds anything. -/
theorem sum_eq_of_key (hnodup : (l.map key).Nodup) (ha : a ∈ l) {f : β → M}
    (hf : ∀ b ∈ l, key b ≠ key a → f b = 0) : (l.map f).sum = f a := by
  have hrest : ((l.filter fun b => key b ≠ key a).map f).sum = 0 := by
    apply sum_eq_zero
    intro x hx
    obtain ⟨b, hb, rfl⟩ := mem_map.mp hx
    obtain ⟨hmem, hne⟩ := mem_filter.mp hb
    exact hf b hmem (of_decide_eq_true hne)
  rw [← sum_filter_key hnodup ha f, hrest, zero_add]

end KeyedList
