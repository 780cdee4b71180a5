import Mathlib.Data.List.Pairwise
import Mathlib.Order.RelClasses

/-!
# Lower bounds in sorted lists

The binary search for the first position of a list whose element is not below a value. On a list
that is strictly sorted by a strict weak order it splits the list there, and the elements
equivalent to the value, at most one, are found at the split.
-/

namespace LowerBound

open List

universe u

variable {α : Type u} (lt : α → α → Prop)

/-- Neither is below the other. -/
def Equivalent (a b : α) : Prop := ¬lt a b ∧ ¬lt b a

/-- The loop of the search: `len` positions from `first` on are still to be searched, of which
those that are `below` come first. -/
def search (below : Nat → Bool) (first len : Nat) : Nat :=
  if len = 0 then first
  else if below (first + len / 2) then search below (first + len / 2 + 1) (len - len / 2 - 1)
  else search below first (len / 2)
termination_by len
decreasing_by all_goals omega

/-- The position of the first element of a sorted list that is not below the value. -/
def lowerBound [DecidableRel lt] (l : List α) (value : α) : Nat :=
  search (fun i => l[i]?.any fun a => decide (lt a value)) 0 l.length

variable {lt} {below : Nat → Bool}

/-- The search ends at the only split of its range. -/
theorem search_spec (hbelow : ∀ i j, i ≤ j → below j = true → below i = true) (first len : Nat) :
    first ≤ search below first len ∧ search below first len ≤ first + len ∧
      ∀ i, first ≤ i → i < first + len → (below i = true ↔ i < search below first len) := by
  fun_induction search below first len with
  | case1 first => exact ⟨Nat.le_refl _, Nat.le_refl _, by omega⟩
  | case2 first len hne hmid ih =>
    obtain ⟨hlow, hhigh, hiff⟩ := ih
    refine ⟨by omega, by omega, fun i hi hlt => ?_⟩
    by_cases hleft : i ≤ first + len / 2
    · exact iff_of_true (hbelow i _ hleft hmid) (by omega)
    · exact hiff i (by omega) (by omega)
  | case3 first len hne hmid ih =>
    obtain ⟨hlow, hhigh, hiff⟩ := ih
    refine ⟨hlow, by omega, fun i hi hlt => ?_⟩
    by_cases hleft : i < first + len / 2
    · exact hiff i hi hleft
    · exact iff_of_false (fun h => hmid (hbelow _ i (by omega) h)) (by omega)

theorem Equivalent.symm {a b : α} (h : Equivalent lt a b) : Equivalent lt b a := ⟨h.2, h.1⟩

section

variable [IsStrictWeakOrder α lt] {a b c : α}

theorem Equivalent.refl (a : α) : Equivalent lt a a := ⟨irrefl a, irrefl a⟩

theorem Equivalent.trans (h : Equivalent lt a b) (h' : Equivalent lt b c) : Equivalent lt a c :=
  IsStrictWeakOrder.incomp_trans a b c h h'

/-- What is below an element is below all that are equivalent to it. -/
theorem Equivalent.lt_of_lt (h : Equivalent lt b c) (hlt : lt a b) : lt a c := by
  by_contra hac
  have hca : ¬lt c a := fun hca => h.2 (trans_of lt hca hlt)
  have hab : Equivalent lt a b := Equivalent.trans ⟨hac, hca⟩ h.symm
  exact hab.1 hlt

end

/-- The elements of a list before the lower bound of a value are those below it. -/
structure SplitAt (lt : α → α → Prop) (l : List α) (value : α) (before after : List α) : Prop where
  append : l = before ++ after
  below : ∀ a ∈ before, lt a value
  notBelow : ∀ a ∈ after, ¬lt a value

variable [IsStrictWeakOrder α lt] {l : List α}

/-- The lower bound splits a sorted list. -/
theorem lowerBound_splits [DecidableRel lt] (hl : l.Pairwise lt) (value : α) :
    ∃ before after, SplitAt lt l value before after ∧
      lowerBound lt l value = before.length := by
  have hmono : ∀ i j : Nat, i ≤ j → (l[j]?.any fun a => decide (lt a value)) = true →
      (l[i]?.any fun a => decide (lt a value)) = true := by
    intro i j hij hj
    rw [Option.any_eq_true] at hj ⊢
    obtain ⟨b, hb, hlt⟩ := hj
    obtain ⟨hjlt, rfl⟩ := List.getElem?_eq_some_iff.mp hb
    refine ⟨l[i], getElem?_eq_getElem (by omega), ?_⟩
    rcases Nat.lt_or_eq_of_le hij with hlt' | rfl
    · have hsorted : lt l[i] l[j] := pairwise_iff_getElem.mp hl i j (by omega) hjlt hlt'
      exact decide_eq_true (trans_of lt hsorted (of_decide_eq_true hlt))
    · exact hlt
  obtain ⟨-, hle, hiff⟩ := search_spec hmono 0 l.length
  rw [Nat.zero_add] at hle hiff
  refine ⟨l.take (lowerBound lt l value), l.drop (lowerBound lt l value),
    ⟨(take_append_drop _ _).symm, fun a ha => ?_, fun a ha hlt => ?_⟩,
    (length_take_of_le hle).symm⟩
  · obtain ⟨i, hi, rfl⟩ := mem_iff_getElem.mp ha
    rw [length_take] at hi
    have hbelow := (hiff i (Nat.zero_le _) (by omega)).mpr (by unfold lowerBound at hi; omega)
    rw [getElem?_eq_getElem (by omega)] at hbelow
    rw [getElem_take]
    exact of_decide_eq_true hbelow
  · obtain ⟨i, hi, rfl⟩ := mem_iff_getElem.mp ha
    rw [length_drop] at hi
    rw [getElem_drop] at hlt
    have hbelow := (hiff (lowerBound lt l value + i) (Nat.zero_le _) (by omega)).mp (by
      rw [getElem?_eq_getElem (by omega)]
      exact decide_eq_true hlt)
    unfold lowerBound at hbelow
    omega

variable {value : α} {before after : List α}

/-- What is equivalent to the value is the first element that is not below it. -/
theorem SplitAt.head_of_equivalent (h : SplitAt lt l value before after) (hl : l.Pairwise lt) {a : α}
    (ha : a ∈ l) (heq : Equivalent lt a value) : after.head? = some a := by
  rw [h.append, mem_append] at ha
  rcases ha with ha | ha
  · exact absurd (h.below a ha) heq.1
  · rw [h.append, pairwise_append] at hl
    cases after with
    | nil => cases ha
    | cons b after =>
      rcases mem_cons.mp ha with rfl | ha
      · rfl
      · have hba : lt b a := (pairwise_cons.mp hl.2.1).1 a ha
        exact absurd (heq.lt_of_lt hba) (h.notBelow b mem_cons_self)

/-- Where the first element that is not below the value is above it, the value fits in between. -/
theorem SplitAt.pairwise_insert (h : SplitAt lt l value before after) (hl : l.Pairwise lt)
    (habove : ∀ a, after.head? = some a → lt value a) : (before ++ value :: after).Pairwise lt := by
  rw [h.append, pairwise_append] at hl
  obtain ⟨hbefore, hafter, hcross⟩ := hl
  have hvalue : ∀ a ∈ after, lt value a := by
    intro a ha
    cases after with
    | nil => cases ha
    | cons b after =>
      have hb : lt value b := habove b rfl
      rcases mem_cons.mp ha with rfl | ha
      · exact hb
      · exact trans_of lt hb ((pairwise_cons.mp hafter).1 a ha)
  rw [pairwise_append]
  refine ⟨hbefore, pairwise_cons.mpr ⟨hvalue, hafter⟩, fun a ha b hb => ?_⟩
  rcases mem_cons.mp hb with rfl | hb
  · exact h.below a ha
  · exact hcross a ha b hb

end LowerBound
