import Mathlib.Data.List.Nodup

/-!
# Lists that share no element

A family of lists, one for each key. In a family that is apart every element stands once in one
list, so that a list is found by its element, and an element moves from one list to another.
-/

namespace Placement

open Function List

universe u v

variable {ι : Type u} {α : Type v} [DecidableEq ι] [DecidableEq α]

def pushFront (f : ι → List α) (k : ι) (a : α) : ι → List α := update f k (a :: f k)

def pushBack (f : ι → List α) (k : ι) (a : α) : ι → List α := update f k (f k ++ [a])

def erase (f : ι → List α) (k : ι) (a : α) : ι → List α := update f k ((f k).erase a)

/-- At the front of one list first, and then out of the other. -/
def move (f : ι → List α) (source target : ι) (a : α) : ι → List α :=
  erase (pushFront f target a) source a

/-- No element stands twice, in one list or in two. -/
structure Apart (f : ι → List α) : Prop where
  nodup : ∀ k, (f k).Nodup
  unique : ∀ {k k' a}, a ∈ f k → a ∈ f k' → k = k'

variable {f : ι → List α} {k k' : ι} {a b : α}

omit [DecidableEq ι] [DecidableEq α] in
theorem apart_nil : Apart fun _ : ι => ([] : List α) := ⟨fun _ => nodup_nil, nofun⟩

omit [DecidableEq α] in
theorem mem_pushBack : b ∈ pushBack f k a k' ↔ b = a ∧ k' = k ∨ b ∈ f k' := by
  unfold pushBack
  by_cases hk : k' = k
  · rw [hk, update_self, mem_append, mem_singleton]
    grind
  · rw [update_of_ne hk]
    grind

theorem Apart.pushBack (h : Apart f) (hnew : ∀ k, a ∉ f k) (k : ι) :
    Apart (Placement.pushBack f k a) where
  nodup k' := by
    unfold Placement.pushBack
    by_cases hk : k' = k
    · rw [hk, update_self]
      apply List.Nodup.append (h.nodup k) (nodup_singleton a)
      exact disjoint_singleton.mpr (hnew k)
    · rw [update_of_ne hk]
      exact h.nodup k'
  unique hmem hmem' := by
    rw [mem_pushBack] at hmem hmem'
    obtain ⟨rfl, rfl⟩ | hmem := hmem
    · obtain ⟨-, rfl⟩ | hmem' := hmem'
      · rfl
      · exact absurd hmem' (hnew _)
    · obtain ⟨rfl, rfl⟩ | hmem' := hmem'
      · exact absurd hmem (hnew _)
      · exact h.unique hmem hmem'

theorem Apart.mem_erase (h : Apart f) (ha : a ∈ f k) :
    b ∈ Placement.erase f k a k' ↔ b ≠ a ∧ b ∈ f k' := by
  unfold Placement.erase
  by_cases hk : k' = k
  · rw [hk, update_self, (h.nodup k).mem_erase_iff]
  · rw [update_of_ne hk]
    refine ⟨fun hb => ⟨fun hba => ?_, hb⟩, And.right⟩
    exact hk (h.unique hb (hba ▸ ha))

theorem Apart.erase (h : Apart f) (ha : a ∈ f k) : Apart (Placement.erase f k a) where
  nodup k' := by
    unfold Placement.erase
    by_cases hk : k' = k
    · rw [hk, update_self]
      exact (h.nodup k).erase a
    · rw [update_of_ne hk]
      exact h.nodup k'
  unique hmem hmem' := h.unique ((h.mem_erase ha).mp hmem).2 ((h.mem_erase ha).mp hmem').2

/-- The lists between which an element moves. -/
theorem move_apply (hne : k' ≠ k) (i : ι) :
    move f k k' a i = if i = k then (f k).erase a else if i = k' then a :: f k' else f i := by
  unfold move erase pushFront
  by_cases hk : i = k
  · rw [hk, update_self, update_of_ne hne.symm, if_pos rfl]
  · rw [update_of_ne hk, if_neg hk]
    by_cases hk' : i = k'
    · rw [hk', update_self, if_pos rfl]
    · rw [update_of_ne hk', if_neg hk']

theorem Apart.mem_move (h : Apart f) (ha : a ∈ f k) (hne : k' ≠ k) {i : ι} :
    b ∈ Placement.move f k k' a i ↔ b = a ∧ i = k' ∨ b ≠ a ∧ b ∈ f i := by
  rw [move_apply hne]
  split
  · next hi =>
    rw [hi, (h.nodup k).mem_erase_iff]
    have := hne.symm
    grind
  · next hi =>
    have hnot : b ∈ f i → b ≠ a := fun hb hba => hi (h.unique hb (hba ▸ ha))
    split
    · next hi' =>
      rw [mem_cons, ← hi']
      grind
    · grind

theorem Apart.move (h : Apart f) (ha : a ∈ f k) (hne : k' ≠ k) :
    Apart (Placement.move f k k' a) where
  nodup i := by
    rw [move_apply hne]
    split
    · exact (h.nodup k).erase a
    · split
      · exact nodup_cons.mpr ⟨fun hmem => hne (h.unique hmem ha), h.nodup k'⟩
      · exact h.nodup i
  unique hmem hmem' := by
    rw [h.mem_move ha hne] at hmem hmem'
    obtain ⟨rfl, rfl⟩ | ⟨hba, hmem⟩ := hmem
    · obtain ⟨-, rfl⟩ | ⟨hbb, -⟩ := hmem'
      · rfl
      · exact absurd rfl hbb
    · obtain ⟨rfl, -⟩ | ⟨-, hmem'⟩ := hmem'
      · exact absurd rfl hba
      · exact h.unique hmem hmem'

/-- A family in which one element stands in this list, and all others stand as before. -/
structure Relocates (f f' : ι → List α) (a : α) (k : ι) : Prop where
  apart : Apart f'
  mem : ∀ {b i}, b ∈ f' i ↔ b = a ∧ i = k ∨ b ≠ a ∧ b ∈ f i

theorem Apart.relocates_move (h : Apart f) (ha : a ∈ f k) (hne : k' ≠ k) :
    Relocates f (Placement.move f k k' a) a k' := ⟨h.move ha hne, h.mem_move ha hne⟩

omit [DecidableEq ι] [DecidableEq α] in
theorem Apart.relocates_self (h : Apart f) (ha : a ∈ f k) : Relocates f f a k := by
  refine ⟨h, fun {b i} => ⟨fun hb => ?_, ?_⟩⟩
  · by_cases hba : b = a
    · exact .inl ⟨hba, h.unique (hba ▸ hb) ha⟩
    · exact .inr ⟨hba, hb⟩
  · rintro (⟨rfl, rfl⟩ | ⟨-, hb⟩)
    · exact ha
    · exact hb

/-- An element is counted once in its list, and nowhere else. -/
theorem Apart.count_eq (h : Apart f) (ha : a ∈ f k) (i : ι) :
    (f i).count a = if i = k then 1 else 0 := by
  split
  · next hi => rw [hi, count_eq_one_of_mem (h.nodup k) ha]
  · next hi => exact count_eq_zero.mpr fun hmem => hi (h.unique hmem ha)

end Placement
