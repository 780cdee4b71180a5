import Mathlib.Data.List.AList

/-!
# Counting the values of a finite map

How many entries of a finite map hold a value of some kind, and how insertion and erasure
change that number. A program that keeps such a number in a counter of its own is compared
with `count` operation by operation.
-/

namespace CountedMap

open List

universe u v

variable {α : Type u} {β : Type v}

/-- How many entries hold a value that satisfies `p`. -/
def count (p : β → Bool) (m : AList fun _ : α => β) : Nat := m.entries.countP fun e => p e.2

variable {p : β → Bool} {m : AList fun _ : α => β} {a : α} {b c : β}

/-- No more entries satisfy `p` than there are. -/
theorem count_le_length : count p m ≤ m.entries.length := countP_le_length

/-- Every entry satisfies the trivial property. -/
theorem count_true : count (fun _ => true) m = m.entries.length := by
  show m.entries.countP (fun _ => true) = m.entries.length
  rw [countP_true]

variable [DecidableEq α]

/-- Some entry holds a value that satisfies `p`. -/
def Some (p : β → Bool) (m : AList fun _ : α => β) : Prop := ∃ a b, m.lookup a = some b ∧ p b = true

/-- A present entry heads a permutation of the entries. -/
theorem entries_perm (h : m.lookup a = some b) :
    m.entries.Perm (⟨a, b⟩ :: (m.erase a).entries) := by
  have hmem : Sigma.mk a b ∈ m.entries := AList.mem_lookup_iff.mp h
  have hkey : a ∈ m.entries.keys := mem_keys_of_mem hmem
  obtain ⟨c, left, right, -, heq, hrest⟩ := exists_of_kerase hkey
  have hb : b = c := by
    have hin : Sigma.mk a c ∈ m.entries := by
      rw [heq]
      simp
    have hc : m.lookup a = some c := AList.mem_lookup_iff.mpr hin
    exact Option.some.inj (h.symm.trans hc)
  subst hb
  show m.entries.Perm (⟨a, b⟩ :: m.entries.kerase a)
  rw [hrest, heq]
  exact perm_middle

/-- Erasing an entry takes it out of the count. -/
theorem count_erase (h : m.lookup a = some b) :
    count p m = count p (m.erase a) + if p b then 1 else 0 := by
  show m.entries.countP _ = _
  rw [(entries_perm h).countP_eq, countP_cons]
  rfl

/-- A fresh entry is counted. -/
theorem count_insert_fresh (h : m.lookup a = none) :
    count p (m.insert a b) = count p m + if p b then 1 else 0 := by
  have hnot : a ∉ m := AList.lookup_eq_none.mp h
  show (m.insert a b).entries.countP _ = _
  rw [AList.entries_insert_of_notMem hnot, countP_cons]
  rfl

/-- A replaced entry is counted by its new value. -/
theorem count_insert (h : m.lookup a = some c) :
    count p (m.insert a b) + (if p c then 1 else 0) = count p m + if p b then 1 else 0 := by
  have hins : count p (m.insert a b) = count p (m.erase a) + if p b then 1 else 0 := by
    show (m.insert a b).entries.countP _ = _
    rw [AList.entries_insert, countP_cons]
    rfl
  have herase : count p m = count p (m.erase a) + if p c then 1 else 0 := count_erase h
  omega

/-- The count is positive when some entry is counted. -/
theorem count_pos_iff : 0 < count p m ↔ Some p m := by
  show 0 < m.entries.countP _ ↔ _
  rw [countP_pos_iff]
  constructor
  · rintro ⟨⟨k, v⟩, hmem, hp⟩
    exact ⟨k, v, AList.mem_lookup_iff.mpr hmem, hp⟩
  · rintro ⟨k, v, hk, hp⟩
    exact ⟨⟨k, v⟩, AList.mem_lookup_iff.mp hk, hp⟩

/-- A lookup after an insertion. -/
theorem lookup_insert_if (a' : α) :
    (m.insert a b).lookup a' = if a' = a then some b else m.lookup a' := by
  split
  · next h =>
    subst h
    exact AList.lookup_insert m
  · next h => exact AList.lookup_insert_ne h

/-- A lookup after an erasure. -/
theorem lookup_erase_if (a' : α) :
    (m.erase a).lookup a' = if a' = a then none else m.lookup a' := by
  split
  · next h =>
    subst h
    exact AList.lookup_erase _ m
  · next h => exact AList.lookup_erase_ne h

end CountedMap
