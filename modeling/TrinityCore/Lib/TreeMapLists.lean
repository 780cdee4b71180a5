import Std.Data.ExtTreeMap.Lemmas
import Mathlib.Data.List.Nodup

/-!
# The entries of a tree map as a list

Two maps are compared through the lists of their entries, up to the order.
-/

namespace TreeMapLists

open List Std

universe u v

variable {κ : Type u} {α : Type v} [Ord κ] [TransOrd κ] [LawfulEqOrd κ]

/-! ### Lookups by equality of keys -/

section

variable [DecidableEq κ]

theorem getElem?_erase_eq (m : ExtTreeMap κ α) (k a : κ) :
    (m.erase k)[a]? = if a = k then none else m[a]? := by
  simp only [ExtTreeMap.getElem?_erase, LawfulEqOrd.compare_eq_iff_eq, @eq_comm _ k a]

theorem getElem?_insert_eq (m : ExtTreeMap κ α) (k a : κ) (v : α) :
    (m.insert k v)[a]? = if a = k then some v else m[a]? := by
  simp only [ExtTreeMap.getElem?_insert, LawfulEqOrd.compare_eq_iff_eq, @eq_comm _ k a]

theorem getElem?_modify_eq (m : ExtTreeMap κ α) (k a : κ) (f : α → α) :
    (m.modify k f)[a]? = if a = k then m[k]?.map f else m[a]? := by
  simp only [ExtTreeMap.getElem?_modify, LawfulEqOrd.compare_eq_iff_eq, @eq_comm _ k a]

end

/-! ### Entries -/

variable {m : ExtTreeMap κ α}

theorem mem_toList_iff {x : κ × α} : x ∈ m.toList ↔ m[x.1]? = some x.2 :=
  ExtTreeMap.mem_toList_iff_getElem?_eq_some

theorem nodup_keys (m : ExtTreeMap κ α) : (m.toList.map Prod.fst).Nodup := by
  rw [nodup_iff_pairwise_ne, pairwise_map]
  apply m.distinct_keys_toList.imp
  intro a b hne heq
  exact hne (heq ▸ ReflCmp.compare_self)

/-- A list without repeated keys that has the entries of a map is the list of its entries. -/
theorem perm_toList {l : List (κ × α)} (hnodup : (l.map Prod.fst).Nodup)
    (h : ∀ k v, (k, v) ∈ l ↔ m[k]? = some v) : m.toList.Perm l := by
  apply (perm_ext_iff_of_nodup (List.Nodup.of_map _ (nodup_keys m))
    (List.Nodup.of_map _ hnodup)).mpr
  rintro ⟨k, v⟩
  rw [mem_toList_iff, h]

/-- The entries after an insertion. -/
theorem perm_toList_insert [DecidableEq κ] (m : ExtTreeMap κ α) (k : κ) (v : α) :
    (m.insert k v).toList.Perm ((k, v) :: (m.erase k).toList) := by
  have hfresh : k ∉ (m.erase k).toList.map Prod.fst := by
    intro hmem
    obtain ⟨⟨k', w⟩, hw, rfl⟩ := mem_map.mp hmem
    rw [mem_toList_iff, ExtTreeMap.getElem?_erase_self] at hw
    cases hw
  apply perm_toList
  · rw [map_cons]
    exact nodup_cons.mpr ⟨hfresh, nodup_keys _⟩
  · intro k' w
    rw [mem_cons, mem_toList_iff, getElem?_erase_eq, getElem?_insert_eq]
    by_cases heq : k' = k
    · simp [heq, eq_comm]
    · simp [heq]

/-- The entries of a map with the key. -/
theorem perm_toList_erase [DecidableEq κ] {k : κ} {v : α} (h : m[k]? = some v) :
    m.toList.Perm ((k, v) :: (m.erase k).toList) := by
  have hsame : m.insert k v = m := by
    apply ExtTreeMap.ext_getElem?
    intro k'
    rw [getElem?_insert_eq]
    split
    · next heq => rw [heq, h]
    · rfl
  have hperm := perm_toList_insert m k v
  rwa [hsame] at hperm

omit [LawfulEqOrd κ] in
theorem size_insert_of_notMem {k : κ} {v : α} (h : k ∉ m) : (m.insert k v).size = m.size + 1 := by
  have hcontains : ¬ m.contains k = true := h
  rw [ExtTreeMap.size_insert, if_neg hcontains]

/-- The entries after the insertion of a new key. -/
theorem perm_toList_insert_of_notMem [DecidableEq κ] {k : κ} {v : α} (h : k ∉ m) :
    (m.insert k v).toList.Perm ((k, v) :: m.toList) := by
  have hsame : m.erase k = m := by
    apply ExtTreeMap.ext_getElem?
    intro k'
    rw [getElem?_erase_eq]
    split
    · next heq => exact heq ▸ (ExtTreeMap.getElem?_eq_none h).symm
    · rfl
  have hperm := perm_toList_insert m k v
  rwa [hsame] at hperm

end TreeMapLists
