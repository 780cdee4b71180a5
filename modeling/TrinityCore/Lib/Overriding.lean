import Mathlib.Data.List.Nodup

/-!
# Lists that override each other

Lists of entries with keys. An entry is put in the place of the one with its key, or at the end;
putting all entries of a list overrides a list by another, which is associative.
-/

namespace Overriding

open List

variable {β κ : Type*} [DecidableEq κ] {key : β → κ} {a b : β} {l m : List β} {k : κ}

/-- Put an entry in the place of the first one with its key, or at the end. -/
def put (key : β → κ) : List β → β → List β
  | [], b => [b]
  | a :: l, b => if key a = key b then b :: l else a :: put key l b

/-- The first entry with a key. -/
def find (key : β → κ) (l : List β) (k : κ) : Option β := l.find? fun b => decide (key b = k)

/-- The entries with other keys. -/
def without (key : β → κ) (l : List β) (k : κ) : List β := l.filter fun b => decide (key b ≠ k)

/-- Entries of the second list replace those of the first with their keys, in place; the others
come after, in their order. -/
def override (key : β → κ) (l m : List β) : List β :=
  l.map (fun a => (find key m (key a)).getD a) ++ m.filter fun b => decide (key b ∉ l.map key)

theorem nodup_put (hnodup : (l.map key).Nodup) (b : β) : ((put key l b).map key).Nodup := by
  have hkeys : ∀ l : List β, (put key l b).map key =
      if key b ∈ l.map key then l.map key else l.map key ++ [key b] := by
    intro l
    induction l with
    | nil => rfl
    | cons a l ih =>
      unfold put
      split
      · next heq => simp [heq]
      · next hne =>
        rw [map_cons, ih]
        split <;> simp_all [Ne.symm hne]
  rw [hkeys]
  split
  · exact hnodup
  · next hnew =>
    refine nodup_append.mpr ⟨hnodup, nodup_singleton _, ?_⟩
    rintro k hk k' hk' rfl
    exact hnew (mem_singleton.mp hk' ▸ hk)

theorem nodup_foldl_put (hnodup : (l.map key).Nodup) (bs : List β) :
    ((bs.foldl (put key) l).map key).Nodup := by
  induction bs generalizing l with
  | nil => exact hnodup
  | cons b bs ih => exact ih (nodup_put hnodup b)

theorem mem_put (h : a ∈ put key l b) : a ∈ l ∨ a = b := by
  induction l with
  | nil => exact .inr (mem_singleton.mp h)
  | cons c l ih =>
    unfold put at h
    split at h <;> simp only [mem_cons] at h ⊢ <;> tauto

theorem find_put_self (m : List β) (b : β) : find key (put key m b) (key b) = some b := by
  induction m with
  | nil => simp [put, find]
  | cons a m ih =>
    unfold put
    split
    · simp [find]
    · next hne => simpa [find, hne] using ih

theorem find_put_of_ne (hk : k ≠ key b) (m : List β) :
    find key (put key m b) k = find key m k := by
  induction m with
  | nil => simp [put, find, hk.symm]
  | cons a m ih =>
    unfold put
    split
    · next heq => simp [find, heq, hk.symm]
    · simp only [find, find?_cons] at ih ⊢
      rw [ih]

theorem without_put_self (m : List β) (b : β) :
    without key (put key m b) (key b) = without key m (key b) := by
  induction m with
  | nil => simp [put, without]
  | cons a m ih =>
    unfold put
    split
    · next heq => simp [without, heq]
    · simp only [without, filter_cons] at ih ⊢
      rw [ih]

theorem without_put_of_ne (hk : k ≠ key b) (m : List β) :
    without key (put key m b) k = put key (without key m k) b := by
  induction m with
  | nil => simp [put, without, hk.symm]
  | cons a m ih =>
    rw [put]
    split
    · next heq => simp [without, heq, hk.symm, put]
    · next hne =>
      simp only [without, filter_cons] at ih ⊢
      split
      · rw [put, if_neg hne, ih]
      · exact ih

theorem nil_override (m : List β) : override key [] m = m := by simp [override]

theorem override_nil (l : List β) : override key l [] = l := by simp [override, find]

/-- The first entry is replaced, the rest is overridden by the entries with other keys. -/
theorem override_cons (ha : key a ∉ l.map key) (m : List β) : override key (a :: l) m =
    (find key m (key a)).getD a :: override key l (without key m (key a)) := by
  unfold override
  rw [map_cons, cons_append]
  congr 2
  · apply map_congr_left
    intro c hc
    have hne : key c ≠ key a := fun heq => ha (mem_map.mpr ⟨c, hc, heq⟩)
    congr 1
    unfold find without
    rw [find?_filter]
    congr 1
    funext b
    by_cases heq : key b = key c <;> simp [heq, hne]
  · unfold without
    rw [filter_filter]
    congr 1
    funext b
    simp [Bool.and_comm]

theorem key_getD_find (m : List β) (a : β) : key ((find key m (key a)).getD a) = key a := by
  cases hfind : find key m (key a) with
  | none => rfl
  | some b => simpa using find?_some hfind

theorem put_override (hl : (l.map key).Nodup) (m : List β) (b : β) :
    put key (override key l m) b = override key l (put key m b) := by
  induction l generalizing m with
  | nil => rw [nil_override, nil_override]
  | cons a l ih =>
    rw [map_cons, nodup_cons] at hl
    rw [override_cons hl.1, override_cons hl.1, put, @key_getD_find β κ _ key]
    split
    · next heq => rw [heq, find_put_self, without_put_self, Option.getD_some]
    · next hne => rw [ih hl.2, find_put_of_ne hne, without_put_of_ne hne]

/-- Putting entries one after the other overrides the list by what they make on their own. -/
theorem foldl_put_eq_override (hl : (l.map key).Nodup) (bs : List β) :
    bs.foldl (put key) l = override key l (bs.foldl (put key) []) := by
  have hfold : ∀ m : List β,
      bs.foldl (put key) (override key l m) = override key l (bs.foldl (put key) m) := by
    induction bs with
    | nil => exact fun _ => rfl
    | cons b bs ih =>
      intro m
      rw [foldl_cons, foldl_cons, put_override hl, ih]
  have h := hfold []
  rwa [override_nil] at h

end Overriding
