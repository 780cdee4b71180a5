import Mathlib.Data.List.Perm.Lattice
import Mathlib.Order.Lattice

/-!
# The best item of every key

A list that keeps one item a key: `upsert` appends an item with a new key and combines it
with the item already there otherwise. When combining keeps the item of lower rank, the list
holds the best item of every key offered so far, in whatever order the offers came.
-/

namespace BestByKey

open List

universe u v w

variable {α : Type u} {κ : Type v} {ρ : Type w} [DecidableEq κ]

/-- Append `a`, or combine it in place with the item that has its key. -/
def upsert (key : α → κ) (combine : α → α → α) (a : α) : List α → List α
  | [] => [a]
  | b :: rest =>
    if key b = key a then combine b a :: rest else b :: upsert key combine a rest

variable {key : α → κ} {combine : α → α → α} {a b : α} {l : List α}

/-- An upsert adds its key when it is new. -/
theorem map_key_upsert (hkey : ∀ b a, key b = key a → key (combine b a) = key a) (a : α)
    (l : List α) :
    (upsert key combine a l).map key =
      if key a ∈ l.map key then l.map key else l.map key ++ [key a] := by
  induction l with
  | nil => rfl
  | cons b rest ih =>
    by_cases hsame : key b = key a
    · rw [upsert, if_pos hsame, map_cons, hkey b a hsame, map_cons, ← hsame, if_pos mem_cons_self]
    · have hmem : key a ∈ (b :: rest).map key ↔ key a ∈ rest.map key := by
        simp [Ne.symm hsame]
      rw [upsert, if_neg hsame, map_cons, ih]
      by_cases hold : key a ∈ rest.map key
      · rw [if_pos hold, if_pos (hmem.mpr hold), map_cons]
      · rw [if_neg hold, if_neg (fun h => hold (hmem.mp h)), map_cons, cons_append]

/-- Keys stay distinct. -/
theorem nodup_map_key_upsert (hkey : ∀ b a, key b = key a → key (combine b a) = key a) (a : α)
    (hnodup : (l.map key).Nodup) : ((upsert key combine a l).map key).Nodup := by
  rw [map_key_upsert hkey]
  split
  · exact hnodup
  · next hnew =>
    rw [← concat_eq_append]
    exact hnodup.concat hnew

/-- A projection that keeps keys and commutes with combining commutes with an upsert. -/
theorem map_upsert {β : Type u} {key' : β → κ} {combine' : β → β → β} (f : α → β)
    (hkey : ∀ x, key' (f x) = key x)
    (hcombine : ∀ b ∈ l, key b = key a → f (combine b a) = combine' (f b) (f a)) :
    (upsert key combine a l).map f = upsert key' combine' (f a) (l.map f) := by
  induction l with
  | nil => rfl
  | cons b rest ih =>
    simp only [upsert, map_cons, hkey]
    by_cases hsame : key b = key a
    · rw [if_pos hsame, if_pos hsame, map_cons, hcombine b mem_cons_self hsame]
    · rw [if_neg hsame, if_neg hsame, map_cons, ih fun c hc => hcombine c (mem_cons_of_mem b hc)]

variable [LinearOrder ρ]

/-- Of two items with one key, the new one only when its rank is lower. -/
def lower (rank : α → ρ) (b a : α) : α := if rank a < rank b then a else b

/-- Offer an item to a list that keeps the item of lowest rank for each key. -/
def offer (key : α → κ) (rank : α → ρ) : α → List α → List α := upsert key (lower rank)

variable {rank : α → ρ}

theorem lower_eq_or (rank : α → ρ) (b a : α) : lower rank b a = b ∨ lower rank b a = a := by
  unfold lower
  split <;> simp

omit [DecidableEq κ] in
theorem key_lower (hsame : key b = key a) : key (lower rank b a) = key a := by
  rcases lower_eq_or rank b a with h | h
  · rw [h, hsame]
  · rw [h]

theorem rank_lower_le_left : rank (lower rank b a) ≤ rank b := by
  unfold lower
  split
  · next h => exact h.le
  · exact le_rfl

theorem rank_lower_le_right : rank (lower rank b a) ≤ rank a := by
  unfold lower
  split
  · exact le_rfl
  · next h => exact not_lt.mp h

/-- Nothing but the offered item enters the list. -/
theorem mem_offer {x : α} (h : x ∈ offer key rank a l) : x = a ∨ x ∈ l := by
  induction l with
  | nil => exact .inl (mem_singleton.mp h)
  | cons b rest ih =>
    simp only [offer, upsert] at h ih
    split at h
    · rcases mem_cons.mp h with rfl | h
      · rcases lower_eq_or rank b a with heq | heq <;> simp [heq]
      · simp [h]
    · rcases mem_cons.mp h with rfl | h
      · simp
      · rcases ih h with heq | hmem
        · exact .inl heq
        · exact .inr (mem_cons_of_mem b hmem)

/-- The offered item or a better one with its key is in the list. -/
theorem exists_le_offered (key : α → κ) (rank : α → ρ) (a : α) (l : List α) :
    ∃ m ∈ offer key rank a l, key m = key a ∧ rank m ≤ rank a := by
  induction l with
  | nil => exact ⟨a, mem_singleton.mpr rfl, rfl, le_rfl⟩
  | cons b rest ih =>
    simp only [offer, upsert] at ih ⊢
    by_cases hsame : key b = key a
    · rw [if_pos hsame]
      exact ⟨_, mem_cons_self, key_lower hsame, rank_lower_le_right⟩
    · rw [if_neg hsame]
      obtain ⟨m, hm, hkey, hle⟩ := ih
      exact ⟨m, mem_cons_of_mem b hm, hkey, hle⟩

/-- An item stays, or makes room for a better one with its key. -/
theorem exists_le_of_mem (key : α → κ) (rank : α → ρ) (a : α) (hb : b ∈ l) :
    ∃ m ∈ offer key rank a l, key m = key b ∧ rank m ≤ rank b := by
  induction l with
  | nil => nomatch hb
  | cons c rest ih =>
    simp only [offer, upsert] at ih ⊢
    rcases mem_cons.mp hb with rfl | hb
    · by_cases hsame : key b = key a
      · rw [if_pos hsame]
        exact ⟨_, mem_cons_self, (key_lower hsame).trans hsame.symm, rank_lower_le_left⟩
      · rw [if_neg hsame]
        exact ⟨b, mem_cons_self, rfl, le_rfl⟩
    · by_cases hsame : key c = key a
      · rw [if_pos hsame]
        exact ⟨b, mem_cons_of_mem _ hb, rfl, le_rfl⟩
      · rw [if_neg hsame]
        obtain ⟨m, hm, hkey, hle⟩ := ih hb
        exact ⟨m, mem_cons_of_mem c hm, hkey, hle⟩

/-- `kept` holds one item for every key offered, the one of lowest rank. -/
structure Best (key : α → κ) (rank : α → ρ) (offers kept : List α) : Prop where
  nodup : (kept.map key).Nodup
  offered : ∀ a ∈ kept, a ∈ offers
  covers : ∀ a ∈ offers, ∃ m ∈ kept, key m = key a ∧ rank m ≤ rank a

variable {offers offers' kept kept' : List α}

omit [DecidableEq κ] in
theorem Best.nil : Best key rank [] [] where
  nodup := nodup_nil
  offered := by simp
  covers := by simp

/-- One more offer. -/
theorem Best.concat (h : Best key rank offers kept) (a : α) :
    Best key rank (offers ++ [a]) (offer key rank a kept) where
  nodup := nodup_map_key_upsert (fun _ _ hsame => key_lower hsame) a h.nodup
  offered x hx := by
    rcases mem_offer hx with rfl | hmem
    · simp
    · exact mem_append_left _ (h.offered x hmem)
  covers x hx := by
    rcases mem_append.mp hx with hold | hnew
    · obtain ⟨m, hm, hkey, hle⟩ := h.covers x hold
      obtain ⟨m', hm', hkey', hle'⟩ := exists_le_of_mem key rank a hm
      exact ⟨m', hm', hkey'.trans hkey, hle'.trans hle⟩
    · rw [mem_singleton.mp hnew]
      exact exists_le_offered key rank a kept

/-- Any number of offers. -/
theorem Best.append (h : Best key rank offers kept) (more : List α) :
    Best key rank (offers ++ more) (more.foldl (fun l a => offer key rank a l) kept) := by
  induction more generalizing offers kept with
  | nil => rwa [append_nil]
  | cons a rest ih =>
    rw [foldl_cons, append_cons]
    exact ih (h.concat a)

/-- Offering a whole list to an empty one. -/
theorem best_foldl (key : α → κ) (rank : α → ρ) (offers : List α) :
    Best key rank offers (offers.foldl (fun l a => offer key rank a l) []) := by
  have hnil : Best key rank [] [] := Best.nil
  exact hnil.append offers

omit [DecidableEq κ] in
/-- An item that is kept for one list of offers is kept for every rearrangement of it. -/
theorem Best.subset (h : Best key rank offers kept) (h' : Best key rank offers' kept')
    (hmem : ∀ x, x ∈ offers ↔ x ∈ offers')
    (hinj : ∀ x ∈ offers, ∀ y ∈ offers, key x = key y → rank x = rank y → x = y) :
    ∀ x ∈ kept, x ∈ kept' := by
  intro x hx
  have hxo : x ∈ offers := h.offered x hx
  obtain ⟨m, hm, hkey, hle⟩ := h'.covers x ((hmem x).mp hxo)
  have hmo : m ∈ offers := (hmem m).mpr (h'.offered m hm)
  obtain ⟨n, hn, hkey', hle'⟩ := h.covers m hmo
  have hnx : n = x := inj_on_of_nodup_map h.nodup hn hx (hkey'.trans hkey)
  have hrank : rank m = rank x := le_antisymm hle (hnx ▸ hle')
  rw [← hinj m hmo x hxo hkey hrank]
  exact hm

omit [DecidableEq κ] in
/-- The order of the offers does not matter. -/
theorem Best.perm (h : Best key rank offers kept) (h' : Best key rank offers' kept')
    (hperm : offers.Perm offers')
    (hinj : ∀ x ∈ offers, ∀ y ∈ offers, key x = key y → rank x = rank y → x = y) :
    kept.Perm kept' := by
  rw [perm_ext_iff_of_nodup h.nodup.of_map h'.nodup.of_map]
  intro x
  constructor
  · exact h.subset h' (fun y => hperm.mem_iff) hinj x
  · apply h'.subset h (fun y => hperm.mem_iff.symm)
    intro y hy z hz
    exact hinj y (hperm.mem_iff.mpr hy) z (hperm.mem_iff.mpr hz)

end BestByKey
