import Mathlib.Algebra.GroupWithZero.Nat

/-!
# Splitting an amount into portions

An amount is split into full portions of a given size and one portion of what is left, if
anything is. Without a size, given as zero, the amount is one portion.
-/

namespace Portions

open List

/-- The portions of size `cap` of the amount `n`, with the rest at the end. -/
def portions (cap n : Nat) : List Nat :=
  List.replicate (n / cap) cap ++ if n % cap = 0 then [] else [n % cap]

variable {cap n : Nat}

@[simp] theorem portions_zero (cap : Nat) : portions cap 0 = [] := by simp [portions]

/-- The first portion is taken from the amount. -/
theorem portions_eq_cons (hcap : 0 < cap) (hn : 0 < n) :
    portions cap n = min n cap :: portions cap (n - cap) := by
  unfold portions
  by_cases hle : cap ≤ n
  · rw [Nat.div_eq_sub_div hcap hle, replicate_succ, Nat.min_eq_right hle,
      Nat.mod_eq_sub_mod hle, cons_append]
  · have hlt : n < cap := Nat.lt_of_not_le hle
    rw [Nat.div_eq_of_lt hlt, Nat.mod_eq_of_lt hlt, Nat.sub_eq_zero_of_le (Nat.le_of_lt hlt),
      Nat.min_eq_left (Nat.le_of_lt hlt), if_neg (Nat.ne_of_gt hn)]
    simp

/-- Nothing is lost. -/
theorem sum_portions (cap n : Nat) : (portions cap n).sum = n := by
  have hdiv : n / cap * cap + n % cap = n := Nat.div_add_mod' n cap
  unfold portions
  rw [sum_append_nat, sum_replicate_nat]
  split
  · next hmod =>
    rw [sum_nil]
    omega
  · rw [sum_singleton]
    exact hdiv

/-- How many portions there are. -/
theorem length_portions (cap n : Nat) :
    (portions cap n).length = n / cap + if n % cap = 0 then 0 else 1 := by
  unfold portions
  rw [length_append, length_replicate]
  split <;> rfl

/-- A portion is not empty, and not larger than the size given. -/
theorem pos_and_le_of_mem_portions (hcap : 0 < cap) {p : Nat} (hp : p ∈ portions cap n) :
    0 < p ∧ p ≤ cap := by
  unfold portions at hp
  rw [mem_append, mem_replicate] at hp
  rcases hp with ⟨-, rfl⟩ | hrest
  · exact ⟨hcap, Nat.le_refl _⟩
  · split at hrest
    · cases hrest
    · next hmod =>
      rw [mem_singleton] at hrest
      subst hrest
      exact ⟨Nat.pos_of_ne_zero hmod, Nat.le_of_lt (Nat.mod_lt n hcap)⟩

/-- Numbers lose nothing modulo `m` exactly when all of them are smaller. -/
theorem sum_map_mod_eq_iff {m : Nat} (hm : 0 < m) (l : List Nat) :
    (l.map (· % m)).sum = l.sum ↔ ∀ p ∈ l, p < m := by
  have hle : ∀ l : List Nat, (l.map (· % m)).sum ≤ l.sum := by
    intro l
    induction l with
    | nil => exact Nat.le_refl _
    | cons p l ih =>
      rw [map_cons, sum_cons, sum_cons]
      exact Nat.add_le_add (Nat.mod_le p m) ih
  induction l with
  | nil => simp
  | cons p l ih =>
    rw [map_cons, sum_cons, sum_cons, forall_mem_cons]
    refine Iff.trans ?_ (and_congr_right fun _ => ih)
    have htail := hle l
    have hhead := Nat.mod_le p m
    constructor
    · intro heq
      have hmod : p % m = p := by omega
      exact ⟨hmod ▸ Nat.mod_lt p hm, by omega⟩
    · rintro ⟨hlt, heq⟩
      rw [Nat.mod_eq_of_lt hlt, heq]

end Portions
