import Mathlib.Algebra.BigOperators.Group.Finset.Piecewise

/-!
# Money of players

`Player::ModifyMoney`, and the money that several players have together.
-/

namespace TrinityCore.Entities

def MAX_MONEY_AMOUNT : Nat := 9999999999

/-- What a `uint64` is as an `int64`. -/
def toInt64 (amount : Nat) : Int := Int.bmod amount (2 ^ 64)

/-- `ModifyMoney`: whether it succeeds, and the money then. -/
def modifyMoney (money : Nat) (amount : Int) : Bool × Nat :=
  if amount = 0 then (true, money)
  else if amount < 0 then (true, if (-amount).toNat < money then money - (-amount).toNat else 0)
  else if money ≤ (MAX_MONEY_AMOUNT + 2 ^ 64 - amount.toNat) % 2 ^ 64 then
    (true, money + amount.toNat)
  else (false, money)

/-- `HasEnoughMoney`. -/
def hasEnoughMoney (money : Nat) (amount : Nat) : Bool := amount ≤ money

theorem toInt64_of_lt {amount : Nat} (h : amount < 2 ^ 63) : toInt64 amount = amount := by
  unfold toInt64
  rw [Int.bmod_eq_of_le] <;> omega

/-- Money that a player has is taken. -/
theorem modifyMoney_neg {money amount : Nat} (h : amount ≤ money) :
    modifyMoney money (-(amount : Int)) = (true, money - amount) := by
  unfold modifyMoney
  split
  · simp
    omega
  · split
    · simp only [neg_neg, Int.toNat_natCast, Prod.mk.injEq, true_and]
      split
      · rfl
      · omega
    · omega

/-- Money is given up to the most that a player can have. -/
theorem modifyMoney_pos {money amount : Nat} (hamount : amount ≤ MAX_MONEY_AMOUNT)
    (hmoney : money ≤ MAX_MONEY_AMOUNT) :
    modifyMoney money amount =
      if money + amount ≤ MAX_MONEY_AMOUNT then (true, money + amount) else (false, money) := by
  unfold modifyMoney
  rw [Int.toNat_natCast]
  unfold MAX_MONEY_AMOUNT at *
  split
  · next hzero =>
    obtain rfl : amount = 0 := by omega
    rw [if_pos (by omega)]
    rfl
  · rw [if_neg (by omega)]
    split
    · rw [if_pos (by omega)]
    · rw [if_neg (by omega)]

/-- All money of the players. -/
def totalMoney (players : Finset Nat) (money : Nat → Nat) : Nat := ∑ player ∈ players, money player

theorem totalMoney_update {players : Finset Nat} {player : Nat} (hmem : player ∈ players)
    (money : Nat → Nat) (amount : Nat) :
    totalMoney players (Function.update money player amount) + money player =
      totalMoney players money + amount := by
  unfold totalMoney
  rw [Finset.sum_update_of_mem hmem, ← Finset.add_sum_erase players money hmem,
    Finset.sdiff_singleton_eq_erase]
  omega

end TrinityCore.Entities
