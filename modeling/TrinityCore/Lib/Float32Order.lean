import Mathlib.Data.Prod.Lex

/-!
# The order of single precision numbers

Away from NaN the IEEE comparisons of `Float32` agree with a linear order: every number has
a `rank`, `<` compares ranks and `==` holds of equal ranks. The two zeros share one rank.
-/

namespace Float.Model.UnpackedFloat

/-- Where a number stands among all numbers: sign class, then exponent, then mantissa. -/
def rank : UnpackedFloat → Int ×ₗ Int ×ₗ Int
  | .infinity .negative => toLex (-2, toLex (0, 0))
  | .finite .negative m e _ => toLex (-1, toLex (-e, -m))
  | .notANumber => toLex (0, toLex (0, 0))
  | .zero _ => toLex (0, toLex (0, 0))
  | .finite .positive m e _ => toLex (1, toLex (e, m))
  | .infinity .positive => toLex (2, toLex (0, 0))

theorem compare_then_eq_lt (e₁ e₂ : Int) (m₁ m₂ : Nat) :
    (compare e₁ e₂).then (compare m₁ m₂) = .lt ↔ e₁ < e₂ ∨ e₁ = e₂ ∧ m₁ < m₂ := by
  rw [Ordering.then_eq_lt, compare_lt_iff_lt, compare_eq_iff_eq, compare_lt_iff_lt]

theorem compare_then_eq_gt (e₁ e₂ : Int) (m₁ m₂ : Nat) :
    (compare e₁ e₂).then (compare m₁ m₂) = .gt ↔ e₂ < e₁ ∨ e₁ = e₂ ∧ m₂ < m₁ := by
  rw [Ordering.then_eq_gt, compare_gt_iff_gt, compare_eq_iff_eq, compare_gt_iff_gt]

theorem compare_negative_positive : compare Sign.negative Sign.positive = .lt := rfl

theorem compare_positive_negative : compare Sign.positive Sign.negative = .gt := rfl

theorem compare_sign_self (s : Sign) : compare s s = .eq := by cases s <;> rfl

/-- `<` compares ranks. -/
theorem lt_iff_rank_lt {a b : UnpackedFloat} (ha : a.isNaN = false) (hb : b.isNaN = false) :
    a.lt b = true ↔ a.rank < b.rank := by
  cases a with
  | notANumber => nomatch ha
  | _ sa =>
    cases b with
    | notANumber => nomatch hb
    | _ sb =>
      delta UnpackedFloat.lt
      cases sa <;> cases sb <;> dsimp only [UnpackedFloat.compare, rank] <;>
        simp [Prod.Lex.lt_iff, compare_then_eq_lt, compare_then_eq_gt, compare_negative_positive,
          compare_positive_negative, compare_sign_self]

/-- `==` compares ranks. -/
theorem beq_iff_rank_eq {a b : UnpackedFloat} (ha : a.isNaN = false) (hb : b.isNaN = false) :
    a.beq b = true ↔ a.rank = b.rank := by
  cases a with
  | notANumber => nomatch ha
  | _ sa =>
    cases b with
    | notANumber => nomatch hb
    | _ sb =>
      delta UnpackedFloat.beq
      cases sa <;> cases sb <;> dsimp only [UnpackedFloat.compare, rank] <;>
        simp [compare_negative_positive, compare_positive_negative, compare_sign_self, Int.ofNat_inj]

/-- Only numbers are equal to anything. -/
theorem isNaN_of_beq {a b : UnpackedFloat} (h : a.beq b = true) :
    a.isNaN = false ∧ b.isNaN = false := by
  cases a with
  | notANumber => nomatch h
  | _ sa =>
    cases b with
    | notANumber => cases sa <;> nomatch h
    | _ sb => exact ⟨rfl, rfl⟩

end Float.Model.UnpackedFloat

namespace Float32

/-- The place of a number in the order of all numbers. -/
def rank (x : Float32) : Int ×ₗ Int ×ₗ Int := x.toModel.unpack.rank

/-- The conversion of an integer. -/
def ofInt32 (n : Int32) : Float32 := .ofModel (.ofInt32 n)

variable {a b c : Float32}

theorem lt_iff_rank_lt (ha : a.isNaN = false) (hb : b.isNaN = false) :
    a < b ↔ a.rank < b.rank := by
  refine Iff.trans ?_ (Float.Model.UnpackedFloat.lt_iff_rank_lt ha hb)
  show decide (a.toModel.unpack.lt b.toModel.unpack = true) = true ↔ _
  exact decide_eq_true_iff

theorem beq_iff_rank_eq (ha : a.isNaN = false) (hb : b.isNaN = false) :
    (a == b) = true ↔ a.rank = b.rank :=
  Float.Model.UnpackedFloat.beq_iff_rank_eq ha hb

/-- Equality of numbers is symmetric. -/
theorem beq_symm (h : (a == b) = true) : (b == a) = true := by
  obtain ⟨ha, hb⟩ := Float.Model.UnpackedFloat.isNaN_of_beq h
  rw [beq_iff_rank_eq hb ha]
  exact ((beq_iff_rank_eq ha hb).mp h).symm

end Float32
