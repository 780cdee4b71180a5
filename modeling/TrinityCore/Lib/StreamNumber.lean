import Mathlib.Data.Int.Log
import Mathlib.Data.List.DropRight
import Mathlib.Data.Rat.Floor
import TrinityCore.Lib.ByteStream
import TrinityCore.Lib.JsonText

/-!
# Numbers as a stream writes them

What `std::ostream` inserts in its default state and the "C" locale: an unsigned number by its
decimal digits, a single precision number with six significant digits in the manner of `%g`.
Finite numbers are numbers of JSON.
-/

namespace StreamNumber

open ByteStream JsonText List

open JsonText (Decimal Digits Exponent)

/-! ### Significant digits -/

/-- The nearest natural number, ties to even. -/
def nearest (q : ℚ) : ℕ :=
  if q - ⌊q⌋₊ < 1 / 2 then ⌊q⌋₊
  else if q - ⌊q⌋₊ = 1 / 2 then ⌊q⌋₊ + ⌊q⌋₊ % 2
  else ⌊q⌋₊ + 1

/-- The first `precision` digits of a positive number, as one number, and the exponent of the
first of them. -/
def significant (precision : ℕ) (q : ℚ) : ℕ × ℤ :=
  let exponent := Int.log 10 q
  let digits := nearest (q * (10 : ℚ) ^ ((precision : ℤ) - 1 - exponent))
  if digits = 10 ^ precision then (10 ^ (precision - 1), exponent + 1) else (digits, exponent)

/-- Digits without the zeros at their end. -/
def stripZeros (digits : List UInt8) : List UInt8 := digits.rdropWhile (· == '0'.toUInt8)

/-- The decimal point and the digits behind it, nothing when there are none. -/
def fractionOf (digits : List UInt8) : List UInt8 :=
  if digits.isEmpty then [] else '.'.toUInt8 :: digits

/-- An exponent, of two digits or more. -/
def exponentOf (x : ℤ) : List UInt8 :=
  'e'.toUInt8 :: (if x < 0 then '-'.toUInt8 else '+'.toUInt8) ::
    (if x.natAbs < 10 then '0'.toUInt8 :: decimal x.natAbs
      else decimal x.natAbs)

/-- `%g` of a positive number. -/
def general (precision : ℕ) (q : ℚ) : List UInt8 :=
  let digits := decimal (significant precision q).1
  let x := (significant precision q).2
  if -4 ≤ x ∧ x < precision then
    if 0 ≤ x then
      digits.take (x.toNat + 1) ++ fractionOf (stripZeros (digits.drop (x.toNat + 1)))
    else
      '0'.toUInt8 ::
        fractionOf (List.replicate (-x - 1).toNat '0'.toUInt8 ++ stripZeros digits)
  else digits.take 1 ++ (fractionOf (stripZeros (digits.drop 1)) ++ exponentOf x)

/-- `out << x` of a `float`. Whether a NaN shows a sign is left open here. -/
def ofFloat32 (x : Float32) : List UInt8 :=
  match x.toModel.unpack with
  | .notANumber => ['n'.toUInt8, 'a'.toUInt8, 'n'.toUInt8]
  | .infinity s =>
    signOf (s == .negative) ++ ['i'.toUInt8, 'n'.toUInt8, 'f'.toUInt8]
  | .zero s => signOf (s == .negative) ++ ['0'.toUInt8]
  | .finite s m e _ => signOf (s == .negative) ++ general 6 (m * (2 : ℚ) ^ e)

/-! ### Digits -/

theorem le_nearest {a : ℕ} {q : ℚ} (h : (a : ℚ) ≤ q) : a ≤ nearest q := by
  have hfloor : a ≤ ⌊q⌋₊ := Nat.le_floor h
  rw [nearest]
  split_ifs <;> omega

variable {precision n : ℕ}

/-- The first digit of a positive number is in the significant ones. -/
theorem significant_pos (hprecision : 0 < precision) {q : ℚ} (hq : 0 < q) :
    0 < (significant precision q).1 := by
  have hscale : ((10 ^ (precision - 1) : ℕ) : ℚ) ≤
      q * (10 : ℚ) ^ ((precision : ℤ) - 1 - Int.log 10 q) := by
    have hlog : (10 : ℚ) ^ Int.log 10 q ≤ q := by
      simpa using Int.zpow_log_le_self (b := 10) (by decide) hq
    have hexponent : (precision : ℤ) - 1 = ((precision - 1 : ℕ) : ℤ) := by omega
    calc ((10 ^ (precision - 1) : ℕ) : ℚ)
        = (10 : ℚ) ^ (Int.log 10 q + ((precision : ℤ) - 1 - Int.log 10 q)) := by
          rw [add_sub_cancel, hexponent, zpow_natCast]
          norm_num
      _ = (10 : ℚ) ^ Int.log 10 q * (10 : ℚ) ^ ((precision : ℤ) - 1 - Int.log 10 q) :=
          zpow_add₀ (by norm_num) _ _
      _ ≤ q * (10 : ℚ) ^ ((precision : ℤ) - 1 - Int.log 10 q) :=
          mul_le_mul_of_nonneg_right hlog (zpow_nonneg (by norm_num) _)
  have hpos : 0 < 10 ^ (precision - 1) := Nat.pow_pos (by decide)
  simp only [significant]
  split
  · exact hpos
  · exact Nat.lt_of_lt_of_le hpos (le_nearest hscale)

theorem isDigit_of_mem_decimal {c : UInt8} (h : c ∈ ByteStream.decimal n) :
    JsonText.isDigit c = true := ByteStream.isDigit_of_mem_decimal h

/-- Only zero is written with a zero in front. -/
theorem head_toDigits_ne_zero (h : 0 < n) : (Nat.toDigits 10 n).head? ≠ some '0' := by
  induction n using Nat.strongRecOn with
  | ind n ih =>
    by_cases hsmall : n < 10
    · have hdigit : ∀ d : Fin 10, 0 < d.val → Nat.digitChar d ≠ '0' := by decide
      rw [Nat.toDigits_of_lt_base hsmall]
      simpa using hdigit ⟨n, hsmall⟩ h
    · have hsplit := Nat.toDigits_of_base_le (b := 10) (by decide) (Nat.not_lt.mp hsmall)
      have hrest := ih (n / 10) (by omega) (by omega)
      rw [hsplit, head?_append]
      cases hhead : (Nat.toDigits 10 (n / 10)).head? with
      | none => simp at hhead
      | some d =>
        rw [hhead] at hrest
        simpa using hrest

theorem decimal_eq_cons (h : 0 < n) :
    ∃ c rest, decimal n = c :: rest ∧ c ≠ '0'.toUInt8 := by
  have hhead := head_toDigits_ne_zero h
  cases hdigits : Nat.toDigits 10 n with
  | nil => exact absurd hdigits Nat.toDigits_ne_nil
  | cons d rest =>
    have hd : d ∈ Nat.toDigits 10 n := hdigits ▸ mem_cons_self
    obtain ⟨-, hhigh, hbyte⟩ := toNat_of_mem_toDigits hd
    refine ⟨UInt8.ofNat d.toNat, _, by rw [decimal, hdigits, map_cons], ?_⟩
    intro hzero
    have hval : d.toNat = '0'.toNat := by
      rw [← hbyte, hzero]
      rfl
    rw [hdigits] at hhead
    exact hhead (congrArg some (Char.toNat_inj.mp hval))

/-! ### Numbers of JSON -/

/-- The digits of an unsigned number are a number. -/
theorem exists_decimal_of_nat (n : ℕ) : ∃ d : Decimal, d.text = decimal n := by
  have hdigits : decimal n ≠ [] ∧ ∀ c ∈ decimal n, JsonText.isDigit c :=
    ⟨decimal_ne_nil n, fun c => isDigit_of_mem_decimal⟩
  have hleading : (decimal n).head? = some '0'.toUInt8 →
      (decimal n).length = 1 := by
    intro hhead
    by_cases hn : 0 < n
    · obtain ⟨c, rest, heq, hc⟩ := decimal_eq_cons hn
      rw [heq] at hhead
      exact absurd (Option.some.inj hhead) hc
    · rw [Nat.eq_zero_of_not_pos hn]
      rfl
  refine ⟨⟨false, ⟨_, hdigits⟩, hleading, none, none⟩, ?_⟩
  simp [Decimal.text, signOf, fractionText, exponentText]

theorem exists_fraction {digits : List UInt8} (h : ∀ c ∈ digits, JsonText.isDigit c = true) :
    ∃ fraction : Option Digits, JsonText.fractionText fraction = fractionOf digits := by
  by_cases hne : digits = []
  · exact ⟨none, by simp [hne, fractionOf, fractionText]⟩
  · exact ⟨some ⟨digits, hne, h⟩, by simp [hne, fractionOf, fractionText]⟩

theorem exists_exponent (x : ℤ) :
    ∃ exponent : Option Exponent, JsonText.exponentText exponent = exponentOf x := by
  have hzero : JsonText.isDigit '0'.toUInt8 = true := by decide
  have hdigits : ∃ digits : Digits, digits.1 =
      if x.natAbs < 10 then '0'.toUInt8 :: decimal x.natAbs
      else decimal x.natAbs := by
    split
    · refine ⟨⟨_, cons_ne_nil _ _, ?_⟩, rfl⟩
      exact forall_mem_cons.mpr ⟨hzero, fun c => isDigit_of_mem_decimal⟩
    · exact ⟨⟨_, decimal_ne_nil _, fun c => isDigit_of_mem_decimal⟩, rfl⟩
  obtain ⟨digits, hdigits⟩ := hdigits
  refine ⟨some ⟨false, some (decide (x < 0)), digits⟩, ?_⟩
  by_cases hx : x < 0
  · simp [exponentText, Exponent.text, exponentOf, exponentSign, hdigits, hx]
  · simp [exponentText, Exponent.text, exponentOf, exponentSign, hdigits, hx]

theorem mem_of_mem_stripZeros {digits : List UInt8} {c : UInt8} (h : c ∈ stripZeros digits) :
    c ∈ digits := (List.rdropWhile_prefix _ _).subset h

/-- Whole digits, a fraction and an exponent are a number. -/
theorem exists_decimal_of_parts (negative : Bool) (whole fraction : List UInt8)
    {exponent : List UInt8}
    (hwhole : whole ≠ [] ∧ ∀ c ∈ whole, JsonText.isDigit c = true)
    (hleading : whole.head? = some '0'.toUInt8 → whole.length = 1)
    (hfraction : ∀ c ∈ fraction, JsonText.isDigit c = true)
    (hexponent : ∃ e : Option Exponent, JsonText.exponentText e = exponent) :
    ∃ d : Decimal, d.text =
      signOf negative ++ (whole ++ (fractionOf fraction ++ exponent)) := by
  obtain ⟨f, hf⟩ := exists_fraction hfraction
  obtain ⟨e, he⟩ := hexponent
  exact ⟨⟨negative, ⟨whole, hwhole⟩, hleading, f, e⟩, by simp only [Decimal.text, hf, he]⟩

/-- `%g` of a positive number, with its sign. -/
theorem exists_decimal_of_general (negative : Bool) (hprecision : 0 < precision) {q : ℚ}
    (hq : 0 < q) : ∃ d : Decimal, d.text = signOf negative ++ general precision q := by
  obtain ⟨c, rest, hdigits, hc⟩ := decimal_eq_cons (significant_pos hprecision hq)
  have hall : ∀ b ∈ c :: rest, JsonText.isDigit b = true := by
    intro b hb
    rw [← hdigits] at hb
    exact isDigit_of_mem_decimal hb
  have hnone : ∃ e : Option Exponent, exponentText e = [] := ⟨none, rfl⟩
  have hlead (k : ℕ) : ((c :: rest).take (k + 1)).head? = some '0'.toUInt8 →
      ((c :: rest).take (k + 1)).length = 1 := by
    intro hhead
    exact absurd (Option.some.inj hhead) hc
  have htake (k : ℕ) : (c :: rest).take (k + 1) ≠ [] ∧
      ∀ b ∈ (c :: rest).take (k + 1), JsonText.isDigit b = true :=
    ⟨by simp, fun b hb => hall b (mem_of_mem_take hb)⟩
  have hdrop (k : ℕ) : ∀ b ∈ stripZeros ((c :: rest).drop k), JsonText.isDigit b = true :=
    fun b hb => hall b (mem_of_mem_drop (mem_of_mem_stripZeros hb))
  rw [general]
  simp only [hdigits]
  split
  · split
    · have hparts := exists_decimal_of_parts negative _ _
        (htake (significant precision q).2.toNat) (hlead _)
        (hdrop ((significant precision q).2.toNat + 1)) hnone
      simpa only [append_nil] using hparts
    · have hzero : JsonText.isDigit '0'.toUInt8 = true := by decide
      have hparts := exists_decimal_of_parts negative ['0'.toUInt8]
        (replicate (-(significant precision q).2 - 1).toNat '0'.toUInt8 ++
          stripZeros (c :: rest)) ⟨by simp, by simpa using hzero⟩ (fun _ => rfl) ?_ hnone
      · simpa only [append_nil, cons_append, nil_append] using hparts
      · intro b hb
        rcases mem_append.mp hb with hb | hb
        · rw [eq_of_mem_replicate hb]
          exact hzero
        · exact hall b (mem_of_mem_stripZeros hb)
  · exact exists_decimal_of_parts negative _ _ (htake 0) (hlead 0) (hdrop 1) (exists_exponent _)

/-- A finite number is written as a number of JSON. -/
theorem exists_decimal_of_isFinite {x : Float32} (h : x.isFinite = true) :
    ∃ d : Decimal, d.text = ofFloat32 x := by
  have hfinite : x.toModel.unpack.isFinite = true := h
  rw [ofFloat32]
  cases hx : x.toModel.unpack with
  | notANumber =>
    rw [hx] at hfinite
    cases hfinite
  | infinity =>
    rw [hx] at hfinite
    cases hfinite
  | zero s =>
    have hzero : JsonText.isDigit '0'.toUInt8 = true := by decide
    have hparts := exists_decimal_of_parts (s == .negative) ['0'.toUInt8] []
      ⟨by simp, by simpa using hzero⟩ (fun _ => rfl) (by simp) ⟨none, rfl⟩
    simpa [fractionOf, exponentText] using hparts
  | finite s m e hm =>
    apply exists_decimal_of_general _ (by decide)
    exact mul_pos (by exact_mod_cast hm) (zpow_pos (by norm_num) _)

end StreamNumber
