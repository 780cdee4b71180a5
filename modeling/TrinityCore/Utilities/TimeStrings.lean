import Mathlib.Data.Nat.ModEq
import TrinityCore.Lib.ByteStream
import TrinityCore.Lib.SelfDelimiting

/-!
# Durations as text

`secsToTimeString` and `TimeStringToSecs`. A text of digits and units is numbers that each have
their unit, and digits behind the last unit; it is read modulo 2^32, the digits behind the last
unit are dropped, and a unit without a number counts for nothing. That is the duration the text
stands for only as long as every number is there and the seconds fit.
-/

namespace TrinityCore.Utilities

open List

open ByteStream (isDigit digitsValue decimal)

/-! ### The functions -/

/-- The bytes of a text of the source. -/
def ascii (text : String) : List UInt8 := text.toUTF8.data.toList

def MINUTE : Nat := 60

def HOUR : Nat := MINUTE * 60

def DAY : Nat := HOUR * 24

def secsToTimeString (timeInSecs : UInt64) (shortText hoursOnly : Bool) : List UInt8 :=
  let secs := timeInSecs.toNat % MINUTE
  let minutes := timeInSecs.toNat % HOUR / MINUTE
  let hours := timeInSecs.toNat % DAY / HOUR
  let days := timeInSecs.toNat / DAY
  (if days ≠ 0 then decimal days ++ ascii (if shortText then "d" else " Day(s) ") else []) ++
  (if hours ≠ 0 ∨ hoursOnly then
    decimal hours ++ ascii (if shortText then "h" else " Hour(s) ") else []) ++
  (if hoursOnly then [] else
    (if minutes ≠ 0 then
      decimal minutes ++ ascii (if shortText then "m" else " Minute(s) ") else []) ++
    (if secs ≠ 0 ∨ (days = 0 ∧ hours = 0 ∧ minutes = 0) then
      decimal secs ++ ascii (if shortText then "s" else " Second(s).") else []))

/-- The `switch` over the units, `none` for the bad format. -/
def multiplierOf (c : UInt8) : Option UInt32 :=
  if c = 'd'.toUInt8 then some (.ofNat DAY)
  else if c = 'h'.toUInt8 then some (.ofNat HOUR)
  else if c = 'm'.toUInt8 then some (.ofNat MINUTE)
  else if c = 's'.toUInt8 then some 1
  else none

/-- The loop of `TimeStringToSecs`. -/
def readTimeString (secs buffer : UInt32) : List UInt8 → UInt32
  | [] => secs
  | c :: rest =>
    if isDigit c then readTimeString secs (buffer * 10 + (c.toUInt32 - '0'.toNat.toUInt32)) rest
    else
      match multiplierOf c with
      | none => 0
      | some multiplier => readTimeString (secs + buffer * multiplier) 0 rest

def timeStringToSecs (timestring : List UInt8) : UInt32 := readTimeString 0 0 timestring

/-! ### What a text stands for -/

inductive TimeUnit
  | day
  | hour
  | minute
  | second
  deriving DecidableEq, Repr

namespace TimeUnit

def letter : TimeUnit → UInt8
  | day => 'd'.toUInt8
  | hour => 'h'.toUInt8
  | minute => 'm'.toUInt8
  | second => 's'.toUInt8

/-- The seconds that one of the unit has. -/
def seconds : TimeUnit → Nat
  | day => DAY
  | hour => HOUR
  | minute => MINUTE
  | second => 1

@[simp] theorem isDigit_letter (unit : TimeUnit) : isDigit unit.letter = false := by
  cases unit <;> rfl

@[simp] theorem multiplierOf_letter (unit : TimeUnit) :
    multiplierOf unit.letter = some (.ofNat unit.seconds) := by
  cases unit <;> rfl

theorem letter_injective : Function.Injective letter := by
  intro unit unit' h
  cases unit <;> cases unit' <;> first | rfl | exact absurd h (by decide)

theorem exists_letter_of_multiplierOf {c : UInt8} (h : (multiplierOf c).isSome) :
    ∃ unit : TimeUnit, unit.letter = c := by
  unfold multiplierOf at h
  split at h
  · next hc => exact ⟨day, hc.symm⟩
  · split at h
    · next hc => exact ⟨hour, hc.symm⟩
    · split at h
      · next hc => exact ⟨minute, hc.symm⟩
      · split at h
        · next hc => exact ⟨second, hc.symm⟩
        · cases h

end TimeUnit

/-- A number, which may have no digit, and its unit. -/
structure Amount where
  number : List UInt8
  unit : TimeUnit
  isDigit_of_mem : ∀ c ∈ number, isDigit c = true

variable {trailing number : List UInt8}

namespace Amount

def text (amount : Amount) : List UInt8 := amount.number ++ [amount.unit.letter]

/-- The exact number of seconds. -/
def seconds (amount : Amount) : Nat := digitsValue amount.number * amount.unit.seconds

/-- An amount can be read back whatever follows it. -/
theorem reads_text : SelfDelimiting.Reads text id := by
  intro a b rest rest' heq
  simp only [text, append_assoc, singleton_append] at heq
  have hspan (amount : Amount) (tail : List UInt8) :
      (amount.number ++ amount.unit.letter :: tail).takeWhile isDigit = amount.number := by
    rw [takeWhile_append_of_pos amount.isDigit_of_mem, takeWhile_cons_of_neg (by simp), append_nil]
  have hnumber : a.number = b.number := by
    rw [← hspan a rest, heq, hspan b rest']
  rw [hnumber] at heq
  obtain ⟨hletter, hrest⟩ := cons.inj (append_cancel_left heq)
  have hunit : a.unit = b.unit := TimeUnit.letter_injective hletter
  cases a
  cases b
  subst hnumber hunit
  exact ⟨rfl, hrest⟩

/-- Digits do not begin with an amount. -/
theorem text_append_ne (amount : Amount) (rest : List UInt8)
    (h : ∀ c ∈ trailing, isDigit c = true) : amount.text ++ rest ≠ trailing := by
  rintro rfl
  have hletter := h amount.unit.letter (by simp [text])
  rw [TimeUnit.isDigit_letter] at hletter
  cases hletter

end Amount

/-- The text of some amounts. -/
def textOf (amounts : List Amount) : List UInt8 := amounts.flatMap Amount.text

/-- Their exact number of seconds. -/
def secondsOf (amounts : List Amount) : Nat := (amounts.map Amount.seconds).sum

@[simp] theorem textOf_nil : textOf [] = [] := rfl

@[simp] theorem textOf_cons (amount : Amount) (amounts : List Amount) :
    textOf (amount :: amounts) = amount.text ++ textOf amounts := rfl

@[simp] theorem secondsOf_nil : secondsOf [] = 0 := rfl

@[simp] theorem secondsOf_cons (amount : Amount) (amounts : List Amount) :
    secondsOf (amount :: amounts) = amount.seconds + secondsOf amounts := by
  simp [secondsOf]

/-- Every amount has its number. -/
def IsDuration (amounts : List Amount) : Prop := ∀ amount ∈ amounts, amount.number ≠ []

instance (amounts : List Amount) : Decidable (IsDuration amounts) :=
  inferInstanceAs (Decidable (∀ amount ∈ amounts, amount.number ≠ []))

/-- What a text has of amounts and of digits behind them is its own. -/
theorem textOf_append_inj {amounts amounts' : List Amount} {trailing' : List UInt8}
    (h : ∀ c ∈ trailing, isDigit c = true) (h' : ∀ c ∈ trailing', isDigit c = true)
    (heq : textOf amounts ++ trailing = textOf amounts' ++ trailing') :
    amounts = amounts' ∧ trailing = trailing' := by
  have hreads := Amount.reads_text.flatMap amounts amounts'
    (fun amount rest => amount.text_append_ne rest h)
    (fun amount rest => amount.text_append_ne rest h') heq
  rwa [map_id, map_id] at hreads

/-! ### The loop -/

/-- The number so far and one digit more. -/
def readDigit (buffer : UInt32) (c : UInt8) : UInt32 :=
  buffer * 10 + (c.toUInt32 - '0'.toNat.toUInt32)

/-- A digit is read modulo 2^32. -/
theorem readDigit_ofNat (value : Nat) {c : UInt8} (h : isDigit c = true) :
    readDigit (.ofNat value) c = .ofNat (10 * value + (c.toNat - 48)) := by
  have hdigit : 48 ≤ c.toNat := by
    simp only [isDigit, Bool.and_eq_true, decide_eq_true_eq, UInt8.le_iff_toNat_le] at h
    exact h.1
  have hc : c.toUInt32 - '0'.toNat.toUInt32 = .ofNat (c.toNat - 48) := by
    rw [UInt32.ofNat_sub hdigit, UInt32.ofNat_uInt8ToNat]
    rfl
  rw [readDigit, hc, UInt32.ofNat_add, UInt32.ofNat_mul, UInt32.mul_comm]
  rfl

theorem foldl_readDigit (value : Nat) (h : ∀ c ∈ number, isDigit c = true) :
    number.foldl readDigit (.ofNat value) =
      .ofNat (number.foldl (fun n c => 10 * n + (c.toNat - 48)) value) := by
  induction number generalizing value with
  | nil => rfl
  | cons c number ih =>
    rw [forall_mem_cons] at h
    rw [foldl_cons, foldl_cons, readDigit_ofNat value h.1, ih _ h.2]

variable (amounts : List Amount) (secs : UInt32)

/-- Digits are read into the buffer. -/
theorem readTimeString_digits (buffer : UInt32) (h : ∀ c ∈ number, isDigit c = true)
    (rest : List UInt8) :
    readTimeString secs buffer (number ++ rest) =
      readTimeString secs (number.foldl readDigit buffer) rest := by
  induction number generalizing buffer with
  | nil => rfl
  | cons c number ih =>
    rw [forall_mem_cons] at h
    rw [cons_append, readTimeString, if_pos h.1, ih _ h.2, foldl_cons]
    rfl

/-- An amount is read modulo 2^32. -/
theorem readTimeString_amount (amount : Amount) (rest : List UInt8) :
    readTimeString secs 0 (amount.text ++ rest) =
      readTimeString (secs + .ofNat amount.seconds) 0 rest := by
  have hbuffer : amount.number.foldl readDigit 0 = .ofNat (digitsValue amount.number) :=
    foldl_readDigit 0 amount.isDigit_of_mem
  rw [Amount.text, append_assoc, readTimeString_digits _ _ amount.isDigit_of_mem,
    singleton_append, readTimeString, if_neg (by simp), TimeUnit.multiplierOf_letter, hbuffer,
    Amount.seconds, UInt32.ofNat_mul]

/-- Amounts are read modulo 2^32, and the digits behind them are dropped. -/
theorem readTimeString_textOf (amounts : List Amount) (h : ∀ c ∈ trailing, isDigit c = true) :
    readTimeString secs 0 (textOf amounts ++ trailing) = secs + .ofNat (secondsOf amounts) := by
  induction amounts generalizing secs with
  | nil =>
    have hdigits := readTimeString_digits secs 0 h []
    rw [append_nil] at hdigits
    rw [textOf_nil, nil_append, hdigits, readTimeString, secondsOf_nil]
    simp
  | cons amount amounts ih =>
    rw [textOf_cons, append_assoc, readTimeString_amount, ih, secondsOf_cons,
      UInt32.ofNat_add, UInt32.add_assoc]

/-- What is not made of digits and units is a bad format. -/
theorem readTimeString_eq_zero (buffer : UInt32) (number : List UInt8)
    (hnumber : ∀ c ∈ number, isDigit c = true) {rest : List UInt8}
    (h : ∀ amounts trailing, (∀ c ∈ trailing, isDigit c = true) →
      textOf amounts ++ trailing ≠ number ++ rest) : readTimeString secs buffer rest = 0 := by
  induction rest generalizing secs buffer number with
  | nil => exact absurd (append_nil number).symm (h [] number hnumber)
  | cons c rest ih =>
    rw [readTimeString]
    by_cases hc : isDigit c
    · rw [if_pos hc]
      have hnumber' : ∀ d ∈ number ++ [c], isDigit d = true := by
        simpa [or_imp, forall_and] using ⟨hnumber, hc⟩
      apply ih _ _ (number ++ [c]) hnumber'
      simpa using h
    · rw [if_neg hc]
      cases hunit : multiplierOf c with
      | none => rfl
      | some multiplier =>
        obtain ⟨unit, hletter⟩ := TimeUnit.exists_letter_of_multiplierOf (by rw [hunit]; rfl)
        apply ih _ _ [] (by simp)
        intro amounts trailing htrailing heq
        apply h (⟨number, unit, hnumber⟩ :: amounts) trailing htrailing
        rw [textOf_cons, append_assoc, heq]
        simp [Amount.text, hletter]

theorem timeStringToSecs_textOf (trailing : List UInt8) (h : ∀ c ∈ trailing, isDigit c = true) :
    (timeStringToSecs (textOf amounts ++ trailing)).toNat = secondsOf amounts % 2 ^ 32 := by
  rw [timeStringToSecs, readTimeString_textOf 0 amounts h, UInt32.zero_add, UInt32.toNat_ofNat']

theorem timeStringToSecs_eq_zero {timestring : List UInt8}
    (h : ∀ amounts trailing, (∀ c ∈ trailing, isDigit c = true) →
      textOf amounts ++ trailing ≠ timestring) : timeStringToSecs timestring = 0 :=
  readTimeString_eq_zero 0 0 [] (by simp) h

/-! ### Exactness -/

/-- A text of amounts is read as their seconds, or as 0 where these do not fit, and any other text
is read as 0. -/
structure ReadsExactly (timestring : List UInt8) : Prop where
  reads_duration : ∀ amounts, IsDuration amounts → textOf amounts = timestring →
    (timeStringToSecs timestring).toNat =
      if secondsOf amounts < 2 ^ 32 then secondsOf amounts else 0
  rejects_others : (∀ amounts, IsDuration amounts → textOf amounts ≠ timestring) →
    timeStringToSecs timestring = 0

/-- What the text has of amounts comes to a multiple of 2^32 seconds, or the text is a duration
of fewer. -/
def ReadsBack (timestring : List UInt8) : Prop :=
  ∀ amounts trailing, (∀ c ∈ trailing, isDigit c = true) →
    textOf amounts ++ trailing = timestring →
    2 ^ 32 ∣ secondsOf amounts ∨ (IsDuration amounts ∧ trailing = [] ∧ secondsOf amounts < 2 ^ 32)

/-- A text is read exactly in these cases and in no other. -/
theorem readsExactly_iff_readsBack (timestring : List UInt8) :
    ReadsExactly timestring ↔ ReadsBack timestring := by
  constructor
  · intro h amounts trailing htrailing htext
    have hsecs := timeStringToSecs_textOf amounts trailing htrailing
    rw [htext] at hsecs
    by_cases hduration : IsDuration amounts ∧ trailing = []
    · obtain ⟨hduration, rfl⟩ := hduration
      rw [append_nil] at htext
      have hexact := h.reads_duration amounts hduration htext
      split at hexact
      · next hfits => exact .inr ⟨hduration, rfl, hfits⟩
      · left
        omega
    · have hzero : timeStringToSecs timestring = 0 := by
        apply h.rejects_others
        intro amounts' hduration' htext'
        have hsame : amounts = amounts' ∧ trailing = [] := by
          apply textOf_append_inj htrailing (forall_mem_nil _)
          rw [htext, htext', append_nil]
        obtain ⟨rfl, rfl⟩ := hsame
        exact hduration ⟨hduration', rfl⟩
      rw [hzero] at hsecs
      left
      exact Nat.dvd_of_mod_eq_zero hsecs.symm
  · intro h
    constructor
    · intro amounts hduration htext
      have hsecs := timeStringToSecs_textOf amounts [] (by simp)
      rw [append_nil, htext] at hsecs
      rcases h amounts [] (by simp) (by rw [append_nil, htext]) with hzero | ⟨-, -, hfits⟩
      · split <;> omega
      · rw [if_pos hfits, hsecs, Nat.mod_eq_of_lt hfits]
    · intro hothers
      by_cases hparts : ∃ amounts trailing, (∀ c ∈ trailing, isDigit c = true) ∧
          textOf amounts ++ trailing = timestring
      · obtain ⟨amounts, trailing, htrailing, htext⟩ := hparts
        rcases h amounts trailing htrailing htext with hzero | ⟨hduration, rfl, -⟩
        · apply UInt32.toNat_inj.mp
          rw [← htext, timeStringToSecs_textOf amounts trailing htrailing]
          exact Nat.mod_eq_zero_of_dvd hzero
        · rw [append_nil] at htext
          exact absurd htext (hothers amounts hduration)
      · apply timeStringToSecs_eq_zero
        intro amounts trailing htrailing htext
        exact hparts ⟨amounts, trailing, htrailing, htext⟩

/-! ### What `secsToTimeString` writes -/

@[simp] theorem textOf_append (amounts' : List Amount) :
    textOf (amounts ++ amounts') = textOf amounts ++ textOf amounts' :=
  flatMap_append

@[simp] theorem secondsOf_append (amounts' : List Amount) :
    secondsOf (amounts ++ amounts') = secondsOf amounts + secondsOf amounts' := by
  simp [secondsOf]

/-- A part of the output, left out where the source leaves it out. -/
def part (shown : Prop) [Decidable shown] (n : Nat) (unit : TimeUnit) : List Amount :=
  if shown then [⟨decimal n, unit, fun _ => ByteStream.isDigit_of_mem_decimal⟩] else []

theorem isDuration_part (shown : Prop) [Decidable shown] (n : Nat) (unit : TimeUnit) :
    IsDuration (part shown n unit) := by
  intro amount hamount
  unfold part at hamount
  split at hamount
  · rw [mem_singleton.mp hamount]
    exact ByteStream.decimal_ne_nil n
  · nomatch hamount

theorem textOf_part (shown : Prop) [Decidable shown] (n : Nat) (unit : TimeUnit) :
    textOf (part shown n unit) = if shown then decimal n ++ [unit.letter] else [] := by
  unfold part
  split <;> simp [Amount.text]

/-- What is left out is zero. -/
theorem secondsOf_part {shown : Prop} [Decidable shown] {n : Nat} (h : n ≠ 0 → shown)
    (unit : TimeUnit) : secondsOf (part shown n unit) = n * unit.seconds := by
  unfold part
  split
  · simp [Amount.seconds, ByteStream.digitsValue_decimal]
  · next hshown =>
    have hn : n = 0 := by
      by_cases hn : n = 0
      · exact hn
      · exact absurd (h hn) hshown
    rw [hn, Nat.zero_mul]
    rfl

/-- The short text of a duration is the text of amounts that come to it. -/
theorem exists_amounts_secsToTimeString (timeInSecs : UInt64) :
    ∃ amounts, IsDuration amounts ∧ textOf amounts = secsToTimeString timeInSecs true false ∧
      secondsOf amounts = timeInSecs.toNat := by
  let secs := timeInSecs.toNat % MINUTE
  let minutes := timeInSecs.toNat % HOUR / MINUTE
  let hours := timeInSecs.toNat % DAY / HOUR
  let days := timeInSecs.toNat / DAY
  refine ⟨part (days ≠ 0) days .day ++ (part (hours ≠ 0) hours .hour ++
    (part (minutes ≠ 0) minutes .minute ++
      part (secs ≠ 0 ∨ (days = 0 ∧ hours = 0 ∧ minutes = 0)) secs .second)), ?_, ?_, ?_⟩
  · intro amount hamount
    simp only [mem_append] at hamount
    rcases hamount with h | h | h | h <;> exact isDuration_part _ _ _ amount h
  · simp only [textOf_append, textOf_part, secsToTimeString]
    simp [secs, minutes, hours, days]
    rfl
  · simp only [secondsOf_append, secondsOf_part id, secondsOf_part Or.inl, TimeUnit.seconds]
    simp only [secs, minutes, hours, days, DAY, HOUR, MINUTE]
    omega

/-- A duration is read back modulo 2^32. -/
theorem timeStringToSecs_secsToTimeString (timeInSecs : UInt64) :
    timeStringToSecs (secsToTimeString timeInSecs true false) = timeInSecs.toUInt32 := by
  obtain ⟨amounts, -, htext, hseconds⟩ := exists_amounts_secsToTimeString timeInSecs
  have hsecs := timeStringToSecs_textOf amounts [] (by simp)
  rw [append_nil, htext, hseconds] at hsecs
  apply UInt32.toNat_inj.mp
  rw [hsecs, UInt64.toNat_toUInt32]

/-- A text is read exactly if and only if what it has of amounts comes to a multiple of 2^32
seconds, or it is a duration of fewer; so whatever fits is read back from its short text. -/
theorem timeStringToSecs_exact_iff (timestring : List UInt8) (t : UInt32) :
    (ReadsExactly timestring ↔ ReadsBack timestring) ∧
      timeStringToSecs (secsToTimeString t.toUInt64 true false) = t := by
  refine ⟨readsExactly_iff_readsBack timestring, ?_⟩
  rw [timeStringToSecs_secsToTimeString, UInt32.toUInt32_toUInt64]

/-- 49711 days are read as less than a day. -/
theorem long_duration_wraps :
    timeStringToSecs (ascii "49711d") = 63104 ∧
    ¬ ((∀ timestring, ReadsExactly timestring) ∧
      ∀ t : UInt32, timeStringToSecs (secsToTimeString t.toUInt64 true false) = t) := by
  have hwraps : timeStringToSecs (ascii "49711d") = 63104 := by decide +kernel
  refine ⟨hwraps, fun h => ?_⟩
  have hexact := (h.1 (ascii "49711d")).reads_duration
    [⟨ascii "49711", .day, by decide +kernel⟩] (by decide +kernel) (by decide +kernel)
  rw [hwraps] at hexact
  exact absurd hexact (by decide +kernel)

/-- A number without a unit is dropped, not rejected. -/
example : timeStringToSecs (ascii "5m3") = 300 := by decide +kernel

end TrinityCore.Utilities
