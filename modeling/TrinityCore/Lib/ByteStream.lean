import Mathlib.Algebra.Ring.Nat
import Mathlib.Data.List.Basic
import Mathlib.Data.List.TakeWhile

/-!
# Byte streams

Formatted extraction from a string stream in the "C" locale, and text that is written for it.
A stream is the list of the bytes left; a failed stream is `none` and stays failed. Decimal
numbers read back when something that is no digit follows. Raw bytes written without
separators read back up to the first byte that a reader skips or stops at.
-/

namespace ByteStream

open List

/-- `std::isspace`. -/
def isSpace (c : UInt8) : Bool := c == 32 || (decide (9 ≤ c) && decide (c ≤ 13))

/-- `std::isdigit`. -/
def isDigit (c : UInt8) : Bool := decide (48 ≤ c) && decide (c ≤ 57)

/-- `std::isalpha`. -/
def isAlpha (c : UInt8) : Bool :=
  (decide (65 ≤ c) && decide (c ≤ 90)) || (decide (97 ≤ c) && decide (c ≤ 122))

variable {c : UInt8} {s rest : List UInt8}

theorem isSpace_eq_false_of_isAlpha (h : isAlpha c = true) : isSpace c = false := by
  unfold isAlpha at h
  unfold isSpace
  grind

theorem isAlpha_ne_zero (h : isAlpha c = true) : c ≠ 0 := by
  rintro rfl
  exact absurd h (by decide)

theorem isDigit_ne_zero (h : isDigit c = true) : c ≠ 0 := by
  rintro rfl
  exact absurd h (by decide)

theorem isSpace_eq_false_of_isDigit (h : isDigit c = true) : isSpace c = false := by
  unfold isDigit at h
  unfold isSpace
  grind

/-! ### C strings -/

/-- The bytes of a buffer before its first NUL. -/
def cString (data : List UInt8) : List UInt8 := data.takeWhile (· != 0)

theorem cString_cons (h : c ≠ 0) (rest : List UInt8) : cString (c :: rest) = c :: cString rest := by
  simp [cString, h]

@[simp] theorem cString_zero (rest : List UInt8) : cString (0 :: rest) = [] := rfl

/-- Text without a NUL is kept. -/
theorem cString_append {text : List UInt8} (h : ∀ c ∈ text, c ≠ 0) (rest : List UInt8) :
    cString (text ++ rest) = text ++ cString rest := by
  apply takeWhile_append_of_pos
  intro c hc
  simp [h c hc]

/-! ### Characters -/

/-- What is left after the white space that every extraction skips first. -/
def skipSpaces (s : List UInt8) : List UInt8 := s.dropWhile isSpace

variable (n : Nat)

@[simp] theorem skipSpaces_replicate (s : List UInt8) :
    skipSpaces (replicate n 32 ++ s) = skipSpaces s := by
  apply dropWhile_append_of_pos
  intro c hc
  rw [eq_of_mem_replicate hc]
  rfl

theorem skipSpaces_cons (h : isSpace c = false) (s : List UInt8) :
    skipSpaces (c :: s) = c :: s := by
  simp [skipSpaces, h]

/-- `stream >> c` for a character. -/
def readChar (s : List UInt8) : Option (UInt8 × List UInt8) :=
  match skipSpaces s with
  | [] => none
  | c :: rest => some (c, rest)

@[simp] theorem readChar_replicate (s : List UInt8) :
    readChar (replicate n 32 ++ s) = readChar s := by
  rw [readChar, skipSpaces_replicate, readChar]

theorem readChar_cons (h : isSpace c = false) (s : List UInt8) :
    readChar (c :: s) = some (c, s) := by
  rw [readChar, skipSpaces_cons h]

theorem readChar_of_isSpace (h : ∀ c ∈ s, isSpace c = true) : readChar s = none := by
  have hskip : skipSpaces s = [] := dropWhile_eq_nil_iff.mpr h
  rw [readChar, hskip]

/-- A character that was read is not white space. -/
theorem isSpace_of_readChar (h : readChar s = some (c, rest)) : isSpace c = false := by
  unfold readChar at h
  split at h
  · cases h
  · next c' rest' hskip =>
    cases h
    have hne : s.dropWhile isSpace ≠ [] := by
      show skipSpaces s ≠ []
      rw [hskip]
      exact cons_ne_nil _ _
    have hhead := head_dropWhile_not isSpace hne
    simp only [show s.dropWhile isSpace = c :: rest from hskip, head_cons] at hhead
    exact hhead

/-! ### Unsigned numbers -/

/-- The value of a digit string. -/
def digitsValue (digits : List UInt8) : Nat := digits.foldl (fun n c => 10 * n + (c.toNat - 48)) 0

/-- An optional sign. -/
def readSign : List UInt8 → Bool × List UInt8
  | [] => (false, [])
  | c :: rest => if c = 45 then (true, rest) else if c = 43 then (false, rest) else (false, c :: rest)

/-- `stream >> value` for a `uint32_t`: a negative number wraps, one that is too large fails. -/
def readUInt32 (s : List UInt8) : Option (UInt32 × List UInt8) :=
  let (negative, s) := readSign (skipSpaces s)
  let digits := s.takeWhile isDigit
  if digits.isEmpty || decide (2 ^ 32 ≤ digitsValue digits) then none
  else
    let value := UInt32.ofNat (digitsValue digits)
    some (if negative then -value else value, s.dropWhile isDigit)

@[simp] theorem readUInt32_replicate (s : List UInt8) :
    readUInt32 (replicate n 32 ++ s) = readUInt32 s := by
  rw [readUInt32, skipSpaces_replicate, readUInt32]

/-- `std::to_string` of an unsigned number. -/
def decimal : List UInt8 := (Nat.toDigits 10 n).map fun c => UInt8.ofNat c.toNat

theorem decimal_ne_nil : decimal n ≠ [] := by
  simp [decimal]

/-- The digits of a number as bytes. -/
theorem toNat_of_mem_toDigits {n : Nat} {d : Char} (hd : d ∈ Nat.toDigits 10 n) :
    48 ≤ d.toNat ∧ d.toNat ≤ 57 ∧ (UInt8.ofNat d.toNat).toNat = d.toNat := by
  have hdigit : d.isDigit = true := Nat.isDigit_of_mem_toDigits (by decide) (by decide) hd
  have hrange : 48 ≤ d.toNat ∧ d.toNat ≤ 57 := Char.isDigit_iff_toNat.mp hdigit
  refine ⟨hrange.1, hrange.2, ?_⟩
  rw [UInt8.toNat_ofNat']
  omega

theorem isDigit_of_mem_decimal {n : Nat} (h : c ∈ decimal n) : isDigit c = true := by
  obtain ⟨d, hd, rfl⟩ := mem_map.mp h
  obtain ⟨hlow, hhigh, hval⟩ := toNat_of_mem_toDigits hd
  simp only [isDigit, Bool.and_eq_true, decide_eq_true_eq, UInt8.le_iff_toNat_le, hval]
  exact ⟨hlow, hhigh⟩

theorem digitsValue_decimal : digitsValue (decimal n) = n := by
  rw [digitsValue, decimal, foldl_map]
  refine Eq.trans ?_ (Nat.ofDigitChars_ten_toDigits (n := n))
  rw [Nat.ofDigitChars_eq_foldl]
  apply foldl_ext
  intro m d hd
  rw [(toNat_of_mem_toDigits hd).2.2]
  rfl

/-- A decimal number at the end, or in front of something that is no digit, reads back. -/
theorem readUInt32_decimal_append {n : Nat} (hn : n < 2 ^ 32)
    (hrest : ∀ c ∈ rest.head?, isDigit c = false) :
    readUInt32 (decimal n ++ rest) = some (UInt32.ofNat n, rest) := by
  have hdigits : ∀ d ∈ decimal n, isDigit d = true := fun d => isDigit_of_mem_decimal
  have hspan : rest.takeWhile isDigit = [] ∧ rest.dropWhile isDigit = rest := by
    cases rest with
    | nil => exact ⟨rfl, rfl⟩
    | cons c rest =>
      have hc : isDigit c = false := hrest c rfl
      exact ⟨takeWhile_cons_of_neg (by simp [hc]), dropWhile_cons_of_neg (by simp [hc])⟩
  have htake : (decimal n ++ rest).takeWhile isDigit = decimal n := by
    rw [takeWhile_append_of_pos hdigits, hspan.1, append_nil]
  have hdrop : (decimal n ++ rest).dropWhile isDigit = rest := by
    rw [dropWhile_append_of_pos hdigits, hspan.2]
  have hsign : readSign (skipSpaces (decimal n ++ rest)) = (false, decimal n ++ rest) := by
    cases hdec : decimal n with
    | nil => exact absurd hdec (decimal_ne_nil n)
    | cons d ds =>
      have hd : isDigit d = true := hdigits d (by simp [hdec])
      rw [cons_append, skipSpaces_cons (isSpace_eq_false_of_isDigit hd), readSign]
      have hminus : d ≠ 45 := by
        rintro rfl
        exact absurd hd (by decide)
      have hplus : d ≠ 43 := by
        rintro rfl
        exact absurd hd (by decide)
      rw [if_neg hminus, if_neg hplus]
  have hempty : (decimal n).isEmpty = false := by
    simpa using decimal_ne_nil n
  have hfits : decide (2 ^ 32 ≤ n) = false := decide_eq_false (Nat.not_le.mpr hn)
  simp only [readUInt32, hsign, htake, hdrop, digitsValue_decimal, hempty, hfits, Bool.or_false,
    Bool.false_eq_true, if_false]

/-- A decimal number in front of something that is no digit reads back. -/
theorem readUInt32_decimal {n : Nat} (hn : n < 2 ^ 32) (hc : isDigit c = false)
    (rest : List UInt8) :
    readUInt32 (decimal n ++ c :: rest) = some (UInt32.ofNat n, c :: rest) := by
  apply readUInt32_decimal_append hn
  rintro c' ⟨⟩
  exact hc

/-- `stream >> value` into a variable that held `before`: an extraction that does not get to a
character leaves it, one that finds no number writes the nearest value there is. -/
def extractUInt32 (before : UInt32) : Option (List UInt8) → UInt32 × Option (List UInt8)
  | none => (before, none)
  | some s =>
    if skipSpaces s = [] then (before, none)
    else match readUInt32 s with
      | some (value, rest) => (value, some rest)
      | none =>
        let digits := (readSign (skipSpaces s)).2.takeWhile isDigit
        (if digits.isEmpty then 0 else 0xFFFFFFFF, none)

/-- A decimal number after spaces is extracted. -/
theorem extractUInt32_decimal (before : UInt32) (gap : Nat) {n : Nat} (hn : n < 2 ^ 32)
    (hrest : ∀ c ∈ rest.head?, isDigit c = false) :
    extractUInt32 before (some (replicate gap 32 ++ (decimal n ++ rest))) =
      (UInt32.ofNat n, some rest) := by
  have hne : skipSpaces (decimal n ++ rest) ≠ [] := by
    cases hdec : decimal n with
    | nil => exact absurd hdec (decimal_ne_nil n)
    | cons d ds =>
      have hd : isDigit d = true := isDigit_of_mem_decimal (by rw [hdec]; exact mem_cons_self)
      rw [cons_append, skipSpaces_cons (isSpace_eq_false_of_isDigit hd)]
      exact cons_ne_nil _ _
  unfold extractUInt32
  dsimp only
  rw [skipSpaces_replicate, if_neg hne, readUInt32_replicate, readUInt32_decimal_append hn hrest]

/-- Where only spaces are left the variable is left too. -/
theorem extractUInt32_spaces (before : UInt32) (gap : Nat) :
    extractUInt32 before (some (replicate gap 32)) = (before, none) := by
  have hskip : skipSpaces (replicate gap 32) = [] := by
    have happend := skipSpaces_replicate gap []
    rw [append_nil] at happend
    exact happend
  unfold extractUInt32
  dsimp only
  rw [if_pos hskip]

/-- `stream >> c` into a variable that held `before`. -/
def extractChar (before : UInt8) : Option (List UInt8) → UInt8 × Option (List UInt8)
  | none => (before, none)
  | some s =>
    match readChar s with
    | none => (before, none)
    | some (c, rest) => (c, some rest)

/-! ### Raw bytes -/

/-- Extract one character a default, in order: a default is kept when the stream fails. -/
def readRawBytes : List UInt32 → Option (List UInt8) → List UInt32
  | [], _ => []
  | value :: defaults, s =>
    match s.bind readChar with
    | none => value :: readRawBytes defaults none
    | some (raw, rest) => raw.toUInt32 :: readRawBytes defaults (some rest)

variable (defaults : List UInt32)

/-- A failed stream keeps every default. -/
@[simp] theorem readRawBytes_none : readRawBytes defaults none = defaults := by
  induction defaults with
  | nil => rfl
  | cons value defaults ih => exact congrArg (value :: ·) ih

@[simp] theorem readRawBytes_replicate (s : List UInt8) :
    readRawBytes defaults (some (replicate n 32 ++ s)) = readRawBytes defaults (some s) := by
  cases defaults with
  | nil => rfl
  | cons value defaults => simp [readRawBytes]

theorem length_readRawBytes (s : Option (List UInt8)) :
    (readRawBytes defaults s).length = defaults.length := by
  induction defaults generalizing s with
  | nil => rfl
  | cons value defaults ih =>
    unfold readRawBytes
    split <;> simp [ih]

theorem readRawBytes_of_isSpace (h : ∀ c ∈ s, isSpace c = true) :
    readRawBytes defaults (some s) = defaults := by
  cases defaults with
  | nil => rfl
  | cons value defaults =>
    simp [readRawBytes, readChar_of_isSpace h]

/-- A byte that a reader of raw bytes reads as it was written. -/
def isPlain (c : UInt8) : Bool := !isSpace c && c != 0

/-- Defaults and values of raw bytes such that the values read back: from the first value on
that is not plain every value is the default, and nothing but white space stands before the
next NUL. -/
def ReadsBack (fields : List (UInt32 × UInt8)) : Prop :=
  let rest := fields.dropWhile fun field => isPlain field.2
  (∀ field ∈ rest, field.2.toUInt32 = field.1) ∧
    ∀ field ∈ rest.takeWhile fun field => field.2 != 0, isSpace field.2 = true

theorem readsBack_cons_of_isPlain {field : UInt32 × UInt8} (h : isPlain field.2 = true)
    (fields : List (UInt32 × UInt8)) : ReadsBack (field :: fields) ↔ ReadsBack fields := by
  simp only [ReadsBack, dropWhile_cons_of_pos (p := fun f : UInt32 × UInt8 => isPlain f.2) h]

theorem readsBack_cons_of_not_isPlain {field : UInt32 × UInt8} (h : isPlain field.2 = false)
    (fields : List (UInt32 × UInt8)) :
    ReadsBack (field :: fields) ↔
      (∀ f ∈ field :: fields, f.2.toUInt32 = f.1) ∧
        ∀ f ∈ (field :: fields).takeWhile fun f => f.2 != 0, isSpace f.2 = true := by
  have hdrop : (field :: fields).dropWhile (fun f => isPlain f.2) = field :: fields :=
    dropWhile_cons_of_neg (by simp [h])
  simp only [ReadsBack, hdrop]

theorem map_eq_map_iff (fields : List (UInt32 × UInt8)) :
    fields.map Prod.fst = fields.map (fun field => field.2.toUInt32) ↔
      ∀ field ∈ fields, field.2.toUInt32 = field.1 := by
  rw [map_inj_left]
  exact forall₂_congr fun _ _ => eq_comm

/-- Raw bytes read back exactly when they meet `ReadsBack`. -/
theorem readRawBytes_eq_iff (fields : List (UInt32 × UInt8)) :
    readRawBytes (fields.map Prod.fst) (some (cString (fields.map Prod.snd))) =
      fields.map (fun field => field.2.toUInt32) ↔ ReadsBack fields := by
  induction fields with
  | nil => simp [readRawBytes, ReadsBack]
  | cons field fields ih =>
    by_cases hplain : isPlain field.2 = true
    · rw [readsBack_cons_of_isPlain hplain, ← ih]
      have hparts : isSpace field.2 = false ∧ field.2 ≠ 0 := by
        simpa [isPlain] using hplain
      simp [readRawBytes, cString_cons hparts.2, readChar_cons hparts.1]
    have hnot : isPlain field.2 = false := by simpa using hplain
    rw [readsBack_cons_of_not_isPlain hnot]
    by_cases hzero : field.2 = 0
    · -- nothing is left to read, and every default is kept
      have hread : readRawBytes ((field :: fields).map Prod.fst)
          (some (cString ((field :: fields).map Prod.snd))) = (field :: fields).map Prod.fst := by
        rw [map_cons, map_cons, hzero, cString_zero]
        exact readRawBytes_of_isSpace _ (by simp)
      rw [hread, map_eq_map_iff]
      simp [hzero]
    have hspace : isSpace field.2 = true := by
      simpa [isPlain, hzero] using hnot
    have htake : cString ((field :: fields).map Prod.snd) =
        ((field :: fields).takeWhile fun f => f.2 != 0).map Prod.snd := by
      rw [cString, takeWhile_map]
      rfl
    by_cases hall : ∀ f ∈ (field :: fields).takeWhile fun f => f.2 != 0, isSpace f.2 = true
    · -- only white space before the end: every default is kept
      have hread : readRawBytes ((field :: fields).map Prod.fst)
          (some (cString ((field :: fields).map Prod.snd))) = (field :: fields).map Prod.fst := by
        apply readRawBytes_of_isSpace
        rw [htake]
        intro c hc
        obtain ⟨f, hf, rfl⟩ := mem_map.mp hc
        exact hall f hf
      rw [hread, map_eq_map_iff]
      exact (and_iff_left hall).symm
    · -- a later byte is read in place of the white space
      have hfirst : ∃ c rest, readChar (cString ((field :: fields).map Prod.snd)) =
          some (c, rest) := by
        cases hread : readChar (cString ((field :: fields).map Prod.snd)) with
        | some pair => exact ⟨pair.1, pair.2, rfl⟩
        | none =>
          have hskip : skipSpaces (cString ((field :: fields).map Prod.snd)) = [] := by
            unfold readChar at hread
            split at hread
            · assumption
            · cases hread
          have hspaces := dropWhile_eq_nil_iff.mp hskip
          rw [htake] at hspaces
          exact absurd (fun f hf => hspaces _ (mem_map_of_mem hf)) hall
      obtain ⟨c, rest, hread⟩ := hfirst
      have hc := isSpace_of_readChar hread
      have hne : c ≠ field.2 := by
        rintro rfl
        exact absurd hspace (by simp [hc])
      constructor
      · intro heq
        rw [map_cons, readRawBytes, Option.bind_some, hread, map_cons] at heq
        have hhead := (cons.inj heq).1
        exact absurd (UInt8.toUInt32_inj.mp hhead) hne
      · intro hboth
        exact absurd hboth.2 hall

end ByteStream
