import Mathlib.Algebra.Ring.Int.Defs
import Mathlib.Algebra.Ring.Nat
import Mathlib.Data.List.Infix
import Mathlib.Data.List.TakeWhile

/-!
# String streams

`std::istringstream` as far as readers of text use it: what is left of the string, how many bytes
were read, the end and failure bits, and formatted extraction of numbers in the classic locale.
-/

structure IStringStream where
  rest : List UInt8
  pos : Nat := 0
  eof : Bool := false
  fail : Bool := false
  deriving DecidableEq, Repr

namespace IStringStream

open List

variable (s : IStringStream)

def good : Bool := !s.eof && !s.fail

/-- A sentry that finds the stream not good. -/
def refuse : IStringStream := { s with fail := true }

/-- The stream behind its next bytes. -/
def advance (count : Nat) : IStringStream :=
  { s with
    rest := s.rest.drop count
    pos := s.pos + count }

/-- `get`, absent at the end. -/
def get : Option UInt8 × IStringStream :=
  if s.good then
    match s.rest with
    | [] => (none, { s with eof := true, fail := true })
    | c :: _ => (some c, s.advance 1)
  else (none, s.refuse)

/-- `peek`, absent at the end. -/
def peek : Option UInt8 × IStringStream :=
  if s.good then
    match s.rest with
    | [] => (none, { s with eof := true })
    | c :: _ => (some c, s)
  else (none, s.refuse)

/-- `ignore(1)`. -/
def ignoreOne : IStringStream :=
  if s.good then
    match s.rest with
    | [] => { s with eof := true }
    | _ :: _ => s.advance 1
  else s.refuse

/-- `ignore(count, delim)`: up to the delimiter, which is read too. -/
def ignore (count : Nat) (delim : UInt8) : IStringStream :=
  if s.good then
    let skipped := ((s.rest.take count).takeWhile fun c => c != delim).length
    if skipped = count then s.advance count
    else if skipped = s.rest.length then { s.advance skipped with eof := true }
    else s.advance (skipped + 1)
  else s.refuse

/-- `tellg`, absent where it fails; its sentry finds the end. -/
def tellg : Option Nat × IStringStream :=
  if s.good then (some s.pos, s) else (none, s.refuse)

/-- `getline(buffer, size, delim)`: what is in the buffer then. -/
def getline (size : Nat) (delim : UInt8) : List UInt8 × IStringStream :=
  if s.good then
    let line := (s.rest.take (size - 1)).takeWhile fun c => c != delim
    let s := s.advance line.length
    match s.rest with
    | [] => (line, { s with eof := true, fail := line.isEmpty })
    | c :: _ => if c = delim then (line, s.advance 1) else (line, s.refuse)
  else ([], s.refuse)

/-! ### Numbers -/

def isSpace (c : UInt8) : Bool := c = 0x20 || (0x09 ≤ c && c ≤ 0x0d)

/-- The value of a digit in base 10 or 16. -/
def digit (base : Nat) (c : UInt8) : Option Nat :=
  if '0'.toUInt8 ≤ c ∧ c ≤ '9'.toUInt8 then some (c.toNat - '0'.toNat)
  else if base = 16 ∧ 'a'.toUInt8 ≤ c ∧ c ≤ 'f'.toUInt8 then some (c.toNat - 'a'.toNat + 10)
  else if base = 16 ∧ 'A'.toUInt8 ≤ c ∧ c ≤ 'F'.toUInt8 then some (c.toNat - 'A'.toNat + 10)
  else none

/-- What `num_get` finds: a sign, `0x` in base 16, and digits. -/
structure Numeral where
  negative : Bool
  digits : List UInt8
  length : Nat
  deriving DecidableEq, Repr

def numeral (base : Nat) (s : List UInt8) : Numeral :=
  let sign := (s.take 1).takeWhile fun c => c = '-'.toUInt8 || c = '+'.toUInt8
  let unsigned := s.drop sign.length
  let mark := if base = 16 ∧ (unsigned.take 2 = ['0'.toUInt8, 'x'.toUInt8] ∨
    unsigned.take 2 = ['0'.toUInt8, 'X'.toUInt8]) then unsigned.take 2 else []
  let digits := (unsigned.drop mark.length).takeWhile fun c => (digit base c).isSome
  { negative := decide (sign = ['-'.toUInt8])
    digits := digits
    length := (sign ++ (mark ++ digits)).length }

/-- The number that the digits spell. -/
def magnitude (base : Nat) (digits : List UInt8) : Nat :=
  digits.foldl (fun n c => n * base + (digit base c).getD 0) 0

/-- The sentry of a formatted extraction, that skips whitespace. -/
def skipws : IStringStream :=
  let s := s.advance (s.rest.takeWhile isSpace).length
  if s.rest = [] then { s with eof := true, fail := true } else s

/-- `>>` of a number, absent where it is not in the range of its type. -/
def extract {α : Type} (base : Nat) (convert : Int → Option α) (s : IStringStream) :
    Option α × IStringStream :=
  if s.good then
    let s := s.skipws
    if s.fail then (none, s)
    else
      let n := numeral base s.rest
      let s := s.advance n.length
      let s := { s with eof := s.rest.isEmpty }
      let value : Int := magnitude base n.digits
      if n.digits = [] then (none, s.refuse)
      else
        match convert (if n.negative then -value else value) with
        | none => (none, s.refuse)
        | some a => (some a, s)
  else (none, s.refuse)

/-- The range of `uint32`: a sign is applied to what is in range without it. -/
def toUInt32 (value : Int) : Option UInt32 :=
  if value.natAbs < 2 ^ 32 then some (UInt32.ofInt value) else none

/-- The range of `int32`. -/
def toInt32 (value : Int) : Option Int :=
  if -2 ^ 31 ≤ value ∧ value < 2 ^ 31 then some value else none

/-! ### What was read -/

/-- The bytes between two states of a stream. -/
structure Went (taken : List UInt8) (s s' : IStringStream) : Prop where
  rest : s.rest = taken ++ s'.rest
  pos : s'.pos = s.pos + taken.length

variable {s s' s'' : IStringStream} {taken taken' : List UInt8} {c : UInt8}

theorem Went.refl (s : IStringStream) : Went [] s s := ⟨rfl, rfl⟩

theorem Went.trans (h : Went taken s s') (h' : Went taken' s' s'') :
    Went (taken ++ taken') s s'' where
  rest := by rw [h.rest, h'.rest, append_assoc]
  pos := by rw [h'.pos, h.pos, length_append, Nat.add_assoc]

theorem Went.flags (h : Went taken s s') (eof fail : Bool) :
    Went taken s { s' with eof := eof, fail := fail } := ⟨h.rest, h.pos⟩

variable {rest line : List UInt8} {size count : Nat}

theorem went_advance (h : s.rest = taken ++ rest) :
    Went taken s (s.advance taken.length) where
  rest := by
    unfold advance
    dsimp only
    rw [h, drop_left]
  pos := rfl

theorem get_eq_some (h : s.get = (some c, s')) : s.good = true ∧ s' = s.advance 1 ∧
    Went [c] s s' := by
  unfold get at h
  split at h
  · next hgood =>
    split at h
    · cases congrArg Prod.fst h
    · next rest hrest =>
      obtain ⟨hc, rfl⟩ := Prod.mk.inj h
      cases hc
      exact ⟨hgood, rfl, @went_advance s [c] rest hrest⟩
  · cases congrArg Prod.fst h

theorem peek_eq_some (h : s.peek = (some c, s')) :
    s' = s ∧ s.good = true ∧ ∃ rest, s.rest = c :: rest := by
  unfold peek at h
  split at h
  · next hgood =>
    split at h
    · cases congrArg Prod.fst h
    · next rest hrest =>
      obtain ⟨hc, rfl⟩ := Prod.mk.inj h
      cases hc
      exact ⟨rfl, hgood, rest, hrest⟩
  · cases congrArg Prod.fst h

theorem ignoreOne_cons (hgood : s.good = true) (hrest : s.rest = c :: rest) :
    s.ignoreOne = s.advance 1 ∧ Went [c] s s.ignoreOne := by
  have heq : s.ignoreOne = s.advance 1 := by
    unfold ignoreOne
    rw [if_pos hgood, hrest]
  refine ⟨heq, ?_⟩
  rw [heq]
  exact @went_advance s [c] rest hrest

theorem eof_of_good (hgood : s.good = true) : s.eof = false := by
  unfold good at hgood
  exact (Bool.not_eq_true' _).mp (Bool.and_eq_true _ _ ▸ hgood).1

/-- A byte of a number, or whitespace before it. -/
def IsNumeric (base : Nat) (c : UInt8) : Prop :=
  isSpace c = true ∨ c = '-'.toUInt8 ∨ c = '+'.toUInt8 ∨ c = 'x'.toUInt8 ∨ c = 'X'.toUInt8 ∨
    (digit base c).isSome = true

/-- A numeral is the first part of what it was found in. -/
theorem numeral_spec (base : Nat) (s : List UInt8) :
    ∃ taken, s = taken ++ s.drop (numeral base s).length ∧
      taken.length = (numeral base s).length ∧ ∀ c ∈ taken, IsNumeric base c := by
  obtain ⟨sign, hsign⟩ : ∃ sign, sign =
    (s.take 1).takeWhile fun c => c = '-'.toUInt8 || c = '+'.toUInt8 := ⟨_, rfl⟩
  obtain ⟨unsigned, hunsigned⟩ : ∃ unsigned, unsigned = s.drop sign.length := ⟨_, rfl⟩
  obtain ⟨mark, hmark⟩ : ∃ mark, mark =
    if base = 16 ∧ (unsigned.take 2 = ['0'.toUInt8, 'x'.toUInt8] ∨
      unsigned.take 2 = ['0'.toUInt8, 'X'.toUInt8]) then unsigned.take 2 else [] := ⟨_, rfl⟩
  obtain ⟨digits, hdigits⟩ : ∃ digits, digits =
    (unsigned.drop mark.length).takeWhile fun c => (digit base c).isSome := ⟨_, rfl⟩
  have hlength : (numeral base s).length = (sign ++ (mark ++ digits)).length := by
    rw [hdigits, hmark, hunsigned, hsign]
    rfl
  have hmarkPrefix : mark <+: unsigned := by
    rw [hmark]
    split
    · exact take_prefix 2 unsigned
    · exact nil_prefix
  have hmarkNumeric : ∀ c ∈ mark, IsNumeric base c := by
    rw [hmark]
    split
    · next hbase =>
      have hzero : (digit base '0'.toUInt8).isSome = true := rfl
      intro c hc
      cases hbase.2 with
      | inl htake =>
        rw [htake] at hc
        simp only [mem_cons, not_mem_nil, or_false] at hc
        rcases hc with rfl | rfl
        · exact .inr (.inr (.inr (.inr (.inr hzero))))
        · exact .inr (.inr (.inr (.inl rfl)))
      | inr htake =>
        rw [htake] at hc
        simp only [mem_cons, not_mem_nil, or_false] at hc
        rcases hc with rfl | rfl
        · exact .inr (.inr (.inr (.inr (.inr hzero))))
        · exact .inr (.inr (.inr (.inr (.inl rfl))))
    · exact nofun
  have hs : s = sign ++ unsigned := by
    rw [hunsigned]
    apply prefix_append_drop
    rw [hsign]
    exact (List.takeWhile_prefix _).trans (List.take_prefix 1 s)
  have hu : unsigned = mark ++ (digits ++ (unsigned.drop mark.length).drop digits.length) := by
    have hrest : unsigned.drop mark.length =
        digits ++ (unsigned.drop mark.length).drop digits.length := by
      apply prefix_append_drop
      rw [hdigits]
      exact takeWhile_prefix _
    rw [← hrest]
    exact prefix_append_drop hmarkPrefix
  have hall : s = (sign ++ (mark ++ digits)) ++ (unsigned.drop mark.length).drop digits.length := by
    rw [append_assoc, append_assoc, ← hu]
    exact hs
  refine ⟨sign ++ (mark ++ digits), ?_, hlength.symm, fun c hc => ?_⟩
  · rw [hlength]
    exact prefix_append_drop ⟨_, hall.symm⟩
  · cases mem_append.mp hc with
    | inl hmem =>
      rw [hsign] at hmem
      have hc := mem_takeWhile_imp hmem
      simp only [Bool.or_eq_true, decide_eq_true_eq] at hc
      cases hc with
      | inl hminus => exact .inr (.inl hminus)
      | inr hplus => exact .inr (.inr (.inl hplus))
    | inr hmem =>
      cases mem_append.mp hmem with
      | inl hmem => exact hmarkNumeric c hmem
      | inr hmem =>
        rw [hdigits] at hmem
        have hdigit := @List.mem_takeWhile_imp _ (fun c => (digit base c).isSome) _ _ hmem
        exact .inr (.inr (.inr (.inr (.inr hdigit))))

/-- What a successful extraction has read. -/
theorem extract_eq_some {α : Type} {base : Nat} {convert : Int → Option α} {a : α}
    (h : s.extract base convert = (some a, s')) :
    ∃ taken, Went taken s s' ∧ (∀ c ∈ taken, IsNumeric base c) ∧
      s'.eof = s'.rest.isEmpty ∧ s'.fail = false := by
  unfold extract at h
  split at h
  · next hgood =>
    dsimp only at h
    split at h
    · cases congrArg Prod.fst h
    · next hfail =>
      split at h
      · cases congrArg Prod.fst h
      · split at h
        · cases congrArg Prod.fst h
        · obtain ⟨-, rfl⟩ := Prod.mk.inj h
          have hskip : Went (s.rest.takeWhile isSpace) s s.skipws := by
            have hwent : Went (s.rest.takeWhile isSpace) s
                (s.advance (s.rest.takeWhile isSpace).length) :=
              went_advance (takeWhile_append_dropWhile).symm
            unfold skipws
            dsimp only
            split
            · exact hwent.flags true true
            · exact hwent
          obtain ⟨taken, htaken, hlength, hnumeric⟩ := numeral_spec base s.skipws.rest
          have hnumber := went_advance htaken
          rw [hlength] at hnumber
          refine ⟨s.rest.takeWhile isSpace ++ taken, ?_, fun c hc => ?_, rfl, ?_⟩
          · exact hskip.trans ⟨hnumber.rest, hnumber.pos⟩
          · cases mem_append.mp hc with
            | inl hmem => exact .inl (mem_takeWhile_imp hmem)
            | inr hmem => exact hnumeric c hmem
          · exact Bool.eq_false_iff.mpr hfail
  · cases congrArg Prod.fst h

/-- Bytes up to a delimiter, and the text from it on. -/
theorem takeWhile_delim (s : List UInt8) (delim : UInt8) :
    delim ∉ s.takeWhile (fun c => c != delim) ∧
      (s.takeWhile (fun c => c != delim) = s ∨
        ∃ rest, s = s.takeWhile (fun c => c != delim) ++ delim :: rest) := by
  refine ⟨fun hmem => ?_, ?_⟩
  · have hne := @List.mem_takeWhile_imp _ (fun c => c != delim) _ _ hmem
    simp at hne
  · have hsplit := @List.takeWhile_append_dropWhile _ (fun c => c != delim) s
    cases hrest : s.dropWhile fun c => c != delim with
    | nil =>
      left
      rw [hrest, append_nil] at hsplit
      exact hsplit
    | cons d rest =>
      right
      have hhead := head?_dropWhile_not (fun c => c != delim) s
      rw [hrest] at hhead hsplit
      have hd : d = delim := by simpa using hhead
      refine ⟨rest, ?_⟩
      rw [hd] at hsplit
      exact hsplit.symm

/-- A line that ends before the buffer is full, with its delimiter. -/
theorem getline_of_delim (size : Nat) (hgood : s.good = true) (hrest : s.rest = line ++ c :: rest)
    (hline : c ∉ line) (hsize : line.length < size) :
    s.getline size c = (line, s.advance (line.length + 1)) := by
  have htake : (s.rest.take (size - 1)).takeWhile (fun d => d != c) = line := by
    have hall : line.takeWhile (fun d => d != c) = line :=
      takeWhile_eq_self_iff.mpr fun d hd => bne_iff_ne.mpr fun heq => hline (heq ▸ hd)
    rw [hrest, take_append, take_of_length_le (by omega), takeWhile_append, hall, if_pos rfl]
    cases size - 1 - line.length with
    | zero => rw [take_zero, takeWhile_nil, append_nil]
    | succ n => simp
  have hnext : (s.advance line.length).rest = c :: rest := by
    rw [advance, hrest, drop_left]
  unfold getline
  rw [if_pos hgood, htake]
  dsimp only
  rw [hnext]
  dsimp only
  rw [if_pos rfl, advance, advance, advance, drop_drop, Nat.add_assoc]

/-- A line that is not the last ends with its delimiter, or the buffer is full. -/
theorem getline_cases (hgood : s.good = true) (h : s.getline size c = (line, s'))
    (heof : s'.eof = false) (hsize : 0 < size) :
    (Went (line ++ [c]) s s' ∧ c ∉ line ∧ line.length < size ∧ s'.good = true) ∨
      line.length + 1 = size ∧ line.length < s.rest.length ∧ s'.good = false := by
  obtain ⟨htaken, hcases⟩ := takeWhile_delim (s.rest.take (size - 1)) c
  have hprefix : (s.rest.take (size - 1)).takeWhile (fun d => d != c) <+: s.rest :=
    (List.takeWhile_prefix _).trans (List.take_prefix _ _)
  have hlength := (List.takeWhile_prefix (fun d => d != c)
    (l := s.rest.take (size - 1))).length_le
  rw [length_take] at hlength
  have hwent := went_advance (prefix_append_drop hprefix)
  unfold getline at h
  rw [if_pos hgood] at h
  dsimp only at h
  split at h
  · obtain ⟨-, rfl⟩ := Prod.mk.inj h
    exact absurd heof Bool.noConfusion
  · next d rest hnext =>
    split at h
    · next hd =>
      obtain ⟨rfl, rfl⟩ := Prod.mk.inj h
      left
      rw [hd] at hnext
      refine ⟨hwent.trans (@went_advance _ [c] rest hnext), htaken, by omega, hgood⟩
    · next hd =>
      obtain ⟨rfl, rfl⟩ := Prod.mk.inj h
      right
      have hsplit := hwent.rest
      rw [hnext] at hsplit
      have hbehind := congrArg length hsplit
      rw [length_append, length_cons] at hbehind
      rcases hcases with hall | ⟨rest', hrest'⟩
      · have hfull := congrArg length hall
        rw [length_take] at hfull
        exact ⟨by omega, by omega, by simp [good, refuse]⟩
      · -- the delimiter would be the next byte
        exfalso
        have hwhole := take_append_drop (size - 1) s.rest
        rw [hrest', append_assoc] at hwhole
        exact hd (cons.inj (append_cancel_left (hwhole.trans hsplit))).1.symm

/-- A line that ends with its delimiter. -/
theorem getline_of_not_eof (hgood : s.good = true) (h : s.getline size c = (line, s'))
    (heof : s'.eof = false) (hsize : s.rest.length < size) :
    Went (line ++ [c]) s s' ∧ c ∉ line ∧ s'.good = true := by
  rcases getline_cases hgood h heof (by omega) with ⟨hwent, hline, -, hgood'⟩ | ⟨hfull, hlt, -⟩
  · exact ⟨hwent, hline, hgood'⟩
  · omega

/-- What `ignore` goes past: so many bytes, or up to the delimiter. -/
def Skips (count : Nat) (delim : UInt8) (skipped : List UInt8) : Prop :=
  (delim ∉ skipped ∧ skipped.length = count) ∨
    ∃ taken, skipped = taken ++ [delim] ∧ delim ∉ taken ∧ taken.length < count

theorem takeWhile_take {text : List UInt8} (htext : c ∉ text) (count : Nat) :
    ((text ++ rest).take count).takeWhile (fun d => d != c) =
      text.take count ++ (rest.take (count - text.length)).takeWhile fun d => d != c := by
  have hall : (text.take count).takeWhile (fun d => d != c) = text.take count :=
    takeWhile_eq_self_iff.mpr fun d hd =>
      bne_iff_ne.mpr fun heq => htext (heq ▸ mem_of_mem_take hd)
  rw [take_append, takeWhile_append, hall, if_pos rfl]

/-- What is skipped, where it is in the text. -/
theorem ignore_of_skips {skipped : List UInt8} (hgood : s.good = true) (h : Skips count c skipped)
    (hrest : s.rest = skipped ++ rest) : s.ignore count c = s.advance skipped.length := by
  unfold ignore
  rw [if_pos hgood, hrest]
  dsimp only
  rcases h with ⟨hskipped, hcount⟩ | ⟨taken, rfl, htaken, hcount⟩
  · rw [takeWhile_take hskipped, hcount, Nat.sub_self, take_zero, takeWhile_nil,
      append_nil, take_of_length_le hcount.le, if_pos hcount]
  · have hone : (([c] ++ rest).take (count - taken.length)).takeWhile (fun d => d != c) = [] := by
      cases hn : count - taken.length with
      | zero => rfl
      | succ n => simp
    rw [append_assoc, takeWhile_take htaken, hone, append_nil,
      take_of_length_le hcount.le, if_neg (by omega), if_neg (by simp), length_append,
      length_singleton]

/-- Where the stream is good afterwards, something was skipped. -/
theorem skips_of_ignore (h : (s.ignore count c).good = true) :
    s.good = true ∧ ∃ skipped, Skips count c skipped ∧ Went skipped s (s.ignore count c) := by
  have hgood : s.good = true := by
    by_contra hbad
    rw [ignore, if_neg hbad] at h
    simp [good, refuse] at h
  obtain ⟨htaken, hcases⟩ := takeWhile_delim (s.rest.take count) c
  have hprefix : (s.rest.take count).takeWhile (fun d => d != c) <+: s.rest :=
    (List.takeWhile_prefix _).trans (List.take_prefix _ _)
  refine ⟨hgood, ?_⟩
  unfold ignore at h ⊢
  rw [if_pos hgood] at h ⊢
  dsimp only at h ⊢
  split at h
  · next hfull =>
    rw [if_pos hfull]
    have hwent := went_advance (prefix_append_drop hprefix)
    rw [hfull] at hwent
    exact ⟨_, .inl ⟨htaken, hfull⟩, hwent⟩
  · next hfull =>
    split at h
    · simp [good] at h
    · next hend =>
      rw [if_neg hfull, if_neg hend]
      have hle := (List.takeWhile_prefix (fun d => d != c) (l := s.rest.take count)).length_le
      rw [length_take] at hle
      rcases hcases with hall | ⟨rest, hrest⟩
      · exfalso
        have hlength := congrArg length hall
        rw [length_take] at hlength
        omega
      · refine ⟨_, .inr ⟨_, rfl, htaken, by omega⟩, ?_⟩
        have hwhole := take_append_drop count s.rest
        rw [hrest, append_assoc] at hwhole
        have hsplit : s.rest = ((s.rest.take count).takeWhile (fun d => d != c) ++ [c]) ++
            (rest ++ s.rest.drop count) := by
          rw [append_assoc]
          exact hwhole.symm
        have hwent := went_advance hsplit
        rwa [length_append, length_singleton] at hwent

/-- What is ignored ends with the delimiter, or with the text. -/
theorem ignore_cases (hgood : s.good = true) (hcount : s.rest.length ≤ count) :
    (∃ taken, Went taken s (s.ignore count c) ∧ (s.ignore count c).rest = [] ∧ c ∉ taken) ∨
      ∃ taken, Went (taken ++ [c]) s (s.ignore count c) ∧ c ∉ taken ∧
        (s.ignore count c).good = true := by
  have htake : s.rest.take count = s.rest := take_of_length_le hcount
  unfold ignore
  rw [if_pos hgood, htake]
  dsimp only
  obtain ⟨htaken, hall | ⟨rest, hrest⟩⟩ := takeWhile_delim s.rest c
  · left
    have hwent : Went (s.rest.takeWhile fun d => d != c) s
        (s.advance (s.rest.takeWhile fun d => d != c).length) := went_advance (by
      rw [hall]
      exact (append_nil _).symm)
    have hend : (s.advance (s.rest.takeWhile fun d => d != c).length).rest = [] := by
      rw [hall]
      exact drop_length
    refine ⟨s.rest.takeWhile fun d => d != c, ?_, ?_, htaken⟩
    · split
      · next hfull => exact hfull ▸ hwent
      · rw [if_pos (by rw [hall])]
        exact ⟨hwent.rest, hwent.pos⟩
    · split
      · next hfull => exact hfull ▸ hend
      · rw [if_pos (by rw [hall])]
        exact hend
  · right
    have hlength := congrArg length hrest
    rw [length_append, length_cons] at hlength
    rw [if_neg (by omega), if_neg (by omega)]
    refine ⟨s.rest.takeWhile fun d => d != c, ?_, htaken, hgood⟩
    have hwent : Went ((s.rest.takeWhile fun d => d != c) ++ [c]) s
        (s.advance ((s.rest.takeWhile fun d => d != c) ++ [c]).length) := went_advance (by
      rw [append_assoc]
      exact hrest)
    rwa [length_append, length_singleton] at hwent

end IStringStream
