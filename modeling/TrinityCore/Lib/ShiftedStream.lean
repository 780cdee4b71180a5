import TrinityCore.Lib.IStringStream

/-!
# Streams with more text behind them

What a reader finds does not depend on how much was read before, and not on what is behind a
byte that it does not read.
-/

namespace IStringStream

open List

variable {s s' : IStringStream} {p : Nat} {more : List UInt8} {stop : UInt8}

/-- The stream at a later position and with more text at its end. -/
def shift (p : Nat) (more : List UInt8) (s : IStringStream) : IStringStream :=
  { s with
    rest := s.rest ++ more
    pos := s.pos + p }

/-- A byte stands before the additional text, if there is any. -/
def Fenced (stop : UInt8) (more : List UInt8) (s : IStringStream) : Prop :=
  stop ∈ s.rest ∨ more = []

@[simp] theorem shift_good : (s.shift p more).good = s.good := rfl

@[simp] theorem shift_eof : (s.shift p more).eof = s.eof := rfl

@[simp] theorem shift_fail : (s.shift p more).fail = s.fail := rfl

variable {taken text : List UInt8} {base : Nat}

/-- Reading what is before the fence leaves it standing. -/
theorem Fenced.of_went (h : Fenced stop more s) (hwent : Went taken s s') (hstop : stop ∉ taken) :
    Fenced stop more s' := by
  rcases h with hmem | rfl
  · rw [hwent.rest, mem_append] at hmem
    exact .inl (hmem.resolve_left hstop)
  · exact .inr rfl

/-- What is looked for before a byte is the same with more text behind it. -/
theorem takeWhile_append_of_mem (hmem : stop ∈ text) {f : UInt8 → Bool} (hf : f stop = false) :
    (text ++ more).takeWhile f = text.takeWhile f := by
  rw [takeWhile_append, if_neg]
  intro hlength
  have hall := takeWhile_eq_self_iff.mp ((List.takeWhile_prefix f).eq_of_length hlength)
  rw [hall stop hmem] at hf
  cases hf

theorem Fenced.takeWhile_eq (h : Fenced stop more s) {f : UInt8 → Bool} (hf : f stop = false) :
    (s.rest ++ more).takeWhile f = s.rest.takeWhile f := by
  rcases h with hmem | rfl
  · exact takeWhile_append_of_mem hmem hf
  · rw [append_nil]

theorem advance_shift {n : Nat} (h : n ≤ s.rest.length) :
    (s.shift p more).advance n = (s.advance n).shift p more := by
  simp only [advance, shift, drop_append_of_le_length h, Nat.add_right_comm]

/-- The next byte, where the end is fenced. -/
theorem Fenced.rest_shift (h : Fenced stop more s) :
    s.rest = [] ∧ more = [] ∨
      ∃ c rest, s.rest = c :: rest ∧ (s.shift p more).rest = c :: (rest ++ more) := by
  cases hrest : s.rest with
  | nil =>
    refine .inl ⟨rfl, h.resolve_left ?_⟩
    rw [hrest]
    exact not_mem_nil
  | cons c rest => exact Or.inr ⟨c, rest, rfl, by rw [shift, hrest, cons_append]⟩

theorem peek_shift (h : Fenced stop more s) :
    (s.shift p more).peek = (s.peek.1, s.peek.2.shift p more) := by
  unfold peek
  by_cases hgood : s.good = true
  · rw [shift_good, if_pos hgood, if_pos hgood]
    rcases h.rest_shift with ⟨hnil, rfl⟩ | ⟨c, rest, hcons, hcons'⟩
    · simp [shift, hnil]
    · rw [hcons, hcons']
  · rw [shift_good, if_neg hgood, if_neg hgood]
    rfl

theorem ignoreOne_shift (h : Fenced stop more s) :
    (s.shift p more).ignoreOne = s.ignoreOne.shift p more := by
  unfold ignoreOne
  by_cases hgood : s.good = true
  · rw [shift_good, if_pos hgood, if_pos hgood]
    rcases h.rest_shift with ⟨hnil, rfl⟩ | ⟨c, rest, hcons, hcons'⟩
    · simp [shift, hnil]
    · rw [hcons, hcons']
      exact advance_shift (by simp [hcons])
  · rw [shift_good, if_neg hgood, if_neg hgood]
    rfl

theorem tellg_shift :
    (s.shift p more).tellg = (s.tellg.1.map (· + p), s.tellg.2.shift p more) := by
  unfold tellg
  by_cases hgood : s.good = true
  · rw [shift_good, if_pos hgood, if_pos hgood]
    rfl
  · rw [shift_good, if_neg hgood, if_neg hgood]
    rfl

/-! ### Numbers -/

section

variable (hstop : ¬IsNumeric base stop)
include hstop

theorem isSpace_eq_false : isSpace stop = false :=
  Bool.eq_false_iff.mpr fun hspace => hstop (.inl hspace)

theorem skipws_shift (h : Fenced stop more s) :
    (s.shift p more).skipws = s.skipws.shift p more ∧ Fenced stop more s.skipws := by
  have hspaces : ((s.shift p more).rest.takeWhile isSpace) = s.rest.takeWhile isSpace :=
    h.takeWhile_eq (isSpace_eq_false hstop)
  have hwent : Went (s.rest.takeWhile isSpace) s
      (s.advance (s.rest.takeWhile isSpace).length) :=
    went_advance (takeWhile_append_dropWhile).symm
  have hfenced : Fenced stop more (s.advance (s.rest.takeWhile isSpace).length) := by
    apply h.of_went hwent
    intro hmem
    have hspace := mem_takeWhile_imp hmem
    rw [isSpace_eq_false hstop] at hspace
    cases hspace
  have hadvance : (s.shift p more).advance (s.rest.takeWhile isSpace).length =
      (s.advance (s.rest.takeWhile isSpace).length).shift p more :=
    advance_shift (List.takeWhile_prefix isSpace).length_le
  unfold skipws
  dsimp only
  rw [hspaces, hadvance]
  rcases @Fenced.rest_shift _ p _ _ hfenced with ⟨hnil, rfl⟩ | ⟨c, rest, hcons, hcons'⟩
  · rw [if_pos (by simp [shift, hnil]), if_pos hnil]
    exact ⟨rfl, hfenced⟩
  · rw [if_neg (by simp [hcons']), if_neg (by simp [hcons])]
    exact ⟨rfl, hfenced⟩

/-- Behind what a numeral has, a byte that it has not is still there. -/
theorem mem_drop_of_numeric (hmem : stop ∈ text)
    ( hprefix : taken <+: text) (htaken : ∀ c ∈ taken, IsNumeric base c) :
    stop ∈ text.drop taken.length := by
  rw [prefix_append_drop hprefix, mem_append] at hmem
  exact hmem.resolve_left fun hin => hstop (htaken stop hin)

/-- A numeral ends before a byte that no numeral has. -/
theorem numeral_append (hmem : stop ∈ text) : numeral base (text ++ more) = numeral base text := by
  have hsign : ((text ++ more).take 1).takeWhile (fun c => c = '-'.toUInt8 || c = '+'.toUInt8) =
      (text.take 1).takeWhile fun c => c = '-'.toUInt8 || c = '+'.toUInt8 := by
    obtain ⟨c, rest, rfl⟩ := exists_cons_of_ne_nil (ne_nil_of_mem hmem)
    simp
  obtain ⟨sign, hsigneq⟩ : ∃ sign, sign =
    (text.take 1).takeWhile fun c => c = '-'.toUInt8 || c = '+'.toUInt8 := ⟨_, rfl⟩
  have hprefix : sign <+: text := by
    rw [hsigneq]
    exact (List.takeWhile_prefix _).trans (List.take_prefix 1 text)
  have hsignNumeric : ∀ c ∈ sign, IsNumeric base c := by
    intro c hc
    rw [hsigneq] at hc
    have hc := mem_takeWhile_imp hc
    simp only [Bool.or_eq_true, decide_eq_true_eq] at hc
    exact .inr (hc.imp_right Or.inl)
  have hunsigned : stop ∈ text.drop sign.length := mem_drop_of_numeric hstop hmem hprefix hsignNumeric
  have hdrop : (text ++ more).drop sign.length = text.drop sign.length ++ more :=
    drop_append_of_le_length hprefix.length_le
  have hzero : IsNumeric base '0'.toUInt8 := Or.inr (.inr (.inr (.inr (.inr rfl))))
  -- a mark would be two bytes before the stop
  have hmark (x : UInt8) : (text.drop sign.length ++ more).take 2 = ['0'.toUInt8, x] ↔
      (text.drop sign.length).take 2 = ['0'.toUInt8, x] := by
    cases htail : text.drop sign.length with
    | nil => simp [htail] at hunsigned
    | cons c tail =>
      cases tail with
      | nil =>
        rw [htail, mem_singleton] at hunsigned
        have hne : c ≠ '0'.toUInt8 := fun heq => hstop (hunsigned ▸ heq ▸ hzero)
        simp [hne]
      | cons d tail => simp
  obtain ⟨mark, hmarkeq⟩ : ∃ mark, mark =
    if base = 16 ∧ ((text.drop sign.length).take 2 = ['0'.toUInt8, 'x'.toUInt8] ∨
      (text.drop sign.length).take 2 = ['0'.toUInt8, 'X'.toUInt8]) then
      (text.drop sign.length).take 2 else [] := ⟨_, rfl⟩
  have hsame : (if base = 16 ∧
      ((text.drop sign.length ++ more).take 2 = ['0'.toUInt8, 'x'.toUInt8] ∨
        (text.drop sign.length ++ more).take 2 = ['0'.toUInt8, 'X'.toUInt8]) then
      (text.drop sign.length ++ more).take 2 else []) = mark := by
    rw [hmarkeq]
    simp only [hmark]
    split
    · next hbase =>
      rcases hbase.2 with htake | htake
      · rw [htake, (hmark _).mpr htake]
      · rw [htake, (hmark _).mpr htake]
    · rfl
  have hmarkPrefix : mark <+: text.drop sign.length := by
    rw [hmarkeq]
    split
    · exact take_prefix _ _
    · exact nil_prefix
  have hmarkNumeric : ∀ c ∈ mark, IsNumeric base c := by
    rw [hmarkeq]
    split
    · next hbase =>
      have hx : IsNumeric base 'x'.toUInt8 := Or.inr (.inr (.inr (.inl rfl)))
      have hX : IsNumeric base 'X'.toUInt8 := Or.inr (.inr (.inr (.inr (.inl rfl))))
      rcases hbase.2 with htake | htake
      · rw [htake]
        simpa using ⟨hzero, hx⟩
      · rw [htake]
        simpa using ⟨hzero, hX⟩
    · exact nofun
  have hdigits := mem_drop_of_numeric hstop hunsigned hmarkPrefix hmarkNumeric
  have hnone : (digit base stop).isSome = false :=
    Bool.eq_false_iff.mpr fun hdigit =>
      hstop (.inr (.inr (.inr (.inr (.inr hdigit)))))
  have hrest : (text.drop sign.length ++ more).drop mark.length =
      (text.drop sign.length).drop mark.length ++ more :=
    drop_append_of_le_length hmarkPrefix.length_le
  simp only [numeral]
  rw [hsign, ← hsigneq, hdrop, hsame, ← hmarkeq, hrest,
    takeWhile_append_of_mem (f := fun c => (digit base c).isSome) hdigits hnone]

end

/-- A number that ends before the fence is the same number. -/
theorem extract_shift {α : Type} {convert : Int → Option α} (hstop : ¬IsNumeric base stop)
    (h : Fenced stop more s) :
    (s.shift p more).extract base convert =
      ((s.extract base convert).1, (s.extract base convert).2.shift p more) := by
  unfold extract
  by_cases hgood : s.good = true
  · obtain ⟨hskip, hfenced⟩ := @skipws_shift s p more stop base hstop h
    rw [shift_good, if_pos hgood, if_pos hgood, hskip]
    dsimp only
    rw [shift_fail]
    by_cases hfail : s.skipws.fail = true
    · rw [if_pos hfail, if_pos hfail]
    · rw [if_neg hfail, if_neg hfail]
      obtain ⟨taken, htaken, hlength, hnumeric⟩ := numeral_spec base s.skipws.rest
      have hnumeral : numeral base (s.skipws.shift p more).rest = numeral base s.skipws.rest := by
        rcases hfenced with hmem | rfl
        · exact numeral_append hstop hmem
        · rw [shift, append_nil]
      have hwent := went_advance htaken
      rw [hlength] at hwent
      have hle : (numeral base s.skipws.rest).length ≤ s.skipws.rest.length := by
        rw [← hlength, htaken, length_append]
        omega
      have hend := hfenced.of_went hwent fun hmem => hstop (hnumeric stop hmem)
      have hempty : ((s.skipws.advance (numeral base s.skipws.rest).length).shift p
          more).rest.isEmpty = (s.skipws.advance (numeral base s.skipws.rest).length).rest.isEmpty := by
        rcases @Fenced.rest_shift _ p _ _ hend with ⟨hnil, rfl⟩ | ⟨c, rest, hcons, hcons'⟩
        · simp [shift, hnil]
        · rw [hcons, hcons']
          rfl
      rw [hnumeral, advance_shift hle, hempty]
      split
      · rfl
      · split
        · rfl
        · rfl
  · rw [shift_good, if_neg hgood, if_neg hgood]
    rfl

end IStringStream
