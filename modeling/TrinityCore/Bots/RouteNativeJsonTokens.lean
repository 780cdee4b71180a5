import TrinityCore.Bots.RouteNativeJson
import TrinityCore.Lib.TextCursor

/-!
# Strings and numbers of the JSON reader

What the reader gives for a string or a number is what the grammar says, and what the grammar
derives the reader gives.
-/

namespace TrinityCore.Bots.RouteNativeJson

open List Option

open JsonText

/-- The text is refused. -/
def Refusal (stop : Stop) : Prop := ∃ error, stop = .fail error

/-- What an escaped code unit stands for: it is kept where it is plain ASCII. -/
def plainAscii (n : Nat) : Option (List UInt8) := if n < 0x80 then some [n.toUInt8] else none

variable {D : Type} {text rest : List UInt8} {pos : Nat}

theorem refuses {β : Type} {post : List UInt8 → β → Prop} (error : JsonError) :
    Reads Refusal text rest post (.error (.fail error)) := ⟨error, rfl⟩

theorem ok_bind {α β : Type} (a : α) (f : α → Except Stop β) : (Except.ok a >>= f) = f a := rfl

variable {c : UInt8} {s w bytes : List UInt8} {n fuel : Nat} {digits : Digits}

theorem byteAt_cursor (h : CursorAt text pos (c :: rest)) : byteAt text pos = .ok c := by
  unfold byteAt
  rw [h.getElem?]
  rfl

theorem consume_cons (h : CursorAt text pos (c :: rest)) : consume text c pos = some (pos + 1) := by
  unfold consume
  rw [h.getElem?]
  exact if_pos rfl

theorem consume_of_head?_ne (h : CursorAt text pos rest) (hne : rest.head? ≠ some c) :
    consume text c pos = none := by
  unfold consume
  rw [h.getElem?]
  exact if_neg hne

/-- What it means that a byte was consumed. -/
theorem consume_cases (h : CursorAt text pos rest) (c : UInt8) :
    (rest.head? ≠ some c ∧ consume text c pos = none) ∨
      ∃ rest', rest = c :: rest' ∧ consume text c pos = some (pos + 1) ∧
        CursorAt text (pos + 1) rest' := by
  by_cases hhead : rest.head? = some c
  · obtain ⟨rest', rfl⟩ := head?_eq_some_iff.mp hhead
    exact .inr ⟨rest', rfl, consume_cons h, h.tail⟩
  · exact .inl ⟨hhead, consume_of_head?_ne h hhead⟩

/-! ### Whitespace -/

theorem skipWhitespace_cursor (h : CursorAt text pos rest) :
    CursorAt text (skipWhitespace text pos) (rest.dropWhile isBlank) := h.takeWhile isBlank

theorem blank_takeWhile (rest : List UInt8) : Blank (rest.takeWhile isBlank) :=
  fun _ hc => mem_takeWhile_imp hc

/-- The text begins with no whitespace. -/
def Solid (s : List UInt8) : Prop := ∀ c, s.head? = some c → isBlank c = false

theorem dropWhile_blank (hw : Blank w) (hs : Solid s) : (w ++ s).dropWhile isBlank = s := by
  rw [dropWhile_append_of_pos hw]
  cases s with
  | nil => rfl
  | cons c s => exact dropWhile_cons_of_neg (by rw [hs c rfl]; exact Bool.false_ne_true)

theorem skipWhitespace_blank (h : CursorAt text pos (w ++ s)) (hw : Blank w) (hs : Solid s) :
    CursorAt text (skipWhitespace text pos) s := by
  have hskip := skipWhitespace_cursor h
  rwa [dropWhile_blank hw hs] at hskip

/-! ### Escapes -/

/-- The number that hexadecimal digits spell, behind those of `value`. -/
def hexNumber (value : Nat) : List UInt8 → Option Nat
  | [] => some value
  | h :: s =>
    match hexDigit h with
    | none => none
    | some d => hexNumber (value * 16 + d) s

theorem shift_or {value d : Nat} (h : d < 16) : value <<< 4 ||| d = value * 16 + d := by
  rw [← Nat.shiftLeft_add_eq_or_of_lt (i := 4) h, Nat.shiftLeft_eq]

theorem toNat_le {a b : Char} (h : a.toUInt8 ≤ c ∧ c ≤ b.toUInt8) :
    a.toUInt8.toNat ≤ c.toNat ∧ c.toNat ≤ b.toUInt8.toNat :=
  ⟨UInt8.le_iff_toNat_le.mp h.1, UInt8.le_iff_toNat_le.mp h.2⟩

theorem parseHex_cons (h : CursorAt text pos (c :: rest)) (count value : Nat) :
    parseHex text (count + 1) pos value =
      match hexDigit c with
      | none => .error (.fail .stringEscapeInvalid)
      | some d => parseHex text count (pos + 1) (value * 16 + d) := by
  have hnine : '9'.toUInt8.toNat = 57 := rfl
  have hf : 'f'.toUInt8.toNat = 102 := rfl
  have hF : 'F'.toUInt8.toNat = 70 := rfl
  have hzero : '0'.toNat = 48 := rfl
  have ha : 'a'.toNat = 97 := rfl
  have hA : 'A'.toNat = 65 := rfl
  rw [parseHex, byteAt_cursor h, ok_bind]
  dsimp only
  unfold hexDigit
  by_cases hdigit : '0'.toUInt8 ≤ c ∧ c ≤ '9'.toUInt8
  · have hle := toNat_le hdigit
    rw [if_pos hdigit, if_pos hdigit, shift_or (by omega)]
  · rw [if_neg hdigit, if_neg hdigit]
    by_cases hlower : 'a'.toUInt8 ≤ c ∧ c ≤ 'f'.toUInt8
    · have hle := toNat_le hlower
      rw [if_pos hlower, if_pos hlower, shift_or (by omega)]
    · rw [if_neg hlower, if_neg hlower]
      by_cases hupper : 'A'.toUInt8 ≤ c ∧ c ≤ 'F'.toUInt8
      · have hle := toNat_le hupper
        rw [if_pos hupper, if_pos hupper, shift_or (by omega)]
      · rw [if_neg hupper, if_neg hupper]

theorem parseHex_eq (value : Nat) (h : CursorAt text pos (s ++ rest)) :
    parseHex text s.length pos value =
      match hexNumber value s with
      | none => .error (.fail .stringEscapeInvalid)
      | some n => .ok (n, pos + s.length) := by
  induction s generalizing pos value with
  | nil => rfl
  | cons c s ih =>
    rw [length_cons, parseHex_cons h, hexNumber]
    cases hexDigit c with
    | none => rfl
    | some d =>
      dsimp only
      rw [ih _ h.tail, Nat.add_right_comm, Nat.add_assoc]

/-- Four hexadecimal digits. -/
theorem hexNumber_four {h₁ h₂ h₃ h₄ : UInt8} (h : hexNumber 0 [h₁, h₂, h₃, h₄] = some n) :
    ∃ d₁ d₂ d₃ d₄, hexDigit h₁ = some d₁ ∧ hexDigit h₂ = some d₂ ∧ hexDigit h₃ = some d₃ ∧
      hexDigit h₄ = some d₄ ∧ n = ((d₁ * 16 + d₂) * 16 + d₃) * 16 + d₄ := by
  unfold hexNumber at h
  split at h
  · cases h
  · next d₁ hd₁ =>
    unfold hexNumber at h
    split at h
    · cases h
    · next d₂ hd₂ =>
      unfold hexNumber at h
      split at h
      · cases h
      · next d₃ hd₃ =>
        unfold hexNumber at h
        split at h
        · cases h
        · next d₄ hd₄ =>
          refine ⟨d₁, d₂, d₃, d₄, hd₁, hd₂, hd₃, hd₄, ?_⟩
          have hn := some.inj h
          omega

theorem simpleEscape_eq_some {e : UInt8} : simpleEscape e = some c ↔ (e, c) ∈ escapes := by
  constructor
  · intro h
    unfold simpleEscape at h
    unfold escapes
    split_ifs at h with hquote hbackslash hslash hb hf hn hr ht
    all_goals
      subst e
      cases h
      simp
  · intro h
    unfold escapes at h
    simp only [mem_cons, Prod.mk.injEq, not_mem_nil, or_false] at h
    rcases h with h | h | h | h | h | h | h | h
    all_goals
      obtain ⟨rfl, rfl⟩ := h
      rfl

theorem exists_four (h : 4 ≤ s.length) : ∃ h₁ h₂ h₃ h₄ rest, s = h₁ :: h₂ :: h₃ :: h₄ :: rest := by
  match s, h with
  | h₁ :: h₂ :: h₃ :: h₄ :: rest, _ => exact ⟨h₁, h₂, h₃, h₄, rest, rfl⟩

theorem reads_parseEscape (h : CursorAt text pos rest) (out : List UInt8) :
    Reads Refusal text rest
      (fun s out' => ∃ bytes, out' = out ++ bytes ∧ SpellsEscape plainAscii s bytes)
      (parseEscape text pos out) := by
  unfold parseEscape
  split
  · exact refuses _
  · next hmore =>
    rw [h.length_le_iff] at hmore
    obtain ⟨e, rest, rfl⟩ := exists_cons_of_ne_nil hmore
    rw [byteAt_cursor h, ok_bind]
    dsimp only
    cases hsimple : simpleEscape e with
    | some c =>
      exact Reads.ok (s := [e]) rfl h.tail ⟨[c], rfl, .simple (simpleEscape_eq_some.mp hsimple)⟩
    | none =>
      dsimp only
      split
      · next hu =>
        subst hu
        split
        · exact refuses _
        · next hfour =>
          have hlength := h.tail.length
          obtain ⟨h₁, h₂, h₃, h₄, rest, rfl⟩ := exists_four (s := rest) (by omega)
          have hhex := parseHex_eq (s := [h₁, h₂, h₃, h₄]) 0 h.tail
          rw [show 4 = [h₁, h₂, h₃, h₄].length from rfl, hhex]
          cases hnumber : hexNumber 0 [h₁, h₂, h₃, h₄] with
          | none => exact refuses _
          | some n =>
            dsimp only
            rw [ok_bind]
            dsimp only
            split
            · exact refuses _
            · next hascii =>
              obtain ⟨d₁, d₂, d₃, d₄, hd₁, hd₂, hd₃, hd₄, rfl⟩ := hexNumber_four hnumber
              have hend := h.tail.advance (s := [h₁, h₂, h₃, h₄])
              refine Reads.ok (s := ['u'.toUInt8, h₁, h₂, h₃, h₄]) rfl hend ⟨_, rfl, ?_⟩
              exact .unicode hd₁ hd₂ hd₃ hd₄ (if_pos (by omega))
      · exact refuses _

theorem plainAscii_eq_some (h : plainAscii n = some bytes) : n < 0x80 ∧ bytes = [n.toUInt8] := by
  unfold plainAscii at h
  split at h
  · next hlt => exact ⟨hlt, (some.inj h).symm⟩
  · cases h

theorem gives_parseEscape {e : List UInt8} (he : SpellsEscape plainAscii e bytes)
    (h : CursorAt text pos (e ++ rest)) (out : List UInt8) :
    Gives text rest (out ++ bytes) (parseEscape text pos out) := by
  have hmore : ¬text.length ≤ pos := by
    rw [h.length_le_iff]
    cases he with
    | simple hsimple => exact cons_ne_nil _ _
    | unicode => exact cons_ne_nil _ _
  unfold parseEscape
  rw [if_neg hmore]
  cases he with
  | simple hsimple =>
    rw [byteAt_cursor h, ok_bind]
    dsimp only
    rw [simpleEscape_eq_some.mpr hsimple]
    exact Gives.ok h.tail
  | @unicode h₁ h₂ h₃ h₄ d₁ d₂ d₃ d₄ bytes hd₁ hd₂ hd₃ hd₄ hdecode =>
    obtain ⟨hascii, rfl⟩ := plainAscii_eq_some hdecode
    have hlength := h.length
    have hnumber : hexNumber 0 [h₁, h₂, h₃, h₄] =
        some (((d₁ * 16 + d₂) * 16 + d₃) * 16 + d₄) := by
      simp only [hexNumber, hd₁, hd₂, hd₃, hd₄, Nat.zero_mul, Nat.zero_add]
    have hhex := parseHex_eq (s := [h₁, h₂, h₃, h₄]) 0 h.tail
    rw [byteAt_cursor h, ok_bind]
    dsimp only
    rw [show simpleEscape 'u'.toUInt8 = none from rfl]
    dsimp only
    rw [if_pos rfl, if_neg (by simp only [length_cons, length_append] at hlength; omega),
      show 4 = [h₁, h₂, h₃, h₄].length from rfl, hhex, hnumber]
    dsimp only
    rw [ok_bind]
    dsimp only
    rw [if_neg (by omega)]
    exact Gives.ok (h.tail.advance (s := [h₁, h₂, h₃, h₄]))

/-! ### Strings -/

/-- The loop reads the byte that is next. -/
theorem parseCharacters_cons (h : CursorAt text pos (c :: rest)) (fuel : Nat) (out : List UInt8) :
    parseCharacters text (fuel + 1) pos out =
      if c = quote then .ok (out, pos + 1)
      else if c < 0x20 then .error (.fail .stringControlCharacter)
      else if c ≠ backslash then parseCharacters text fuel (pos + 1) (out ++ [c])
      else parseEscape text (pos + 1) out >>= fun read =>
        parseCharacters text fuel read.2 read.1 := by
  have hmore : ¬text.length ≤ pos := by
    rw [h.length_le_iff]
    exact cons_ne_nil _ _
  rw [parseCharacters, if_neg hmore, byteAt_cursor h]
  rfl

theorem reads_parseCharacters (fuel : Nat) (h : CursorAt text pos rest)
    (hfuel : rest.length + 1 ≤ fuel) (out : List UInt8) :
    Reads Refusal text rest
      (fun s out' => ∃ chars bytes, s = chars ++ [quote] ∧ out' = out ++ bytes ∧
        SpellsCharacters plainAscii chars bytes)
      (parseCharacters text fuel pos out) := by
  induction fuel generalizing pos rest out with
  | zero => omega
  | succ fuel ih =>
    cases rest with
    | nil =>
      rw [parseCharacters, if_pos (h.length_le_iff.mpr rfl)]
      exact refuses _
    | cons c rest =>
      rw [length_cons] at hfuel
      rw [parseCharacters_cons h]
      split
      · next hquote =>
        exact Reads.ok (s := [c]) rfl h.tail
          ⟨[], [], by rw [hquote]; rfl, (append_nil _).symm, .nil⟩
      · next hquote =>
        split
        · exact refuses _
        · next hcontrol =>
          split
          · next hbackslash =>
            refine Reads.behind (s := [c]) ?_ rfl
            refine (ih h.tail (by omega) (out ++ [c])).imp ?_
            rintro s out' ⟨chars, bytes, rfl, rfl, hchars⟩
            refine ⟨c :: chars, c :: bytes, rfl, ?_, ?_⟩
            · rw [append_assoc]
              rfl
            · exact .unescaped (UInt8.not_lt.mp hcontrol) hquote hbackslash hchars
          · next hbackslash =>
            have hc : c = backslash := not_not.mp hbackslash
            subst hc
            refine Reads.behind (s := [backslash]) ?_ rfl
            refine (reads_parseEscape h.tail out).bind ?_
            rintro e out' pos' rest' rfl hpos ⟨bytes, rfl, hescape⟩
            rw [length_append] at hfuel
            refine (ih hpos (by omega) (out ++ bytes)).imp ?_
            rintro s out' ⟨chars, bytes', rfl, rfl, hchars⟩
            refine ⟨backslash :: (e ++ chars), bytes ++ bytes', ?_, ?_, .escaped hescape hchars⟩
            · simp
            · rw [append_assoc]

theorem gives_parseCharacters {chars : List UInt8}
    (hchars : SpellsCharacters plainAscii chars bytes)
    (h : CursorAt text pos (chars ++ quote :: rest)) (hfuel : chars.length + 1 ≤ fuel)
    (out : List UInt8) : Gives text rest (out ++ bytes) (parseCharacters text fuel pos out) := by
  induction hchars generalizing fuel pos out with
  | nil =>
    obtain ⟨fuel, rfl⟩ := Nat.exists_eq_add_one_of_ne_zero (n := fuel) (by omega)
    rw [parseCharacters_cons h, if_pos rfl, append_nil]
    exact Gives.ok h.tail
  | @unescaped c s bytes hcontrol hquote hbackslash hrest ih =>
    obtain ⟨fuel, rfl⟩ := Nat.exists_eq_add_one_of_ne_zero (n := fuel) (by omega)
    rw [parseCharacters_cons h, if_neg hquote, if_neg (UInt8.not_lt.mpr hcontrol), if_pos hbackslash]
    rw [length_cons] at hfuel
    have hgives := ih h.tail (Nat.le_of_succ_le_succ hfuel) (out ++ [c])
    rwa [append_assoc] at hgives
  | @escaped e s bytes text' hescape hrest ih =>
    obtain ⟨fuel, rfl⟩ := Nat.exists_eq_add_one_of_ne_zero (n := fuel) (by omega)
    rw [parseCharacters_cons h, if_neg (by decide), if_neg (by decide), if_neg (by decide)]
    rw [length_cons, length_append] at hfuel
    have htail : CursorAt text (pos + 1) (e ++ (s ++ quote :: rest)) := by
      rw [← append_assoc]
      exact h.tail
    refine (gives_parseEscape hescape htail out).bind fun pos' hpos => ?_
    have hfuel' : s.length + 1 ≤ fuel := by omega
    have hgives := ih hpos hfuel' (out ++ bytes)
    rwa [append_assoc] at hgives

theorem reads_parseString (h : CursorAt text pos rest) (hfuel : rest.length ≤ fuel) :
    Reads Refusal text rest (SpellsString plainAscii) (parseString text fuel pos) := by
  unfold parseString
  obtain ⟨hhead, hconsume⟩ | ⟨rest, rfl, hconsume, hpos⟩ := consume_cases h quote
  · rw [hconsume]
    exact refuses _
  · rw [hconsume]
    refine Reads.behind (s := [quote]) ?_ rfl
    refine (reads_parseCharacters fuel hpos hfuel []).imp ?_
    rintro s out ⟨chars, bytes, rfl, rfl, hchars⟩
    exact ⟨chars, rfl, hchars⟩

theorem gives_parseString (hs : SpellsString plainAscii s bytes) (h : CursorAt text pos (s ++ rest))
    (hfuel : s.length ≤ fuel) : Gives text rest bytes (parseString text fuel pos) := by
  obtain ⟨chars, rfl, hchars⟩ := hs
  rw [length_cons, length_append, length_singleton] at hfuel
  unfold parseString
  rw [consume_cons h]
  have htail : CursorAt text (pos + 1) (chars ++ quote :: rest) := by
    rw [← singleton_append, ← append_assoc]
    exact h.tail
  exact gives_parseCharacters hchars htail (by omega) []

/-! ### Numbers -/

/-- The text begins with no digit. -/
def NoDigit (s : List UInt8) : Prop := ∀ c, s.head? = some c → isDigit c = false

/-- A number that ends before the text goes no further. -/
structure Stops (s : List UInt8) : Prop where
  noDigit : NoDigit s
  noPoint : s.head? ≠ some '.'.toUInt8
  noLower : s.head? ≠ some 'e'.toUInt8
  noUpper : s.head? ≠ some 'E'.toUInt8

theorem takeWhile_digits (hs : ∀ c ∈ s, isDigit c = true) (hrest : NoDigit rest) :
    (s ++ rest).takeWhile isDigit = s := by
  rw [takeWhile_append_of_pos hs]
  cases rest with
  | nil => rw [takeWhile_nil, append_nil]
  | cons c rest =>
    rw [takeWhile_cons_of_neg (by rw [hrest c rfl]; exact Bool.false_ne_true), append_nil]

/-- The loop over digits comes to one at least, or stays where it is. -/
theorem scan_cases (h : CursorAt text pos rest) :
    scan text isDigit pos = pos ∨ ∃ (digits : Digits) (rest' : List UInt8),
      rest = digits.1 ++ rest' ∧ scan text isDigit pos = pos + digits.1.length ∧
        CursorAt text (scan text isDigit pos) rest' := by
  have hscan : CursorAt text (scan text isDigit pos) (rest.dropWhile isDigit) := h.takeWhile isDigit
  by_cases hnil : rest.takeWhile isDigit = []
  · left
    unfold scan
    rw [h.drop, hnil]
    rfl
  · right
    refine ⟨⟨rest.takeWhile isDigit, hnil, fun _ hc => mem_takeWhile_imp hc⟩,
      rest.dropWhile isDigit, (takeWhile_append_dropWhile).symm, ?_, hscan⟩
    unfold scan
    rw [h.drop]

theorem scan_digits (h : CursorAt text pos (digits.1 ++ rest)) (hrest : NoDigit rest) :
    scan text isDigit pos = pos + digits.1.length := by
  unfold scan
  rw [h.drop, takeWhile_digits digits.2.2 hrest]

theorem scan_ne (h : CursorAt text pos (digits.1 ++ rest)) (hrest : NoDigit rest) :
    scan text isDigit pos ≠ pos := by
  rw [scan_digits h hrest]
  have hlength := length_pos_iff.mpr digits.2.1
  omega

theorem reads_parseFraction (h : CursorAt text pos rest) :
    Reads Refusal text rest
      (fun s without => ∃ fraction, s = fractionText fraction ∧ without = fraction.isNone)
      (parseFraction text pos) := by
  unfold parseFraction
  rw [h.getElem?]
  split
  · next hpoint =>
    obtain ⟨rest, rfl⟩ := head?_eq_some_iff.mp hpoint
    dsimp only
    obtain hstay | ⟨digits, rest, rfl, -, hpos⟩ := scan_cases h.tail
    · rw [if_pos hstay]
      exact refuses _
    · split
      · exact refuses _
      · exact Reads.ok (s := '.'.toUInt8 :: digits.1) rfl hpos ⟨some digits, rfl, rfl⟩
  · exact Reads.ok (s := []) rfl h ⟨none, rfl, rfl⟩

theorem gives_parseFraction {fraction : Option Digits}
    (h : CursorAt text pos (fractionText fraction ++ rest)) (hdigit : NoDigit rest)
    (hpoint : rest.head? ≠ some '.'.toUInt8) :
    Gives text rest fraction.isNone (parseFraction text pos) := by
  unfold parseFraction
  rw [h.getElem?]
  cases fraction with
  | none =>
    have hhead : (fractionText none ++ rest).head? ≠ some '.'.toUInt8 := hpoint
    rw [if_neg hhead]
    exact Gives.ok h
  | some digits =>
    have hhead : (fractionText (some digits) ++ rest).head? = some '.'.toUInt8 := rfl
    rw [if_pos hhead]
    dsimp only
    rw [if_neg (scan_ne h.tail hdigit), scan_digits h.tail hdigit]
    exact Gives.ok h.tail.advance

/-- The optional sign of an exponent. -/
theorem exponentSign_cases (h : CursorAt text pos rest) :
    ∃ sign rest', rest = exponentSign sign ++ rest' ∧
      CursorAt text
        (if text[pos]? = some '+'.toUInt8 ∨ text[pos]? = some '-'.toUInt8 then pos + 1 else pos)
        rest' := by
  rw [h.getElem?]
  split
  · next hsign =>
    cases hsign with
    | inl hplus =>
      obtain ⟨rest, rfl⟩ := head?_eq_some_iff.mp hplus
      exact ⟨some false, rest, rfl, h.tail⟩
    | inr hminus =>
      obtain ⟨rest, rfl⟩ := head?_eq_some_iff.mp hminus
      exact ⟨some true, rest, rfl, h.tail⟩
  · exact ⟨none, rest, rfl, h⟩

theorem isDigit_plus : isDigit '+'.toUInt8 = false := by decide

theorem isDigit_minus : isDigit '-'.toUInt8 = false := by decide

theorem head?_digits (s : List UInt8) (hc : isDigit c = false) :
    (digits.1 ++ s).head? ≠ some c := by
  obtain ⟨d, rest, hrest⟩ := exists_cons_of_ne_nil digits.2.1
  rw [hrest]
  intro heq
  have hd : d = c := some.inj heq
  have hdigit := digits.2.2 d (hrest ▸ mem_cons_self)
  rw [hd, hc] at hdigit
  exact Bool.false_ne_true hdigit

theorem exponentSign_cursor {sign : Option Bool}
    (h : CursorAt text pos (exponentSign sign ++ (digits.1 ++ rest))) :
    CursorAt text
      (if text[pos]? = some '+'.toUInt8 ∨ text[pos]? = some '-'.toUInt8 then pos + 1 else pos)
      (digits.1 ++ rest) := by
  rw [h.getElem?]
  match sign with
  | none =>
    have hhead : ¬((exponentSign none ++ (digits.1 ++ rest)).head? = some '+'.toUInt8 ∨
        (exponentSign none ++ (digits.1 ++ rest)).head? = some '-'.toUInt8) :=
      not_or.mpr ⟨head?_digits rest isDigit_plus, head?_digits rest isDigit_minus⟩
    rw [if_neg hhead]
    exact h
  | some true =>
    have hhead : (exponentSign (some true) ++ (digits.1 ++ rest)).head? = some '-'.toUInt8 := rfl
    rw [if_pos (Or.inr hhead)]
    exact h.tail
  | some false =>
    have hhead : (exponentSign (some false) ++ (digits.1 ++ rest)).head? = some '+'.toUInt8 := rfl
    rw [if_pos (Or.inl hhead)]
    exact h.tail

theorem reads_parseExponent (h : CursorAt text pos rest) :
    Reads Refusal text rest
      (fun s without => ∃ exponent, s = exponentText exponent ∧ without = exponent.isNone)
      (parseExponent text pos) := by
  unfold parseExponent
  rw [h.getElem?]
  split
  · next hmarker =>
    obtain ⟨upper, rest, rfl⟩ : ∃ (upper : Bool) (rest' : List UInt8),
        rest = (if upper then 'E'.toUInt8 else 'e'.toUInt8) :: rest' := by
      cases hmarker with
      | inl hlower =>
        obtain ⟨rest, rfl⟩ := head?_eq_some_iff.mp hlower
        exact ⟨false, rest, rfl⟩
      | inr hupper =>
        obtain ⟨rest, rfl⟩ := head?_eq_some_iff.mp hupper
        exact ⟨true, rest, rfl⟩
    dsimp only
    obtain ⟨sign, rest, rfl, hsign⟩ := exponentSign_cases h.tail
    generalize (if text[pos + 1]? = some '+'.toUInt8 ∨ text[pos + 1]? = some '-'.toUInt8 then
      pos + 1 + 1 else pos + 1) = exponentStart at hsign ⊢
    by_cases hstay : scan text isDigit exponentStart = exponentStart
    · rw [if_pos hstay]
      exact refuses _
    · obtain ⟨digits, rest, rfl, -, hpos⟩ := (scan_cases hsign).resolve_left hstay
      rw [if_neg hstay]
      refine Reads.ok (s := Exponent.text ⟨upper, sign, digits⟩) ?_ hpos
        ⟨some ⟨upper, sign, digits⟩, rfl, rfl⟩
      simp [Exponent.text]
  · exact Reads.ok (s := []) rfl h ⟨none, rfl, rfl⟩

theorem gives_parseExponent {exponent : Option Exponent}
    (h : CursorAt text pos (exponentText exponent ++ rest)) (hstops : Stops rest) :
    Gives text rest exponent.isNone (parseExponent text pos) := by
  unfold parseExponent
  rw [h.getElem?]
  cases exponent with
  | none =>
    have hhead : ¬((exponentText none ++ rest).head? = some 'e'.toUInt8 ∨
        (exponentText none ++ rest).head? = some 'E'.toUInt8) :=
      not_or.mpr ⟨hstops.noLower, hstops.noUpper⟩
    rw [if_neg hhead]
    exact Gives.ok h
  | some e =>
    have hhead : (exponentText (some e) ++ rest).head? = some 'e'.toUInt8 ∨
        (exponentText (some e) ++ rest).head? = some 'E'.toUInt8 := by
      cases hupper : e.upper with
      | false => exact Or.inl (by simp [exponentText, Exponent.text, hupper])
      | true => exact Or.inr (by simp [exponentText, Exponent.text, hupper])
    have htail : CursorAt text (pos + 1) (exponentSign e.sign ++ (e.digits.1 ++ rest)) := by
      rw [← append_assoc]
      exact h.tail
    have hsign := exponentSign_cursor htail
    rw [if_pos hhead]
    dsimp only
    rw [if_neg (scan_ne hsign hstops.noDigit), scan_digits hsign hstops.noDigit]
    exact Gives.ok hsign.advance

/-- What a literal is converted to, where `toDouble` is the conversion of its number. -/
def numberOf (toDouble : Decimal → D) (d : Decimal) : Number D where
  number := toDouble d
  integral := d.integral
  negative := d.negative

theorem signOf_cases (h : CursorAt text pos rest) :
    ∃ (negative : Bool) (rest' : List UInt8), rest = signOf negative ++ rest' ∧
      decide (text[pos]? = some '-'.toUInt8) = negative ∧
      CursorAt text (if negative then pos + 1 else pos) rest' := by
  rw [h.getElem?]
  by_cases hminus : rest.head? = some '-'.toUInt8
  · obtain ⟨rest, rfl⟩ := head?_eq_some_iff.mp hminus
    exact ⟨true, rest, rfl, decide_eq_true rfl, h.tail⟩
  · exact ⟨false, rest, rfl, decide_eq_false hminus, h⟩

/-- The number from its first digit on. -/
def parseUnsigned (strtod : List UInt8 → D) (text : List UInt8) (start digitsStart pos : Nat)
    (negative : Bool) : Except Stop (Value D × Nat) :=
  byteAt text digitsStart >>= fun c =>
    if c = '0'.toUInt8 ∧ 1 < pos - digitsStart then .error (.fail .numberLeadingZero)
    else parseFraction text pos >>= fun fraction =>
      parseExponent text fraction.2 >>= fun exponent =>
        .ok (.number {
          number := strtod ((text.drop start).take (exponent.2 - start))
          integral := fraction.1 && exponent.1
          negative := negative }, exponent.2)

theorem parseNumber_eq (strtod : List UInt8 → D) {start digitsStart : Nat} {negative : Bool}
    (hnegative : decide (text[start]? = some '-'.toUInt8) = negative)
    (hdigits : (if negative then start + 1 else start) = digitsStart) :
    parseNumber strtod text start =
      if scan text isDigit digitsStart = digitsStart then .error (.fail .numberInvalid)
      else parseUnsigned strtod text start digitsStart (scan text isDigit digitsStart) negative := by
  subst hdigits
  subst hnegative
  rfl

theorem reads_parseNumber {strtod : List UInt8 → D} {toDouble : Decimal → D}
    (hstrtod : ∀ d : Decimal, strtod d.text = toDouble d) (h : CursorAt text pos rest) :
    Reads Refusal text rest
      (fun s value => ∃ d : Decimal, s = d.text ∧ value = .number (numberOf toDouble d))
      (parseNumber strtod text pos) := by
  obtain ⟨negative, rest, rfl, hnegative, hsign⟩ := signOf_cases h
  rw [parseNumber_eq strtod hnegative rfl]
  generalize (if negative then pos + 1 else pos) = digitsStart at hsign ⊢
  by_cases hstay : scan text isDigit digitsStart = digitsStart
  · rw [if_pos hstay]
    exact refuses _
  · obtain ⟨whole, rest, rfl, hscan, hpos⟩ := (scan_cases hsign).resolve_left hstay
    rw [if_neg hstay, hscan]
    rw [hscan] at hpos
    unfold parseUnsigned
    obtain ⟨c, digits, hwhole⟩ := exists_cons_of_ne_nil whole.2.1
    have hbyte : byteAt text digitsStart = .ok c := by
      rw [hwhole] at hsign
      exact byteAt_cursor hsign
    rw [hbyte, ok_bind]
    split
    · exact refuses _
    · next hzero =>
      have hleading : whole.1.head? = some '0'.toUInt8 → whole.1.length = 1 := by
        rw [hwhole, head?_cons, length_cons]
        intro hc
        have hlength : ¬1 < digitsStart + whole.1.length - digitsStart :=
          fun hlt => hzero ⟨some.inj hc, hlt⟩
        rw [hwhole, length_cons] at hlength
        omega
      refine Reads.behind (s := signOf negative ++ whole.1) ?_ (append_assoc _ _ _).symm
      refine (reads_parseFraction hpos).bind ?_
      rintro s₁ without pos₁ rest₁ rfl hpos₁ ⟨fraction, rfl, rfl⟩
      refine (reads_parseExponent hpos₁).bind ?_
      rintro s₂ without pos₂ rest₂ rfl hpos₂ ⟨exponent, rfl, rfl⟩
      have hcursor : CursorAt text pos ((signOf negative ++ (whole.1 ++
          (fractionText fraction ++ exponentText exponent))) ++ rest₂) := by
        simpa only [append_assoc] using h
      dsimp only
      rw [hcursor.take_eq hpos₂]
      refine Reads.ok (s := []) rfl hpos₂ ⟨⟨negative, whole, hleading, fraction, exponent⟩, ?_, ?_⟩
      · rw [append_nil, append_assoc]
        rfl
      · have hvalue := hstrtod ⟨negative, whole, hleading, fraction, exponent⟩
        unfold Decimal.text at hvalue
        rw [hvalue]
        rfl

theorem signOf_cursor {negative : Bool}
    (h : CursorAt text pos (signOf negative ++ (digits.1 ++ rest))) :
    decide (text[pos]? = some '-'.toUInt8) = negative ∧
      CursorAt text (if negative then pos + 1 else pos) (digits.1 ++ rest) := by
  rw [h.getElem?]
  cases negative with
  | false => exact ⟨decide_eq_false (head?_digits rest isDigit_minus), h⟩
  | true => exact ⟨decide_eq_true rfl, h.tail⟩

theorem noDigit_exponentText (exponent : Option Exponent) (hstops : Stops rest) :
    NoDigit (exponentText exponent ++ rest) ∧
      (exponentText exponent ++ rest).head? ≠ some '.'.toUInt8 := by
  cases exponent with
  | none => exact ⟨hstops.noDigit, hstops.noPoint⟩
  | some e =>
    have hhead : (exponentText (some e) ++ rest).head? =
      some (if e.upper then 'E'.toUInt8 else 'e'.toUInt8) := rfl
    refine ⟨fun c hc => ?_, ?_⟩
    · rw [hhead] at hc
      rw [← some.inj hc]
      cases e.upper with
      | false => decide
      | true => decide
    · rw [hhead]
      cases e.upper with
      | false => decide
      | true => decide

theorem noDigit_fractionText (fraction : Option Digits) (hrest : NoDigit rest) :
    NoDigit (fractionText fraction ++ rest) := by
  cases fraction with
  | none => exact hrest
  | some digits =>
    intro c hc
    have hpoint : c = '.'.toUInt8 := (some.inj hc).symm
    rw [hpoint]
    decide

theorem gives_parseNumber {strtod : List UInt8 → D} {toDouble : Decimal → D}
    (hstrtod : ∀ d : Decimal, strtod d.text = toDouble d) {d : Decimal}
    (h : CursorAt text pos (d.text ++ rest)) (hstops : Stops rest) :
    Gives text rest (.number (numberOf toDouble d)) (parseNumber strtod text pos) := by
  obtain ⟨negative, whole, hleading, fraction, exponent⟩ := d
  have hcursor := h
  unfold Decimal.text at hcursor
  dsimp only at hcursor
  have hsign : CursorAt text pos (signOf negative ++ (whole.1 ++ (fractionText fraction ++
      (exponentText exponent ++ rest)))) := by
    simpa only [append_assoc] using hcursor
  obtain ⟨hexponent, hpoint⟩ := noDigit_exponentText exponent hstops
  have hfraction := noDigit_fractionText fraction hexponent
  obtain ⟨hnegative, hdigits⟩ := signOf_cursor hsign
  rw [parseNumber_eq strtod hnegative rfl]
  generalize (if negative then pos + 1 else pos) = digitsStart at hdigits ⊢
  rw [if_neg (scan_ne hdigits hfraction), scan_digits hdigits hfraction]
  unfold parseUnsigned
  obtain ⟨c, digits, hwhole⟩ := exists_cons_of_ne_nil whole.2.1
  have hbyte : byteAt text digitsStart = .ok c := by
    have hfirst := hdigits
    rw [hwhole] at hfirst
    exact byteAt_cursor hfirst
  have hzero : ¬(c = '0'.toUInt8 ∧ 1 < digitsStart + whole.1.length - digitsStart) := by
    rintro ⟨rfl, hlt⟩
    have hlength := hleading (by rw [hwhole]; rfl)
    omega
  rw [hbyte, ok_bind, if_neg hzero]
  refine (gives_parseFraction hdigits.advance hexponent hpoint).bind fun pos₁ hpos₁ => ?_
  refine (gives_parseExponent hpos₁ hstops).bind fun pos₂ hpos₂ => ?_
  dsimp only
  rw [hcursor.take_eq hpos₂]
  have hvalue := hstrtod ⟨negative, whole, hleading, fraction, exponent⟩
  unfold Decimal.text at hvalue
  rw [hvalue]
  exact Gives.ok hpos₂

end TrinityCore.Bots.RouteNativeJson
