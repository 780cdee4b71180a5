import TrinityCore.Encoding.BaseEncoding

/-!
# What encoding writes

The characters of an encoded text spell the bits of the data, filled up with zeros to a whole
number of characters. Then comes padding until the cursor is at the end of a byte.
-/

namespace TrinityCore.Encoding.BaseEncoding

open List

open BitString

variable (e : BaseEncoding)

/-! ### The cursor -/

/-- The cursor after `m` characters. -/
def cursor (m : Nat) : Nat := 8 - e.bitsPerChar * m % 8

/-- `m` characters end at the end of a byte. -/
def Aligned (m : Nat) : Prop := e.bitsPerChar * m % 8 = 0

instance (m : Nat) : Decidable (e.Aligned m) := inferInstanceAs (Decidable (_ = _))

/-- None of the first `k` padding characters after `m` characters comes at the end of a byte. -/
def Fits (m k : Nat) : Prop := ∀ q < k, ¬ e.Aligned (m + q)

theorem cursor_eq_iff (m : Nat) : e.cursor m = 8 ↔ e.Aligned m := by
  unfold cursor Aligned
  omega

theorem skipChar_cursor (m : Nat) : e.skipChar (e.cursor m) = e.cursor (m + 1) := by
  have hpos := e.pos
  have hlt := e.lt
  have hnext : e.bitsPerChar * (m + 1) = e.bitsPerChar * m + e.bitsPerChar := Nat.mul_succ _ _
  unfold skipChar cursor
  rw [hnext]
  split <;> omega

/-- Eight padding characters reach the end of a byte. -/
theorem exists_aligned (m : Nat) : ∃ q < 8, e.Aligned (m + q) := by
  refine ⟨(8 - m % 8) % 8, by omega, ?_⟩
  have hdvd : 8 ∣ m + (8 - m % 8) % 8 := by omega
  exact Nat.mod_eq_zero_of_dvd (Nat.dvd_mul_left_of_dvd hdvd _)

variable {e}

theorem fits_zero (m : Nat) : e.Fits m 0 := by
  intro q hq
  omega

variable {k m bitsLeft : Nat}

theorem fits_succ : e.Fits m (k + 1) ↔ ¬ e.Aligned m ∧ e.Fits (m + 1) k := by
  constructor
  · intro h
    constructor
    · exact h 0 (Nat.succ_pos k)
    · intro q hq
      rw [Nat.add_right_comm]
      exact h (q + 1) (Nat.succ_lt_succ hq)
  · rintro ⟨hzero, h⟩ q hq
    cases q with
    | zero => exact hzero
    | succ q =>
      have hnext := h q (Nat.lt_of_succ_lt_succ hq)
      rwa [Nat.add_right_comm] at hnext

/-- The padding ends where the cursor first is at the end of a byte. -/
theorem padLoop_cursor {fuel : Nat} (h : ∃ q < fuel, e.Aligned (m + q)) :
    ∃ p, e.padLoop fuel (e.cursor m) = some (replicate p padding) ∧ e.Fits m p ∧
      e.Aligned (m + p) := by
  induction fuel generalizing m with
  | zero =>
    obtain ⟨q, hq, _⟩ := h
    omega
  | succ fuel ih =>
    by_cases hm : e.Aligned m
    · refine ⟨0, ?_, fits_zero m, hm⟩
      rw [padLoop, if_neg (not_not.mpr ((e.cursor_eq_iff m).mpr hm))]
      rfl
    · have hnext : ∃ q < fuel, e.Aligned (m + 1 + q) := by
        obtain ⟨q, hq, hal⟩ := h
        cases q with
        | zero => exact absurd hal hm
        | succ q => exact ⟨q, by omega, by rwa [Nat.add_right_comm]⟩
      obtain ⟨p, hp, hfits, hal⟩ := ih hnext
      refine ⟨p + 1, ?_, fits_succ.mpr ⟨hm, hfits⟩, by rwa [Nat.add_right_comm] at hal⟩
      rw [padLoop, if_pos fun h8 => hm ((e.cursor_eq_iff m).mp h8), skipChar_cursor, hp]
      rfl

/-! ### The values of the characters -/

/-- The loop over the data writes its bits, and `k` zeros after them. -/
structure Writes (e : BaseEncoding) (bits : List Bool) (out : List UInt8 × Nat) : Prop where
  small : ∀ v ∈ out.1, v.toNat < 2 ^ e.bitsPerChar
  filled : ∃ k < e.bitsPerChar, out.2 + k = 8 ∧
    wordsBits e.bitsPerChar out.1 = bits ++ replicate k false

/-- One character before others. -/
theorem Writes.cons {bits more : List Bool} {out : List UInt8 × Nat} (h : e.Writes more out)
    {v : UInt8} (hv : v.toNat < 2 ^ e.bitsPerChar)
    (hbits : bits = natBits e.bitsPerChar v.toNat ++ more) :
    e.Writes bits (v :: out.1, out.2) := by
  obtain ⟨hsmall, k, hk, hend, hwords⟩ := h
  constructor
  · exact forall_mem_cons.mpr ⟨hv, hsmall⟩
  · refine ⟨k, hk, hend, ?_⟩
    rw [wordsBits_cons, hwords, hbits, append_assoc]

/-- The last character. -/
theorem writes_singleton {bits : List Bool} {v : UInt8} (hk : k < e.bitsPerChar)
    (hend : bitsLeft + k = 8) (hv : v.toNat < 2 ^ e.bitsPerChar)
    (hbits : natBits e.bitsPerChar v.toNat = bits ++ replicate k false) :
    e.Writes bits ([v], bitsLeft) := by
  constructor
  · exact forall_mem_singleton.mpr hv
  · refine ⟨k, hk, hend, ?_⟩
    rw [wordsBits_cons, wordsBits_nil, append_nil, hbits]

/-- A byte of a number below `2 ^ n` is that number. -/
theorem toNat_ofNat_of_lt_two_pow {n v : Nat} (hn : n ≤ 8) (hv : v < 2 ^ n) :
    (UInt8.ofNat v).toNat = v :=
  UInt8.toNat_ofNat_of_lt (Nat.lt_of_lt_of_le hv (Nat.pow_le_pow_right (by decide) hn))

theorem innerChar_lt (e : BaseEncoding) (byte : UInt8) (left : Nat) :
    (e.innerChar byte left).toNat < 2 ^ e.bitsPerChar := by
  rw [innerChar, Nat.one_shiftLeft, Nat.and_two_pow_sub_one_eq_mod,
    toNat_ofNat_of_lt_two_pow e.lt.le (Nat.mod_lt _ (Nat.two_pow_pos _))]
  exact Nat.mod_lt _ (Nat.two_pow_pos _)

theorem natBits_innerChar (e : BaseEncoding) (byte : UInt8) (left : Nat) :
    natBits e.bitsPerChar (e.innerChar byte left).toNat ++ natBits left byte.toNat =
      natBits (e.bitsPerChar + left) byte.toNat := by
  rw [innerChar, natBits_toNat_ofNat e.lt.le, Nat.one_shiftLeft, Nat.and_two_pow_sub_one_eq_mod,
    natBits_mod, natBits_add]

theorem toNat_firstPart (e : BaseEncoding) (byte : UInt8) (h : bitsLeft < e.bitsPerChar) :
    (e.firstPart byte bitsLeft).toNat =
        (byte.toNat % 2 ^ bitsLeft) <<< (e.bitsPerChar - bitsLeft) ∧
      (e.firstPart byte bitsLeft).toNat < 2 ^ e.bitsPerChar := by
  have hlt : (byte.toNat % 2 ^ bitsLeft) <<< (e.bitsPerChar - bitsLeft) < 2 ^ e.bitsPerChar := by
    rw [Nat.shiftLeft_eq]
    calc byte.toNat % 2 ^ bitsLeft * 2 ^ (e.bitsPerChar - bitsLeft)
        < 2 ^ bitsLeft * 2 ^ (e.bitsPerChar - bitsLeft) :=
          Nat.mul_lt_mul_of_pos_right (Nat.mod_lt _ (Nat.two_pow_pos _)) (Nat.two_pow_pos _)
      _ = 2 ^ e.bitsPerChar := by rw [← Nat.pow_add, Nat.add_sub_cancel' h.le]
  have heq : (e.firstPart byte bitsLeft).toNat =
      (byte.toNat % 2 ^ bitsLeft) <<< (e.bitsPerChar - bitsLeft) := by
    rw [firstPart, Nat.one_shiftLeft, Nat.and_two_pow_sub_one_eq_mod,
      toNat_ofNat_of_lt_two_pow e.lt.le hlt]
  exact ⟨heq, heq ▸ hlt⟩

theorem natBits_firstPart (e : BaseEncoding) (byte : UInt8) (h : bitsLeft < e.bitsPerChar) :
    natBits e.bitsPerChar (e.firstPart byte bitsLeft).toNat =
      natBits bitsLeft byte.toNat ++ replicate (e.bitsPerChar - bitsLeft) false := by
  have hbits := natBits_shiftLeft bitsLeft (e.bitsPerChar - bitsLeft) (byte.toNat % 2 ^ bitsLeft)
  rw [Nat.add_sub_cancel' h.le, natBits_mod] at hbits
  rw [(toNat_firstPart e byte h).1, hbits]

/-- A character that begins in one byte and ends in the next one. -/
theorem natBits_acrossBytes (e : BaseEncoding) (byte next : UInt8)
    (hlt : bitsLeft < e.bitsPerChar) :
    (UInt8.ofNat ((e.firstPart byte bitsLeft).toNat |||
        next.toNat >>> (bitsLeft + (8 - e.bitsPerChar)))).toNat < 2 ^ e.bitsPerChar ∧
      natBits e.bitsPerChar (UInt8.ofNat ((e.firstPart byte bitsLeft).toNat |||
          next.toNat >>> (bitsLeft + (8 - e.bitsPerChar)))).toNat ++
        natBits (bitsLeft + (8 - e.bitsPerChar)) next.toNat =
        natBits bitsLeft byte.toNat ++ byteBits next := by
  have hchar := e.lt
  have hfree : e.bitsPerChar - bitsLeft + (bitsLeft + (8 - e.bitsPerChar)) = 8 := by omega
  -- what the next byte gives to the character
  have hgiven : next.toNat >>> (bitsLeft + (8 - e.bitsPerChar)) <
      2 ^ (e.bitsPerChar - bitsLeft) := by
    rw [Nat.shiftRight_eq_div_pow, Nat.div_lt_iff_lt_mul (Nat.two_pow_pos _), ← Nat.pow_add, hfree]
    exact next.toNat_lt
  have hor : (e.firstPart byte bitsLeft).toNat |||
      next.toNat >>> (bitsLeft + (8 - e.bitsPerChar)) < 2 ^ e.bitsPerChar := by
    apply Nat.or_lt_two_pow (toNat_firstPart e byte hlt).2
    exact Nat.lt_of_lt_of_le hgiven (Nat.pow_le_pow_right (by decide) (Nat.sub_le _ _))
  have hfirst := natBits_firstPart e byte hlt
  have hbits := natBits_or (n := bitsLeft) (k := e.bitsPerChar - bitsLeft)
    (v := (e.firstPart byte bitsLeft).toNat)
    (by rw [Nat.add_sub_cancel' hlt.le, hfirst]) (length_natBits _ _) hgiven
  rw [Nat.add_sub_cancel' hlt.le] at hbits
  rw [toNat_ofNat_of_lt_two_pow hchar.le hor]
  constructor
  · exact hor
  · rw [hbits, append_assoc, ← natBits_add, hfree]
    rfl

theorem encodeLoop_nil (e : BaseEncoding) (bitsLeft : Nat) :
    e.encodeLoop [] bitsLeft = ([], bitsLeft) := by
  rw [encodeLoop]

/-- The loop writes what is left of the current byte, and the bytes after it. -/
theorem writes_encodeLoop (e : BaseEncoding) (byte : UInt8) (rest : List UInt8) {bitsLeft : Nat}
    (hpos : 0 < bitsLeft) (hle : bitsLeft ≤ 8) :
    e.Writes (natBits bitsLeft byte.toNat ++ bytesBits rest)
      (e.encodeLoop (byte :: rest) bitsLeft) := by
  have hchar := e.pos
  have hlt := e.lt
  rw [encodeLoop]
  by_cases hwithin : e.bitsPerChar ≤ bitsLeft
  · have hsmall := innerChar_lt e byte (bitsLeft - e.bitsPerChar)
    have hbits := natBits_innerChar e byte (bitsLeft - e.bitsPerChar)
    rw [Nat.add_sub_cancel' hwithin] at hbits
    by_cases hlast : bitsLeft - e.bitsPerChar = 0
    · -- the byte is used up
      rw [hlast, natBits, append_nil] at hbits
      rw [hlast] at hsmall
      simp only [hwithin, hlast, if_true]
      cases rest with
      | nil =>
        rw [encodeLoop_nil]
        apply writes_singleton hchar rfl hsmall
        rw [hbits, bytesBits_nil, append_nil, replicate_zero, append_nil]
      | cons next rest =>
        apply (writes_encodeLoop e next rest (by decide) (Nat.le_refl 8)).cons hsmall
        rw [hbits, bytesBits_cons]
        rfl
    · simp only [hwithin, hlast, if_true, if_false]
      apply (writes_encodeLoop e byte rest (by omega) (by omega)).cons hsmall
      rw [← hbits, append_assoc]
  · have hbegin := Nat.lt_of_not_le hwithin
    simp only [hwithin, if_false]
    cases rest with
    | nil =>
      have hend : bitsLeft + (8 - e.bitsPerChar) + (e.bitsPerChar - bitsLeft) = 8 := by omega
      rw [encodeLoop_nil]
      apply writes_singleton (by omega) hend (toNat_firstPart e byte hbegin).2
      rw [natBits_firstPart e byte hbegin, bytesBits_nil, append_nil]
    | cons next rest =>
      obtain ⟨hsmall, hbits⟩ := natBits_acrossBytes e byte next hbegin
      apply (writes_encodeLoop e next rest (by omega) (by omega)).cons hsmall
      rw [bytesBits_cons, ← append_assoc, ← hbits, append_assoc]
termination_by 8 * rest.length + bitsLeft
decreasing_by
  · rw [length_cons]
    omega
  · omega
  · rw [length_cons]
    omega

/-! ### The text -/

/-- The text of the characters `cs` and `k` padding characters, whose bits are those of the data
and zeros up to the next character. -/
structure Spelled (e : BaseEncoding) (data cs : List UInt8) (p : Nat) : Prop where
  valid : ∀ c ∈ cs, e.decodeChar c ≠ decodeError
  filled : ∃ k < e.bitsPerChar,
    wordsBits e.bitsPerChar (cs.map e.decodeChar) = bytesBits data ++ replicate k false
  fits : e.Fits cs.length p
  aligned : e.Aligned (cs.length + p)

/-- Values within the range have characters. -/
theorem Spells.mapM_encodeChar (h : e.Spells) {values : List UInt8}
    (hsmall : ∀ v ∈ values, v.toNat < 2 ^ e.bitsPerChar) :
    ∃ cs, values.mapM e.encodeChar = some cs ∧ cs.map e.decodeChar = values := by
  induction values with
  | nil => exact ⟨[], rfl, rfl⟩
  | cons v values ih =>
    obtain ⟨hv, hrest⟩ := forall_mem_cons.mp hsmall
    obtain ⟨c, henc, hdec⟩ := h.decodeChar_encodeChar v hv
    obtain ⟨cs, hcs, hvalues⟩ := ih hrest
    refine ⟨c :: cs, ?_, ?_⟩
    · rw [mapM_cons, henc, hcs]
      rfl
    · rw [map_cons, hdec, hvalues]

/-- No value within the range is taken for an error. -/
theorem ne_decodeError_of_lt (e : BaseEncoding) {v : UInt8} (h : v.toNat < 2 ^ e.bitsPerChar) :
    v ≠ decodeError := by
  rintro rfl
  have hle : 2 ^ e.bitsPerChar ≤ 2 ^ 7 := Nat.pow_le_pow_right (by decide) (Nat.le_of_lt_succ e.lt)
  have hvalue : decodeError.toNat = 255 := rfl
  omega

/-- The loop over all of the data. -/
theorem writes_encodeLoop_all (e : BaseEncoding) (data : List UInt8) :
    e.Writes (bytesBits data) (e.encodeLoop data 8) := by
  cases data with
  | nil =>
    rw [encodeLoop_nil]
    exact ⟨fun v hv => (not_mem_nil hv).elim, 0, e.pos, rfl, rfl⟩
  | cons byte rest => exact writes_encodeLoop e byte rest (by decide) (Nat.le_refl 8)

/-- The empty text needs no case of its own. -/
theorem encode_eq (data : List UInt8) :
    e.encode data = do
      let s ← (e.encodeLoop data 8).1.mapM e.encodeChar
      let pads ← e.padLoop 8 (e.encodeLoop data 8).2
      return s ++ pads := by
  by_cases hdata : data = []
  · rw [encode, if_pos hdata, hdata, encodeLoop_nil]
    rfl
  · rw [encode, if_neg hdata]

/-- Every byte sequence is encoded. -/
theorem Spells.exists_encode (h : e.Spells) (data : List UInt8) :
    ∃ cs p, e.encode data = some (cs ++ replicate p padding) ∧ e.Spelled data cs p := by
  obtain ⟨hsmall, k, hk, hend, hwords⟩ := writes_encodeLoop_all e data
  obtain ⟨cs, hcs, hvalues⟩ := h.mapM_encodeChar hsmall
  have hlen : e.bitsPerChar * cs.length = 8 * data.length + k := by
    have hcount := mul_length_of_wordsBits_eq hwords
    rwa [← hvalues, length_map, length_replicate] at hcount
  have hcursor : (e.encodeLoop data 8).2 = e.cursor cs.length := by
    have hlt := e.lt
    unfold cursor
    omega
  obtain ⟨p, hp, hfits, hal⟩ := padLoop_cursor (e.exists_aligned cs.length)
  refine ⟨cs, p, ?_, ?_, ⟨k, hk, ?_⟩, hfits, hal⟩
  · rw [encode_eq, hcs, hcursor, hp]
    rfl
  · intro c hc
    apply ne_decodeError_of_lt e
    apply hsmall
    rw [← hvalues]
    exact mem_map_of_mem hc
  · rw [hvalues, hwords]

end TrinityCore.Encoding.BaseEncoding
