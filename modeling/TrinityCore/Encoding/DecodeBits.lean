import TrinityCore.Encoding.EncodeBits

/-!
# What decoding accepts

A decoder denotes the bits of the characters it has read: those of the full bytes and those
pending in the current byte. A text is accepted when its characters spell whole bytes and
zeros, and nothing but padding follows, none of it at the end of a byte.
-/

namespace TrinityCore.Encoding.BaseEncoding

open List

open BitString

variable {e : BaseEncoding}

/-! ### The bits read -/

/-- The decoder holds the bits, the last of them pending. -/
structure Decoder.Holds (d : Decoder) (pend bits : List Bool) : Prop where
  room : pend.length + d.bitsLeft = 8
  free : 0 < d.bitsLeft
  current : byteBits d.currentByte = pend ++ List.replicate d.bitsLeft false
  denotes : bits = bytesBits d.v ++ pend

theorem Decoder.holds_empty : Decoder.Holds {} [] [] := by
  constructor
  · rfl
  · decide
  · decide
  · rfl

variable {d : Decoder} {bits pend : List Bool} {rest s cs : List UInt8}

section

variable (h : d.Holds pend bits)
include h

/-- Nothing is pending but zeros when the current byte is zero. -/
theorem Decoder.Holds.currentByte_eq_zero_iff :
    d.currentByte = 0 ↔ pend = List.replicate pend.length false := by
  have hzero : byteBits 0 = replicate 8 false := by decide
  have hsplit : replicate 8 false =
      replicate pend.length false ++ replicate d.bitsLeft false := by
    rw [← h.room, replicate_add]
  constructor
  · intro heq
    have hcurrent := h.current
    rw [heq, hzero, hsplit] at hcurrent
    exact (append_inj_left' hcurrent rfl).symm
  · intro heq
    apply byteBits_inj
    rw [h.current, hzero, hsplit, ← heq]

section

variable {cur : UInt8} (hcur : cur.toNat < 2 ^ e.bitsPerChar)
include hcur

/-- A character that fits into the current byte. -/
theorem Decoder.Holds.put_inner (hroom : e.bitsPerChar < d.bitsLeft) :
    (e.put d cur).Holds (pend ++ natBits e.bitsPerChar cur.toNat)
      (bits ++ natBits e.bitsPerChar cur.toNat) := by
  have hsplit : e.bitsPerChar + (d.bitsLeft - e.bitsPerChar) = d.bitsLeft :=
    Nat.add_sub_cancel' hroom.le
  have hlt : cur.toNat <<< (d.bitsLeft - e.bitsPerChar) < 2 ^ d.bitsLeft := by
    rw [Nat.shiftLeft_eq]
    calc cur.toNat * 2 ^ (d.bitsLeft - e.bitsPerChar)
        < 2 ^ e.bitsPerChar * 2 ^ (d.bitsLeft - e.bitsPerChar) :=
          Nat.mul_lt_mul_of_pos_right hcur (Nat.two_pow_pos _)
      _ = 2 ^ d.bitsLeft := by rw [← Nat.pow_add, hsplit]
  have hput := byteBits_or h.current h.room hlt
  have hshift := natBits_shiftLeft e.bitsPerChar (d.bitsLeft - e.bitsPerChar) cur.toNat
  rw [hsplit] at hshift
  rw [put, if_pos hroom]
  constructor
  · have hlen := h.room
    show (pend ++ natBits e.bitsPerChar cur.toNat).length + (d.bitsLeft - e.bitsPerChar) = 8
    rw [length_append, length_natBits]
    omega
  · exact Nat.sub_pos_of_lt hroom
  · show byteBits (UInt8.ofNat (d.currentByte.toNat |||
      cur.toNat <<< (d.bitsLeft - e.bitsPerChar))) = _
    rw [hput, hshift, append_assoc]
  · rw [h.denotes, append_assoc]

/-- A character that fills up the current byte. -/
theorem Decoder.Holds.put_across (hroom : d.bitsLeft ≤ e.bitsPerChar) :
    (e.put d cur).Holds (natBits (e.bitsPerChar - d.bitsLeft) cur.toNat)
      (bits ++ natBits e.bitsPerChar cur.toNat) := by
  have hchar := e.lt
  have hfree := h.free
  obtain ⟨left, hleft⟩ : ∃ left, left = e.bitsPerChar - d.bitsLeft := ⟨_, rfl⟩
  have hsplit : d.bitsLeft + left = e.bitsPerChar := by omega
  have hbyte : left + (8 - left) = 8 := by omega
  have hlt : cur.toNat >>> left < 2 ^ d.bitsLeft := by
    rwa [Nat.shiftRight_eq_div_pow, Nat.div_lt_iff_lt_mul (Nat.two_pow_pos _), ← Nat.pow_add,
      hsplit]
  have hfull := byteBits_or h.current h.room hlt
  have hshift := natBits_shiftLeft left (8 - left) (cur.toNat % 2 ^ left)
  rw [hbyte, natBits_mod] at hshift
  rw [put, if_neg (Nat.not_lt.mpr hroom), ← hleft]
  constructor
  · show (natBits left cur.toNat).length + (8 - left) = 8
    rw [length_natBits, hbyte]
  · show 0 < 8 - left
    omega
  · show byteBits (UInt8.ofNat ((UInt8.ofNat (cur.toNat &&& (1 <<< left - 1))).toNat <<<
      (8 - left))) = _
    rw [Nat.one_shiftLeft, Nat.and_two_pow_sub_one_eq_mod,
      toNat_ofNat_of_lt_two_pow (by omega) (Nat.mod_lt _ (Nat.two_pow_pos left)), byteBits_ofNat,
      hshift]
  · show _ = bytesBits (d.v ++ [UInt8.ofNat (d.currentByte.toNat ||| cur.toNat >>> left)]) ++ _
    rw [bytesBits_append, bytesBits_cons, bytesBits_nil, hfull, append_nil, append_assoc,
      append_assoc, ← natBits_add, hsplit, h.denotes, append_assoc]

/-- One character. -/
theorem Decoder.Holds.put :
    ∃ pend, (e.put d cur).Holds pend (bits ++ natBits e.bitsPerChar cur.toNat) := by
  by_cases hroom : e.bitsPerChar < d.bitsLeft
  · exact ⟨_, h.put_inner hcur hroom⟩
  · exact ⟨_, h.put_across hcur (Nat.le_of_not_lt hroom)⟩

end

/-- A run of characters. -/
theorem Decoder.Holds.foldl_put {values : List UInt8}
    (hsmall : ∀ v ∈ values, v.toNat < 2 ^ e.bitsPerChar) :
    ∃ pend, (values.foldl e.put d).Holds pend (bits ++ wordsBits e.bitsPerChar values) := by
  induction values generalizing d pend bits with
  | nil => exact ⟨pend, by rwa [wordsBits_nil, append_nil]⟩
  | cons v values ih =>
    obtain ⟨hv, hrest⟩ := forall_mem_cons.mp hsmall
    obtain ⟨pend₁, h₁⟩ := h.put hv
    obtain ⟨pend₂, h₂⟩ := ih h₁ hrest
    rw [append_assoc, ← wordsBits_cons] at h₂
    exact ⟨pend₂, h₂⟩

end

/-! ### The loops -/

/-- The loop reads characters of the alphabet up to the end or to a padding character. -/
theorem Spells.decodeLoop_eq_some_iff (h : e.Spells) {d' : Decoder} :
    e.decodeLoop s d = some (d', rest) ↔
      ∃ cs, s = cs ++ rest ∧ (∀ c ∈ cs, e.decodeChar c ≠ decodeError) ∧
        (∀ c ∈ rest.head?, c = padding) ∧ (cs.map e.decodeChar).foldl e.put d = d' := by
  induction s generalizing d with
  | nil =>
    rw [decodeLoop]
    constructor
    · intro heq
      cases heq
      refine ⟨[], rfl, fun c hc => (not_mem_nil hc).elim, ?_, rfl⟩
      intro c hc
      cases hc
    · rintro ⟨cs, happ, _, _, hd⟩
      obtain ⟨rfl, rfl⟩ := nil_eq_append_iff.mp happ
      rw [← hd]
      rfl
  | cons c s ih =>
    rw [decodeLoop]
    by_cases hpad : c = padding
    · -- the padding is left for the other loop
      rw [if_pos hpad]
      constructor
      · intro heq
        cases heq
        refine ⟨[], rfl, fun c hc => (not_mem_nil hc).elim, ?_, rfl⟩
        intro c' hc'
        cases hc'
        exact hpad
      · rintro ⟨cs, happ, hvalid, _, hd⟩
        cases cs with
        | nil =>
          rw [nil_append] at happ
          rw [happ, ← hd]
          rfl
        | cons c' cs =>
          cases happ
          exact absurd h.decodeChar_padding (hpad ▸ hvalid c mem_cons_self)
    · simp only [if_neg hpad]
      by_cases herr : e.decodeChar c = decodeError
      · rw [if_pos herr]
        constructor
        · intro heq
          cases heq
        · rintro ⟨cs, happ, hvalid, hhead, _⟩
          cases cs with
          | nil =>
            rw [nil_append] at happ
            rw [← happ] at hhead
            exact absurd (hhead c rfl) hpad
          | cons c' cs =>
            cases happ
            exact absurd herr (hvalid c mem_cons_self)
      · rw [if_neg herr, ih]
        constructor
        · rintro ⟨cs, rfl, hvalid, hhead, hd⟩
          exact ⟨c :: cs, rfl, forall_mem_cons.mpr ⟨herr, hvalid⟩, hhead, hd⟩
        · rintro ⟨cs, happ, hvalid, hhead, hd⟩
          cases cs with
          | nil =>
            rw [nil_append] at happ
            rw [← happ] at hhead
            exact absurd (hhead c rfl) hpad
          | cons c' cs =>
            cases happ
            exact ⟨cs, rfl, (forall_mem_cons.mp hvalid).2, hhead, hd⟩

/-- The padding loop gets to the end of padding that fits, and of nothing else. -/
theorem skipPadding_eq_nil_iff (e : BaseEncoding) {m : Nat} :
    e.skipPadding rest (e.cursor m) = [] ↔
      ∃ k, rest = List.replicate k padding ∧ e.Fits m k := by
  induction rest generalizing m with
  | nil =>
    rw [skipPadding]
    exact ⟨fun _ => ⟨0, rfl, fits_zero m⟩, fun _ => rfl⟩
  | cons c rest ih =>
    simp only [skipPadding, ne_eq, e.cursor_eq_iff, skipChar_cursor]
    split
    · next hskip =>
      rw [ih]
      constructor
      · rintro ⟨k, rfl, hfits⟩
        exact ⟨k + 1, by rw [hskip.1]; rfl, fits_succ.mpr ⟨hskip.2, hfits⟩⟩
      · rintro ⟨k, happ, hfits⟩
        cases k with
        | zero => cases happ
        | succ k =>
          cases happ
          exact ⟨k, rfl, (fits_succ.mp hfits).2⟩
    · next hstop =>
      constructor
      · intro heq
        cases heq
      · rintro ⟨k, happ, hfits⟩
        cases k with
        | zero => cases happ
        | succ k =>
          cases happ
          exact absurd ⟨rfl, (fits_succ.mp hfits).1⟩ hstop

/-! ### The text -/

/-- The text of the characters `cs` and `k` padding characters, whose bits are those of the data
and zeros up to the next byte. -/
structure Accepted (e : BaseEncoding) (data cs : List UInt8) (k : Nat) : Prop where
  valid : ∀ c ∈ cs, e.decodeChar c ≠ decodeError
  filled : ∃ j < 8,
    wordsBits e.bitsPerChar (cs.map e.decodeChar) = bytesBits data ++ List.replicate j false
  fits : e.Fits cs.length k

/-- The empty text needs no case of its own. -/
theorem decode_eq (e : BaseEncoding) (s : List UInt8) :
    e.decode s = (e.decodeLoop s {}).bind fun (d, rest) =>
      if d.currentByte ≠ 0 then none
      else if e.skipPadding rest d.bitsLeft = [] then some d.v
      else none := by
  by_cases hs : s = []
  · rw [decode, if_pos hs, hs]
    rfl
  · rw [decode, if_neg hs]
    rfl

/-- The values of characters of the alphabet are within the range. -/
theorem Spells.decodeChar_lt_of_mem (h : e.Spells)
    (hvalid : ∀ c ∈ cs, e.decodeChar c ≠ decodeError) :
    ∀ v ∈ cs.map e.decodeChar, v.toNat < 2 ^ e.bitsPerChar := by
  intro v hv
  obtain ⟨c, hc, rfl⟩ := mem_map.mp hv
  exact h.decodeChar_lt c (hvalid c hc)

/-- Bits that are whole bytes and less than a byte are so in one way. -/
theorem eq_of_bytesBits_append_eq {l m : List UInt8} {t u : List Bool} (ht : t.length < 8)
    (hu : u.length < 8) (h : bytesBits l ++ t = bytesBits m ++ u) : l = m ∧ t = u := by
  have hlen := congrArg length h
  simp only [length_append, length_bytesBits] at hlen
  have hbytes : l.length = m.length := by omega
  obtain ⟨hleft, hright⟩ := append_inj h (by rw [length_bytesBits, length_bytesBits, hbytes])
  exact ⟨bytesBits_inj hleft, hright⟩

/-- The decoder after the characters of the alphabet. -/
theorem Spells.exists_holds (h : e.Spells) (hvalid : ∀ c ∈ cs, e.decodeChar c ≠ decodeError) :
    ∃ pend, ((cs.map e.decodeChar).foldl e.put {}).Holds pend
        (wordsBits e.bitsPerChar (cs.map e.decodeChar)) ∧ pend.length < 8 ∧
      ((cs.map e.decodeChar).foldl e.put {}).bitsLeft = e.cursor cs.length := by
  obtain ⟨pend, hd⟩ := Decoder.holds_empty.foldl_put (h.decodeChar_lt_of_mem hvalid)
  rw [nil_append] at hd
  have hroom := hd.room
  have hfree := hd.free
  have hlen := mul_length_of_wordsBits_eq hd.denotes
  rw [length_map] at hlen
  refine ⟨pend, hd, by omega, ?_⟩
  unfold cursor
  omega

/-- Exactly the texts described are accepted, and decode to the data they spell. -/
theorem Spells.decode_eq_some_iff (h : e.Spells) {data : List UInt8} :
    e.decode s = some data ↔
      ∃ cs k, s = cs ++ List.replicate k padding ∧ e.Accepted data cs k := by
  rw [decode_eq]
  constructor
  · intro hdec
    obtain ⟨⟨d, rest⟩, hloop, hend⟩ := Option.bind_eq_some_iff.mp hdec
    obtain ⟨cs, rfl, hvalid, _, rfl⟩ := h.decodeLoop_eq_some_iff.mp hloop
    obtain ⟨pend, hd, hpend, hcursor⟩ := h.exists_holds hvalid
    simp only [ne_eq, ite_not] at hend
    split at hend
    · next hzero =>
      split at hend
      · next hskip =>
        cases hend
        rw [hcursor, skipPadding_eq_nil_iff] at hskip
        obtain ⟨k, rfl, hfits⟩ := hskip
        refine ⟨cs, k, rfl, hvalid, ⟨pend.length, hpend, ?_⟩, hfits⟩
        rw [← hd.currentByte_eq_zero_iff.mp hzero, hd.denotes]
      · cases hend
    · cases hend
  · rintro ⟨cs, k, rfl, hvalid, ⟨j, hj, hwords⟩, hfits⟩
    obtain ⟨pend, hd, hpend, hcursor⟩ := h.exists_holds hvalid
    have hloop : e.decodeLoop (cs ++ replicate k padding) {} =
        some ((cs.map e.decodeChar).foldl e.put {}, replicate k padding) := by
      apply h.decodeLoop_eq_some_iff.mpr
      refine ⟨cs, rfl, hvalid, ?_, rfl⟩
      intro c hc
      exact eq_of_mem_replicate (mem_of_mem_head? hc)
    have hskip : e.skipPadding (replicate k padding) (e.cursor cs.length) = [] :=
      (skipPadding_eq_nil_iff e).mpr ⟨k, rfl, hfits⟩
    obtain ⟨hdata, hzeros⟩ := eq_of_bytesBits_append_eq hpend (by rwa [length_replicate])
      (hd.denotes.symm.trans hwords)
    have hzero : ((cs.map e.decodeChar).foldl e.put {}).currentByte = 0 := by
      apply hd.currentByte_eq_zero_iff.mpr
      rw [hzeros, length_replicate]
    rw [hloop]
    show (if _ ≠ _ then none else _) = some data
    rw [if_neg (not_not.mpr hzero), hcursor, if_pos hskip, hdata]

end TrinityCore.Encoding.BaseEncoding
