import TrinityCore.Packets.ByteBufferWrite

/-!
# What reading reads

A buffer has left to read the bits that remain in the bit buffer and the bytes from the read
position on. Bits are taken from the front of both; bytes from the second alone, so that bits
remaining at a read of bytes stay in front of everything that comes after.
-/

namespace TrinityCore.Packets

open List

open BitString

variable {l rest : List UInt8}

namespace ByteBuffer

variable {b : ByteBuffer} {pend : List Bool} {src : List UInt8}

/-- The bits and the bytes left to read. -/
structure Left (b : ByteBuffer) (pend : List Bool) (src : List UInt8) : Prop where
  pos : b.rpos ≤ b.storage.length
  taken : 1 ≤ b.bitpos
  pending : pend = (byteBits b.curbitval).drop b.bitpos
  bytes : src = b.storage.drop b.rpos

theorem Left.length_lt (h : b.Left pend src) : pend.length < 8 := by
  have htaken := h.taken
  rw [h.pending, length_drop, length_byteBits]
  omega

/-- Nothing is left when the read position is at the end. -/
theorem Left.rpos_eq (h : b.Left pend []) : b.rpos = b.size := by
  have hpos := h.pos
  have hnil := drop_eq_nil_iff.mp h.bytes.symm
  exact Nat.le_antisymm hpos hnil

/-! ### Bytes -/

/-- The bytes ahead are within the storage. -/
theorem Left.fits (h : b.Left pend (l ++ rest)) : b.rpos + l.length ≤ b.storage.length := by
  have hsize := congrArg length h.bytes
  have hpos := h.pos
  rw [length_append, length_drop] at hsize
  omega

/-- The read position moves over the bytes ahead. -/
theorem Left.advance (h : b.Left pend (l ++ rest)) {len : Nat} (hlen : l.length = len) :
    { b with rpos := b.rpos + len }.Left pend rest := by
  subst hlen
  refine ⟨h.fits, h.taken, h.pending, ?_⟩
  show rest = b.storage.drop (b.rpos + l.length)
  rw [← drop_drop, ← h.bytes, drop_left]

/-- Bytes are read from the read position, whatever bits are pending. -/
theorem Left.read (h : b.Left pend (l ++ rest)) {len : Nat} (hlen : l.length = len) :
    ∃ b', b.read len = .ok (l, b') ∧ b'.Left pend rest := by
  have hfits : ¬ b.rpos + len > b.size := by
    rw [← hlen]
    exact Nat.not_lt_of_le h.fits
  refine ⟨{ b with rpos := b.rpos + len }, ?_, h.advance hlen⟩
  rw [ByteBuffer.read, if_neg hfits, ← h.bytes, ← hlen, take_left]

/-- One byte. -/
theorem Left.readByte {c : UInt8} (h : b.Left pend (c :: rest)) :
    ∃ b', b.read 1 = .ok ([c], b') ∧ b'.Left pend rest :=
  Left.read (l := [c]) h rfl

/-- An integer reads back. -/
theorem Left.readInt {bytes : Nat} {value : BitVec (8 * bytes)}
    (h : b.Left pend (le bytes value.toNat ++ rest)) :
    ∃ b', b.readInt bytes = .ok (value, b') ∧ b'.Left pend rest := by
  obtain ⟨b', hread, hleft⟩ := h.read (length_le bytes value.toNat)
  refine ⟨b', ?_, hleft⟩
  have hvalue : BitVec.ofNat (8 * bytes) (readLE (le bytes value.toNat)) = value := by
    have hlt := value.isLt
    have hpow : 256 ^ bytes = 2 ^ (8 * bytes) := by rw [Nat.pow_mul]
    apply BitVec.eq_of_toNat_eq
    rw [readLE_le, BitVec.toNat_ofNat, hpow, Nat.mod_eq_of_lt hlt, Nat.mod_eq_of_lt hlt]
  rw [ByteBuffer.readInt, hread]
  exact congrArg (fun v => Except.ok (v, b')) hvalue

/-- A string reads up to its NUL. -/
theorem readCStringLoop_append {text : List UInt8} (h : ∀ c ∈ text, c ≠ 0) (rest : List UInt8) :
    readCStringLoop (text ++ 0 :: rest) = (text, text.length + 1) := by
  induction text with
  | nil => rfl
  | cons c text ih =>
    have hc : c ≠ 0 := h c mem_cons_self
    rw [cons_append, readCStringLoop, if_neg hc, ih fun d hd => h d (mem_cons_of_mem c hd)]
    rfl

/-- A string reads back. -/
theorem Left.readCString {str : CString} (h : b.Left pend (str.text ++ [0] ++ rest)) :
    ∃ b', b.readCString = (str.text, b') ∧ b'.Left pend rest := by
  have hbytes := h.bytes
  rw [append_assoc, singleton_append] at hbytes
  refine ⟨{ b with rpos := b.rpos + (str.text.length + 1) }, ?_, h.advance (by simp)⟩
  rw [ByteBuffer.readCString, ← hbytes, readCStringLoop_append str.noNul]

/-! ### Packed GUIDs -/

theorem le_zero (k : Nat) : le k 0 = List.replicate k 0 := by
  induction k with
  | zero => rfl
  | succ k ih => rw [le, Nat.zero_div, ih, replicate_succ]; rfl

theorem ofNat_mod (n : Nat) : UInt8.ofNat (n % 256) = UInt8.ofNat n := by
  apply UInt8.toNat_inj.mp
  rw [UInt8.toNat_ofNat', UInt8.toNat_ofNat', Nat.mod_mod]

theorem ofNat_ne_zero_iff (n : Nat) : UInt8.ofNat n ≠ 0 ↔ n % 256 ≠ 0 := by
  rw [not_iff_not, ← UInt8.toNat_inj, UInt8.toNat_ofNat']
  rfl

/-- The packed form: the bytes that are not zero, and a mask that tells which they are. -/
theorem packGUID_eq (k : Nat) {guid i : Nat} (hguid : guid < 256 ^ k) (hi : i + k = 8)
    (mark : UInt8) (bytes : List UInt8)
    (hmark : ∀ j, i ≤ j → mark.toNat.testBit j = false) :
    (packGUID guid i mark bytes).2 = bytes ++ (le k guid).filter (· ≠ 0) ∧
      ∀ j, j < 8 → (packGUID guid i mark bytes).1.toNat.testBit j =
        if j < i then mark.toNat.testBit j else decide ((le k guid).getD (j - i) 0 ≠ 0) := by
  induction k generalizing guid i mark bytes with
  | zero =>
    have hzero : guid = 0 := by
      rw [Nat.pow_zero] at hguid
      omega
    subst hzero
    unfold packGUID
    refine ⟨by simp [le], fun j hj => ?_⟩
    rw [if_pos rfl, if_pos (by omega : j < i)]
  | succ k ih =>
    unfold packGUID
    by_cases hzero : guid = 0
    · subst hzero
      rw [if_pos rfl, le_zero]
      refine ⟨by simp, fun j _ => ?_⟩
      by_cases hlt : j < i
      · rw [if_pos hlt]
      · rw [if_neg hlt, hmark j (Nat.le_of_not_lt hlt), getD_eq_getElem?_getD,
          getElem?_replicate]
        split <;> rfl
    have hrest : guid / 256 < 256 ^ k := by
      rw [Nat.pow_succ] at hguid
      omega
    rw [if_neg hzero]
    by_cases hbyte : guid % 256 ≠ 0
    · -- the byte is kept and marked
      have hset : (UInt8.ofNat (mark.toNat ||| 1 <<< i)).toNat = mark.toNat ||| 1 <<< i := by
        have hlt : mark.toNat ||| 1 <<< i < 2 ^ 8 := by
          apply Nat.or_lt_two_pow mark.toNat_lt
          rw [Nat.shiftLeft_eq, Nat.one_mul]
          exact Nat.pow_lt_pow_right (by decide) (by omega)
        exact UInt8.toNat_ofNat_of_lt' hlt
      have hbit : ∀ j, (mark.toNat ||| 1 <<< i).testBit j
          = (mark.toNat.testBit j || decide (j = i)) := by
        intro j
        rw [Nat.testBit_or, Nat.shiftLeft_eq, Nat.one_mul, Nat.testBit_two_pow]
        by_cases hji : j = i
        · subst hji
          simp
        · have hij : i ≠ j := Ne.symm hji
          simp [hji, hij]
      rw [if_pos hbyte]
      obtain ⟨hbytes, hbits⟩ := ih hrest (i := i + 1) (by omega)
        (UInt8.ofNat (mark.toNat ||| 1 <<< i)) (bytes ++ [UInt8.ofNat (guid % 256)]) (by
          intro j hj
          rw [hset, hbit, hmark j (by omega)]
          simp
          omega)
      have hne : UInt8.ofNat guid ≠ 0 := (ofNat_ne_zero_iff guid).mpr hbyte
      refine ⟨?_, fun j hj => ?_⟩
      · rw [hbytes, le, filter_cons_of_pos (by simpa using hne), ofNat_mod]
        simp
      · rw [hbits j hj, hset, hbit, le]
        by_cases hlt : j < i
        · rw [if_pos hlt, if_pos (by omega : j < i + 1)]
          have hne' : j ≠ i := by omega
          simp [hne']
        · by_cases heq : j = i
          · subst heq
            rw [if_pos (Nat.lt_succ_self j), if_neg (Nat.lt_irrefl j), Nat.sub_self]
            simp [hne]
          · have hsub : j - i = j - (i + 1) + 1 := by omega
            rw [if_neg (by omega), if_neg hlt, hsub, getD_cons_succ]
    · rw [if_neg hbyte]
      have heq0 : UInt8.ofNat guid = 0 := by
        by_contra hne
        exact hbyte ((ofNat_ne_zero_iff guid).mp hne)
      obtain ⟨hbytes, hbits⟩ := ih hrest (i := i + 1) (by omega) mark bytes
        fun j hj => hmark j (by omega)
      refine ⟨?_, fun j hj => ?_⟩
      · rw [hbytes, le, heq0, filter_cons_of_neg (by simp)]
      · rw [hbits j hj, le, heq0]
        by_cases hlt : j < i
        · rw [if_pos hlt, if_pos (by omega)]
        · by_cases heq : j = i
          · subst heq
            rw [if_pos (Nat.lt_succ_self j), if_neg (Nat.lt_irrefl j), Nat.sub_self,
              hmark j (Nat.le_refl j)]
            simp
          · have hsub : j - i = j - (i + 1) + 1 := by omega
            rw [if_neg (by omega), if_neg hlt, hsub, getD_cons_succ]

/-- The loop reads the bytes that are not zero to their places. -/
theorem Left.readPackGUIDLoop (mark : UInt8) (guid : UInt64) (hlen : l.length ≤ 8)
    (h : b.Left pend (l.filter (· ≠ 0) ++ rest))
    (hmark : ∀ j, j < l.length → mark.toNat.testBit (8 - l.length + j) = decide (l.getD j 0 ≠ 0)) :
    ∃ b', b.readPackGUIDLoop mark l.length guid = .ok
      (guid ||| UInt64.ofNat (readLE l <<< ((8 - l.length) * 8)), b') ∧ b'.Left pend rest := by
  induction l generalizing guid b with
  | nil =>
    refine ⟨b, ?_, h⟩
    show Except.ok (guid, b) = .ok (guid ||| UInt64.ofNat (0 <<< (8 * 8)), b)
    simp
  | cons c l ih =>
    rw [length_cons] at hlen
    have hfirst : mark.toNat.testBit (8 - (l.length + 1)) = decide (c ≠ 0) :=
      hmark 0 (Nat.zero_lt_succ _)
    have hrest : ∀ j, j < l.length →
        mark.toNat.testBit (8 - l.length + j) = decide (l.getD j 0 ≠ 0) := by
      intro j hj
      have hnext := hmark (j + 1) (Nat.succ_lt_succ hj)
      have hplace : 8 - (c :: l).length + (j + 1) = 8 - l.length + j := by
        rw [length_cons]
        omega
      rwa [hplace, getD_cons_succ] at hnext
    have hstep : 8 - l.length = 8 - (l.length + 1) + 1 := by omega
    rw [length_cons, ByteBuffer.readPackGUIDLoop, hfirst]
    by_cases hc : c = 0
    · subst hc
      rw [filter_cons_of_neg (by simp)] at h
      obtain ⟨b', hloop, hleft⟩ := ih guid (by omega) h hrest
      refine ⟨b', ?_, hleft⟩
      have hshift : readLE (0 :: l) <<< ((8 - (l.length + 1)) * 8)
          = readLE l <<< ((8 - l.length) * 8) := by
        have hvalue : readLE (0 :: l) = readLE l <<< 8 := by
          rw [readLE, Nat.shiftLeft_eq, Nat.mul_comm]
          simp
        rw [hvalue, ← Nat.shiftLeft_add, hstep]
        congr 1
        omega
      rw [hshift]
      exact hloop
    · rw [filter_cons_of_pos (by simpa using hc), cons_append] at h
      obtain ⟨b₁, hread, h₁⟩ := h.readByte
      obtain ⟨b', hloop, hleft⟩ := ih
        (guid ||| UInt64.ofNat (c.toNat <<< ((8 - (l.length + 1)) * 8)))
        (by omega) h₁ hrest
      refine ⟨b', ?_, hleft⟩
      have hshift : readLE (c :: l) <<< ((8 - (l.length + 1)) * 8)
          = c.toNat <<< ((8 - (l.length + 1)) * 8) ||| readLE l <<< ((8 - l.length) * 8) := by
        have hvalue : readLE (c :: l) = c.toNat ||| readLE l <<< 8 := by
          rw [Nat.or_comm, ← Nat.shiftLeft_add_eq_or_of_lt c.toNat_lt, readLE, Nat.shiftLeft_eq]
          omega
        rw [hvalue, Nat.shiftLeft_or_distrib, ← Nat.shiftLeft_add, hstep]
        congr 2
        omega
      rw [hshift, UInt64.ofNat_or, ← UInt64.or_assoc, if_pos (by simpa using hc), hread]
      exact hloop

/-- A packed GUID reads back. -/
theorem Left.readPackGUID {guid : UInt64}
    (h : b.Left pend ((packGUID guid.toNat 0 0 []).1 :: (packGUID guid.toNat 0 0 []).2 ++ rest)) :
    ∃ b', b.readPackGUID = .ok (guid, b') ∧ b'.Left pend rest := by
  obtain ⟨hbytes, hbits⟩ := packGUID_eq 8 guid.toNat_lt rfl 0 [] (fun j _ => by simp)
  rw [cons_append] at h
  obtain ⟨b₁, hread, h₁⟩ := h.readByte
  rw [hbytes, nil_append] at h₁
  obtain ⟨b', hloop, hleft⟩ := Left.readPackGUIDLoop (packGUID guid.toNat 0 0 []).1 0
    (Nat.le_of_eq (length_le 8 guid.toNat)) h₁ (by
      intro j hj
      rw [length_le] at hj ⊢
      have hbit := hbits j hj
      rw [if_neg (Nat.not_lt_zero j), Nat.sub_zero] at hbit
      simpa using hbit)
  refine ⟨b', ?_, hleft⟩
  have hvalue : (0 : UInt64) ||| UInt64.ofNat
      (readLE (le 8 guid.toNat) <<< ((8 - (le 8 guid.toNat).length) * 8)) = guid := by
    have hlt : guid.toNat < 256 ^ 8 := guid.toNat_lt
    rw [length_le, readLE_le, Nat.mod_eq_of_lt hlt]
    simp
  rw [hvalue, length_le] at hloop
  rw [ByteBuffer.readPackGUID, hread]
  exact hloop

/-! ### Bits -/

/-- `ReadBit` takes the first bit left, pending or of the next byte. -/
theorem Left.readBit {bit : Bool} {rest : List Bool} (h : b.Left pend src)
    (hbits : pend ++ bytesBits src = bit :: rest) :
    ∃ b' pend' src', b.readBit = .ok (bit, b') ∧ b'.Left pend' src' ∧
      pend' ++ bytesBits src' = rest := by
  -- the first of the bits from position `k` of the bit buffer
  have htake : ∀ (c : UInt8) (k : Nat) (t : List Bool), (byteBits c).drop k = bit :: t →
      c.toNat.testBit (8 - (k + 1)) = bit ∧ (byteBits c).drop (k + 1) = t := by
    intro c k t hdrop
    have hk : k < 8 := by
      by_contra hge
      rw [drop_of_length_le (by rw [length_byteBits]; omega)] at hdrop
      cases hdrop
    constructor
    · have hat : (byteBits c)[k]? = some bit := by
        rw [← head?_drop, hdrop]
        rfl
      rw [byteBits, getElem?_natBits hk] at hat
      have hplace : 8 - (k + 1) = 8 - 1 - k := by omega
      rw [hplace]
      exact Option.some.inj hat
    · rw [← drop_drop, hdrop]
      rfl
  cases pend with
  | nil =>
    -- the bit buffer is used up, so the bit is the first of the next byte
    have hempty : b.bitpos ≥ 8 := by
      have hlen := congrArg length h.pending
      rw [length_drop, length_byteBits, length_nil] at hlen
      omega
    cases src with
    | nil => cases hbits
    | cons c src =>
      obtain ⟨b₁, hread, h₁⟩ := h.readByte
      rw [nil_append, bytesBits_cons] at hbits
      obtain ⟨t, ht⟩ : ∃ t, byteBits c = bit :: t := by
        cases hc : byteBits c with
        | nil =>
          have hlen := length_byteBits c
          rw [hc] at hlen
          cases hlen
        | cons x t =>
          rw [hc, cons_append] at hbits
          rw [(cons.inj hbits).1]
          exact ⟨t, rfl⟩
      obtain ⟨hbit, htail⟩ := htake c 0 t ht
      refine ⟨{ b₁ with curbitval := c, bitpos := 1 }, t, src, ?_,
        ⟨h₁.pos, Nat.le_refl 1, htail.symm, h₁.bytes⟩, ?_⟩
      · rw [ByteBuffer.readBit, if_pos hempty, hread]
        exact congrArg (fun x => Except.ok (x, { b₁ with curbitval := c, bitpos := 1 })) hbit
      · rw [ht, cons_append] at hbits
        exact (cons.inj hbits).2
  | cons x t =>
    have hopen : ¬ b.bitpos ≥ 8 := by
      have hlen := congrArg length h.pending
      rw [length_drop, length_byteBits, length_cons] at hlen
      omega
    rw [cons_append] at hbits
    obtain ⟨rfl, hrest⟩ := cons.inj hbits
    obtain ⟨hbit, htail⟩ := htake b.curbitval b.bitpos t h.pending.symm
    refine ⟨{ b with bitpos := b.bitpos + 1 }, t, src, ?_,
      ⟨h.pos, Nat.le_add_left 1 _, htail.symm, h.bytes⟩, hrest⟩
    rw [ByteBuffer.readBit, if_neg hopen]
    exact congrArg (fun x => Except.ok (x, { b with bitpos := b.bitpos + 1 })) hbit

/-- A number with the bits of `w` below those of `value`. -/
theorem or_shiftLeft_testBit (w left : Nat) :
    (w.testBit left).toNat <<< left ||| w % 2 ^ left = w % 2 ^ (left + 1) := by
  apply Nat.eq_of_testBit_eq
  intro i
  rw [Nat.testBit_or, Nat.testBit_mod_two_pow, Nat.testBit_mod_two_pow, Nat.testBit_shiftLeft]
  rcases Nat.lt_trichotomy i left with hlt | rfl | hgt
  · simp [hlt, Nat.not_le.mpr hlt, Nat.lt_succ_of_lt hlt]
  · cases w.testBit i <;> simp
  · have hbit : (w.testBit left).toNat.testBit (i - left) = false := by
      rw [Nat.testBit_bool_toNat]
      have hne : i - left ≠ 0 := by omega
      simp [hne]
    have hnot : ¬ i < left + 1 := by omega
    have hnot' : ¬ i < left := by omega
    simp [hbit, hnot, hnot']

/-- The loop of `ReadBits` takes the bits left and puts them below the value. -/
theorem Left.readBitsLoop {n w : Nat} {rest : List Bool} (h : b.Left pend src)
    (hbits : pend ++ bytesBits src = natBits n w ++ rest) (value : UInt32) :
    ∃ b' pend' src', b.readBitsLoop n value = .ok (value ||| UInt32.ofNat (w % 2 ^ n), b') ∧
      b'.Left pend' src' ∧ pend' ++ bytesBits src' = rest := by
  induction n generalizing b pend src value with
  | zero =>
    refine ⟨b, pend, src, ?_, h, hbits⟩
    rw [Nat.pow_zero, Nat.mod_one, ByteBuffer.readBitsLoop]
    simp
  | succ n ih =>
    rw [natBits, cons_append] at hbits
    obtain ⟨b₁, pend₁, src₁, hread, h₁, hbits₁⟩ := h.readBit hbits
    obtain ⟨b', pend', src', hloop, h', hbits'⟩ := ih h₁ hbits₁
      (value ||| UInt32.ofNat ((w.testBit n).toNat <<< n))
    refine ⟨b', pend', src', ?_, h', hbits'⟩
    rw [UInt32.or_assoc, ← UInt32.ofNat_or, or_shiftLeft_testBit] at hloop
    rw [ByteBuffer.readBitsLoop, hread]
    exact hloop

/-- What is still to be read does not change the bits above. -/
theorem testBit_readBitsLoop {n : Nat} {value result : UInt32} {b' : ByteBuffer} (hn : n ≤ 32)
    (h : b.readBitsLoop n value = .ok (result, b')) {j : Nat} (hj : n ≤ j) :
    result.toNat.testBit j = value.toNat.testBit j := by
  induction n generalizing b value with
  | zero =>
    cases h
    rfl
  | succ n ih =>
    rw [ByteBuffer.readBitsLoop] at h
    cases hread : b.readBit with
    | error e =>
      rw [hread] at h
      cases h
    | ok p =>
      rw [hread] at h
      have hrest := ih (by omega) h (by omega)
      have hlow : (UInt32.ofNat (p.1.toNat <<< n)).toNat.testBit j = false := by
        rw [UInt32.toNat_ofNat', Nat.testBit_mod_two_pow, Nat.testBit_shiftLeft,
          Nat.testBit_bool_toNat]
        have hne : j - n ≠ 0 := by omega
        simp [hne]
      rw [hrest, UInt32.toNat_or, Nat.testBit_or, hlow, Bool.or_false]

end ByteBuffer

end TrinityCore.Packets
