import TrinityCore.Packets.ByteBufferRead

/-!
# Round trips through a byte buffer

The reader keeps the bits of a started byte over a read of bytes, where the writer has filled
the byte up. Fields read back, for all their values, exactly when no bits follow bytes that
follow a started byte, and no field of 32 bits loses its value in the mask of `WriteBits`.
-/

namespace TrinityCore.Packets

open Field List

open BitString ByteBuffer

/-! ### What is written, from the reader's side -/

/-- The bits of fields behind `p` bits, with the last flush. -/
def encodeFrom (wide : Int32) (p : Nat) : List Field → List Bool
  | [] => List.replicate (pad p) false
  | f :: fields =>
    match f.chunk wide with
    | .bits l => l ++ encodeFrom wide (p + l.length) fields
    | .bytes l => List.replicate (pad p) false ++ (bytesBits l ++ encodeFrom wide 0 fields)

variable {p q n : Nat} {l storage : List UInt8} {fields : List Field} {wide : Int32}

/-- Whole bytes in front do not matter. -/
theorem encodeFrom_mod (wide : Int32) (h : p % 8 = q % 8) (fields : List Field) :
    encodeFrom wide p fields = encodeFrom wide q fields := by
  have hpad : pad p = pad q := by rw [← pad_mod p, h, pad_mod]
  induction fields generalizing p q with
  | nil => rw [encodeFrom, encodeFrom, hpad]
  | cons f fields ih =>
    rw [encodeFrom, encodeFrom]
    cases f.chunk wide with
    | bits l =>
      have hmod : (p + l.length) % 8 = (q + l.length) % 8 := by omega
      have hpad' : pad (p + l.length) = pad (q + l.length) := by rw [← pad_mod, hmod, pad_mod]
      show l ++ _ = l ++ _
      rw [ih hmod hpad']
    | bytes l =>
      show replicate _ _ ++ _ = replicate _ _ ++ _
      rw [hpad]

/-- The writer writes what the reader expects. -/
theorem align_encode (wide : Int32) (bits : List Bool) (fields : List Field) :
    align (encode wide bits fields) = bits ++ encodeFrom wide bits.length fields := by
  induction fields generalizing bits with
  | nil => rfl
  | cons f fields ih =>
    rw [encodeFrom]
    show align (encode wide ((f.chunk wide).put bits) fields) = _
    rw [ih]
    cases f.chunk wide with
    | bits l =>
      show bits ++ l ++ encodeFrom wide (bits ++ l).length fields = _
      rw [length_append, append_assoc]
    | bytes l =>
      have hmod : (align bits ++ bytesBits l).length % 8 = 0 % 8 := by
        have halign := length_align_mod bits
        rw [length_append, length_bytesBits]
        omega
      show align bits ++ bytesBits l ++ encodeFrom wide (align bits ++ bytesBits l).length fields = _
      rw [encodeFrom_mod wide hmod, align, append_assoc, append_assoc]

/-- What is written ends with a whole byte. -/
theorem length_encodeFrom_mod (wide : Int32) (p : Nat) (fields : List Field) :
    (p + (encodeFrom wide p fields).length) % 8 = 0 := by
  have haligned := length_align_mod (encode wide (replicate p false) fields)
  rw [align_encode, length_append, length_replicate] at haligned
  exact haligned

/-! ### One field -/

/-- What a field reads back as: its value, but bits as `WriteBits` keeps them. -/
def Field.stored (wide : Int32) : Field → Value
  | .bits n value => .bits (UInt32.ofNat (keptBits wide value n.val).toNat)
  | f => f.value

namespace ByteBuffer

variable {wide : Int32} {b : ByteBuffer} {pend : List Bool} {src : List UInt8} {f : Field}

/-! The kinds that a function of its own reads. -/

theorem read_bit {r : Bool × ByteBuffer} (h : b.readBit = .ok r) :
    Kind.bit.read b = .ok (.bit r.1, r.2) := by
  rw [Kind.read, h]
  rfl

theorem read_bits {n : BitCount} {r : UInt32 × ByteBuffer}
    (h : b.readBits n.val = .ok r) : (Kind.bits n).read b = .ok (.bits r.1, r.2) := by
  rw [Kind.read, h]
  rfl

theorem read_bits_error {n : BitCount} {e : Failure}
    (h : b.readBits n.val = .error e) : (Kind.bits n).read b = .error e := by
  rw [Kind.read, h]
  rfl

theorem read_int {w : IntWidth} {r : BitVec (8 * w.bytes) × ByteBuffer}
    (h : b.readInt w.bytes = .ok r) : (Kind.int w).read b = .ok (.int w r.1, r.2) := by
  rw [Kind.read, h]
  rfl

theorem read_packGUID {r : UInt64 × ByteBuffer} (h : b.readPackGUID = .ok r) :
    Kind.packGUID.read b = .ok (.packGUID r.1, r.2) := by
  rw [Kind.read, h]
  rfl

theorem read_cstring {r : List UInt8 × ByteBuffer} (h : b.readCString = r) :
    Kind.cstring.read b = .ok (.cstring r.1, r.2) := by
  rw [Kind.read, h]

/-- A field of bits is read from the bits left. -/
theorem Left.readBitsField {l rest : List Bool} (hf : f.chunk wide = .bits l)
    (h : b.Left pend src) (hbits : pend ++ bytesBits src = l ++ rest) :
    ∃ b' pend' src', f.kind.read b = .ok (f.stored wide, b') ∧ b'.Left pend' src' ∧
      pend' ++ bytesBits src' = rest := by
  cases f with
  | bit value =>
    cases hf
    obtain ⟨b', pend', src', hread, h', hbits'⟩ := h.readBit hbits
    exact ⟨b', pend', src', read_bit hread, h', hbits'⟩
  | bits n value =>
    cases hf
    obtain ⟨b', pend', src', hread, h', hbits'⟩ := h.readBitsLoop hbits 0
    have hlt := keptBits_lt wide value n.property.2
    rw [Nat.mod_eq_of_lt hlt, UInt32.zero_or] at hread
    exact ⟨b', pend', src', read_bits hread, h', hbits'⟩
  | int w value => cases hf
  | packGUID guid => cases hf
  | cstring str => cases hf

/-- A field of bytes is read from the bytes left. -/
theorem Left.readBytesField {rest : List UInt8} (hf : f.chunk wide = .bytes l)
    (h : b.Left pend (l ++ rest)) :
    ∃ b', f.kind.read b = .ok (f.stored wide, b') ∧ b'.Left pend rest := by
  cases f with
  | bit value => cases hf
  | bits n value => cases hf
  | int w value =>
    cases hf
    obtain ⟨b', hread, h'⟩ := h.readInt
    exact ⟨b', read_int hread, h'⟩
  | packGUID guid =>
    cases hf
    obtain ⟨b', hread, h'⟩ := h.readPackGUID
    exact ⟨b', read_packGUID hread, h'⟩
  | cstring str =>
    cases hf
    obtain ⟨b', hread, h'⟩ := h.readCString
    exact ⟨b', read_cstring hread, h'⟩

/-- A field of bytes starts after the fill, which stays in front of what follows. -/
theorem Left.readAligned {rest : List Bool} (hf : f.chunk wide = .bytes l) (h : b.Left pend src)
    (hbits : pend ++ bytesBits src = List.replicate (pad p) false ++ (bytesBits l ++ rest))
    (hlen : pend.length = pad p) :
    pend = List.replicate (pad p) false ∧
      ∃ b' src', f.kind.read b = .ok (f.stored wide, b') ∧ b'.Left pend src' ∧
        bytesBits src' = rest := by
  obtain ⟨hpend, hsrc⟩ := append_inj hbits (by rw [hlen, length_replicate])
  obtain ⟨src', rfl, hrest⟩ := exists_append_of_bytesBits_eq hsrc
  obtain ⟨b', hread, h'⟩ := h.readBytesField hf
  exact ⟨hpend, b', src', hread, h', hrest⟩

end ByteBuffer

/-! ### Shapes -/

/-- The bits a field of bits takes. -/
def Kind.width : Kind → Option Nat
  | .bit => some 1
  | .bits n => some n.val
  | _ => none

/-- No bits follow bytes behind a started byte. `p` is the number of bits since the last bytes,
and `stale` tells that a started byte is behind these. -/
def alignedFrom (p : Nat) (stale : Bool) : List Kind → Bool
  | [] => true
  | k :: kinds =>
    match k.width with
    | some n => !stale && alignedFrom (p + n) false kinds
    | none => alignedFrom 0 (stale || p % 8 != 0) kinds

theorem Field.width_kind (wide : Int32) (f : Field) : f.kind.width =
    match f.chunk wide with
    | .bits l => some l.length
    | .bytes _ => none := by
  cases f with
  | bits n value =>
    show some n.val = some (natBits n.val _).length
    rw [length_natBits]
  | _ => rfl

/-- What is left to read is what is written for the fields still to come: behind the pending
bits, or, when these are of a byte behind, apart from them. -/
def Ahead (wide : Int32) (p : Nat) (stale : Bool) (fields : List Field) (pend : List Bool)
    (src : List UInt8) : Prop :=
  if stale then
    p = 0 ∧ (∃ k, pend = List.replicate (k + 1) false) ∧ bytesBits src = encodeFrom wide 0 fields
  else pend ++ bytesBits src = encodeFrom wide p fields

namespace ByteBuffer

variable {wide : Int32} {b : ByteBuffer} {pend : List Bool} {src : List UInt8} {f : Field}

/-- The pending bits are those missing to the whole byte. -/
theorem Left.length_eq_pad (h : b.Left pend src)
    (hbits : pend ++ bytesBits src = encodeFrom wide p fields) : pend.length = pad p := by
  have hlt := h.length_lt
  have hmod := length_encodeFrom_mod wide p fields
  rw [← hbits, length_append, length_bytesBits] at hmod
  unfold pad
  omega

/-- One field of bits, when the reader is not behind. -/
theorem Left.stepBits {l : List Bool} (hf : f.chunk wide = .bits l) (h : b.Left pend src)
    (hahead : Ahead wide p false (f :: fields) pend src) :
    ∃ b' pend' src', f.kind.read b = .ok (f.stored wide, b') ∧ b'.Left pend' src' ∧
      Ahead wide (p + l.length) false fields pend' src' := by
  have hbits : pend ++ bytesBits src = encodeFrom wide p (f :: fields) := hahead
  rw [encodeFrom, hf] at hbits
  exact h.readBitsField hf hbits

/-- One field of bytes. -/
theorem Left.stepBytes {stale : Bool} (hf : f.chunk wide = .bytes l) (h : b.Left pend src)
    (hahead : Ahead wide p stale (f :: fields) pend src) :
    ∃ b' pend' src', f.kind.read b = .ok (f.stored wide, b') ∧ b'.Left pend' src' ∧
      Ahead wide 0 (stale || p % 8 != 0) fields pend' src' := by
  cases stale with
  | true =>
    obtain ⟨-, hpend, hbits⟩ := hahead
    rw [encodeFrom, hf] at hbits
    obtain ⟨src', rfl, hrest⟩ := exists_append_of_bytesBits_eq hbits
    obtain ⟨b', hread, h'⟩ := h.readBytesField hf
    exact ⟨b', pend, src', hread, h', rfl, hpend, hrest⟩
  | false =>
    have hbits : pend ++ bytesBits src = encodeFrom wide p (f :: fields) := hahead
    have hlen := h.length_eq_pad hbits
    rw [encodeFrom, hf] at hbits
    obtain ⟨hpend, b', src', hread, h', hrest⟩ := h.readAligned hf hbits hlen
    refine ⟨b', pend, src', hread, h', ?_⟩
    by_cases hstart : p % 8 = 0
    · have hnil : pend = [] := by
        rw [hpend, pad_eq_zero_iff.mpr hstart]
        rfl
      rw [hstart, hnil]
      exact hrest
    · have hpos : pad p ≠ 0 := fun hzero => hstart (pad_eq_zero_iff.mp hzero)
      have hbehind : (p % 8 != 0) = true := by simpa using hstart
      rw [hbehind]
      refine ⟨rfl, ⟨pad p - 1, ?_⟩, hrest⟩
      rw [hpend]
      congr 1
      omega

/-- Reading a field and then the rest. -/
theorem readFields_cons {kind : Kind} {kinds : List Kind} {value : Value} {b' : ByteBuffer}
    (h : kind.read b = .ok (value, b')) : b.readFields (kind :: kinds) =
      (do
        let (values, b) ← b'.readFields kinds
        return (value :: values, b)) := by
  rw [readFields, h]
  rfl

/-- Fields of an aligned shape are read as they are stored, to the end. -/
theorem Left.readFields {stale : Bool} (h : b.Left pend src)
    (hahead : Ahead wide p stale fields pend src)
    (haligned : alignedFrom p stale (fields.map kind) = true) :
    ∃ b', b.readFields (fields.map kind) = .ok (fields.map (stored wide), b') ∧
      b'.rpos = b'.size := by
  induction fields generalizing b pend src p stale with
  | nil =>
    have hnil : src = [] := by
      cases stale with
      | true =>
        obtain ⟨-, -, hbits⟩ := hahead
        exact bytesBits_inj hbits
      | false =>
        have hbits : pend ++ bytesBits src = encodeFrom wide p [] := hahead
        have hlen := congrArg length hbits
        rw [length_append, h.length_eq_pad hbits, length_bytesBits, encodeFrom,
          length_replicate] at hlen
        exact eq_nil_of_length_eq_zero (by omega)
    subst hnil
    exact ⟨b, rfl, h.rpos_eq⟩
  | cons f fields ih =>
    -- the rest, after this field
    have hrest : ∀ {b₁ : ByteBuffer} {pend₁ : List Bool} {src₁ : List UInt8} {p₁ : Nat}
        {stale₁ : Bool}, f.kind.read b = .ok (f.stored wide, b₁) → b₁.Left pend₁ src₁ →
        Ahead wide p₁ stale₁ fields pend₁ src₁ →
        alignedFrom p₁ stale₁ (fields.map kind) = true →
        ∃ b', b.readFields ((f :: fields).map kind) =
          .ok ((f :: fields).map (stored wide), b') ∧ b'.rpos = b'.size := by
      intro b₁ pend₁ src₁ p₁ stale₁ hread h₁ hahead₁ haligned₁
      obtain ⟨b', hfields, hend⟩ := ih h₁ hahead₁ haligned₁
      refine ⟨b', ?_, hend⟩
      rw [map_cons, readFields_cons hread, hfields]
      rfl
    have hwidth := f.width_kind wide
    rw [map_cons, alignedFrom, hwidth] at haligned
    cases hf : f.chunk wide with
    | bits l =>
      rw [hf] at haligned
      obtain ⟨hstale, haligned₁⟩ := Bool.and_eq_true_iff.mp haligned
      have hfresh : stale = false := by simpa using hstale
      subst hfresh
      obtain ⟨b₁, pend₁, src₁, hread, h₁, hahead₁⟩ := h.stepBits hf hahead
      exact hrest hread h₁ hahead₁ haligned₁
    | bytes l =>
      rw [hf] at haligned
      obtain ⟨b₁, pend₁, src₁, hread, h₁, hahead₁⟩ := h.stepBytes hf hahead
      exact hrest hread h₁ hahead₁ haligned

end ByteBuffer

/-! ### Values that do not read back -/

/-- A field of the kind with every bit set, and nothing in a GUID or a string. -/
def Kind.sample : Kind → Field
  | .bit => .bit true
  | .bits n => .bits n (-1)
  | .int w => .int w 0
  | .packGUID => .packGUID 0
  | .cstring => .cstring ⟨[], nofun⟩

@[simp] theorem Kind.kind_sample (k : Kind) : k.sample.kind = k := by
  cases k <;> rfl

theorem map_kind_sample (shape : List Kind) :
    (shape.map Kind.sample).map kind = shape := by
  rw [map_map]
  exact (map_congr_left fun k _ => k.kind_sample).trans (map_id shape)

namespace ByteBuffer

variable {wide : Int32} {b : ByteBuffer} {pend : List Bool} {src : List UInt8}

/-- A reader that is behind reads a zero for the first of the bits. -/
theorem Left.read_stale {k : Kind} (h : b.Left pend src)
    (hahead : Ahead wide 0 true fields pend src) (hk : k.width = some n) {value : Value}
    {b' : ByteBuffer} (hread : k.read b = .ok (value, b')) : value ≠ k.sample.value := by
  obtain ⟨-, ⟨j, hpend⟩, -⟩ := hahead
  have hbits : pend ++ bytesBits src = false :: (replicate j false ++ bytesBits src) := by
    rw [hpend, replicate_succ, cons_append]
  obtain ⟨b₁, pend₁, src₁, hbit, h₁, -⟩ := h.readBit hbits
  cases k with
  | bit =>
    rw [read_bit hbit] at hread
    cases hread
    intro heq
    cases heq
  | bits n =>
    obtain ⟨hpos, hle⟩ := n.property
    obtain ⟨m, hm⟩ : ∃ m, n.val = m + 1 := ⟨n.val - 1, by omega⟩
    have hbits' : b.readBits n.val =
        b₁.readBitsLoop m (0 ||| UInt32.ofNat (false.toNat <<< m)) := by
      rw [ByteBuffer.readBits, hm, ByteBuffer.readBitsLoop, hbit]
      rfl
    cases hloop : b₁.readBitsLoop m (0 ||| UInt32.ofNat (false.toNat <<< m)) with
    | error e =>
      rw [read_bits_error (hbits'.trans hloop)] at hread
      cases hread
    | ok r =>
      rw [read_bits (hbits'.trans hloop)] at hread
      cases hread
      intro heq
      -- the first bit read is the highest of the value
      have htop := testBit_readBitsLoop (by omega) hloop (Nat.le_refl m)
      have hzero : (0 ||| UInt32.ofNat (false.toNat <<< m) : UInt32).toNat.testBit m = false := by
        simp
      have hvalue : r.1 = UInt32.ofNat ((-1 : UInt64).toNat % 2 ^ n.val) := by
        injection heq
      have hset : (UInt32.ofNat ((-1 : UInt64).toNat % 2 ^ n.val)).toNat.testBit m = true := by
        have hones : (-1 : UInt64).toNat = 2 ^ 64 - 1 := rfl
        rw [UInt32.toNat_ofNat', Nat.testBit_mod_two_pow, Nat.testBit_mod_two_pow, hones,
          Nat.testBit_two_pow_sub_one]
        simp only [Bool.and_eq_true, decide_eq_true_iff]
        omega
      rw [hvalue, hset, hzero] at htop
      cases htop
  | int w => cases hk
  | packGUID => cases hk
  | cstring => cases hk

/-- The samples of a shape that is not aligned are not read back. -/
theorem Left.readFields_misaligned {stale : Bool} {shape : List Kind} (h : b.Left pend src)
    (hahead : Ahead wide p stale (shape.map Kind.sample) pend src)
    (hnot : alignedFrom p stale shape = false) {values : List Value} {b' : ByteBuffer}
    (hread : b.readFields shape = .ok (values, b')) :
    values ≠ (shape.map Kind.sample).map value := by
  induction shape generalizing b pend src p stale values b' with
  | nil => cases hnot
  | cons k shape ih =>
    -- what is read is the value of this field and the values of the rest
    have hsplit : ∃ value b₁ rest, k.read b = .ok (value, b₁) ∧
        b₁.readFields shape = .ok (rest, b') ∧ values = value :: rest := by
      cases hk : k.read b with
      | error e =>
        rw [ByteBuffer.readFields, hk] at hread
        cases hread
      | ok r =>
        rw [readFields_cons hk] at hread
        cases hrest : r.2.readFields shape with
        | error e =>
          rw [hrest] at hread
          cases hread
        | ok t =>
          rw [hrest] at hread
          cases hread
          exact ⟨r.1, r.2, t.1, rfl, hrest, rfl⟩
    obtain ⟨value, b₁, rest, hk, hrest, rfl⟩ := hsplit
    have hwidth := k.sample.width_kind wide
    rw [Kind.kind_sample] at hwidth
    rw [alignedFrom, hwidth] at hnot
    intro heq
    rw [map_cons, map_cons] at heq
    obtain ⟨hvalue, hvalues⟩ := cons.inj heq
    cases hf : k.sample.chunk wide with
    | bits l =>
      rw [hf] at hnot hwidth
      cases stale with
      | true =>
        have hzero : p = 0 := hahead.1
        subst hzero
        exact h.read_stale hahead hwidth hk hvalue
      | false =>
        obtain ⟨b₂, pend₂, src₂, hread₂, h₂, hahead₂⟩ := h.stepBits hf hahead
        rw [Kind.kind_sample, hk] at hread₂
        cases hread₂
        exact ih h₂ hahead₂ hnot hrest hvalues
    | bytes l =>
      rw [hf] at hnot
      obtain ⟨b₂, pend₂, src₂, hread₂, h₂, hahead₂⟩ := h.stepBytes hf hahead
      rw [Kind.kind_sample, hk] at hread₂
      cases hread₂
      exact ih h₂ hahead₂ hnot hrest hvalues

end ByteBuffer

/-! ### The masks -/

/-- The mask of the `int`, when `1 << 32` does not matter or is compiled to zero. -/
theorem intMask_eq (h : n ≤ 31 ∨ wide = 0) : intMask wide n = intMask 0 n := by
  rcases h with h | rfl
  · have hlt : n < 32 := by omega
    rw [intMask, intMask, if_pos hlt, if_pos hlt]
  · rfl

theorem intMask_mod : ∀ n : Fin 33, (intMask 0 n).toNat % 2 ^ n.val = 2 ^ n.val - 1 := by
  decide +kernel

/-- Up to 31 bits, and at 32 when `1 << 32` is compiled to zero, the masks keep every bit. -/
theorem natBits_keptBits (hn : n ≤ 32) (h : n ≤ 31 ∨ wide = 0) (value : UInt64) :
    natBits n (keptBits wide value n).toNat = natBits n value.toNat := by
  have hint : (intMask wide n).toNat % 2 ^ n = 2 ^ n - 1 := by
    rw [intMask_eq h]
    exact intMask_mod ⟨n, by omega⟩
  have hmask : (1 <<< UInt64.ofNat n - 1 : UInt64).toNat = 2 ^ n - 1 := by
    interval_cases n <;> rfl
  apply natBits_congr
  intro i hi
  have hbit : (intMask wide n).toNat.testBit i = true := by
    have hlow := congrArg (Nat.testBit · i) hint
    simp only [Nat.testBit_mod_two_pow, Nat.testBit_two_pow_sub_one, hi, decide_true,
      Bool.true_and] at hlow
    exact hlow
  rw [keptBits, UInt64.toNat_and, UInt64.toNat_and, hmask, Nat.testBit_and, Nat.testBit_and, hbit,
    Nat.testBit_two_pow_sub_one]
  simp [hi]

/-- At 32 bits, all ones are kept only when `1 << 32` is compiled to zero. -/
theorem wide_eq_zero_of_keptBits
    (h : natBits 32 (keptBits wide (-1) 32).toNat = natBits 32 (-1 : UInt64).toNat) : wide = 0 := by
  have hones : wide - 1 = -1 := by
    apply Int32.toBitVec_inj.mp
    apply BitVec.eq_of_getLsbD_eq
    intro i hi
    have hbit := testBit_eq_of_natBits_eq h hi
    have hset : (-1 : UInt64).toNat.testBit i = true := by
      show (2 ^ 64 - 1 : Nat).testBit i = true
      rw [Nat.testBit_two_pow_sub_one]
      simpa using (by omega : i < 64)
    rw [hset, keptBits, UInt64.toNat_and, UInt64.toNat_and, Nat.testBit_and, Nat.testBit_and,
      hset, Bool.true_and, Bool.and_eq_true] at hbit
    have hmask : (wide - 1).toBitVec.getLsbD i = true := by
      have hext : ((wide - 1).toBitVec.signExtend 64).getLsbD i = true := hbit.1
      rw [BitVec.getLsbD_signExtend, if_pos hi] at hext
      exact (Bool.and_eq_true_iff.mp hext).2
    have hminus : (-1 : Int32).toBitVec.getLsbD i = true := by
      have hall : (-1 : Int32).toBitVec = BitVec.allOnes 32 := rfl
      rw [hall, BitVec.getLsbD_allOnes]
      exact decide_eq_true hi
    rw [hmask, hminus]
  have hsum := congrArg (· + 1) hones
  simpa using hsum

/-- Every value of the field is stored as it is. -/
theorem Field.stored_eq_value (f : Field) (h : ∀ n, f.kind = .bits n → n.val ≤ 31 ∨ wide = 0) :
    f.stored wide = f.value := by
  cases f with
  | bits n value =>
    have hkept := natBits_keptBits n.property.2 (h n rfl) value
    have hmod := mod_two_pow_eq_of_natBits_eq hkept
    rw [Nat.mod_eq_of_lt (keptBits_lt wide value n.property.2)] at hmod
    show Value.bits (UInt32.ofNat (keptBits wide value n.val).toNat) = _
    rw [hmod]
    rfl
  | _ => rfl

/-! ### `PutBits` -/

namespace ByteBuffer

/-- The `k`th bit of the byte becomes `bit`. -/
theorem byteBits_putBit (c : UInt8) {k : Nat} (hk : k < 8) (bit : Bool) :
    byteBits (if bit then c ||| UInt8.ofNat (1 <<< (7 - k))
      else c &&& ~~~(UInt8.ofNat (1 <<< (7 - k)))) = (byteBits c).set k bit := by
  have hone : ∀ i, i < 8 →
      (UInt8.ofNat (1 <<< (7 - k))).toNat.testBit i = decide (i = 7 - k) := by
    intro i hi
    rw [UInt8.toNat_ofNat', Nat.testBit_mod_two_pow, Nat.shiftLeft_eq, Nat.one_mul,
      Nat.testBit_two_pow]
    simp [hi, eq_comm]
  have hnot : ∀ i, i < 8 →
      (~~~(UInt8.ofNat (1 <<< (7 - k)))).toNat.testBit i = !decide (i = 7 - k) := by
    intro i hi
    rw [← hone i hi, ← UInt8.toNat_toBitVec, ← UInt8.toNat_toBitVec, UInt8.toBitVec_not,
      BitVec.testBit_toNat, BitVec.testBit_toNat, BitVec.getLsbD_not]
    simp [hi]
  apply ext_getElem?
  intro j
  by_cases hj : j < 8
  · rw [getElem?_set, length_byteBits, byteBits, byteBits, getElem?_natBits hj,
      getElem?_natBits hj]
    have hplace : 8 - 1 - j = 7 - k ↔ k = j := by omega
    cases bit with
    | true =>
      rw [if_pos rfl, UInt8.toNat_or, Nat.testBit_or, hone _ (by omega)]
      by_cases heq : k = j
      · simp [heq, hj]
      · have hne : ¬ 8 - 1 - j = 7 - k := fun h => heq (hplace.mp h)
        simp [heq, hne]
    | false =>
      rw [if_neg Bool.false_ne_true, UInt8.toNat_and, Nat.testBit_and, hnot _ (by omega)]
      by_cases heq : k = j
      · simp [heq, hj]
      · have hne : ¬ 8 - 1 - j = 7 - k := fun h => heq (hplace.mp h)
        simp [heq, hne]
  · rw [getElem?_eq_none (by rw [length_byteBits]; omega),
      getElem?_eq_none (by rw [length_set, length_byteBits]; omega)]

/-- One round of `PutBits` sets one bit of the buffer. -/
theorem bytesBits_putBit (hp : p < 8 * storage.length) (bit : Bool) :
    bytesBits (putBit storage p bit) = (bytesBits storage).set p bit := by
  induction storage generalizing p with
  | nil => exact absurd hp (Nat.not_lt_zero p)
  | cons c storage ih =>
    unfold putBit
    by_cases hfirst : p < 8
    · have hdiv : p / 8 = 0 := by omega
      have hmod : p % 8 = p := by omega
      rw [hdiv, hmod, modify_zero_cons, bytesBits_cons, bytesBits_cons,
        byteBits_putBit c hfirst bit, set_append_left _ _ (by rw [length_byteBits]; exact hfirst)]
    · obtain ⟨q, rfl⟩ : ∃ q, p = 8 + q := ⟨p - 8, by omega⟩
      have hdiv : (8 + q) / 8 = q / 8 + 1 := by omega
      have hmod : (8 + q) % 8 = q % 8 := by omega
      have hq : q < 8 * storage.length := by
        rw [length_cons] at hp
        omega
      rw [hdiv, hmod, modify_succ_cons, bytesBits_cons, bytesBits_cons,
        set_append_right _ _ (by rw [length_byteBits]; omega), length_byteBits,
        Nat.add_sub_cancel_left]
      congr 1
      exact ih hq

/-- The loop of `PutBits` replaces the bits from its position on. -/
theorem bytesBits_putBitsLoop {pos left : Nat} (value : UInt64) (hleft : left ≤ n)
    {front old back : List Bool} (hbits : bytesBits storage = front ++ (old ++ back))
    (hold : old.length = left) (hfront : front.length = pos + (n - left)) :
    bytesBits (putBitsLoop pos value n storage left) =
      front ++ (natBits left value.toNat ++ back) := by
  induction left generalizing storage front old with
  | zero =>
    rw [eq_nil_of_length_eq_zero hold] at hbits
    exact hbits
  | succ left ih =>
    cases old with
    | nil => cases hold
    | cons o old =>
      have hlen := congrArg length hbits
      rw [length_bytesBits, length_append, hfront, cons_append, length_cons] at hlen
      have hset : bytesBits (putBit storage (pos + (n - (left + 1))) (value.toNat.testBit left))
          = (front ++ [value.toNat.testBit left]) ++ (old ++ back) := by
        rw [bytesBits_putBit (by omega), hbits, ← hfront,
          set_append_right _ _ (Nat.le_refl _), Nat.sub_self]
        simp
      have hrest := ih (by omega) hset (Nat.succ.inj hold) (by
        rw [length_append, length_singleton, hfront]
        omega)
      rw [putBitsLoop, hrest, natBits]
      simp

end ByteBuffer

/-! ### The round trips -/

/-- The position behind the field, in bits. -/
def Field.extend (p : Nat) : Field → Nat
  | .bit _ => p + 1
  | .bits n _ => p + n.val
  | .int w _ => p + pad p + 8 * w.bytes
  | .packGUID guid => p + pad p + 8 * ((ByteBuffer.packGUID guid.toNat 0 0 []).2.length + 1)
  | .cstring str => p + pad p + 8 * (str.text.length + 1)

/-- The fields stay below the ten million bytes at which `append` fails its assertion. -/
def Fits (fields : List Field) : Prop := fields.foldl extend 0 < 80000000

instance (fields : List Field) : Decidable (Fits fields) := inferInstanceAs (Decidable (_ < _))

theorem Field.length_put (wide : Int32) (f : Field) (bits : List Bool) :
    ((f.chunk wide).put bits).length = f.extend bits.length := by
  cases f <;> simp [chunk, Chunk.put, extend, align] <;> omega

theorem length_encode (wide : Int32) (bits : List Bool) (fields : List Field) :
    (encode wide bits fields).length = fields.foldl extend bits.length := by
  induction fields generalizing bits with
  | nil => rfl
  | cons f fields ih =>
    show (encode wide ((f.chunk wide).put bits) fields).length = _
    rw [ih, length_put]
    rfl

/-- Reading the kinds of the written fields gives their values and ends at the end. -/
def ReadsBack (wide : Int32) (fields : List Field) : Prop :=
  ∃ b, ofFields wide fields = .ok b ∧
    ∃ b', b.readFields (fields.map kind) = .ok (fields.map value, b') ∧
      b'.rpos = b'.size

/-- Overwriting a placeholder by `PutBits` at the position before it gives the bytes that
writing the value directly gives. -/
def PutsBack (wide : Int32) (fields : List Field) : Prop :=
  ∀ before n placeholder after value, fields = before ++ .bits n placeholder :: after →
    ∃ b₀ b₁ b₂ b₃, writeFields wide {} before = .ok b₀ ∧ ofFields wide fields = .ok b₁ ∧
      b₁.putBits b₀.bitwpos value n.val = .ok b₂ ∧
      ofFields wide (before ++ .bits n value :: after) = .ok b₃ ∧ b₂.storage = b₃.storage

/-- The shape is aligned, and no field of 32 bits is masked by an undefined shift. -/
def InReach (wide : Int32) (shape : List Kind) : Prop :=
  alignedFrom 0 false shape = true ∧ ∀ n, Kind.bits n ∈ shape → n.val ≤ 31 ∨ wide = 0

section

variable {wide : Int32} {fields : List Field} (hfits : Fits fields)
include hfits

/-- A flushed buffer, before anything is read. -/
theorem ofFields_left :
    ∃ b, ofFields wide fields = .ok b ∧ b.Left [] b.storage ∧
      Ahead wide 0 false fields [] b.storage ∧
      bytesBits b.storage = encodeFrom wide 0 fields := by
  have hroom : (encode wide [] fields).length < 80000000 := by
    rw [length_encode]
    exact hfits
  obtain ⟨b, hwrite, hempty, hbits, hunread⟩ := ofFields_eq wide fields hroom
  rw [align_encode] at hbits
  refine ⟨b, hwrite, ⟨?_, ?_, ?_, ?_⟩, hbits, hbits⟩
  · rw [hunread]
    exact Nat.zero_le _
  · rw [hempty]
    decide
  · rw [hempty, drop_of_length_le (Nat.le_of_eq (length_byteBits _))]
  · rw [hunread]
    rfl

/-- Fields of an aligned shape are read as stored. -/
theorem readsBack_stored (haligned : alignedFrom 0 false (fields.map kind) = true) :
    ∃ b, ofFields wide fields = .ok b ∧
      ∃ b', b.readFields (fields.map kind) = .ok (fields.map (stored wide), b') ∧
        b'.rpos = b'.size := by
  obtain ⟨b, hwrite, hleft, hahead, -⟩ := @ofFields_left wide fields hfits
  exact ⟨b, hwrite, hleft.readFields hahead haligned⟩

/-- A placeholder is overwritten in place. -/
theorem putsBack_of_narrow
    (hnarrow : ∀ n, Kind.bits n ∈ fields.map kind → n.val ≤ 31 ∨ wide = 0) :
    PutsBack wide fields := by
  rintro before n placeholder after value rfl
  have hn : n.val ≤ 31 ∨ wide = 0 := hnarrow n (by simp [kind])
  have hfits' : Fits (before ++ .bits n value :: after) := by
    unfold Fits at hfits ⊢
    rw [foldl_append] at hfits ⊢
    exact hfits
  have hroom : (encode wide [] (before ++ .bits n placeholder :: after)).length < 80000000 := by
    rw [length_encode]
    exact hfits
  -- what both buffers have in front of the bits, and behind
  obtain ⟨front, hfront⟩ : ∃ front, encode wide [] before = front := ⟨_, rfl⟩
  have hsplit : ∀ v, align (encode wide [] (before ++ .bits n v :: after)) =
      front ++ (natBits n.val v.toNat ++ encodeFrom wide (front.length + n.val) after) := by
    intro v
    have happend : encode wide [] (before ++ .bits n v :: after)
        = encode wide front (.bits n v :: after) := by
      rw [← hfront]
      exact foldl_append
    rw [happend, align_encode, encodeFrom]
    show front ++ (natBits n.val (keptBits wide v n.val).toNat ++
      encodeFrom wide (front.length + (natBits n.val (keptBits wide v n.val).toNat).length) after) = _
    rw [natBits_keptBits n.property.2 hn, length_natBits]
  have hroom₀ : (encode wide [] before).length < 80000000 := by
    have hle := length_le_encode wide (encode wide [] before) (.bits n placeholder :: after)
    have happend : encode wide [] (before ++ .bits n placeholder :: after)
        = encode wide (encode wide [] before) (.bits n placeholder :: after) := foldl_append
    rw [happend] at hroom
    omega
  obtain ⟨b₀, hwrite₀, h₀⟩ := denotes_empty.writeFields wide before hroom₀
  obtain ⟨b₁, hwrite₁, -, hbits₁, -⟩ := ofFields_eq wide _ hroom
  obtain ⟨b₃, hwrite₃, -, -, hbits₃⟩ := @ofFields_left wide _ hfits'
  rw [hsplit] at hbits₁
  have hpos : b₀.bitwpos = front.length := by
    rw [bitwpos_of_denotes h₀, hfront]
  have hinside : b₀.bitwpos + n.val ≤ b₁.size * 8 ∧ n.val ≠ 0 := by
    have hlen := congrArg length hbits₁
    rw [length_bytesBits, length_append, length_append, length_natBits] at hlen
    have hone := n.property.1
    rw [hpos]
    constructor
    · show front.length + n.val ≤ b₁.storage.length * 8
      omega
    · omega
  refine ⟨b₀, b₁, _, b₃, hwrite₀, hwrite₁, if_pos hinside, hwrite₃, ?_⟩
  apply bytesBits_inj
  show bytesBits (putBitsLoop b₀.bitwpos value n.val b₁.storage n.val) = bytesBits b₃.storage
  rw [bytesBits_putBitsLoop value (Nat.le_refl _) hbits₁ (length_natBits _ _) (by
    rw [hpos, Nat.sub_self, Nat.add_zero]), hbits₃]
  have hdirect := hsplit value
  rw [align_encode, nil_append] at hdirect
  exact hdirect.symm

end

/-- The sample is the shortest field of its kind. -/
theorem Field.extend_sample_le (f : Field) (h : q ≤ p) : f.kind.sample.extend q ≤ f.extend p := by
  have hpad : q + pad q ≤ p + pad p := by
    unfold pad
    omega
  cases f with
  | bit value => exact Nat.succ_le_succ h
  | bits n value => exact Nat.add_le_add_right h n.val
  | int w value => exact Nat.add_le_add_right hpad _
  | packGUID guid =>
    have hzero : ((ByteBuffer.packGUID 0 0 0 []).2).length = 0 := by
      unfold ByteBuffer.packGUID
      rfl
    show q + pad q + 8 * ((ByteBuffer.packGUID 0 0 0 []).2.length + 1) ≤ p + pad p + _
    rw [hzero]
    omega
  | cstring str =>
    show q + pad q + 8 * (0 + 1) ≤ p + pad p + 8 * (str.text.length + 1)
    omega

/-- Fields that fit have samples that fit. -/
theorem Fits.sample (h : Fits fields) : Fits ((fields.map kind).map Kind.sample) := by
  have hle : ∀ (fields : List Field) (p q : Nat), q ≤ p →
      ((fields.map kind).map Kind.sample).foldl extend q
        ≤ fields.foldl extend p := by
    intro fields
    induction fields with
    | nil => exact fun p q hpq => hpq
    | cons f fields ih => exact fun p q hpq => ih _ _ (f.extend_sample_le hpq)
  exact Nat.lt_of_le_of_lt (hle fields 0 0 (Nat.le_refl 0)) h

/-- All fields of a shape that can be written read back, with their placeholders overwritten,
exactly when the shape is aligned and its fields of 32 bits are not masked by an undefined
shift, or is too long to be written at all. -/
theorem readsBack_iff (wide : Int32) (shape : List Kind) :
    (∀ fields, fields.map Field.kind = shape → Fits fields →
      ReadsBack wide fields ∧ PutsBack wide fields) ↔
    (Fits (shape.map Kind.sample) → InReach wide shape) := by
  constructor
  · intro hall hfits
    obtain ⟨⟨b, hwrite, b', hread, -⟩, -⟩ := hall _ (map_kind_sample shape) hfits
    obtain ⟨b₁, hwrite₁, hleft, hahead, -⟩ := @ofFields_left wide _ hfits
    rw [hwrite] at hwrite₁
    cases hwrite₁
    rw [map_kind_sample] at hread
    have haligned : alignedFrom 0 false shape = true := by
      by_contra hnot
      exact hleft.readFields_misaligned hahead (Bool.not_eq_true _ ▸ hnot) hread rfl
    refine ⟨haligned, fun n hn => ?_⟩
    by_cases hsmall : n.val ≤ 31
    · exact .inl hsmall
    right
    have hn32 : n.val = 32 := by
      have hle := n.property.2
      omega
    -- the samples are read as stored, so all ones are kept
    obtain ⟨b₂, hread₂, -⟩ := hleft.readFields hahead (by rw [map_kind_sample]; exact haligned)
    rw [map_kind_sample, hread] at hread₂
    have hstored : (shape.map Kind.sample).map Field.value
        = (shape.map Kind.sample).map (Field.stored wide) := by
      injection hread₂ with hpair
      exact (Prod.mk.inj hpair).1
    have hone : (Kind.bits n).sample.value = (Kind.bits n).sample.stored wide :=
      map_inj_left.mp hstored _ (mem_map_of_mem hn)
    have hvalue : UInt32.ofNat ((-1 : UInt64).toNat % 2 ^ n.val)
        = UInt32.ofNat (keptBits wide (-1) n.val).toNat := by
      injection hone
    apply wide_eq_zero_of_keptBits
    rw [hn32] at hvalue
    have hlt := keptBits_lt wide (-1) (Nat.le_refl 32)
    have hnat := congrArg UInt32.toNat hvalue
    rw [UInt32.toNat_ofNat', UInt32.toNat_ofNat', Nat.mod_mod, Nat.mod_eq_of_lt hlt] at hnat
    rw [← hnat]
    apply natBits_congr
    intro i hi
    rw [Nat.testBit_mod_two_pow]
    simp [hi]
  · rintro hreach fields rfl hfits
    obtain ⟨haligned, hnarrow⟩ := hreach hfits.sample
    have hvalues : fields.map (Field.stored wide) = fields.map Field.value := by
      apply map_congr_left
      intro f hf
      apply f.stored_eq_value
      intro n hn
      exact hnarrow n (hn ▸ mem_map_of_mem hf)
    have hreads := @readsBack_stored wide _ hfits haligned
    rw [hvalues] at hreads
    exact ⟨hreads, putsBack_of_narrow hfits hnarrow⟩

/-- A bit, a byte and a bit: the second bit is read from the byte of the first. -/
theorem not_readsBack_bit_int8_bit : ¬ ∀ wide fields, Fits fields →
    ReadsBack wide fields ∧ PutsBack wide fields := by
  intro hall
  obtain ⟨b, hwrite, b', hread, -⟩ :=
    (hall 0 [.bit true, .int .int8 5, .bit true] (by decide +kernel)).1
  have hbytes : ofFields 0 [.bit true, .int .int8 5, .bit true] =
      .ok { wpos := 3, storage := [128, 5, 128] } := rfl
  rw [hbytes] at hwrite
  cases hwrite
  have hvalues : readFields { wpos := 3, storage := [128, 5, 128] } [.bit, .int .int8, .bit] =
      .ok ([.bit true, .int .int8 5, .bit false],
        { rpos := 2, wpos := 3, bitpos := 2, curbitval := 128, storage := [128, 5, 128] }) := rfl
  rw [show [Field.bit true, .int .int8 5, .bit true].map Field.kind
    = [.bit, .int .int8, .bit] from rfl, hvalues] at hread
  simp [Field.value] at hread

end TrinityCore.Packets
