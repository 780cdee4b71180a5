import Mathlib.Tactic.IntervalCases
import TrinityCore.Packets.ByteBuffer

/-!
# What writing writes

A buffer denotes the bits written so far: those of its bytes and those pending in the bit
buffer. Every write appends to them; a write of bytes first fills up with zeros.
-/

namespace TrinityCore.Packets

open List

open BitString

namespace ByteBuffer

variable {b : ByteBuffer} {pend bits : List Bool}

/-- The buffer holds the bits, the last of them pending. -/
structure Holds (b : ByteBuffer) (pend bits : List Bool) : Prop where
  full : b.wpos = b.storage.length
  room : pend.length + b.bitpos = 8
  free : 1 ≤ b.bitpos
  buffer : byteBits b.curbitval = pend ++ List.replicate b.bitpos false
  denotes : bits = bytesBits b.storage ++ pend
  unread : b.rpos = 0

/-- The buffer holds the bits. -/
def Denotes (b : ByteBuffer) (bits : List Bool) : Prop := ∃ pend, b.Holds pend bits

/-- A buffer without pending bits. -/
theorem denotes_of_empty (hfull : b.wpos = b.storage.length) (hempty : b.bitpos = 8)
    (hclear : b.curbitval = 0) (hbits : bits = bytesBits b.storage) (hunread : b.rpos = 0) :
    b.Denotes bits := by
  refine ⟨[], hfull, ?_, ?_, ?_, ?_, hunread⟩
  · rw [hempty]
    rfl
  · rw [hempty]
    decide
  · rw [hempty, hclear]
    decide
  · rw [hbits, append_nil]

/-- The empty buffer. -/
theorem denotes_empty : Denotes {} [] := denotes_of_empty rfl rfl rfl rfl rfl

theorem Holds.length_eq (h : b.Holds pend bits) :
    bits.length = 8 * b.storage.length + pend.length := by
  rw [h.denotes, length_append, length_bytesBits]

theorem Holds.size_lt (h : b.Holds pend bits) (hroom : bits.length < 80000000) :
    b.size < 10000000 := by
  have hlen := h.length_eq
  show b.storage.length < 10000000
  omega

/-- The position of the next bit. -/
theorem bitwpos_of_denotes (h : b.Denotes bits) : b.bitwpos = bits.length := by
  obtain ⟨pend, h⟩ := h
  have hlen := h.length_eq
  have hroom := h.room
  rw [bitwpos, h.full]
  omega

/-! ### Bytes -/

/-- At the end of the storage a copy appends. -/
theorem store_of_full (hfull : b.wpos = b.storage.length) (src : List UInt8) :
    b.store src =
      { b with storage := b.storage ++ src, wpos := b.storage.length + src.length } := by
  have hgrow : b.wpos + src.length - b.size = src.length := by
    rw [hfull]
    exact Nat.add_sub_cancel_left _ _
  have hstore : b.store src = { b with
      storage := (b.storage ++ replicate (b.wpos + src.length - b.size) 0).take b.wpos ++ src
        ++ (b.storage ++ replicate (b.wpos + src.length - b.size) 0).drop (b.wpos + src.length)
      wpos := b.wpos + src.length } := rfl
  rw [hstore, hgrow, hfull, take_left, drop_of_length_le (by simp), append_nil]

/-- An append when no bits are pending. -/
theorem append_of_empty (hfull : b.wpos = b.storage.length) (hempty : b.bitpos = 8)
    {src : List UInt8} (hsrc : src ≠ []) (hsize : b.size < 10000000) :
    b.append src = .ok
      { b with storage := b.storage ++ src, wpos := b.storage.length + src.length } := by
  rw [append, if_neg hsrc, if_pos hsize, flushBits, if_pos hempty]
  show Except.ok (b.store src) = _
  rw [store_of_full hfull]

/-- Flushing fills up with zeros. -/
theorem Denotes.flushBits (h : b.Denotes bits) (hroom : bits.length < 80000000) :
    ∃ b', b.flushBits = .ok b' ∧ b'.Denotes (align bits) ∧ b'.bitpos = 8 := by
  obtain ⟨pend, h⟩ := h
  have hlen := h.length_eq
  have hpend := h.room
  unfold ByteBuffer.flushBits
  by_cases hempty : b.bitpos = 8
  · rw [if_pos hempty, align_of_mod_eq_zero (by omega)]
    exact ⟨b, rfl, ⟨pend, h⟩, hempty⟩
  · have hsize : { b with bitpos := 8 }.size < 10000000 := h.size_lt hroom
    have hpad : pad bits.length = b.bitpos := by
      have hfree := h.free
      unfold pad
      omega
    rw [if_neg hempty, appendAligned, if_neg (cons_ne_nil _ _), if_pos hsize,
      store_of_full (b := { b with bitpos := 8 }) h.full]
    refine ⟨_, rfl, denotes_of_empty (by simp) rfl rfl ?_ h.unread, rfl⟩
    show align bits = bytesBits (b.storage ++ [b.curbitval])
    rw [align, hpad, h.denotes, bytesBits_append, bytesBits_cons, bytesBits_nil, h.buffer]
    simp

/-- An append writes whole bytes. -/
theorem Denotes.append (h : b.Denotes bits) (hroom : bits.length < 80000000) {src : List UInt8}
    (hsrc : src ≠ []) :
    ∃ b', b.append src = .ok b' ∧ b'.Denotes (align bits ++ bytesBits src) := by
  obtain ⟨b₁, hflush, ⟨pend, h₁⟩, hempty⟩ := h.flushBits hroom
  obtain ⟨pend', h⟩ := h
  have hpend : pend = [] := by
    have hpos := h₁.room
    rw [hempty] at hpos
    exact eq_nil_of_length_eq_zero (by omega)
  subst hpend
  rw [ByteBuffer.append, if_neg hsrc, if_pos (h.size_lt hroom), hflush]
  refine ⟨b₁.store src, rfl, [], ?_⟩
  rw [store_of_full h₁.full]
  refine ⟨by simp, h₁.room, h₁.free, h₁.buffer, ?_, h₁.unread⟩
  show align bits ++ bytesBits src = bytesBits (b₁.storage ++ src) ++ []
  rw [bytesBits_append, append_nil, h₁.denotes, append_nil]

/-! ### Bits -/

/-- A full bit buffer goes to the storage. -/
theorem Holds.emit (h : b.Holds pend bits) (hroom : bits.length < 80000000) {c : UInt8}
    {more : List Bool} (hc : byteBits c = pend ++ more) :
    { b with bitpos := 8, curbitval := c }.append [c] = .ok
      { b with
        bitpos := 8
        curbitval := c
        storage := b.storage ++ [c]
        wpos := b.storage.length + 1 } ∧
      bytesBits (b.storage ++ [c]) = bits ++ more := by
  constructor
  · exact append_of_empty (b := { b with bitpos := 8, curbitval := c }) h.full rfl
      (cons_ne_nil _ _) (h.size_lt hroom)
  · rw [bytesBits_append, bytesBits_cons, bytesBits_nil, hc, h.denotes]
    simp

/-- `WriteBit` appends the bit. -/
theorem Denotes.writeBit (h : b.Denotes bits) (hroom : bits.length < 80000000) (bit : Bool) :
    ∃ b', b.writeBit bit = .ok b' ∧ b'.Denotes (bits ++ [bit]) := by
  obtain ⟨pend, h⟩ := h
  have hpos := h.free
  have hlen := h.room
  have hk : b.bitpos = 1 + (b.bitpos - 1) := by omega
  -- the bit buffer with the bit
  have hbuf : byteBits (if bit then UInt8.ofNat (b.curbitval.toNat ||| 1 <<< (b.bitpos - 1))
      else b.curbitval) = pend ++ bit :: replicate (b.bitpos - 1) false := by
    cases bit with
    | false =>
      show byteBits b.curbitval = _
      rw [h.buffer]
      conv_lhs => rw [hk, Nat.add_comm, replicate_succ]
    | true =>
      have hlt : 1 <<< (b.bitpos - 1) < 2 ^ b.bitpos := by
        rw [Nat.shiftLeft_eq, Nat.one_mul]
        exact Nat.pow_lt_pow_right (by decide) (by omega)
      have hone := natBits_shiftLeft 1 (b.bitpos - 1) 1
      rw [← hk] at hone
      rw [if_pos rfl, byteBits_or h.buffer hlen hlt, hone]
      rfl
  obtain ⟨c, hc⟩ : ∃ c, (if bit then UInt8.ofNat (b.curbitval.toNat ||| 1 <<< (b.bitpos - 1))
      else b.curbitval) = c := ⟨_, rfl⟩
  have hwrite : b.writeBit bit = if b.bitpos - 1 = 0 then (do
      let b ← { b with bitpos := 8, curbitval := c }.append [c]
      return { b with curbitval := 0 })
    else .ok { b with bitpos := b.bitpos - 1, curbitval := c } := by
    rw [← hc]
    rfl
  rw [hc] at hbuf
  rw [hwrite]
  by_cases hlast : b.bitpos - 1 = 0
  · rw [hlast, replicate_zero] at hbuf
    obtain ⟨happend, hbytes⟩ := h.emit hroom hbuf
    rw [if_pos hlast, happend]
    exact ⟨_, rfl, denotes_of_empty (by simp) rfl rfl hbytes.symm h.unread⟩
  · rw [if_neg hlast]
    refine ⟨_, rfl, pend ++ [bit], h.full, ?_, ?_, ?_, ?_, h.unread⟩
    · show (pend ++ [bit]).length + (b.bitpos - 1) = 8
      rw [length_append, length_singleton]
      omega
    · show 1 ≤ b.bitpos - 1
      omega
    · show byteBits c = pend ++ [bit] ++ replicate (b.bitpos - 1) false
      rw [hbuf]
      simp
    · show bits ++ [bit] = bytesBits b.storage ++ (pend ++ [bit])
      rw [h.denotes, append_assoc]

/-- The loop over full bytes appends the upper bits, whole bytes of them. -/
theorem appendBytes_eq (value : UInt64) (left : Nat) (hfull : b.wpos = b.storage.length)
    (hempty : b.bitpos = 8) (hroom : 8 * b.storage.length + left < 80000000) :
    ∃ src, appendBytes value left b = .ok ({ b with
        storage := b.storage ++ src
        wpos := b.storage.length + src.length }, left % 8) ∧
      bytesBits src = natBits (8 * (left / 8)) (value.toNat >>> (left % 8)) := by
  induction left using Nat.strong_induction_on generalizing b with
  | _ left ih =>
    unfold appendBytes
    by_cases hge : left ≥ 8
    · have hsize : b.size < 10000000 := by
        show b.storage.length < 10000000
        omega
      rw [if_pos hge, append_of_empty hfull hempty (cons_ne_nil _ _) hsize]
      obtain ⟨src, hsrc, hbits⟩ := ih (left - 8) (by omega)
        (b := { b with
          storage := b.storage ++ [UInt8.ofNat (value.toNat >>> (left - 8))]
          wpos := b.storage.length + 1 })
        (by simp) hempty (by
          show 8 * (b.storage ++ [_]).length + (left - 8) < 80000000
          rw [length_append, length_singleton]
          omega)
      refine ⟨UInt8.ofNat (value.toNat >>> (left - 8)) :: src, ?_, ?_⟩
      · refine Eq.trans hsrc ?_
        have hmod : (left - 8) % 8 = left % 8 := by omega
        simp [hmod, Nat.add_comm, Nat.add_left_comm]
      · have hmod : (left - 8) % 8 = left % 8 := by omega
        have hdiv : 8 * (left / 8) = 8 + 8 * ((left - 8) / 8) := by omega
        have hshift : left % 8 + 8 * ((left - 8) / 8) = left - 8 := by omega
        rw [bytesBits_cons, hbits, byteBits_ofNat, hmod, hdiv, natBits_add 8,
          ← Nat.shiftRight_add, hshift]
    · have hmod : left % 8 = left := by omega
      have hdiv : left / 8 = 0 := by omega
      rw [if_neg hge, hmod, hdiv]
      exact ⟨[], by simp [← hfull], rfl⟩

/-- What `WriteBits` keeps has no more bits than it writes. -/
theorem keptBits_lt (wide : Int32) (value : UInt64) {n : Nat} (hn : n ≤ 32) :
    (keptBits wide value n).toNat < 2 ^ n := by
  have hmask : (1 <<< UInt64.ofNat n - 1 : UInt64).toNat = 2 ^ n - 1 := by
    interval_cases n <;> rfl
  have hle : (keptBits wide value n).toNat ≤ 2 ^ n - 1 := by
    rw [keptBits, UInt64.toNat_and, hmask]
    exact Nat.and_le_right
  have hpos := Nat.two_pow_pos n
  omega

/-- `WriteBits` appends the bits it keeps. -/
theorem Denotes.writeBits (h : b.Denotes bits) (wide : Int32) (value : UInt64) {n : Nat}
    (hn : n ≤ 32) (hroom : bits.length + n < 80000000) :
    ∃ b', b.writeBits wide value n = .ok b' ∧
      b'.Denotes (bits ++ natBits n (keptBits wide value n).toNat) := by
  obtain ⟨pend, h⟩ := h
  have hlt := keptBits_lt wide value hn
  have hpos := h.free
  have hlen := h.room
  have htotal := h.length_eq
  obtain ⟨v, hv⟩ : ∃ v, keptBits wide value n = v := ⟨_, rfl⟩
  rw [hv] at hlt ⊢
  by_cases hmore : n > b.bitpos
  · -- the bit buffer is filled up and emitted, then full bytes, and the rest is pending
    have hfirst : byteBits (UInt8.ofNat (b.curbitval.toNat ||| v.toNat >>> (n - b.bitpos)))
        = pend ++ natBits b.bitpos (v.toNat >>> (n - b.bitpos)) := by
      apply byteBits_or h.buffer hlen
      rw [Nat.shiftRight_eq_div_pow]
      apply Nat.div_lt_of_lt_mul
      rw [← Nat.pow_add]
      have hsum : n - b.bitpos + b.bitpos = n := by omega
      rwa [hsum]
    obtain ⟨c, hc⟩ : ∃ c, UInt8.ofNat (b.curbitval.toNat ||| v.toNat >>> (n - b.bitpos)) = c :=
      ⟨_, rfl⟩
    rw [hc] at hfirst
    obtain ⟨happend, hbytes⟩ := h.emit (by omega) hfirst
    obtain ⟨src, hloop, hsrc⟩ := appendBytes_eq v (n - b.bitpos)
      (b := { b with
        bitpos := 8, curbitval := c, storage := b.storage ++ [c], wpos := b.storage.length + 1 })
      (by simp) rfl (by
        show 8 * (b.storage ++ [c]).length + (n - b.bitpos) < 80000000
        rw [length_append, length_singleton]
        omega)
    have hwrite : b.writeBits wide value n = .ok { b with
        bitpos := 8 - (n - b.bitpos) % 8
        curbitval := UInt8.ofNat ((v.toNat &&& (1 <<< ((n - b.bitpos) % 8) - 1))
          <<< (8 - (n - b.bitpos) % 8))
        storage := b.storage ++ [c] ++ src
        wpos := (b.storage ++ [c]).length + src.length } := by
      simp only [ByteBuffer.writeBits, if_pos hmore, hv, hc, bind, Except.bind, happend, hloop]
      rfl
    rw [hwrite]
    have hr : (n - b.bitpos) % 8 < 8 := Nat.mod_lt _ (by decide)
    have hn8 : n = b.bitpos + (8 * ((n - b.bitpos) / 8) + (n - b.bitpos) % 8) := by omega
    have hleft : 8 * ((n - b.bitpos) / 8) + (n - b.bitpos) % 8 = n - b.bitpos := by omega
    refine ⟨_, rfl, natBits ((n - b.bitpos) % 8) v.toNat, length_append.symm,
      ?_, ?_, ?_, ?_, h.unread⟩
    · rw [length_natBits]
      show (n - b.bitpos) % 8 + (8 - (n - b.bitpos) % 8) = 8
      omega
    · show 1 ≤ 8 - (n - b.bitpos) % 8
      omega
    · show byteBits (UInt8.ofNat _) = _
      have hshift := natBits_shiftLeft ((n - b.bitpos) % 8) (8 - (n - b.bitpos) % 8)
        (v.toNat &&& (1 <<< ((n - b.bitpos) % 8) - 1))
      have height : (n - b.bitpos) % 8 + (8 - (n - b.bitpos) % 8) = 8 := by omega
      rw [height] at hshift
      rw [byteBits_ofNat, hshift]
      congr 1
      apply natBits_congr
      intro i hi
      rw [Nat.testBit_and, Nat.shiftLeft_eq, Nat.one_mul, Nat.testBit_two_pow_sub_one]
      simp [hi]
    · show bits ++ natBits n v.toNat = bytesBits (b.storage ++ [c] ++ src) ++ _
      rw [bytesBits_append, hbytes, hsrc]
      conv_lhs => rw [hn8, natBits_add, hleft]
      rw [← hleft, natBits_add, hleft]
      simp only [append_assoc]
  · -- the value fits in the bit buffer
    have hle : n ≤ b.bitpos := by omega
    have hk : n + (b.bitpos - n) = b.bitpos := by omega
    have hbuf : byteBits (UInt8.ofNat (b.curbitval.toNat ||| v.toNat <<< (b.bitpos - n)))
        = pend ++ (natBits n v.toNat ++ replicate (b.bitpos - n) false) := by
      have hshift := natBits_shiftLeft n (b.bitpos - n) v.toNat
      rw [hk] at hshift
      rw [← hshift]
      apply byteBits_or h.buffer hlen
      rw [Nat.shiftLeft_eq, ← hk, Nat.pow_add, hk]
      exact Nat.mul_lt_mul_of_pos_right hlt (Nat.two_pow_pos _)
    obtain ⟨c, hc⟩ : ∃ c, UInt8.ofNat (b.curbitval.toNat ||| v.toNat <<< (b.bitpos - n)) = c :=
      ⟨_, rfl⟩
    rw [hc] at hbuf
    by_cases hlast : b.bitpos - n = 0
    · rw [hlast, replicate_zero, append_nil] at hbuf
      obtain ⟨happend, hbytes⟩ := h.emit (by omega) hbuf
      have hwrite : b.writeBits wide value n = .ok { b with
          bitpos := 8
          curbitval := 0
          storage := b.storage ++ [c]
          wpos := b.storage.length + 1 } := by
        have hopen : b.writeBits wide value n = (do
            let e ← { b with bitpos := 8, curbitval := c }.append [c]
            return { e with curbitval := 0 }) := by
          rw [← hc, ← hv]
          exact (if_neg hmore).trans (if_pos hlast)
        rw [hopen, happend]
        rfl
      rw [hwrite]
      exact ⟨_, rfl, denotes_of_empty (by simp) rfl rfl hbytes.symm h.unread⟩
    · have hwrite : b.writeBits wide value n = .ok { b with
          bitpos := b.bitpos - n
          curbitval := c } := by
        rw [← hc, ← hv]
        exact (if_neg hmore).trans (if_neg hlast)
      rw [hwrite]
      refine ⟨_, rfl, pend ++ natBits n v.toNat, h.full, ?_, ?_, ?_, ?_, h.unread⟩
      · show (pend ++ natBits n v.toNat).length + (b.bitpos - n) = 8
        rw [length_append, length_natBits]
        omega
      · show 1 ≤ b.bitpos - n
        omega
      · show byteBits c = pend ++ natBits n v.toNat ++ replicate (b.bitpos - n) false
        rw [hbuf, append_assoc]
      · show bits ++ natBits n v.toNat = bytesBits b.storage ++ (pend ++ natBits n v.toNat)
        rw [h.denotes, append_assoc]

end ByteBuffer

/-! ### Fields -/

/-- What a field puts into the buffer: bits, or bytes after filling up. -/
inductive Chunk
  | bits (l : List Bool)
  | bytes (l : List UInt8)

/-- The bits with the chunk behind them. -/
def Chunk.put (bits : List Bool) : Chunk → List Bool
  | .bits l => bits ++ l
  | .bytes l => align bits ++ bytesBits l

def Field.chunk (wide : Int32) : Field → Chunk
  | .bit value => .bits [value]
  | .bits n value => .bits (natBits n.val (ByteBuffer.keptBits wide value n.val).toNat)
  | .int w value => .bytes (le w.bytes value.toNat)
  | .packGUID guid =>
    .bytes ((ByteBuffer.packGUID guid.toNat 0 0 []).1 :: (ByteBuffer.packGUID guid.toNat 0 0 []).2)
  | .cstring str => .bytes (str.text ++ [0])

/-- All bits of the fields, before the last flush. -/
def encode (wide : Int32) (bits : List Bool) (fields : List Field) : List Bool :=
  fields.foldl (fun acc f => (f.chunk wide).put acc) bits

theorem Chunk.length_le_put (bits : List Bool) (c : Chunk) :
    bits.length ≤ (c.put bits).length := by
  cases c with
  | bits l => rw [Chunk.put, length_append]; omega
  | bytes l =>
    rw [Chunk.put, align, length_append, length_append]
    omega

theorem length_le_encode (wide : Int32) (bits : List Bool) (fields : List Field) :
    bits.length ≤ (encode wide bits fields).length := by
  induction fields generalizing bits with
  | nil => exact Nat.le_refl _
  | cons f fields ih => exact Nat.le_trans (Chunk.length_le_put bits _) (ih _)

/-- Room after a whole byte was put means room before. -/
theorem length_lt_of_put_bytes {bits : List Bool} {l : List UInt8}
    (h : ((Chunk.bytes l).put bits).length < 80000000) : bits.length < 80000000 :=
  Nat.lt_of_le_of_lt (Chunk.length_le_put bits _) h

namespace ByteBuffer

variable {b : ByteBuffer} {bits : List Bool}

/-- A string is written with its NUL. -/
theorem Denotes.appendCString (h : b.Denotes bits) (text : List UInt8)
    (hroom : ((Chunk.bytes (text ++ [0])).put bits).length < 80000000) :
    ∃ b', b.appendCString text = .ok b' ∧
      b'.Denotes ((Chunk.bytes (text ++ [0])).put bits) := by
  have hbefore := length_lt_of_put_bytes hroom
  unfold ByteBuffer.appendCString
  by_cases hempty : text.length ≠ 0
  · obtain ⟨b₁, happend, h₁⟩ := h.append hbefore (ne_nil_of_length_pos (by omega) : text ≠ [])
    have haligned : (align bits ++ bytesBits text).length % 8 = 0 := by
      have halign := length_align_mod bits
      rw [length_append, length_bytesBits]
      omega
    have hroom₁ : (align bits ++ bytesBits text).length < 80000000 := by
      rw [Chunk.put, bytesBits_append, ← append_assoc, length_append] at hroom
      omega
    obtain ⟨b₂, hzero, h₂⟩ := h₁.append hroom₁ (cons_ne_nil 0 [])
    rw [align_of_mod_eq_zero haligned] at h₂
    rw [if_pos hempty, happend]
    refine ⟨b₂, hzero, ?_⟩
    rw [Chunk.put, bytesBits_append, ← append_assoc]
    exact h₂
  · have hnil : text = [] := eq_nil_of_length_eq_zero (by omega)
    subst hnil
    rw [if_neg hempty]
    exact h.append hbefore (cons_ne_nil 0 [])

/-- Every field is written as its chunk. -/
theorem Denotes.write (h : b.Denotes bits) (wide : Int32) (f : Field)
    (hroom : ((f.chunk wide).put bits).length < 80000000) :
    ∃ b', f.write wide b = .ok b' ∧ b'.Denotes ((f.chunk wide).put bits) := by
  have hbefore := Nat.lt_of_le_of_lt (Chunk.length_le_put bits _) hroom
  cases f with
  | bit value => exact h.writeBit hbefore value
  | bits n value =>
    refine h.writeBits wide value n.property.2 ?_
    have hlen : (bits ++ natBits n.val (keptBits wide value n.val).toNat).length < 80000000 := hroom
    rwa [length_append, length_natBits] at hlen
  | int w value =>
    refine h.append hbefore ?_
    cases w <;> exact cons_ne_nil _ _
  | packGUID guid => exact h.append hbefore (cons_ne_nil _ _)
  | cstring str => exact h.appendCString str.text hroom

/-- Fields are written one after the other. -/
theorem Denotes.writeFields (h : b.Denotes bits) (wide : Int32) (fields : List Field)
    (hroom : (encode wide bits fields).length < 80000000) :
    ∃ b', b.writeFields wide fields = .ok b' ∧ b'.Denotes (encode wide bits fields) := by
  induction fields generalizing b bits with
  | nil => exact ⟨b, rfl, h⟩
  | cons f fields ih =>
    obtain ⟨b₁, hwrite, h₁⟩ :=
      h.write wide f (Nat.lt_of_le_of_lt (length_le_encode wide _ fields) hroom)
    obtain ⟨b₂, hrest, h₂⟩ := ih h₁ hroom
    refine ⟨b₂, ?_, h₂⟩
    rw [ByteBuffer.writeFields, foldlM_cons, hwrite]
    exact hrest

/-- The flushed buffer holds whole bytes. -/
theorem ofFields_eq (wide : Int32) (fields : List Field)
    (hroom : (encode wide [] fields).length < 80000000) :
    ∃ b, ofFields wide fields = .ok b ∧ b.bitpos = 8 ∧
      bytesBits b.storage = align (encode wide [] fields) ∧ b.rpos = 0 := by
  obtain ⟨b₁, hwrite, h₁⟩ := denotes_empty.writeFields wide fields hroom
  obtain ⟨b₂, hflush, ⟨pend, h₂⟩, hempty⟩ := h₁.flushBits hroom
  have hpend : pend = [] := by
    have hpos := h₂.room
    rw [hempty] at hpos
    exact eq_nil_of_length_eq_zero (by omega)
  subst hpend
  refine ⟨b₂, ?_, hempty, ?_, h₂.unread⟩
  · rw [ofFields, hwrite]
    exact hflush
  · rw [h₂.denotes, append_nil]

end ByteBuffer

end TrinityCore.Packets
