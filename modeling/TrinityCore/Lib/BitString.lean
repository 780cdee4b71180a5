import Mathlib.Data.Nat.Bitwise
import Mathlib.Data.List.Basic

/-!
# Bit strings and bytes

The bits of a number and of a byte sequence, most significant first. A writer or a reader of
bits denotes the list it has written or has still to read, so that its operations are
appends and splits of lists. Two numbers have the same last bits when `testBit` agrees there,
which turns masks and shifts into facts about single bits.
-/

namespace BitString

open List

/-- The last `n` bits of `v`, most significant first. -/
def natBits : Nat → Nat → List Bool
  | 0, _ => []
  | n + 1, v => v.testBit n :: natBits n v

@[simp] theorem length_natBits (n v : Nat) : (natBits n v).length = n := by
  induction n with
  | zero => rfl
  | succ n ih => rw [natBits, length_cons, ih]

variable {k n v w : Nat} {taken t : List Bool}

theorem getElem?_natBits (h : k < n) : (natBits n v)[k]? = some (v.testBit (n - 1 - k)) := by
  induction n generalizing k with
  | zero => omega
  | succ n ih =>
    cases k with
    | zero => rfl
    | succ k =>
      have hplace : n + 1 - 1 - (k + 1) = n - 1 - k := by omega
      rw [natBits, getElem?_cons_succ, ih (by omega), hplace]

/-- Numbers that agree in the last bits. -/
theorem natBits_congr (h : ∀ i, i < n → v.testBit i = w.testBit i) : natBits n v = natBits n w := by
  induction n with
  | zero => rfl
  | succ n ih =>
    rw [natBits, natBits, h n (Nat.lt_succ_self n), ih fun i hi => h i (Nat.lt_succ_of_lt hi)]

theorem testBit_eq_of_natBits_eq (h : natBits n v = natBits n w) {i : Nat} (hi : i < n) :
    v.testBit i = w.testBit i := by
  induction n with
  | zero => omega
  | succ n ih =>
    obtain ⟨hhead, htail⟩ := cons.inj h
    rcases Nat.lt_or_eq_of_le (Nat.le_of_lt_succ hi) with hlt | rfl
    · exact ih htail hlt
    · exact hhead

/-- High bits, then low bits. -/
theorem natBits_add (a b v : Nat) : natBits (a + b) v = natBits a (v >>> b) ++ natBits b v := by
  induction a with
  | zero => rw [Nat.zero_add]; rfl
  | succ a ih =>
    rw [Nat.add_right_comm, natBits, natBits, cons_append, ih, Nat.testBit_shiftRight,
      Nat.add_comm b a]

@[simp] theorem natBits_zero (n : Nat) : natBits n 0 = replicate n false := by
  induction n with
  | zero => rfl
  | succ n ih => rw [natBits, ih, Nat.zero_testBit, replicate_succ]

/-- Bits shifted in from the right are zeros. -/
theorem natBits_shiftLeft (n k v : Nat) :
    natBits (n + k) (v <<< k) = natBits n v ++ replicate k false := by
  have hhigh : (v <<< k) >>> k = v := by
    rw [Nat.shiftLeft_eq, Nat.shiftRight_eq_div_pow, Nat.mul_div_cancel _ (Nat.two_pow_pos k)]
  rw [natBits_add, hhigh, ← natBits_zero k]
  congr 1
  apply natBits_congr
  intro i hi
  rw [Nat.testBit_shiftLeft, Nat.zero_testBit]
  simp [Nat.not_le.mpr hi]

/-- Numbers with the same last bits. -/
theorem mod_two_pow_eq_of_natBits_eq (h : natBits n v = natBits n w) : v % 2 ^ n = w % 2 ^ n := by
  apply Nat.eq_of_testBit_eq
  intro i
  rw [Nat.testBit_mod_two_pow, Nat.testBit_mod_two_pow]
  by_cases hi : i < n
  · rw [testBit_eq_of_natBits_eq h hi]
  · simp [hi]

/-- Only the last bits count. -/
theorem natBits_mod (n v : Nat) : natBits n (v % 2 ^ n) = natBits n v := by
  apply natBits_congr
  intro i hi
  rw [Nat.testBit_mod_two_pow]
  simp [hi]

/-- What the free bits are filled with. -/
theorem natBits_or (hv : natBits (n + k) v = taken ++ replicate k false)
    (hlen : taken.length = n) (hw : w < 2 ^ k) :
    natBits (n + k) (v ||| w) = taken ++ natBits k w := by
  rw [natBits_add] at hv
  obtain ⟨hhigh, hlow⟩ := append_inj hv (by rw [length_natBits, hlen])
  rw [natBits_add]
  congr 1
  · refine (natBits_congr ?_).trans hhigh
    intro i _
    rw [Nat.testBit_shiftRight, Nat.testBit_or, Nat.testBit_shiftRight]
    have hzero : w.testBit (k + i) = false :=
      Nat.testBit_lt_two_pow (Nat.lt_of_lt_of_le hw (Nat.pow_le_pow_right (by decide) (by omega)))
    rw [hzero, Bool.or_false]
  · apply natBits_congr
    intro i hi
    have hzero := testBit_eq_of_natBits_eq (hlow.trans (natBits_zero k).symm) hi
    rw [Nat.testBit_or, hzero, Nat.zero_testBit, Bool.false_or]

/-- The last bits are zeros when the number is a multiple. -/
theorem natBits_eq_replicate_iff : natBits n v = replicate n false ↔ v % 2 ^ n = 0 := by
  rw [← natBits_zero]
  constructor
  · intro h
    rw [mod_two_pow_eq_of_natBits_eq h, Nat.zero_mod]
  · intro h
    rw [← natBits_mod, h]

/-! ### Bytes -/

/-- The bits of a byte. -/
def byteBits (b : UInt8) : List Bool := natBits 8 b.toNat

/-- The bits of a byte sequence. -/
def bytesBits (l : List UInt8) : List Bool := l.flatMap byteBits

@[simp] theorem length_byteBits (b : UInt8) : (byteBits b).length = 8 := length_natBits 8 _

/-- What holds of 256 numbers holds of all bytes. -/
theorem forall_byte {p : UInt8 → Prop} (h : ∀ n < 256, p (UInt8.ofNat n)) (b : UInt8) : p b := by
  have hb := h b.toNat b.toNat_lt
  rwa [UInt8.ofNat_toNat] at hb

theorem byteBits_inj {b c : UInt8} (h : byteBits b = byteBits c) : b = c := by
  apply UInt8.toNat_inj.mp
  have hmod := mod_two_pow_eq_of_natBits_eq h
  have hb : b.toNat < 256 := b.toNat_lt
  have hc : c.toNat < 256 := c.toNat_lt
  omega

/-- The bits of a truncated number. -/
theorem byteBits_ofNat (v : Nat) : byteBits (UInt8.ofNat v) = natBits 8 v := by
  apply natBits_congr
  intro i hi
  rw [UInt8.toNat_ofNat', Nat.testBit_mod_two_pow]
  simp [hi]

/-- What the free part of a byte is filled with. -/
theorem byteBits_or {b : UInt8} (hb : byteBits b = taken ++ replicate k false)
    (hlen : taken.length + k = 8) (hw : w < 2 ^ k) :
    byteBits (UInt8.ofNat (b.toNat ||| w)) = taken ++ natBits k w := by
  rw [byteBits, ← hlen] at hb
  rw [byteBits_ofNat, ← hlen]
  exact natBits_or hb rfl hw

@[simp] theorem bytesBits_nil : bytesBits [] = [] := rfl

@[simp] theorem bytesBits_cons (b : UInt8) (l : List UInt8) :
    bytesBits (b :: l) = byteBits b ++ bytesBits l := rfl

@[simp] theorem bytesBits_append (l m : List UInt8) :
    bytesBits (l ++ m) = bytesBits l ++ bytesBits m := flatMap_append

@[simp] theorem length_bytesBits (l : List UInt8) : (bytesBits l).length = 8 * l.length := by
  induction l with
  | nil => rfl
  | cons b l ih =>
    rw [bytesBits_cons, length_append, length_byteBits, ih, length_cons]
    omega

/-- A byte sequence whose bits begin with those of another begins with it. -/
theorem exists_append_of_bytesBits_eq {l m : List UInt8} (h : bytesBits l = bytesBits m ++ t) :
    ∃ r, l = m ++ r ∧ bytesBits r = t := by
  induction m generalizing l with
  | nil => exact ⟨l, rfl, h⟩
  | cons c m ih =>
    cases l with
    | nil =>
      have hlen := congrArg length h
      simp only [length_append, bytesBits_cons, length_byteBits, bytesBits_nil, length_nil] at hlen
      omega
    | cons b l =>
      rw [bytesBits_cons, bytesBits_cons, append_assoc] at h
      obtain ⟨hhead, htail⟩ := append_inj h (by rw [length_byteBits, length_byteBits])
      obtain ⟨r, rfl, hr⟩ := ih htail
      exact ⟨r, by rw [byteBits_inj hhead]; rfl, hr⟩

theorem bytesBits_inj {l m : List UInt8} (h : bytesBits l = bytesBits m) : l = m := by
  obtain ⟨r, rfl, hr⟩ := exists_append_of_bytesBits_eq (h.trans (append_nil _).symm)
  have hlen := congrArg length hr
  rw [length_bytesBits, length_nil] at hlen
  rw [eq_nil_of_length_eq_zero (by omega : r.length = 0), append_nil]

/-! ### Words -/

/-- The bits of words of `n` bits. -/
def wordsBits (n : Nat) (l : List UInt8) : List Bool := l.flatMap fun v => natBits n v.toNat

@[simp] theorem wordsBits_nil (n : Nat) : wordsBits n [] = [] := rfl

@[simp] theorem wordsBits_cons (n : Nat) (v : UInt8) (l : List UInt8) :
    wordsBits n (v :: l) = natBits n v.toNat ++ wordsBits n l := rfl

@[simp] theorem wordsBits_append (n : Nat) (l m : List UInt8) :
    wordsBits n (l ++ m) = wordsBits n l ++ wordsBits n m := flatMap_append

@[simp] theorem length_wordsBits (n : Nat) (l : List UInt8) :
    (wordsBits n l).length = n * l.length := by
  induction l with
  | nil => rfl
  | cons v l ih =>
    rw [wordsBits_cons, length_append, length_natBits, ih, length_cons, Nat.mul_succ, Nat.add_comm]

/-- The last bits of a byte hold those of a number. -/
theorem natBits_toNat_ofNat (hn : n ≤ 8) (v : Nat) :
    natBits n (UInt8.ofNat v).toNat = natBits n v := by
  apply natBits_congr
  intro i hi
  rw [UInt8.toNat_ofNat', Nat.testBit_mod_two_pow]
  simp [Nat.lt_of_lt_of_le hi hn]

/-- The size of words that hold bytes and more bits. -/
theorem mul_length_of_wordsBits_eq {words bytes : List UInt8}
    (h : wordsBits n words = bytesBits bytes ++ t) :
    n * words.length = 8 * bytes.length + t.length := by
  rw [← length_wordsBits, h, length_append, length_bytesBits]

/-- What words have beyond whole bytes is in the last one. -/
theorem eq_natBits_of_wordsBits_eq {j : Nat} {values data : List UInt8} {v : UInt8} (hj : j ≤ n)
    (ht : t.length = j) (h : wordsBits n (values ++ [v]) = bytesBits data ++ t) :
    t = natBits j v.toNat := by
  have hsplit : n - j + j = n := Nat.sub_add_cancel hj
  rw [wordsBits_append, wordsBits_cons, wordsBits_nil, append_nil, ← hsplit, natBits_add,
    ← append_assoc] at h
  exact (append_inj_right' h (by rw [length_natBits, ht])).symm

/-- As many words within the range, with the same bits, are the same. -/
theorem wordsBits_inj {l m : List UInt8} (hl : ∀ v ∈ l, v.toNat < 2 ^ n)
    (hm : ∀ v ∈ m, v.toNat < 2 ^ n) (hlen : l.length = m.length)
    (h : wordsBits n l = wordsBits n m) : l = m := by
  induction l generalizing m with
  | nil => exact (eq_nil_of_length_eq_zero hlen.symm).symm
  | cons v l ih =>
    cases m with
    | nil => cases hlen
    | cons w m =>
      obtain ⟨hhead, htail⟩ := append_inj h (by simp only [length_natBits])
      have heq := mod_two_pow_eq_of_natBits_eq hhead
      rw [Nat.mod_eq_of_lt (hl v mem_cons_self), Nat.mod_eq_of_lt (hm w mem_cons_self),
        UInt8.toNat_inj] at heq
      rw [heq, ih (fun x hx => hl x (mem_cons_of_mem _ hx))
        (fun x hx => hm x (mem_cons_of_mem _ hx)) (Nat.succ.inj hlen) htail]

/-! ### Alignment -/

/-- How many bits are missing to a whole number of bytes. -/
def pad (n : Nat) : Nat := (8 - n % 8) % 8

/-- Zeros up to the next byte. -/
def align (bits : List Bool) : List Bool := bits ++ replicate (pad bits.length) false

theorem pad_eq_zero_iff : pad n = 0 ↔ n % 8 = 0 := by
  unfold pad
  omega

theorem pad_mod (n : Nat) : pad (n % 8) = pad n := by
  unfold pad
  omega

theorem align_of_mod_eq_zero {bits : List Bool} (h : bits.length % 8 = 0) : align bits = bits := by
  rw [align, pad_eq_zero_iff.mpr h, replicate_zero, append_nil]

theorem length_align_mod (bits : List Bool) : (align bits).length % 8 = 0 := by
  rw [align, length_append, length_replicate]
  unfold pad
  omega

/-! ### Little-endian integers -/

/-- The last `k` bytes of a number, least significant first. -/
def le : Nat → Nat → List UInt8
  | 0, _ => []
  | k + 1, n => UInt8.ofNat n :: le k (n / 256)

/-- The number with the given bytes. -/
def readLE : List UInt8 → Nat
  | [] => 0
  | b :: bs => b.toNat + 256 * readLE bs

@[simp] theorem length_le (k n : Nat) : (le k n).length = k := by
  induction k generalizing n with
  | zero => rfl
  | succ k ih => rw [le, length_cons, ih]

/-- A number reads back up to its last bytes. -/
theorem readLE_le (k n : Nat) : readLE (le k n) = n % 256 ^ k := by
  induction k generalizing n with
  | zero => rw [Nat.pow_zero, Nat.mod_one]; rfl
  | succ k ih =>
    have hlow : (UInt8.ofNat n).toNat = n % 256 := UInt8.toNat_ofNat'
    rw [le, readLE, ih, hlow, Nat.pow_succ, Nat.mul_comm (256 ^ k) 256, Nat.mod_mul]

end BitString
