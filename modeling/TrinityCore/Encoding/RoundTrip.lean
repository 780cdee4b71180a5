import TrinityCore.Encoding.DecodeBits

/-!
# The round trip of Base32 and Base64

What is encoded is decoded again, has the size that was reserved for it, and has padding only
at its end.
-/

namespace TrinityCore.Encoding

open BitString List

variable {cs data : List UInt8}

namespace BaseEncoding

variable {e : BaseEncoding}

/-- A text that spells the data up to the next character spells it up to the next byte. -/
theorem Spelled.accepted {p : Nat} (h : e.Spelled data cs p) : e.Accepted data cs p := by
  obtain ⟨k, hk, hwords⟩ := h.filled
  exact ⟨h.valid, ⟨k, Nat.lt_trans hk e.lt, hwords⟩, h.fits⟩

/-- The characters of a text hold the data, the last of them at least one bit of it. -/
theorem Spelled.mul_length {p : Nat} (h : e.Spelled data cs p) :
    ∃ k < e.bitsPerChar, e.bitsPerChar * cs.length = 8 * data.length + k := by
  obtain ⟨k, hk, hwords⟩ := h.filled
  have hlen := mul_length_of_wordsBits_eq hwords
  rw [length_map, length_replicate] at hlen
  exact ⟨k, hk, hlen⟩

/-! ### The size -/

/-- The next multiple of `n` is the only one within `n` of a number. -/
theorem roundUp_eq {n size total : Nat} (hdvd : n ∣ total) (hle : size ≤ total)
    (hlt : total < size + n) :
    (if size % n ≠ 0 then size + (n - size % n) else size) = total := by
  obtain ⟨t, rfl⟩ := hdvd
  have hn : 0 < n := by omega
  have hsize := Nat.div_add_mod size n
  have hmod := Nat.mod_lt size hn
  split
  · next hne =>
    have ht : t = size / n + 1 := by
      apply Nat.le_antisymm
      · apply Nat.le_of_lt_succ
        apply Nat.lt_of_mul_lt_mul_left (a := n)
        rw [Nat.mul_succ, Nat.mul_succ]
        omega
      · apply Nat.lt_of_mul_lt_mul_left (a := n)
        omega
    rw [ht, Nat.mul_succ]
    omega
  · next hzero =>
    have hmod0 : size % n = 0 := not_not.mp hzero
    have ht : t = size / n := by
      apply Nat.le_antisymm
      · apply Nat.le_of_lt_succ
        apply Nat.lt_of_mul_lt_mul_left (a := n)
        rw [Nat.mul_succ]
        omega
      · apply Nat.le_of_mul_le_mul_left _ hn
        omega
    rw [ht]
    omega

/-- Padding stops within the first group of characters that ends at the end of a byte. -/
theorem Fits.lt_padTo {m p size : Nat} (hfits : e.Fits m p) (hal : e.Aligned (m + p))
    (hsize : e.bitsPerChar * m < size + e.bitsPerChar) :
    e.bitsPerChar * (m + p) < size + e.padTo := by
  apply Nat.lt_of_not_le
  intro hge
  obtain ⟨l, hl⟩ : e.bitsPerChar ∣ e.padTo := Nat.dvd_lcm_right 8 e.bitsPerChar
  have height : 8 ∣ e.padTo := Nat.dvd_lcm_left 8 e.bitsPerChar
  have hpos : 0 < e.padTo := Nat.lcm_pos (by decide) e.pos
  have hlpos : 0 < l := by
    apply Nat.pos_of_ne_zero
    rintro rfl
    omega
  -- a whole group less of padding would have been enough
  have hlp : l ≤ p := by
    apply Nat.le_of_not_lt
    intro hlt
    have hmul : e.bitsPerChar * (m + p + 1) ≤ e.bitsPerChar * (m + l) :=
      Nat.mul_le_mul_left _ (by omega)
    rw [Nat.mul_succ, Nat.mul_add _ m l, ← hl] at hmul
    omega
  have hsplit : m + p = m + (p - l) + l := by omega
  apply hfits (p - l) (by omega)
  unfold Aligned at hal ⊢
  rw [hsplit, Nat.mul_add, ← hl, Nat.add_mod, Nat.mod_eq_zero_of_dvd height] at hal
  rwa [Nat.add_zero, Nat.mod_mod] at hal

/-- The size reserved is the size needed. -/
theorem Spelled.length_eq {p : Nat} (h : e.Spelled data cs p) :
    (cs ++ replicate p padding).length = e.encodedSize data.length := by
  obtain ⟨k, hk, hlen⟩ := h.mul_length
  have hmono : e.bitsPerChar * cs.length ≤ e.bitsPerChar * (cs.length + p) :=
    Nat.mul_le_mul_left _ (Nat.le_add_right _ _)
  have hdvd : e.padTo ∣ e.bitsPerChar * (cs.length + p) :=
    Nat.lcm_dvd (Nat.dvd_of_mod_eq_zero h.aligned) (Nat.dvd_mul_right _ _)
  have hlt : e.bitsPerChar * (cs.length + p) < data.length * 8 + e.padTo :=
    h.fits.lt_padTo h.aligned (by omega)
  have hround := roundUp_eq hdvd (by omega : data.length * 8 ≤ _) hlt
  show _ = (if data.length * 8 % e.padTo ≠ 0
    then data.length * 8 + (e.padTo - data.length * 8 % e.padTo) else data.length * 8) /
      e.bitsPerChar
  rw [hround, Nat.mul_div_cancel_left _ e.pos, length_append, length_replicate]

/-! ### The round trip -/

/-- The data is encoded to a text of the size reserved, with padding only at its end, that is
decoded to the data. -/
def RoundTrips (e : BaseEncoding) (data : List UInt8) : Prop :=
  ∃ s, e.encode data = some s ∧ e.decode s = some data ∧ s.length = e.encodedSize data.length ∧
    ∃ cs p, s = cs ++ replicate p padding ∧ padding ∉ cs

theorem Spells.roundTrips (h : e.Spells) (data : List UInt8) : e.RoundTrips data := by
  obtain ⟨cs, p, hencode, hs⟩ := h.exists_encode data
  refine ⟨_, hencode, ?_, hs.length_eq, cs, p, rfl, ?_⟩
  · exact h.decode_eq_some_iff.mpr ⟨cs, p, rfl, hs.accepted⟩
  · intro hmem
    exact hs.valid padding hmem h.decodeChar_padding

end BaseEncoding

/-- Base32 and Base64 give back every byte sequence. -/
theorem roundTrips_base32_base64 (data : List UInt8) :
    base32.RoundTrips data ∧ base64.RoundTrips data :=
  ⟨spells_base32.roundTrips data, spells_base64.roundTrips data⟩

end TrinityCore.Encoding
