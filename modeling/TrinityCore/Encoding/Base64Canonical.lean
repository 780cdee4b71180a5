import TrinityCore.Encoding.RoundTrip

/-!
# Texts that are not what encoding writes

`Decode` stops at the end of the text wherever the cursor is. Base64 texts that lack padding are
accepted, and they are all that is accepted without being the encoding of what it decodes to.
-/

namespace TrinityCore.Encoding

open List

open BitString

variable {m p p' k : Nat} {cs cs' data : List UInt8}

namespace BaseEncoding

variable {e : BaseEncoding}

/-- A text that decodes is the encoding of what it decodes to. -/
def Canonical (e : BaseEncoding) (s : List UInt8) : Prop :=
  ∀ v, e.decode s = some v → e.encode v = some s

/-- No two characters of the alphabet have one value. -/
def OneChar (e : BaseEncoding) : Prop :=
  ∀ c, e.decodeChar c ≠ decodeError → e.encodeChar (e.decodeChar c) = some c

/-! ### One encoding -/

/-- Padding that ends at the end of a byte for the first time is of one length. -/
theorem Fits.le {q : Nat} (h : e.Fits m p) (hal : e.Aligned (m + q)) : p ≤ q := by
  apply Nat.le_of_not_lt
  intro hlt
  exact h q hlt hal

theorem OneChar.map_inj (h : e.OneChar) (hvalid : ∀ c ∈ cs, e.decodeChar c ≠ decodeError)
    (hvalid' : ∀ c ∈ cs', e.decodeChar c ≠ decodeError)
    (heq : cs.map e.decodeChar = cs'.map e.decodeChar) : cs = cs' := by
  have hback {l : List UInt8} (hl : ∀ c ∈ l, e.decodeChar c ≠ decodeError) :
      (l.map e.decodeChar).map e.encodeChar = l.map some := by
    rw [map_map]
    exact map_congr_left fun c hc => h c (hl c hc)
  apply map_injective_iff.mpr (Option.some_injective UInt8)
  rw [← hback hvalid, ← hback hvalid', heq]

/-- The data has one text. -/
theorem Spelled.unique (h : e.Spells) (hone : e.OneChar) (hs : e.Spelled data cs p)
    (hs' : e.Spelled data cs' p') : cs = cs' ∧ p = p' := by
  obtain ⟨k, hk, hlen⟩ := hs.mul_length
  obtain ⟨k', hk', hlen'⟩ := hs'.mul_length
  have hle {m n : Nat} (hmn : e.bitsPerChar * m < e.bitsPerChar * n + e.bitsPerChar) : m ≤ n := by
    apply Nat.le_of_lt_succ
    apply Nat.lt_of_mul_lt_mul_left (a := e.bitsPerChar)
    rwa [Nat.mul_succ]
  have hcount : cs.length = cs'.length := Nat.le_antisymm (hle (by omega)) (hle (by omega))
  have hcs : cs = cs' := by
    obtain ⟨z, hz, hwords⟩ := hs.filled
    obtain ⟨z', hz', hwords'⟩ := hs'.filled
    have hzeros : z = z' := by
      have hleft := mul_length_of_wordsBits_eq hwords
      have hright := mul_length_of_wordsBits_eq hwords'
      simp only [length_map, length_replicate] at hleft hright
      rw [hcount] at hleft
      omega
    apply hone.map_inj hs.valid hs'.valid
    apply wordsBits_inj (h.decodeChar_lt_of_mem hs.valid) (h.decodeChar_lt_of_mem hs'.valid)
    · rw [length_map, length_map, hcount]
    · rw [hwords, hwords', hzeros]
  subst hcs
  exact ⟨rfl, Nat.le_antisymm (hs.fits.le hs'.aligned) (hs'.fits.le hs.aligned)⟩

/-- Characters without padding, and padding after them, are found again. -/
theorem append_replicate_inj (h : padding ∉ cs) (h' : padding ∉ cs')
    (heq : cs ++ List.replicate p padding = cs' ++ List.replicate p' padding) :
    cs = cs' ∧ p = p' := by
  have htake {l : List UInt8} {n : Nat} (hl : padding ∉ l) :
      (l ++ replicate n padding).takeWhile (· ≠ padding) = l := by
    rw [takeWhile_append_of_pos]
    · simp
    · intro c hc
      exact decide_eq_true fun hpad => hl (hpad ▸ hc)
  have hcs : cs = cs' := by
    rw [← htake h, heq, htake h']
  subst hcs
  have hlen := congrArg length (append_cancel_left heq)
  rw [length_replicate, length_replicate] at hlen
  exact ⟨rfl, hlen⟩

theorem Spells.padding_notMem (h : e.Spells) (hvalid : ∀ c ∈ cs, e.decodeChar c ≠ decodeError) :
    padding ∉ cs :=
  fun hmem => hvalid padding hmem h.decodeChar_padding

/-- The texts that encoding writes. -/
theorem Spells.encode_eq_some_iff (h : e.Spells) (hone : e.OneChar)
    (hvalid : ∀ c ∈ cs, e.decodeChar c ≠ decodeError) :
    e.encode data = some (cs ++ List.replicate p padding) ↔ e.Spelled data cs p := by
  obtain ⟨cs₀, p₀, hencode, hs⟩ := h.exists_encode data
  constructor
  · intro heq
    rw [hencode] at heq
    obtain ⟨rfl, rfl⟩ := append_replicate_inj (h.padding_notMem hs.valid)
      (h.padding_notMem hvalid) (Option.some.inj heq)
    exact hs
  · intro hs'
    obtain ⟨rfl, rfl⟩ := hs.unique h hone hs'
    exact hencode

end BaseEncoding

/-! ### Base64 -/

theorem oneChar_base64 : base64.OneChar := base64_encodeChar_decodeChar

/-- Base64 characters whose last one has zeros for its unused bits, and less padding than
these call for. -/
def LacksPadding (s : List UInt8) : Prop :=
  ∃ cs c k, s = cs ++ [c] ++ List.replicate k padding ∧
    (∀ x ∈ cs ++ [c], b64Decode x ≠ decodeError) ∧
      (cs.length % 4 = 0 ∧ (b64Decode c).toNat % 64 = 0 ∧ k ≤ 3 ∨
        cs.length % 4 = 1 ∧ (b64Decode c).toNat % 16 = 0 ∧ k ≤ 1 ∨
          cs.length % 4 = 2 ∧ (b64Decode c).toNat % 4 = 0 ∧ k = 0)

theorem aligned_base64_iff (m : Nat) : base64.Aligned m ↔ m % 4 = 0 := by
  show 6 * m % 8 = 0 ↔ m % 4 = 0
  omega

/-- How much padding is accepted. -/
theorem fits_base64_iff : base64.Fits m k ↔ k ≤ (4 - m % 4) % 4 := by
  constructor
  · intro h
    apply Nat.le_of_not_lt
    intro hlt
    apply h _ hlt
    rw [aligned_base64_iff]
    omega
  · intro h q hq
    rw [aligned_base64_iff]
    omega

/-- The unused bits are zeros when the text has data. -/
theorem exists_accepted_iff {c : UInt8} (hvalid : ∀ x ∈ cs ++ [c], b64Decode x ≠ decodeError) :
    (∃ data, base64.Accepted data (cs ++ [c]) k) ↔
      (b64Decode c).toNat % 2 ^ (6 * (cs.length + 1) % 8) = 0 ∧
        base64.Fits (cs.length + 1) k := by
  have hlength : (cs ++ [c]).length = cs.length + 1 := length_append
  have hunused : 6 * (cs.length + 1) % 8 ≤ 6 := by omega
  have hmap : (cs ++ [c]).map base64.decodeChar = cs.map b64Decode ++ [b64Decode c] := map_append
  rw [← natBits_eq_replicate_iff]
  constructor
  · rintro ⟨data, _, ⟨j, hj, hwords⟩, hfits⟩
    have hlen := mul_length_of_wordsBits_eq hwords
    rw [length_map, hlength, length_replicate] at hlen
    have hj6 : 6 * (cs.length + 1) % 8 = j := by
      change 6 * (cs.length + 1) = 8 * data.length + j at hlen
      omega
    rw [hmap] at hwords
    rw [hlength] at hfits
    constructor
    · rw [hj6] at hunused ⊢
      exact (eq_natBits_of_wordsBits_eq hunused length_replicate hwords).symm
    · exact hfits
  · rintro ⟨hzero, hfits⟩
    obtain ⟨pend, hd, hpend, _⟩ := spells_base64.exists_holds hvalid
    have hlen := mul_length_of_wordsBits_eq hd.denotes
    rw [length_map, hlength] at hlen
    have hj6 : pend.length = 6 * (cs.length + 1) % 8 := by
      change 6 * (cs.length + 1) = _ at hlen
      omega
    have hwords := hd.denotes
    rw [hmap] at hwords
    have hpendBits := eq_natBits_of_wordsBits_eq hunused hj6 hwords
    rw [hpendBits, hzero, ← hmap] at hwords
    refine ⟨_, hvalid, ⟨_, Nat.lt_of_le_of_lt hunused (by decide), hwords⟩, ?_⟩
    rw [hlength]
    exact hfits

/-- The accepted texts that encoding writes. -/
theorem spelled_base64_iff (h : base64.Accepted data cs k) :
    base64.Spelled data cs k ↔ cs.length % 4 ≠ 1 ∧ (cs.length + k) % 4 = 0 := by
  obtain ⟨j, hj, hwords⟩ := h.filled
  have hlen := mul_length_of_wordsBits_eq hwords
  rw [length_map, length_replicate] at hlen
  change 6 * cs.length = 8 * data.length + j at hlen
  rw [← aligned_base64_iff]
  constructor
  · intro hs
    obtain ⟨z, hz, hz'⟩ := hs.mul_length
    change z < 6 at hz
    change 6 * cs.length = 8 * data.length + z at hz'
    exact ⟨by omega, hs.aligned⟩
  · rintro ⟨hne, hal⟩
    refine ⟨h.valid, ⟨j, ?_, hwords⟩, h.fits, hal⟩
    show j < 6
    omega

/-- The texts that lack padding are those accepted that encoding does not write. -/
theorem lacksPadding_iff {s : List UInt8} :
    LacksPadding s ↔ ∃ data cs k, s = cs ++ List.replicate k padding ∧
      base64.Accepted data cs k ∧ ¬ base64.Spelled data cs k := by
  constructor
  · rintro ⟨cs, c, k, rfl, hvalid, hlast⟩
    have hexists := (exists_accepted_iff (k := k) hvalid).mpr (by
      rw [fits_base64_iff]
      rcases hlast with ⟨hlen, hzero, hk⟩ | ⟨hlen, hzero, hk⟩ | ⟨hlen, hzero, hk⟩
      · have hunused : 6 * (cs.length + 1) % 8 = 6 := by omega
        rw [hunused]
        exact ⟨hzero, by omega⟩
      · have hunused : 6 * (cs.length + 1) % 8 = 4 := by omega
        rw [hunused]
        exact ⟨hzero, by omega⟩
      · have hunused : 6 * (cs.length + 1) % 8 = 2 := by omega
        rw [hunused]
        exact ⟨hzero, by omega⟩)
    obtain ⟨data, haccepted⟩ := hexists
    refine ⟨data, cs ++ [c], k, rfl, haccepted, ?_⟩
    rw [spelled_base64_iff haccepted, length_append, length_singleton]
    omega
  · rintro ⟨data, cs', k, rfl, haccepted, hnot⟩
    rw [spelled_base64_iff haccepted] at hnot
    have hpads := fits_base64_iff.mp haccepted.fits
    rcases eq_nil_or_concat cs' with rfl | ⟨cs, c, rfl⟩
    · rw [length_nil] at hnot hpads
      omega
    · rw [concat_eq_append] at haccepted hnot hpads ⊢
      rw [length_append, length_singleton] at hnot hpads
      obtain ⟨hzero, _⟩ := (exists_accepted_iff haccepted.valid).mp ⟨data, haccepted⟩
      refine ⟨cs, c, k, rfl, haccepted.valid, ?_⟩
      have hcases : cs.length % 4 = 0 ∨ cs.length % 4 = 1 ∨ cs.length % 4 = 2 := by omega
      rcases hcases with hlen | hlen | hlen
      · have hunused : 6 * (cs.length + 1) % 8 = 6 := by omega
        rw [hunused] at hzero
        exact .inl ⟨hlen, hzero, by omega⟩
      · have hunused : 6 * (cs.length + 1) % 8 = 4 := by omega
        rw [hunused] at hzero
        exact .inr (.inl ⟨hlen, hzero, by omega⟩)
      · have hunused : 6 * (cs.length + 1) % 8 = 2 := by omega
        rw [hunused] at hzero
        exact .inr (.inr ⟨hlen, hzero, by omega⟩)

/-- A text is the encoding of what it decodes to unless it lacks padding. -/
theorem canonical_base64_iff (s : List UInt8) : base64.Canonical s ↔ ¬ LacksPadding s := by
  rw [lacksPadding_iff]
  constructor
  · rintro h ⟨data, cs, k, rfl, haccepted, hnot⟩
    have hdecode := spells_base64.decode_eq_some_iff.mpr ⟨cs, k, rfl, haccepted⟩
    apply hnot
    exact (spells_base64.encode_eq_some_iff oneChar_base64 haccepted.valid).mp (h data hdecode)
  · intro h data hdecode
    obtain ⟨cs, k, rfl, haccepted⟩ := spells_base64.decode_eq_some_iff.mp hdecode
    apply (spells_base64.encode_eq_some_iff oneChar_base64 haccepted.valid).mpr
    by_contra hnot
    exact h ⟨data, cs, k, rfl, haccepted, hnot⟩

/-- `QQ` is accepted as the byte that is encoded as `QQ==`. -/
theorem not_canonical_unpadded : ¬ base64.Canonical ['Q'.toUInt8, 'Q'.toUInt8] := by
  intro h
  have hdecode : base64.decode ['Q'.toUInt8, 'Q'.toUInt8] = some [65] := by decide
  obtain ⟨s, hencode, _, hlen, _⟩ := spells_base64.roundTrips [65]
  have hs : some s = some ['Q'.toUInt8, 'Q'.toUInt8] := hencode.symm.trans (h [65] hdecode)
  rw [Option.some.inj hs] at hlen
  have hsize : base64.encodedSize 1 = 4 := by decide
  exact absurd (hlen.trans hsize) (by decide)

end TrinityCore.Encoding
