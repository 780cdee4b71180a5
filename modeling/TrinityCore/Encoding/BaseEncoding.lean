import TrinityCore.Lib.BitString

/-!
# Base32 and Base64

The generic encoder and decoder of `BaseEncoding.h`, and the two alphabets. A text is the list
of its bytes. The cursor `bitsLeft` counts the bits of the current byte that are still to be
read or filled.
-/

namespace TrinityCore.Encoding

open BitString

/-- The template parameter `Encoding`. `Encode` fails where its assertion does. -/
structure BaseEncoding where
  /-- `BITS_PER_CHAR` -/
  bitsPerChar : Nat
  /-- `Encode` -/
  encodeChar : UInt8 → Option UInt8
  /-- `Decode` -/
  decodeChar : UInt8 → UInt8
  pos : 0 < bitsPerChar
  /-- The `static_assert`. -/
  lt : bitsPerChar < 8

/-- `DECODE_ERROR` -/
def decodeError : UInt8 := 0xff

/-- `PADDING` -/
def padding : UInt8 := '='.toUInt8

namespace BaseEncoding

variable (e : BaseEncoding)

/-- `PAD_TO` -/
def padTo : Nat := Nat.lcm 8 e.bitsPerChar

/-- `EncodedSize` -/
def encodedSize (size : Nat) : Nat :=
  let size := size * 8
  let size := if size % e.padTo ≠ 0 then size + (e.padTo - size % e.padTo) else size
  size / e.bitsPerChar

/-! ### Encoding -/

/-- `thisC` when the byte has all its bits, and `left` bits more. -/
def innerChar (byte : UInt8) (left : Nat) : UInt8 :=
  UInt8.ofNat ((byte.toNat >>> left) &&& (1 <<< e.bitsPerChar - 1))

/-- `thisC` when the byte has only the first `bitsLeft` of its bits. -/
def firstPart (byte : UInt8) (bitsLeft : Nat) : UInt8 :=
  UInt8.ofNat ((byte.toNat &&& (1 <<< bitsLeft - 1)) <<< (e.bitsPerChar - bitsLeft))

/-- The loop of `Encode` over the data: the values of the characters, and `bitsLeft` at the
end. -/
def encodeLoop : List UInt8 → Nat → List UInt8 × Nat
  | [], bitsLeft => ([], bitsLeft)
  | byte :: rest, bitsLeft =>
    if e.bitsPerChar ≤ bitsLeft then
      let left := bitsLeft - e.bitsPerChar
      let next := if left = 0 then encodeLoop rest 8 else encodeLoop (byte :: rest) left
      (e.innerChar byte left :: next.1, next.2)
    else
      let left := bitsLeft + (8 - e.bitsPerChar)
      let thisC := match rest with
        | [] => e.firstPart byte bitsLeft
        | next :: _ => UInt8.ofNat ((e.firstPart byte bitsLeft).toNat ||| next.toNat >>> left)
      let next := encodeLoop rest left
      (thisC :: next.1, next.2)
termination_by data bitsLeft => 8 * data.length + bitsLeft
decreasing_by
  · have hpos := e.pos
    rw [List.length_cons]
    omega
  · have hpos := e.pos
    rw [List.length_cons]
    omega
  · have hpos := e.pos
    have hlt := e.lt
    rw [List.length_cons]
    omega

/-- The cursor after a padding character. -/
def skipChar (bitsLeft : Nat) : Nat :=
  if e.bitsPerChar < bitsLeft then bitsLeft - e.bitsPerChar else bitsLeft + (8 - e.bitsPerChar)

/-- The padding loop of `Encode`. The cursor has eight positions, so a loop that does not end
within as many rounds never ends. -/
def padLoop : Nat → Nat → Option (List UInt8)
  | 0, _ => none
  | fuel + 1, bitsLeft =>
    if bitsLeft ≠ 8 then (padLoop fuel (e.skipChar bitsLeft)).map (padding :: ·) else some []

/-- `Encode` -/
def encode (data : List UInt8) : Option (List UInt8) :=
  if data = [] then some []
  else do
    let (values, bitsLeft) := e.encodeLoop data 8
    let s ← values.mapM e.encodeChar
    let pads ← e.padLoop 8 bitsLeft
    return s ++ pads

/-! ### Decoding -/

/-- The variables of `Decode`. -/
structure Decoder where
  v : List UInt8 := []
  currentByte : UInt8 := 0
  bitsLeft : Nat := 8
  deriving DecidableEq, Repr

/-- A decoded character goes to the current byte, and to the next one when that is full. -/
def put (d : Decoder) (cur : UInt8) : Decoder :=
  if e.bitsPerChar < d.bitsLeft then
    let bitsLeft := d.bitsLeft - e.bitsPerChar
    { d with
      currentByte := UInt8.ofNat (d.currentByte.toNat ||| cur.toNat <<< bitsLeft)
      bitsLeft }
  else
    -- in the encoded character
    let bitsLeft := e.bitsPerChar - d.bitsLeft
    let full := UInt8.ofNat (d.currentByte.toNat ||| cur.toNat >>> bitsLeft)
    let currentByte := UInt8.ofNat (cur.toNat &&& (1 <<< bitsLeft - 1))
    -- in the byte again
    let bitsLeft := 8 - bitsLeft
    { v := d.v ++ [full]
      currentByte := UInt8.ofNat (currentByte.toNat <<< bitsLeft)
      bitsLeft }

/-- The loop of `Decode` over the characters before the padding, and what it leaves. -/
def decodeLoop : List UInt8 → Decoder → Option (Decoder × List UInt8)
  | [], d => some (d, [])
  | c :: s, d =>
    if c = padding then some (d, c :: s)
    else
      let cur := e.decodeChar c
      if cur = decodeError then none else decodeLoop s (e.put d cur)

/-- The padding loop of `Decode`. -/
def skipPadding : List UInt8 → Nat → List UInt8
  | [], _ => []
  | c :: s, bitsLeft =>
    if c = padding ∧ bitsLeft ≠ 8 then skipPadding s (e.skipChar bitsLeft) else c :: s

/-- `Decode` -/
def decode (data : List UInt8) : Option (List UInt8) :=
  if data = [] then some []
  else do
    let (d, rest) ← e.decodeLoop data {}
    if d.currentByte ≠ 0 then none
    else if e.skipPadding rest d.bitsLeft = [] then some d.v
    else none

end BaseEncoding

/-! ### Alphabets -/

/-- `B32Impl::Decode` of a character other than the digits taken for letters. -/
def b32DecodePlain (v : UInt8) : UInt8 :=
  if 'A'.toUInt8 ≤ v ∧ v ≤ 'Z'.toUInt8 then v - 'A'.toUInt8
  else if 'a'.toUInt8 ≤ v ∧ v ≤ 'z'.toUInt8 then v - 'a'.toUInt8
  else if '2'.toUInt8 ≤ v ∧ v ≤ '7'.toUInt8 then v - '2'.toUInt8 + 26
  else decodeError

/-- `B32Impl::Decode` -/
def b32Decode (v : UInt8) : UInt8 :=
  if v = '0'.toUInt8 then b32DecodePlain 'O'.toUInt8
  else if v = '1'.toUInt8 then b32DecodePlain 'l'.toUInt8
  else if v = '8'.toUInt8 then b32DecodePlain 'B'.toUInt8
  else b32DecodePlain v

/-- `B32Impl::Encode` -/
def b32Encode (v : UInt8) : Option UInt8 :=
  if v < 0x20 then
    if v < 26 then some ('A'.toUInt8 + v) else some ('2'.toUInt8 + (v - 26))
  else none

/-- `B64Impl::Decode` -/
def b64Decode (v : UInt8) : UInt8 :=
  if 'A'.toUInt8 ≤ v ∧ v ≤ 'Z'.toUInt8 then v - 'A'.toUInt8
  else if 'a'.toUInt8 ≤ v ∧ v ≤ 'z'.toUInt8 then v - 'a'.toUInt8 + 26
  else if '0'.toUInt8 ≤ v ∧ v ≤ '9'.toUInt8 then v - '0'.toUInt8 + 52
  else if v = '+'.toUInt8 then 62
  else if v = '/'.toUInt8 then 63
  else decodeError

/-- `B64Impl::Encode` -/
def b64Encode (v : UInt8) : Option UInt8 :=
  if v < 0x40 then
    if v < 26 then some ('A'.toUInt8 + v)
    else if v < 52 then some ('a'.toUInt8 + (v - 26))
    else if v < 62 then some ('0'.toUInt8 + (v - 52))
    else if v = 62 then some '+'.toUInt8
    else some '/'.toUInt8
  else none

/-- `Base32` -/
def base32 : BaseEncoding := ⟨5, b32Encode, b32Decode, by decide, by decide⟩

/-- `Base64` -/
def base64 : BaseEncoding := ⟨6, b64Encode, b64Decode, by decide, by decide⟩

namespace BaseEncoding

/-- The characters of an alphabet spell its values. -/
structure Spells (e : BaseEncoding) : Prop where
  decodeChar_encodeChar : ∀ v, v.toNat < 2 ^ e.bitsPerChar →
    ∃ c, e.encodeChar v = some c ∧ e.decodeChar c = v
  decodeChar_lt : ∀ c, e.decodeChar c ≠ decodeError → (e.decodeChar c).toNat < 2 ^ e.bitsPerChar
  decodeChar_padding : e.decodeChar padding = decodeError

end BaseEncoding

theorem spells_base32 : base32.Spells := by
  constructor
  · apply forall_byte
    intro n hn hlt
    have hvalue : (UInt8.ofNat n).toNat = n := UInt8.toNat_ofNat_of_lt hn
    rw [hvalue] at hlt
    have hall : ∀ n < 32, (b32Encode (UInt8.ofNat n)).map b32Decode = some (UInt8.ofNat n) := by
      decide
    exact Option.map_eq_some_iff.mp (hall n hlt)
  · apply forall_byte
    decide +kernel
  · decide

theorem spells_base64 : base64.Spells := by
  constructor
  · apply forall_byte
    intro n hn hlt
    have hvalue : (UInt8.ofNat n).toNat = n := UInt8.toNat_ofNat_of_lt hn
    rw [hvalue] at hlt
    have hall : ∀ n < 64, (b64Encode (UInt8.ofNat n)).map b64Decode = some (UInt8.ofNat n) := by
      decide
    exact Option.map_eq_some_iff.mp (hall n hlt)
  · apply forall_byte
    decide +kernel
  · decide

/-- No two characters of Base64 have one value. -/
theorem base64_encodeChar_decodeChar (c : UInt8) (h : base64.decodeChar c ≠ decodeError) :
    base64.encodeChar (base64.decodeChar c) = some c := by
  revert c
  apply forall_byte
  decide +kernel

end TrinityCore.Encoding
