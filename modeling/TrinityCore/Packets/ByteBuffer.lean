import TrinityCore.Lib.BitString

/-!
# Byte buffers

`ByteBuffer.h` and `ByteBuffer.cpp`: a vector of bytes with a read and a write position and a
bit buffer that writing and reading share. `_bitpos` is the number of free bits of the bit
buffer while writing, eight when it is empty, and the number of bits taken while reading, eight
when the next bit is in the next byte.
-/

namespace TrinityCore.Packets

open BitString

/-- `ByteBufferPositionException`, what its text is made of. -/
structure ByteBufferPositionException where
  add : Bool
  pos : Nat
  size : Nat
  valueSize : Nat
  deriving DecidableEq, Repr

/-- How an operation ends that does not return. -/
inductive Failure
  /-- A failed `ASSERT` stops the server. -/
  | assertion
  | position (e : ByteBufferPositionException)
  deriving DecidableEq, Repr

/-- `ByteBuffer`. -/
structure ByteBuffer where
  rpos : Nat := 0
  wpos : Nat := 0
  bitpos : Nat := 8
  curbitval : UInt8 := 0
  storage : List UInt8 := []
  deriving DecidableEq, Repr

namespace ByteBuffer

variable (b : ByteBuffer)

def size : Nat := b.storage.length

/-! ### Writing -/

/-- The copy at the end of `append`: the storage grows to the new size, if it has to. -/
def store (src : List UInt8) : ByteBuffer :=
  let newSize := b.wpos + src.length
  let storage := b.storage ++ List.replicate (newSize - b.size) 0
  { b with storage := storage.take b.wpos ++ src ++ storage.drop newSize, wpos := newSize }

/-- `append`, when no bits are pending. -/
def appendAligned (src : List UInt8) : Except Failure ByteBuffer :=
  if src = [] then .error .assertion
  else if b.size < 10000000 then .ok (b.store src)
  else .error .assertion

/-- `FlushBits`. -/
def flushBits : Except Failure ByteBuffer :=
  if b.bitpos = 8 then .ok b
  else do
    let b ← { b with bitpos := 8 }.appendAligned [b.curbitval]
    return { b with curbitval := 0 }

/-- `append`. -/
def append (src : List UInt8) : Except Failure ByteBuffer :=
  if src = [] then .error .assertion
  else if b.size < 10000000 then do
    let b ← b.flushBits
    return b.store src
  else .error .assertion

/-- `WriteBit`. -/
def writeBit (bit : Bool) : Except Failure ByteBuffer :=
  let bitpos := b.bitpos - 1
  let curbitval := if bit then UInt8.ofNat (b.curbitval.toNat ||| 1 <<< bitpos) else b.curbitval
  if bitpos = 0 then do
    let b ← { b with bitpos := 8, curbitval := curbitval }.append [curbitval]
    return { b with curbitval := 0 }
  else .ok { b with bitpos := bitpos, curbitval := curbitval }

/-- `(1 << bits) - 1` as an `int`, widened to 64 bits. C++ leaves `1 << 32` undefined: `wide` is
what the compiled code has for it. -/
def intMask (wide : Int32) (bits : Nat) : UInt64 :=
  ((if bits < 32 then 1 <<< Int32.ofNat bits else wide) - 1).toInt64.toUInt64

/-- What `WriteBits` keeps of the value, by its two masks. -/
def keptBits (wide : Int32) (value : UInt64) (bits : Nat) : UInt64 :=
  value &&& intMask wide bits &&& (1 <<< UInt64.ofNat bits - 1)

/-- The loop of `WriteBits` over full bytes, with the bits left. -/
def appendBytes (value : UInt64) (bits : Nat) (b : ByteBuffer) :
    Except Failure (ByteBuffer × Nat) :=
  if bits ≥ 8 then do
    let b ← b.append [UInt8.ofNat (value.toNat >>> (bits - 8))]
    appendBytes value (bits - 8) b
  else .ok (b, bits)

/-- `WriteBits`. -/
def writeBits (wide : Int32) (b : ByteBuffer) (value : UInt64) (bits : Nat) :
    Except Failure ByteBuffer :=
  let value := keptBits wide value bits
  if bits > b.bitpos then do
    let left := bits - b.bitpos
    let curbitval := UInt8.ofNat (b.curbitval.toNat ||| value.toNat >>> left)
    let b ← { b with curbitval := curbitval, bitpos := 8 }.append [curbitval]
    let (b, left) ← appendBytes value left b
    let bitpos := 8 - left
    return { b with
      bitpos := bitpos
      curbitval := UInt8.ofNat ((value.toNat &&& (1 <<< left - 1)) <<< bitpos) }
  else
    let bitpos := b.bitpos - bits
    let curbitval := UInt8.ofNat (b.curbitval.toNat ||| value.toNat <<< bitpos)
    if bitpos = 0 then do
      let b ← { b with bitpos := 8, curbitval := curbitval }.append [curbitval]
      return { b with curbitval := 0 }
    else .ok { b with bitpos := bitpos, curbitval := curbitval }

/-- `append<T>` of an integer, least significant byte first on every host. -/
def appendInt {bytes : Nat} (value : BitVec (8 * bytes)) :
    Except Failure ByteBuffer := b.append (le bytes value.toNat)

/-- The loop of `appendPackGUID`: the mask and the bytes that are not zero. -/
def packGUID (guid : Nat) (i : Nat) (mark : UInt8) (bytes : List UInt8) : UInt8 × List UInt8 :=
  if guid = 0 then (mark, bytes)
  else if guid % 256 ≠ 0 then
    packGUID (guid / 256) (i + 1) (UInt8.ofNat (mark.toNat ||| 1 <<< i))
      (bytes ++ [UInt8.ofNat (guid % 256)])
  else packGUID (guid / 256) (i + 1) mark bytes
termination_by guid
decreasing_by all_goals omega

/-- `appendPackGUID`. -/
def appendPackGUID (guid : UInt64) : Except Failure ByteBuffer :=
  let packed := packGUID guid.toNat 0 0 []
  b.append (packed.1 :: packed.2)

/-- `operator<<` for a C string. -/
def appendCString (str : List UInt8) : Except Failure ByteBuffer := do
  let b ← if str.length ≠ 0 then b.append str else .ok b
  b.append [0]

/-- `bitwpos`. -/
def bitwpos : Nat := b.wpos * 8 + 8 - b.bitpos

/-- One round of `PutBits`: the bit at `p` becomes `bit`. -/
def putBit (storage : List UInt8) (p : Nat) (bit : Bool) : List UInt8 :=
  storage.modify (p / 8) fun byte =>
    if bit then byte ||| UInt8.ofNat (1 <<< (7 - p % 8))
    else byte &&& ~~~(UInt8.ofNat (1 <<< (7 - p % 8)))

/-- The loop of `PutBits`, with `left` bits to go. -/
def putBitsLoop (pos : Nat) (value : UInt64) (bitCount : Nat) (storage : List UInt8) :
    Nat → List UInt8
  | 0 => storage
  | left + 1 => putBitsLoop pos value bitCount
      (putBit storage (pos + (bitCount - (left + 1))) (value.toNat.testBit left)) left

/-- `PutBits`. -/
def putBits (pos : Nat) (value : UInt64) (bitCount : Nat) : Except Failure ByteBuffer :=
  if pos + bitCount ≤ b.size * 8 ∧ bitCount ≠ 0 then
    .ok { b with storage := putBitsLoop pos value bitCount b.storage bitCount }
  else .error .assertion

/-! ### Reading -/

/-- `read(dest, len)`. -/
def read (len : Nat) : Except Failure (List UInt8 × ByteBuffer) :=
  if b.rpos + len > b.size then
    .error (.position { add := false, pos := b.rpos, size := len, valueSize := b.size })
  else .ok ((b.storage.drop b.rpos).take len, { b with rpos := b.rpos + len })

/-- `ReadBit`. -/
def readBit : Except Failure (Bool × ByteBuffer) := do
  let b ← if b.bitpos ≥ 8 then do
      let (bytes, b) ← b.read 1
      pure { b with curbitval := bytes.headD 0, bitpos := 0 }
    else pure b
  let bitpos := b.bitpos + 1
  return (b.curbitval.toNat.testBit (8 - bitpos), { b with bitpos := bitpos })

/-- The loop of `ReadBits`, with `left` bits to go. -/
def readBitsLoop : Nat → UInt32 → ByteBuffer → Except Failure (UInt32 × ByteBuffer)
  | 0, value, b => .ok (value, b)
  | left + 1, value, b => do
    let (bit, b) ← b.readBit
    readBitsLoop left (value ||| UInt32.ofNat (bit.toNat <<< left)) b

/-- `ReadBits`. -/
def readBits (bits : Nat) : Except Failure (UInt32 × ByteBuffer) :=
  readBitsLoop bits 0 b

/-- `read<T>` of an integer. -/
def readInt (bytes : Nat) : Except Failure (BitVec (8 * bytes) × ByteBuffer) := do
  let (src, b) ← b.read bytes
  return (BitVec.ofNat (8 * bytes) (readLE src), b)

/-- The loop of `readPackGUID`, with `left` bytes to go. -/
def readPackGUIDLoop (mark : UInt8) : Nat → UInt64 → ByteBuffer →
    Except Failure (UInt64 × ByteBuffer)
  | 0, guid, b => .ok (guid, b)
  | left + 1, guid, b =>
    if mark.toNat.testBit (8 - (left + 1)) then do
      let (bytes, b) ← b.read 1
      let bit := bytes.headD 0
      readPackGUIDLoop mark left (guid ||| UInt64.ofNat (bit.toNat <<< ((8 - (left + 1)) * 8))) b
    else readPackGUIDLoop mark left guid b

/-- `readPackGUID`. Its own tests of the size repeat those of `read`. -/
def readPackGUID : Except Failure (UInt64 × ByteBuffer) := do
  let (bytes, b) ← b.read 1
  readPackGUIDLoop (bytes.headD 0) 8 0 b

/-- The loop of `operator>>` for a string, over the bytes that are left. -/
def readCStringLoop : List UInt8 → List UInt8 × Nat
  | [] => ([], 0)
  | c :: rest =>
    if c = 0 then ([], 1)
    else
      let (text, taken) := readCStringLoop rest
      (c :: text, taken + 1)

/-- `operator>>` for a string. -/
def readCString : List UInt8 × ByteBuffer :=
  let (text, taken) := readCStringLoop (b.storage.drop b.rpos)
  (text, { b with rpos := b.rpos + taken })

end ByteBuffer

/-! ### Fields -/

/-- A number of bits that `ReadBits` can return. -/
abbrev BitCount := { n : Nat // 1 ≤ n ∧ n ≤ 32 }

/-- The widths of the fixed-width integers; signed ones are written as in two's complement. -/
inductive IntWidth
  | int8
  | int16
  | int32
  | int64
  deriving DecidableEq, Repr

/-- `sizeof`. -/
def IntWidth.bytes : IntWidth → Nat
  | .int8 => 1
  | .int16 => 2
  | .int32 => 4
  | .int64 => 8

/-- A string without NUL, as a `char const*` denotes one. -/
structure CString where
  text : List UInt8
  noNul : ∀ c ∈ text, c ≠ 0

/-- What is written in one go. -/
inductive Field
  | bit (value : Bool)
  | bits (n : BitCount) (value : UInt64)
  | int (w : IntWidth) (value : BitVec (8 * w.bytes))
  | packGUID (guid : UInt64)
  | cstring (str : CString)

/-- What a reader has to know of a field. -/
inductive Kind
  | bit
  | bits (n : BitCount)
  | int (w : IntWidth)
  | packGUID
  | cstring
  deriving DecidableEq

/-- What is read. -/
inductive Value
  | bit (value : Bool)
  | bits (value : UInt32)
  | int (w : IntWidth) (value : BitVec (8 * w.bytes))
  | packGUID (guid : UInt64)
  | cstring (text : List UInt8)

namespace Field

def kind : Field → Kind
  | .bit _ => .bit
  | .bits n _ => .bits n
  | .int w _ => .int w
  | .packGUID _ => .packGUID
  | .cstring _ => .cstring

/-- What the field is to read back as: bits modulo their range. -/
def value : Field → Value
  | .bit value => .bit value
  | .bits n value => .bits (UInt32.ofNat (value.toNat % 2 ^ n.val))
  | .int w value => .int w value
  | .packGUID guid => .packGUID guid
  | .cstring str => .cstring str.text

def write (wide : Int32) (b : ByteBuffer) : Field → Except Failure ByteBuffer
  | .bit value => b.writeBit value
  | .bits n value => b.writeBits wide value n.val
  | .int _ value => b.appendInt value
  | .packGUID guid => b.appendPackGUID guid
  | .cstring str => b.appendCString str.text

end Field

def Kind.read (b : ByteBuffer) : Kind → Except Failure (Value × ByteBuffer)
  | .bit => do
    let (value, b) ← b.readBit
    return (.bit value, b)
  | .bits n => do
    let (value, b) ← b.readBits n.val
    return (.bits value, b)
  | .int w => do
    let (value, b) ← b.readInt w.bytes
    return (.int w value, b)
  | .packGUID => do
    let (guid, b) ← b.readPackGUID
    return (.packGUID guid, b)
  | .cstring =>
    let (text, b) := b.readCString
    .ok (.cstring text, b)

namespace ByteBuffer

/-- Write fields in order. -/
def writeFields (wide : Int32) (b : ByteBuffer) (fields : List Field) : Except Failure ByteBuffer :=
  fields.foldlM (Field.write wide) b

/-- Write fields in order to an empty buffer and flush the bits. -/
def ofFields (wide : Int32) (fields : List Field) : Except Failure ByteBuffer := do
  let b ← writeFields wide {} fields
  b.flushBits

/-- Read fields of the kinds in order. -/
def readFields (b : ByteBuffer) : List Kind → Except Failure (List Value × ByteBuffer)
  | [] => .ok ([], b)
  | kind :: kinds => do
    let (value, b) ← kind.read b
    let (values, b) ← readFields b kinds
    return (value :: values, b)

end ByteBuffer

end TrinityCore.Packets
