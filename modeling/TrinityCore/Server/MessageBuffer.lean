import Mathlib.Data.List.Basic

/-!
# Message buffers

`MessageBuffer.h`: a vector of bytes with a read and a write position. The bytes between the
two are active, those from the write position on are free.
-/

namespace TrinityCore.Server

open List

/-- `MessageBuffer`. -/
structure MessageBuffer where
  wpos : Nat := 0
  rpos : Nat := 0
  storage : List UInt8
  deriving DecidableEq, Repr

namespace MessageBuffer

/-- The constructor with an initial size. -/
def ofSize (initialSize : Nat) : MessageBuffer := { storage := List.replicate initialSize 0 }

variable (b : MessageBuffer)

/-- `Reset`. -/
def reset : MessageBuffer := { b with wpos := 0, rpos := 0 }

/-- `Resize`. -/
def resize (bytes : Nat) : MessageBuffer :=
  { b with storage := b.storage.take bytes ++ List.replicate (bytes - b.storage.length) 0 }

/-- `ReadCompleted`. -/
def readCompleted (bytes : Nat) : MessageBuffer :=
  { b with rpos := b.rpos + bytes }

/-- `GetActiveSize`. -/
def getActiveSize : Nat := b.wpos - b.rpos

/-- `GetRemainingSpace`. -/
def getRemainingSpace : Nat := b.storage.length - b.wpos

/-- The bytes from `GetReadPointer` to the write position. -/
def active : List UInt8 := (b.storage.drop b.rpos).take b.getActiveSize

/-- `Write`. -/
def write (data : List UInt8) : MessageBuffer :=
  { b with
    storage := b.storage.take b.wpos ++ data ++ b.storage.drop (b.wpos + data.length)
    wpos := b.wpos + data.length }

/-- `Move`: the storage goes to the caller, and the buffer keeps none. -/
def move : List UInt8 × MessageBuffer := (b.storage, { storage := [] })

/-! ### Filling a buffer -/

/-- A buffer of `n` bytes of which nothing was read holds the bytes written so far. -/
structure Holds (b : MessageBuffer) (bytes : List UInt8) (n : Nat) : Prop where
  rpos : b.rpos = 0
  wpos : b.wpos = bytes.length
  size : b.storage.length = n
  front : b.storage.take bytes.length = bytes

variable {b : MessageBuffer} {bytes : List UInt8} {n : Nat}

section

variable (h : b.Holds bytes n)
include h

theorem Holds.length_le : bytes.length ≤ n := by
  have hlen := congrArg length h.front
  rw [length_take, h.size] at hlen
  omega

theorem Holds.getRemainingSpace_eq : b.getRemainingSpace = n - bytes.length := by
  rw [getRemainingSpace, h.size, h.wpos]

theorem Holds.getActiveSize_eq : b.getActiveSize = bytes.length := by
  rw [getActiveSize, h.wpos, h.rpos, Nat.sub_zero]

theorem Holds.active_eq : b.active = bytes := by
  rw [active, h.getActiveSize_eq, h.rpos, drop_zero, h.front]

/-- A full buffer is what was written. -/
theorem Holds.storage_eq (hfull : bytes.length = n) : b.storage = bytes := by
  have hfront := h.front
  rwa [take_of_length_le (Nat.le_of_eq (h.size.trans hfull.symm))] at hfront

end

theorem holds_ofSize (n : Nat) : (ofSize n).Holds [] n := ⟨rfl, rfl, length_replicate, rfl⟩

/-- After `Resize` an untouched buffer has the new size. -/
theorem holds_resize (hrpos : b.rpos = 0) (hwpos : b.wpos = 0) (n : Nat) :
    (b.resize n).Holds [] n := by
  refine ⟨hrpos, hwpos, ?_, rfl⟩
  show (b.storage.take n ++ replicate (n - b.storage.length) 0).length = n
  rw [length_append, length_take, length_replicate]
  omega

/-- A reset buffer holds nothing. -/
theorem Holds.reset (h : b.Holds bytes n) : b.reset.Holds [] n := ⟨rfl, rfl, h.size, rfl⟩

/-- What fits is appended. -/
theorem Holds.write (h : b.Holds bytes n) {data : List UInt8}
    (hfits : bytes.length + data.length ≤ n) : (b.write data).Holds (bytes ++ data) n := by
  have hwpos := h.wpos
  refine ⟨h.rpos, ?_, ?_, ?_⟩
  · show b.wpos + data.length = (bytes ++ data).length
    rw [hwpos, length_append]
  · show (b.storage.take b.wpos ++ data ++ b.storage.drop (b.wpos + data.length)).length = n
    rw [length_append, length_append, length_take, length_drop, h.size]
    omega
  · show (b.storage.take b.wpos ++ data ++ b.storage.drop (b.wpos + data.length)).take
      (bytes ++ data).length = bytes ++ data
    rw [hwpos, h.front, take_left]

/-! ### Emptying a buffer -/

/-- The positions of a buffer are in order. -/
structure WellFormed (b : MessageBuffer) : Prop where
  read : b.rpos ≤ b.wpos
  fits : b.wpos ≤ b.storage.length

theorem Holds.wellFormed (h : b.Holds bytes n) : b.WellFormed := by
  have hle := h.length_le
  rw [← h.wpos, ← h.size] at hle
  exact ⟨by rw [h.rpos]; exact Nat.zero_le _, hle⟩

theorem WellFormed.length_active (h : b.WellFormed) : b.active.length = b.getActiveSize := by
  have hfits := h.fits
  rw [active, length_take, length_drop, getActiveSize]
  omega

/-- What was read is no longer active. -/
theorem active_readCompleted (b : MessageBuffer) (bytes : Nat) :
    (b.readCompleted bytes).active = b.active.drop bytes := by
  rw [active, active, drop_take, drop_drop, getActiveSize, getActiveSize]
  show (b.storage.drop (b.rpos + bytes)).take (b.wpos - (b.rpos + bytes)) = _
  rw [Nat.sub_sub]

theorem WellFormed.readCompleted (h : b.WellFormed) {bytes : Nat}
    (hbytes : bytes ≤ b.getActiveSize) : (b.readCompleted bytes).WellFormed := by
  have hread := h.read
  rw [getActiveSize] at hbytes
  refine ⟨?_, h.fits⟩
  show b.rpos + bytes ≤ b.wpos
  omega

end MessageBuffer

end TrinityCore.Server
