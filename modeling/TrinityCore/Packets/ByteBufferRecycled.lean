import TrinityCore.Packets.ByteBuffer

/-!
# Buffers that are used again

`clear` empties the storage and `operator=(ByteBuffer&&)` takes over that of another buffer; both
leave the bit buffer, `_bitpos` and `_curbitval`, as it was. Which sequences of operations can
tell a recycled buffer from a new one, or from the one it was assigned, is answered exactly:
none, if and only if the bit buffers are the same.
-/

namespace TrinityCore.Packets

namespace ByteBuffer

/-- `clear`. -/
def clear (b : ByteBuffer) : ByteBuffer := { b with storage := [], rpos := 0, wpos := 0 }

/-- `operator=(ByteBuffer&&)` from another buffer: the new value and what is left of the other. -/
def moveAssign (b right : ByteBuffer) : ByteBuffer × ByteBuffer :=
  ({ b with rpos := right.rpos, wpos := right.wpos, storage := right.storage },
    { right with rpos := 0, wpos := 0, storage := [] })

/-- `put`. -/
def put (b : ByteBuffer) (pos : Nat) (src : List UInt8) : Except Failure ByteBuffer :=
  if pos + src.length ≤ b.size ∧ src ≠ [] then
    .ok { b with storage := b.storage.take pos ++ src ++ b.storage.drop (pos + src.length) }
  else .error .assertion

/-- `resize`. -/
def resize (b : ByteBuffer) (newsize : Nat) : ByteBuffer :=
  let storage := b.storage.take newsize ++ List.replicate (newsize - b.size) 0
  { b with storage := storage, rpos := 0, wpos := newsize }

/-- `read_skip`. -/
def readSkip (b : ByteBuffer) (skip : Nat) : Except Failure ByteBuffer :=
  if b.rpos + skip > b.size then
    .error (.position { add := false, pos := b.rpos, size := skip, valueSize := b.size })
  else .ok { b with rpos := b.rpos + skip }

end ByteBuffer

/-- An operation on a buffer. -/
inductive BufferOp
  | write (f : Field)
  | append (src : List UInt8)
  | flushBits
  | put (pos : Nat) (src : List UInt8)
  | putBits (pos : Nat) (value : UInt64) (bitCount : Nat)
  | read (kind : Kind)
  | readBytes (len : Nat)
  | readSkip (skip : Nat)
  | rpos (pos : Nat)
  | wpos (pos : Nat)
  | bitwpos (newPos : Nat)
  | rfinish
  | resize (newsize : Nat)
  | clear
  /-- `rpos()`, `wpos()`, `bitwpos()` and `size()`. -/
  | positions

/-- What an operation returns. -/
inductive BufferResult
  | none
  | value (v : Value)
  | bytes (src : List UInt8)
  | positions (rpos wpos bitwpos size : Nat)

/-- Run an operation. -/
def BufferOp.run (wide : Int32) (b : ByteBuffer) :
    BufferOp → Except Failure (BufferResult × ByteBuffer)
  | .write f => (f.write wide b).map fun b => (.none, b)
  | .append src => (b.append src).map fun b => (.none, b)
  | .flushBits => b.flushBits.map fun b => (.none, b)
  | .put pos src => (b.put pos src).map fun b => (.none, b)
  | .putBits pos value bitCount => (b.putBits pos value bitCount).map fun b => (.none, b)
  | .read kind => (kind.read b).map fun (v, b) => (.value v, b)
  | .readBytes len => (b.read len).map fun (src, b) => (.bytes src, b)
  | .readSkip skip => (b.readSkip skip).map fun b => (.none, b)
  | .rpos pos => .ok (.none, { b with rpos := pos })
  | .wpos pos => .ok (.none, { b with wpos := pos })
  | .bitwpos newPos => .ok (.none, { b with wpos := newPos / 8, bitpos := 8 - newPos % 8 })
  | .rfinish => .ok (.none, { b with rpos := b.wpos })
  | .resize newsize => .ok (.none, b.resize newsize)
  | .clear => .ok (.none, b.clear)
  | .positions => .ok (.positions b.rpos b.wpos b.bitwpos b.size, b)

/-- What a sequence of operations shows: the results, and the bytes at the end or the failure
that ended it. -/
def observe (wide : Int32) : ByteBuffer → List BufferOp →
    List BufferResult × Except Failure (List UInt8)
  | b, [] => ([], .ok b.storage)
  | b, op :: ops =>
    match op.run wide b with
    | .error failure => ([], .error failure)
    | .ok (result, b) =>
      let (results, ending) := observe wide b ops
      (result :: results, ending)

/-- No sequence of operations tells the buffers apart. -/
def Indistinguishable (wide : Int32) (b b' : ByteBuffer) : Prop :=
  ∀ ops, observe wide b ops = observe wide b' ops

variable {wide : Int32} {b b' : ByteBuffer}

/-- After an operation that succeeds on both, what was indistinguishable still is. -/
theorem Indistinguishable.after (h : Indistinguishable wide b b') {op : BufferOp}
    {result : BufferResult} {c c' : ByteBuffer} (hb : op.run wide b = .ok (result, c))
    (hb' : op.run wide b' = .ok (result, c')) : Indistinguishable wide c c' := by
  intro ops
  have hops := h (op :: ops)
  unfold observe at hops
  rw [hb, hb'] at hops
  simp only [Prod.mk.injEq, List.cons.injEq, true_and] at hops
  exact Prod.ext hops.1 hops.2

/-- Indistinguishable buffers hold the same bytes. -/
theorem Indistinguishable.storage_eq (h : Indistinguishable wide b b') :
    b.storage = b'.storage := by
  have hnone := congrArg Prod.snd (h [])
  exact Except.ok.inj hnone

namespace ByteBuffer

/-! ### Telling buffers apart -/

/-- An empty buffer with the bit buffer of another one. -/
abbrev withBits (bitpos : Nat) (curbitval : UInt8) : ByteBuffer :=
  { bitpos := bitpos, curbitval := curbitval }

/-- A flush of pending bits writes the byte of the bit buffer. -/
theorem flushBits_withBits {bitpos : Nat} (h : bitpos ≠ 8) (curbitval : UInt8) :
    (withBits bitpos curbitval).flushBits =
      .ok { bitpos := 8, curbitval := 0, storage := [curbitval], wpos := 1 } := by
  unfold flushBits
  rw [if_neg h]
  rfl

/-- Buffers with pending bits that cannot be told apart have the same bits. -/
theorem curbitval_eq_of_pending {bitpos : Nat} {c c' : UInt8} (hpending : bitpos ≠ 8)
    (h : Indistinguishable wide (withBits bitpos c) (withBits bitpos c')) : c = c' := by
  have hrun : ∀ c, BufferOp.flushBits.run wide (withBits bitpos c) =
      .ok (.none, { bitpos := 8, curbitval := 0, storage := [c], wpos := 1 }) := by
    intro c
    show (withBits bitpos c).flushBits.map _ = _
    rw [flushBits_withBits hpending]
    rfl
  exact (List.cons.inj (h.after (hrun c) (hrun c')).storage_eq).1

/-- Empty buffers are told apart by their bit buffers, and by nothing else. -/
theorem indistinguishable_withBits_iff {bitpos bitpos' : Nat} {c c' : UInt8} :
    Indistinguishable wide (withBits bitpos c) (withBits bitpos' c') ↔
      bitpos = bitpos' ∧ c = c' := by
  constructor
  · intro h
    have hbitpos : bitpos = bitpos' := by
      have hops := congrArg Prod.fst (h [.wpos (bitpos + bitpos'), .positions])
      simp only [observe, BufferOp.run, List.cons.injEq, BufferResult.positions.injEq, bitwpos]
        at hops
      omega
    subst hbitpos
    refine ⟨rfl, ?_⟩
    by_cases hempty : bitpos = 8
    · subst hempty
      have hrun : ∀ c, BufferOp.run wide (withBits 8 c) (.write (.bit false)) =
          .ok (.none, withBits 7 c) := fun _ => rfl
      exact curbitval_eq_of_pending (by decide) (h.after (hrun c) (hrun c'))
    · exact curbitval_eq_of_pending hempty h
  · rintro ⟨rfl, rfl⟩ ops
    rfl

/-! ### Recycled buffers -/

/-- A cleared buffer behaves like a new one exactly when no bits were pending and the bit buffer
was zero, and a buffer assigned from another one behaves like that one exactly when their bit
buffers are the same. -/
theorem recycled_iff (wide : Int32) (b right : ByteBuffer) :
    (Indistinguishable wide b.clear {} ↔ b.bitpos = 8 ∧ b.curbitval = 0) ∧
      (Indistinguishable wide (b.moveAssign right).1 right ↔
        b.bitpos = right.bitpos ∧ b.curbitval = right.curbitval) := by
  constructor
  · exact indistinguishable_withBits_iff
  · constructor
    · intro h
      have hrun : ∀ b : ByteBuffer, BufferOp.clear.run wide b = .ok (.none, b.clear) :=
        fun _ => rfl
      exact indistinguishable_withBits_iff.mp (h.after (hrun _) (hrun right))
    · rintro ⟨hbitpos, hcurbitval⟩ ops
      have heq : (b.moveAssign right).1 = right := by
        unfold moveAssign
        dsimp only
        rw [hbitpos, hcurbitval]
      rw [heq]

/-- A bit that was not flushed ends up in front of what is written after `clear`. -/
theorem pending_bit_survives_clear :
    ¬∀ (wide : Int32) (history : List BufferOp) (b : ByteBuffer),
      history.foldlM (fun b op => (BufferOp.run wide b op).map Prod.snd) {} = .ok b →
      Indistinguishable wide b.clear {} := by
  intro hall
  have h := hall 0 [.write (.bit true)] (withBits 7 128) rfl
  have hbytes := congrArg Prod.snd (h [.append [1]])
  exact absurd (Except.ok.inj hbytes) (by decide)

end ByteBuffer

end TrinityCore.Packets
