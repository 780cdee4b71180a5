import TrinityCore.Server.WorldSocketRead

/-!
# The sending side of a world socket

`WorldSocket::SendPacket` and `Update` with the `Socket::Update`, `HandleQueue` and
`WriteHandlerWrapper` below it. The header cipher, zlib's `deflate` and what the operating system
does with a write are parameters. The bytes the operating system accepts are recorded.
-/

namespace TrinityCore.Server

open BitString

/-- `COMPRESSED_OPCODE_MASK`. -/
def COMPRESSED_OPCODE_MASK : UInt16 := 0x8000

/-- `EncryptablePacket`. -/
structure EncryptablePacket where
  opcode : UInt16
  contents : List UInt8
  encrypt : Bool
  deriving DecidableEq, Repr

/-- `ServerPktHeader`; its size is a `uint32`. -/
structure ServerPktHeader where
  size : Nat
  cmd : UInt16
  deriving DecidableEq, Repr

namespace ServerPktHeader

/-- The header of a payload of some size. -/
def ofSize (size : Nat) (cmd : UInt16) : ServerPktHeader where
  size := size % 4294967296
  cmd := cmd

/-- `isLargePacket`. -/
def isLargePacket (h : ServerPktHeader) : Bool := h.size > 0x7FFF

/-- `getHeaderLength`. -/
def getHeaderLength (h : ServerPktHeader) : Nat := 2 + (if h.isLargePacket then 3 else 2)

/-- The bytes the constructor puts in `header`. -/
def header (h : ServerPktHeader) : List UInt8 :=
  (if h.isLargePacket then [(0x80 : UInt8) ||| UInt8.ofNat (h.size >>> 16)] else []) ++
    [UInt8.ofNat (h.size >>> 8), UInt8.ofNat h.size,
      UInt8.ofNat h.cmd.toNat, UInt8.ofNat (h.cmd.toNat >>> 8)]

end ServerPktHeader

namespace EncryptablePacket

/-- `size`. -/
def size (p : EncryptablePacket) : Nat := p.contents.length

/-- `IsCompressed`. -/
def isCompressed (p : EncryptablePacket) : Bool := p.opcode &&& COMPRESSED_OPCODE_MASK ≠ 0

/-- The header `WorldSocket::Update` builds for the packet. -/
def pktHeader (p : EncryptablePacket) : ServerPktHeader := .ofSize (p.size + 2) p.opcode

end EncryptablePacket

/-- What `write_some` returns: a number of bytes, or an error. -/
inductive WriteResult
  | sent (bytes : Nat)
  | wouldBlock
  | failed
  deriving DecidableEq, Repr

universe u v

/-- `WorldSocket`, its sending side. -/
structure SendingSocket (σ : Type u) (ζ : Type v) where
  /-- The packets given to `SendPacket`, not yet taken by `Update`. -/
  bufferQueue : List EncryptablePacket := []
  authCrypt : σ
  compressionStream : ζ
  sendBufferSize : Nat
  writeQueue : List MessageBuffer := []
  isWritingAsync : Bool := false
  closing : Bool := false
  closed : Bool := false
  /-- How often `write_some` was called. -/
  writes : Nat := 0
  /-- The bytes `write_some` has accepted. -/
  written : List UInt8 := []

section

variable {σ : Type u} {ζ : Type v} (encrypt : σ → UInt8 → UInt8 × σ)
  (deflate : ζ → List UInt8 → Option (List UInt8) × ζ)
  (writeSome : Nat → Nat → WriteResult)

/-- `EncryptSend`. -/
def encryptSend (c : σ) (bytes : List UInt8) : List UInt8 × σ := updateData encrypt c bytes

/-- `WorldPacket::Compress` in place. Where `deflate` fails, the packet stays as it is. -/
def EncryptablePacket.compress (z : ζ) (p : EncryptablePacket) : EncryptablePacket × ζ :=
  if p.isCompressed then (p, z)
  else
    let (storage, z) := deflate z p.contents
    match storage with
    | none => (p, z)
    | some [] => (p, z)
    | some storage => ({ p with
        opcode := p.opcode ||| COMPRESSED_OPCODE_MASK
        contents := le 4 p.size ++ storage }, z)

/-- The packet as `Update` sends it: a large one is compressed. -/
def EncryptablePacket.compressLarge (z : ζ) (p : EncryptablePacket) : EncryptablePacket × ζ :=
  if p.size > 0x400 && !p.isCompressed then p.compress deflate z else (p, z)

/-- The header as `Update` sends it: encrypted where the packet needs it. -/
def EncryptablePacket.encryptHeader (c : σ) (p : EncryptablePacket) : List UInt8 × σ :=
  if p.encrypt then encryptSend encrypt c p.pktHeader.header else (p.pktHeader.header, c)

namespace SendingSocket

variable (s : SendingSocket σ ζ)

/-- `IsOpen`. -/
def isOpen : Bool := !s.closed && !s.closing

/-- `SendPacket`. -/
def sendPacket (packet : EncryptablePacket) : SendingSocket σ ζ :=
  if !s.isOpen then s else { s with bufferQueue := s.bufferQueue ++ [packet] }

/-- `QueuePacket`. -/
def queuePacket (buffer : MessageBuffer) : SendingSocket σ ζ :=
  { s with writeQueue := s.writeQueue ++ [buffer] }

/-- A round of the loop of `Update`: the packet goes behind what is in the buffer, or, where it
does not fit, behind the queued buffer, or into a buffer of its own. -/
def writePacket (buffer : MessageBuffer) (s : SendingSocket σ ζ) (queued : EncryptablePacket) :
    MessageBuffer × SendingSocket σ ζ :=
  let (queued, compressionStream) := queued.compressLarge deflate s.compressionStream
  let (header, authCrypt) := queued.encryptHeader encrypt s.authCrypt
  let s := { s with compressionStream := compressionStream, authCrypt := authCrypt }
  let length := queued.size + queued.pktHeader.getHeaderLength
  let (buffer, s) :=
    if buffer.getRemainingSpace < length then
      -- what the queue has moved away keeps no storage
      (buffer.move.2.resize s.sendBufferSize, s.queuePacket buffer)
    else (buffer, s)
  if buffer.getRemainingSpace ≥ length then
    ((buffer.write header).write queued.contents, s)
  else
    let packetBuffer := MessageBuffer.ofSize length
    (buffer, s.queuePacket ((packetBuffer.write header).write queued.contents))

/-- The loop of `Update`. -/
def writePackets (buffer : MessageBuffer) (s : SendingSocket σ ζ) :
    List EncryptablePacket → MessageBuffer × SendingSocket σ ζ
  | [] => (buffer, s)
  | queued :: rest =>
    let (buffer, s) := writePacket encrypt deflate buffer s queued
    writePackets buffer s rest

/-- `AsyncProcessQueue`: wait until the socket can be written. -/
def asyncProcessQueue : Bool × SendingSocket σ ζ :=
  if s.isWritingAsync then (false, s) else (false, { s with isWritingAsync := true })

/-- What `HandleQueue` does after it has popped the front. -/
def popped (rest : List MessageBuffer) : SendingSocket σ ζ :=
  { s with
    writeQueue := rest
    closed := s.closed || (s.closing && rest.isEmpty) }

/-- `HandleQueue`. -/
def handleQueue : Bool × SendingSocket σ ζ :=
  match s.writeQueue with
  | [] => (false, s)
  | queuedMessage :: rest =>
    let bytesToSend := queuedMessage.getActiveSize
    match writeSome s.writes bytesToSend with
    | .wouldBlock => { s with writes := s.writes + 1 }.asyncProcessQueue
    | .failed => (false, { s with writes := s.writes + 1 }.popped rest)
    | .sent bytesSent =>
      let s := { s with
        writes := s.writes + 1
        written := s.written ++ queuedMessage.active.take bytesSent }
      if bytesSent = 0 then (false, s.popped rest)
      else if bytesSent < bytesToSend then
        { s with writeQueue := queuedMessage.readCompleted bytesSent :: rest }.asyncProcessQueue
      else (!rest.isEmpty, s.popped rest)

theorem asyncProcessQueue_fst : s.asyncProcessQueue.1 = false := by
  rw [asyncProcessQueue]
  split <;> rfl

/-- A queue that is to be handled again has lost a buffer. -/
theorem length_handleQueue {s : SendingSocket σ ζ} (h : (s.handleQueue writeSome).1 = true) :
    (s.handleQueue writeSome).2.writeQueue.length < s.writeQueue.length := by
  revert h
  unfold handleQueue
  split
  · exact fun h => absurd h Bool.false_ne_true
  · rename_i queuedMessage rest hqueue
    dsimp only
    split
    · exact fun h => absurd ((asyncProcessQueue_fst _).symm.trans h) Bool.false_ne_true
    · exact fun h => absurd h Bool.false_ne_true
    · split
      · exact fun h => absurd h Bool.false_ne_true
      · split
        · exact fun h => absurd ((asyncProcessQueue_fst _).symm.trans h) Bool.false_ne_true
        · intro _
          rw [hqueue]
          exact Nat.lt_succ_self _

/-- The loop of `Socket::Update`. -/
def handleQueueLoop (s : SendingSocket σ ζ) : SendingSocket σ ζ :=
  if _h : (s.handleQueue writeSome).1 = true then handleQueueLoop (s.handleQueue writeSome).2
  else (s.handleQueue writeSome).2
termination_by s.writeQueue.length
decreasing_by exact length_handleQueue writeSome ‹_›

/-- `Socket::Update`. -/
def socketUpdate : SendingSocket σ ζ :=
  if s.closed then s
  else if s.isWritingAsync || (s.writeQueue.isEmpty && !s.closing) then s
  else s.handleQueueLoop writeSome

/-- The part of `WorldSocket::Update` before it writes. -/
def queuePackets : SendingSocket σ ζ :=
  let (buffer, s') := writePackets encrypt deflate (.ofSize s.sendBufferSize)
    { s with bufferQueue := [] } s.bufferQueue
  if buffer.getActiveSize > 0 then s'.queuePacket buffer else s'

/-- `WorldSocket::Update`. -/
def update : SendingSocket σ ζ :=
  (s.queuePackets encrypt deflate).socketUpdate writeSome

/-- `WriteHandlerWrapper`. -/
def writeHandlerWrapper : SendingSocket σ ζ :=
  ({ s with isWritingAsync := false }.handleQueue writeSome).2

/-- What happens to a socket. -/
inductive Event
  | sendPacket (packet : EncryptablePacket)
  | update
  /-- The socket can be written again. -/
  | writable
  deriving DecidableEq, Repr

/-- The packets an event gives to the socket. -/
def Event.packets : Event → List EncryptablePacket
  | .sendPacket packet => [packet]
  | .update => []
  | .writable => []

/-- One event. The handler of a write is called only where one was started. -/
def step : Event → SendingSocket σ ζ
  | .sendPacket packet => s.sendPacket packet
  | .update => s.update encrypt deflate writeSome
  | .writable => if s.isWritingAsync then s.writeHandlerWrapper writeSome else s

end SendingSocket

end

end TrinityCore.Server
