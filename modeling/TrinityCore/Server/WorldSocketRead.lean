import TrinityCore.Lib.BitString
import TrinityCore.Server.MessageBuffer

/-!
# The receiving side of a world socket

`WorldSocket::ReadHandler`, `ReadHeaderHandler` and `ReadDataHandler`, after initialization. The
header cipher and the handlers of the packets are parameters: a cipher turns its state and a
byte into a byte and its next state. The packets that reach a handler are recorded.
-/

namespace TrinityCore.Server

open BitString

/-- `NUM_OPCODE_HANDLERS`. -/
def NUM_OPCODE_HANDLERS : Nat := 0x7FFF + 1

/-- `sizeof(ClientPktHeader)`. -/
def clientPktHeaderSize : Nat := 6

/-- `ClientPktHeader`, its size in host order. -/
structure ClientPktHeader where
  size : Nat
  cmd : Nat
  deriving DecidableEq, Repr

namespace ClientPktHeader

/-- The header as it arrives: the size most significant byte first, the command last. -/
def ofWire (bytes : List UInt8) : ClientPktHeader where
  size := readLE (bytes.take 2).reverse
  cmd := readLE (bytes.drop 2)

/-- `IsValidSize`. -/
def isValidSize (h : ClientPktHeader) : Bool := h.size ≥ 4 && h.size < 10240

/-- `IsValidOpcode`. -/
def isValidOpcode (h : ClientPktHeader) : Bool := h.cmd < NUM_OPCODE_HANDLERS

/-- The header as it lies in memory. -/
def toBytes (h : ClientPktHeader) : List UInt8 := le 2 h.size ++ le 4 h.cmd

/-- The header read from memory. -/
def ofBytes (bytes : List UInt8) : ClientPktHeader where
  size := readLE (bytes.take 2)
  cmd := readLE ((bytes.drop 2).take 4)

end ClientPktHeader

/-- The opcode and the payload of a received packet. -/
structure WorldPacket where
  opcode : UInt16
  contents : List UInt8
  deriving DecidableEq, Repr

/-- `ReadDataHandlerResult`. -/
inductive ReadDataHandlerResult
  | Ok
  | Error
  | WaitingForQuery
  deriving DecidableEq, Repr

/-- A failed `ASSERT` stops the server; a loop that does not end is told apart from one. -/
inductive Failure
  | assertion
  | endless
  deriving DecidableEq, Repr

universe u

/-- `WorldSocket`, its receiving side. -/
structure WorldSocket (σ : Type u) where
  headerBuffer : MessageBuffer
  packetBuffer : MessageBuffer
  authCrypt : σ
  /-- The active part of the read buffer. -/
  readBuffer : List UInt8 := []
  closed : Bool := false
  /-- The packets given to their handlers. -/
  delivered : List WorldPacket := []

/-- What `ReadHandler` does after a part of its loop. -/
inductive Flow (σ : Type u)
  | go (s : WorldSocket σ)
  | stop (s : WorldSocket σ)

section

variable {σ : Type u} (decrypt : σ → UInt8 → UInt8 × σ)
  (dispatch : WorldPacket → ReadDataHandlerResult)

/-- `UpdateData` of a cipher: byte after byte. -/
def updateData (cipher : σ → UInt8 → UInt8 × σ) (c : σ) : List UInt8 → List UInt8 × σ
  | [] => ([], c)
  | byte :: rest =>
    let (out, c) := cipher c byte
    let (outs, c) := updateData cipher c rest
    (out :: outs, c)

/-- A cipher turns every byte into one. -/
theorem length_updateData (cipher : σ → UInt8 → UInt8 × σ) (c : σ) (bytes : List UInt8) :
    (updateData cipher c bytes).1.length = bytes.length := by
  induction bytes generalizing c with
  | nil => rfl
  | cons byte rest ih =>
    show (_ :: (updateData cipher _ rest).1).length = _
    rw [List.length_cons, ih, List.length_cons]

/-- `DecryptRecv`. -/
def decryptRecv (c : σ) (bytes : List UInt8) : List UInt8 × σ := updateData decrypt c bytes

namespace WorldSocket

variable (s : WorldSocket σ)

/-- `ReadHeaderHandler` for an initialized socket. -/
def readHeaderHandler : Except Failure (Bool × WorldSocket σ) :=
  if s.headerBuffer.getActiveSize ≠ clientPktHeaderSize then .error .assertion
  else
    let (plain, authCrypt) := decryptRecv decrypt s.authCrypt s.headerBuffer.active
    let header := ClientPktHeader.ofWire plain
    if !header.isValidSize || !header.isValidOpcode then .ok (false, { s with authCrypt := authCrypt })
    else
      let header := { header with size := header.size - 4 }
      .ok (true, { s with
        authCrypt := authCrypt
        -- the header is decrypted and converted where it lies
        headerBuffer := { s.headerBuffer with
          storage := s.headerBuffer.storage.take s.headerBuffer.rpos ++ header.toBytes }
        packetBuffer := s.packetBuffer.resize header.size })

/-- `ReadDataHandler`. -/
def readDataHandler : ReadDataHandlerResult × WorldSocket σ :=
  let header := ClientPktHeader.ofBytes (s.headerBuffer.storage.drop s.headerBuffer.rpos)
  let (contents, packetBuffer) := s.packetBuffer.move
  let packet : WorldPacket := { opcode := UInt16.ofNat header.cmd, contents := contents }
  (dispatch packet, { s with
    packetBuffer := packetBuffer
    delivered := s.delivered ++ [packet] })

/-- The part of the loop of `ReadHandler` that receives the header. -/
def fillHeader : Except Failure (Flow σ) :=
  if s.headerBuffer.getRemainingSpace > 0 then
    let readHeaderSize := min s.readBuffer.length s.headerBuffer.getRemainingSpace
    let s := { s with
      headerBuffer := s.headerBuffer.write (s.readBuffer.take readHeaderSize)
      readBuffer := s.readBuffer.drop readHeaderSize }
    if s.headerBuffer.getRemainingSpace > 0 then
      if s.readBuffer.length = 0 then .ok (.stop s) else .error .assertion
    else do
      let (valid, s) ← s.readHeaderHandler decrypt
      return if valid then .go s else .stop { s with closed := true }
  else .ok (.go s)

/-- The part that receives the payload. -/
def fillPacket : Except Failure (Flow σ) :=
  if s.packetBuffer.getRemainingSpace > 0 then
    let readDataSize := min s.readBuffer.length s.packetBuffer.getRemainingSpace
    let s := { s with
      packetBuffer := s.packetBuffer.write (s.readBuffer.take readDataSize)
      readBuffer := s.readBuffer.drop readDataSize }
    if s.packetBuffer.getRemainingSpace > 0 then
      if s.readBuffer.length = 0 then .ok (.stop s) else .error .assertion
    else .ok (.go s)
  else .ok (.go s)

/-- The part that hands the packet on. -/
def finishPacket : Flow σ :=
  let (result, s) := s.readDataHandler dispatch
  let s := { s with headerBuffer := s.headerBuffer.reset }
  match result with
  | .Ok => .go s
  | .WaitingForQuery => .stop s
  | .Error => .stop { s with closed := true }

/-- The loop of `ReadHandler`, with a bound on its rounds. -/
def readLoop : Nat → WorldSocket σ → Except Failure (WorldSocket σ)
  | 0, s => if s.readBuffer.length > 0 then .error .endless else .ok s
  | rounds + 1, s =>
    if s.readBuffer.length > 0 then do
      match ← s.fillHeader decrypt with
      | .stop s => return s
      | .go s =>
        match ← s.fillPacket with
        | .stop s => return s
        | .go s =>
          match s.finishPacket dispatch with
          | .stop s => return s
          | .go s => readLoop rounds s
    else .ok s

/-- `ReadHandler`. -/
def readHandler : Except Failure (WorldSocket σ) :=
  if s.closed then .ok s else readLoop decrypt dispatch s.readBuffer.length s

/-- `ReadHandlerInternal`: a chunk has arrived behind what is left of the last ones. -/
def receive (chunk : List UInt8) : Except Failure (WorldSocket σ) :=
  { s with readBuffer := s.readBuffer ++ chunk }.readHandler decrypt dispatch

/-- Chunks arrive one after the other. -/
def receiveAll (chunks : List (List UInt8)) :
    Except Failure (WorldSocket σ) := chunks.foldlM (receive decrypt dispatch) s

/-- The socket as `InitializeHandler` leaves it: a reset header buffer of the size of a header,
and a reset packet buffer of whatever size the initialization packet had. -/
def initialized (c : σ) (packetBuffer : MessageBuffer) : WorldSocket σ where
  headerBuffer := .ofSize clientPktHeaderSize
  packetBuffer := packetBuffer.reset
  authCrypt := c

end WorldSocket

end

end TrinityCore.Server
