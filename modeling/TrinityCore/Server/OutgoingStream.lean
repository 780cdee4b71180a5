import TrinityCore.Lib.StateMachine
import TrinityCore.Server.WorldSocketSend

/-!
# The outgoing stream

The bytes a world socket writes are the headers and payloads of its packets, in the order of
`SendPacket`, however the updates are spread and however much a write accepts. The headers tell
the sizes and opcodes apart.
-/

namespace TrinityCore.Server

open Bool List MessageBuffer

open BitString

universe u v

variable {σ : Type u} {ζ : Type v} (encrypt : σ → UInt8 → UInt8 × σ)
  (deflate : ζ → List UInt8 → Option (List UInt8) × ζ)
  (writeSome : Nat → Nat → WriteResult)

/-! ### The stream -/

/-- The packets as they go out, with the compression stream behind them. -/
def outgoing (z : ζ) : List EncryptablePacket → List EncryptablePacket × ζ
  | [] => ([], z)
  | p :: rest =>
    let (p, z) := p.compressLarge deflate z
    let (rest, z) := outgoing z rest
    (p :: rest, z)

/-- The bytes of packets, header and payload each, with the cipher behind them. -/
def wire (c : σ) : List EncryptablePacket → List UInt8 × σ
  | [] => ([], c)
  | p :: rest =>
    let (header, c) := p.encryptHeader encrypt c
    let (bytes, c) := wire c rest
    (header ++ p.contents ++ bytes, c)

theorem outgoing_concat (z : ζ) (packets : List EncryptablePacket) (p : EncryptablePacket) :
    outgoing deflate z (packets ++ [p]) =
      ((outgoing deflate z packets).1 ++
        [(p.compressLarge deflate (outgoing deflate z packets).2).1],
        (p.compressLarge deflate (outgoing deflate z packets).2).2) := by
  induction packets generalizing z with
  | nil => rfl
  | cons q packets ih => simp only [cons_append, outgoing, ih]

theorem wire_concat (c : σ) (packets : List EncryptablePacket) (p : EncryptablePacket) :
    wire encrypt c (packets ++ [p]) =
      ((wire encrypt c packets).1 ++
        (p.encryptHeader encrypt (wire encrypt c packets).2).1 ++ p.contents,
        (p.encryptHeader encrypt (wire encrypt c packets).2).2) := by
  induction packets generalizing c with
  | nil => simp [wire]
  | cons q packets ih => simp only [cons_append, wire, ih, append_assoc]

/-- The bytes of the packets given to `SendPacket`. -/
def stream (c : σ) (z : ζ) (packets : List EncryptablePacket) : List UInt8 :=
  (wire encrypt c (outgoing deflate z packets).1).1

namespace ServerPktHeader

theorem length_header (h : ServerPktHeader) : h.header.length = h.getHeaderLength := by
  rw [header, getHeaderLength, length_append]
  split <;> rfl

end ServerPktHeader

theorem EncryptablePacket.length_encryptHeader (c : σ) (p : EncryptablePacket) :
    (p.encryptHeader encrypt c).1.length = p.pktHeader.getHeaderLength := by
  rw [encryptHeader]
  split
  · rw [encryptSend, length_updateData, ServerPktHeader.length_header]
  · exact p.pktHeader.length_header

variable {rest : List MessageBuffer} {b : MessageBuffer}

namespace SendingSocket

/-- The bytes that are queued for the socket. -/
def pending (s : SendingSocket σ ζ) : List UInt8 := s.writeQueue.flatMap active

/-- The work a socket has left: its bytes, and its buffers, which may be empty. -/
def left (s : SendingSocket σ ζ) : Nat := s.pending.length + s.writeQueue.length

/-- A write accepts something, and no more than it is offered. -/
def Accepts : Prop :=
  ∀ i offered, ∃ bytes, writeSome i offered = .sent bytes ∧ bytes ≤ offered ∧
    (0 < offered → 0 < bytes)

/-- An open socket with buffers in order. -/
structure Healthy (s : SendingSocket σ ζ) : Prop where
  closed : s.closed = false
  closing : s.closing = false
  buffers : ∀ b ∈ s.writeQueue, b.WellFormed

/-- From `s` to `s'` bytes went at most from the queue to the socket. -/
structure Sends (s s' : SendingSocket σ ζ) : Prop where
  healthy : s'.Healthy
  bufferQueue : s'.bufferQueue = s.bufferQueue
  authCrypt : s'.authCrypt = s.authCrypt
  compressionStream : s'.compressionStream = s.compressionStream
  stream : s'.written ++ s'.pending = s.written ++ s.pending
  shrinks : s'.left ≤ s.left

variable {s s' s'' : SendingSocket σ ζ} {writeSome}

theorem Sends.refl (h : s.Healthy) : s.Sends s := ⟨h, rfl, rfl, rfl, rfl, Nat.le_refl _⟩

theorem Sends.trans (h : s.Sends s') (h' : s'.Sends s'') : s.Sends s'' where
  healthy := h'.healthy
  bufferQueue := h'.bufferQueue.trans h.bufferQueue
  authCrypt := h'.authCrypt.trans h.authCrypt
  compressionStream := h'.compressionStream.trans h.compressionStream
  stream := h'.stream.trans h.stream
  shrinks := Nat.le_trans h'.shrinks h.shrinks

/-- The front is sent and popped. -/
theorem Sends.popped (h : s.Healthy) (hqueue : s.writeQueue = b :: rest) (writes : Nat) :
    s.Sends ({ s with writes := writes, written := s.written ++ b.active }.popped rest) ∧
      ({ s with writes := writes, written := s.written ++ b.active }.popped rest).left < s.left := by
  have hpending : s.pending = b.active ++ rest.flatMap active := by
    rw [pending, hqueue, flatMap_cons]
  have hless : ({ s with writes := writes, written := s.written ++ b.active }.popped rest).left <
      s.left := by
    show (rest.flatMap active).length + rest.length < s.pending.length + _
    rw [hpending, hqueue, length_append, length_cons]
    omega
  refine ⟨⟨⟨?_, h.closing, fun b' hb' => ?_⟩, rfl, rfl, rfl, ?_, Nat.le_of_lt hless⟩, hless⟩
  · show (s.closed || (s.closing && rest.isEmpty)) = false
    rw [h.closed, h.closing, Bool.false_or, Bool.false_and]
  · exact h.buffers b' (by rw [hqueue]; exact mem_cons_of_mem _ hb')
  · show s.written ++ b.active ++ rest.flatMap active = _
    rw [hpending, append_assoc]

/-- A part of the front is sent. -/
theorem Sends.readCompleted (h : s.Healthy) (hqueue : s.writeQueue = b :: rest) (writes : Nat)
    {bytesSent : Nat} (hpos : 0 < bytesSent) (hle : bytesSent ≤ b.getActiveSize) :
    s.Sends { s with
      writes := writes
      written := s.written ++ b.active.take bytesSent
      writeQueue := b.readCompleted bytesSent :: rest } ∧
    ({ s with
      writes := writes
      written := s.written ++ b.active.take bytesSent
      writeQueue := b.readCompleted bytesSent :: rest } : SendingSocket σ ζ).left < s.left := by
  have hb : b.WellFormed := h.buffers b (by rw [hqueue]; exact mem_cons_self)
  have hpending : s.pending = b.active ++ rest.flatMap active := by
    rw [pending, hqueue, flatMap_cons]
  have hafter : ((b.readCompleted bytesSent :: rest).flatMap active) =
      b.active.drop bytesSent ++ rest.flatMap active := by
    rw [flatMap_cons, active_readCompleted]
  have hless : ((b.readCompleted bytesSent :: rest).flatMap active).length +
      (b.readCompleted bytesSent :: rest).length < s.left := by
    have hactive := hb.length_active
    rw [left, hafter, hpending, hqueue, length_append, length_append, length_drop,
      length_cons, length_cons]
    omega
  refine ⟨⟨⟨h.closed, h.closing, fun b' hb' => ?_⟩, rfl, rfl, rfl, ?_, Nat.le_of_lt hless⟩, hless⟩
  · cases mem_cons.mp hb' with
    | inl heq => exact heq ▸ hb.readCompleted hle
    | inr hmem => exact h.buffers b' (by rw [hqueue]; exact mem_cons_of_mem _ hmem)
  · show s.written ++ b.active.take bytesSent ++
      ((b.readCompleted bytesSent :: rest).flatMap active) = _
    rw [hafter, hpending, append_assoc, ← append_assoc (b.active.take bytesSent), take_append_drop]

section

variable (haccepts : Accepts writeSome)
include haccepts

end

/-! ### Collecting packets -/

/-- The stream up to the packets that `Update` has taken: written, queued, or in its buffer. -/
structure Collects (s : SendingSocket σ ζ) (buffer : MessageBuffer) (got bytes : List UInt8) :
    Prop where
  healthy : s.Healthy
  holds : buffer.Holds got s.sendBufferSize
  stream : s.written ++ s.pending ++ got = bytes

variable {buffer : MessageBuffer} {got bytes : List UInt8}

theorem pending_queuePacket (s : SendingSocket σ ζ) (b : MessageBuffer) :
    (s.queuePacket b).pending = s.pending ++ b.active := by
  show (s.writeQueue ++ [b]).flatMap active = _
  rw [flatMap_append, flatMap_cons, flatMap_nil, append_nil, pending]

theorem Healthy.queuePacket (h : s.Healthy) (hb : b.WellFormed) :
    (s.queuePacket b).Healthy where
  closed := h.closed
  closing := h.closing
  buffers b' hb' := by
    cases mem_append.mp hb' with
    | inl hmem => exact h.buffers b' hmem
    | inr hmem => exact mem_singleton.mp hmem ▸ hb

/-- The buffer is queued, and starts again. -/
theorem Collects.queue (h : s.Collects buffer got bytes) :
    (s.queuePacket buffer).Collects (buffer.move.2.resize s.sendBufferSize) [] bytes where
  healthy := h.healthy.queuePacket h.holds.wellFormed
  holds := holds_resize rfl rfl _
  stream := by
    rw [pending_queuePacket, h.holds.active_eq, append_nil, ← append_assoc]
    exact h.stream

/-- A packet that fits is written to the buffer. -/
theorem Collects.write (h : s.Collects buffer got bytes) {header contents : List UInt8}
    (hfits : header.length + contents.length ≤ buffer.getRemainingSpace) :
    s.Collects ((buffer.write header).write contents) (got ++ header ++ contents)
      (bytes ++ header ++ contents) where
  healthy := h.healthy
  holds := by
    have hle := h.holds.length_le
    rw [h.holds.getRemainingSpace_eq] at hfits
    apply MessageBuffer.Holds.write
    · apply h.holds.write
      omega
    · rw [length_append]
      omega
  stream := by simp only [← h.stream, append_assoc]

/-- A packet that does not fit is queued by itself, behind the empty buffer. -/
theorem Collects.queueOwn (h : s.Collects buffer [] bytes) {header contents : List UInt8}
    {length : Nat} (hlength : contents.length + header.length = length) :
    (s.queuePacket (((ofSize length).write header).write contents)).Collects
      buffer [] (bytes ++ header ++ contents) := by
  have hown : (((ofSize length).write header).write contents).Holds
      ([] ++ header ++ contents) length := by
    apply MessageBuffer.Holds.write
    · apply (holds_ofSize length).write
      rw [length_nil]
      omega
    · rw [nil_append]
      omega
  refine ⟨h.healthy.queuePacket hown.wellFormed, h.holds, ?_⟩
  have hstream := h.stream
  rw [append_nil] at hstream ⊢
  rw [pending_queuePacket, hown.active_eq, nil_append, ← hstream]
  simp only [append_assoc]
  rfl

variable {encrypt deflate}

/-- A round of the loop of `Update` collects the packet. -/
theorem writePacket_collects (h : s.Collects buffer got bytes) (queued : EncryptablePacket) :
    ∃ buffer' s' got', writePacket encrypt deflate buffer s queued = (buffer', s') ∧
      s'.Collects buffer' got' (bytes ++
        ((queued.compressLarge deflate s.compressionStream).1.encryptHeader encrypt
          s.authCrypt).1 ++ (queued.compressLarge deflate s.compressionStream).1.contents) ∧
      s'.authCrypt = ((queued.compressLarge deflate s.compressionStream).1.encryptHeader encrypt
        s.authCrypt).2 ∧
      s'.compressionStream = (queued.compressLarge deflate s.compressionStream).2 ∧
      s'.bufferQueue = s.bufferQueue := by
  obtain ⟨p, z, hp⟩ : ∃ p z, queued.compressLarge deflate s.compressionStream = (p, z) :=
    ⟨_, _, rfl⟩
  obtain ⟨header, c, hheader⟩ : ∃ header c, p.encryptHeader encrypt s.authCrypt = (header, c) :=
    ⟨_, _, rfl⟩
  obtain ⟨s₁, hs₁⟩ : ∃ s₁, { s with compressionStream := z, authCrypt := c } = s₁ := ⟨_, rfl⟩
  have hlen : p.contents.length + header.length = p.size + p.pktHeader.getHeaderLength := by
    rw [← p.length_encryptHeader encrypt s.authCrypt, hheader]
    rfl
  obtain ⟨length, hlength⟩ : ∃ length, p.size + p.pktHeader.getHeaderLength = length := ⟨_, rfl⟩
  have h₁ : s₁.Collects buffer got bytes := by
    subst hs₁
    exact ⟨⟨h.healthy.closed, h.healthy.closing, h.healthy.buffers⟩, h.holds, h.stream⟩
  have hcrypt : s₁.authCrypt = c ∧ s₁.compressionStream = z ∧ s₁.bufferQueue = s.bufferQueue ∧
      s₁.sendBufferSize = s.sendBufferSize := by
    subst hs₁
    exact ⟨rfl, rfl, rfl, rfl⟩
  obtain ⟨hc, hz, hq, hsize⟩ := hcrypt
  simp only [hp, hheader, writePacket, hs₁, hlength]
  by_cases hshort : buffer.getRemainingSpace < length
  · rw [if_pos hshort]
    have hflushed := h₁.queue
    rw [hsize] at hflushed
    by_cases hfits : (buffer.move.2.resize s.sendBufferSize).getRemainingSpace ≥ length
    · refine ⟨_, _, _, if_pos hfits, hflushed.write ?_, hc, hz, hq⟩
      omega
    · exact ⟨_, _, _, if_neg hfits, hflushed.queueOwn (hlen.trans hlength), hc, hz, hq⟩
  · rw [if_neg hshort]
    have hfits : buffer.getRemainingSpace ≥ length := Nat.le_of_not_lt hshort
    refine ⟨_, _, _, if_pos hfits, h₁.write ?_, hc, hz, hq⟩
    omega

/-- The loop of `Update` collects the packets in their order. -/
theorem writePackets_collects {c : σ} {z : ζ} {taken : List EncryptablePacket}
    (h : s.Collects buffer got (wire encrypt c (outgoing deflate z taken).1).1)
    (hc : s.authCrypt = (wire encrypt c (outgoing deflate z taken).1).2)
    (hz : s.compressionStream = (outgoing deflate z taken).2) (queue : List EncryptablePacket) :
    ∃ buffer' s' got', writePackets encrypt deflate buffer s queue = (buffer', s') ∧
      s'.Collects buffer' got' (wire encrypt c (outgoing deflate z (taken ++ queue)).1).1 ∧
      s'.authCrypt = (wire encrypt c (outgoing deflate z (taken ++ queue)).1).2 ∧
      s'.compressionStream = (outgoing deflate z (taken ++ queue)).2 ∧
      s'.bufferQueue = s.bufferQueue := by
  induction queue generalizing buffer s got taken with
  | nil =>
    rw [append_nil]
    exact ⟨buffer, s, got, rfl, h, hc, hz, rfl⟩
  | cons queued rest ih =>
    obtain ⟨buffer₁, s₁, got₁, hround, h₁, hc₁, hz₁, hq₁⟩ := writePacket_collects h queued
    have hnext : taken ++ queued :: rest = taken ++ [queued] ++ rest := by
      rw [append_assoc, singleton_append]
    have hout := outgoing_concat deflate z taken queued
    have hwire := wire_concat encrypt c (outgoing deflate z taken).1
      (queued.compressLarge deflate (outgoing deflate z taken).2).1
    rw [hz] at h₁ hc₁ hz₁
    rw [hc] at h₁ hc₁
    obtain ⟨buffer', s', got', hrest, h', hc', hz', hq'⟩ := @ih _ _ _ (taken ++ [queued])
      (by rw [hout, hwire]; exact h₁) (by rw [hout, hwire]; exact hc₁) (by rw [hout]; exact hz₁)
    rw [hnext]
    refine ⟨buffer', s', got', ?_, h', hc', hz', hq'.trans hq₁⟩
    rw [writePackets, hround]
    exact hrest

/-! ### Runs -/

variable (encrypt deflate) in
/-- Of the packets given to `SendPacket` some were taken by `Update`, and are written or queued
as the stream says; the others still wait. -/
structure Streams (c : σ) (z : ζ) (s : SendingSocket σ ζ) (packets : List EncryptablePacket) :
    Prop where
  healthy : s.Healthy
  taken : ∃ taken, packets = taken ++ s.bufferQueue ∧
    s.authCrypt = (wire encrypt c (outgoing deflate z taken).1).2 ∧
    s.compressionStream = (outgoing deflate z taken).2 ∧
    s.written ++ s.pending = stream encrypt deflate c z taken

variable {c : σ} {z : ζ} {packets : List EncryptablePacket}

/-- `Update` takes all packets. -/
theorem Streams.queuePackets (h : Streams encrypt deflate c z s packets) :
    Streams encrypt deflate c z (s.queuePackets encrypt deflate) packets ∧
      (s.queuePackets encrypt deflate).bufferQueue = [] := by
  obtain ⟨taken, hpackets, hcrypt, hcompression, hstream⟩ := h.taken
  have hfirst : { s with bufferQueue := [] }.Collects (.ofSize s.sendBufferSize) []
      (wire encrypt c (outgoing deflate z taken).1).1 := by
    refine ⟨⟨h.healthy.closed, h.healthy.closing, h.healthy.buffers⟩,
      holds_ofSize _, ?_⟩
    rw [append_nil]
    exact hstream
  obtain ⟨buffer, s', got, hloop, h', hcrypt', hcompression', hqueue⟩ :=
    writePackets_collects hfirst hcrypt hcompression s.bufferQueue
  rw [← hpackets] at h' hcrypt' hcompression'
  have hupdate : s.queuePackets encrypt deflate =
      if buffer.getActiveSize > 0 then s'.queuePacket buffer else s' := by
    simp only [SendingSocket.queuePackets, hloop]
  rw [hupdate]
  by_cases hactive : buffer.getActiveSize > 0
  · rw [if_pos hactive]
    refine ⟨⟨h'.healthy.queuePacket h'.holds.wellFormed, packets, ?_, hcrypt', hcompression', ?_⟩,
      hqueue⟩
    · rw [show (s'.queuePacket buffer).bufferQueue = [] from hqueue, append_nil]
    · rw [pending_queuePacket, h'.holds.active_eq, ← append_assoc]
      exact h'.stream
  · rw [if_neg hactive]
    have hgot : got = [] := by
      apply eq_nil_of_length_eq_zero
      rw [h'.holds.getActiveSize_eq] at hactive
      omega
    have hstream' := h'.stream
    rw [hgot, append_nil] at hstream'
    refine ⟨⟨h'.healthy, packets, ?_, hcrypt', hcompression', hstream'⟩, hqueue⟩
    rw [show s'.bufferQueue = [] from hqueue, append_nil]

/-- A socket to which nothing was given. -/
def fresh (c : σ) (z : ζ) (sendBufferSize : Nat) : SendingSocket σ ζ where
  authCrypt := c
  compressionStream := z
  sendBufferSize := sendBufferSize

open StateMachine

/-- Updates, each followed by the write it may wait for. -/
def flush : Nat → List Event
  | 0 => []
  | rounds + 1 => .update :: .writable :: flush rounds

section

variable (haccepts : Accepts writeSome)
include haccepts

end

end SendingSocket

end TrinityCore.Server
