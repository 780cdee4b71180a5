import TrinityCore.Server.WorldSocketRead

/-!
# Packet framing

The packets in a stream of bytes, cut without buffers: six bytes of header, decrypted, then the
payload. The socket delivers these packets and closes at the same header, however the stream
is cut into chunks, and none of its assertions fails.
-/

namespace TrinityCore.Server

open ClientPktHeader List

open BitString

universe u

variable {σ : Type u} (decrypt : σ → UInt8 → UInt8 × σ)
  (dispatch : WorldPacket → ReadDataHandlerResult)

/-! ### The stream, cut into packets -/

/-- The packets of a stream, and whether it breaks off at a malformed header. -/
structure Cut where
  packets : List WorldPacket
  closed : Bool
  deriving DecidableEq, Repr

/-- One more packet in front. -/
def Cut.cons (p : WorldPacket) (c : Cut) : Cut := { c with packets := p :: c.packets }

/-- Cut a stream into packets. -/
def cut (c : σ) (stream : List UInt8) : Cut :=
  if stream.length < 6 then ⟨[], false⟩
  else
    let (plain, c) := decryptRecv decrypt c (stream.take 6)
    let header := ofWire plain
    let rest := stream.drop 6
    if !header.isValidSize || !header.isValidOpcode then ⟨[], true⟩
    else if rest.length < header.size - 4 then ⟨[], false⟩
    else .cons ⟨UInt16.ofNat header.cmd, rest.take (header.size - 4)⟩
      (cut c (rest.drop (header.size - 4)))
termination_by stream.length
decreasing_by
  rw [List.length_drop, List.length_drop]
  omega

/-- Where the reading of a packet stands. -/
inductive Phase
  /-- Some bytes of the header, still encrypted. -/
  | header (got : List UInt8)
  /-- The header, and some bytes of a payload of the size it gives. -/
  | payload (cmd need : Nat) (got : List UInt8)

/-- What the rest of a stream holds. -/
def Phase.cut (c : σ) (stream : List UInt8) : Phase → Cut
  | .header got => Server.cut decrypt c (got ++ stream)
  | .payload cmd need got =>
    if (got ++ stream).length < need then ⟨[], false⟩
    else .cons ⟨UInt16.ofNat cmd, (got ++ stream).take need⟩
      (Server.cut decrypt c ((got ++ stream).drop need))

/-- The phase in which a packet is still incomplete. -/
def Phase.Open : Phase → Prop
  | .header got => got.length < 6
  | .payload _ need got => got.length < need

variable {phase phase' : Phase} {c c' : σ} {got plain : List UInt8} {cmd need rounds : Nat}
  {s s' s'' : WorldSocket σ}

/-- An incomplete packet is not a packet. -/
theorem Phase.cut_nil (c : σ) (h : phase.Open) : phase.cut decrypt c [] = ⟨[], false⟩ := by
  cases phase with
  | header got =>
    have hlen : got.length < 6 := h
    show Server.cut decrypt c (got ++ []) = _
    rw [append_nil, Server.cut, if_pos hlen]
  | payload cmd need got =>
    have hlen : got.length < need := h
    rw [Phase.cut, append_nil, if_pos hlen]

variable {decrypt dispatch}

/-- A complete header and what is behind it. -/
theorem cut_append {rest : List UInt8} (hgot : got.length = 6) :
    cut decrypt c (got ++ rest) =
      let (plain, c) := decryptRecv decrypt c got
      let header := ofWire plain
      if !header.isValidSize || !header.isValidOpcode then ⟨[], true⟩
      else (Phase.payload header.cmd (header.size - 4) []).cut decrypt c rest := by
  have hlen : ¬ (got ++ rest).length < 6 := by
    rw [length_append]
    omega
  rw [cut, if_neg hlen, take_left' hgot, drop_left' hgot]
  rfl

/-- A complete payload and what is behind it. -/
theorem Phase.cut_payload {rest : List UInt8} (hgot : got.length = need) :
    (Phase.payload cmd need got).cut decrypt c rest =
      .cons ⟨UInt16.ofNat cmd, got⟩ (Server.cut decrypt c rest) := by
  have hlen : ¬ (got ++ rest).length < need := by
    rw [length_append]
    omega
  show (if (got ++ rest).length < need then _ else _) = _
  rw [if_neg hlen, take_left' hgot, drop_left' hgot]

/-! ### Headers -/

/-- A number of bytes is below the power they can hold. -/
theorem readLE_lt (bytes : List UInt8) : readLE bytes < 256 ^ bytes.length := by
  induction bytes with
  | nil => exact Nat.one_pos
  | cons b bytes ih =>
    have hb : b.toNat < 256 := b.toNat_lt
    rw [readLE, length_cons, Nat.pow_succ]
    omega

/-- The header is read from memory as it was put there. -/
theorem ofBytes_toBytes {h : ClientPktHeader} (hsize : h.size < 65536)
    (hcmd : h.cmd < 4294967296) : ofBytes h.toBytes = h := by
  have htwo : (h.toBytes.take 2) = le 2 h.size := take_left' (length_le 2 _)
  have hfour : (h.toBytes.drop 2).take 4 = le 4 h.cmd := by
    rw [show h.toBytes.drop 2 = le 4 h.cmd from drop_left' (length_le 2 _)]
    exact take_of_length_le (Nat.le_of_eq (length_le 4 _))
  have hsize' : h.size < 256 ^ 2 := hsize
  have hcmd' : h.cmd < 256 ^ 4 := hcmd
  rw [ofBytes, htwo, hfour, readLE_le, readLE_le, Nat.mod_eq_of_lt hsize',
    Nat.mod_eq_of_lt hcmd']

theorem length_toBytes (h : ClientPktHeader) : h.toBytes.length = 6 := by
  rw [toBytes, length_append, length_le, length_le]

/-- The command of six bytes of header is a 32-bit number. -/
theorem cmd_ofWire_lt (h : plain.length = 6) : (ofWire plain).cmd < 4294967296 := by
  have hlt := readLE_lt (plain.drop 2)
  rw [length_drop, h] at hlt
  exact hlt

/-- The size of six bytes of header is a 16-bit number. -/
theorem size_ofWire_lt (h : plain.length = 6) : (ofWire plain).size < 65536 := by
  have hlt := readLE_lt (plain.take 2).reverse
  rw [length_reverse, length_take, h] at hlt
  exact hlt

/-! ### The buffers and the phase -/

/-- The buffers of an open socket hold what the phase says. -/
def Reads (s : WorldSocket σ) (c : σ) (phase : Phase) : Prop :=
  s.closed = false ∧ s.authCrypt = c ∧
    match phase with
    | .header got => s.headerBuffer.Holds got 6 ∧ got.length < 6 ∧
        s.packetBuffer.rpos = 0 ∧ s.packetBuffer.wpos = 0
    | .payload cmd need got =>
      (∃ header : ClientPktHeader, header.size < 65536 ∧ header.cmd = cmd ∧ cmd < 4294967296 ∧
        s.headerBuffer.Holds header.toBytes 6) ∧
      s.packetBuffer.Holds got need ∧ got.length ≤ need

variable (decrypt) in
/-- From one point of the reading to another: what is left of the stream there, behind the
packets delivered in between, is what the stream holds. -/
structure Steps (s : WorldSocket σ) (c : σ) (phase : Phase) (s' : WorldSocket σ) (c' : σ)
    (phase' : Phase) : Prop where
  reads : Reads s' c' phase'
  shorter : s'.readBuffer.length ≤ s.readBuffer.length
  cut : ∃ new, s'.delivered = s.delivered ++ new ∧
    ∀ more, phase.cut decrypt c (s.readBuffer ++ more) =
      ⟨new ++ (phase'.cut decrypt c' (s'.readBuffer ++ more)).packets,
        (phase'.cut decrypt c' (s'.readBuffer ++ more)).closed⟩

variable (decrypt) in
/-- Where a chunk is read: the socket is closed, and has delivered all the stream holds, or
everything is consumed and a packet is incomplete. -/
def After (s : WorldSocket σ) (c : σ) (phase : Phase) (s' : WorldSocket σ) : Prop :=
  (s'.closed = true ∧ ∃ new, s'.delivered = s.delivered ++ new ∧
    ∀ more, phase.cut decrypt c (s.readBuffer ++ more) = ⟨new, true⟩) ∨
  (s'.readBuffer = [] ∧ ∃ c' phase', phase'.Open ∧ Steps decrypt s c phase s' c' phase')

theorem Steps.refl {s : WorldSocket σ} {c : σ} {phase : Phase} (h : Reads s c phase) :
    Steps decrypt s c phase s c phase where
  reads := h
  shorter := Nat.le_refl _
  cut := ⟨[], (append_nil _).symm, fun _ => rfl⟩

theorem Steps.trans {c'' : σ} {phase'' : Phase} (h : Steps decrypt s c phase s' c' phase')
    (h' : Steps decrypt s' c' phase' s'' c'' phase'') :
    Steps decrypt s c phase s'' c'' phase'' := by
  obtain ⟨new, hnew, hcut⟩ := h.cut
  obtain ⟨new', hnew', hcut'⟩ := h'.cut
  refine ⟨h'.reads, Nat.le_trans h'.shorter h.shorter, new ++ new', ?_, fun more => ?_⟩
  · rw [hnew', hnew, append_assoc]
  · rw [hcut, hcut', append_assoc]

theorem Steps.after
    (h : Steps decrypt s c phase s' c' phase') (h' : After decrypt s' c' phase' s'') :
    After decrypt s c phase s'' := by
  cases h' with
  | inl hclosed =>
    obtain ⟨hclosed, new', hnew', hcut'⟩ := hclosed
    obtain ⟨new, hnew, hcut⟩ := h.cut
    refine .inl ⟨hclosed, new ++ new', ?_, fun more => ?_⟩
    · rw [hnew', hnew, append_assoc]
    · rw [hcut, hcut']
  | inr hopen =>
    obtain ⟨hempty, c'', phase'', hphase, hsteps⟩ := hopen
    exact .inr ⟨hempty, c'', phase'', hphase, h.trans hsteps⟩

/-- A chunk that ends inside a packet. -/
theorem Steps.rest (h : Steps decrypt s c phase s' c' phase') (hphase : phase'.Open)
    (hempty : s'.readBuffer = []) : After decrypt s c phase s' :=
  Or.inr ⟨hempty, c', phase', hphase, h⟩

/-- Steps that only move bytes of the chunk to the buffers. -/
theorem Steps.of_moved
    (hreads : Reads s' c' phase') (hshorter : s'.readBuffer.length ≤ s.readBuffer.length)
    (hdelivered : s'.delivered = s.delivered)
    (hcut : ∀ more, phase.cut decrypt c (s.readBuffer ++ more) =
      phase'.cut decrypt c' (s'.readBuffer ++ more)) :
    Steps decrypt s c phase s' c' phase' where
  reads := hreads
  shorter := hshorter
  cut := ⟨[], by rw [hdelivered, append_nil], hcut⟩

/-! ### One round -/

namespace WorldSocket

variable {s : WorldSocket σ} {c : σ}

/-- The bytes of the chunk that go on with the header. -/
def withHeaderBytes (s : WorldSocket σ) : WorldSocket σ :=
  let readHeaderSize := min s.readBuffer.length s.headerBuffer.getRemainingSpace
  { s with
    headerBuffer := s.headerBuffer.write (s.readBuffer.take readHeaderSize)
    readBuffer := s.readBuffer.drop readHeaderSize }

/-- The bytes of the chunk that go on with the payload. -/
def withPayloadBytes (s : WorldSocket σ) : WorldSocket σ :=
  let readDataSize := min s.readBuffer.length s.packetBuffer.getRemainingSpace
  { s with
    packetBuffer := s.packetBuffer.write (s.readBuffer.take readDataSize)
    readBuffer := s.readBuffer.drop readDataSize }

/-- A header that the chunk does not complete. -/
theorem fillHeader_short (h : Reads s c (.header got))
    (hshort : got.length + s.readBuffer.length < 6) :
    ∃ s', s.fillHeader decrypt = .ok (.stop s') ∧ After decrypt s c (.header got) s' := by
  obtain ⟨hclosed, hcrypt, hheader, hgot, hpacket⟩ := h
  have hspace := hheader.getRemainingSpace_eq
  have hmin : min s.readBuffer.length s.headerBuffer.getRemainingSpace = s.readBuffer.length := by
    omega
  have hwritten := @MessageBuffer.Holds.write _ _ _ hheader s.readBuffer (by omega)
  have hleft := hwritten.getRemainingSpace_eq
  rw [length_append] at hleft
  refine ⟨s.withHeaderBytes, ?_, ?_⟩
  · have hfirst : s.headerBuffer.getRemainingSpace > 0 := by omega
    rw [fillHeader, if_pos hfirst]
    simp only [withHeaderBytes, hmin, take_length, drop_length, length_nil]
    rw [if_pos (by omega), if_pos trivial]
  · have hs : s.withHeaderBytes =
        { s with headerBuffer := s.headerBuffer.write s.readBuffer, readBuffer := [] } := by
      simp only [withHeaderBytes, hmin, take_length, drop_length]
    rw [hs]
    have hlen : (got ++ s.readBuffer).length < 6 := by
      rw [length_append]
      exact hshort
    refine .inr ⟨rfl, c, .header (got ++ s.readBuffer), hlen, ?_⟩
    refine Steps.of_moved ⟨hclosed, hcrypt, hwritten, hlen, hpacket⟩ (Nat.zero_le _) rfl
      fun more => ?_
    show Server.cut decrypt c _ = Server.cut decrypt c _
    rw [append_assoc, nil_append]

/-- The header of a socket with all its bytes is decrypted, checked and put back. -/
theorem readHeaderHandler_full (hheader : s.headerBuffer.Holds got 6) (hgot : got.length = 6) :
    s.readHeaderHandler decrypt =
      let (plain, authCrypt) := decryptRecv decrypt s.authCrypt got
      let header := ofWire plain
      if !header.isValidSize || !header.isValidOpcode then
        .ok (false, { s with authCrypt := authCrypt })
      else
        .ok (true, { s with
          authCrypt := authCrypt
          headerBuffer := { s.headerBuffer with
            storage := ({ header with size := header.size - 4 } : ClientPktHeader).toBytes }
          packetBuffer := s.packetBuffer.resize (header.size - 4) }) := by
  have hactive : ¬ s.headerBuffer.getActiveSize ≠ clientPktHeaderSize := by
    rw [hheader.getActiveSize_eq, hgot]
    exact not_not_intro rfl
  rw [readHeaderHandler, if_neg hactive, hheader.active_eq, hheader.rpos, take_zero]
  rfl

/-- A header that the chunk completes: the socket closes at it, or goes on with its payload. -/
theorem fillHeader_full (h : Reads s c (.header got))
    (hfull : 6 ≤ got.length + s.readBuffer.length) :
    (∃ s', s.fillHeader decrypt = .ok (.stop s') ∧ After decrypt s c (.header got) s') ∨
    ∃ s' c' cmd need, s.fillHeader decrypt = .ok (.go s') ∧
      Steps decrypt s c (.header got) s' c' (.payload cmd need []) ∧
      s'.readBuffer.length < s.readBuffer.length := by
  obtain ⟨hclosed, hcrypt, hheader, hgot, hrpos, hwpos⟩ := h
  have hspace := hheader.getRemainingSpace_eq
  obtain ⟨k, hk⟩ : ∃ k, 6 - got.length = k := ⟨_, rfl⟩
  have hmin : min s.readBuffer.length s.headerBuffer.getRemainingSpace = k := by omega
  have hlen : (got ++ s.readBuffer.take k).length = 6 := by
    rw [length_append, length_take]
    omega
  have hwritten : s.withHeaderBytes.headerBuffer.Holds (got ++ s.readBuffer.take k) 6 := by
    simp only [withHeaderBytes, hmin]
    apply hheader.write
    rw [length_append] at hlen
    omega
  have hbuffer : s.withHeaderBytes.readBuffer = s.readBuffer.drop k := by
    simp only [withHeaderBytes, hmin]
  have hleft := hwritten.getRemainingSpace_eq
  rw [hlen] at hleft
  have hstream (more : List UInt8) : got ++ (s.readBuffer ++ more) =
      got ++ s.readBuffer.take k ++ (s.readBuffer.drop k ++ more) := by
    rw [append_assoc, ← append_assoc (s.readBuffer.take k), take_append_drop]
  have hfill {r : Bool × WorldSocket σ}
      (hread : s.withHeaderBytes.readHeaderHandler decrypt = .ok r) :
      s.fillHeader decrypt = .ok (if r.1 then .go r.2 else .stop { r.2 with closed := true }) := by
    have hfirst : s.headerBuffer.getRemainingSpace > 0 := by omega
    have hlast : ¬ s.withHeaderBytes.headerBuffer.getRemainingSpace > 0 := by omega
    rw [fillHeader, if_pos hfirst]
    apply (if_neg hlast).trans
    show Except.bind (s.withHeaderBytes.readHeaderHandler decrypt) _ = _
    rw [hread]
    rfl
  have hread := @readHeaderHandler_full _ decrypt _ _ hwritten hlen
  have hcrypt' : s.withHeaderBytes.authCrypt = c := hcrypt
  rw [hcrypt'] at hread
  obtain ⟨plain, c', hplain⟩ : ∃ plain c',
    decryptRecv decrypt c (got ++ s.readBuffer.take k) = (plain, c') := ⟨_, _, rfl⟩
  have hcut (more : List UInt8) := @cut_append _ decrypt c _ (s.readBuffer.drop k ++ more) hlen
  simp only [hplain] at hcut hread
  have hplainlen : plain.length = 6 := by
    have hlen' := length_updateData decrypt c (got ++ s.readBuffer.take k)
    rw [← hlen, ← hlen']
    exact congrArg (fun out => out.1.length) hplain.symm
  by_cases hvalid : (!(ofWire plain).isValidSize ||
      !(ofWire plain).isValidOpcode) = true
  · left
    rw [if_pos hvalid] at hread
    rw [hfill hread]
    refine ⟨_, rfl, .inl ⟨rfl, [], (append_nil _).symm, fun more => ?_⟩⟩
    show Server.cut decrypt c _ = _
    rw [hstream, hcut, if_pos hvalid]
  · right
    rw [if_neg hvalid] at hread
    rw [hfill hread]
    refine ⟨_, c', (ofWire plain).cmd, (ofWire plain).size - 4,
      rfl, Steps.of_moved ⟨hclosed, rfl, ?_, ?_, Nat.zero_le _⟩ ?_ rfl fun more => ?_, ?_⟩
    · refine ⟨⟨(ofWire plain).size - 4, (ofWire plain).cmd⟩, ?_,
        rfl, cmd_ofWire_lt hplainlen, ⟨hwritten.rpos, ?_, length_toBytes _, take_length⟩⟩
      · exact Nat.lt_of_le_of_lt (Nat.sub_le _ _) (size_ofWire_lt hplainlen)
      · exact hwritten.wpos.trans (hlen.trans (length_toBytes _).symm)
    · exact MessageBuffer.holds_resize hrpos hwpos _
    · show s.withHeaderBytes.readBuffer.length ≤ _
      rw [hbuffer, length_drop]
      omega
    · show Server.cut decrypt c _ = Phase.cut decrypt c' (s.withHeaderBytes.readBuffer ++ more) _
      rw [hstream, hcut, if_neg hvalid, hbuffer]
    · show s.withHeaderBytes.readBuffer.length < _
      rw [hbuffer, length_drop]
      omega

section

variable (h : Reads s c (.payload cmd need got))
include h

/-- With the header there, the payload is next. -/
theorem fillHeader_payload : s.fillHeader decrypt = .ok (.go s) := by
  obtain ⟨-, -, ⟨header, -, -, -, hheader⟩, -⟩ := h
  have hspace := hheader.getRemainingSpace_eq
  rw [length_toBytes] at hspace
  rw [fillHeader, if_neg (by omega)]

/-- A payload that the chunk does not complete. -/
theorem fillPacket_short (hshort : got.length + s.readBuffer.length < need) :
    ∃ s', s.fillPacket = .ok (.stop s') ∧ After decrypt s c (.payload cmd need got) s' := by
  obtain ⟨hclosed, hcrypt, hheader, hpacket, hgot⟩ := h
  have hspace := hpacket.getRemainingSpace_eq
  have hmin : min s.readBuffer.length s.packetBuffer.getRemainingSpace = s.readBuffer.length := by
    omega
  have hwritten := @MessageBuffer.Holds.write _ _ _ hpacket s.readBuffer (by omega)
  have hleft := hwritten.getRemainingSpace_eq
  rw [length_append] at hleft
  refine ⟨s.withPayloadBytes, ?_, ?_⟩
  · have hfirst : s.packetBuffer.getRemainingSpace > 0 := by omega
    rw [fillPacket, if_pos hfirst]
    simp only [withPayloadBytes, hmin, take_length, drop_length, length_nil]
    rw [if_pos (by omega), if_pos trivial]
  · have hs : s.withPayloadBytes =
        { s with packetBuffer := s.packetBuffer.write s.readBuffer, readBuffer := [] } := by
      simp only [withPayloadBytes, hmin, take_length, drop_length]
    have hlen : (got ++ s.readBuffer).length < need := by
      rw [length_append]
      exact hshort
    rw [hs]
    refine .inr ⟨rfl, c, .payload cmd need (got ++ s.readBuffer), hlen, ?_⟩
    refine Steps.of_moved ⟨hclosed, hcrypt, hheader, hwritten, Nat.le_of_lt hlen⟩
      (Nat.zero_le _) rfl fun more => ?_
    rw [Phase.cut, Phase.cut, append_assoc, nil_append]

/-- A payload that the chunk completes. -/
theorem fillPacket_full (hfull : need ≤ got.length + s.readBuffer.length) :
    ∃ s' got', s.fillPacket = .ok (.go s') ∧ got'.length = need ∧
      Steps decrypt s c (.payload cmd need got) s' c (.payload cmd need got') ∧
      (got.length < need → s'.readBuffer.length < s.readBuffer.length) := by
  by_cases hgot : got.length = need
  · obtain ⟨-, -, -, hpacket, -⟩ := id h
    have hspace := hpacket.getRemainingSpace_eq
    refine ⟨s, got, ?_, hgot, Steps.refl h, fun hlt => absurd hgot (Nat.ne_of_lt hlt)⟩
    rw [fillPacket, if_neg (by omega)]
  · obtain ⟨hclosed, hcrypt, hheader, hpacket, hle⟩ := h
    have hspace := hpacket.getRemainingSpace_eq
    obtain ⟨k, hk⟩ : ∃ k, need - got.length = k := ⟨_, rfl⟩
    have hmin : min s.readBuffer.length s.packetBuffer.getRemainingSpace = k := by omega
    have hlen : (got ++ s.readBuffer.take k).length = need := by
      rw [length_append, length_take]
      omega
    have hwritten : s.withPayloadBytes.packetBuffer.Holds (got ++ s.readBuffer.take k) need := by
      simp only [withPayloadBytes, hmin]
      apply hpacket.write
      rw [length_append] at hlen
      omega
    have hbuffer : s.withPayloadBytes.readBuffer = s.readBuffer.drop k := by
      simp only [withPayloadBytes, hmin]
    have hleft := hwritten.getRemainingSpace_eq
    rw [hlen] at hleft
    refine ⟨s.withPayloadBytes, got ++ s.readBuffer.take k, ?_, hlen,
      Steps.of_moved ⟨hclosed, hcrypt, hheader, hwritten, Nat.le_of_eq hlen⟩ ?_ rfl
        fun more => ?_, fun hlt => ?_⟩
    · have hfirst : s.packetBuffer.getRemainingSpace > 0 := by omega
      have hlast : ¬ s.withPayloadBytes.packetBuffer.getRemainingSpace > 0 := by omega
      rw [fillPacket, if_pos hfirst]
      exact if_neg hlast
    · rw [hbuffer, length_drop]
      omega
    · rw [Phase.cut, Phase.cut, hbuffer, append_assoc, ← append_assoc (s.readBuffer.take k),
        take_append_drop]
    · rw [hbuffer, length_drop]
      omega

end

/-- A complete packet is handed on, and the next header is read. -/
theorem finishPacket_go (hok : ∀ packet, dispatch packet = .Ok)
    (h : Reads s c (.payload cmd need got)) (hfull : got.length = need) :
    ∃ s', s.finishPacket dispatch = .go s' ∧
      Steps decrypt s c (.payload cmd need got) s' c (.header []) ∧
      s'.readBuffer = s.readBuffer := by
  obtain ⟨hclosed, hcrypt, ⟨header, hsize, hcmd, hlt, hheader⟩, hpacket, -⟩ := h
  have hopcode : (ofBytes (s.headerBuffer.storage.drop s.headerBuffer.rpos)) =
      header := by
    rw [hheader.rpos, drop_zero, hheader.storage_eq (length_toBytes _)]
    exact ofBytes_toBytes hsize (hcmd ▸ hlt)
  have hcontents : s.packetBuffer.storage = got := hpacket.storage_eq hfull
  have hgo : s.finishPacket dispatch = .go { s with
      packetBuffer := { storage := [] }
      delivered := s.delivered ++ [⟨UInt16.ofNat cmd, got⟩]
      headerBuffer := s.headerBuffer.reset } := by
    simp only [finishPacket, readDataHandler, MessageBuffer.move, hopcode, hcontents, hok, hcmd]
  refine ⟨_, hgo, ⟨⟨hclosed, hcrypt, hheader.reset, Nat.succ_pos 5, rfl, rfl⟩, Nat.le_refl _,
    [⟨UInt16.ofNat cmd, got⟩], rfl, fun more => ?_⟩, rfl⟩
  rw [Phase.cut_payload hfull]
  rfl

/-! ### The whole loop -/

/-- From the payload on, a round ends inside it or leads to the next header. -/
theorem payload_round (hok : ∀ packet, dispatch packet = .Ok)
    (h : Reads s c (.payload cmd need got)) :
    (∃ s', s.fillPacket = .ok (.stop s') ∧ After decrypt s c (.payload cmd need got) s') ∨
    ∃ s' s'', s.fillPacket = .ok (.go s') ∧ s'.finishPacket dispatch = .go s'' ∧
      Steps decrypt s c (.payload cmd need got) s'' c (.header []) ∧
      (got.length < need → s''.readBuffer.length < s.readBuffer.length) := by
  by_cases hfull : need ≤ got.length + s.readBuffer.length
  · right
    obtain ⟨s', got', hfill, hgot', hsteps, hless⟩ := fillPacket_full h hfull
    obtain ⟨s'', hfinish, hsteps', hbuffer⟩ := finishPacket_go hok hsteps.reads hgot'
    refine ⟨s', s'', hfill, hfinish, hsteps.trans hsteps', fun hlt => ?_⟩
    rw [hbuffer]
    exact hless hlt
  · left
    exact fillPacket_short h (Nat.lt_of_not_le hfull)

/-- A round on a chunk with bytes left ends inside the header, or leads to a payload. Bytes were
consumed, or the payload is incomplete and will consume some. -/
theorem header_round (h : Reads s c phase) (hopen : phase.Open) :
    (∃ s', s.fillHeader decrypt = .ok (.stop s') ∧ After decrypt s c phase s') ∨
    ∃ s' c' cmd need got, s.fillHeader decrypt = .ok (.go s') ∧
      Steps decrypt s c phase s' c' (.payload cmd need got) ∧
      (s'.readBuffer.length < s.readBuffer.length ∨ got.length < need) := by
  cases phase with
  | header got =>
    by_cases hfull : 6 ≤ got.length + s.readBuffer.length
    · cases fillHeader_full h hfull with
      | inl hstop => exact .inl hstop
      | inr hgo =>
        obtain ⟨s', c', cmd, need, hfill, hsteps, hless⟩ := hgo
        exact .inr ⟨s', c', cmd, need, [], hfill, hsteps, .inl hless⟩
    · exact .inl (fillHeader_short h (Nat.lt_of_not_le hfull))
  | payload cmd need got =>
    exact .inr ⟨s, c, cmd, need, got, fillHeader_payload h, Steps.refl h, .inr hopen⟩

section

variable {s₁ s₂ s₃ : WorldSocket σ} {rounds : Nat}

theorem readLoop_header (hbuffer : s.readBuffer.length > 0)
    (hheader : s.fillHeader decrypt = .ok (.stop s₁)) :
    readLoop decrypt dispatch (rounds + 1) s = .ok s₁ := by
  rw [readLoop, if_pos hbuffer, hheader]
  rfl

theorem readLoop_payload (hbuffer : s.readBuffer.length > 0)
    (hheader : s.fillHeader decrypt = .ok (.go s₁)) (hpacket : s₁.fillPacket = .ok (.stop s₂)) :
    readLoop decrypt dispatch (rounds + 1) s = .ok s₂ := by
  rw [readLoop, if_pos hbuffer, hheader]
  show Except.bind s₁.fillPacket _ = _
  rw [hpacket]
  rfl

theorem readLoop_packet (hbuffer : s.readBuffer.length > 0)
    (hheader : s.fillHeader decrypt = .ok (.go s₁)) (hpacket : s₁.fillPacket = .ok (.go s₂))
    (hfinish : s₂.finishPacket dispatch = .go s₃) :
    readLoop decrypt dispatch (rounds + 1) s = readLoop decrypt dispatch rounds s₃ := by
  simp only [readLoop, if_pos hbuffer, bind, Except.bind, hheader, hpacket, hfinish]

end

/-- The loop reads the whole chunk. The bound on its rounds is never reached: a round that goes
on has consumed a byte. -/
theorem readLoop_after (hok : ∀ packet, dispatch packet = .Ok) (h : Reads s c phase)
    (hopen : phase.Open) (hrounds : s.readBuffer.length ≤ rounds) :
    ∃ s', readLoop decrypt dispatch rounds s = .ok s' ∧ After decrypt s c phase s' := by
  induction rounds generalizing s c phase with
  | zero =>
    have hempty : s.readBuffer = [] := eq_nil_of_length_eq_zero (Nat.le_zero.mp hrounds)
    refine ⟨s, ?_, (Steps.refl h).rest hopen hempty⟩
    rw [readLoop, hempty, length_nil, if_neg (Nat.lt_irrefl 0)]
  | succ rounds ih =>
    by_cases hbuffer : s.readBuffer.length > 0
    · cases header_round h hopen with
      | inl hstop =>
        obtain ⟨s', hheader, hafter⟩ := hstop
        exact ⟨s', readLoop_header hbuffer hheader, hafter⟩
      | inr hgo =>
        obtain ⟨s₁, c₁, cmd, need, got, hheader, hsteps, hless⟩ := hgo
        cases payload_round hok hsteps.reads with
        | inl hstop =>
          obtain ⟨s', hpacket, hafter⟩ := hstop
          exact ⟨s', readLoop_payload hbuffer hheader hpacket, hsteps.after hafter⟩
        | inr hgo =>
          obtain ⟨s₂, s₃, hpacket, hfinish, hsteps', hless'⟩ := hgo
          have hall := hsteps.trans hsteps'
          have hconsumed : s₃.readBuffer.length < s.readBuffer.length := by
            cases hless with
            | inl hless => exact Nat.lt_of_le_of_lt hsteps'.shorter hless
            | inr hneed => exact Nat.lt_of_lt_of_le (hless' hneed) hsteps.shorter
          obtain ⟨s', hloop, hafter⟩ := ih hall.reads (Nat.succ_pos 5) (by omega)
          refine ⟨s', ?_, hall.after hafter⟩
          rw [readLoop_packet hbuffer hheader hpacket hfinish, hloop]
    · have hempty : s.readBuffer = [] := by
        apply eq_nil_of_length_eq_zero
        omega
      refine ⟨s, ?_, (Steps.refl h).rest hopen hempty⟩
      rw [readLoop, if_neg hbuffer]

/-! ### All chunks -/

/-- A closed socket reads nothing any more. -/
theorem receiveAll_closed (hclosed : s.closed = true) (chunks : List (List UInt8)) :
    ∃ s', receiveAll decrypt dispatch s chunks = .ok s' ∧ s'.closed = true ∧
      s'.delivered = s.delivered := by
  induction chunks generalizing s with
  | nil => exact ⟨s, rfl, hclosed, rfl⟩
  | cons chunk chunks ih =>
    obtain ⟨s', hall, hstill, hdelivered⟩ :=
      ih (s := { s with readBuffer := s.readBuffer ++ chunk }) hclosed
    refine ⟨s', ?_, hstill, hdelivered⟩
    rw [← hall, receiveAll, foldlM_cons]
    show Except.bind (receive decrypt dispatch s chunk) _ = _
    rw [receive, readHandler, if_pos hclosed]
    rfl

/-- Between two chunks the socket delivers what the rest of the stream holds, and closes where
it breaks off. -/
theorem receiveAll_reads (hok : ∀ packet, dispatch packet = .Ok) (h : Reads s c phase)
    (hopen : phase.Open) (hempty : s.readBuffer = []) (chunks : List (List UInt8)) :
    ∃ s', receiveAll decrypt dispatch s chunks = .ok s' ∧
      s'.delivered = s.delivered ++ (phase.cut decrypt c chunks.flatten).packets ∧
      s'.closed = (phase.cut decrypt c chunks.flatten).closed := by
  induction chunks generalizing s c phase with
  | nil =>
    rw [flatten_nil, Phase.cut_nil decrypt c hopen]
    exact ⟨s, rfl, (append_nil _).symm, h.1⟩
  | cons chunk chunks ih =>
    have harrived : Reads { s with readBuffer := s.readBuffer ++ chunk } c phase := h
    obtain ⟨s₁, hloop, hafter⟩ := readLoop_after hok harrived hopen (Nat.le_refl _)
    have hreceive : receive decrypt dispatch s chunk = .ok s₁ := by
      rw [receive, readHandler, if_neg (by rw [h.1]; exact Bool.false_ne_true), hloop]
    have hstep : receiveAll decrypt dispatch s (chunk :: chunks) =
        receiveAll decrypt dispatch s₁ chunks := by
      rw [receiveAll, foldlM_cons]
      show Except.bind (receive decrypt dispatch s chunk) _ = _
      rw [hreceive]
      rfl
    have hstream : s.readBuffer ++ chunk = chunk := by rw [hempty, nil_append]
    rw [hstep, flatten_cons]
    cases hafter with
    | inl hclosed =>
      obtain ⟨hclosed, new, hnew, hcut⟩ := hclosed
      obtain ⟨s', hall, hstill, hdelivered⟩ := receiveAll_closed hclosed chunks
      have hwhole := hcut chunks.flatten
      rw [hstream] at hwhole
      rw [hwhole]
      exact ⟨s', hall, hdelivered.trans hnew, hstill⟩
    | inr hopened =>
      obtain ⟨hempty₁, c₁, phase₁, hopen₁, hsteps⟩ := hopened
      obtain ⟨s', hall, hdelivered, hclosed⟩ := ih hsteps.reads hopen₁ hempty₁
      obtain ⟨new, hnew, hcut⟩ := hsteps.cut
      have hwhole := hcut chunks.flatten
      rw [hstream, hempty₁, nil_append] at hwhole
      rw [hwhole]
      refine ⟨s', hall, ?_, hclosed⟩
      rw [hdelivered, hnew, append_assoc]

theorem reads_initialized (c : σ) (packetBuffer : MessageBuffer) :
    Reads (initialized c packetBuffer) c (.header []) :=
  ⟨rfl, rfl, MessageBuffer.holds_ofSize _, Nat.succ_pos 5, rfl, rfl⟩

/-- An initialized socket delivers the packets of the stream, and closes at its first malformed
header. -/
theorem receiveAll_initialized (hok : ∀ packet, dispatch packet = .Ok) (c : σ)
    (packetBuffer : MessageBuffer) (chunks : List (List UInt8)) :
    ∃ s, receiveAll decrypt dispatch (initialized c packetBuffer) chunks = .ok s ∧
      s.delivered = (cut decrypt c chunks.flatten).packets ∧
      s.closed = (cut decrypt c chunks.flatten).closed :=
  receiveAll_reads hok (reads_initialized c packetBuffer) (Nat.succ_pos 5) rfl chunks

/-- Two ways to split a stream into chunks deliver the same packets, those of the stream, and
close at the same header. No assertion fails in either. -/
theorem receiveAll_split (hok : ∀ packet, dispatch packet = .Ok) (c : σ)
    (packetBuffer : MessageBuffer) {chunks chunks' : List (List UInt8)}
    (hsame : chunks.flatten = chunks'.flatten) :
    ∃ s s', receiveAll decrypt dispatch (initialized c packetBuffer) chunks = .ok s ∧
      receiveAll decrypt dispatch (initialized c packetBuffer) chunks' = .ok s' ∧
      s.delivered = (cut decrypt c chunks.flatten).packets ∧ s'.delivered = s.delivered ∧
      s.closed = (cut decrypt c chunks.flatten).closed ∧ s'.closed = s.closed := by
  obtain ⟨s, hs, hdelivered, hclosed⟩ := receiveAll_initialized hok c packetBuffer chunks
  obtain ⟨s', hs', hdelivered', hclosed'⟩ := receiveAll_initialized hok c packetBuffer chunks'
  rw [← hsame] at hdelivered' hclosed'
  exact ⟨s, s', hs, hs', hdelivered, hdelivered'.trans hdelivered.symm, hclosed,
    hclosed'.trans hclosed.symm⟩

/-- A packet of two bytes, an empty one and the start of a third, in three chunks and in one. -/
theorem receiveAll_split_three :
    ∃ s s', receiveAll (fun c byte => (byte, c)) (fun _ => .Ok) (initialized () (.ofSize 4))
        [[0, 6, 1], [0, 0, 0, 7, 8, 0], [4, 2, 0, 0, 0, 0]] = .ok s ∧
      receiveAll (fun c byte => (byte, c)) (fun _ => .Ok) (initialized () (.ofSize 4))
        [[0, 6, 1, 0, 0, 0, 7, 8, 0, 4, 2, 0, 0, 0, 0]] = .ok s' ∧
      s.delivered = [⟨1, [7, 8]⟩, ⟨2, []⟩] ∧ s'.delivered = s.delivered ∧
      s.closed = false ∧ s'.closed = s.closed := by
  have hcut : cut (fun c byte => (byte, c)) ()
      [[0, 6, 1], [0, 0, 0, 7, 8, 0], [4, 2, 0, 0, 0, 0]].flatten =
        ⟨[⟨1, [7, 8]⟩, ⟨2, []⟩], false⟩ := by
    simp [cut, decryptRecv, updateData, ClientPktHeader.ofWire, readLE, ClientPktHeader.isValidSize,
      ClientPktHeader.isValidOpcode, NUM_OPCODE_HANDLERS, Cut.cons]
  have hsplit := @receiveAll_split Unit (fun c byte => (byte, c)) (fun _ => .Ok) (fun _ => rfl) ()
    (.ofSize 4) [[0, 6, 1], [0, 0, 0, 7, 8, 0], [4, 2, 0, 0, 0, 0]]
    [[0, 6, 1, 0, 0, 0, 7, 8, 0, 4, 2, 0, 0, 0, 0]] rfl
  rw [hcut] at hsplit
  exact hsplit

end WorldSocket

end TrinityCore.Server
