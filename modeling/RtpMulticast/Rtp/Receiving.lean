import RtpMulticast.Rtp.Definitions

/-!
# Receiving RTCP packets

`_w6x_rtcp_process_packet` with its handlers for receiver reports and source
descriptions.  A datagram is a buffer of exactly the received bytes; the
handlers reverse the byte order of the fields they read in place.  The outcome
of the lock attempt made while the packet at an offset is handled is a
parameter.
-/

namespace RtpMulticast

open ByteBuffer

/-- `w6x_rtcp_rr_t` -/
structure RtcpRr where
  client : UInt32
  fractionLoss : UInt32
  packetLoss : Int32
  extendedMax : UInt32
  jitter : UInt32
  lastSr : UInt32
  delay : UInt32
  deriving DecidableEq, Repr

/-- Invocations of the callbacks.  A source description has the pointer and
the length of the name; `name` is what stands there at that moment. -/
inductive RtcpCall where
  | rr (session : Session) (report : RtcpRr)
  | sdes (client : UInt32) (cname : ℕ) (cnameSize : UInt8) (name : Bytes)
  deriving DecidableEq, Repr

/-- State of the receive task while it handles one datagram.  `walked` records
the offset and the type of each packet that was validated; no function reads
it. -/
structure RtcpRx where
  packet : Bytes
  calls : List RtcpCall
  walked : List (ℕ × UInt8)
  deriving DecidableEq, Repr

/-- The receive task when a datagram has arrived. -/
def RtcpRx.start (packet : Bytes) : RtcpRx := ⟨packet, [], []⟩

/-! ## Receiver reports -/

def w6xRtpSenderSessionFind (sender : Sender) (ssrc : UInt32) :
    Option Session :=
  sender.session.find? fun session => session.ssrc == ssrc

/-- The critical section of the report handler, on the report at `rr`. -/
def rrLocked (sender : Sender) (rr : ℕ) (rx : RtcpRx) :
    Except Fault RtcpRx := do
  let packet ← swapU32 rx.packet (rr + 4)
  let ssrc ← loadU32 packet (rr + 4)
  match w6xRtpSenderSessionFind sender ssrc with
  | none => return { rx with packet := packet }
  | some session =>
      let packet ← swapU32 packet rr
      let packet ← swapU32 packet (rr + 8)
      let packet ← swapU32 packet (rr + 12)
      let packet ← swapU32 packet (rr + 16)
      let packet ← swapU32 packet (rr + 20)
      let packet ← swapU32 packet (rr + 24)
      let client ← loadU32 packet rr
      let loss ← loadU32 packet (rr + 8)
      let extendedMax ← loadU32 packet (rr + 12)
      let jitter ← loadU32 packet (rr + 16)
      let lastSr ← loadU32 packet (rr + 20)
      let delay ← loadU32 packet (rr + 24)
      let report : RtcpRr :=
        { client := client
          fractionLoss := loss >>> 24
          packetLoss := (loss.toInt32 <<< 8) >>> 8
          extendedMax := extendedMax
          jitter := jitter
          lastSr := lastSr
          delay := delay }
      return { rx with
        packet := packet, calls := rx.calls ++ [.rr session report] }

def w6xRtcpProcessPacketRr (sender : Sender) (mutexFree : Bool) (header : ℕ)
    (rx : RtcpRx) : Except Fault (RtpStatus × RtcpRx) := do
  if sender.id ≠ rtpSenderId then
    return (.errorParameters, rx)
  if sender.rtcpRrCb = false then
    return (.ok, rx)
  let byte0 ← loadU8 rx.packet header
  let size ← loadU16 rx.packet (header + 2)
  if byte0 &&& rtcpHeaderInfoCountMask = 0 ∨
      size.toNat + 1 < rtcpPktRrSize / 4 then
    return (.ok, rx)
  if mutexFree = false then
    return (.errorRtos, rx)
  let rx ← rrLocked sender (header + rtcpPktHeaderSize) rx
  return (.ok, rx)

/-! ## Source descriptions -/

/-- The loop over the items of the chunk at `chunk`; the result holds the
position where it stopped. -/
def sdesItems (packet : Bytes) (chunk limit item : ℕ)
    (calls : List RtcpCall) :
    Except Fault (RtpStatus × ℕ × List RtcpCall) :=
  if _hroom : item + rtcpPktSdesItemSize < limit then do
    let type ← loadU8 packet item
    if type = 0 then
      return (.ok, item, calls)
    let size ← loadU8 packet (item + 1)
    if limit < item + 2 + size.toNat then
      return (.errorPacket, item, calls)
    let calls ←
      if type = rtcpSdesTypeCname then do
        let client ← loadU32 packet chunk
        pure (calls ++ [.sdes client (item + 2) size
          ((packet.drop (item + 2)).take size.toNat)])
      else pure calls
    sdesItems packet chunk limit (item + size.toNat + 2) calls
  else .ok (.ok, item, calls)
termination_by limit - item
decreasing_by
  simp only [rtcpPktSdesItemSize] at _hroom
  omega

/-- The loop over the chunks; the first argument is the end of the packet and
the second counts down the chunks announced by the header. -/
def sdesChunks (limit : ℕ) : ℕ → ℕ → RtcpRx →
    Except Fault (RtpStatus × RtcpRx)
  | 0, _, rx => .ok (.ok, rx)
  | count + 1, chunk, rx =>
      if chunk + rtcpPktSdesChunkSize < limit then do
        let packet ← swapU32 rx.packet chunk
        let (status, item, calls) ←
          sdesItems packet chunk limit (chunk + 4) rx.calls
        let rx := { rx with packet := packet, calls := calls }
        if status ≠ .ok then
          return (status, rx)
        sdesChunks limit count (chunk + (item - chunk) / 4 + 1) rx
      else .ok (.ok, rx)

def w6xRtcpProcessPacketSdes (sender : Sender) (header : ℕ) (rx : RtcpRx) :
    Except Fault (RtpStatus × RtcpRx) := do
  if sender.id ≠ rtpSenderId then
    return (.errorParameters, rx)
  if sender.rtcpSdesCb = false then
    return (.ok, rx)
  let byte0 ← loadU8 rx.packet header
  let size ← loadU16 rx.packet (header + 2)
  sdesChunks (header + 4 * (size.toNat + 1))
    (byte0 &&& rtcpHeaderInfoCountMask).toNat (header + rtcpPktHeaderSize) rx

/-! ## Compound packets -/

/-- The switch over the packet type. -/
def rtcpDispatch (sender : Sender) (mutexFree : Bool) (header : ℕ)
    (type : UInt8) (rx : RtcpRx) : Except Fault (RtpStatus × RtcpRx) :=
  if type = rtcpHeaderTypeRr then
    w6xRtcpProcessPacketRr sender mutexFree header rx
  else if type = rtcpHeaderTypeSdes then
    w6xRtcpProcessPacketSdes sender header rx
  else .ok (.ok, rx)

/-- One iteration of the loop over the packets of a datagram of `size` bytes;
the result holds the status and the position of the next packet. -/
def rtcpBody (sender : Sender) (mutexFree : Bool) (size header : ℕ)
    (rx : RtcpRx) : Except Fault (RtpStatus × ℕ × RtcpRx) := do
  let packet ← swapU16 rx.packet (header + 2)
  let words ← loadU16 packet (header + 2)
  let next := header + 4 * (words.toNat + 1)
  let byte0 ← loadU8 packet header
  if byte0 &&& rtcpHeaderInfoVersionMask ≠ rtcpHeaderInfoVersion ∨
      size < next then
    return (.errorPacket, next, { rx with packet := packet })
  let type ← loadU8 packet (header + 1)
  let rx := { rx with packet := packet, walked := rx.walked ++ [(header, type)] }
  let (status, rx) ← rtcpDispatch sender mutexFree header type rx
  return (status, next, rx)

/-- The next packet begins behind the header of the current one. -/
theorem rtcpBody_next {sender : Sender} {mutexFree : Bool} {size header : ℕ}
    {rx rx' : RtcpRx} {status : RtpStatus} {next : ℕ}
    (h : rtcpBody sender mutexFree size header rx = .ok (status, next, rx')) :
    header + 4 ≤ next := by
  simp only [rtcpBody, bind_eq_ok] at h
  obtain ⟨packet, -, words, -, byte0, -, h⟩ := h
  have hnext : header + 4 ≤ header + 4 * (words.toNat + 1) := by omega
  split at h
  · cases h
    exact hnext
  · simp only [bind_eq_ok, pure_eq_ok] at h
    obtain ⟨type, -, _, -, h⟩ := h
    cases h
    exact hnext

/-- The loop over the packets, entered at `header`. -/
def rtcpLoop (sender : Sender) (mutexFree : ℕ → Bool) (size header : ℕ)
    (rx : RtcpRx) : Except Fault (RtpStatus × RtcpRx) :=
  match _hbody : rtcpBody sender (mutexFree header) size header rx with
  | .error fault => .error fault
  | .ok (status, next, rx') =>
      if _hmore : status = .ok ∧ next + rtcpPktHeaderSize ≤ size then
        rtcpLoop sender mutexFree size next rx'
      else .ok (status, rx')
termination_by size - header
decreasing_by
  have hnext := rtcpBody_next _hbody
  simp only [rtcpPktHeaderSize] at _hmore
  omega

/-- The checks made before the loop. -/
def rtcpCheck (sender : Sender) (packet : Bytes) : Except Fault RtpStatus := do
  if sender.id ≠ rtpSenderId then
    return .errorParameters
  if packet.length < rtcpPktHeaderSize then
    return .errorPacket
  let byte0 ← loadU8 packet 0
  let type ← loadU8 packet 1
  if byte0 &&& rtcpHeaderInfoPadMask ≠ rtcpHeaderInfoPad ∨
      type &&& rtcpHeaderTypeMask ≠ rtcpHeaderTypeSr then
    return .errorPacket
  return .ok

def w6xRtcpProcessPacket (sender : Sender) (mutexFree : ℕ → Bool)
    (packet : Bytes) : Except Fault (RtpStatus × RtcpRx) := do
  let status ← rtcpCheck sender packet
  if status ≠ .ok then
    return (status, .start packet)
  rtcpLoop sender mutexFree packet.length 0 (.start packet)

/-! ## What the report handler does -/

/-- The packet announces a block and the size of one. -/
def RrSized (packet : Bytes) (header : ℕ) : Prop :=
  packet.getD header 0 &&& rtcpHeaderInfoCountMask ≠ 0 ∧
    7 ≤ (leHalf packet (header + 2)).toNat + 1

instance (packet : Bytes) (header : ℕ) : Decidable (RrSized packet header) :=
  inferInstanceAs (Decidable (_ ∧ _))

/-- The handler tries to lock the sender. -/
def RrWanted (sender : Sender) (packet : Bytes) (header : ℕ) : Prop :=
  sender.rtcpRrCb = true ∧ RrSized packet header

instance (sender : Sender) (packet : Bytes) (header : ℕ) :
    Decidable (RrWanted sender packet header) :=
  inferInstanceAs (Decidable (_ ∧ _))

/-- The session that the first block of the packet at `header` reports on. -/
def rrSession (sender : Sender) (packet : Bytes) (header : ℕ) :
    Option Session :=
  w6xRtpSenderSessionFind sender (beWord packet (header + 8))

/-- The report in the first block of the packet at `header`. -/
def rrReport (packet : Bytes) (header : ℕ) : RtcpRr where
  client := beWord packet (header + 4)
  fractionLoss := beWord packet (header + 12) >>> 24
  packetLoss := ((beWord packet (header + 12)).toInt32 <<< 8) >>> 8
  extendedMax := beWord packet (header + 16)
  jitter := beWord packet (header + 20)
  lastSr := beWord packet (header + 24)
  delay := beWord packet (header + 28)

section ReceiverReports

variable {sender : Sender} {mutexFree : Bool} {header : ℕ} {rx : RtcpRx}

theorem w6xRtcpProcessPacketRr_eq (hid : sender.id = rtpSenderId)
    (hfit : header + 4 ≤ rx.packet.length) :
    w6xRtcpProcessPacketRr sender mutexFree header rx =
      if RrWanted sender rx.packet header then
        if mutexFree = true then
          rrLocked sender (header + 4) rx >>= fun rx => .ok (.ok, rx)
        else .ok (.errorRtos, rx)
      else .ok (.ok, rx) := by
  have hbyte0 := loadU8_eq (show header < rx.packet.length by omega)
  have hsize := loadU16_eq (show header + 2 + 2 ≤ rx.packet.length by omega)
  have hsplit : rx.packet.getD header 0 &&& rtcpHeaderInfoCountMask = 0 ∨
      (leHalf rx.packet (header + 2)).toNat + 1 < rtcpPktRrSize / 4 ↔
        ¬ RrSized rx.packet header := by
    rw [RrSized, not_and_or, not_ne_iff, not_le]
    rfl
  simp only [w6xRtcpProcessPacketRr, hid, ne_eq, not_true_eq_false, if_false,
    hbyte0, hsize, ok_bind, hsplit, pure_eq_ok]
  by_cases hwanted : RrWanted sender rx.packet header
  · rw [if_pos hwanted]
    obtain ⟨hcb, hsized⟩ := hwanted
    cases mutexFree with
    | false => simp [hcb, hsized]
    | true => simp [hcb, hsized, rtcpPktHeaderSize]
  · rw [if_neg hwanted]
    by_cases hcb : sender.rtcpRrCb = true
    · have hsized : ¬ RrSized rx.packet header := fun h => hwanted ⟨hcb, h⟩
      simp [hcb, hsized]
    · simp [hcb]

/-- No linked session has the reported source: one word is swapped. -/
theorem rrLocked_of_none (hfit : header + 12 ≤ rx.packet.length)
    (hnone : rrSession sender rx.packet header = none) :
    rrLocked sender (header + 4) rx =
      .ok { rx with packet := swapWord rx.packet (header + 8) } := by
  have hswap := swapU32_eq (show header + 4 + 4 + 4 ≤ rx.packet.length by omega)
  have hload := loadU32_eq
    (show header + 4 + 4 + 4 ≤ (swapWord rx.packet (header + 4 + 4)).length by
      rw [length_swapWord]
      omega)
  rw [leWord_swapWord (by omega)] at hload
  simp only [rrLocked, hswap, ok_bind, hload]
  rw [show header + 4 + 4 = header + 8 by omega,
    show w6xRtpSenderSessionFind sender (beWord rx.packet (header + 8)) = none
      from hnone]
  rfl

/-- The buffer behind the critical section: the seven words of the block are
in host order. -/
@[irreducible] def rrSwapped (packet : Bytes) (header : ℕ) : Bytes :=
  [header + 8, header + 4, header + 12, header + 16, header + 20, header + 24,
    header + 28].foldl swapWord packet

theorem rrSwapped_sameOutside (packet : Bytes) (header : ℕ) :
    SameOutside packet (rrSwapped packet header) (header + 4) (header + 32) := by
  have hswap : ∀ (buf : Bytes) (i : ℕ), header + 4 ≤ i → i + 4 ≤ header + 32 →
      SameOutside buf (swapWord buf i) (header + 4) (header + 32) := by
    intro buf i hlow hhigh
    exact (swapWord_sameOutside buf i).mono hlow hhigh
  simp only [rrSwapped, List.foldl_cons, List.foldl_nil]
  refine .trans ?_ (hswap _ _ (by omega) (by omega))
  refine .trans ?_ (hswap _ _ (by omega) (by omega))
  refine .trans ?_ (hswap _ _ (by omega) (by omega))
  refine .trans ?_ (hswap _ _ (by omega) (by omega))
  refine .trans ?_ (hswap _ _ (by omega) (by omega))
  refine .trans ?_ (hswap _ _ (by omega) (by omega))
  exact hswap _ _ (by omega) (by omega)

/-- A linked session has the reported source and the block is complete: the
callback receives the session and the block in host order. -/
theorem rrLocked_of_some {session : Session}
    (hfit : header + 32 ≤ rx.packet.length)
    (hsome : rrSession sender rx.packet header = some session) :
    rrLocked sender (header + 4) rx =
      .ok { rx with
        packet := rrSwapped rx.packet header
        calls := rx.calls ++ [.rr session (rrReport rx.packet header)] } := by
  have hfind : w6xRtpSenderSessionFind sender (beWord rx.packet (header + 8)) =
      some session := hsome
  simp (disch := (try simp only [length_swapWord]); omega) only
    [rrLocked, Nat.add_assoc, Nat.reduceAdd, swapU32_eq, loadU32_eq, ok_bind,
      leWord_swapWord, leWord_swapWord_of_disjoint,
      beWord_swapWord_of_disjoint, hfind, pure_eq_ok]
  simp only [rrSwapped, rrReport, List.foldl_cons, List.foldl_nil]

/-- A linked session has the reported source and the block ends outside the
datagram: the swap of its last word is out of bounds. -/
theorem rrLocked_of_short {session : Session}
    (hlow : header + 28 ≤ rx.packet.length)
    (hshort : rx.packet.length < header + 32)
    (hsome : rrSession sender rx.packet header = some session) :
    rrLocked sender (header + 4) rx = .error .outOfBounds := by
  have hfind : w6xRtpSenderSessionFind sender (beWord rx.packet (header + 8)) =
      some session := hsome
  simp (disch := (try simp only [length_swapWord]); omega) only
    [rrLocked, Nat.add_assoc, Nat.reduceAdd, swapU32_eq, swapU32_of_lt,
      loadU32_eq, ok_bind, error_bind, leWord_swapWord, hfind]

end ReceiverReports

/-! ## What the source description handler does -/

/-- A call with a name that lies between the items at `low` and `limit`. -/
def SdesWithin (packet : Bytes) (low limit : ℕ) (call : RtcpCall) : Prop :=
  ∃ client cname cnameSize,
    call = .sdes client cname cnameSize
        ((packet.drop cname).take cnameSize.toNat) ∧
      low + 2 ≤ cname ∧ cname + cnameSize.toNat ≤ limit

theorem SdesWithin.mono {packet : Bytes} {low low' limit : ℕ} {call : RtcpCall}
    (h : SdesWithin packet low limit call) (hlow : low' ≤ low) :
    SdesWithin packet low' limit call := by
  obtain ⟨client, cname, cnameSize, hcall, hcname, hend⟩ := h
  exact ⟨client, cname, cnameSize, hcall, by omega, hend⟩

/-- The call made for the item at `item`, if it is a CNAME. -/
def sdesItemCalls (packet : Bytes) (chunk item : ℕ) : List RtcpCall :=
  if packet.getD item 0 = rtcpSdesTypeCname then
    [.sdes (leWord packet chunk) (item + 2) (packet.getD (item + 1) 0)
      ((packet.drop (item + 2)).take (packet.getD (item + 1) 0).toNat)]
  else []

/-- One round of the item loop. -/
theorem sdesItems_eq {packet : Bytes} {chunk limit item : ℕ}
    {calls : List RtcpCall} (hlimit : limit ≤ packet.length)
    (hchunk : chunk + 4 ≤ packet.length) :
    sdesItems packet chunk limit item calls =
      if item + 3 < limit then
        if packet.getD item 0 = 0 then .ok (.ok, item, calls)
        else if limit < item + 2 + (packet.getD (item + 1) 0).toNat then
          .ok (.errorPacket, item, calls)
        else
          sdesItems packet chunk limit
            (item + (packet.getD (item + 1) 0).toNat + 2)
            (calls ++ sdesItemCalls packet chunk item)
      else .ok (.ok, item, calls) := by
  rw [sdesItems]
  by_cases hroom : item + 3 < limit
  · have hroom' : item + rtcpPktSdesItemSize < limit := hroom
    rw [dif_pos hroom', if_pos hroom,
      loadU8_eq (show item < packet.length by omega),
      loadU8_eq (show item + 1 < packet.length by omega)]
    simp only [ok_bind, pure_eq_ok, loadU32_eq hchunk, sdesItemCalls]
    by_cases hcname : packet.getD item 0 = rtcpSdesTypeCname
    · simp only [if_pos hcname]
    · simp only [if_neg hcname, List.append_nil]
  · exact (dif_neg hroom).trans (if_neg hroom).symm

/-- The item loop stays inside the packet, and so does each name. -/
theorem sdesItems_total (packet : Bytes) (chunk limit item : ℕ)
    (calls : List RtcpCall) (hlimit : limit ≤ packet.length)
    (hchunk : chunk + 4 ≤ packet.length) :
    ∃ status item' new,
      sdesItems packet chunk limit item calls =
          .ok (status, item', calls ++ new) ∧
        item ≤ item' ∧ ∀ call ∈ new, SdesWithin packet item limit call := by
  induction hrest : limit - item using Nat.strong_induction_on
    generalizing item calls with
  | _ rest ih =>
      rw [sdesItems_eq hlimit hchunk]
      set size := packet.getD (item + 1) 0 with hsize
      have hstop : calls = calls ++ [] := (List.append_nil calls).symm
      by_cases hroom : item + 3 < limit
      · rw [if_pos hroom]
        by_cases hnull : packet.getD item 0 = 0
        · rw [if_pos hnull]
          exact ⟨.ok, item, [], by rw [← hstop], le_rfl, by simp⟩
        · rw [if_neg hnull]
          by_cases hbad : limit < item + 2 + size.toNat
          · rw [if_pos hbad]
            exact ⟨.errorPacket, item, [], by rw [← hstop], le_rfl, by simp⟩
          · rw [if_neg hbad]
            obtain ⟨status, item', new, hrun, hle, hnew⟩ :=
              ih (limit - (item + size.toNat + 2)) (by omega)
                (item + size.toNat + 2)
                (calls ++ sdesItemCalls packet chunk item) rfl
            rw [hrun, List.append_assoc]
            refine ⟨status, item', _, rfl, by omega, ?_⟩
            intro call hcall
            rcases List.mem_append.mp hcall with hfirst | hlater
            · rw [sdesItemCalls] at hfirst
              split at hfirst
              · rw [List.mem_singleton] at hfirst
                exact ⟨_, _, _, hfirst, le_rfl, Nat.le_of_not_lt hbad⟩
              · cases hfirst
            · exact (hnew call hlater).mono (by omega)
      · rw [if_neg hroom]
        exact ⟨.ok, item, [], by rw [← hstop], le_rfl, by simp⟩

/-- The chunk loop stays inside the packet and leaves its last byte alone. -/
theorem sdesChunks_total (limit count chunk : ℕ) (rx : RtcpRx)
    (hlimit : limit ≤ rx.packet.length) :
    ∃ status packet' new,
      sdesChunks limit count chunk rx =
          .ok (status, { rx with
            packet := packet', calls := rx.calls ++ new }) ∧
        SameOutside rx.packet packet' chunk (limit - 1) ∧
        ∀ call ∈ new, ∃ packet,
          SameOutside rx.packet packet chunk (limit - 1) ∧
            SdesWithin packet (chunk + 4) limit call := by
  induction count generalizing chunk rx with
  | zero =>
      exact ⟨.ok, rx.packet, [], by simp [sdesChunks], .refl _ _ _, by simp⟩
  | succ count ih =>
      rw [sdesChunks]
      by_cases hroom : chunk + rtcpPktSdesChunkSize < limit
      · have hchunk : chunk + 8 < limit := hroom
        have hsame : SameOutside rx.packet (swapWord rx.packet chunk) chunk
            (limit - 1) :=
          (swapWord_sameOutside rx.packet chunk).mono le_rfl (by omega)
        obtain ⟨status, item, new, hitems, hle, hnew⟩ :=
          sdesItems_total (swapWord rx.packet chunk) chunk limit (chunk + 4)
            rx.calls (by rw [length_swapWord]; exact hlimit)
            (by rw [length_swapWord]; omega)
        rw [if_pos hroom, swapU32_eq (by omega)]
        simp only [ok_bind, hitems]
        by_cases hstatus : status = .ok
        · obtain ⟨status', packet', new', hrun, hsame', hnew'⟩ :=
            ih (chunk + (item - chunk) / 4 + 1)
              { rx with
                packet := swapWord rx.packet chunk
                calls := rx.calls ++ new }
              (by simpa only [length_swapWord] using hlimit)
          have hlater : ∀ {packet : Bytes}, SameOutside
              (swapWord rx.packet chunk) packet
              (chunk + (item - chunk) / 4 + 1) (limit - 1) →
              SameOutside rx.packet packet chunk (limit - 1) :=
            fun h => hsame.trans (h.mono (by omega) le_rfl)
          simp only [hstatus, ne_eq, not_true_eq_false, if_false, hrun]
          refine ⟨status', packet', new ++ new', by simp, hlater hsame', ?_⟩
          intro call hcall
          rcases List.mem_append.mp hcall with hfirst | hsecond
          · exact ⟨_, hsame, hnew call hfirst⟩
          · obtain ⟨packet, hpacket, hwithin⟩ := hnew' call hsecond
            exact ⟨packet, hlater hpacket, hwithin.mono (by omega)⟩
        · simp only [hstatus, ne_eq, not_false_eq_true, if_true, pure_eq_ok]
          exact ⟨status, _, new, rfl, hsame,
            fun call hcall => ⟨_, hsame, hnew call hcall⟩⟩
      · rw [if_neg hroom]
        exact ⟨.ok, rx.packet, [], by simp, .refl _ _ _, by simp⟩

theorem w6xRtcpProcessPacketSdes_eq {sender : Sender} {header : ℕ}
    {rx : RtcpRx} (hid : sender.id = rtpSenderId)
    (hfit : header + 4 ≤ rx.packet.length) :
    w6xRtcpProcessPacketSdes sender header rx =
      if sender.rtcpSdesCb = true then
        sdesChunks (header + 4 * ((leHalf rx.packet (header + 2)).toNat + 1))
          (rx.packet.getD header 0 &&& rtcpHeaderInfoCountMask).toNat
          (header + 4) rx
      else .ok (.ok, rx) := by
  have hbyte0 := loadU8_eq (show header < rx.packet.length by omega)
  have hsize := loadU16_eq (show header + 2 + 2 ≤ rx.packet.length by omega)
  simp only [w6xRtcpProcessPacketSdes, hid, ne_eq, not_true_eq_false, if_false,
    hbyte0, hsize, ok_bind, pure_eq_ok]
  cases sender.rtcpSdesCb with
  | false => rfl
  | true => rfl

/-! ## What one iteration does -/

/-- Position behind the packet at `header`, by its length field. -/
def rtcpNext (packet : Bytes) (header : ℕ) : ℕ :=
  header + 4 * ((beHalf packet (header + 2)).toNat + 1)

/-- The packet at `header` has the version of the protocol and ends inside the
datagram. -/
def RtcpValid (packet : Bytes) (header : ℕ) : Prop :=
  packet.getD header 0 &&& rtcpHeaderInfoVersionMask = rtcpHeaderInfoVersion ∧
    rtcpNext packet header ≤ packet.length

instance (packet : Bytes) (header : ℕ) : Decidable (RtcpValid packet header) :=
  inferInstanceAs (Decidable (_ ∧ _))

/-- The state in which the packet at `header` is handled: its length field is
in host order. -/
def rtcpFramed (header : ℕ) (rx : RtcpRx) : RtcpRx where
  packet := swapHalf rx.packet (header + 2)
  calls := rx.calls
  walked := rx.walked ++ [(header, rx.packet.getD (header + 1) 0)]

section Body

variable {sender : Sender} {mutexFree : Bool} {header : ℕ} {rx : RtcpRx}

theorem rtcpBody_eq (hfit : header + 4 ≤ rx.packet.length) :
    rtcpBody sender mutexFree rx.packet.length header rx =
      if RtcpValid rx.packet header then
        rtcpDispatch sender mutexFree header (rx.packet.getD (header + 1) 0)
            (rtcpFramed header rx) >>=
          fun (status, rx') => .ok (status, rtcpNext rx.packet header, rx')
      else
        .ok (.errorPacket, rtcpNext rx.packet header,
          { rx with packet := swapHalf rx.packet (header + 2) }) := by
  have hswap := swapU16_eq (show header + 2 + 2 ≤ rx.packet.length by omega)
  have hlen := length_swapHalf rx.packet (header + 2)
  have hwords := loadU16_eq
    (show header + 2 + 2 ≤ (swapHalf rx.packet (header + 2)).length by omega)
  have hbyte0 := loadU8_eq
    (show header < (swapHalf rx.packet (header + 2)).length by omega)
  have htype := loadU8_eq
    (show header + 1 < (swapHalf rx.packet (header + 2)).length by omega)
  have hframe := swapHalf_sameOutside rx.packet (header + 2)
  rw [leHalf_swapHalf (by omega)] at hwords
  rw [hframe.getD_eq header (Or.inl (by omega))] at hbyte0
  rw [hframe.getD_eq (header + 1) (Or.inl (by omega))] at htype
  simp only [rtcpBody, hswap, hwords, hbyte0, htype, ok_bind, pure_eq_ok]
  by_cases hvalid : RtcpValid rx.packet header
  · have hpass : ¬ (rx.packet.getD header 0 &&& rtcpHeaderInfoVersionMask ≠
        rtcpHeaderInfoVersion ∨
          rx.packet.length < rtcpNext rx.packet header) := by
      rw [not_or, not_ne_iff, not_lt]
      exact hvalid
    rw [if_pos hvalid]
    exact if_neg hpass
  · have hfail : rx.packet.getD header 0 &&& rtcpHeaderInfoVersionMask ≠
        rtcpHeaderInfoVersion ∨
          rx.packet.length < rtcpNext rx.packet header := by
      rw [← not_le, ne_eq, ← not_and_or]
      exact hvalid
    rw [if_neg hvalid]
    exact if_pos hfail

/-- Handling leaves the size of the packet field as it was framed. -/
theorem rtcpFramed_size (hfit : header + 4 ≤ rx.packet.length) :
    header + 4 * ((leHalf (rtcpFramed header rx).packet (header + 2)).toNat + 1)
      = rtcpNext rx.packet header := by
  rw [rtcpFramed, leHalf_swapHalf (by omega), rtcpNext]

end Body

/-! ## The walk through a datagram -/

/-- The first header passes the checks made before the loop. -/
def RtcpAccepted (sender : Sender) (packet : Bytes) : Prop :=
  sender.id = rtpSenderId ∧ 4 ≤ packet.length ∧
    packet.getD 0 0 &&& rtcpHeaderInfoPadMask = rtcpHeaderInfoPad ∧
    packet.getD 1 0 &&& rtcpHeaderTypeMask = rtcpHeaderTypeSr

instance (sender : Sender) (packet : Bytes) :
    Decidable (RtcpAccepted sender packet) :=
  inferInstanceAs (Decidable (_ ∧ _ ∧ _ ∧ _))

theorem rtcpCheck_of_accepted {sender : Sender} {packet : Bytes}
    (haccepted : RtcpAccepted sender packet) :
    rtcpCheck sender packet = .ok .ok := by
  obtain ⟨hid, hlen, hpad, htype⟩ := haccepted
  have hroom : ¬ packet.length < rtcpPktHeaderSize := Nat.not_lt.mpr hlen
  simp only [rtcpCheck, hid, ne_eq, not_true_eq_false, if_false, hroom,
    loadU8_eq (show 0 < packet.length by omega),
    loadU8_eq (show 1 < packet.length by omega), ok_bind, hpad, htype, or_self,
    pure_eq_ok]

theorem rtcpCheck_of_refused {sender : Sender} {packet : Bytes}
    (hrefused : ¬ RtcpAccepted sender packet) :
    ∃ status, rtcpCheck sender packet = .ok status ∧ status ≠ .ok := by
  by_cases hid : sender.id = rtpSenderId
  · refine ⟨.errorPacket, ?_, by decide⟩
    by_cases hlen : packet.length < rtcpPktHeaderSize
    · simp [rtcpCheck, hid, hlen]
    · have hroom : 4 ≤ packet.length := Nat.le_of_not_lt hlen
      have hbad : packet.getD 0 0 &&& rtcpHeaderInfoPadMask ≠
          rtcpHeaderInfoPad ∨
            packet.getD 1 0 &&& rtcpHeaderTypeMask ≠ rtcpHeaderTypeSr := by
        rw [ne_eq, ne_eq, ← not_and_or]
        intro hgood
        exact hrefused ⟨hid, hroom, hgood⟩
      simp only [rtcpCheck, hid, ne_eq, not_true_eq_false, if_false, hlen,
        loadU8_eq (show 0 < packet.length by omega),
        loadU8_eq (show 1 < packet.length by omega), ok_bind]
      exact if_pos hbad
  · exact ⟨.errorParameters, by simp [rtcpCheck, hid], by decide⟩

theorem w6xRtcpProcessPacket_of_accepted {sender : Sender}
    (mutexFree : ℕ → Bool) {packet : Bytes}
    (haccepted : RtcpAccepted sender packet) :
    w6xRtcpProcessPacket sender mutexFree packet =
      rtcpLoop sender mutexFree packet.length 0 (.start packet) := by
  rw [w6xRtcpProcessPacket, rtcpCheck_of_accepted haccepted]
  rfl

theorem w6xRtcpProcessPacket_of_refused {sender : Sender}
    (mutexFree : ℕ → Bool) {packet : Bytes}
    (hrefused : ¬ RtcpAccepted sender packet) :
    ∃ status, w6xRtcpProcessPacket sender mutexFree packet =
      .ok (status, .start packet) := by
  obtain ⟨status, hcheck, hstatus⟩ := rtcpCheck_of_refused hrefused
  refine ⟨status, ?_⟩
  rw [w6xRtcpProcessPacket, hcheck, ok_bind]
  exact if_pos hstatus

section Loop

variable {sender : Sender} {mutexFree : ℕ → Bool} {size header next : ℕ}
  {rx rx' : RtcpRx}

theorem rtcpLoop_of_fault {fault : Fault}
    (hbody : rtcpBody sender (mutexFree header) size header rx =
      .error fault) :
    rtcpLoop sender mutexFree size header rx = .error fault := by
  rw [rtcpLoop]
  split
  · next heq =>
      rw [hbody] at heq
      exact congrArg _ (Except.error.inj heq).symm
  · next heq =>
      rw [hbody] at heq
      cases heq

theorem rtcpLoop_of_ok {status : RtpStatus}
    (hbody : rtcpBody sender (mutexFree header) size header rx =
      .ok (status, next, rx')) :
    rtcpLoop sender mutexFree size header rx =
      if status = .ok ∧ next + rtcpPktHeaderSize ≤ size then
        rtcpLoop sender mutexFree size next rx'
      else .ok (status, rx') := by
  rw [rtcpLoop]
  split
  · next heq =>
      rw [hbody] at heq
      cases heq
  · next heq =>
      rw [hbody] at heq
      obtain ⟨rfl, rfl, rfl⟩ := Prod.mk.inj (Except.ok.inj heq) |>.imp id
        Prod.mk.inj
      split <;> rfl

end Loop

/-! ## The record of the walk -/

theorem rrLocked_walked {sender : Sender} {rr : ℕ} {rx rx' : RtcpRx}
    (h : rrLocked sender rr rx = .ok rx') : rx'.walked = rx.walked := by
  simp only [rrLocked, bind_eq_ok] at h
  obtain ⟨_, -, ssrc, -, h⟩ := h
  cases hfind : w6xRtpSenderSessionFind sender ssrc with
  | none =>
      rw [hfind] at h
      cases h
      rfl
  | some session =>
      simp only [hfind, bind_eq_ok] at h
      obtain ⟨_, -, _, -, _, -, _, -, _, -, _, -, _, -, _, -, _, -, _, -, _, -,
        _, -, h⟩ := h
      cases h
      rfl

theorem w6xRtcpProcessPacketRr_walked {sender : Sender} {mutexFree : Bool}
    {header : ℕ} {rx rx' : RtcpRx} {status : RtpStatus}
    (hid : sender.id = rtpSenderId) (hfit : header + 4 ≤ rx.packet.length)
    (h : w6xRtcpProcessPacketRr sender mutexFree header rx =
      .ok (status, rx')) : rx'.walked = rx.walked := by
  rw [w6xRtcpProcessPacketRr_eq hid hfit] at h
  split at h
  · split at h
    · obtain ⟨rx₁, hlocked, h⟩ := bind_eq_ok.mp h
      cases h
      exact rrLocked_walked hlocked
    · cases h
      rfl
  · cases h
    rfl

theorem sdesChunks_walked {limit count chunk : ℕ} {rx rx' : RtcpRx}
    {status : RtpStatus}
    (h : sdesChunks limit count chunk rx = .ok (status, rx')) :
    rx'.walked = rx.walked := by
  induction count generalizing chunk rx with
  | zero =>
      cases h
      rfl
  | succ count ih =>
      rw [sdesChunks] at h
      split at h
      · simp only [bind_eq_ok] at h
        obtain ⟨packet, -, ⟨status', item, calls⟩, -, h⟩ := h
        by_cases hstatus : status' = .ok
        · simp only [hstatus, ne_eq, not_true_eq_false, if_false] at h
          have hrest := ih h
          exact hrest
        · simp only [hstatus, ne_eq, not_false_eq_true, if_true,
            pure_eq_ok] at h
          cases h
          rfl
      · cases h
        rfl

theorem rtcpDispatch_walked {sender : Sender} {mutexFree : Bool} {header : ℕ}
    {type : UInt8} {rx rx' : RtcpRx} {status : RtpStatus}
    (hid : sender.id = rtpSenderId) (hfit : header + 4 ≤ rx.packet.length)
    (h : rtcpDispatch sender mutexFree header type rx = .ok (status, rx')) :
    rx'.walked = rx.walked := by
  rw [rtcpDispatch] at h
  split at h
  · exact w6xRtcpProcessPacketRr_walked hid hfit h
  · split at h
    · rw [w6xRtcpProcessPacketSdes_eq hid hfit] at h
      split at h
      · exact sdesChunks_walked h
      · cases h
        rfl
    · cases h
      rfl

/-! ## The record of the calls -/

theorem rrLocked_calls {sender : Sender} {rr : ℕ} {rx rx' : RtcpRx}
    (h : rrLocked sender rr rx = .ok rx') : rx.calls <+: rx'.calls := by
  simp only [rrLocked, bind_eq_ok] at h
  obtain ⟨_, -, ssrc, -, h⟩ := h
  cases hfind : w6xRtpSenderSessionFind sender ssrc with
  | none =>
      rw [hfind] at h
      cases h
      exact List.prefix_rfl
  | some session =>
      simp only [hfind, bind_eq_ok] at h
      obtain ⟨_, -, _, -, _, -, _, -, _, -, _, -, _, -, _, -, _, -, _, -, _, -,
        _, -, h⟩ := h
      cases h
      exact List.prefix_append _ _

theorem sdesItems_calls {packet : Bytes} {chunk limit item item' : ℕ}
    {calls calls' : List RtcpCall} {status : RtpStatus}
    (h : sdesItems packet chunk limit item calls = .ok (status, item', calls')) :
    calls <+: calls' := by
  induction hrest : limit - item using Nat.strong_induction_on
    generalizing item calls with
  | _ rest ih =>
      rw [sdesItems] at h
      split at h
      · next hroom =>
          simp only [rtcpPktSdesItemSize] at hroom
          obtain ⟨type, -, h⟩ := bind_eq_ok.mp h
          split at h
          · cases h
            exact List.prefix_rfl
          · obtain ⟨size, -, h⟩ := bind_eq_ok.mp h
            split at h
            · cases h
              exact List.prefix_rfl
            · dsimp only at h
              split at h
              · obtain ⟨client, -, h⟩ := bind_eq_ok.mp h
                rw [pure_bind] at h
                exact (List.prefix_append _ _).trans (ih _ (by omega) h rfl)
              · rw [pure_bind] at h
                exact ih _ (by omega) h rfl
      · cases h
        exact List.prefix_rfl

theorem sdesChunks_calls {limit count chunk : ℕ} {rx rx' : RtcpRx}
    {status : RtpStatus}
    (h : sdesChunks limit count chunk rx = .ok (status, rx')) :
    rx.calls <+: rx'.calls := by
  induction count generalizing chunk rx with
  | zero =>
      cases h
      exact List.prefix_rfl
  | succ count ih =>
      rw [sdesChunks] at h
      split at h
      · simp only [bind_eq_ok] at h
        obtain ⟨packet, -, ⟨status', item, calls⟩, hitems, h⟩ := h
        have hfirst := sdesItems_calls hitems
        by_cases hstatus : status' = .ok
        · simp only [hstatus, ne_eq, not_true_eq_false, if_false] at h
          exact hfirst.trans (ih h)
        · simp only [hstatus, ne_eq, not_false_eq_true, if_true,
            pure_eq_ok] at h
          cases h
          exact hfirst
      · cases h
        exact List.prefix_rfl

theorem rtcpDispatch_calls {sender : Sender} {mutexFree : Bool} {header : ℕ}
    {type : UInt8} {rx rx' : RtcpRx} {status : RtpStatus}
    (hid : sender.id = rtpSenderId) (hfit : header + 4 ≤ rx.packet.length)
    (h : rtcpDispatch sender mutexFree header type rx = .ok (status, rx')) :
    rx.calls <+: rx'.calls := by
  rw [rtcpDispatch] at h
  split at h
  · rw [w6xRtcpProcessPacketRr_eq hid hfit] at h
    split at h
    · split at h
      · obtain ⟨rx₁, hlocked, h⟩ := bind_eq_ok.mp h
        cases h
        exact rrLocked_calls hlocked
      · cases h
        exact List.prefix_rfl
    · cases h
      exact List.prefix_rfl
  · split at h
    · rw [w6xRtcpProcessPacketSdes_eq hid hfit] at h
      split at h
      · exact sdesChunks_calls h
      · cases h
        exact List.prefix_rfl
    · cases h
      exact List.prefix_rfl

/-- One iteration only adds to the calls and to the walk. -/
theorem rtcpBody_extends {sender : Sender} {mutexFree : Bool} {header next : ℕ}
    {rx rx' : RtcpRx} {status : RtpStatus} (hid : sender.id = rtpSenderId)
    (hfit : header + 4 ≤ rx.packet.length)
    (h : rtcpBody sender mutexFree rx.packet.length header rx =
      .ok (status, next, rx')) :
    rx.calls <+: rx'.calls ∧ rx.walked <+: rx'.walked := by
  rw [rtcpBody_eq hfit] at h
  split at h
  · obtain ⟨⟨status', rx₁⟩, hdispatch, h⟩ := bind_eq_ok.mp h
    cases h
    have hfit' : header + 4 ≤ (rtcpFramed header rx).packet.length := by
      rw [rtcpFramed, length_swapHalf]
      exact hfit
    have hcalls := rtcpDispatch_calls hid hfit' hdispatch
    refine ⟨hcalls, ?_⟩
    rw [rtcpDispatch_walked hid hfit' hdispatch]
    exact List.prefix_append _ _
  · cases h
    exact ⟨List.prefix_rfl, List.prefix_rfl⟩

end RtpMulticast
