import Mathlib.Data.List.Nodup
import RtpMulticast.Support.Rfc3550
import RtpMulticast.Rtp.RtcpBounds

/-!
# Decoding receiver reports

The handler decodes the first report block exactly, with the sign of the
cumulative loss, and never looks at the blocks behind it.  So a report is
decoded completely exactly when none of those names a linked session.
-/

namespace RtpMulticast

open ByteBuffer Rfc3550

/-! ## What a report says -/

/-- The contents of a block as the callback should receive them. -/
def blockReport (reporter : UInt32) (block : ReportBlock) : RtcpRr where
  client := reporter
  fractionLoss := block.fractionLost.toUInt32
  packetLoss := Int32.ofInt block.cumulativeLost.toInt
  extendedMax := block.extendedMax
  jitter := block.jitter
  lastSr := block.lastSr
  delay := block.delay

/-- One call for each block on a linked session, in block order. -/
def blockCalls (sessions : List Session) (reporter : UInt32)
    (blocks : List ReportBlock) : List RtcpCall :=
  blocks.flatMap fun block =>
    (sessions.filter fun session => session.ssrc == block.source).map
      fun session => .rr session (blockReport reporter block)

theorem blockCalls_eq_nil_iff {sessions : List Session} (reporter : UInt32)
    {blocks : List ReportBlock} :
    blockCalls sessions reporter blocks = [] ↔
      ∀ block ∈ blocks, ∀ session ∈ sessions,
        session.ssrc ≠ block.source := by
  simp only [blockCalls, List.flatMap_eq_nil_iff, List.map_eq_nil_iff,
    List.filter_eq_nil_iff, beq_iff_eq]

/-- With distinct sources the first session found is the only one. -/
theorem filter_ssrc_eq {sessions : List Session}
    (hdistinct : (sessions.map Session.ssrc).Nodup) (ssrc : UInt32) :
    sessions.filter (fun session => session.ssrc == ssrc) =
      (sessions.find? fun session => session.ssrc == ssrc).toList := by
  induction sessions with
  | nil => rfl
  | cons session sessions ih =>
      rw [List.map_cons, List.nodup_cons] at hdistinct
      obtain ⟨hnot, hdistinct⟩ := hdistinct
      by_cases hssrc : session.ssrc = ssrc
      · have hrest : sessions.filter (fun session => session.ssrc == ssrc) =
            [] := by
          rw [List.filter_eq_nil_iff]
          intro other hother heq
          apply hnot
          rw [hssrc, ← beq_iff_eq.mp heq]
          exact List.mem_map_of_mem hother
        simp [hssrc, hrest]
      · simp [hssrc, ih hdistinct]

/-! ## Bits of the loss word -/

/-- Shifting eight bits out and back extends the sign of the lower 24. -/
theorem sshiftRight_shiftLeft_eight (x : BitVec 32) :
    (x <<< 8).sshiftRight 8 = (x.setWidth 24).signExtend 32 := by
  apply BitVec.eq_of_getLsbD_eq
  intro i hi
  simp only [BitVec.getLsbD_sshiftRight, BitVec.getLsbD_signExtend,
    BitVec.getLsbD_shiftLeft, BitVec.getLsbD_setWidth, BitVec.msb_eq_getLsbD_last]
  grind

/-- The word whose bytes are a fraction and a 24-bit number. -/
def lossWord (fraction : UInt8) (lost : BitVec 24) : UInt32 :=
  u32OfBytes (byteOf lost.toNat 0) (byteOf lost.toNat 1)
    (byteOf lost.toNat 2) fraction

theorem toNat_lossWord (fraction : UInt8) (lost : BitVec 24) :
    (lossWord fraction lost).toNat =
      lost.toNat + 16777216 * fraction.toNat := by
  have hlost := lost.isLt
  simp only [lossWord, toNat_u32OfBytes, toNat_byteOf]
  omega

theorem lossWord_fraction (fraction : UInt8) (lost : BitVec 24) :
    lossWord fraction lost >>> 24 = fraction.toUInt32 := by
  apply UInt32.toNat_inj.mp
  have hlost := lost.isLt
  have hfraction := fraction.toNat_lt
  rw [UInt32.toNat_shiftRight, toNat_lossWord, UInt8.toNat_toUInt32,
    Nat.shiftRight_eq_div_pow, show UInt32.toNat 24 % 32 = 24 from rfl]
  omega

theorem lossWord_lost (fraction : UInt8) (lost : BitVec 24) :
    ((lossWord fraction lost).toInt32 <<< 8) >>> 8 =
      Int32.ofInt lost.toInt := by
  have hlow : (lossWord fraction lost).toBitVec.setWidth 24 = lost := by
    apply BitVec.eq_of_toNat_eq
    have hlost := lost.isLt
    rw [BitVec.toNat_setWidth]
    change (lossWord fraction lost).toNat % _ = _
    rw [toNat_lossWord]
    omega
  apply Int32.toBitVec_inj.mp
  change ((lossWord fraction lost).toBitVec <<< 8).sshiftRight 8 =
    BitVec.ofInt 32 lost.toInt
  rw [sshiftRight_shiftLeft_eight, hlow]
  rfl

/-! ## A report in a datagram -/

/-- The receive task at a report that stands behind `pre`. -/
def reportRx (pre post : Bytes) (report : ReceiverReport)
    (calls : List RtcpCall) (walked : List (ℕ × UInt8)) : RtcpRx :=
  rtcpFramed pre.length ⟨pre ++ (report.encode ++ post), calls, walked⟩

section Report

variable (pre post : Bytes) (report : ReceiverReport) (calls : List RtcpCall)
  (walked : List (ℕ × UInt8))

theorem toNat_size_encode :
    (beHalf (report.encode ++ post) 2).toNat = report.words - 1 := by
  have hwords := report.words_le
  have hsize : beHalf (report.encode ++ post) 2 =
      UInt16.ofNat (report.words - 1) := u16OfBytes_byteOf _
  rw [hsize, UInt16.toNat_ofNat']
  omega

theorem length_reportRx :
    (reportRx pre post report calls walked).packet.length =
      pre.length + 4 * report.words + post.length := by
  rw [reportRx, length_rtcpFramed, List.length_append, List.length_append,
    report.length_encode]
  omega

theorem beWord_reportRx {k : ℕ} (hk : 4 ≤ k) :
    beWord (reportRx pre post report calls walked).packet (pre.length + k) =
      beWord (report.encode ++ post) k := by
  rw [reportRx, (rtcpFramed_sameOutside _ _).beWord_eq (Or.inr (by omega))]
  exact beWord_append_right pre _ k

/-- A report with a block gets past the checks of the handler. -/
theorem rrWanted_reportRx {sender : Sender} (hcb : sender.rtcpRrCb = true)
    (hpos : 0 < report.blocks.length) :
    RrWanted sender (reportRx pre post report calls walked).packet
      pre.length := by
  have hlen : (pre ++ (report.encode ++ post)).length =
      pre.length + 4 * report.words + post.length := by
    rw [← length_reportRx pre post report calls walked, reportRx,
      length_rtcpFramed]
  have hwords : 8 ≤ report.words := by
    simp only [ReceiverReport.words]
    omega
  have hcount : (pre ++ (report.encode ++ post)).getD pre.length 0 =
      0x80 ||| UInt8.ofNat report.blocks.length := by
    rw [getD_append_right _ _ le_rfl, Nat.sub_self]
    rfl
  rw [reportRx, rrWanted_rtcpFramed sender (by rw [hlen]; omega)]
  refine ⟨hcb, ?_, ?_⟩
  · intro hzero
    have hn := count_field report.blocks.length report.blocks_le
    rw [← hcount, show (0x1F : UInt8) = rtcpHeaderInfoCountMask from rfl, hzero,
      UInt8.toNat_zero] at hn
    omega
  · rw [beHalf_append_right, toNat_size_encode]
    omega

/-- The first block as the handler reads it. -/
theorem rrReport_reportRx {block : ReportBlock} {rest : List ReportBlock}
    (hblocks : report.blocks = block :: rest) :
    rrReport (reportRx pre post report calls walked).packet pre.length =
      blockReport report.reporter block := by
  have hbytes : report.encode ++ post =
      ([0x80 ||| UInt8.ofNat report.blocks.length, 201] ++
        beU16 (UInt16.ofNat (report.words - 1)) ++ beU32 report.reporter) ++
        (block.encode ++
          (rest.flatMap ReportBlock.encode ++ (report.extension ++ post))) := by
    simp only [ReceiverReport.encode, hblocks, List.flatMap_cons,
      List.append_assoc]
  -- The block begins behind the eight bytes of the header.
  have hblock (k : ℕ) := beWord_append_right
    ([0x80 ||| UInt8.ofNat report.blocks.length, 201] ++
      beU16 (UInt16.ofNat (report.words - 1)) ++ beU32 report.reporter)
    (block.encode ++
      (rest.flatMap ReportBlock.encode ++ (report.extension ++ post))) k
  rw [← hbytes] at hblock
  have hclient : beWord (report.encode ++ post) 4 = report.reporter := by
    rw [hbytes]
    exact u32OfBytes_byteOf report.reporter
  have hloss : beWord (report.encode ++ post) 12 =
      lossWord block.fractionLost block.cumulativeLost := hblock 4
  have hmax : beWord (report.encode ++ post) 16 = block.extendedMax :=
    (hblock 8).trans (u32OfBytes_byteOf block.extendedMax)
  have hjitter : beWord (report.encode ++ post) 20 = block.jitter :=
    (hblock 12).trans (u32OfBytes_byteOf block.jitter)
  have hlastSr : beWord (report.encode ++ post) 24 = block.lastSr :=
    (hblock 16).trans (u32OfBytes_byteOf block.lastSr)
  have hdelay : beWord (report.encode ++ post) 28 = block.delay :=
    (hblock 20).trans (u32OfBytes_byteOf block.delay)
  have hword {k : ℕ} (hk : 4 ≤ k) := beWord_reportRx pre post report calls
    walked hk
  simp only [rrReport, hword (show 4 ≤ 4 by omega),
    hword (show 4 ≤ 12 by omega), hword (show 4 ≤ 16 by omega),
    hword (show 4 ≤ 20 by omega), hword (show 4 ≤ 24 by omega),
    hword (show 4 ≤ 28 by omega), hclient, hloss, hmax, hjitter, hlastSr,
    hdelay, lossWord_fraction, lossWord_lost, blockReport]

/-- The session it looks for is the one of the first block. -/
theorem rrSession_reportRx (sender : Sender) {block : ReportBlock}
    {rest : List ReportBlock} (hblocks : report.blocks = block :: rest) :
    rrSession sender (reportRx pre post report calls walked).packet
        pre.length =
      sender.session.find? fun session => session.ssrc == block.source := by
  have hsource : beWord (report.encode ++ post) 8 = block.source := by
    simp only [ReceiverReport.encode, hblocks, List.flatMap_cons]
    exact u32OfBytes_byteOf block.source
  rw [rrSession, beWord_reportRx _ _ _ _ _ (by omega), hsource]
  rfl

end Report

/-! ## Complete decoding -/

/-- The handler returns `ok` and has made one call for each block on a linked
session, in block order. -/
def RrDecoded (sender : Sender) (report : ReceiverReport) (pre post : Bytes)
    (calls : List RtcpCall) (walked : List (ℕ × UInt8)) : Prop :=
  ∃ rx, w6xRtcpProcessPacketRr sender true pre.length
      (reportRx pre post report calls walked) = .ok (.ok, rx) ∧
    rx.calls = calls ++
      blockCalls sender.session report.reporter report.blocks

/-- The handler makes the calls of the first block. -/
theorem w6xRtcpProcessPacketRr_reportRx {sender : Sender}
    (hid : sender.id = rtpSenderId) (hcb : sender.rtcpRrCb = true)
    (hdistinct : (sender.session.map Session.ssrc).Nodup)
    (report : ReceiverReport) {block : ReportBlock} {rest : List ReportBlock}
    (hblocks : report.blocks = block :: rest) (pre post : Bytes)
    (calls : List RtcpCall) (walked : List (ℕ × UInt8)) :
    ∃ rx, w6xRtcpProcessPacketRr sender true pre.length
        (reportRx pre post report calls walked) = .ok (.ok, rx) ∧
      rx.calls = calls ++ blockCalls sender.session report.reporter [block] ∧
      SameOutside (reportRx pre post report calls walked).packet rx.packet
        (pre.length + 4) (pre.length + 32) := by
  have hlen := length_reportRx pre post report calls walked
  have hwords : 8 ≤ report.words := by
    simp only [ReceiverReport.words, hblocks, List.length_cons]
    omega
  have hwanted := rrWanted_reportRx pre post report calls walked hcb
    (by simp [hblocks])
  have hsession := rrSession_reportRx pre post report calls walked sender
    hblocks
  have hreport := rrReport_reportRx pre post report calls walked hblocks
  have hcalls : blockCalls sender.session report.reporter [block] =
      (sender.session.find? fun session =>
        session.ssrc == block.source).toList.map
          fun session => .rr session (blockReport report.reporter block) := by
    simp only [blockCalls, List.flatMap_cons, List.flatMap_nil, List.append_nil,
      filter_ssrc_eq hdistinct]
  rw [w6xRtcpProcessPacketRr_eq hid (by rw [hlen]; omega), if_pos hwanted,
    if_pos rfl, hcalls, ← hsession]
  cases hfound : rrSession sender (reportRx pre post report calls walked).packet
      pre.length with
  | none =>
      rw [rrLocked_of_none (by rw [hlen]; omega) hfound, ok_bind]
      refine ⟨_, rfl, by simp [reportRx, rtcpFramed], ?_⟩
      exact (swapWord_sameOutside _ _).mono (by omega) (by omega)
  | some session =>
      rw [rrLocked_of_some (by rw [hlen]; omega) hfound, ok_bind, hreport]
      refine ⟨_, rfl, rfl, ?_⟩
      exact rrSwapped_sameOutside
        (reportRx pre post report calls walked).packet pre.length

/-- A report with at least one block is decoded completely exactly when no
block behind the first names a linked session. -/
theorem w6xRtcpProcessPacketRr_decoded_iff {sender : Sender}
    (hid : sender.id = rtpSenderId) (hcb : sender.rtcpRrCb = true)
    (hdistinct : (sender.session.map Session.ssrc).Nodup)
    (report : ReceiverReport) (hpos : 0 < report.blocks.length)
    (pre post : Bytes) (calls : List RtcpCall) (walked : List (ℕ × UInt8)) :
    RrDecoded sender report pre post calls walked ↔
      ∀ block ∈ report.blocks.tail, ∀ session ∈ sender.session,
        session.ssrc ≠ block.source := by
  obtain ⟨block, rest, hblocks⟩ := List.exists_cons_of_length_pos hpos
  obtain ⟨rx, hrun, hcalls, -⟩ := w6xRtcpProcessPacketRr_reportRx hid hcb
    hdistinct report hblocks pre post calls walked
  have hsplit : blockCalls sender.session report.reporter report.blocks =
      blockCalls sender.session report.reporter [block] ++
        blockCalls sender.session report.reporter rest := by
    rw [hblocks]
    simp only [blockCalls, List.flatMap_cons, List.flatMap_nil, List.append_nil]
  rw [hblocks, List.tail_cons, ← blockCalls_eq_nil_iff report.reporter]
  constructor
  · rintro ⟨rx', hrun', hcalls'⟩
    rw [hrun] at hrun'
    cases hrun'
    rw [hcalls, hsplit, ← List.append_assoc] at hcalls'
    exact (List.self_eq_append_right.mp hcalls')
  · intro hrest
    refine ⟨rx, hrun, ?_⟩
    rw [hcalls, hsplit, hrest, List.append_nil]

/-- A receiver of two sources reports on another one first and on the session
of the stream, with three packets lost, behind it. -/
def twoBlockReport : ReceiverReport where
  reporter := 7
  blocks := [⟨1, 0, 0, 100, 0, 0, 0⟩, ⟨0x12345678, 12, 3, 200, 5, 6, 7⟩]
  extension := []
  blocks_le := by decide
  extension_aligned := by decide
  size_le := by decide

theorem w6xRtcpProcessPacketRr_twoBlockReport_iff :
    RrDecoded streamSender twoBlockReport [] [] [] [] ↔
      ∀ block ∈ twoBlockReport.blocks.tail, ∀ session ∈ streamSender.session,
        session.ssrc ≠ block.source :=
  w6xRtcpProcessPacketRr_decoded_iff rfl rfl (by decide) twoBlockReport
    (by decide) [] [] [] []

/-- The block on the session of the stream gets no call. -/
theorem w6xRtcpProcessPacketRr_misses_second_block :
    ¬ RrDecoded streamSender twoBlockReport [] [] [] [] := by
  obtain ⟨rx, hrun, hcalls, -⟩ := w6xRtcpProcessPacketRr_reportRx
    (show streamSender.id = rtpSenderId from rfl) rfl (by decide)
    twoBlockReport rfl [] [] [] []
  rintro ⟨rx', hrun', hcalls'⟩
  rw [hrun] at hrun'
  cases hrun'
  rw [hcalls] at hcalls'
  have hlength := congrArg List.length hcalls'
  revert hlength
  decide

end RtpMulticast
