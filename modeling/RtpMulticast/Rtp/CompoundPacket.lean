import RtpMulticast.Rtp.ReceiverReport
import RtpMulticast.Rtp.SourceDescription

/-!
# Compound packets, one packet at a time

What one iteration of the receive loop does on a well-formed packet at the
front of the rest of a datagram: it makes the calls of the packet, leaves the
bytes behind it alone, and goes on there.
-/

namespace RtpMulticast

open ByteBuffer Rfc3550

/-- Session and report that a call hands over. -/
def RtcpCall.reported : RtcpCall → Option (Session × RtcpRr)
  | .rr session report => some (session, report)
  | .sdes _ _ _ _ => none

/-- The reports for which a packet should have a call; only the first block
of a report is looked at. -/
def packetReports (sender : Sender) : Packet → List (Session × RtcpRr)
  | .report r => (r.blocks.take 1).flatMap fun block =>
      (sender.session.filter fun session => session.ssrc == block.source).map
        fun session => (session, blockReport r.reporter block)
  | _ => []

/-- The names for which a packet should have a call. -/
def packetNames (sender : Sender) : Packet → List (UInt32 × Bytes)
  | .description d => if sender.rtcpSdesCb = true then d.cnames else []
  | _ => []

def PacketReadable : Packet → Prop
  | .description d => SdesReadable d
  | _ => True

/-- The walk has passed over `packets` and made their calls. -/
structure Handled (sender : Sender) (packets : List Packet) (rx : RtcpRx) :
    Prop where
  walked : rx.walked.map Prod.snd = packets.map Packet.type
  reports : rx.calls.filterMap RtcpCall.reported =
    packets.flatMap (packetReports sender)
  names : rx.calls.filterMap RtcpCall.named =
    packets.flatMap (packetNames sender)

/-- The handler for the packet at `header` tries to lock the sender. -/
def LockAttempt (sender : Sender) (header : ℕ) (rx : RtcpRx) : Prop :=
  RtcpValid rx.packet header ∧
    rx.packet.getD (header + 1) 0 = rtcpHeaderTypeRr ∧
    RrWanted sender (rtcpFramed header rx).packet header

instance (sender : Sender) (header : ℕ) (rx : RtcpRx) :
    Decidable (LockAttempt sender header rx) :=
  inferInstanceAs (Decidable (_ ∧ _ ∧ _))

/-! ## The header of a packet -/

section Header

variable (pre post : Bytes) (packet : Packet)

theorem packet_byte0 : (pre ++ (packet.encode ++ post)).getD pre.length 0 =
    0x80 ||| UInt8.ofNat packet.count := by
  rw [getD_append_right _ _ le_rfl, Nat.sub_self]
  rfl

theorem packet_type : (pre ++ (packet.encode ++ post)).getD (pre.length + 1) 0 =
    packet.type := by
  rw [getD_append_right _ _ (by omega), Nat.add_sub_cancel_left]
  rfl

theorem packet_next : rtcpNext (pre ++ (packet.encode ++ post)) pre.length =
    pre.length + packet.encode.length := by
  have hpos := packet.words_pos
  have hle := packet.words_le
  have hhalf : beHalf (packet.encode ++ post) 2 =
      UInt16.ofNat (packet.words - 1) := u16OfBytes_byteOf _
  rw [rtcpNext, beHalf_append_right, hhalf, packet.length_encode,
    UInt16.toNat_ofNat']
  omega

theorem packet_valid : RtcpValid (pre ++ (packet.encode ++ post)) pre.length := by
  constructor
  · rw [packet_byte0]
    exact (version_field packet.count packet.count_le).1
  · rw [packet_next, List.length_append, List.length_append]
    omega

theorem packet_fits :
    pre.length + 4 ≤ (pre ++ (packet.encode ++ post)).length := by
  have hpos := packet.words_pos
  have hlen := packet.length_encode
  rw [List.length_append, List.length_append]
  omega

end Header

/-! ## What the handlers leave alone -/

/-- An iteration that returned `ok` from a handler that kept to the bytes of
the packet. -/
theorem rtcpBody_of_dispatch {sender : Sender} {mutexFree : Bool}
    (hid : sender.id = rtpSenderId) (pre post : Bytes) (packet : Packet)
    (calls : List RtcpCall) (walked : List (ℕ × UInt8)) {rx : RtcpRx}
    (hdispatch : rtcpDispatch sender mutexFree pre.length packet.type
      (rtcpFramed pre.length ⟨pre ++ (packet.encode ++ post), calls, walked⟩) =
        .ok (.ok, rx))
    (hsame : SameOutside
      (rtcpFramed pre.length
        ⟨pre ++ (packet.encode ++ post), calls, walked⟩).packet
      rx.packet (pre.length + 4) (pre.length + packet.encode.length)) :
    rtcpBody sender mutexFree (pre ++ (packet.encode ++ post)).length pre.length
        ⟨pre ++ (packet.encode ++ post), calls, walked⟩ =
        .ok (.ok, pre.length + packet.encode.length, rx) ∧
      rx.packet.length = (pre ++ (packet.encode ++ post)).length ∧
      rx.packet.drop (pre.length + packet.encode.length) = post ∧
      rx.walked = walked ++ [(pre.length, packet.type)] := by
  have hfit := packet_fits pre post packet
  have hframe : SameOutside (pre ++ (packet.encode ++ post)) rx.packet
      pre.length (pre.length + packet.encode.length) := by
    have hlen := packet.length_encode
    have hpos := packet.words_pos
    exact ((rtcpFramed_sameOutside pre.length ⟨_, calls, walked⟩).mono
      (by omega) (by omega)).trans (hsame.mono (by omega) le_rfl)
  have hwalked := rtcpDispatch_walked hid
    (by rw [length_rtcpFramed]; exact hfit) hdispatch
  refine ⟨?_, hframe.length_eq, ?_, ?_⟩
  · let rx₀ : RtcpRx := ⟨pre ++ (packet.encode ++ post), calls, walked⟩
    change rtcpBody sender mutexFree rx₀.packet.length pre.length rx₀ = _
    rw [rtcpBody_eq hfit, if_pos (packet_valid pre post packet), packet_type,
      hdispatch, ok_bind, packet_next]
  · rw [hframe.drop_eq le_rfl, ← List.append_assoc, ← List.length_append,
      List.drop_left]
  · rw [hwalked, rtcpFramed, packet_type]

/-! ## What the handlers do with a packet -/

section Handlers

variable {sender : Sender} (pre post : Bytes) (calls : List RtcpCall)
  (walked : List (ℕ × UInt8))

/-- The handler looks at reports with a block only. -/
theorem blocks_ne_nil_of_rrWanted {r : ReceiverReport}
    (hwanted : RrWanted sender (reportRx pre post r calls walked).packet pre.length) :
    r.blocks ≠ [] := by
  intro hblocks
  have hcount : (pre ++ (r.encode ++ post)).getD pre.length 0 &&&
      rtcpHeaderInfoCountMask = 0 := by
    rw [← Packet.encode_report, packet_byte0, Packet.count, hblocks]
    rfl
  have hfit := packet_fits pre post (.report r)
  rw [Packet.encode_report] at hfit
  rw [reportRx, rrWanted_rtcpFramed sender hfit] at hwanted
  exact hwanted.2.1 hcount

/-- Only reports with a block make the handler try the lock. -/
theorem report_of_lockAttempt {packet : Packet}
    (hattempt : LockAttempt sender pre.length
      ⟨pre ++ (packet.encode ++ post), calls, walked⟩) :
    ∃ r, packet = .report r ∧ r.blocks ≠ [] := by
  obtain ⟨-, htype, hwanted⟩ := hattempt
  dsimp only at htype
  rw [packet_type] at htype
  cases packet with
  | report r => exact ⟨r, rfl, blocks_ne_nil_of_rrWanted pre post calls walked hwanted⟩
  | description d =>
      have htype' : (Packet.description d).type = 202 := rfl
      rw [htype'] at htype
      exact absurd htype (by decide)
  | other o => exact absurd htype o.type_ne_report

/-- A receiver report whose lock attempt does not fail. -/
theorem rtcpDispatch_report (hid : sender.id = rtpSenderId)
    (hrr : sender.rtcpRrCb = true)
    (hdistinct : (sender.session.map Session.ssrc).Nodup) (r : ReceiverReport)
    (mutexFree : Bool) (hfree : r.blocks ≠ [] → mutexFree = true) :
    ∃ rx new, rtcpDispatch sender mutexFree pre.length rtcpHeaderTypeRr
        (reportRx pre post r calls walked) = .ok (.ok, rx) ∧
      SameOutside (reportRx pre post r calls walked).packet rx.packet
        (pre.length + 4) (pre.length + r.encode.length) ∧
      rx.calls = calls ++ new ∧ new.filterMap RtcpCall.named = [] ∧
      new.filterMap RtcpCall.reported = packetReports sender (.report r) := by
  rw [rtcpDispatch, if_pos rfl]
  cases hblocks : r.blocks with
  | nil =>
      have hnot : ¬ RrWanted sender (reportRx pre post r calls walked).packet
          pre.length := fun hwanted =>
        blocks_ne_nil_of_rrWanted pre post calls walked hwanted hblocks
      have hlen := length_reportRx pre post r calls walked
      have hpos := (Packet.report r).words_pos
      rw [w6xRtcpProcessPacketRr_eq hid (by
        rw [hlen]
        simp only [Packet.words] at hpos
        omega), if_neg hnot]
      refine ⟨_, [], rfl, .refl _ _ _, (List.append_nil _).symm, rfl, ?_⟩
      rw [packetReports, hblocks]
      rfl
  | cons block rest =>
      rw [hfree (by rw [hblocks]; exact List.cons_ne_nil _ _)]
      obtain ⟨rx, hrun, hcalls, hsame⟩ := w6xRtcpProcessPacketRr_reportRx hid
        hrr hdistinct r hblocks pre post calls walked
      have hwords : 8 ≤ r.words := by
        simp only [ReceiverReport.words, hblocks, List.length_cons]
        omega
      refine ⟨rx, _, hrun, hsame.mono le_rfl ?_, hcalls, ?_, ?_⟩
      · rw [r.length_encode]
        omega
      · simp [blockCalls, List.filterMap_eq_nil_iff, RtcpCall.named]
      · simp [blockCalls, packetReports, hblocks, RtcpCall.reported,
          List.filterMap_map]
        rw [← List.filterMap_eq_map]
        rfl

/-- A source description that loses no name. -/
theorem rtcpDispatch_description (hid : sender.id = rtpSenderId)
    (d : SourceDescription) (hreadable : SdesReadable d) (mutexFree : Bool) :
    ∃ rx new, rtcpDispatch sender mutexFree pre.length rtcpHeaderTypeSdes
        (sdesRx pre post d calls walked) = .ok (.ok, rx) ∧
      SameOutside (sdesRx pre post d calls walked).packet rx.packet
        (pre.length + 4) (pre.length + d.encode.length) ∧
      rx.calls = calls ++ new ∧ new.filterMap RtcpCall.reported = [] ∧
      new.filterMap RtcpCall.named = packetNames sender (.description d) := by
  have hlen := length_sdesRx pre post d calls walked
  have hpos := (Packet.description d).words_pos
  rw [rtcpDispatch, if_neg (by decide), if_pos rfl]
  by_cases hcb : sender.rtcpSdesCb = true
  · obtain ⟨rx, new, hrun, hcalls, hnew⟩ := (sdesDecoded_iff_of_le_one hid hcb
      hreadable.single pre post calls walked).mpr hreadable.readable
    obtain ⟨status, packet', new', hrun', hsame, hwithin⟩ := sdesChunks_total
      (pre.length + 4 * d.words) d.chunks.length (pre.length + 4)
      (sdesRx pre post d calls walked) (by rw [hlen]; omega)
    have hchunks := w6xRtcpProcessPacketSdes_sdesRx pre post d calls walked hid
      hcb
    rw [hchunks, hrun'] at hrun
    cases hrun
    have hnew' : new' = new := List.append_cancel_left hcalls
    rw [hchunks, hrun']
    refine ⟨_, new, rfl, hsame.mono le_rfl ?_, hcalls, ?_, ?_⟩
    · rw [d.length_encode]
      omega
    · rw [List.filterMap_eq_nil_iff]
      intro call hcall
      obtain ⟨_, -, _, _, _, rfl, -, -⟩ := hwithin call (hnew' ▸ hcall)
      rfl
    · have hnames := congrArg (List.filterMap id) hnew
      rw [List.filterMap_map, List.filterMap_map] at hnames
      rw [packetNames, if_pos hcb]
      exact hnames.trans List.filterMap_some
  · rw [w6xRtcpProcessPacketSdes_eq hid (by
      rw [hlen]
      simp only [Packet.words] at hpos
      omega), if_neg hcb]
    refine ⟨_, [], rfl, .refl _ _ _, (List.append_nil _).symm, rfl, ?_⟩
    rw [packetNames, if_neg hcb]
    rfl

end Handlers

/-! ## One iteration -/

/-- One iteration on a packet at the front of the rest of a datagram. -/
theorem rtcpBody_packet {sender : Sender} {mutexFree : Bool}
    (hid : sender.id = rtpSenderId) (hrr : sender.rtcpRrCb = true)
    (hdistinct : (sender.session.map Session.ssrc).Nodup)
    {packets : List Packet} {packet : Packet} (hreadable : PacketReadable packet)
    {header : ℕ} {rx : RtcpRx} {post : Bytes} (hle : header ≤ rx.packet.length)
    (hdrop : rx.packet.drop header = packet.encode ++ post)
    (hhandled : Handled sender packets rx)
    (hfree : LockAttempt sender header rx → mutexFree = true) :
    ∃ rx', rtcpBody sender mutexFree rx.packet.length header rx =
        .ok (.ok, header + packet.encode.length, rx') ∧
      rx'.packet.length = rx.packet.length ∧
      rx'.packet.drop (header + packet.encode.length) = post ∧
      Handled sender (packets ++ [packet]) rx' := by
  obtain ⟨buf, calls, walked⟩ := rx
  obtain ⟨pre, rfl, rfl⟩ : ∃ pre : Bytes, buf = pre ++ (packet.encode ++ post) ∧
      header = pre.length := by
    refine ⟨buf.take header, ?_, (List.length_take_of_le hle).symm⟩
    rw [← hdrop]
    exact (List.take_append_drop header buf).symm
  -- What remains is the handler of the packet's type.
  have hfinish : ∀ (rx' : RtcpRx) (new : List RtcpCall),
      rtcpDispatch sender mutexFree pre.length packet.type
          (rtcpFramed pre.length
            ⟨pre ++ (packet.encode ++ post), calls, walked⟩) =
        .ok (.ok, rx') →
      SameOutside (rtcpFramed pre.length
          ⟨pre ++ (packet.encode ++ post), calls, walked⟩).packet
        rx'.packet (pre.length + 4) (pre.length + packet.encode.length) →
      rx'.calls = calls ++ new →
      new.filterMap RtcpCall.reported = packetReports sender packet →
      new.filterMap RtcpCall.named = packetNames sender packet →
      ∃ rx', rtcpBody sender mutexFree
            (pre ++ (packet.encode ++ post)).length pre.length
            ⟨pre ++ (packet.encode ++ post), calls, walked⟩ =
          .ok (.ok, pre.length + packet.encode.length, rx') ∧
        rx'.packet.length = (pre ++ (packet.encode ++ post)).length ∧
        rx'.packet.drop (pre.length + packet.encode.length) = post ∧
        Handled sender (packets ++ [packet]) rx' := by
    intro rx' new hdispatch hsame hcalls hreports hnames
    obtain ⟨hbody, hlen, hrest, hwalked⟩ := rtcpBody_of_dispatch hid pre post
      packet calls walked hdispatch hsame
    refine ⟨rx', hbody, hlen, hrest, ?_, ?_, ?_⟩
    · rw [hwalked, List.map_append, List.map_append, ← hhandled.walked]
      rfl
    · rw [hcalls, List.filterMap_append, hreports, List.flatMap_append,
        ← hhandled.reports, List.flatMap_singleton]
    · rw [hcalls, List.filterMap_append, hnames, List.flatMap_append,
        ← hhandled.names, List.flatMap_singleton]
  cases packet with
  | report r =>
      obtain ⟨rx', new, hdispatch, hsame, hcalls, hnames, hreports⟩ :=
        rtcpDispatch_report pre post calls walked hid hrr hdistinct r
          mutexFree (by
            intro hne
            apply hfree
            refine ⟨packet_valid pre post _, packet_type pre post _, ?_⟩
            exact rrWanted_reportRx pre post r calls walked hrr
              (List.length_pos_iff.mpr hne))
      exact hfinish rx' new hdispatch hsame hcalls hreports hnames
  | description d =>
      obtain ⟨rx', new, hdispatch, hsame, hcalls, hreports, hnames⟩ :=
        rtcpDispatch_description pre post calls walked hid d hreadable mutexFree
      exact hfinish rx' new hdispatch hsame hcalls hreports hnames
  | other o =>
      refine hfinish _ [] ?_ (.refl _ _ _) (List.append_nil _).symm rfl rfl
      have hreport : ¬ (Packet.other o).type = rtcpHeaderTypeRr :=
        o.type_ne_report
      have hdescription : ¬ (Packet.other o).type = rtcpHeaderTypeSdes :=
        o.type_ne_description
      rw [rtcpDispatch, if_neg hreport, if_neg hdescription]

end RtpMulticast
