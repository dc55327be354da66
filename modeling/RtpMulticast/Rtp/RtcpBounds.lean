import RtpMulticast.Rtp.Receiving

/-!
# Bounds of the RTCP receive path

The size check of the report handler counts the words of a report block but
not the word of the packet header, so a report of seven words passes it.  Its
last field is then swapped behind the packet.  That is the only access outside
the datagram: the walk is shown to end without a fault exactly when it meets no
such report at the end of the datagram.
-/

namespace RtpMulticast

open ByteBuffer

/-- The name of a source description lies inside the first `size` bytes. -/
def RtcpCall.Inside (size : ℕ) : RtcpCall → Prop
  | .rr _ _ => True
  | .sdes _ cname cnameSize _ => cname + cnameSize.toNat ≤ size

theorem SdesWithin.inside {packet : Bytes} {low limit size : ℕ}
    {call : RtcpCall} (h : SdesWithin packet low limit call)
    (hlimit : limit ≤ size) : call.Inside size := by
  obtain ⟨client, cname, cnameSize, rfl, -, hend⟩ := h
  exact hend.trans hlimit

/-- Handling ends without a fault, and each name that the callback received
lies inside the datagram. -/
def RtcpInBounds (sender : Sender) (mutexFree : ℕ → Bool) (packet : Bytes) :
    Prop :=
  ∃ status rx, w6xRtcpProcessPacket sender mutexFree packet = .ok (status, rx) ∧
    ∀ call ∈ rx.calls, call.Inside packet.length

/-- The headers that the walk arrives at, with the state at that moment. -/
inductive RtcpVisited (sender : Sender) (mutexFree : ℕ → Bool)
    (packet : Bytes) : ℕ → RtcpRx → Prop
  | first : RtcpAccepted sender packet →
      RtcpVisited sender mutexFree packet 0 (.start packet)
  | next {header next : ℕ} {rx rx' : RtcpRx} :
      RtcpVisited sender mutexFree packet header rx →
        rtcpBody sender (mutexFree header) packet.length header rx =
          .ok (.ok, next, rx') →
        next + 4 ≤ packet.length →
          RtcpVisited sender mutexFree packet next rx'

/-- At `header` stands a report of seven words on a linked session with less
than one word behind it, and the handler gets as far as its block. -/
structure RrOverrun (sender : Sender) (mutexFree : Bool) (packet : Bytes)
    (header : ℕ) : Prop where
  valid : RtcpValid packet header
  type : packet.getD (header + 1) 0 = rtcpHeaderTypeRr
  callback : sender.rtcpRrCb = true
  count : packet.getD header 0 &&& rtcpHeaderInfoCountMask ≠ 0
  words : (beHalf packet (header + 2)).toNat = 6
  free : mutexFree = true
  linked : (rrSession sender packet header).isSome = true
  short : packet.length < header + 32

/-! ## One packet -/

section Body

variable {sender : Sender} {mutexFree : Bool} {header : ℕ} {rx : RtcpRx}

/-- Framing changes the length field only. -/
theorem rtcpFramed_sameOutside (header : ℕ) (rx : RtcpRx) :
    SameOutside rx.packet (rtcpFramed header rx).packet (header + 2)
      (header + 4) :=
  swapHalf_sameOutside rx.packet (header + 2)

theorem length_rtcpFramed (header : ℕ) (rx : RtcpRx) :
    (rtcpFramed header rx).packet.length = rx.packet.length :=
  (rtcpFramed_sameOutside header rx).length_eq

theorem rrSession_rtcpFramed (sender : Sender) (header : ℕ) (rx : RtcpRx) :
    rrSession sender (rtcpFramed header rx).packet header =
      rrSession sender rx.packet header := by
  rw [rrSession, (rtcpFramed_sameOutside header rx).beWord_eq (by omega)]
  rfl

theorem rrWanted_rtcpFramed (sender : Sender)
    (hfit : header + 4 ≤ rx.packet.length) :
    RrWanted sender (rtcpFramed header rx).packet header ↔
      sender.rtcpRrCb = true ∧
        rx.packet.getD header 0 &&& rtcpHeaderInfoCountMask ≠ 0 ∧
        6 ≤ (beHalf rx.packet (header + 2)).toNat := by
  have hbyte0 := (rtcpFramed_sameOutside header rx).getD_eq header
    (Or.inl (by omega))
  have hsize : leHalf (rtcpFramed header rx).packet (header + 2) =
      beHalf rx.packet (header + 2) := leHalf_swapHalf (by omega)
  rw [RrWanted, RrSized, hbyte0, hsize]
  simp only [Nat.add_le_add_iff_right, show (7 : ℕ) = 6 + 1 from rfl]

/-- The critical section runs into a report that is too short. -/
theorem rtcpBody_of_overrun (hid : sender.id = rtpSenderId)
    (hfit : header + 4 ≤ rx.packet.length)
    (hover : RrOverrun sender mutexFree rx.packet header) :
    rtcpBody sender mutexFree rx.packet.length header rx =
      .error .outOfBounds := by
  obtain ⟨session, hsession⟩ := Option.isSome_iff_exists.mp hover.linked
  have hlen := length_rtcpFramed header rx
  have hend : header + 28 ≤ rx.packet.length := by
    have hnext := hover.valid.2
    rw [rtcpNext, hover.words] at hnext
    exact hnext
  have hwanted : RrWanted sender (rtcpFramed header rx).packet header := by
    rw [rrWanted_rtcpFramed sender hfit, hover.words]
    exact ⟨hover.callback, hover.count, le_rfl⟩
  have hfault : rrLocked sender (header + 4) (rtcpFramed header rx) =
      .error .outOfBounds := by
    rw [← rrSession_rtcpFramed] at hsession
    apply rrLocked_of_short _ _ hsession
    · rw [hlen]
      exact hend
    · rw [hlen]
      exact hover.short
  rw [rtcpBody_eq hfit, if_pos hover.valid, hover.type]
  rw [rtcpDispatch, if_pos rfl,
    w6xRtcpProcessPacketRr_eq hid (by rw [hlen]; exact hfit), if_pos hwanted,
    if_pos hover.free, hfault]
  rfl

/-- Size of the datagram and names received so far. -/
structure RxSafe (size : ℕ) (rx : RtcpRx) : Prop where
  length_eq : rx.packet.length = size
  inside : ∀ call ∈ rx.calls, call.Inside size

theorem rxSafe_rtcpFramed (header : ℕ) {size : ℕ} (h : RxSafe size rx) :
    RxSafe size (rtcpFramed header rx) :=
  ⟨(length_rtcpFramed header rx).trans h.length_eq, h.inside⟩

/-- A report that does not run over the end is handled inside the datagram. -/
theorem w6xRtcpProcessPacketRr_safe {size : ℕ} (hid : sender.id = rtpSenderId)
    (hfit : header + 4 ≤ size) (hvalid : RtcpValid rx.packet header)
    (htype : rx.packet.getD (header + 1) 0 = rtcpHeaderTypeRr)
    (hover : ¬ RrOverrun sender mutexFree rx.packet header)
    (hsafe : RxSafe size rx) :
    ∃ status rx',
      w6xRtcpProcessPacketRr sender mutexFree header (rtcpFramed header rx) =
          .ok (status, rx') ∧ RxSafe size rx' := by
  have hfit' : header + 4 ≤ rx.packet.length := by
    rw [hsafe.length_eq]
    exact hfit
  have hframed := rxSafe_rtcpFramed header hsafe
  rw [w6xRtcpProcessPacketRr_eq hid (by rw [hframed.length_eq]; exact hfit)]
  by_cases hwanted : RrWanted sender (rtcpFramed header rx).packet header
  · rw [if_pos hwanted]
    rw [rrWanted_rtcpFramed sender hfit'] at hwanted
    obtain ⟨hcb, hcount, hwords⟩ := hwanted
    have hnext : header + 4 * ((beHalf rx.packet (header + 2)).toNat + 1) ≤
        size := by
      rw [← hsafe.length_eq]
      exact hvalid.2
    by_cases hfree : mutexFree = true
    · rw [if_pos hfree]
      cases hsession : rrSession sender (rtcpFramed header rx).packet header with
      | none =>
          rw [rrLocked_of_none (by rw [hframed.length_eq]; omega) hsession,
            ok_bind]
          refine ⟨.ok, _, rfl, ?_, hframed.inside⟩
          rw [length_swapWord]
          exact hframed.length_eq
      | some session =>
          -- The block is complete, or the report is the one excluded.
          have hblock : header + 32 ≤ size := by
            by_contra hshort
            apply hover
            rw [rrSession_rtcpFramed] at hsession
            refine ⟨hvalid, htype, hcb, hcount, by omega, hfree, ?_, ?_⟩
            · rw [hsession]
              rfl
            · rw [hsafe.length_eq]
              omega
          rw [rrLocked_of_some (by rw [hframed.length_eq]; exact hblock)
            hsession, ok_bind]
          refine ⟨.ok, _, rfl, ?_, ?_⟩
          · have hsame :=
              rrSwapped_sameOutside (rtcpFramed header rx).packet header
            rw [hsame.length_eq]
            exact hframed.length_eq
          · intro call hcall
            rcases List.mem_append.mp hcall with hold | hnew
            · exact hframed.inside call hold
            · rw [List.mem_singleton.mp hnew]
              exact trivial
    · rw [if_neg hfree]
      exact ⟨.errorRtos, _, rfl, hframed⟩
  · rw [if_neg hwanted]
    exact ⟨.ok, _, rfl, hframed⟩

/-- A source description is handled inside the datagram. -/
theorem w6xRtcpProcessPacketSdes_safe {size : ℕ}
    (hid : sender.id = rtpSenderId) (hfit : header + 4 ≤ size)
    (hvalid : RtcpValid rx.packet header) (hsafe : RxSafe size rx) :
    ∃ status rx',
      w6xRtcpProcessPacketSdes sender header (rtcpFramed header rx) =
          .ok (status, rx') ∧ RxSafe size rx' := by
  have hframed := rxSafe_rtcpFramed header hsafe
  have hend : rtcpNext rx.packet header ≤ size := by
    rw [← hsafe.length_eq]
    exact hvalid.2
  rw [w6xRtcpProcessPacketSdes_eq hid (by rw [hframed.length_eq]; exact hfit),
    rtcpFramed_size (by rw [hsafe.length_eq]; exact hfit)]
  by_cases hcb : sender.rtcpSdesCb = true
  · obtain ⟨status, packet', new, hrun, hsame, hnew⟩ := sdesChunks_total
      (rtcpNext rx.packet header)
      ((rtcpFramed header rx).packet.getD header 0 &&&
        rtcpHeaderInfoCountMask).toNat
      (header + 4) (rtcpFramed header rx)
      (by rw [hframed.length_eq]; exact hend)
    rw [if_pos hcb, hrun]
    refine ⟨status, _, rfl, hsame.length_eq.trans hframed.length_eq, ?_⟩
    intro call hcall
    rcases List.mem_append.mp hcall with hold | hlater
    · exact hframed.inside call hold
    · obtain ⟨packet, -, hwithin⟩ := hnew call hlater
      exact hwithin.inside hend
  · rw [if_neg hcb]
    exact ⟨.ok, _, rfl, hframed⟩

/-- One packet that is no overrun is handled inside the datagram. -/
theorem rtcpBody_safe {size : ℕ} (hid : sender.id = rtpSenderId)
    (hfit : header + 4 ≤ size)
    (hover : ¬ RrOverrun sender mutexFree rx.packet header)
    (hsafe : RxSafe size rx) :
    ∃ status next rx',
      rtcpBody sender mutexFree size header rx = .ok (status, next, rx') ∧
        RxSafe size rx' := by
  have hlen := hsafe.length_eq
  rw [← hlen, rtcpBody_eq (by rw [hlen]; exact hfit), hlen]
  by_cases hvalid : RtcpValid rx.packet header
  · rw [if_pos hvalid, rtcpDispatch]
    by_cases hrr : rx.packet.getD (header + 1) 0 = rtcpHeaderTypeRr
    · obtain ⟨status, rx', hrun, hsafe'⟩ :=
        w6xRtcpProcessPacketRr_safe hid hfit hvalid hrr hover hsafe
      rw [if_pos hrr, hrun]
      exact ⟨status, _, rx', rfl, hsafe'⟩
    · rw [if_neg hrr]
      by_cases hsdes : rx.packet.getD (header + 1) 0 = rtcpHeaderTypeSdes
      · obtain ⟨status, rx', hrun, hsafe'⟩ :=
          w6xRtcpProcessPacketSdes_safe hid hfit hvalid hsafe
        rw [if_pos hsdes, hrun]
        exact ⟨status, _, rx', rfl, hsafe'⟩
      · rw [if_neg hsdes]
        exact ⟨.ok, _, _, rfl, rxSafe_rtcpFramed header hsafe⟩
  · rw [if_neg hvalid]
    refine ⟨.errorPacket, _, _, rfl, ?_, hsafe.inside⟩
    exact (length_swapHalf _ _).trans hlen

end Body

/-! ## The walk -/

section Walk

variable {sender : Sender} {mutexFree : ℕ → Bool} {packet : Bytes} {header : ℕ}
  {rx : RtcpRx}

theorem RtcpVisited.accepted
    (h : RtcpVisited sender mutexFree packet header rx) :
    RtcpAccepted sender packet := by
  induction h with
  | first haccepted => exact haccepted
  | next _ _ _ ih => exact ih

theorem RtcpVisited.fits
    (h : RtcpVisited sender mutexFree packet header rx) :
    header + 4 ≤ packet.length := by
  cases h with
  | first haccepted =>
      rw [Nat.zero_add]
      exact haccepted.2.1
  | next _ _ hfit => exact hfit

/-- Up to an arrival the walk has been inside the datagram. -/
theorem RtcpVisited.safe
    (h : RtcpVisited sender mutexFree packet header rx) :
    RxSafe packet.length rx := by
  induction h with
  | first _ => exact ⟨rfl, by simp [RtcpRx.start]⟩
  | @next header next rx rx' hprev hbody _ ih =>
      have hid := hprev.accepted.1
      have hover : ¬ RrOverrun sender (mutexFree header) rx.packet header := by
        intro hover
        have hfault := rtcpBody_of_overrun hid
          (by rw [ih.length_eq]; exact hprev.fits) hover
        rw [ih.length_eq, hbody] at hfault
        cases hfault
      obtain ⟨_, _, _, hrun, hsafe⟩ := rtcpBody_safe hid hprev.fits hover ih
      rw [hbody] at hrun
      cases hrun
      exact hsafe

/-- At each arrival the rest of the walk decides the outcome. -/
theorem RtcpVisited.loop_eq
    (h : RtcpVisited sender mutexFree packet header rx) :
    w6xRtcpProcessPacket sender mutexFree packet =
      rtcpLoop sender mutexFree packet.length header rx := by
  induction h with
  | first haccepted =>
      exact w6xRtcpProcessPacket_of_accepted mutexFree haccepted
  | next _ hbody hfit ih =>
      rw [ih, rtcpLoop_of_ok hbody, if_pos ⟨rfl, hfit⟩]

/-- From an arrival on, a walk that meets no overrun stays inside the
datagram. -/
theorem rtcpLoop_safe
    (hover : ∀ header rx, RtcpVisited sender mutexFree packet header rx →
      ¬ RrOverrun sender (mutexFree header) rx.packet header)
    (hvisited : RtcpVisited sender mutexFree packet header rx) :
    ∃ status rx', rtcpLoop sender mutexFree packet.length header rx =
        .ok (status, rx') ∧ RxSafe packet.length rx' := by
  induction hrest : packet.length - header using Nat.strong_induction_on
    generalizing header rx with
  | _ rest ih =>
      obtain ⟨status, next, rx', hbody, hsafe⟩ := rtcpBody_safe
        hvisited.accepted.1 hvisited.fits (hover header rx hvisited)
        hvisited.safe
      rw [rtcpLoop_of_ok hbody]
      by_cases hmore : status = .ok ∧ next + rtcpPktHeaderSize ≤ packet.length
      · rw [if_pos hmore]
        obtain ⟨rfl, hfit⟩ := hmore
        have hprogress := rtcpBody_next hbody
        have hhere := hvisited.fits
        exact ih (packet.length - next) (by omega)
          (hvisited.next hbody hfit) rfl
      · rw [if_neg hmore]
        exact ⟨status, rx', rfl, hsafe⟩

end Walk

/-- Handling a datagram stays inside it exactly when the walk arrives at no
report that runs over the end. -/
theorem w6xRtcpProcessPacket_inBounds_iff (sender : Sender)
    (mutexFree : ℕ → Bool) (packet : Bytes) :
    RtcpInBounds sender mutexFree packet ↔
      ∀ header rx, RtcpVisited sender mutexFree packet header rx →
        ¬ RrOverrun sender (mutexFree header) rx.packet header := by
  constructor
  · rintro ⟨status, rx', hrun, -⟩ header rx hvisited hover
    have hlen := hvisited.safe.length_eq
    have hfault := rtcpBody_of_overrun hvisited.accepted.1
      (by rw [hlen]; exact hvisited.fits) hover
    rw [hlen] at hfault
    rw [hvisited.loop_eq, rtcpLoop_of_fault hfault] at hrun
    cases hrun
  · intro hover
    by_cases haccepted : RtcpAccepted sender packet
    · obtain ⟨status, rx, hrun, hsafe⟩ :=
        rtcpLoop_safe hover (.first haccepted)
      refine ⟨status, rx, ?_, hsafe.inside⟩
      rw [w6xRtcpProcessPacket_of_accepted mutexFree haccepted]
      exact hrun
    · obtain ⟨status, hrun⟩ :=
        w6xRtcpProcessPacket_of_refused mutexFree haccepted
      exact ⟨status, _, hrun, by simp [RtcpRx.start]⟩

/-- A report of 28 bytes on the session of the stream. -/
def shortReport : Bytes :=
  [0x81, 201, 0, 6, 0, 0, 0, 1, 0x12, 0x34, 0x56, 0x78, 0, 0, 0, 0,
    0, 0, 0, 0, 0, 0, 0, 0, 0, 0, 0, 0]

/-- Its delay field lies behind the datagram. -/
theorem w6xRtcpProcessPacket_shortReport :
    ¬ RtcpInBounds streamSender (fun _ => true) shortReport := by
  have haccepted : RtcpAccepted streamSender shortReport := by decide
  have hover : RrOverrun streamSender true (RtcpRx.start shortReport).packet 0 :=
    ⟨by decide, by decide, by decide, by decide, by decide, by decide,
      by decide, by decide⟩
  have hfault : rtcpBody streamSender true shortReport.length 0
      (.start shortReport) = .error .outOfBounds :=
    rtcpBody_of_overrun rfl (by decide) hover
  have hloop : rtcpLoop streamSender (fun _ => true) shortReport.length 0
      (.start shortReport) = .error .outOfBounds := rtcpLoop_of_fault hfault
  rintro ⟨status, rx, hrun, -⟩
  rw [w6xRtcpProcessPacket_of_accepted _ haccepted, hloop] at hrun
  cases hrun

end RtpMulticast
