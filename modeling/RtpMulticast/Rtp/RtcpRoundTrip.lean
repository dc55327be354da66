import RtpMulticast.Rtp.Sending
import RtpMulticast.Rtp.RtcpBounds

/-!
# Reports of this sender at another sender

The encoder writes the number of words of a packet into its length field, the
decoder takes the field for that number minus one.  So the walk through a
compound packet leaves the sender report four bytes late, and what it takes for
the second packet begins inside the source description.  No name of one byte or
more is ever recovered from it.
-/

namespace RtpMulticast

open ByteBuffer

/-- The receiver walks through a sender report and a source description and
its callback gets the source and the name of the sender, once. -/
def RtcpRoundTrip (sender : Sender) (session : Session) (receiver : Sender)
    (mutexFree : ℕ → Bool) (packet : Bytes) : Prop :=
  ∃ rx cname, w6xRtcpProcessPacket receiver mutexFree packet = .ok (.ok, rx) ∧
    rx.walked.map Prod.snd = [rtcpHeaderTypeSr, rtcpHeaderTypeSdes] ∧
    rx.calls = [.sdes session.ssrc cname sender.cnameSize sender.cname]

/-! ## The compound packet in memory -/

section Compound

variable (sender : Sender) (session : Session)

theorem length_rtcpCompound :
    (rtcpCompound sender session).length =
      28 + u32Align (11 + sender.cname.length) := by
  rw [rtcpCompound, List.length_append, length_rtcpSrBytes,
    length_rtcpSdesBytes]

theorem rtcpCompound_version : (rtcpCompound sender session).getD 0 0 =
    rtcpHeaderInfoVersion := rfl

theorem rtcpCompound_type : (rtcpCompound sender session).getD 1 0 =
    rtcpHeaderTypeSr := rfl

/-- The walk takes the sender report for eight words. -/
theorem rtcpCompound_next : rtcpNext (rtcpCompound sender session) 0 = 32 :=
  rfl

theorem rtcpCompound_valid : RtcpValid (rtcpCompound sender session) 0 := by
  refine ⟨by rw [rtcpCompound_version]; decide, ?_⟩
  have hle := le_u32Align (11 + sender.cname.length)
  rw [rtcpCompound_next, length_rtcpCompound]
  omega

/-- Behind the name stand zeros only. -/
theorem rtcpCompound_padding {j : ℕ} (hj : 38 + sender.cname.length ≤ j) :
    (rtcpCompound sender session).getD j 0 = 0 := by
  have hsr := length_rtcpSrBytes session
  have hnamed := length_rtcpSdesNamed sender session
  rw [rtcpCompound, getD_append_right _ _ (by omega), rtcpSdesBytes,
    getD_append_right _ _ (by omega)]
  simp only [List.getD_eq_getElem?_getD, List.getElem?_replicate]
  split <;> rfl

end Compound

/-! ## The walk -/

section Walk

variable {receiver : Sender} {mutexFree : ℕ → Bool} {packet : Bytes}
  {header : ℕ} {rx rx' : RtcpRx}

/-- What one iteration has done when it returned. -/
theorem rtcpBody_cases {status : RtpStatus} {next : ℕ}
    (hvisited : RtcpVisited receiver mutexFree packet header rx)
    (hbody : rtcpBody receiver (mutexFree header) packet.length header rx =
      .ok (status, next, rx')) :
    status = .errorPacket ∨
      rtcpNext rx.packet header ≤ packet.length ∧
        rtcpDispatch receiver (mutexFree header) header
            (rx.packet.getD (header + 1) 0) (rtcpFramed header rx) =
          .ok (status, rx') ∧
        rx'.walked =
          rx.walked ++ [(header, rx.packet.getD (header + 1) 0)] := by
  have hlen := hvisited.safe.length_eq
  have hfit := hvisited.fits
  rw [← hlen] at hfit hbody ⊢
  rw [rtcpBody_eq hfit] at hbody
  by_cases hvalid : RtcpValid rx.packet header
  · rw [if_pos hvalid] at hbody
    obtain ⟨⟨_, rx₁⟩, hdispatch, hbody⟩ := bind_eq_ok.mp hbody
    cases hbody
    have hwalked := rtcpDispatch_walked hvisited.accepted.1
      (by rw [length_rtcpFramed]; exact hfit) hdispatch
    exact Or.inr ⟨hvalid.2, hdispatch, hwalked⟩
  · rw [if_neg hvalid] at hbody
    cases hbody
    exact Or.inl rfl

/-- A walk that ends with `ok` has handled the packet it is at: it was the
last one, or the walk went on behind it. -/
theorem RtcpVisited.step_of_ok
    (hvisited : RtcpVisited receiver mutexFree packet header rx)
    (hrun : rtcpLoop receiver mutexFree packet.length header rx =
      .ok (.ok, rx')) :
    ∃ next rx₁,
      rtcpNext rx.packet header ≤ packet.length ∧
        rtcpDispatch receiver (mutexFree header) header
            (rx.packet.getD (header + 1) 0) (rtcpFramed header rx) =
          .ok (.ok, rx₁) ∧
        rx₁.walked =
          rx.walked ++ [(header, rx.packet.getD (header + 1) 0)] ∧
        (rx' = rx₁ ∨ header < next ∧
          RtcpVisited receiver mutexFree packet next rx₁ ∧
          rtcpLoop receiver mutexFree packet.length next rx₁ =
            .ok (.ok, rx')) := by
  cases hbody : rtcpBody receiver (mutexFree header) packet.length header
      rx with
  | error fault =>
      rw [rtcpLoop_of_fault hbody] at hrun
      cases hrun
  | ok result =>
      obtain ⟨status, next, rx₁⟩ := result
      have hprogress := rtcpBody_next hbody
      rw [rtcpLoop_of_ok hbody] at hrun
      rcases rtcpBody_cases hvisited hbody with rfl | ⟨hend, hdispatch, hwalked⟩
      · rw [if_neg (fun h => by cases h.1)] at hrun
        cases hrun
      · split at hrun
        · next hmore =>
            obtain ⟨rfl, hmore⟩ := hmore
            exact ⟨next, rx₁, hend, hdispatch, hwalked,
              Or.inr ⟨by omega, hvisited.next hbody hmore, hrun⟩⟩
        · cases hrun
          exact ⟨next, _, hend, hdispatch, hwalked, Or.inl rfl⟩

/-- The record of a walk that ends with `ok` goes on with the packet it is
at. -/
theorem RtcpVisited.walked_of_ok
    (hvisited : RtcpVisited receiver mutexFree packet header rx)
    (hrun : rtcpLoop receiver mutexFree packet.length header rx =
      .ok (.ok, rx')) :
    ∃ more, rx'.walked =
      rx.walked ++ (header, rx.packet.getD (header + 1) 0) :: more := by
  induction hrest : packet.length - header using Nat.strong_induction_on
    generalizing header rx with
  | _ rest ih =>
      have hfit := hvisited.fits
      obtain ⟨next, rx₁, -, -, hwalked, hlast⟩ := hvisited.step_of_ok hrun
      rcases hlast with rfl | ⟨hprogress, hnext, hrun'⟩
      · exact ⟨[], hwalked⟩
      · obtain ⟨more, htail⟩ :=
          ih (packet.length - next) (by omega) hnext hrun' rfl
        rw [htail, hwalked, List.append_assoc]
        exact ⟨_, rfl⟩

end Walk

section Compound

variable {sender : Sender} {session : Session} {receiver : Sender}
  (mutexFree : ℕ → Bool)

/-- The sender report is passed over, and the walk goes on inside the source
description. -/
theorem rtcpCompound_visited
    (haccepted : RtcpAccepted receiver (rtcpCompound sender session)) :
    RtcpVisited receiver mutexFree (rtcpCompound sender session) 32
      (rtcpFramed 0 (.start (rtcpCompound sender session))) := by
  set start := RtcpRx.start (rtcpCompound sender session) with hstart
  have hvalid : RtcpValid start.packet 0 := rtcpCompound_valid sender session
  have hbody : rtcpBody receiver (mutexFree 0) start.packet.length 0 start =
      .ok (.ok, 32, rtcpFramed 0 start) := by
    rw [rtcpBody_eq haccepted.2.1, if_pos hvalid,
      show start.packet.getD (0 + 1) 0 = rtcpHeaderTypeSr from
        rtcpCompound_type sender session,
      show rtcpNext start.packet 0 = 32 from rtcpCompound_next sender session]
    rfl
  refine .next (.first haccepted) hbody ?_
  have hle : 11 + sender.cname.length ≤ u32Align (11 + sender.cname.length) :=
    le_u32Align _
  rw [length_rtcpCompound]
  omega

/-- A walk of two packets of the right types ends in the handler for source
descriptions, started four bytes late. -/
theorem rtcpCompound_second {rx : RtcpRx}
    (haccepted : RtcpAccepted receiver (rtcpCompound sender session))
    (hrun : w6xRtcpProcessPacket receiver mutexFree
      (rtcpCompound sender session) = .ok (.ok, rx))
    (hwalked : rx.walked.map Prod.snd =
      [rtcpHeaderTypeSr, rtcpHeaderTypeSdes]) :
    ∃ rx₁ : RtcpRx, rx₁.calls = [] ∧
      SameOutside (rtcpCompound sender session) rx₁.packet 2 36 ∧
      32 + 4 * ((leHalf rx₁.packet 34).toNat + 1) ≤
        (rtcpCompound sender session).length ∧
      w6xRtcpProcessPacketSdes receiver 32 rx₁ = .ok (.ok, rx) := by
  have hvisited := rtcpCompound_visited mutexFree haccepted
  rw [hvisited.loop_eq] at hrun
  obtain ⟨more, hrecord⟩ := hvisited.walked_of_ok hrun
  obtain ⟨next, rx₁, hend, hdispatch, hfirst, hlast⟩ := hvisited.step_of_ok hrun
  set start := rtcpFramed 0 (.start (rtcpCompound sender session)) with hstart
  have hstarted : start.walked = [(0, rtcpHeaderTypeSr)] := rfl
  have hlen : start.packet.length = (rtcpCompound sender session).length :=
    hvisited.safe.length_eq
  -- The types fix the second packet and rule a third one out.
  have htypes : start.packet.getD (32 + 1) 0 = rtcpHeaderTypeSdes ∧
      more = [] := by
    rw [hrecord, hstarted] at hwalked
    simpa using hwalked
  have hrx : rx = rx₁ := by
    rcases hlast with heq | ⟨-, hnext, hrun'⟩
    · exact heq
    · obtain ⟨more', htail⟩ := hnext.walked_of_ok hrun'
      rw [htail, hfirst, hstarted] at hwalked
      simp at hwalked
  have hsame : SameOutside (rtcpCompound sender session)
      (rtcpFramed 32 start).packet 2 36 :=
    ((rtcpFramed_sameOutside 0 (.start _)).mono (by omega) (by omega)).trans
      ((rtcpFramed_sameOutside 32 start).mono (by omega) (by omega))
  rw [htypes.1, ← hrx] at hdispatch
  refine ⟨rtcpFramed 32 start, rfl, hsame, ?_, hdispatch⟩
  rw [← hlen] at hend ⊢
  have hsize := rtcpFramed_size
    (show 32 + 4 ≤ start.packet.length from hvisited.fits.trans_eq hlen.symm)
  rw [show (34 : ℕ) = 32 + 2 from rfl, hsize]
  exact hend

/-- The callback that the second step makes cannot get the name of the
sender: a name of its length would end in the padding. -/
theorem not_rtcpRoundTrip (hpos : 0 < sender.cname.length)
    (hnul : 0 ∉ sender.cname) :
    ¬ RtcpRoundTrip sender session receiver mutexFree
      (rtcpCompound sender session) := by
  rintro ⟨rx, cname, hrun, hwalked, hcalls⟩
  have hlen := length_rtcpCompound sender session
  have hupper : u32Align (11 + sender.cname.length) ≤
      14 + sender.cname.length := by
    unfold u32Align
    omega
  by_cases haccepted : RtcpAccepted receiver (rtcpCompound sender session)
  · obtain ⟨rx₁, hnone, hsame, hend, hsdes⟩ :=
      rtcpCompound_second mutexFree haccepted hrun hwalked
    rw [w6xRtcpProcessPacketSdes_eq haccepted.1
      (by rw [hsame.length_eq]; omega)] at hsdes
    split at hsdes
    · obtain ⟨status, packet', new, hchunks, -, hnew⟩ := sdesChunks_total _
        (rx₁.packet.getD 32 0 &&& rtcpHeaderInfoCountMask).toNat (32 + 4) rx₁
        (hend.trans_eq hsame.length_eq.symm)
      rw [hchunks] at hsdes
      cases hsdes
      simp only [hnone, List.nil_append] at hcalls
      obtain ⟨packet, hpacket, hwithin⟩ :=
        hnew _ (hcalls ▸ List.mem_singleton_self _)
      obtain ⟨client, pos, size, hcall, hlow, hhigh⟩ := hwithin
      injection hcall with _ hpos' hsize hname
      subst hpos' hsize
      rw [sender.toNat_cnameSize] at hname hhigh
      have hzero : packet.getD (41 + sender.cname.length) 0 = 0 := by
        rw [hpacket.getD_eq _ (Or.inr (by omega)),
          hsame.getD_eq _ (Or.inr (by omega))]
        exact rtcpCompound_padding sender session (by omega)
      have hlast : sender.cname[sender.cname.length - 1]? =
          packet[41 + sender.cname.length]? := by
        refine (congrArg (·[sender.cname.length - 1]?) hname).trans ?_
        simp only [List.getElem?_drop, List.getElem?_take_of_lt
          (show sender.cname.length - 1 < sender.cname.length by omega)]
        congr 1
        omega
      have hend := List.getElem?_eq_getElem
        (show sender.cname.length - 1 < sender.cname.length by omega)
      rw [List.getD_eq_getElem?_getD, ← hlast, hend, Option.getD_some] at hzero
      exact hnul (hzero ▸ List.getElem_mem _)
    · cases hsdes
      rw [hnone] at hcalls
      cases hcalls
  · obtain ⟨status, hrefused⟩ :=
      w6xRtcpProcessPacket_of_refused mutexFree haccepted
    rw [hrun] at hrefused
    cases hrefused
    cases hcalls

end Compound

/-- No report that a sender with a name of one byte or more gives to its RTCP
socket makes the round trip. -/
theorem w6xRtcpSendPacket_not_roundTrip (platform : Platform)
    (sender receiver : Sender) (mutexFree : ℕ → Bool) (w : World)
    (hdue : RtcpDue w.session (platform.xTaskGetTickCount w.tickCalls))
    (hpos : 0 < sender.cname.length) (hnul : 0 ∉ sender.cname) :
    ∃ packet status w',
      w6xRtcpSendPacket platform sender w = .ok (status, w') ∧
        w'.sends = w.sends ++
          [⟨sender.rtcpSocket, packet, w.session.clientRtcp⟩] ∧
        ¬ RtcpRoundTrip sender w.session receiver mutexFree packet := by
  refine ⟨rtcpCompound sender w.session, ?_⟩
  rw [w6xRtcpSendPacket_of_due hdue]
  have hnot : ¬ RtcpRoundTrip sender w.session receiver mutexFree
      (rtcpCompound sender w.session) := not_rtcpRoundTrip mutexFree hpos hnul
  by_cases hstatus : platform.socketSendto w.sends.length < 0
  · rw [if_pos hstatus]
    exact ⟨_, _, rfl, rfl, hnot⟩
  · rw [if_neg hstatus]
    exact ⟨_, _, rfl, rfl, hnot⟩

/-- The first report of the stream. -/
theorem w6xRtcpSendPacket_stream_not_roundTrip :
    ∃ packet status w',
      w6xRtcpSendPacket platformOk streamSender (streamWorld streamSession) =
          .ok (status, w') ∧
        w'.sends = (streamWorld streamSession).sends ++
          [⟨streamSender.rtcpSocket, packet, streamSession.clientRtcp⟩] ∧
        ¬ RtcpRoundTrip streamSender streamSession streamSender
          (fun _ => true) packet :=
  w6xRtcpSendPacket_not_roundTrip platformOk streamSender streamSender
    (fun _ => true) (streamWorld streamSession) (by decide) (by decide)
    (by decide)

/-- The stream's first report, given back to the sender of the stream. -/
theorem rtcpCompound_stream_not_roundTrip :
    ¬ RtcpRoundTrip streamSender streamSession streamSender (fun _ => true)
      (rtcpCompound streamSender streamSession) :=
  not_rtcpRoundTrip (fun _ => true) (by decide) (by decide)

end RtpMulticast
