import RtpMulticast.Rtp.PacketAccounting
import RtpMulticast.Rtp.H264Bounds

/-!
# Pacing of the reports

`_w6x_rtcp_send_packet` keeps the tick of the last report in
`rtcp_timestamp`; zero says that none was sent yet.  The calls of it in a run
of sends are listed in order, with everything between them known to leave the
timestamp and the RTCP socket alone.  Two reports that are sent one after the
other are `RTCP_INTERVAL` ticks apart, also across a wrap of the counter,
unless a report is sent while the counter reads zero: its tick is then taken
for the mark that there was none.
-/

namespace RtpMulticast

open ByteBuffer

/-! ## Runs of sends -/

/-- One send on a session. -/
inductive SendingCall where
  | packet (call : PacketCall)
  | h264 (frame : Option Bytes) (timestamp ntpMsw ntpLsw : UInt32)
      (marker : UInt8)
  deriving DecidableEq, Repr

def SendingCall.send (platform : Platform) (sender : Sender) (w : World) :
    SendingCall → Except Fault (RtpStatus × World)
  | .packet call =>
      w6xRtpSenderSessionSendPacket platform (some sender) call.data
        call.timestamp call.ntpMsw call.ntpLsw call.marker
        (w6xRtpSenderSessionSetSampleFactor call.sampleFactor w).2
  | .h264 frame timestamp ntpMsw ntpLsw marker =>
      w6xRtpSenderSessionSendH264 platform (some sender) frame timestamp
        ntpMsw ntpLsw marker w

/-- The sends one after the other, whatever they return. -/
def sessionRun (platform : Platform) (sender : Sender) :
    List SendingCall → World → Except Fault World
  | [], w => .ok w
  | call :: calls, w => do
      let (_, w) ← call.send platform sender w
      sessionRun platform sender calls w

/-! ## The calls for reports in a run -/

/-- A call of `_w6x_rtcp_send_packet` with the states around it. -/
structure ReportCall where
  before : World
  status : RtpStatus
  after : World

/-- The call has sent a report. -/
def ReportCall.Sent (call : ReportCall) : Prop :=
  call.status = .ok ∧ call.after.sends ≠ call.before.sends

/-- Nothing that concerns the reports happens between two states. -/
structure Quiet (sender : Sender) (w w' : World) : Prop where
  tickCalls : w'.tickCalls = w.tickCalls
  rtcpTimestamp : w'.session.rtcpTimestamp = w.session.rtcpTimestamp
  sends : ∃ new, w'.sends = w.sends ++ new ∧
    ∀ call ∈ new, call.socket ≠ sender.rtcpSocket

theorem Quiet.of_sends_eq {sender : Sender} {w w' : World}
    (hticks : w'.tickCalls = w.tickCalls)
    (htime : w'.session.rtcpTimestamp = w.session.rtcpTimestamp)
    (hsends : w'.sends = w.sends) : Quiet sender w w' := by
  refine ⟨hticks, htime, [], ?_, List.forall_mem_nil _⟩
  rw [hsends, List.append_nil]

theorem Quiet.refl (sender : Sender) (w : World) : Quiet sender w w :=
  .of_sends_eq rfl rfl rfl

theorem Quiet.trans {sender : Sender} {w w' w'' : World}
    (h : Quiet sender w w') (h' : Quiet sender w' w'') :
    Quiet sender w w'' := by
  obtain ⟨new, hsends, hnew⟩ := h.sends
  obtain ⟨new', hsends', hnew'⟩ := h'.sends
  refine ⟨h'.tickCalls.trans h.tickCalls,
    h'.rtcpTimestamp.trans h.rtcpTimestamp, new ++ new', ?_, ?_⟩
  · rw [hsends', hsends, List.append_assoc]
  · rw [List.forall_mem_append]
    exact ⟨hnew, hnew'⟩

/-- The calls for reports between two states, all of them and in order. -/
inductive ReportRun (platform : Platform) (sender : Sender) :
    World → List ReportCall → World → Prop
  | quiet {w w' : World} : Quiet sender w w' →
      ReportRun platform sender w [] w'
  | report {w before after w' : World} {status : RtpStatus}
      {calls : List ReportCall} : Quiet sender w before →
        w6xRtcpSendPacket platform sender before = .ok (status, after) →
          ReportRun platform sender after calls w' →
            ReportRun platform sender w (⟨before, status, after⟩ :: calls) w'

section Runs

variable {platform : Platform} {sender : Sender}

theorem ReportRun.of_quiet {w w' w'' : World} {calls : List ReportCall}
    (h : Quiet sender w w') (h' : ReportRun platform sender w' calls w'') :
    ReportRun platform sender w calls w'' := by
  cases h' with
  | quiet hquiet => exact .quiet (h.trans hquiet)
  | report hquiet hcall hrest => exact .report (h.trans hquiet) hcall hrest

theorem ReportRun.append {w w' w'' : World} {calls calls' : List ReportCall}
    (h : ReportRun platform sender w calls w')
    (h' : ReportRun platform sender w' calls' w'') :
    ReportRun platform sender w (calls ++ calls') w'' := by
  induction h with
  | quiet hquiet => exact .of_quiet hquiet h'
  | report hquiet hcall _ ih => exact .report hquiet hcall (ih h')

/-- What remains of a run behind its first calls. -/
theorem ReportRun.drop {w w' : World} {calls calls' : List ReportCall}
    (h : ReportRun platform sender w (calls ++ calls') w') :
    ∃ v, ReportRun platform sender v calls' w' := by
  induction calls generalizing w with
  | nil => exact ⟨w, h⟩
  | cons call calls ih =>
      cases h with
      | report _ _ hrest => exact ih hrest

/-- Outcomes of a call for a report: too early or refused by the socket, or
sent and its tick stored. -/
theorem w6xRtcpSendPacket_cases {w w' : World} {status : RtpStatus}
    (h : w6xRtcpSendPacket platform sender w = .ok (status, w')) :
    w'.tickCalls = w.tickCalls + 1 ∧
      ((¬ ReportCall.Sent ⟨w, status, w'⟩ ∧
          w'.session.rtcpTimestamp = w.session.rtcpTimestamp) ∨
        (ReportCall.Sent ⟨w, status, w'⟩ ∧
          RtcpDue w.session (platform.xTaskGetTickCount w.tickCalls) ∧
          w'.session.rtcpTimestamp =
            platform.xTaskGetTickCount w.tickCalls)) := by
  by_cases hdue : RtcpDue w.session (platform.xTaskGetTickCount w.tickCalls)
  · rw [w6xRtcpSendPacket_of_due hdue] at h
    by_cases hstatus : platform.socketSendto w.sends.length < 0
    · rw [if_pos hstatus] at h
      obtain ⟨rfl, rfl⟩ := Prod.mk.inj (Except.ok.inj h)
      refine ⟨rfl, Or.inl ⟨?_, rfl⟩⟩
      intro hsent
      cases hsent.1
    · rw [if_neg hstatus] at h
      obtain ⟨rfl, rfl⟩ := Prod.mk.inj (Except.ok.inj h)
      refine ⟨rfl, Or.inr ⟨⟨rfl, ?_⟩, hdue, rfl⟩⟩
      intro hsends
      exact List.cons_ne_nil _ _ (List.append_right_eq_self.mp hsends)
  · rw [w6xRtcpSendPacket_of_not_due hdue] at h
    obtain ⟨rfl, rfl⟩ := Prod.mk.inj (Except.ok.inj h)
    exact ⟨rfl, Or.inl ⟨fun hsent => hsent.2 rfl, rfl⟩⟩

/-! ## The sends make such runs -/

theorem quiet_setSampleFactor (sender : Sender) (factor : UInt32) (w : World) :
    Quiet sender w (w6xRtpSenderSessionSetSampleFactor factor w).2 := by
  rw [w6xRtpSenderSessionSetSampleFactor]
  split
  · exact .refl sender w
  · exact .of_sends_eq rfl rfl rfl

variable (hsockets : sender.rtpSocket ≠ sender.rtcpSocket)
include hsockets

/-- A chunk asks for one report. -/
theorem sendChunk_reportRun {ntpMsw ntpLsw : UInt32} {marker : UInt8}
    {timestamp : UInt32} {payload : Bytes} {last : Bool} {w w' : World}
    {status : RtpStatus}
    (h : sendChunk platform sender ntpMsw ntpLsw marker timestamp payload last
      w = .ok (status, w')) :
    ∃ call, ReportRun platform sender w [call] w' := by
  simp only [sendChunk, bind_eq_ok, socketSendto] at h
  obtain ⟨⟨reported, w₁⟩, hreport, h⟩ := h
  refine ⟨_, .report ?_ hreport (.quiet ?_)⟩
  · exact .of_sends_eq rfl rfl rfl
  · by_cases hstatus : platform.socketSendto w₁.sends.length < 0
    · simp only [hstatus, if_true, pure_eq_ok, Except.ok.injEq] at h
      obtain ⟨-, rfl⟩ := Prod.mk.inj h
      exact ⟨rfl, rfl, _, rfl, List.forall_mem_singleton.mpr hsockets⟩
    · simp only [hstatus, if_false, pure_eq_ok, Except.ok.injEq] at h
      obtain ⟨-, rfl⟩ := Prod.mk.inj h
      exact ⟨rfl, rfl, _, rfl, List.forall_mem_singleton.mpr hsockets⟩

theorem sendPacketLoop_reportRun {data : Bytes} {ntpMsw ntpLsw : UInt32}
    {marker : UInt8} {pos : SendPos} {w w' : World} {status : RtpStatus}
    (h : sendPacketLoop platform sender data ntpMsw ntpLsw marker pos w =
      .ok (status, w')) :
    ∃ calls, ReportRun platform sender w calls w' ∧
      (pos.head < data.length → calls ≠ []) := by
  induction hrest : data.length - pos.head using Nat.strong_induction_on
    generalizing pos w with
  | _ rest ih =>
      rw [sendPacketLoop] at h
      by_cases hmore : pos.head < data.length
      · rw [dif_pos hmore] at h
        split at h
        · cases h
        · next stepped pos' w₁ hstep =>
            have hpos := sender.payload_pos
            have hhead := sendIteration_head hstep
            simp only [sendIteration, bind_eq_ok, pure_eq_ok] at hstep
            obtain ⟨payload, -, ⟨chunk, w₂⟩, hchunk, hstep⟩ := hstep
            obtain ⟨rfl, -, rfl⟩ := by simpa using hstep
            obtain ⟨call, hcall⟩ := sendChunk_reportRun hsockets hchunk
            split at h
            · obtain ⟨-, rfl⟩ := Prod.mk.inj (Except.ok.inj h)
              refine ⟨[call], ?_, fun _ => List.cons_ne_nil _ _⟩
              exact hcall.append (.quiet (.of_sends_eq rfl rfl rfl))
            · obtain ⟨calls, hcalls, -⟩ :=
                ih (data.length - pos'.head) (by omega) h rfl
              exact ⟨[call] ++ calls, hcall.append hcalls,
                fun _ => List.cons_ne_nil _ _⟩
      · rw [dif_neg hmore] at h
        obtain ⟨-, rfl⟩ := Prod.mk.inj (Except.ok.inj h)
        exact ⟨[], .quiet (.of_sends_eq rfl rfl rfl),
          fun hhead => absurd hhead hmore⟩

/-- A call on a live session with data asks for a report. -/
theorem w6xRtpSenderSessionSendPacket_reportRun {data : Option Bytes}
    {timestamp ntpMsw ntpLsw : UInt32} {marker : UInt8} {w w' : World}
    {status : RtpStatus}
    (h : w6xRtpSenderSessionSendPacket platform (some sender) data timestamp
      ntpMsw ntpLsw marker w = .ok (status, w')) :
    ∃ calls, ReportRun platform sender w calls w' ∧
      (w.session.id = rtpSessionId → (∃ b rest, data = some (b :: rest)) →
        calls ≠ []) := by
  rcases data with _ | data
  · obtain ⟨-, rfl⟩ := Prod.mk.inj (Except.ok.inj h)
    exact ⟨[], .quiet (.refl sender w), by simp⟩
  · simp only [w6xRtpSenderSessionSendPacket] at h
    split at h
    · next hid =>
        obtain ⟨-, rfl⟩ := Prod.mk.inj (Except.ok.inj h)
        exact ⟨[], .quiet (.refl sender w), fun hlive => absurd hlive hid⟩
    · split at h
      · next hempty =>
          obtain ⟨-, rfl⟩ := Prod.mk.inj (Except.ok.inj h)
          refine ⟨[], .quiet (.refl sender w), ?_⟩
          rintro - ⟨b, rest, hdata⟩
          obtain rfl := Option.some.inj hdata
          exact absurd hempty (Nat.succ_ne_zero _)
      · next hempty =>
          obtain ⟨calls, hcalls, hne⟩ := sendPacketLoop_reportRun hsockets h
          refine ⟨calls, .of_quiet ?_ hcalls, ?_⟩
          · exact .of_sends_eq rfl rfl rfl
          · intro _ _
            exact hne (Nat.pos_of_ne_zero hempty)

theorem fuLoop_reportRun {call : H264Call}
    (hcall : call.platform = platform ∧ call.sender = sender) {plan : FuPlan}
    {fuIndicator marker : UInt8} {n : ℕ} {cur : FuCursor} {w w' : World}
    {status : RtpStatus}
    (h : fuLoop call plan fuIndicator marker n cur w = .ok (status, w')) :
    ∃ calls, ReportRun platform sender w calls w' := by
  obtain ⟨rfl, rfl⟩ := hcall
  induction n generalizing cur w with
  | zero =>
      obtain ⟨-, rfl⟩ := Prod.mk.inj (Except.ok.inj h)
      exact ⟨[], .quiet (.refl call.sender w)⟩
  | succ n ih =>
      rw [fuLoop, bind_eq_ok] at h
      obtain ⟨⟨cur', fuSize⟩, -, h⟩ := h
      by_cases hfits : rtpPayloadMaxSize < fuSize + rtpH264FuSize
      · simp only [if_pos hfits] at h
        cases h
      simp only [if_neg hfits, bind_eq_ok] at h
      obtain ⟨body, -, ⟨sent, w₁⟩, hpacket, h⟩ := h
      obtain ⟨calls, hcalls, -⟩ :=
        w6xRtpSenderSessionSendPacket_reportRun hsockets hpacket
      split at h
      · simp only [pure_eq_ok, Except.ok.injEq] at h
        obtain ⟨-, rfl⟩ := Prod.mk.inj h
        exact ⟨calls, hcalls⟩
      · obtain ⟨calls', hcalls'⟩ := ih h
        exact ⟨calls ++ calls', hcalls.append hcalls'⟩

theorem h264SendNal_reportRun {call : H264Call}
    (hcall : call.platform = platform ∧ call.sender = sender)
    {nalFrame nalSize : ℕ} {marker : UInt8} {w w' : World} {status : RtpStatus}
    (h : h264SendNal call nalFrame nalSize marker w = .ok (status, w')) :
    ∃ calls, ReportRun platform sender w calls w' := by
  simp only [h264SendNal, bind_eq_ok] at h
  obtain ⟨nalType, -, nal, -, h⟩ := h
  have hrecord : Quiet sender w { w with nalUnits := w.nalUnits ++ [nal] } :=
    .of_sends_eq rfl rfl rfl
  split at h
  · obtain ⟨rfl, rfl⟩ := hcall
    obtain ⟨calls, hcalls, -⟩ :=
      w6xRtpSenderSessionSendPacket_reportRun hsockets h
    exact ⟨calls, hcalls.of_quiet hrecord⟩
  · obtain ⟨plan, -, h⟩ := bind_eq_ok.mp h
    obtain ⟨calls, hcalls⟩ := fuLoop_reportRun hsockets hcall h
    exact ⟨calls, hcalls.of_quiet hrecord⟩

theorem h264Loop_reportRun {call : H264Call}
    (hcall : call.platform = platform ∧ call.sender = sender) {head : ℕ}
    {w w' : World} {status : RtpStatus}
    (h : h264Loop call head w = .ok (status, w')) :
    ∃ calls, ReportRun platform sender w calls w' := by
  induction hrest : call.frame.length - head using Nat.strong_induction_on
    generalizing head w with
  | _ rest ih =>
      by_cases hmore : head + 4 < call.frame.length
      · have hshort := scanUnit_rest_length
          (s := call.frame.drop head) (by rw [List.length_drop]; omega)
        rw [List.length_drop] at hshort
        rw [h264Loop_of_more call hmore, bind_eq_ok] at h
        obtain ⟨⟨sent, w₁⟩, hnal, h⟩ := h
        obtain ⟨calls, hcalls⟩ := h264SendNal_reportRun hsockets hcall hnal
        simp only at h
        split at h
        · obtain ⟨-, rfl⟩ := Prod.mk.inj (Except.ok.inj h)
          exact ⟨calls, hcalls⟩
        · obtain ⟨calls', hcalls'⟩ := ih _ (by omega) h rfl
          exact ⟨calls ++ calls', hcalls.append hcalls'⟩
      · rw [h264Loop, dif_neg hmore] at h
        obtain ⟨-, rfl⟩ := Prod.mk.inj (Except.ok.inj h)
        exact ⟨[], .quiet (.refl sender w)⟩

theorem SendingCall.send_reportRun {call : SendingCall} {w w' : World}
    {status : RtpStatus}
    (h : call.send platform sender w = .ok (status, w')) :
    ∃ calls, ReportRun platform sender w calls w' := by
  cases call with
  | packet call =>
      obtain ⟨calls, hcalls, -⟩ :=
        w6xRtpSenderSessionSendPacket_reportRun hsockets h
      exact ⟨calls, hcalls.of_quiet (quiet_setSampleFactor sender _ w)⟩
  | h264 frame timestamp ntpMsw ntpLsw marker =>
      rcases frame with _ | frame
      · obtain ⟨-, rfl⟩ := Prod.mk.inj (Except.ok.inj h)
        exact ⟨[], .quiet (.refl sender w)⟩
      · simp only [SendingCall.send, w6xRtpSenderSessionSendH264] at h
        split at h
        · obtain ⟨-, rfl⟩ := Prod.mk.inj (Except.ok.inj h)
          exact ⟨[], .quiet (.refl sender w)⟩
        · obtain ⟨head, -, h⟩ := bind_eq_ok.mp h
          split at h
          · obtain ⟨-, rfl⟩ := Prod.mk.inj (Except.ok.inj h)
            exact ⟨[], .quiet (.refl sender w)⟩
          · exact h264Loop_reportRun hsockets ⟨rfl, rfl⟩ h

omit hsockets in
/-- A run of sends gets to its end when the fragments have room for a byte. -/
theorem sessionRun_total (hlimit : 3 ≤ sender.rtpPayloadMaxSize)
    (calls : List SendingCall) (w : World) :
    ∃ w', sessionRun platform sender calls w = .ok w' := by
  induction calls generalizing w with
  | nil => exact ⟨w, rfl⟩
  | cons call calls ih =>
      obtain ⟨status, w₁, hsend⟩ :
          ∃ status w₁, call.send platform sender w = .ok (status, w₁) := by
        rcases call with ⟨factor, data, timestamp, ntpMsw, ntpLsw, marker⟩ |
          ⟨frame, timestamp, ntpMsw, ntpLsw, marker⟩
        · rcases data with _ | data
          · exact ⟨_, _, rfl⟩
          · by_cases hid : (w6xRtpSenderSessionSetSampleFactor factor
                w).2.session.id = rtpSessionId
            · obtain ⟨status, w₁, hpacket, -⟩ :=
                w6xRtpSenderSessionSendPacket_total platform sender data
                  timestamp ntpMsw ntpLsw marker hid
              exact ⟨status, w₁, hpacket⟩
            · exact ⟨_, _, if_pos hid⟩
        · rcases frame with _ | frame
          · exact ⟨_, w, rfl⟩
          · exact w6xRtpSenderSessionSendH264_total platform sender frame
              timestamp ntpMsw ntpLsw marker w hlimit
      obtain ⟨w', hrest⟩ := ih w₁
      refine ⟨w', ?_⟩
      rw [sessionRun, hsend]
      exact hrest

/-- Every run of sends is a run of calls for reports. -/
theorem sessionRun_reportRun {calls : List SendingCall} {w w' : World}
    (h : sessionRun platform sender calls w = .ok w') :
    ∃ reports, ReportRun platform sender w reports w' := by
  induction calls generalizing w with
  | nil =>
      obtain rfl := Except.ok.inj h
      exact ⟨[], .quiet (.refl sender w)⟩
  | cons call calls ih =>
      rw [sessionRun, bind_eq_ok] at h
      obtain ⟨⟨status, w₁⟩, hsend, h⟩ := h
      obtain ⟨reports, hreports⟩ := SendingCall.send_reportRun hsockets hsend
      obtain ⟨reports', hreports'⟩ := ih h
      exact ⟨reports ++ reports', hreports.append hreports'⟩

end Runs

/-! ## Pacing -/

section Pacing

variable {platform : Platform} {sender : Sender}

/-- The reading of the tick count that a call takes. -/
def ReportCall.reading (call : ReportCall) : ℕ := call.before.tickCalls

/-- The call is made when a report is due. -/
def ReportCall.Due (platform : Platform) (call : ReportCall) : Prop :=
  RtcpDue call.before.session (platform.xTaskGetTickCount call.reading)

/-- Two reports sent one after the other are `rtcpInterval` ticks apart in the
tick history `ticks`. -/
def Paced (ticks : ℕ → ℕ) (reports : List ReportCall) : Prop :=
  ∀ before first between second after,
    reports = before ++ first :: (between ++ second :: after) →
      first.Sent → (∀ call ∈ between, ¬ call.Sent) → second.Sent →
        ticks first.reading + rtcpInterval.toNat ≤ ticks second.reading

/-- The tick counter shows the history modulo 2^32. -/
structure Shows (platform : Platform) (ticks : ℕ → ℕ) : Prop where
  mono : Monotone ticks
  reading : ∀ n, platform.xTaskGetTickCount n = UInt32.ofNat (ticks n)

/-- A difference of tick counts below the interval is one of the history. -/
theorem sub_lt_rtcpInterval {t t' : ℕ} (hle : t ≤ t')
    (hnear : t' < t + rtcpInterval.toNat) :
    UInt32.ofNat t' - UInt32.ofNat t < rtcpInterval := by
  have hbound : rtcpInterval.toNat < 2 ^ 32 := rtcpInterval.toNat_lt
  rw [← UInt32.ofNat_sub hle, UInt32.lt_iff_toNat_lt, UInt32.toNat_ofNat',
    Nat.mod_eq_of_lt (by omega)]
  omega

/-- A due report is `rtcpInterval` ticks behind the one whose tick is
stored. -/
theorem ticks_of_rtcpDue {ticks : ℕ → ℕ} (hticks : Shows platform ticks)
    {session : Session} {t n : ℕ} (hle : t ≤ ticks n)
    (hstored : session.rtcpTimestamp = UInt32.ofNat t)
    (hzero : UInt32.ofNat t ≠ 0)
    (hdue : RtcpDue session (platform.xTaskGetTickCount n)) :
    t + rtcpInterval.toNat ≤ ticks n := by
  by_contra hnear
  rw [RtcpDue, hstored, hticks.reading] at hdue
  exact hdue hzero (sub_lt_rtcpInterval hle (Nat.not_le.mp hnear))

/-- From a stored tick on, the next report that is sent keeps the interval. -/
theorem ReportRun.ticks_of_stored {ticks : ℕ → ℕ}
    (hticks : Shows platform ticks) {between after : List ReportCall}
    {second : ReportCall} {w w' : World}
    (h : ReportRun platform sender w (between ++ second :: after) w') {t : ℕ}
    (hle : t ≤ ticks w.tickCalls)
    (hstored : w.session.rtcpTimestamp = UInt32.ofNat t)
    (hzero : UInt32.ofNat t ≠ 0) (hbetween : ∀ call ∈ between, ¬ call.Sent)
    (hsecond : second.Sent) :
    t + rtcpInterval.toNat ≤ ticks second.reading := by
  induction between generalizing w with
  | nil =>
      cases h with
      | report hquiet hcall _ =>
          rw [← hquiet.tickCalls] at hle
          obtain ⟨-, ⟨hunsent, -⟩ | ⟨-, hdue, -⟩⟩ := w6xRtcpSendPacket_cases hcall
          · exact absurd hsecond hunsent
          · exact ticks_of_rtcpDue hticks hle
              (hquiet.rtcpTimestamp.trans hstored) hzero hdue
  | cons call between ih =>
      obtain ⟨hunsent, hrestUnsent⟩ := List.forall_mem_cons.mp hbetween
      cases h with
      | report hquiet hcall hrest =>
          obtain ⟨htick, ⟨-, hkept⟩ | ⟨hsent, -⟩⟩ := w6xRtcpSendPacket_cases hcall
          · apply ih hrest ?_ ?_ hrestUnsent
            · rw [htick, hquiet.tickCalls]
              exact hle.trans (hticks.mono (Nat.le_succ _))
            · rw [hkept, hquiet.rtcpTimestamp, hstored]
          · exact absurd hsent hunsent

/-- A run in which no report is due while the counter reads zero is paced. -/
theorem ReportRun.paced {ticks : ℕ → ℕ} (hticks : Shows platform ticks)
    {reports : List ReportCall} {w w' : World}
    (h : ReportRun platform sender w reports w')
    (hnonzero : ∀ call ∈ reports, call.Due platform →
      platform.xTaskGetTickCount call.reading ≠ 0) :
    Paced ticks reports := by
  rintro before first between second after rfl hfirst hbetween hsecond
  obtain ⟨v, hrun⟩ := h.drop
  have hnonzeroFirst := hnonzero first (by simp)
  cases hrun with
  | report _ hcall hrest =>
      obtain ⟨htick, ⟨hunsent, -⟩ | ⟨-, hdue, hnew⟩⟩ :=
        w6xRtcpSendPacket_cases hcall
      · exact absurd hfirst hunsent
      · rw [hticks.reading] at hnew
        apply hrest.ticks_of_stored hticks ?_ hnew ?_ hbetween hsecond
        · rw [htick]
          exact hticks.mono (Nat.le_succ _)
        · rw [← hticks.reading]
          exact hnonzeroFirst hdue

/-- Pacing: a run of sends has a list of calls for reports, and two reports in
it that are sent one after the other are `rtcpInterval` ticks apart when no
report is due while the counter reads zero. -/
theorem sessionRun_paced (hsockets : sender.rtpSocket ≠ sender.rtcpSocket)
    {ticks : ℕ → ℕ} (hticks : Shows platform ticks) {calls : List SendingCall}
    {w w' : World} (h : sessionRun platform sender calls w = .ok w') :
    (∃ reports, ReportRun platform sender w reports w') ∧
      ∀ reports, ReportRun platform sender w reports w' →
        (∀ call ∈ reports, call.Due platform →
          platform.xTaskGetTickCount call.reading ≠ 0) →
        Paced ticks reports :=
  ⟨sessionRun_reportRun hsockets h, fun _ hrun => hrun.paced hticks⟩

end Pacing

/-- Sends are accepted and the tick count, five seconds behind a wrap, moves on
by 2.5 seconds from reading to reading; it is odd and so never zero. -/
def steadyPlatform : Platform :=
  ⟨fun _ => 0, fun n => UInt32.ofNat (2 ^ 32 + 5001 + 2500 * n)⟩

theorem shows_steadyPlatform :
    Shows steadyPlatform fun n => 2 ^ 32 + 5001 + 2500 * n := by
  constructor
  · intro m n hmn
    simp only
    omega
  · intro n
    rfl

theorem steadyPlatform_ne_zero (n : ℕ) : steadyPlatform.xTaskGetTickCount n ≠ 0 := by
  intro hzero
  have hmod : (2 ^ 32 + 5001 + 2500 * n) % 2 ^ 32 = 0 :=
    (UInt32.toNat_ofNat').symm.trans (congrArg UInt32.toNat hzero)
  omega

def steadyCalls : List SendingCall :=
  [.packet ⟨0, some [0x65], 0, 0, 0, 1⟩,
    .packet ⟨0, some [0x41], 3600, 0, 0, 1⟩,
    .h264 (some [0, 0, 1, 0x65, 0x88, 0x84, 0x21, 0xA0]) 7200 0 0 1]

/-- Two packets and a frame. -/
theorem sessionRun_paced_steady :
    ∃ w', sessionRun steadyPlatform streamSender steadyCalls
        (streamWorld streamSession) = .ok w' ∧
      (∃ reports, ReportRun steadyPlatform streamSender
        (streamWorld streamSession) reports w') ∧
      ∀ reports, ReportRun steadyPlatform streamSender
          (streamWorld streamSession) reports w' →
        Paced (fun n => 2 ^ 32 + 5001 + 2500 * n) reports := by
  have hlimit : 3 ≤ streamSender.rtpPayloadMaxSize := by decide
  obtain ⟨w', hrun⟩ :=
    sessionRun_total hlimit steadyCalls (streamWorld streamSession)
  obtain ⟨hreports, hpaced⟩ := sessionRun_paced (by decide) shows_steadyPlatform hrun
  exact ⟨w', hrun, hreports, fun reports hreports =>
    hpaced reports hreports fun call _ _ => steadyPlatform_ne_zero call.reading⟩

/-- While the counter reads zero, every call sends a report. -/
theorem ReportRun.all_sent {sender : Sender} {w w' : World}
    {reports : List ReportCall} (h : ReportRun platformOk sender w reports w')
    (hzero : w.session.rtcpTimestamp = 0) : ∀ call ∈ reports, call.Sent := by
  induction h with
  | quiet _ => exact List.forall_mem_nil _
  | @report w before after w' status calls hquiet hcall _ ih =>
      have hdue : RtcpDue before.session
          (platformOk.xTaskGetTickCount before.tickCalls) := by
        intro hstored
        exact absurd (hquiet.rtcpTimestamp.trans hzero) hstored
      have haccepted : ¬ platformOk.socketSendto before.sends.length < 0 :=
        Int.not_lt.mpr (allSent_platformOk _)
      rw [w6xRtcpSendPacket_of_due hdue, if_neg haccepted] at hcall
      obtain ⟨rfl, rfl⟩ := Prod.mk.inj (Except.ok.inj hcall)
      rw [List.forall_mem_cons]
      refine ⟨⟨rfl, ?_⟩, ih rfl⟩
      intro hsends
      exact List.cons_ne_nil _ _ (List.append_right_eq_self.mp hsends)

/-- Two packets within the tick of a wrap: both are preceded by a report. -/
theorem sessionRun_not_paced_at_wrap :
    Shows platformOk (fun _ => 2 ^ 32) ∧
      ∃ w' reports, sessionRun platformOk streamSender
          [.packet ⟨0, some [0x65], 0, 0, 0, 1⟩,
            .packet ⟨0, some [0x41], 3600, 0, 0, 1⟩]
          (streamWorld streamSession) = .ok w' ∧
        ReportRun platformOk streamSender (streamWorld streamSession) reports
          w' ∧
        ¬ Paced (fun _ => 2 ^ 32) reports := by
  refine ⟨⟨fun _ _ _ => le_rfl, fun _ => rfl⟩, ?_⟩
  have hlive : (w6xRtpSenderSessionSetSampleFactor 0
      (streamWorld streamSession)).2.session.id = rtpSessionId := rfl
  obtain ⟨status, w₁, hfirst, hkeeps, -⟩ := w6xRtpSenderSessionSendPacket_total
    platformOk streamSender [0x65] 0 0 0 1 hlive
  have hlive' : (w6xRtpSenderSessionSetSampleFactor 0 w₁).2.session.id =
      rtpSessionId := by
    rw [w6xRtpSenderSessionSetSampleFactor]
    split
    · exact hkeeps.id
    · exact hkeeps.id
  obtain ⟨status', w', hsecond, -⟩ := w6xRtpSenderSessionSendPacket_total
    platformOk streamSender [0x41] 3600 0 0 1 hlive'
  obtain ⟨calls, hcalls, hne⟩ :=
    w6xRtpSenderSessionSendPacket_reportRun (by decide) hfirst
  obtain ⟨calls', hcalls', hne'⟩ :=
    w6xRtpSenderSessionSendPacket_reportRun (by decide) hsecond
  obtain ⟨first, rest, rfl⟩ :=
    List.exists_cons_of_ne_nil (hne hlive ⟨_, _, rfl⟩)
  have hreports := (hcalls.of_quiet (quiet_setSampleFactor streamSender 0 _)).append
    (hcalls'.of_quiet (quiet_setSampleFactor streamSender 0 _))
  refine ⟨w', _, ?_, hreports, ?_⟩
  · simp only [sessionRun, SendingCall.send, hfirst, hsecond, ok_bind]
  · obtain ⟨second, after, hsecond⟩ : ∃ second after,
        rest ++ calls' = second :: after := by
      apply List.exists_cons_of_ne_nil
      rw [ne_eq, List.append_eq_nil_iff]
      exact fun hnil => hne' hlive' ⟨_, _, rfl⟩ hnil.2
    have hsent := hreports.all_sent rfl
    rw [List.cons_append, hsecond] at hsent ⊢
    intro hpaced
    have hgap := hpaced [] first [] second after rfl (hsent _ (by simp))
      (List.forall_mem_nil _) (hsent _ (by simp))
    have hinterval : rtcpInterval.toNat = 5000 := rfl
    simp only [hinterval] at hgap
    omega

end RtpMulticast
