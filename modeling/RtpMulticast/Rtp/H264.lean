import RtpMulticast.Rtp.Sending
import RtpMulticast.Support.AnnexB
import RtpMulticast.Support.FuA

/-!
# Sending H.264 frames

`w6x_rtp_sender_session_send_h264`: the scan for start codes, the clearing of
the marker for parameter sets, the single packet branch and the FU-A branch.
A pointer into the frame is its index, `tail` is the length of the frame.
-/

namespace RtpMulticast

open ByteBuffer

/-! ## The scan -/

/-- Length of the start code at `head`, zero when there is none.  The bytes
are read in the order of the C conditions, and no further than they decide. -/
def h264StartCode (frame : Bytes) (head : ℕ) : Except Fault ℕ := do
  let b₀ ← loadU8 frame head
  if b₀ ≠ 0x00 then
    return 0
  let b₁ ← loadU8 frame (head + 1)
  if b₁ ≠ 0x00 then
    return 0
  let b₂ ← loadU8 frame (head + 2)
  if b₂ = 0x00 then
    let b₃ ← loadU8 frame (head + 3)
    return if b₃ = 0x01 then 4 else 0
  return if b₂ = 0x01 then 3 else 0

/-- Result of the inner loop: size and marker of the NAL unit and the new
head. -/
structure NalScan where
  nalSize : ℕ
  marker : UInt8
  head : ℕ
  deriving DecidableEq, Repr

/-- The inner loop: move to the next start code, or to the tail when the last
four bytes are reached. -/
def h264ScanNal (frame : Bytes) (nalFrame head : ℕ) :
    Except Fault NalScan := do
  let code ← h264StartCode frame head
  if code ≠ 0 then
    return ⟨head - nalFrame, 0, head + code⟩
  if _hend : frame.length ≤ head + 4 then
    return ⟨frame.length - nalFrame, 1, frame.length⟩
  h264ScanNal frame nalFrame (head + 1)
termination_by frame.length - head

/-! ## The transmit branches -/

/-- Parameters of one `send_h264` call that its helpers share. -/
structure H264Call where
  platform : Platform
  sender : Sender
  frame : Bytes
  timestamp : UInt32
  ntpMsw : UInt32
  ntpLsw : UInt32

def H264Call.sendPacket (call : H264Call) (data : Bytes) (marker : UInt8)
    (w : World) : Except Fault (RtpStatus × World) :=
  w6xRtpSenderSessionSendPacket call.platform (some call.sender) (some data)
    call.timestamp call.ntpMsw call.ntpLsw marker w

/-- Sizes of the FU-A fragments of one NAL unit. -/
structure FuPlan where
  fuSizeMax : ℕ
  fuSizeLast : ℕ
  fuPackets : ℕ
  deriving DecidableEq, Repr

def fuPlan (rtpPayloadMaxSize nalSize : ℕ) : Except Fault FuPlan := do
  let fuSizeMax ← subSize rtpPayloadMaxSize rtpH264FuSize
  let fuSizeLast ← modSize nalSize fuSizeMax
  let extra ← divSize (← subSize nalSize 1) fuSizeMax
  return ⟨fuSizeMax, fuSizeLast, extra + 1⟩

/-- Variables of the fragment loop. -/
structure FuCursor where
  idx : ℕ
  fuHeader : UInt8
  fuMarker : UInt8
  nalFrame : ℕ
  deriving DecidableEq, Repr

/-- Fragment header, size and marker of fragment `idx`. -/
def fuPrepare (plan : FuPlan) (marker : UInt8) (cur : FuCursor) :
    Except Fault (FuCursor × ℕ) := do
  if cur.idx = 0 then
    -- First packet: start bit, and skip the NAL type byte.
    let fuSize ← subSize plan.fuSizeMax 1
    return ({ cur with
      fuHeader := cur.fuHeader ||| rtpH264FuStartMask
      fuMarker := 0
      nalFrame := cur.nalFrame + 1 }, fuSize)
  else if cur.idx = plan.fuPackets - 1 then
    -- Last packet: end bit and the actual marker.
    return ({ cur with
      fuHeader :=
        (cur.fuHeader &&& ~~~rtpH264FuStartMask) ||| rtpH264FuEndMask
      fuMarker := marker },
      if plan.fuSizeLast ≠ 0 then plan.fuSizeLast else plan.fuSizeMax)
  else
    return ({ cur with fuHeader := cur.fuHeader &&& ~~~rtpH264FuStartMask },
      plan.fuSizeMax)

/-- The fragment loop with `n` fragments left.  `fu_payload` has
`RTP_PAYLOAD_MAX_SIZE` bytes: indicator, header and fragment must fit. -/
def fuLoop (call : H264Call) (plan : FuPlan) (fuIndicator marker : UInt8) :
    ℕ → FuCursor → World → Except Fault (RtpStatus × World)
  | 0, _, w => .ok (.ok, w)
  | n + 1, cur, w => do
      let (cur, fuSize) ← fuPrepare plan marker cur
      if rtpPayloadMaxSize < fuSize + rtpH264FuSize then
        throw .outOfBounds
      let body ← copyOut call.frame cur.nalFrame fuSize
      let (status, w) ←
        call.sendPacket ([fuIndicator, cur.fuHeader] ++ body) cur.fuMarker w
      if status ≠ .ok then
        return (status, w)
      fuLoop call plan fuIndicator marker n
        { cur with idx := cur.idx + 1, nalFrame := cur.nalFrame + fuSize } w

/-- SEI, SPS and PPS units never carry the marker. -/
def h264Marker (nalType marker : UInt8) : UInt8 :=
  if nalType &&& rtpH264TypeMask = rtpH264TypeSei ∨
      nalType &&& rtpH264TypeMask = rtpH264TypeSps ∨
      nalType &&& rtpH264TypeMask = rtpH264TypePps then 0
  else marker

/-- Hand one NAL unit to the single packet or to the FU-A branch. -/
def h264SendNal (call : H264Call) (nalFrame nalSize : ℕ) (marker : UInt8)
    (w : World) : Except Fault (RtpStatus × World) := do
  let nalType ← loadU8 call.frame nalFrame
  let marker := h264Marker nalType marker
  let nal ← copyOut call.frame nalFrame nalSize
  let w := { w with nalUnits := w.nalUnits ++ [nal] }
  if nalSize < call.sender.rtpPayloadMaxSize then
    call.sendPacket nal marker w
  else
    let plan ← fuPlan call.sender.rtpPayloadMaxSize nalSize
    fuLoop call plan ((nalType &&& rtpH264NriMask) ||| rtpH264TypeFuA) marker
      plan.fuPackets
      ⟨0, nalType &&& rtpH264TypeMask, 0, nalFrame⟩ w

/-! ## The outer loop -/

theorem h264ScanNal_progress {frame : Bytes} {nalFrame head : ℕ}
    {scan : NalScan} (hhead : head < frame.length)
    (h : h264ScanNal frame nalFrame head = .ok scan) :
    head < scan.head := by
  induction hrest : frame.length - head using Nat.strong_induction_on
    generalizing head with
  | _ rest ih =>
      rw [h264ScanNal] at h
      obtain ⟨code, -, h⟩ := bind_eq_ok.mp h
      by_cases hcode : code = 0
      · simp only [hcode, ne_eq, not_true_eq_false, if_false] at h
        by_cases hend : frame.length ≤ head + 4
        · simp only [hend, dif_pos, pure_eq_ok, Except.ok.injEq] at h
          rw [← h]
          exact hhead
        · rw [dif_neg hend] at h
          have hnext := ih _ (by omega) (by omega) h rfl
          omega
      · simp only [hcode, ne_eq, not_false_eq_true, if_true, pure_eq_ok,
          Except.ok.injEq] at h
        rw [← h]
        simp only
        omega

/-- The outer loop, from `head` to the last four bytes. -/
def h264Loop (call : H264Call) (head : ℕ) (w : World) :
    Except Fault (RtpStatus × World) :=
  if _hmore : head + 4 < call.frame.length then
    match _hscan : h264ScanNal call.frame head head with
    | .error fault => .error fault
    | .ok scan => do
        let (status, w) ← h264SendNal call head scan.nalSize scan.marker w
        if status ≠ .ok then
          return (status, w)
        h264Loop call scan.head w
  else .ok (.ok, w)
termination_by call.frame.length - head
decreasing_by
  have hnext := h264ScanNal_progress (by omega) _hscan
  omega

/-- Send an H.264 frame.  `sender` is `session->sender`, absent also for a
null session. -/
def w6xRtpSenderSessionSendH264 (platform : Platform) (sender : Option Sender)
    (frame : Option Bytes) (timestamp ntpMsw ntpLsw : UInt32) (marker : UInt8)
    (w : World) : Except Fault (RtpStatus × World) :=
  match sender, frame with
  | some sender, some frame => do
      if w.session.id ≠ rtpSessionId ∨ frame.length ≤ 4 ∨ marker ≠ 1 then
        return (.errorParameters, w)
      let head ← h264StartCode frame 0
      if head = 0 then
        return (.errorParameters, w)
      h264Loop ⟨platform, sender, frame, timestamp, ntpMsw, ntpLsw⟩ head w
  | _, _ => .ok (.errorPtr, w)

/-! ## The transmit branches return -/

/-- The sizes of the fragments add up to the size of the NAL unit. -/
theorem fu_sizes_add (f n : ℕ) (hn : 0 < n) :
    (n - 1) / f * f + (if n % f ≠ 0 then n % f else f) = n := by
  by_cases hlast : n % f = 0
  · obtain ⟨q, rfl⟩ := Nat.dvd_of_mod_eq_zero hlast
    obtain ⟨hf, hq⟩ : 0 < f ∧ 0 < q := by
      constructor <;> exact Nat.pos_of_ne_zero (by rintro rfl; simp at hn)
    have hdiv : (f * q - 1) / f = q - 1 := by
      obtain ⟨p, rfl⟩ : ∃ p, q = p + 1 := ⟨q - 1, by omega⟩
      rw [show f * (p + 1) - 1 = (f - 1) + f * p by rw [Nat.mul_succ]; omega,
        Nat.add_mul_div_left _ _ hf, Nat.div_eq_of_lt (by omega)]
      omega
    rw [hdiv, if_neg (by simp)]
    obtain ⟨p, rfl⟩ : ∃ p, q = p + 1 := ⟨q - 1, by omega⟩
    rw [Nat.add_sub_cancel, Nat.mul_succ, Nat.mul_comm]
  · rw [if_pos hlast]
    have hdiv : (n - 1) / f = n / f := by
      have hsplit := Nat.div_add_mod n f
      rcases Nat.eq_zero_or_pos f with rfl | hf
      · simp
      · have hlt := Nat.mod_lt n hf
        rw [show n - 1 = (n % f - 1) + f * (n / f) by omega,
          Nat.add_mul_div_left _ _ hf, Nat.div_eq_of_lt (by omega)]
        omega
    rw [hdiv, Nat.mul_comm]
    exact Nat.div_add_mod n f

theorem fuPlan_eq {limit nalSize : ℕ} (hlimit : 3 ≤ limit)
    (hsize : limit ≤ nalSize) :
    fuPlan limit nalSize = .ok ⟨limit - 2, nalSize % (limit - 2),
      (nalSize - 1) / (limit - 2) + 1⟩ := by
  have hne : limit - 2 ≠ 0 := by omega
  have hmax : 2 ≤ limit := by omega
  have hone : 1 ≤ nalSize := by omega
  simp [fuPlan, subSize, modSize, divSize, hmax, hone, rtpH264FuSize, hne]

/-- Where fragment `idx` of a NAL unit at `base` begins. -/
def fuOffset (plan : FuPlan) (base idx : ℕ) : ℕ :=
  base + idx * plan.fuSizeMax

/-- Size of the last fragment. -/
def FuPlan.lastSize (plan : FuPlan) : ℕ :=
  if plan.fuSizeLast ≠ 0 then plan.fuSizeLast else plan.fuSizeMax

/-- A plan whose fragments fit into a packet and cover `nalSize` bytes. -/
structure FuPlan.Covers (plan : FuPlan) (nalSize : ℕ) : Prop where
  max_pos : 0 < plan.fuSizeMax
  max_fits : plan.fuSizeMax + rtpH264FuSize ≤ rtpPayloadMaxSize
  last_le : plan.lastSize ≤ plan.fuSizeMax
  two_le : 2 ≤ plan.fuPackets
  total : (plan.fuPackets - 1) * plan.fuSizeMax + plan.lastSize = nalSize

/-- Where the body of fragment `idx` begins; the first one leaves out the first
byte of the NAL unit. -/
def fuStart (plan : FuPlan) (base idx : ℕ) : ℕ :=
  if idx = 0 then base + 1 else fuOffset plan base idx

/-- Where the body of fragment `idx` ends. -/
def fuStop (plan : FuPlan) (nalSize base idx : ℕ) : ℕ :=
  if idx + 1 = plan.fuPackets then base + nalSize
  else fuOffset plan base (idx + 1)

theorem fuOffset_succ (plan : FuPlan) (base idx : ℕ) :
    fuOffset plan base (idx + 1) =
      fuOffset plan base idx + plan.fuSizeMax := by
  rw [fuOffset, fuOffset, Nat.succ_mul, Nat.add_assoc]

theorem fuOffset_last {plan : FuPlan} {nalSize : ℕ}
    (hplan : plan.Covers nalSize) (base : ℕ) :
    fuOffset plan base (plan.fuPackets - 1) + plan.lastSize =
      base + nalSize := by
  rw [fuOffset, Nat.add_assoc, hplan.total]

theorem fuStop_le {plan : FuPlan} {nalSize : ℕ} (hplan : plan.Covers nalSize)
    (base : ℕ) {idx : ℕ} (hidx : idx < plan.fuPackets) :
    fuStop plan nalSize base idx ≤ base + nalSize := by
  have htotal := hplan.total
  rw [fuStop]
  split
  · exact le_rfl
  · next hlast =>
      have hbound : (idx + 1) * plan.fuSizeMax ≤
          (plan.fuPackets - 1) * plan.fuSizeMax :=
        Nat.mul_le_mul_right _ (by omega)
      rw [fuOffset]
      omega

/-- The variables before fragment `idx` of a NAL unit at `base` with first byte
`b` is prepared: the header still has the start bit of the first fragment. -/
structure FuReady (plan : FuPlan) (base : ℕ) (b : UInt8) (cur : FuCursor) :
    Prop where
  idx_lt : cur.idx < plan.fuPackets
  position : cur.nalFrame = fuOffset plan base cur.idx
  header : cur.fuHeader = FuA.header b (cur.idx == 1) false
  marker : cur.fuMarker = 0

/-- The variables when fragment `cur.idx` is copied and sent. -/
structure FuPrepared (plan : FuPlan) (nalSize base : ℕ) (b marker : UInt8)
    (cur cur' : FuCursor) (fuSize : ℕ) : Prop where
  idx : cur'.idx = cur.idx
  start : cur'.nalFrame = fuStart plan base cur.idx
  size_le : fuSize ≤ plan.fuSizeMax
  stop : cur'.nalFrame + fuSize = fuStop plan nalSize base cur.idx
  header : cur'.fuHeader =
    FuA.header b (cur.idx == 0) (cur.idx + 1 == plan.fuPackets)
  marker : cur'.fuMarker =
    if cur.idx + 1 = plan.fuPackets then marker else 0

/-- Step of the fragment loop: one fragment is prepared, by its place. -/
theorem FuReady.prepare {plan : FuPlan} {nalSize base : ℕ} {b : UInt8}
    {cur : FuCursor} (h : FuReady plan base b cur)
    (hplan : plan.Covers nalSize) (marker : UInt8) :
    ∃ cur' fuSize, fuPrepare plan marker cur = .ok (cur', fuSize) ∧
      FuPrepared plan nalSize base b marker cur cur' fuSize := by
  have hpos := hplan.max_pos
  have hsucc := fuOffset_succ plan base cur.idx
  have hat := h.position
  by_cases hfirst : cur.idx = 0
  · have hone : 1 ≤ plan.fuSizeMax := hpos
    have hmore : cur.idx + 1 ≠ plan.fuPackets := by
      have htwo := hplan.two_le
      omega
    have hbase : cur.nalFrame = base := by
      rw [hat, hfirst, fuOffset, Nat.zero_mul, Nat.add_zero]
    have hstop : cur.nalFrame + 1 + (plan.fuSizeMax - 1) =
        fuStop plan nalSize base cur.idx := by
      rw [fuStop, if_neg hmore, hsucc, ← hat]
      omega
    have hheader : cur.fuHeader ||| rtpH264FuStartMask =
        FuA.header b (cur.idx == 0) (cur.idx + 1 == plan.fuPackets) := by
      rw [h.header, hfirst, beq_false_of_ne (by omega : 0 + 1 ≠ plan.fuPackets)]
      exact FuA.header_or_start b
    rw [fuPrepare, if_pos hfirst, subSize, if_pos hone, ok_bind]
    refine ⟨_, _, rfl, rfl, ?_, Nat.sub_le _ _, hstop, hheader, ?_⟩
    · rw [fuStart, if_pos hfirst, ← hbase]
    · rw [if_neg hmore]
  · by_cases hlast : cur.idx = plan.fuPackets - 1
    · have hend : cur.idx + 1 = plan.fuPackets := by
        have htwo := hplan.two_le
        omega
      have hstop : cur.nalFrame + plan.lastSize =
          fuStop plan nalSize base cur.idx := by
        rw [fuStop, if_pos hend, hat, hlast, fuOffset_last hplan]
      have hheader : (cur.fuHeader &&& ~~~rtpH264FuStartMask) |||
            rtpH264FuEndMask =
          FuA.header b (cur.idx == 0) (cur.idx + 1 == plan.fuPackets) := by
        rw [h.header, hend, beq_self_eq_true, beq_false_of_ne hfirst]
        exact (congrArg (· ||| rtpH264FuEndMask)
          (FuA.header_clear_start b (cur.idx == 1))).trans (FuA.header_or_end b)
      rw [fuPrepare, if_neg hfirst, if_pos hlast]
      refine ⟨_, _, rfl, rfl, ?_, hplan.last_le, hstop, hheader, ?_⟩
      · rw [fuStart, if_neg hfirst, hat]
      · rw [if_pos hend]
    · have hmore : cur.idx + 1 ≠ plan.fuPackets := by
        have hidx := h.idx_lt
        omega
      have hstop : cur.nalFrame + plan.fuSizeMax =
          fuStop plan nalSize base cur.idx := by
        rw [fuStop, if_neg hmore, hsucc, ← hat]
      have hheader : cur.fuHeader &&& ~~~rtpH264FuStartMask =
          FuA.header b (cur.idx == 0) (cur.idx + 1 == plan.fuPackets) := by
        rw [h.header, beq_false_of_ne hmore, beq_false_of_ne hfirst]
        exact FuA.header_clear_start b (cur.idx == 1)
      rw [fuPrepare, if_neg hfirst, if_neg hlast]
      refine ⟨_, _, rfl, rfl, ?_, le_rfl, hstop, hheader, ?_⟩
      · rw [fuStart, if_neg hfirst, hat]
      · rw [if_neg hmore]
        exact h.marker

/-- The loop goes on with the fragment behind. -/
theorem FuPrepared.ready {plan : FuPlan} {nalSize base : ℕ} {b marker : UInt8}
    {cur cur' : FuCursor} {fuSize : ℕ}
    (h : FuPrepared plan nalSize base b marker cur cur' fuSize)
    (hmore : cur.idx + 1 < plan.fuPackets) :
    FuReady plan base b { cur' with
      idx := cur'.idx + 1, nalFrame := cur'.nalFrame + fuSize } := by
  have hne : cur.idx + 1 ≠ plan.fuPackets := Nat.ne_of_lt hmore
  have hbit : (cur.idx + 1 == 1) = (cur.idx == 0) := by
    rw [Bool.eq_iff_iff, beq_iff_eq, beq_iff_eq]
    omega
  refine ⟨?_, ?_, ?_, ?_⟩
  · simp only [h.idx]
    exact hmore
  · simp only [h.stop, h.idx, fuStop, if_neg hne]
  · simp only [h.header, h.idx, hbit, beq_false_of_ne hne]
  · simp only [h.marker, if_neg hne]

/-- The fragment loop returns: each fragment is copied from inside the frame
into `fu_payload`. -/
theorem fuLoop_total (call : H264Call)
    {plan : FuPlan} {nalSize : ℕ} (hplan : plan.Covers nalSize)
    (fuIndicator b marker : UInt8) {base : ℕ}
    (hroom : base + nalSize ≤ call.frame.length)
    (n : ℕ) (cur : FuCursor) {w : World}
    (hn : cur.idx + n = plan.fuPackets)
    (hready : 0 < n → FuReady plan base b cur)
    (hid : w.session.id = rtpSessionId) :
    ∃ status w', fuLoop call plan fuIndicator marker n cur w =
        .ok (status, w') ∧
      w.Keeps w' ∧ (AllSent call.platform → status = .ok) := by
  induction n generalizing cur w with
  | zero => exact ⟨.ok, w, rfl, .refl w, fun _ => rfl⟩
  | succ n ih =>
      obtain ⟨cur', fuSize, hprep, hprepared⟩ :=
        (hready (Nat.succ_pos n)).prepare hplan marker
      have hmax := hplan.max_fits
      have hsize := hprepared.size_le
      have hstop := fuStop_le hplan base (show cur.idx < plan.fuPackets by omega)
      have hfits : ¬ rtpPayloadMaxSize < fuSize + rtpH264FuSize := by omega
      have hbody := copyOut_of_le call.frame cur'.nalFrame fuSize
        (by rw [hprepared.stop]; omega)
      obtain ⟨status, w₁, hpacket, hkeeps, hok⟩ :=
        w6xRtpSenderSessionSendPacket_total call.platform call.sender
          ([fuIndicator, cur'.fuHeader] ++
            (call.frame.drop cur'.nalFrame).take fuSize)
          call.timestamp call.ntpMsw call.ntpLsw cur'.fuMarker hid
      rw [fuLoop, hprep]
      simp only [ok_bind, if_neg hfits, hbody, H264Call.sendPacket, hpacket]
      by_cases hstatus : status = .ok
      · obtain ⟨status', w', hloop, hkeeps', hok'⟩ := ih (w := w₁)
          { cur' with
            idx := cur'.idx + 1, nalFrame := cur'.nalFrame + fuSize }
          (by simp only [hprepared.idx]; omega)
          (fun hpos => hprepared.ready (by omega))
          (hkeeps.id.trans hid)
        rw [if_neg (not_not_intro hstatus)]
        exact ⟨status', w', hloop, hkeeps.trans hkeeps', hok'⟩
      · rw [if_pos hstatus]
        exact ⟨status, w₁, rfl, hkeeps, hok⟩

/-- The plan of a NAL unit that does not fit into one packet. -/
def fuPlanOf (limit nalSize : ℕ) : FuPlan :=
  ⟨limit - 2, nalSize % (limit - 2), (nalSize - 1) / (limit - 2) + 1⟩

theorem fuPlanOf_covers {limit nalSize : ℕ} (hlimit : 3 ≤ limit)
    (hle : limit ≤ rtpPayloadMaxSize) (hsize : limit ≤ nalSize) :
    (fuPlanOf limit nalSize).Covers nalSize := by
  have hpos : 0 < limit - 2 := by omega
  have hmod := Nat.mod_lt nalSize hpos
  have hdiv : 0 < (nalSize - 1) / (limit - 2) := Nat.div_pos (by omega) hpos
  refine ⟨hpos, ?_, ?_, by simp only [fuPlanOf]; omega, ?_⟩
  · simp only [fuPlanOf, rtpH264FuSize]
    omega
  · change (if nalSize % (limit - 2) ≠ 0 then nalSize % (limit - 2)
      else limit - 2) ≤ limit - 2
    split <;> omega
  · exact fu_sizes_add _ _ (by omega)

/-- The fragment loop is entered with the type of the unit as header. -/
theorem fuReady_first {plan : FuPlan} (hpos : 0 < plan.fuPackets) (base : ℕ)
    (b : UInt8) : FuReady plan base b ⟨0, b &&& rtpH264TypeMask, 0, base⟩ :=
  ⟨hpos, by simp [fuOffset], (FuA.header_plain b).symm, rfl⟩

/-- Both branches return for a NAL unit inside the frame, with `ok` when every
socket send succeeds. -/
theorem h264SendNal_total (call : H264Call)
    (hlimit : 3 ≤ call.sender.rtpPayloadMaxSize)
    (nalFrame nalSize : ℕ) (marker : UInt8) {w : World}
    (hstart : nalFrame < call.frame.length)
    (hroom : nalFrame + nalSize ≤ call.frame.length)
    (hid : w.session.id = rtpSessionId) :
    ∃ status w', h264SendNal call nalFrame nalSize marker w =
        .ok (status, w') ∧
      w'.session.id = rtpSessionId ∧
      w'.nalUnits =
        w.nalUnits ++ [(call.frame.drop nalFrame).take nalSize] ∧
      (AllSent call.platform → status = .ok) := by
  have hnal := copyOut_of_le _ _ _ hroom
  simp only [h264SendNal, loadU8_of_lt hstart, hnal, ok_bind]
  by_cases hsingle : nalSize < call.sender.rtpPayloadMaxSize
  · rw [if_pos hsingle]
    obtain ⟨status, w', hpacket, hkeeps, hok⟩ :=
      w6xRtpSenderSessionSendPacket_total call.platform
        call.sender ((call.frame.drop nalFrame).take nalSize)
        call.timestamp call.ntpMsw call.ntpLsw
        (h264Marker call.frame[nalFrame] marker)
        (w := { w with nalUnits :=
          w.nalUnits ++ [(call.frame.drop nalFrame).take nalSize] }) hid
    exact ⟨status, w', hpacket, hkeeps.id.trans hid, hkeeps.nalUnits, hok⟩
  · have hsize : call.sender.rtpPayloadMaxSize ≤ nalSize := Nat.not_lt.mp hsingle
    rw [if_neg hsingle, fuPlan_eq hlimit hsize, ok_bind]
    obtain ⟨status, w', hloop, hkeeps, hok⟩ := fuLoop_total call
      (fuPlanOf_covers hlimit call.sender.payload_le hsize)
      ((call.frame[nalFrame] &&& rtpH264NriMask) ||| rtpH264TypeFuA)
      call.frame[nalFrame] (h264Marker call.frame[nalFrame] marker) hroom
      (fuPlanOf call.sender.rtpPayloadMaxSize nalSize).fuPackets
      ⟨0, call.frame[nalFrame] &&& rtpH264TypeMask, 0, nalFrame⟩
      (w := { w with nalUnits :=
        w.nalUnits ++ [(call.frame.drop nalFrame).take nalSize] })
      (Nat.zero_add _) (fun hpos => fuReady_first hpos nalFrame _) hid
    exact ⟨status, w', hloop, hkeeps.id.trans hid, hkeeps.nalUnits, hok⟩

end RtpMulticast
