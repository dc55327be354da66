import RtpMulticast.Rtp.RtpPackets

/-!
# Timestamps in sample mode

In sample mode the send loop moves the timestamp on by `payload_size /
sample_factor` for each chunk.  The division truncates chunk by chunk, so the
timestamp of a packet is that of its position in the data exactly as long as
the remainders that were cut off do not add up to a whole sample.
-/

namespace RtpMulticast

open ByteBuffer

/-! ## Truncated quotients -/

/-- The quotient of a multiple, by the quotient and the remainder. -/
theorem mul_div_eq (k m f : ℕ) : k * m / f = k * (m / f) + k * (m % f) / f := by
  rcases Nat.eq_zero_or_pos f with rfl | hf
  · simp
  · calc k * m / f = (k * (m % f) + f * (k * (m / f))) / f := by
          congr 1
          conv_lhs => rw [← Nat.mod_add_div m f]
          ring
      _ = k * (m / f) + k * (m % f) / f := by
          rw [Nat.add_mul_div_left _ _ hf, Nat.add_comm]

/-- Multiples of a remainder that reach `f` have the quotient 1 on their
way. -/
theorem exists_mul_div_eq_one {k r f : ℕ} (hr : r < f) (hreach : f ≤ k * r) :
    ∃ j ≤ k, j * r / f = 1 := by
  induction k with
  | zero => omega
  | succ k ih =>
      by_cases hbefore : f ≤ k * r
      · obtain ⟨j, hj, hquotient⟩ := ih hbefore
        exact ⟨j, hj.trans (Nat.le_succ k), hquotient⟩
      · have hsucc : (k + 1) * r = k * r + r := Nat.succ_mul k r
        refine ⟨k + 1, le_rfl, Nat.div_eq_of_lt_le ?_ ?_⟩
        · omega
        · omega

/-! ## The packets of the chunks -/

/-- Packet number `before.length` of the chunks: where it starts, what it
carries and which timestamp it has. -/
theorem chunkPackets_split {factor : UInt32} (hfactor : factor ≠ 0) {limit : ℕ}
    (hlimit : 0 < limit) {marker : UInt8} {timestamp : UInt32} {data : Bytes}
    {before after : List RtpPacket} {packet : RtpPacket}
    (h : chunkPackets factor limit marker timestamp data =
      before ++ packet :: after) :
    (before.flatMap RtpPacket.payload).length = before.length * limit ∧
      before.length * limit < data.length ∧
      packet.payload = (data.drop (before.length * limit)).take limit ∧
      packet.timestamp =
        timestamp + UInt32.ofNat (before.length * (limit / factor.toNat)) := by
  have hdata : data ≠ [] := by
    intro hnil
    rw [hnil, chunkPackets_nil] at h
    cases before <;> cases h
  have hpos : 0 < data.length := List.length_pos_iff.mpr hdata
  induction before generalizing timestamp data with
  | nil =>
      rw [chunkPackets_cons hdata hlimit, List.nil_append, List.cons.injEq] at h
      rw [← h.1]
      simp [hpos]
  | cons first before ih =>
      rw [chunkPackets_cons hdata hlimit, List.cons_append, List.cons.injEq,
        if_pos hfactor] at h
      obtain ⟨hfirst, hrest⟩ := h
      have hmore : data.drop limit ≠ [] := by
        intro hnil
        rw [hnil, chunkPackets_nil] at hrest
        cases before <;> cases hrest
      have hlonger : 0 < (data.drop limit).length :=
        List.length_pos_iff.mpr hmore
      obtain ⟨hbefore, hlt, hpayload, htime⟩ := ih hrest hmore hlonger
      rw [List.length_drop] at hlt hlonger
      have hsucc : (before.length + 1) * limit = before.length * limit + limit :=
        Nat.succ_mul _ _
      have hfull : (data.take limit).length = limit := by
        rw [List.length_take]
        omega
      simp only [List.length_cons, List.flatMap_cons, List.length_append, hbefore,
        ← hfirst, hfull]
      refine ⟨by omega, by omega, ?_, ?_⟩
      · rw [hpayload, List.drop_drop]
        congr 2
        omega
      · rw [htime, UInt32.add_assoc, ← UInt32.ofNat_add, Nat.succ_mul,
          Nat.add_comm (limit / factor.toNat)]

/-- Every chunk of the data has its packet. -/
theorem exists_chunkPackets_split (factor : UInt32) {limit : ℕ}
    (hlimit : 0 < limit) (marker : UInt8) (timestamp : UInt32) (data : Bytes)
    {k : ℕ} (hk : k * limit < data.length) :
    ∃ before packet after, chunkPackets factor limit marker timestamp data =
      before ++ packet :: after ∧ before.length = k := by
  induction k generalizing timestamp data with
  | zero =>
      have hdata : data ≠ [] := List.ne_nil_of_length_pos (by omega)
      rw [chunkPackets_cons hdata hlimit]
      exact ⟨[], _, _, rfl, rfl⟩
  | succ k ih =>
      have hsucc : (k + 1) * limit = k * limit + limit := Nat.succ_mul _ _
      have hdata : data ≠ [] := List.ne_nil_of_length_pos (by omega)
      have hrest : k * limit < (data.drop limit).length := by
        rw [List.length_drop]
        omega
      obtain ⟨before, packet, after, hsplit, hlen⟩ := ih
        (if factor ≠ 0 then timestamp + UInt32.ofNat (limit / factor.toNat)
          else timestamp) (data.drop limit) hrest
      rw [chunkPackets_cons hdata hlimit, hsplit]
      exact ⟨_ :: before, packet, after, rfl, by rw [List.length_cons, hlen]⟩

/-! ## Exact timestamps -/

/-- Every packet carries the start timestamp plus the whole samples in front
of its payload, which starts where the payloads before it end. -/
def TimestampsExact (factor timestamp : UInt32) (data : Bytes)
    (packets : List RtpPacket) : Prop :=
  ∀ before packet after, packets = before ++ packet :: after →
    packet.payload <+:
        data.drop (before.flatMap RtpPacket.payload).length ∧
      packet.timestamp = timestamp + UInt32.ofNat
        ((before.flatMap RtpPacket.payload).length / factor.toNat)

/-- The remainders cut off in front of the last packet make no whole sample. -/
def RemaindersFit (limit : ℕ) (factor : UInt32) (data : Bytes) : Prop :=
  (data.length - 1) / limit * (limit % factor.toNat) < factor.toNat

instance (limit : ℕ) (factor : UInt32) (data : Bytes) :
    Decidable (RemaindersFit limit factor data) :=
  inferInstanceAs (Decidable (_ < _))

section Chunks

variable {factor : UInt32} {limit : ℕ} {marker : UInt8} {timestamp : UInt32}
  {data : Bytes}

theorem chunkPackets_exact (hfactor : factor ≠ 0) (hlimit : 0 < limit)
    (hfit : RemaindersFit limit factor data) :
    TimestampsExact factor timestamp data
      (chunkPackets factor limit marker timestamp data) := by
  intro before packet after hsplit
  obtain ⟨hlen, hlt, hpayload, htime⟩ :=
    chunkPackets_split hfactor hlimit hsplit
  have hindex : before.length ≤ (data.length - 1) / limit := by
    rw [Nat.le_div_iff_mul_le hlimit]
    omega
  have hsmall : before.length * (limit % factor.toNat) < factor.toNat :=
    (Nat.mul_le_mul_right _ hindex).trans_lt hfit
  rw [hlen, hpayload, htime, mul_div_eq, Nat.div_eq_of_lt hsmall, Nat.add_zero]
  exact ⟨List.take_prefix _ _, rfl⟩

/-- Once the remainders make a whole sample, some packet is one sample late. -/
theorem chunkPackets_not_exact (hfactor : factor ≠ 0) (hlimit : 0 < limit)
    (hfit : ¬ RemaindersFit limit factor data) :
    ¬ TimestampsExact factor timestamp data
      (chunkPackets factor limit marker timestamp data) := by
  intro hexact
  have hpos : 0 < factor.toNat := by
    apply Nat.pos_of_ne_zero
    intro hzero
    exact hfactor (UInt32.toNat_inj.mp hzero)
  obtain ⟨k, hk, hone⟩ := exists_mul_div_eq_one (Nat.mod_lt limit hpos)
    (Nat.not_lt.mp hfit)
  have hk_ne : k ≠ 0 := by
    rintro rfl
    rw [Nat.zero_mul, Nat.zero_div] at hone
    cases hone
  have hinside : k * limit < data.length := by
    have hle := (Nat.le_div_iff_mul_le hlimit).mp hk
    have hmul : 0 < k * limit :=
      Nat.mul_pos (Nat.pos_of_ne_zero hk_ne) hlimit
    omega
  obtain ⟨before, packet, after, hsplit, hbefore⟩ :=
    exists_chunkPackets_split factor hlimit marker timestamp data hinside
  obtain ⟨hlen, -, -, htime⟩ := chunkPackets_split hfactor hlimit hsplit
  have hclaim := (hexact before packet after hsplit).2
  rw [hlen, htime, mul_div_eq, hbefore, hone, UInt32.ofNat_add,
    ← UInt32.add_assoc] at hclaim
  exact absurd (UInt32.left_eq_add.mp hclaim) (by decide)

end Chunks

/-! ## Calls -/

/-- The packets that a call in sample mode emits have exact timestamps. -/
def CallTimestampsExact (platform : Platform) (sender : Sender) (data : Bytes)
    (timestamp ntpMsw ntpLsw : UInt32) (marker : UInt8) (w : World) : Prop :=
  ∃ status w', w6xRtpSenderSessionSendPacket platform (some sender) (some data)
      timestamp ntpMsw ntpLsw marker w = .ok (status, w') ∧
    TimestampsExact w.session.sampleFactor timestamp data
      (rtpPacketsBetween sender w w')

section Call

variable {sender : Sender} {data : Bytes} {timestamp ntpMsw ntpLsw : UInt32}
  {marker : UInt8} {w : World}

theorem callTimestampsExact_of_fit
    (hsockets : sender.rtcpSocket ≠ sender.rtpSocket) (hw : Sendable w)
    (hfactor : w.session.sampleFactor ≠ 0)
    (hfit : RemaindersFit sender.rtpPayloadMaxSize w.session.sampleFactor data)
    (platform : Platform) :
    CallTimestampsExact platform sender data timestamp ntpMsw ntpLsw marker
      w := by
  obtain ⟨status, w', packets, hcall, hemits, hprefix, -, -⟩ :=
    w6xRtpSenderSessionSendPacket_emits platform sender data ntpMsw ntpLsw
      marker hsockets timestamp hw
  refine ⟨status, w', hcall, ?_⟩
  rw [hemits.between]
  obtain ⟨unsent, hunsent⟩ := hprefix
  intro before packet after hsplit
  have hall : TimestampsExact w.session.sampleFactor timestamp data
      (chunkPackets w.session.sampleFactor sender.rtpPayloadMaxSize marker
        timestamp data) := chunkPackets_exact hfactor sender.payload_pos hfit
  apply hall before packet (after ++ unsent)
  rw [← hunsent, hsplit, List.append_assoc, List.cons_append]

theorem not_callTimestampsExact
    (hsockets : sender.rtcpSocket ≠ sender.rtpSocket) (hw : Sendable w)
    (hfactor : w.session.sampleFactor ≠ 0)
    (hfit : ¬ RemaindersFit sender.rtpPayloadMaxSize w.session.sampleFactor
      data) :
    ¬ CallTimestampsExact platformOk sender data timestamp ntpMsw ntpLsw marker
      w := by
  rintro ⟨status, w', hcall, hexact⟩
  obtain ⟨status', w'', packets, hcall', hemits, -, hwhole, hok⟩ :=
    w6xRtpSenderSessionSendPacket_emits platformOk sender data ntpMsw ntpLsw
      marker hsockets timestamp hw
  rw [hcall'] at hcall
  obtain ⟨rfl, rfl⟩ := Prod.mk.inj (Except.ok.inj hcall)
  rw [hemits.between, hwhole (hok allSent_platformOk)] at hexact
  exact chunkPackets_not_exact hfactor sender.payload_pos hfit hexact

/-- Timestamps in sample mode are exact on every network exactly when the
remainders in front of the last packet make no whole sample; the payload limit of
the sender is at most `rtpPayloadMaxSize`. -/
theorem callTimestampsExact_iff
    (hsockets : sender.rtcpSocket ≠ sender.rtpSocket) (hw : Sendable w)
    (hfactor : w.session.sampleFactor ≠ 0) :
    (∀ platform, CallTimestampsExact platform sender data timestamp ntpMsw
      ntpLsw marker w) ↔
      (data.length - 1) / sender.rtpPayloadMaxSize *
          (sender.rtpPayloadMaxSize % w.session.sampleFactor.toNat) <
        w.session.sampleFactor.toNat := by
  constructor
  · intro hexact
    by_contra hfit
    exact not_callTimestampsExact hsockets hw hfactor hfit (hexact platformOk)
  · intro hfit platform
    exact callTimestampsExact_of_fit hsockets hw hfactor hfit platform

end Call

/-- A session in sample mode. -/
def sampleSession (factor : UInt32) : Session :=
  { streamSession with sampleFactor := factor }

/-- Samples of four bytes divide the payload limit. -/
theorem callTimestampsExact_stereo :
    CallTimestampsExact platformOk streamSender (List.replicate 2321 0)
      0 0 0 0 (streamWorld (sampleSession 4)) := by
  have hexact : ∀ platform, CallTimestampsExact platform streamSender
      (List.replicate 2321 0) 0 0 0 0 (streamWorld (sampleSession 4)) := by
    apply (callTimestampsExact_iff (by decide) ⟨rfl, by decide⟩
      (by decide)).mpr
    rw [List.length_replicate]
    decide
  exact hexact platformOk

/-- Samples of three bytes do not: the packet from byte 2320 on carries 772
instead of 773. -/
theorem not_callTimestampsExact_packed :
    ¬ CallTimestampsExact platformOk streamSender (List.replicate 2321 0)
      0 0 0 0 (streamWorld (sampleSession 3)) := by
  apply not_callTimestampsExact (by decide) ⟨rfl, by decide⟩ (by decide)
  rw [RemaindersFit, List.length_replicate]
  decide

end RtpMulticast
