import Mathlib.Logic.Function.Basic
import RtpMulticast.Support.Machine
import RtpMulticast.Rtp.Sending
import RtpMulticast.Rtp.CompoundPacket

/-!
# The receive task beside sending tasks

Any number of tasks call `w6x_rtp_sender_session_send_packet` on sessions of
one sender; each holds the mutex of the sender for its whole send loop.  The
receive task walks through datagrams and only tries the mutex in the report
handler.  The critical section of that handler is one step here: a send call
that waits for it takes the mutex afterwards.

A report whose lock attempt fails is dropped with all that follows it in the
datagram; a compound packet whose own attempts do not fail is handled completely,
whatever became of the datagrams before it.
-/

namespace RtpMulticast

open ByteBuffer Rfc3550

/-! ## The system -/

/-- Where the receive task is. -/
inductive RecvPc where
  | idle
  | walking (datagram : Bytes) (header : ℕ) (rx : RtcpRx)
  | done (datagram : Bytes) (status : RtpStatus) (rx : RtcpRx)
  deriving DecidableEq, Repr

section Steps

variable {platform : Platform} {sender : Sender} {s s' : SenderSystem}
  {task : ℕ}

end Steps

/-! ## Runs refine the sequential walk -/

section Refinement

variable {platform : Platform} {sender : Sender}

/-- The way to a header depends on the lock outcomes before it only. -/
theorem RtcpVisited.congr {free free' : ℕ → Bool} {datagram : Bytes}
    {header : ℕ} {rx : RtcpRx}
    (h : RtcpVisited sender free datagram header rx)
    (hagree : ∀ k, k < header → free k = free' k) :
    RtcpVisited sender free' datagram header rx := by
  induction h with
  | first haccepted => exact .first haccepted
  | @next header next rx rx' hprev hbody hfit ih =>
      have hlt := rtcpBody_next hbody
      rw [hagree header (by omega)] at hbody
      exact .next (ih fun k hk => hagree k (by omega)) hbody hfit

end Refinement

/-! ## Lock attempts while a sending task holds the mutex -/

def compoundBytes (packets : List Packet) : Bytes :=
  packets.flatMap Packet.encode

/-- A compound packet: a sender or receiver report comes first, and no source
description is one that loses a name. -/
structure CompoundOk (packets : List Packet) : Prop where
  first : ∃ packet rest, packets = packet :: rest ∧
    packet.type &&& rtcpHeaderTypeMask = rtcpHeaderTypeSr
  readable : ∀ packet ∈ packets, PacketReadable packet

/-- The receive task at `header` has handled a front part of the packets and has
the rest of the datagram before it. -/
def AtPacket (sender : Sender) (packets : List Packet) (more : Bytes)
    (header : ℕ) (rx : RtcpRx) : Prop :=
  ∃ handled packet todo, packets = handled ++ packet :: todo ∧
    header ≤ rx.packet.length ∧
    rx.packet.length = (compoundBytes packets ++ more).length ∧
    rx.packet.drop header = packet.encode ++ (compoundBytes todo ++ more) ∧
    Handled sender handled rx

/-- The packets were handled before all that was handled behind them. -/
def Passed (sender : Sender) (packets : List Packet) (rx : RtcpRx) : Prop :=
  ∃ rx₀ : RtcpRx, Handled sender packets rx₀ ∧ rx₀.calls <+: rx.calls ∧
    rx₀.walked <+: rx.walked

/-- The walk ended at a report with a block, and the packets in front of it were
handled. -/
def Dropped (sender : Sender) (packets : List Packet) (status : RtpStatus)
    (rx : RtcpRx) : Prop :=
  status = .errorRtos ∧ ∃ handled report todo header rx₀,
    packets = handled ++ .report report :: todo ∧ report.blocks ≠ [] ∧
      Handled sender handled rx₀ ∧ rx = rtcpFramed header rx₀

/-- Where the receive task may be on a datagram that begins with `packets` when no
lock attempt of the datagram failed. -/
def RecvPc.Complete (sender : Sender) (packets : List Packet) (more : Bytes) :
    RecvPc → Prop
  | .idle => True
  | .walking datagram header rx =>
      datagram = compoundBytes packets ++ more →
        AtPacket sender packets more header rx ∨
          (Passed sender packets rx ∧ 4 ≤ more.length)
  | .done datagram status rx =>
      datagram = compoundBytes packets ++ more →
        Passed sender packets rx ∧
          (more.length < 4 → status = .ok ∧ Handled sender packets rx)

/-- The same when one may have failed. -/
def RecvPc.Settled (sender : Sender) (packets : List Packet) (more : Bytes) :
    RecvPc → Prop
  | .done datagram status rx =>
      datagram = compoundBytes packets ++ more →
        (RecvPc.done datagram status rx).Complete sender packets more ∨
          Dropped sender packets status rx
  | pc => pc.Complete sender packets more

theorem RecvPc.Complete.settled {sender : Sender} {packets : List Packet}
    {more : Bytes} {pc : RecvPc} (h : pc.Complete sender packets more) :
    pc.Settled sender packets more := by
  cases pc with
  | done datagram status rx => exact fun _ => .inl h
  | idle => exact h
  | walking datagram header rx => exact h

section Complete

variable {platform : Platform} {sender : Sender} {packets : List Packet}
  {more : Bytes}

/-- One iteration takes the receive task to the next packet or behind the last. -/
theorem AtPacket.step (hid : sender.id = rtpSenderId)
    (hrr : sender.rtcpRrCb = true)
    (hdistinct : (sender.session.map Session.ssrc).Nodup)
    (hok : CompoundOk packets) {header : ℕ} {rx : RtcpRx}
    (hat : AtPacket sender packets more header rx) {mutexFree : Bool}
    (hfree : LockAttempt sender header rx → mutexFree = true) :
    ∃ next rx', rtcpBody sender mutexFree (compoundBytes packets ++ more).length
        header rx = .ok (.ok, next, rx') ∧
      ((next + 4 ≤ (compoundBytes packets ++ more).length ∧
          AtPacket sender packets more next rx') ∨
        (Handled sender packets rx' ∧
          (next + 4 ≤ (compoundBytes packets ++ more).length ↔
            4 ≤ more.length))) := by
  obtain ⟨handled, packet, todo, hsplit, hle, hlen, hdrop, hhandled⟩ := hat
  have hreadable : PacketReadable packet := by
    apply hok.readable
    rw [hsplit]
    simp
  obtain ⟨rx', hbody, hlen', hdrop', hhandled'⟩ := rtcpBody_packet hid hrr
    hdistinct hreadable hle hdrop hhandled hfree
  have hrest : rx.packet.length - header =
      packet.encode.length + (compoundBytes todo ++ more).length := by
    rw [← List.length_drop, hdrop, List.length_append]
  rw [hlen] at hbody
  refine ⟨_, rx', hbody, ?_⟩
  cases todo with
  | nil =>
      have hmore : (compoundBytes [] ++ more).length = more.length := rfl
      rw [hmore] at hrest
      refine Or.inr ⟨?_, by omega⟩
      rw [hsplit]
      exact hhandled'
  | cons next todo =>
      have hnext := next.length_encode
      have hwords := next.words_pos
      have hbytes : compoundBytes (next :: todo) ++ more =
          next.encode ++ (compoundBytes todo ++ more) := List.append_assoc _ _ _
      rw [hbytes, List.length_append] at hrest
      refine Or.inl ⟨by omega, handled ++ [packet], next, todo, ?_, ?_, ?_, ?_,
        hhandled'⟩
      · rw [hsplit, List.append_assoc]
        rfl
      · rw [hlen']
        omega
      · rw [hlen', hlen]
      · rw [hdrop', hbytes]

/-- A failed attempt is one for a report with a block. -/
theorem AtPacket.dropped {header : ℕ} {rx : RtcpRx}
    (hat : AtPacket sender packets more header rx)
    (hattempt : LockAttempt sender header rx) :
    Dropped sender packets .errorRtos (rtcpFramed header rx) := by
  obtain ⟨handled, packet, todo, hsplit, hle, -, hdrop, hhandled⟩ := hat
  obtain ⟨buf, calls, walked⟩ := rx
  obtain ⟨pre, rfl, rfl⟩ : ∃ pre : Bytes,
      buf = pre ++ (packet.encode ++ (compoundBytes todo ++ more)) ∧
        header = pre.length := by
    refine ⟨buf.take header, ?_, (List.length_take_of_le hle).symm⟩
    rw [← hdrop]
    exact (List.take_append_drop header buf).symm
  obtain ⟨report, rfl, hblocks⟩ := report_of_lockAttempt pre _ calls walked hattempt
  exact ⟨rfl, handled, report, todo, pre.length, _, hsplit, hblocks, hhandled, rfl⟩

/-- An iteration behind the packets. -/
theorem Passed.step {header next : ℕ} {rx rx' : RtcpRx} {status : RtpStatus}
    {mutexFree : Bool} (hid : sender.id = rtpSenderId)
    (hfit : header + 4 ≤ rx.packet.length) (h : Passed sender packets rx)
    (hbody : rtcpBody sender mutexFree rx.packet.length header rx =
      .ok (status, next, rx')) : Passed sender packets rx' := by
  obtain ⟨rx₀, hhandled, hcalls, hwalked⟩ := h
  obtain ⟨hcalls', hwalked'⟩ := rtcpBody_extends hid hfit hbody
  exact ⟨rx₀, hhandled, hcalls.trans hcalls', hwalked.trans hwalked'⟩

end Complete

/-! ## A report that is dropped and one that is not -/

end RtpMulticast
