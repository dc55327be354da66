import RtpMulticast.Spi.BusSteps
import RtpMulticast.Support.StopAndWait
import Mathlib.Data.List.Forall2

/-!
# Delivery on the SPI bus

The transmit side of the bus is a stop-and-wait sender.  The peer looks at the message
in an exchange and tells in its own header whether it has room for it; the host frees
its buffer when it has seen such a header in a complete exchange.  If an exchange breaks
off the two may disagree, and the message is sent again.

On the receive side every message of a complete exchange goes through the queue of its
type, unchanged and in order.  A reader that has less room than the message is long gets
its front, and the rest is gone.
-/

namespace RtpMulticast

open ByteBuffer ByteMemory

namespace SpiBus

/-! ## To the peer -/

/-- The transmit side. -/
def sender (s : SpiBus) : StopAndWait SpiMessage where
  written := s.written
  queue := s.engine.txq.map SpiBuffer.message
  slot := s.slot
  taken := s.taken

/-- The messages that were written and are still in the transmit queue or the transmit
buffer. -/
def unsent (s : SpiBus) : List SpiMessage := s.sender.pending

/-- The exchange that the answers lead to. -/
def exchangeWith (s : SpiBus) (a : SpiAnswers) : Option SpiExchange :=
  match s.pc with
  | .transferring waitTxnRdy => (spiXferOne s.next waitTxnRdy a s.engine).toOption
  | _ => none

/-- When the host accepts the header of the peer, the peer takes what it is offered
exactly if it does not announce a stall.  When it does not, the peer may do either. -/
def Honest (s : SpiBus) : SpiAction → Prop
  | .exchange a takes =>
      ∀ r ∈ s.exchangeWith a, ∀ psh ∈ r.header, takes = !psh.stalled
  | _ => True

/-- No exchange breaks off once something was sent. -/
def Unbroken (s : SpiBus) : SpiAction → Prop
  | .exchange a _ => ∀ r ∈ s.exchangeWith a, r.mosi = [] ∨ r.ret = 0
  | _ => True

instance (s : SpiBus) : DecidablePred s.Honest
  | .exchange a takes =>
      inferInstanceAs (Decidable
        (∀ r ∈ s.exchangeWith a, ∀ psh ∈ r.header, takes = !psh.stalled))
  | .write .. | .notify | .readData .. | .readPtr .. | .release .. | .bind .. | .raise
  | .lower | .interrupt | .wake | .getTxbuf | .poll | .deliver | .headerAck .. =>
      isTrue trivial

instance (s : SpiBus) : DecidablePred s.Unbroken
  | .exchange a _ =>
      inferInstanceAs (Decidable (∀ r ∈ s.exchangeWith a, r.mosi = [] ∨ r.ret = 0))
  | .write .. | .notify | .readData .. | .readPtr .. | .release .. | .bind .. | .raise
  | .lower | .interrupt | .wake | .getTxbuf | .poll | .deliver | .headerAck .. =>
      isTrue trivial

section Sender

variable {s s' : SpiBus}

theorem readSpiMessage_nil : readSpiMessage [] = none := rfl

theorem offered_eq {rxStall : Bool} {slot msg : Option SpiMessage}
    (h : msg = if rxStall then none else slot) (takes : Bool) :
    (if takes then msg.toList else []) =
      if takes && msg.isSome then slot.toList else [] := by
  subst h
  cases takes <;> cases rxStall <;> cases slot <;> rfl

theorem sender_of_exchanged (s : SpiBus) (waitTxnRdy : Bool) (a : SpiAnswers)
    (takes : Bool) (r : SpiExchange) :
    (s.exchanged waitTxnRdy a takes r).sender =
      ⟨s.written, r.engine.txq.map SpiBuffer.message, r.engine.txbuf.map SpiBuffer.message,
        s.taken ++ if takes then (readSpiMessage r.mosi).toList else []⟩ := rfl

theorem sender_step_exchange (s : SpiBus) (takes frees : Bool) :
    s.sender.step (.exchange takes frees) =
      some ⟨s.written, s.engine.txq.map SpiBuffer.message, if frees then none else s.slot,
        s.taken ++ if takes then s.slot.toList else []⟩ := rfl

/-- An exchange of the bus is one of the sender. -/
theorem sender_exchanged {waitTxnRdy takes : Bool} {a : SpiAnswers} {r : SpiExchange}
    (hout : SpiOutcome s.next a s.engine s.slot r) :
    ∃ takes' frees,
      s.sender.step (.exchange takes' frees) =
          some (s.exchanged waitTxnRdy a takes r).sender ∧
        ((∀ psh ∈ r.header, takes = !psh.stalled) →
          (frees = true → takes' = true) ∧ (r.mosi = [] ∨ r.ret = 0 → frees = takes')) := by
  cases hout with
  | early =>
      refine ⟨false, false, ?_, fun _ => ⟨id, fun _ => rfl⟩⟩
      rw [sender_step_exchange, sender_of_exchanged]
      dsimp only
      rw [readSpiMessage_nil, Option.toList_none, ite_self]
      rfl
  | @broken txbuf mosi _ _ _ _ hsent =>
      refine ⟨takes && (readSpiMessage mosi).isSome, false, ?_, fun _ => ⟨?_, ?_⟩⟩
      · rw [sender_step_exchange, sender_of_exchanged, offered_eq hsent.sends]
        dsimp only
        rw [(holds_of_rel hsent.holds).1]
        rfl
      · rintro ⟨⟩
      · rintro (rfl | hret)
        · rw [readSpiMessage_nil, Option.isSome_none, Bool.and_false]
        · cases hret
  | @complete txbuf mosi _ psh taken _ r hsent htaken hstat hreceived =>
      have htxq : r.1.txq = s.engine.txq := by rw [hreceived.engine_eq]
      have htxbuf : r.1.txbuf.map SpiBuffer.message =
          if taken && s.slot.isSome then none else s.slot := by
        rw [hreceived.engine_eq]
        dsimp only
        cases taken with
        | true => cases s.slot <;> rfl
        | false => exact (holds_of_rel hsent.holds).1
      refine ⟨takes && (readSpiMessage mosi).isSome, taken && s.slot.isSome, ?_, ?_⟩
      · rw [sender_step_exchange, sender_of_exchanged, offered_eq hsent.sends]
        dsimp only
        rw [htxbuf, htxq]
      · intro hhonest
        have hagree : (taken && s.slot.isSome) =
            (takes && (readSpiMessage mosi).isSome) := by
          rw [hhonest psh rfl, htaken, hsent.sends]
          cases psh.stalled <;> cases s.engine.rxStall <;> rfl
        rw [hagree]
        exact ⟨id, fun _ => rfl⟩

/-- Every other step writes, loads, or leaves the sender alone. -/
theorem sender_effect {act : SpiAction} (he : Effect s act s') :
    s'.sender = s.sender ∨ ∃ b, s.sender.step b = some s'.sender ∧
      (s.Honest act → StopAndWait.Safe s.sender b) ∧
      (s.Honest act → s.Unbroken act → StopAndWait.Exact s.sender b) := by
  cases he with
  | writeQueued heap type data hroom hholds haddr =>
      refine Or.inr ⟨.write ⟨type, data⟩, ?_, fun _ => trivial, fun _ _ => trivial⟩
      simp [StopAndWait.step, sender, slot, hholds.message_eq]
  | load hpc hnone htxq =>
      refine Or.inr ⟨.load, ?_, fun _ => trivial, fun _ _ => trivial⟩
      simp [StopAndWait.step, sender, slot, hnone, htxq]
  | @exchange waitTxnRdy a takes r hpc hxfer hout =>
      have hr : r ∈ s.exchangeWith a := by
        rw [exchangeWith, hpc]
        dsimp only
        rw [hxfer]
        rfl
      obtain ⟨takes', frees, hstep, hagree⟩ := sender_exchanged hout
      refine Or.inr ⟨.exchange takes' frees, hstep, ?_, ?_⟩
      · intro hhonest
        exact (hagree (hhonest r hr)).1
      · intro hhonest hunbroken
        exact (hagree (hhonest r hr)).2 (hunbroken r hr)
  | _ => exact Or.inl rfl

end Sender

/-- Whatever breaks off, no message is lost or overtaken: the peer takes every message
that was written at least once before the host lets go of it, and all in order. -/
theorem delivered_at_least_once {s : SpiBus} (h : spiBus.ReachableVia Honest s) :
    s.sender.AtLeastOnce := by
  refine StopAndWait.at_least_once (h.simulate ?_ ?_)
  · rintro s ⟨level, rfl⟩
    rfl
  · intro s act s' hr hhonest hs
    obtain heq | ⟨b, hb, hsafe, -⟩ := sender_effect (step_effect (ready_of_reachable hr) hs)
    · exact Or.inl heq
    · exact Or.inr ⟨b, hsafe hhonest, hb⟩

/-- If no exchange breaks off, the peer takes every message exactly once. -/
theorem delivered_exactly_once {s : SpiBus}
    (h : spiBus.ReachableVia (fun s act => s.Honest act ∧ s.Unbroken act) s) :
    s.written = s.taken ++ s.unsent := by
  have hsender : StopAndWait.machine.ReachableVia StopAndWait.Exact s.sender := by
    apply h.simulate
    · rintro s ⟨level, rfl⟩
      rfl
    · intro s act s' hr hguard hs
      have heffect := step_effect (ready_of_reachable hr) hs
      obtain heq | ⟨b, hb, -, hexact⟩ := sender_effect heffect
      · exact Or.inl heq
      · exact Or.inr ⟨b, hexact hguard.1 hguard.2, hb⟩
  exact StopAndWait.exactly_once hsender

/-- A peer that takes what it gets and has nothing to say. -/
def idlePeer : SpiAnswers where
  txnRdy := true
  heap := some fun _ => 0
  first := ⟨true, true⟩
  miso := fun i => (SpiHeader.init 0 0).bytes.getD i 0
  second := ⟨true, true⟩
  resized := none

/-- One message goes to the peer. -/
def singleMessage : List SpiAction :=
  [.write (some fun _ => 0) 0 [65], .notify, .raise, .interrupt, .wake, .getTxbuf, .poll,
    .exchange idlePeer true, .headerAck true]

theorem singleMessage_run :
    ∃ s, spiBus.run (.initial false) singleMessage = some s ∧ s.taken = [⟨0, [65]⟩] :=
  Option.map_eq_some_iff.mp (by decide +kernel)

theorem delivered_at_least_once_single :
    ∃ s : SpiBus, s.taken = [⟨0, [65]⟩] ∧ s.sender.AtLeastOnce := by
  have hmeets : spiBus.Meets Honest (.initial false) singleMessage := by decide +kernel
  obtain ⟨s, hs, htaken⟩ := singleMessage_run
  exact ⟨s, htaken, delivered_at_least_once
    ((Machine.ReachableVia.init (M := spiBus) ⟨false, rfl⟩).run _ hmeets hs)⟩

theorem delivered_exactly_once_single :
    ∃ s : SpiBus, s.taken = [⟨0, [65]⟩] ∧ s.written = s.taken ++ s.unsent := by
  have hmeets : spiBus.Meets (fun s act => s.Honest act ∧ s.Unbroken act)
      (.initial false) singleMessage := by decide +kernel
  obtain ⟨s, hs, htaken⟩ := singleMessage_run
  exact ⟨s, htaken, delivered_exactly_once
    ((Machine.ReachableVia.init (M := spiBus) ⟨false, rfl⟩).run _ hmeets hs)⟩

/-! ## From the peer -/

/-- The messages of a type that the peer sent in complete exchanges while the type was
bound. -/
def heard (s : SpiBus) (type : ℕ) : List Bytes :=
  (s.sent.filter fun m => m.2 && decide (m.1.type.toNat = type)).map fun m => m.1.payload

/-- The messages in the receive queue of a type. -/
def queued (s : SpiBus) (type : ℕ) : List Bytes :=
  match s.engine.rxq type with
  | none => []
  | some (_, rxq) => rxq.map SpiBuffer.contents

/-- The message that waits for room in the queue of a type. -/
def inFlight (s : SpiBus) (type : ℕ) : List Bytes :=
  match s.pc with
  | .delivering t buf => if t = type then [buf.contents] else []
  | _ => []

/-- The reader got the message, or as much of its front as it had room for, and in that
case was told so. -/
def Gives (msg : Bytes) : SpiRead → Prop
  | .copied room data truncated =>
      data = msg.take room ∧ (truncated = true ↔ room < msg.length)
  | .buffer data => data = msg

/-- Of what was heard a reader was given each message, or it is queued or waits for room,
in this order. -/
def Accounted (s : SpiBus) (type : ℕ) : Prop :=
  ∃ given, s.heard type = given ++ s.queued type ++ s.inFlight type ∧
    List.Forall₂ Gives given (s.read type)

section Receiver

variable {s s' : SpiBus} {type : ℕ}

theorem queued_of_rxq {size : ℕ} {rxq : List SpiBuffer}
    (h : s.engine.rxq type = some (size, rxq)) :
    s.queued type = rxq.map SpiBuffer.contents := by
  rw [queued, h]

theorem queued_congr (h : s'.engine.rxq type = s.engine.rxq type) :
    s'.queued type = s.queued type := by
  rw [queued, h, queued]

theorem gives_of_spiReadData {room : ℕ} {buf : SpiBuffer} {ret : ℤ} {truncated : Bool}
    {data : Bytes} (h : buf.Carries buf.contents)
    (hread : spiReadData room buf = .ok (ret, truncated, data)) :
    Gives buf.contents (.copied room data truncated) := by
  rw [spiReadData_ok h] at hread
  cases hread
  exact ⟨rfl, decide_eq_true_iff⟩

/-- A reader takes the first message of a queue. -/
theorem accounted_read {t size : ℕ} {buf : SpiBuffer} {rxq : List SpiBuffer} {got : SpiRead}
    (h : s.Accounted type) (hrxq : s.engine.rxq t = some (size, buf :: rxq))
    (hrxq' : s'.engine.rxq = Function.update s.engine.rxq t (some (size, rxq)))
    (hread : s'.read = Function.update s.read t (s.read t ++ [got]))
    (hgot : Gives buf.contents got)
    (hsent : s'.sent = s.sent) (hpc : s'.pc = s.pc) : s'.Accounted type := by
  have hheard : s'.heard type = s.heard type := by rw [heard, hsent, heard]
  have hflight : s'.inFlight type = s.inFlight type := by rw [inFlight, hpc, inFlight]
  obtain ⟨given, hgiven, hgives⟩ := h
  rw [Accounted, hheard, hflight, hgiven]
  by_cases ht : type = t
  · subst ht
    have hself : s'.engine.rxq type = some (size, rxq) := by
      rw [hrxq', Function.update_self]
    refine ⟨given ++ [buf.contents], ?_, ?_⟩
    · rw [queued_of_rxq hrxq, queued_of_rxq hself]
      simp only [List.map_cons, List.append_assoc, List.cons_append, List.nil_append]
    · rw [hread, Function.update_self]
      exact List.rel_append hgives (.cons hgot .nil)
  · have hqueued : s'.queued type = s.queued type :=
      queued_congr (by rw [hrxq', Function.update_of_ne ht])
    refine ⟨given, by rw [hqueued], ?_⟩
    rw [hread, Function.update_of_ne ht]
    exact hgives

theorem heard_append {msg : SpiMessage} {bound : Bool}
    (h : s'.sent = s.sent ++ [(msg, bound)]) :
    s'.heard type =
      s.heard type ++ if bound && decide (msg.type.toNat = type) then [msg.payload] else [] := by
  rw [heard, h, List.filter_append, List.map_append, heard]
  cases hkeep : bound && decide (msg.type.toNat = type) with
  | true => simp [hkeep]
  | false => simp [hkeep]

theorem inFlight_transferring {wait : Bool} (h : s.pc = .transferring wait) :
    s.inFlight type = [] := by
  rw [inFlight, h]

theorem inFlight_delivering {t : ℕ} {buf : SpiBuffer} (h : s.pc = .delivering t buf) :
    s.inFlight type = if t = type then [buf.contents] else [] := by
  rw [inFlight, h]

theorem inFlight_acking (h : s.pc = .acking) : s.inFlight type = [] := by
  rw [inFlight, h]

/-- A message whose type is bound waits for room behind the exchange. -/
theorem accounted_arrived {wait : Bool} {msg : SpiMessage} {buf : SpiBuffer}
    (h : s.Accounted type) (hpc : s.pc = .transferring wait)
    (hrxq : s'.engine.rxq = s.engine.rxq) (hread : s'.read = s.read)
    (hsent : s'.sent = s.sent ++ [(msg, true)])
    (hpc' : s'.pc = .delivering msg.type.toNat buf) (hbuf : buf.contents = msg.payload) :
    s'.Accounted type := by
  have hqueued : s'.queued type = s.queued type := queued_congr (congrFun hrxq type)
  obtain ⟨given, hgiven, hgives⟩ := h
  refine ⟨given, ?_, hread ▸ hgives⟩
  rw [heard_append hsent, hgiven, inFlight_transferring hpc, hqueued,
    inFlight_delivering hpc', hbuf]
  simp

theorem accounted_exchanged {waitTxnRdy wait takes : Bool} {a : SpiAnswers}
    {r : SpiExchange} (h : s.Accounted type) (hpc : s.pc = .transferring wait)
    (hout : SpiOutcome s.next a s.engine s.slot r) :
    (s.exchanged waitTxnRdy a takes r).Accounted type := by
  obtain ⟨given, hgiven, hgives⟩ := h
  have hidle : s.heard type = given ++ s.queued type := by
    rw [hgiven, inFlight_transferring hpc, List.append_nil]
  cases hout with
  | early =>
      refine ⟨given, ?_, hgives⟩
      simpa [heard, exchanged, queued, inFlight] using hidle
  | broken =>
      refine ⟨given, ?_, hgives⟩
      simpa [heard, exchanged, queued, inFlight] using hidle
  | complete hsent htaken hstat hreceived =>
      generalize hmsg : a.message = msg at hreceived
      cases hreceived with
      | nothing =>
          refine ⟨given, ?_, hgives⟩
          simpa [heard, exchanged, queued, inFlight, hmsg] using hidle
      | dropped hunbound =>
          have hflag : decide (s.engine.Bound _) = false := decide_eq_false hunbound
          refine ⟨given, ?_, hgives⟩
          simpa [heard, exchanged, queued, inFlight, hmsg, hflag] using hidle
      | kept hbound hcarries =>
          have hflag : decide (s.engine.Bound _) = true := decide_eq_true hbound
          refine accounted_arrived ⟨given, hgiven, hgives⟩ hpc rfl rfl ?_ rfl hcarries.contents
          simp [exchanged, hmsg, hflag]
      | moved hbound hcarries =>
          have hflag : decide (s.engine.Bound _) = true := decide_eq_true hbound
          refine accounted_arrived ⟨given, hgiven, hgives⟩ hpc rfl rfl ?_ rfl hcarries.contents
          simp [exchanged, hmsg, hflag]

theorem accounted_bind {t size : ℕ} (h : s.Accounted type) (hnone : s.engine.rxq t = none)
    (hrxq : s'.engine.rxq = Function.update s.engine.rxq t (some (size, [])))
    (hread : s'.read = s.read) (hsent : s'.sent = s.sent) (hpc : s'.pc = s.pc) :
    s'.Accounted type := by
  have hqueued : s'.queued type = s.queued type := by
    by_cases ht : type = t
    · have hself : s'.engine.rxq type = some (size, []) := by
        rw [hrxq, ht, Function.update_self]
      rw [queued_of_rxq hself, queued, ht, hnone]
      rfl
    · exact queued_congr (by rw [hrxq, Function.update_of_ne ht])
  rw [Accounted, hread, hqueued, heard, hsent, inFlight, hpc]
  exact h

theorem accounted_deliver {t size : ℕ} {buf : SpiBuffer} {rxq : List SpiBuffer}
    (h : s.Accounted type) (hpc : s.pc = .delivering t buf)
    (hrxq : s.engine.rxq t = some (size, rxq))
    (hrxq' : s'.engine.rxq = Function.update s.engine.rxq t (some (size, rxq ++ [buf])))
    (hread : s'.read = s.read) (hsent : s'.sent = s.sent) (hpc' : s'.pc = .acking) :
    s'.Accounted type := by
  have hheard : s'.heard type = s.heard type := by rw [heard, hsent, heard]
  obtain ⟨given, hgiven, hgives⟩ := h
  rw [inFlight_delivering hpc] at hgiven
  refine ⟨given, ?_, hread ▸ hgives⟩
  rw [inFlight_acking hpc', hheard, hgiven]
  by_cases ht : type = t
  · subst ht
    have hself : s'.engine.rxq type = some (size, rxq ++ [buf]) := by
      rw [hrxq', Function.update_self]
    rw [queued_of_rxq hrxq, queued_of_rxq hself, if_pos rfl, List.map_append,
      List.append_nil, List.append_assoc]
    rfl
  · have hother : s'.queued type = s.queued type :=
      queued_congr (by rw [hrxq', Function.update_of_ne ht])
    rw [hother, if_neg (Ne.symm ht)]

theorem accounted_effect {act : SpiAction} (hready : s.Ready) (he : Effect s act s')
    (h : s.Accounted type) : s'.Accounted type := by
  cases he with
  | readData t room hrxq hread =>
      have hcarries := hready.rxq _ _ _ hrxq _ List.mem_cons_self
      exact accounted_read h hrxq rfl rfl (gives_of_spiReadData hcarries hread) rfl rfl
  | readPtr t hrxq => exact accounted_read h hrxq rfl rfl rfl rfl rfl
  | bind t rxqSize created hsize ht hnone => exact accounted_bind h hnone rfl rfl rfl rfl
  | exchange takes hpc hxfer hout => exact accounted_exchanged h hpc hout
  | deliver hpc hrxq hroom => exact accounted_deliver h hpc hrxq rfl rfl rfl rfl
  | wake hpc | noTxbuf hpc | load hpc | transfer hpc | sleep hpc | headerAck acked hpc =>
      rw [Accounted, inFlight, hpc] at h
      exact h
  | _ => exact h

end Receiver

/-- Every message that the peer sends in a complete exchange is given to one reader of
its type, in order and unchanged as far as that reader has room for it. -/
theorem received_exactly_once {s : SpiBus} (h : spiBus.Reachable s) (type : ℕ) :
    ∃ given, s.heard type = given ++ s.queued type ++ s.inFlight type ∧
      List.Forall₂ Gives given (s.read type) := by
  revert type
  apply h.strengthen
  · rintro s ⟨level, rfl⟩ type
    exact ⟨[], rfl, .nil⟩
  · intro s act s' hr haccounted _ hs type
    have hready := ready_of_reachable hr
    exact accounted_effect hready (step_effect hready hs) (haccounted type)

/-- The peer sends two bytes, which take a second transaction. -/
def talkingPeer : SpiAnswers :=
  { idlePeer with miso := fun i => ((SpiHeader.init 0 2).bytes ++ [66, 67]).getD i 0 }

/-- The steps of the task from the moment it looks for something to send until a message
of the peer is in its queue. -/
def receiveRound : List SpiAction :=
  [.getTxbuf, .poll, .exchange talkingPeer false, .deliver]

/-- Three messages, of which one is read whole, one into a single byte, and one as a
buffer; a fourth one is still in the queue. -/
def readingRun : List SpiAction :=
  [.bind 0 8 true, .wake] ++ receiveRound ++ [.headerAck true, .lower, .raise, .interrupt] ++
    receiveRound ++ [.headerAck true, .lower, .raise, .interrupt] ++ receiveRound ++
    [.headerAck true, .lower, .raise, .interrupt] ++ receiveRound ++
    [.readData 0 1520, .readData 0 1, .readPtr 0]

theorem received_exactly_once_truncated :
    ∃ s : SpiBus,
      s.read 0 = [.copied 1520 [66, 67] false, .copied 1 [66] true, .buffer [66, 67]] ∧
      s.queued 0 = [[66, 67]] ∧
      ∃ given, s.heard 0 = given ++ s.queued 0 ++ s.inFlight 0 ∧
        List.Forall₂ Gives given (s.read 0) := by
  obtain ⟨s, hs, hread⟩ : ∃ s, spiBus.run (.initial true) readingRun = some s ∧
      (s.read 0, s.queued 0) =
        ([.copied 1520 [66, 67] false, .copied 1 [66] true, .buffer [66, 67]], [[66, 67]]) :=
    Option.map_eq_some_iff.mp (by decide +kernel)
  obtain ⟨hread, hqueued⟩ := Prod.mk.inj hread
  exact ⟨s, hread, hqueued,
    received_exactly_once (Machine.reachable_of_run ⟨true, rfl⟩ _ hs) 0⟩

end SpiBus

end RtpMulticast
