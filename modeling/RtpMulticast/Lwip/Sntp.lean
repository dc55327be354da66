import RtpMulticast.Support.ByteBuffer
import RtpMulticast.Support.Machine
import RtpMulticast.Support.TimeoutList

/-!
# Polling a time server

The SNTP client of `sntp.c`.  All of it runs from two timeouts of lwIP, from the
answers to its DNS queries and from the datagrams it receives; every handler
arms the next timeout, starts a query, or stops the client.
-/

namespace RtpMulticast

open ByteBuffer TimeoutList

/-- The functions given to `sys_timeout`. -/
inductive SntpHandler where
  | request
  | retry
  deriving DecidableEq, Repr

/-- `SNTP_UPDATE_DELAY`. -/
def sntpUpdateDelay : ℕ := 360000

/-- `SNTP_RECV_TIMEOUT`. -/
def sntpRecvTimeout : ℕ := 15000

/-- `SNTP_RETRY_TIMEOUT`. -/
def sntpRetryTimeout : ℕ := sntpRecvTimeout

/-- `SNTP_STARTUP_DELAY`. -/
def sntpStartupDelay : ℕ := 5000

/-- `SNTP_SERVER_ADDRESS`. -/
def sntpServerAddress : String := "pool.ntp.org"

/-- `SNTP_MSG_LEN`. -/
def sntpMsgLen : ℕ := 48

/-- The client context.  Addresses are numbers, the unspecified one is zero; of
the date only the timestamp is kept, and the UDP control block is there as long
as the context is. -/
structure SntpContext where
  name : Option String
  addr : ℕ
  reachability : UInt8
  timezoneOffset : Int
  timestamp : UInt32
  deriving DecidableEq, Repr

/-- The client, the timeouts of lwIP for it, its DNS queries that wait for their
callback, and the link of the station interface. -/
structure Sntp where
  ctx : Option SntpContext
  timeouts : List (Timeout SntpHandler)
  dnsQueries : ℕ
  linkUp : Bool
  deriving DecidableEq, Repr

/-! ## The functions -/

def Sntp.arm (s : Sntp) (msecs : ℕ) (h : SntpHandler) : Sntp :=
  { s with timeouts := sysTimeout s.timeouts msecs h }

def Sntp.cancel (s : Sntp) (h : SntpHandler) : Sntp :=
  { s with timeouts := sysUntimeout s.timeouts h }

/-- `sntp_init` with the memory that `pvPortMalloc` returns, of which it sets
two fields. -/
def Sntp.init (s : Sntp) (timezoneOffset : Int) (fresh : Option SntpContext)
    (pcb : Bool) : Sntp × Int :=
  match s.ctx, fresh with
  | some _, _ => (s, 0)
  | none, none => (s, -1)
  | none, some memory =>
      if pcb then
        (Sntp.arm
          { s with
            ctx := some { memory with name := some sntpServerAddress, timezoneOffset } }
          sntpStartupDelay .request, 0)
      else (s, -1)

def Sntp.stop (s : Sntp) : Sntp :=
  match s.ctx with
  | some _ => { (s.cancel .request).cancel .retry with ctx := none }
  | none => s

def Sntp.setserver (s : Sntp) (serverAddr : Option ℕ) : Sntp :=
  { s with ctx := s.ctx.map fun c => { c with addr := serverAddr.getD 0, name := none } }

def Sntp.retry (s : Sntp) : Sntp :=
  (s.cancel .request).arm sntpRetryTimeout .request

/-- `sntp_process`: the seconds since 1900 in the timezone, then since 1970. -/
def sntpProcess (c : SntpContext) (sec : UInt32) : SntpContext :=
  { c with
    timestamp := sec + UInt32.ofInt (c.timezoneOffset * 3600) - 2208988800 }

/-- How `sntp_recv` takes a datagram. -/
inductive SntpRecv where
  /-- An answer, with the seconds of its transmit timestamp. -/
  | answer (sec : UInt32)
  | kissOfDeath
  | ignored
  deriving DecidableEq, Repr

def sntpRecvOf (p : Bytes) : SntpRecv :=
  if p.length = sntpMsgLen then
    if p.getD 0 0 &&& 7 = 4 then
      if p.getD 1 0 = 0 then .kissOfDeath
      else
        .answer (u32OfBytes (p.getD 43 0) (p.getD 42 0) (p.getD 41 0) (p.getD 40 0))
    else .ignored
  else .ignored

def Sntp.recv (s : Sntp) (p : Bytes) : Sntp :=
  match s.ctx with
  | none => s
  | some c =>
      match sntpRecvOf p with
      | .answer sec =>
          let c' := sntpProcess c sec
          let s' :=
            { s with ctx := some { c' with reachability := c'.reachability ||| 1 } }
          ((s'.cancel .retry).cancel .request).arm sntpUpdateDelay .request
      | .kissOfDeath => s.retry
      | .ignored => s

/-- `sntp_send_request`; `buffer` tells whether `pbuf_alloc` succeeds. -/
def Sntp.sendRequest (s : Sntp) (buffer : Bool) : Sntp :=
  match s.ctx with
  | none => s
  | some c =>
      if buffer then
        let s' := { s with ctx := some { c with reachability := c.reachability <<< 1 } }
        (s'.cancel .retry).arm sntpRecvTimeout .retry
      else (s.cancel .request).arm sntpRetryTimeout .request

/-- `sntp_dns_found` with the address, if there is one. -/
def Sntp.dnsFound (s : Sntp) (ipaddr : Option ℕ) (buffer : Bool) : Sntp :=
  match s.ctx with
  | none => s
  | some c =>
      match ipaddr with
      | some addr => Sntp.sendRequest { s with ctx := some { c with addr } } buffer
      | none => if s.linkUp then s.retry else s.stop

/-- Answers of `dns_gethostbyname`. -/
inductive DnsAnswer where
  | inProgress
  | found (addr : ℕ)
  | failed
  deriving DecidableEq, Repr

/-- The end of `sntp_request` without an address. -/
def Sntp.requestFailed (s : Sntp) : Sntp :=
  if s.linkUp then (s.cancel .retry).arm sntpRetryTimeout .retry else s.stop

def Sntp.request (s : Sntp) (dns : DnsAnswer) (buffer : Bool) : Sntp :=
  match s.ctx with
  | none => s
  | some c =>
      match c.name with
      | some _ =>
          -- The name is resolved anew for every request.
          let s' := { s with ctx := some { c with addr := 0 } }
          match dns with
          | .inProgress => { s' with dnsQueries := s'.dnsQueries + 1 }
          | .found addr => Sntp.sendRequest { s with ctx := some { c with addr } } buffer
          | .failed => s'.requestFailed
      | none => if c.addr = 0 then s.requestFailed else s.sendRequest buffer

/-! ## Runs -/

inductive SntpAction where
  | init (timezoneOffset : Int) (fresh : Option SntpContext) (pcb : Bool)
  | stop
  | setserver (serverAddr : Option ℕ)
  /-- The timeout of `sntp_request` expires. -/
  | expireRequest (dns : DnsAnswer) (buffer : Bool)
  /-- The timeout of `sntp_retry` expires. -/
  | expireRetry
  /-- A DNS query is answered. -/
  | dnsFound (ipaddr : Option ℕ) (buffer : Bool)
  | recv (p : Bytes)
  | link (up : Bool)
  deriving DecidableEq, Repr

/-- A timeout that expires is removed before its handler is called. -/
def Sntp.step (s : Sntp) : SntpAction → Option Sntp
  | .init timezoneOffset fresh pcb => some (s.init timezoneOffset fresh pcb).1
  | .stop => some s.stop
  | .setserver serverAddr => some (s.setserver serverAddr)
  | .expireRequest dns buffer =>
      if pending s.timeouts .request = 0 then none
      else some ((s.cancel .request).request dns buffer)
  | .expireRetry =>
      if pending s.timeouts .retry = 0 then none
      else some (s.cancel .retry).retry
  | .dnsFound ipaddr buffer =>
      if s.dnsQueries = 0 then none
      else some (Sntp.dnsFound { s with dnsQueries := s.dnsQueries - 1 } ipaddr buffer)
  | .recv p => some (s.recv p)
  | .link up => some { s with linkUp := up }

def sntp : Machine Sntp SntpAction where
  init s := ∃ linkUp, s = ⟨none, [], 0, linkUp⟩
  step := Sntp.step

/-! ## Polling goes on -/

/-- No timeout is pending twice, and none is pending without a client. -/
structure Sntp.Few (s : Sntp) : Prop where
  once : ∀ h, pending s.timeouts h ≤ 1
  stopped : s.ctx = none → s.timeouts = []

/-- While there is a client, something is going to call it. -/
structure Sntp.Polling (s : Sntp) : Prop extends s.Few where
  alive : s.ctx ≠ none →
    0 < pending s.timeouts .request ∨ 0 < pending s.timeouts .retry ∨
      0 < s.dnsQueries

section Handlers

variable {s : Sntp} {c : SntpContext}

/-- Cancelling a handler leaves it not pending, if it was so once. -/
theorem Sntp.Few.cancel (h : s.Few) (k : SntpHandler) :
    (s.cancel k).Few ∧ pending (s.cancel k).timeouts k = 0 := by
  have hnone : pending (s.cancel k).timeouts k = 0 := by
    have honce := h.once k
    simp only [Sntp.cancel, pending_sysUntimeout_self]
    omega
  refine ⟨⟨fun j => ?_, fun hctx => ?_⟩, hnone⟩
  · by_cases hj : j = k
    · rw [hj, hnone]
      exact Nat.zero_le _
    · simp only [Sntp.cancel, pending_sysUntimeout_of_ne hj]
      exact h.once j
  · simp only [Sntp.cancel, h.stopped hctx]
    rfl

/-- A client that cancels a handler and arms it anew goes on. -/
theorem Sntp.Few.rearm (h : s.Few) (hctx : s.ctx = some c) (k : SntpHandler)
    (msecs : ℕ) : ((s.cancel k).arm msecs k).Polling := by
  obtain ⟨hfew, hnone⟩ := h.cancel k
  have hone : pending ((s.cancel k).arm msecs k).timeouts k = 1 := by
    simp only [Sntp.arm, pending_sysTimeout_self, hnone]
  refine ⟨⟨fun j => ?_, fun hnot => ?_⟩, fun _ => ?_⟩
  · by_cases hj : j = k
    · rw [hj, hone]
    · simp only [Sntp.arm, pending_sysTimeout_of_ne hj]
      exact hfew.once j
  · change s.ctx = none at hnot
    rw [hctx] at hnot
    cases hnot
  · cases k with
    | request => exact Or.inl (by rw [hone]; exact Nat.one_pos)
    | retry => exact Or.inr (Or.inl (by rw [hone]; exact Nat.one_pos))

/-- The fields of the context do not matter. -/
theorem Sntp.Few.setCtx (h : s.Few) (c' : SntpContext) :
    Sntp.Few { s with ctx := some c' } := by
  refine ⟨h.once, fun hnot => ?_⟩
  cases hnot

theorem Sntp.Few.stop (h : s.Few) : s.stop.ctx = none ∧ s.stop.timeouts = [] := by
  unfold Sntp.stop
  cases hctx : s.ctx with
  | none => exact ⟨hctx, h.stopped hctx⟩
  | some c =>
      obtain ⟨hfew, hrequest⟩ := h.cancel .request
      obtain ⟨-, hretry⟩ := hfew.cancel .retry
      refine ⟨rfl, eq_nil_of_pending fun k => ?_⟩
      cases k with
      | request =>
          change pending (sysUntimeout _ _) _ = 0
          rw [pending_sysUntimeout_of_ne (by decide)]
          exact hrequest
      | retry => exact hretry

theorem Sntp.Few.stop_polling (h : s.Few) : s.stop.Polling := by
  obtain ⟨hctx, hnil⟩ := h.stop
  refine ⟨⟨fun k => ?_, fun _ => hnil⟩, fun hsome => absurd hctx hsome⟩
  rw [hnil]
  exact Nat.zero_le _

theorem Sntp.Few.retry (h : s.Few) (hctx : s.ctx = some c) : s.retry.Polling :=
  h.rearm hctx .request _

theorem Sntp.Few.sendRequest (h : s.Few) (hctx : s.ctx = some c) (buffer : Bool) :
    (s.sendRequest buffer).Polling := by
  unfold Sntp.sendRequest
  simp only [hctx]
  split
  · exact (h.setCtx _).rearm rfl .retry _
  · exact h.rearm hctx .request _

theorem Sntp.Few.requestFailed (h : s.Few) (hctx : s.ctx = some c) :
    s.requestFailed.Polling := by
  unfold Sntp.requestFailed
  split
  · exact h.rearm hctx .retry _
  · exact h.stop_polling

theorem Sntp.Few.request (h : s.Few) (dns : DnsAnswer) (buffer : Bool)
    (hctx : s.ctx = some c) : (s.request dns buffer).Polling := by
  unfold Sntp.request
  simp only [hctx]
  cases hname : c.name with
  | some name =>
      cases dns with
      | inProgress =>
          refine ⟨⟨h.once, fun hnot => by cases hnot⟩, fun _ => ?_⟩
          exact Or.inr (Or.inr (Nat.succ_pos _))
      | found addr => exact (h.setCtx _).sendRequest rfl buffer
      | failed => exact (h.setCtx _).requestFailed rfl
  | none =>
      dsimp only
      split
      · exact h.requestFailed hctx
      · exact h.sendRequest hctx buffer

theorem Sntp.Few.dnsFound (h : s.Few) (ipaddr : Option ℕ) (buffer : Bool) :
    (s.dnsFound ipaddr buffer).Polling := by
  unfold Sntp.dnsFound
  cases hctx : s.ctx with
  | none => exact ⟨h, fun hsome => absurd hctx hsome⟩
  | some c =>
      cases ipaddr with
      | some addr => exact (h.setCtx _).sendRequest rfl buffer
      | none =>
          dsimp only
          split
          · exact h.retry hctx
          · exact h.stop_polling

theorem Sntp.Polling.recv (h : s.Polling) (p : Bytes) : (s.recv p).Polling := by
  unfold Sntp.recv
  cases hctx : s.ctx with
  | none => exact h
  | some c =>
      cases hp : sntpRecvOf p with
      | answer sec =>
          have hfew := (h.toFew.setCtx
            { sntpProcess c sec with
              reachability := (sntpProcess c sec).reachability ||| 1 }).cancel .retry
          exact hfew.1.rearm rfl .request _
      | kissOfDeath => exact h.toFew.retry hctx
      | ignored => exact h

theorem Sntp.Polling.init (h : s.Polling) (timezoneOffset : Int)
    (fresh : Option SntpContext) (pcb : Bool) :
    (s.init timezoneOffset fresh pcb).1.Polling := by
  unfold Sntp.init
  cases hctx : s.ctx with
  | some c => exact h
  | none =>
      cases fresh with
      | none => exact h
      | some memory =>
          dsimp only
          split
          · have hnil := h.stopped hctx
            refine ⟨⟨fun k => ?_, fun hnot => by cases hnot⟩, fun _ => Or.inl ?_⟩
            · simp only [Sntp.arm, hnil]
              cases k with
              | request => exact Nat.le_refl 1
              | retry => exact Nat.zero_le 1
            · simp only [Sntp.arm, pending_sysTimeout_self]
              exact Nat.succ_pos _
          · exact h

/-- A pending timeout has a client. -/
theorem Sntp.Polling.ctx_of_pending (h : s.Polling) {k : SntpHandler}
    (hk : ¬ pending s.timeouts k = 0) : ∃ c, s.ctx = some c := by
  cases hctx : s.ctx with
  | some c => exact ⟨c, rfl⟩
  | none =>
      rw [h.stopped hctx] at hk
      exact absurd rfl hk

theorem Sntp.Polling.step {s' : Sntp} {a : SntpAction} (h : s.Polling)
    (hs : sntp.step s a = some s') : s'.Polling := by
  cases a with
  | init timezoneOffset fresh pcb =>
      simp only [sntp, Sntp.step, Option.some.injEq] at hs
      exact hs ▸ h.init timezoneOffset fresh pcb
  | stop =>
      simp only [sntp, Sntp.step, Option.some.injEq] at hs
      exact hs ▸ h.toFew.stop_polling
  | setserver serverAddr =>
      simp only [sntp, Sntp.step, Option.some.injEq] at hs
      subst hs
      refine ⟨⟨h.once, fun hctx => h.stopped ?_⟩, fun hctx => h.alive ?_⟩
      · simpa [Sntp.setserver] using hctx
      · simpa [Sntp.setserver] using hctx
  | expireRequest dns buffer =>
      simp only [sntp, Sntp.step, Option.ite_none_left_eq_some, Option.some.injEq] at hs
      obtain ⟨hpending, rfl⟩ := hs
      obtain ⟨c, hctx⟩ := h.ctx_of_pending hpending
      exact (h.toFew.cancel .request).1.request dns buffer hctx
  | expireRetry =>
      simp only [sntp, Sntp.step, Option.ite_none_left_eq_some, Option.some.injEq] at hs
      obtain ⟨hpending, rfl⟩ := hs
      obtain ⟨c, hctx⟩ := h.ctx_of_pending hpending
      exact (h.toFew.cancel .retry).1.retry hctx
  | dnsFound ipaddr buffer =>
      simp only [sntp, Sntp.step, Option.ite_none_left_eq_some, Option.some.injEq] at hs
      obtain ⟨-, rfl⟩ := hs
      have hfew : Sntp.Few { s with dnsQueries := s.dnsQueries - 1 } :=
        ⟨h.once, h.stopped⟩
      exact hfew.dnsFound ipaddr buffer
  | recv p =>
      simp only [sntp, Sntp.step, Option.some.injEq] at hs
      exact hs ▸ h.recv p
  | link up =>
      simp only [sntp, Sntp.step, Option.some.injEq] at hs
      subst hs
      exact ⟨⟨h.once, h.stopped⟩, h.alive⟩

end Handlers

/-- In every run a client has a pending timeout or a DNS query that is going to
be answered, no timeout is pending twice, and none is after `sntp_stop`. -/
theorem sntp_polls {s : Sntp} (h : sntp.Reachable s) :
    (s.ctx ≠ none →
      0 < pending s.timeouts .request ∨ 0 < pending s.timeouts .retry ∨
        0 < s.dnsQueries) ∧
    (∀ k, pending s.timeouts k ≤ 1) ∧
    (s.ctx = none → s.timeouts = []) ∧ s.stop.timeouts = [] := by
  have hpolling : s.Polling := by
    refine h.invariant ?_ fun s a s' hinv _ hs => hinv.step hs
    rintro s ⟨linkUp, rfl⟩
    exact ⟨⟨fun _ => Nat.zero_le _, fun _ => rfl⟩, fun hctx => absurd rfl hctx⟩
  exact ⟨hpolling.alive, hpolling.once, hpolling.stopped, hpolling.toFew.stop.2⟩

/-- A request whose name is resolved later, without a buffer then. -/
theorem sntp_polls_out_of_memory : ∃ s : Sntp, sntp.Reachable s ∧
    s.timeouts = [⟨15000, .request⟩] ∧ s.stop.timeouts = [] := by
  have hrun : (sntp.run ⟨none, [], 0, true⟩
      [.init 1 (some ⟨none, 0, 0, 0, 0⟩) true, .expireRequest .inProgress true,
        .dnsFound (some 7) false]).map (fun s => s.timeouts) =
          some [⟨15000, .request⟩] := by
    decide +kernel
  obtain ⟨s, hs, htimeouts⟩ := Option.map_eq_some_iff.mp hrun
  have hreach : sntp.Reachable s := Machine.reachable_of_run ⟨true, rfl⟩ _ hs
  exact ⟨s, hreach, htimeouts, (sntp_polls hreach).2.2.2⟩

end RtpMulticast
