import RtpMulticast.Lwip.DhcpAllocation

/-!
# Replies and the old contents of the message buffer

A datagram is copied into a buffer of 1500 bytes and read there with the length of
the buffer.  The bytes behind the datagram are whatever the buffer held before.
This module says for which datagrams they make no difference.
-/

namespace RtpMulticast

open ByteBuffer ByteMemory

/-! ## What is to hold -/

/-- What the sender and the other clients see of a call: the decision, the leases
and the bytes sent. -/
def DhcpRecvResult.outcome (r : DhcpRecvResult) :
    DhcpDecision × List DhcpClientNode × Option Bytes :=
  (r.decision, r.server.nodeList, r.sent)

/-- Two calls that differ in the old contents of the buffer only have one outcome. -/
def SameOutcome (p : Datagram) : Prop :=
  ∀ (server : DhcpServer) (addr : NetifAddr) (stale₁ stale₂ beyond : Memory)
    (malloc : Option Chaddr) (fuel : ℕ),
    (dhcpServerRecv server addr p ⟨some stale₁, beyond, malloc, fuel⟩).map
        DhcpRecvResult.outcome =
      (dhcpServerRecv server addr p ⟨some stale₂, beyond, malloc, fuel⟩).map
        DhcpRecvResult.outcome

/-! ## When it holds -/

/-- What the bytes received say about the search for an option. -/
inductive OptionLookup where
  | absent
  | found (pos : ℕ)
  | undecided
  deriving DecidableEq, Repr

/-- The loop of `dhcp_server_option_find` as far as the bytes received lead. -/
def lookupFrom (b : Bytes) (option : UInt8) : ℕ → ℕ → OptionLookup
  | 0, _ => .absent
  | n + 1, pos =>
      if 1500 ≤ pos then .absent
      else if b.length ≤ pos then .undecided
      else if b.getD pos 0 = 255 then .absent
      else if b.getD pos 0 = option then .found pos
      else if pos + 1 < b.length then
        lookupFrom b option n (pos + (b.getD (pos + 1) 0).toNat + 2)
      -- the length of the last option is missing, but it may not matter
      else if 1500 ≤ pos + 2 then .absent
      else .undecided

def lookupOption (b : Bytes) (option : UInt8) : OptionLookup :=
  lookupFrom b option dhcpOptionsLength dhcpOptionsOfs

/-- Position `i` holds no old contents: a byte received, or one behind the buffer. -/
def NotStale (b : Bytes) (i : ℕ) : Prop := i < b.length ∨ 1500 ≤ i

/-- A byte received that is not the one of the cookie. -/
def CookieDiffers (b : Bytes) : Prop :=
  ∃ k < 4, 236 + k < b.length ∧
    b.getD (236 + k) 0 ≠ (beU32 0x63825363).getD k 0

/-- The search for the requested address and the address itself. -/
def AddressSettled (b : Bytes) : Prop :=
  match lookupOption b 50 with
  | .absent => True
  | .found pos => ∀ k < 4, NotStale b (pos + 2 + k)
  | .undecided => False

/-- The search for the message type, the type itself, and for what may be a
`REQUEST` the requested address. -/
def OptionsSettled (b : Bytes) : Prop :=
  match lookupOption b 53 with
  | .absent => True
  | .found pos => NotStale b (pos + 2) ∧
      (1500 ≤ pos + 2 ∨ b.getD (pos + 2) 0 = 3 → AddressSettled b)
  | .undecided => False

/-- The datagram is rejected for what was received of it, or its header is complete
and the options are settled by what was received. -/
def SettledByReceived (p : Datagram) : Prop :=
  p.len < 44 ∨ 1500 < p.payload.length ∨ p.payload.getD 0 0 ≠ 1 ∨
    6 < p.payload.getD 2 0 ∨ CookieDiffers p.payload ∨
    240 ≤ p.payload.length ∧ OptionsSettled p.payload

/-! ## Searching what was received -/

section Lookup

variable {b : Bytes} {option : UInt8} {stale beyond : Memory} {n pos q : ℕ}

theorem optionFrom_of_le {m : Memory} {stop : ℕ} (h : stop ≤ pos) :
    optionFrom m stop option n pos = none := by
  cases n with
  | zero => rfl
  | succ n => rw [optionFrom, if_neg (fun hlt => absurd hlt.1 (Nat.not_lt.mpr h))]

/-- One round at a byte that was received. -/
theorem optionFrom_received (hpos : pos < 1500) (h : pos < b.length) :
    optionFrom (filled b 1500 stale beyond) 1500 option (n + 1) pos =
      if b.getD pos 0 = 255 then none
      else if b.getD pos 0 = option then some pos
      else optionFrom (filled b 1500 stale beyond) 1500 option n
        (pos + (filled b 1500 stale beyond (pos + 1)).toNat + 2) := by
  rw [optionFrom, filled_getD h]
  by_cases hend : b.getD pos 0 = 255
  · rw [if_pos hend, if_neg (fun hlt => hlt.2 hend)]
  · rw [if_neg hend, if_pos ⟨hpos, hend⟩]

theorem optionFrom_of_absent (h : lookupFrom b option n pos = .absent) :
    optionFrom (filled b 1500 stale beyond) 1500 option n pos = none := by
  induction n generalizing pos with
  | zero => rfl
  | succ n ih =>
      rw [lookupFrom] at h
      split_ifs at h with hstop hlen hend hfound hnext hlast
      · exact optionFrom_of_le hstop
      · rw [optionFrom_received (by omega) (by omega), if_pos hend]
      · rw [optionFrom_received (by omega) (by omega), if_neg hend, if_neg hfound,
          filled_getD hnext]
        exact ih h
      · rw [optionFrom_received (by omega) (by omega), if_neg hend, if_neg hfound]
        exact optionFrom_of_le (by omega)

theorem optionFrom_of_found (h : lookupFrom b option n pos = .found q) :
    optionFrom (filled b 1500 stale beyond) 1500 option n pos = some q := by
  induction n generalizing pos with
  | zero => cases h
  | succ n ih =>
      rw [lookupFrom] at h
      split_ifs at h with hstop hlen hend hfound hnext hlast
      · cases h
        rw [optionFrom_received (by omega) (by omega), if_neg hend, if_pos hfound]
      · rw [optionFrom_received (by omega) (by omega), if_neg hend, if_neg hfound,
          filled_getD hnext]
        exact ih h

/-- A search that is not decided comes to a position of old contents, when the old
contents before it are zero. -/
theorem optionFrom_of_undecided (h : lookupFrom b option n pos = .undecided)
    (hn : 1500 ≤ pos + n) :
    ∃ q k, b.length ≤ q ∧ q < 1500 ∧ ∀ stale beyond : Memory,
      (∀ i < q, stale i = 0) →
        optionFrom (filled b 1500 stale beyond) 1500 option n pos =
          optionFrom (filled b 1500 stale beyond) 1500 option (k + 1) q := by
  induction n generalizing pos with
  | zero => cases h
  | succ n ih =>
      rw [lookupFrom] at h
      split_ifs at h with hstop hlen hend hfound hnext hlast
      · exact ⟨pos, n, hlen, Nat.lt_of_not_le hstop, fun _ _ _ => rfl⟩
      · obtain ⟨q, k, hq, hq', heq⟩ := ih h (by omega)
        refine ⟨q, k, hq, hq', fun stale beyond hzero => ?_⟩
        rw [optionFrom_received (by omega) (by omega), if_neg hend, if_neg hfound,
          filled_getD hnext]
        exact heq stale beyond hzero
      · -- a zero for the missing length leads to the position behind it
        obtain ⟨k, rfl⟩ : ∃ k, n = k + 1 := ⟨n - 1, by omega⟩
        refine ⟨pos + 2, k, by omega, by omega, fun stale beyond hzero => ?_⟩
        rw [optionFrom_received (by omega) (by omega), if_neg hend, if_neg hfound,
          filled_stale (by omega) (by omega), hzero _ (by omega)]
        rfl

theorem optionFind_of_absent (h : lookupOption b option = .absent)
    (stale beyond : Memory) :
    dhcpServerOptionFind (filled b 1500 stale beyond) dhcpOptionsOfs dhcpOptionsLength
      option = none :=
  optionFrom_of_absent h

theorem optionFind_of_found (h : lookupOption b option = .found pos)
    (stale beyond : Memory) :
    dhcpServerOptionFind (filled b 1500 stale beyond) dhcpOptionsOfs dhcpOptionsLength
      option = some pos :=
  optionFrom_of_found h

/-- Zeros up to some position, and then a byte that ends or hits the search. -/
def probe (q : ℕ) (c : UInt8) : Memory := fun i =>
  if i < q then 0 else if i = q then c else 3

theorem optionFind_of_undecided (h : lookupOption b option = .undecided)
    (hoption : option ≠ 255) :
    ∃ q, b.length ≤ q ∧ q < 1500 ∧ ∀ beyond : Memory,
      dhcpServerOptionFind (filled b 1500 (probe q 255) beyond) dhcpOptionsOfs
          dhcpOptionsLength option = none ∧
        dhcpServerOptionFind (filled b 1500 (probe q option) beyond) dhcpOptionsOfs
          dhcpOptionsLength option = some q := by
  obtain ⟨q, k, hq, hq', heq⟩ := optionFrom_of_undecided h (by decide)
  have hzero (c : UInt8) : ∀ i < q, probe q c i = 0 := fun i hi => by
    rw [probe, if_pos hi]
  have hat (c : UInt8) (beyond : Memory) : filled b 1500 (probe q c) beyond q = c := by
    rw [filled_stale hq hq', probe, if_neg (Nat.lt_irrefl q), if_pos rfl]
  refine ⟨q, hq, hq', fun beyond => ⟨?_, ?_⟩⟩
  · refine (heq _ beyond (hzero 255)).trans ?_
    rw [optionFrom, hat, if_neg (fun hlt => hlt.2 rfl)]
  · refine (heq _ beyond (hzero option)).trans ?_
    rw [optionFrom, hat, if_pos ⟨hq', hoption⟩, if_pos rfl]

end Lookup

/-! ## Equal outcomes -/

section Congr

variable {server : DhcpServer} {addr : NetifAddr} {m m' : Memory}
  {malloc : Option Chaddr} {fuel : ℕ}

/-- Of the message an allocation uses the client address only. -/
theorem dhcpClientAlloc_congr (h : DhcpMsg.requester m = DhcpMsg.requester m') :
    dhcpClientAlloc server m malloc fuel = dhcpClientAlloc server m' malloc fuel := by
  cases hfind : dhcpClientFindByMac server (DhcpMsg.requester m) with
  | some node =>
      rw [dhcpClientAlloc_of_found hfind]
      rw [h] at hfind
      rw [dhcpClientAlloc_of_found hfind]
  | none =>
      rw [dhcpClientAlloc_of_not_found hfind]
      rw [h] at hfind
      rw [dhcpClientAlloc_of_not_found hfind]
      unfold newNode
      rw [h]

theorem dhcpClientFind_congr (hrequester : DhcpMsg.requester m = DhcpMsg.requester m')
    (hip : requestedIp m = requestedIp m') :
    dhcpClientFind server addr m = dhcpClientFind server addr m' := by
  unfold dhcpClientFind
  rw [hrequester, hip]

/-- The header of a reply is that of the message, with fixed fields overwritten. -/
theorem slice_replyHeader_congr (h : Set.EqOn m m' {i | i < dhcpOptionsOfs})
    (yiaddr : UInt32) :
    slice (replyHeader m addr yiaddr) 0 dhcpOptionsOfs =
      slice (replyHeader m' addr yiaddr) 0 dhcpOptionsOfs := by
  refine slice_congr fun i hi => ?_
  have hmem : i < dhcpOptionsOfs := by
    have := hi.2
    omega
  unfold replyHeader
  repeat' apply store_congr
  exact h hmem

theorem recvDiscover_congr (hheader : Set.EqOn m m' {i | i < dhcpOptionsOfs})
    (hrequester : DhcpMsg.requester m = DhcpMsg.requester m') :
    recvDiscover server addr m malloc fuel = recvDiscover server addr m' malloc fuel := by
  unfold recvDiscover offer
  simp only [dhcpClientAlloc_congr hrequester, slice_replyHeader_congr hheader]

theorem recvRequest_congr (hheader : Set.EqOn m m' {i | i < dhcpOptionsOfs})
    (hrequester : DhcpMsg.requester m = DhcpMsg.requester m')
    (hip : requestedIp m = requestedIp m') :
    recvRequest server addr m = recvRequest server addr m' := by
  unfold recvRequest ack nak
  simp only [dhcpClientFind_congr hrequester hip, slice_replyHeader_congr hheader]

theorem recvRelease_congr (hrequester : DhcpMsg.requester m = DhcpMsg.requester m') :
    recvRelease server m = recvRelease server m' := by
  unfold recvRelease
  rw [hrequester]

/-- What the work on a message reads of it. -/
theorem recvMessage_congr (hheader : Set.EqOn m m' {i | i < dhcpOptionsOfs})
    (hrequester : DhcpMsg.requester m = DhcpMsg.requester m')
    (htype : messageType m = messageType m')
    (hip : messageType m = some 3 → requestedIp m = requestedIp m') :
    recvMessage server addr m malloc fuel = recvMessage server addr m' malloc fuel := by
  have hop : DhcpMsg.op m = DhcpMsg.op m' := hheader (by decide : 0 < 240)
  have hhlen : DhcpMsg.hlen m = DhcpMsg.hlen m' := hheader (by decide : 2 < 240)
  have hcookie : DhcpMsg.cookie m = DhcpMsg.cookie m' :=
    loadBe32_congr fun k hk => hheader (show 236 + k < 240 by omega)
  unfold recvMessage
  rw [hop, hcookie, hhlen, ← htype]
  cases hmessage : messageType m with
  | none => rfl
  | some msgType =>
      dsimp only
      rw [recvDiscover_congr hheader hrequester, recvRelease_congr hrequester]
      by_cases hrequest : msgType = 3
      · rw [hrequest] at hmessage
        rw [recvRequest_congr hheader hrequester (hip hmessage)]
      · simp only [if_neg hrequest]

end Congr

/-! ## Datagrams that settle the outcome -/

section Settled

variable {p : Datagram} {b : Bytes} {stale₁ stale₂ beyond : Memory} {pos : ℕ}

theorem messageType_filled_of_found (h : lookupOption b 53 = .found pos)
    (stale beyond : Memory) :
    messageType (filled b 1500 stale beyond) =
      some (filled b 1500 stale beyond (pos + 2)) := by
  rw [messageType, optionFind_of_found h, Option.map_some]

theorem requestedIp_filled_of_found (h : lookupOption b 50 = .found pos)
    (stale beyond : Memory) :
    requestedIp (filled b 1500 stale beyond) =
      some (loadBe32 (filled b 1500 stale beyond) (pos + 2)) := by
  rw [requestedIp, optionFind_of_found h, Option.map_some]

theorem requestedIp_congr (h : AddressSettled b) :
    requestedIp (filled b 1500 stale₁ beyond) =
      requestedIp (filled b 1500 stale₂ beyond) := by
  unfold AddressSettled at h
  cases hlookup : lookupOption b 50 with
  | absent =>
      rw [requestedIp, requestedIp, optionFind_of_absent hlookup,
        optionFind_of_absent hlookup, Option.map_none, Option.map_none]
  | undecided =>
      rw [hlookup] at h
      exact h.elim
  | found pos =>
      rw [hlookup] at h
      rw [requestedIp_filled_of_found hlookup, requestedIp_filled_of_found hlookup,
        loadBe32_congr fun k hk => filled_congr (h k hk)]

theorem messageType_congr (h : OptionsSettled b) :
    messageType (filled b 1500 stale₁ beyond) =
      messageType (filled b 1500 stale₂ beyond) := by
  unfold OptionsSettled at h
  cases hlookup : lookupOption b 53 with
  | absent =>
      rw [messageType, messageType, optionFind_of_absent hlookup,
        optionFind_of_absent hlookup, Option.map_none, Option.map_none]
  | undecided =>
      rw [hlookup] at h
      exact h.elim
  | found pos =>
      rw [hlookup] at h
      rw [messageType_filled_of_found hlookup, messageType_filled_of_found hlookup,
        filled_congr h.1]

/-- The requested address is settled for every message that is a `REQUEST`. -/
theorem addressSettled_of_request (h : OptionsSettled b)
    (htype : messageType (filled b 1500 stale₁ beyond) = some 3) :
    AddressSettled b := by
  unfold OptionsSettled at h
  cases hlookup : lookupOption b 53 with
  | absent =>
      rw [messageType, optionFind_of_absent hlookup] at htype
      cases htype
  | undecided =>
      rw [hlookup] at h
      exact h.elim
  | found pos =>
      rw [hlookup] at h
      rw [messageType_filled_of_found hlookup, Option.some.injEq] at htype
      refine h.2 (h.1.symm.imp_right fun hlt => ?_)
      rwa [filled_getD hlt] at htype

theorem not_checked_of_cookieDiffers (h : CookieDiffers p.payload)
    (stale beyond : Memory) :
    ¬ DhcpMsg.Checked (filled p.payload 1500 stale beyond) := by
  obtain ⟨k, hk, hlen, hne⟩ := h
  intro hchecked
  have hbyte := loadBe32_eq_iff.mp hchecked.cookie k hk
  rw [filled_getD hlen] at hbyte
  exact hne hbyte

theorem sameOutcome_of_settled (h : SettledByReceived p) : SameOutcome p := by
  intro server addr stale₁ stale₂ beyond malloc fuel
  suffices heq : dhcpServerRecv server addr p ⟨some stale₁, beyond, malloc, fuel⟩ =
      dhcpServerRecv server addr p ⟨some stale₂, beyond, malloc, fuel⟩ by
    rw [heq]
  unfold dhcpServerRecv
  by_cases hlen : p.len < 44
  · rw [if_pos hlen, if_pos hlen]
  rw [if_neg hlen, if_neg hlen]
  dsimp only
  by_cases hlong : 1500 < p.payload.length
  · rw [if_pos hlong, if_pos hlong]
  rw [if_neg hlong, if_neg hlong]
  have hpayload : 44 ≤ p.payload.length := by
    have := p.le
    omega
  have hop (stale : Memory) : DhcpMsg.op (filled p.payload 1500 stale beyond) =
      p.payload.getD 0 0 := filled_getD (by omega)
  have hhlen (stale : Memory) : DhcpMsg.hlen (filled p.payload 1500 stale beyond) =
      p.payload.getD 2 0 := filled_getD (by omega)
  rcases h with h | h | h | h | h | ⟨hheader, h⟩
  · exact absurd h hlen
  · exact absurd h hlong
  · have hbad (stale : Memory) :
        ¬ DhcpMsg.Checked (filled p.payload 1500 stale beyond) := fun hchecked =>
      h ((hop stale).symm.trans hchecked.op)
    rw [recvMessage_of_not_checked (hbad _), recvMessage_of_not_checked (hbad _)]
  · have hbad (stale : Memory) :
        ¬ DhcpMsg.Checked (filled p.payload 1500 stale beyond) := fun hchecked =>
      UInt8.not_le.mpr h ((hhlen stale) ▸ hchecked.hlen)
    rw [recvMessage_of_not_checked (hbad _), recvMessage_of_not_checked (hbad _)]
  · rw [recvMessage_of_not_checked (not_checked_of_cookieDiffers h _ _),
      recvMessage_of_not_checked (not_checked_of_cookieDiffers h _ _)]
  · have hagree : Set.EqOn (filled p.payload 1500 stale₁ beyond)
        (filled p.payload 1500 stale₂ beyond) {i | i < dhcpOptionsOfs} := fun i hi =>
      filled_congr (Or.inl (lt_of_lt_of_le hi hheader))
    by_cases hle : p.payload.getD 2 0 ≤ 6
    · refine recvMessage_congr hagree ?_ (messageType_congr h) fun htype =>
        requestedIp_congr (addressSettled_of_request h htype)
      rw [requester_filled (by omega) (by rwa [hhlen]),
        requester_filled (by omega) (by rwa [hhlen])]
    · have hbad (stale : Memory) :
          ¬ DhcpMsg.Checked (filled p.payload 1500 stale beyond) := fun hchecked =>
        hle ((hhlen stale) ▸ hchecked.hlen)
      rw [recvMessage_of_not_checked (hbad _), recvMessage_of_not_checked (hbad _)]

end Settled

/-! ## Datagrams that leave it open -/

section Open

variable {p : Datagram} {b : Bytes} {server : DhcpServer} {addr : NetifAddr}
  {m stale stale₁ stale₂ beyond : Memory} {pos q : ℕ} {ip ip' : UInt32}
  {chaddr : Chaddr} {c : UInt8}

/-- What was received lets the message through. -/
structure HeaderPasses (p : Datagram) : Prop where
  len : 44 ≤ p.len
  short : p.payload.length ≤ 1500
  op : p.payload.getD 0 0 = 1
  hlen : p.payload.getD 2 0 ≤ 6
  cookie : ¬ CookieDiffers p.payload

theorem dhcpServerRecv_of_passes (hpass : HeaderPasses p) (server : DhcpServer)
    (addr : NetifAddr) (stale beyond : Memory) :
    dhcpServerRecv server addr p ⟨some stale, beyond, none, 0⟩ =
      recvMessage server addr (filled p.payload 1500 stale beyond) none 0 := by
  rw [dhcpServerRecv, if_neg (Nat.not_lt.mpr hpass.len)]
  dsimp only
  rw [if_neg (Nat.not_lt.mpr hpass.short)]

/-- The message is let through when the rest of the cookie is right as well. -/
theorem checked_of_passes (hpass : HeaderPasses p)
    (hcookie : ∀ k < 4, p.payload.length ≤ 236 + k →
      stale (236 + k) = (beU32 0x63825363).getD k 0) :
    DhcpMsg.Checked (filled p.payload 1500 stale beyond) := by
  have hlen := hpass.len
  have hle := p.le
  refine ⟨(filled_getD (by omega)).trans hpass.op, loadBe32_eq_iff.mpr ?_,
    (filled_getD (show 2 < p.payload.length by omega)).trans_le hpass.hlen⟩
  intro k hk
  by_cases hreceived : 236 + k < p.payload.length
  · rw [filled_getD hreceived]
    by_contra hne
    exact hpass.cookie ⟨k, hk, hreceived, hne⟩
  · rw [filled_stale (by omega) (by omega)]
    exact hcookie k hk (by omega)

theorem recvMessage_of_type_none (hchecked : DhcpMsg.Checked m)
    (htype : messageType m = none) :
    recvMessage server addr m none 0 = some (ignored server) := by
  rw [recvMessage, if_neg (not_not.mpr hchecked.op), if_neg (not_not.mpr hchecked.cookie),
    if_neg (UInt8.not_lt.mpr hchecked.hlen), htype]

theorem recvMessage_of_type {msgType : UInt8} (hchecked : DhcpMsg.Checked m)
    (htype : messageType m = some msgType) :
    recvMessage server addr m none 0 =
      if msgType = 1 then recvDiscover server addr m none 0
      else if msgType = 3 then some (recvRequest server addr m)
      else if msgType = 7 then some (recvRelease server m)
      else some (ignored server) := by
  rw [recvMessage, if_neg (not_not.mpr hchecked.op), if_neg (not_not.mpr hchecked.cookie),
    if_neg (UInt8.not_lt.mpr hchecked.hlen), htype]

theorem recvRequest_decision (server : DhcpServer) (addr : NetifAddr) (m : Memory) :
    (recvRequest server addr m).decision =
      if (dhcpClientFind server addr m).isSome then .ack else .nak := by
  unfold recvRequest
  cases dhcpClientFind server addr m with
  | none => rfl
  | some node => rfl

/-- A server with one lease, and every address in its range. -/
def probeServer (ip : UInt32) (chaddr : Chaddr) : DhcpServer where
  netif := 0
  pcb := true
  nodeList := [⟨chaddr, ip, chaddr.1⟩]
  range := ⟨0, 0xFFFFFFFE, by decide, by decide⟩
  current := 0
  dnsserver := noDnsServers
  staStatusCb := none

/-- Old contents that make a message ignored in one run and a `REQUEST` in the
other. -/
theorem not_sameOutcome_of_request (hpass : HeaderPasses p)
    (hignored : ∀ server addr, recvMessage server addr
      (filled p.payload 1500 stale₁ beyond) none 0 = some (ignored server))
    (hchecked : DhcpMsg.Checked (filled p.payload 1500 stale₂ beyond))
    (htype : messageType (filled p.payload 1500 stale₂ beyond) = some 3) :
    ¬ SameOutcome p := by
  intro hsame
  have h := hsame (probeServer 0 ⟨List.replicate 6 0, rfl⟩) ⟨0, 0⟩ stale₁ stale₂
    beyond none 0
  rw [dhcpServerRecv_of_passes hpass, dhcpServerRecv_of_passes hpass, hignored,
    recvMessage_of_type hchecked htype, if_neg (by decide), if_pos rfl, Option.map_some,
    Option.map_some, Option.some.injEq] at h
  have hdecision := congrArg Prod.fst h
  unfold DhcpRecvResult.outcome at hdecision
  rw [recvRequest_decision] at hdecision
  split_ifs at hdecision
  · cases hdecision
  · cases hdecision

section ProbeServer

theorem findByIp_probeServer (ip ip' : UInt32) (chaddr : Chaddr) :
    dhcpClientFindByIp (probeServer ip chaddr) ip' =
      if ip = ip' then some ⟨chaddr, ip, chaddr.1⟩ else none := by
  by_cases h : ip = ip'
  · simp [dhcpClientFindByIp, probeServer, h]
  · simp [dhcpClientFindByIp, probeServer, h]

theorem findByMac_probeServer (h : DhcpMsg.requester m <+: chaddr.1) :
    dhcpClientFindByMac (probeServer ip chaddr) (DhcpMsg.requester m) =
      some ⟨chaddr, ip, chaddr.1⟩ := by
  simp [dhcpClientFindByMac, probeServer, DhcpClientNode.Matches, h]

/-- Without a requested address, and with that of the lease, there is a lease. -/
theorem find_probeServer_isSome (hmatch : DhcpMsg.requester m <+: chaddr.1)
    (hip : requestedIp m = none ∨ requestedIp m = some ip) :
    (dhcpClientFind (probeServer ip chaddr) addr m).isSome := by
  unfold dhcpClientFind
  rcases hip with hip | hip
  · rw [hip, findByMac_probeServer hmatch]
    rfl
  · rw [hip]
    dsimp only
    rw [findByIp_probeServer, if_pos rfl]
    have hnode : DhcpClientNode.Matches ⟨chaddr, ip, chaddr.1⟩ (DhcpMsg.requester m) :=
      hmatch
    dsimp only
    rw [if_pos hnode]
    rfl

/-- With any other address there is none. -/
theorem find_probeServer_eq_none (hip : requestedIp m = some ip') (hne : ip ≠ ip')
    (hlast : ip' ≠ 0xFFFFFFFF) :
    dhcpClientFind (probeServer ip chaddr) ⟨0, 0⟩ m = none := by
  have hrange : ¬ (ip' < 0 ∨ 0xFFFFFFFE < ip') := by
    rw [UInt32.lt_iff_toNat_lt, UInt32.lt_iff_toNat_lt]
    have hlt := ip'.toNat_lt
    have hne' : ip'.toNat ≠ 0xFFFFFFFF := fun h => hlast (UInt32.toNat_inj.mp h)
    show ¬ (ip'.toNat < 0 ∨ 0xFFFFFFFE < ip'.toNat)
    omega
  unfold dhcpClientFind
  rw [hip]
  dsimp only
  rw [findByIp_probeServer, if_neg hne]
  dsimp only
  rw [if_neg (by simp)]
  exact if_neg hrange

end ProbeServer

theorem requester_startsWith (hpass : HeaderPasses p) :
    DhcpMsg.requester (filled p.payload 1500 stale beyond) <+: p.chaddr := by
  have hpayload : 44 ≤ p.payload.length := hpass.len.trans p.le
  have hhlen : DhcpMsg.hlen (filled p.payload 1500 stale beyond) ≤ 6 :=
    (filled_getD (show 2 < p.payload.length by omega)).trans_le hpass.hlen
  rw [requester_filled (by omega) hhlen]
  exact List.take_prefix_take_left (UInt8.le_iff_toNat_le.mp hpass.hlen)

/-- Old contents that give a `REQUEST` two addresses, one of them or none that of
the lease. -/
theorem not_sameOutcome_of_address (hpass : HeaderPasses p)
    (hchecked : ∀ stale beyond, DhcpMsg.Checked (filled p.payload 1500 stale beyond))
    (htype : ∀ stale, messageType (filled p.payload 1500 stale beyond) = some 3)
    (hlease : requestedIp (filled p.payload 1500 stale₁ beyond) = none ∨
      requestedIp (filled p.payload 1500 stale₁ beyond) = some ip)
    (hother : requestedIp (filled p.payload 1500 stale₂ beyond) = some ip')
    (hne : ip ≠ ip') (hlast : ip' ≠ 0xFFFFFFFF) :
    ¬ SameOutcome p := by
  intro hsame
  have h := hsame (probeServer ip ⟨p.chaddr, p.length_chaddr (hpass.len.trans p.le)⟩)
    ⟨0, 0⟩ stale₁ stale₂ beyond none 0
  rw [dhcpServerRecv_of_passes hpass, dhcpServerRecv_of_passes hpass,
    recvMessage_of_type (hchecked _ _) (htype _),
    recvMessage_of_type (hchecked _ _) (htype _), if_neg (by decide), if_pos rfl,
    if_neg (by decide), if_pos rfl, Option.map_some, Option.map_some,
    Option.some.injEq] at h
  have hdecision := congrArg Prod.fst h
  unfold DhcpRecvResult.outcome at hdecision
  rw [recvRequest_decision, recvRequest_decision,
    if_pos (find_probeServer_isSome (requester_startsWith hpass) hlease),
    find_probeServer_eq_none hother hne hlast] at hdecision
  cases hdecision

/-- Behind its position a probe, and what follows the buffer, are threes. -/
theorem filled_probe (hq : b.length ≤ q) {i : ℕ} (hi : q < i) :
    filled b 1500 (probe q c) (fun _ => 3) i = 3 := by
  by_cases hlt : i < 1500
  · rw [filled_stale (by omega) hlt, probe, if_neg (by omega), if_neg (by omega)]
  · rw [filled_beyond (by omega) (by omega)]

theorem loadBe32_probe (hq : b.length ≤ q) :
    loadBe32 (filled b 1500 (probe q c) fun _ => 3) (q + 2) = 0x03030303 := by
  rw [loadBe32_eq_iff]
  intro k hk
  rw [filled_probe hq (by omega)]
  match k, hk with
  | 0, _ => rfl
  | 1, _ => rfl
  | 2, _ => rfl
  | 3, _ => rfl

/-- A `REQUEST` whose requested address is not settled. -/
theorem not_sameOutcome_of_not_addressSettled (hpass : HeaderPasses p)
    (hchecked : ∀ stale beyond, DhcpMsg.Checked (filled p.payload 1500 stale beyond))
    (htype : ∀ stale, messageType (filled p.payload 1500 stale fun _ => 3) = some 3)
    (h : ¬ AddressSettled p.payload) : ¬ SameOutcome p := by
  unfold AddressSettled at h
  cases hlookup : lookupOption p.payload 50 with
  | absent =>
      rw [hlookup] at h
      exact absurd trivial h
  | undecided =>
      obtain ⟨q, hq, -, hfind⟩ := optionFind_of_undecided hlookup (by decide)
      obtain ⟨hnone, hsome⟩ := hfind fun _ => 3
      have hlease : requestedIp (filled p.payload 1500 (probe q 255) fun _ => 3) =
          none := by
        rw [requestedIp, hnone, Option.map_none]
      have hother : requestedIp (filled p.payload 1500 (probe q 50) fun _ => 3) =
          some 0x03030303 := by
        rw [requestedIp, hsome, Option.map_some, loadBe32_probe hq]
      have hne : (0 : UInt32) ≠ 0x03030303 := by decide
      exact not_sameOutcome_of_address hpass hchecked htype (Or.inl hlease) hother hne
        (by decide)
  | found pos =>
      rw [hlookup] at h
      simp only [not_forall] at h
      obtain ⟨k, hk, hstale⟩ := h
      obtain ⟨hlen, hlt⟩ := not_or.mp hstale
      have hbyte (v : UInt8) : filled p.payload 1500 (fun _ => v) (fun _ => 3)
          (pos + 2 + k) = v :=
        filled_stale (Nat.not_lt.mp hlen) (Nat.not_le.mp hlt)
      have hip (v : UInt8) := requestedIp_filled_of_found hlookup (fun _ => v) fun _ => 3
      refine not_sameOutcome_of_address hpass hchecked htype (Or.inr (hip 3)) (hip 4)
        ?_ ?_
      · intro heq
        have hk' := loadBe32_eq_iff.mp heq k hk
        rw [← loadBe32_eq_iff.mp rfl k hk, hbyte, hbyte] at hk'
        cases hk'
      · intro heq
        have hk' := loadBe32_eq_iff.mp heq k hk
        rw [hbyte] at hk'
        match k, hk with
        | 0, _ => cases hk'
        | 1, _ => cases hk'
        | 2, _ => cases hk'
        | 3, _ => cases hk'

/-- A complete header, and a message type that is not settled or may be that of a
`REQUEST` with an open address. -/
theorem not_sameOutcome_of_not_optionsSettled (hpass : HeaderPasses p)
    (hchecked : ∀ stale beyond, DhcpMsg.Checked (filled p.payload 1500 stale beyond))
    (h : ¬ OptionsSettled p.payload) : ¬ SameOutcome p := by
  unfold OptionsSettled at h
  cases hlookup : lookupOption p.payload 53 with
  | absent =>
      rw [hlookup] at h
      exact absurd trivial h
  | undecided =>
      obtain ⟨q, hq, -, hfind⟩ := optionFind_of_undecided hlookup (by decide)
      obtain ⟨hnone, hsome⟩ := hfind fun _ => 3
      have hignored : messageType (filled p.payload 1500 (probe q 255) fun _ => 3) =
          none := by
        rw [messageType, hnone, Option.map_none]
      have hrequest : messageType (filled p.payload 1500 (probe q 53) fun _ => 3) =
          some 3 := by
        rw [messageType, hsome, Option.map_some, filled_probe hq (by omega)]
      exact not_sameOutcome_of_request hpass
        (fun server addr => recvMessage_of_type_none (hchecked _ _) hignored)
        (hchecked _ _) hrequest
  | found pos =>
      rw [hlookup] at h
      have htype (stale : Memory) := messageType_filled_of_found hlookup stale fun _ => 3
      by_cases hstale : NotStale p.payload (pos + 2)
      · obtain ⟨hthree, haddress⟩ := Classical.not_imp.mp fun himp => h ⟨hstale, himp⟩
        refine not_sameOutcome_of_not_addressSettled hpass hchecked ?_ haddress
        intro stale
        rw [htype stale, Option.some.injEq]
        by_cases hlt : pos + 2 < p.payload.length
        · rw [filled_getD hlt]
          refine hthree.resolve_left fun hle => ?_
          have := hpass.short
          omega
        · exact filled_beyond (Nat.not_lt.mp hlt) (hstale.resolve_left hlt)
      · obtain ⟨hlt, hle⟩ := not_or.mp hstale
        have hbyte (v : UInt8) : filled p.payload 1500 (fun _ => v) (fun _ => 3)
            (pos + 2) = v :=
          filled_stale (Nat.not_lt.mp hlt) (Nat.not_le.mp hle)
        have hignored (server : DhcpServer) (addr : NetifAddr) :
            recvMessage server addr (filled p.payload 1500 (fun _ => 0) fun _ => 3)
              none 0 = some (ignored server) := by
          rw [recvMessage_of_type (hchecked _ _)
            ((htype fun _ => 0).trans (congrArg some (hbyte 0)))]
          rfl
        exact not_sameOutcome_of_request hpass hignored (hchecked _ _)
          ((htype fun _ => 3).trans (congrArg some (hbyte 3)))

/-- Old contents that complete a short datagram to a `REQUEST`. -/
def oldRequest : Memory :=
  store (store (fun _ => 0) 236 (beU32 0x63825363)) 240 [53, 1, 3]

theorem messageType_oldRequest (hlt : b.length < 240) :
    messageType (filled b 1500 oldRequest beyond) = some 3 := by
  have hbyte (k : ℕ) (hk : k < 3) :
      filled b 1500 oldRequest beyond (240 + k) = [53, 1, 3][k] := by
    rw [filled_stale (by omega) (by omega)]
    exact store_at hk
  have hfind : dhcpServerOptionFind (filled b 1500 oldRequest beyond) dhcpOptionsOfs
      dhcpOptionsLength 53 = some 240 := by
    have hcode := hbyte 0 (by decide)
    rw [Nat.add_zero] at hcode
    rw [dhcpServerOptionFind, show dhcpOptionsLength = 1259 + 1 from rfl, optionFrom,
      show dhcpOptionsOfs = 240 from rfl, hcode, if_pos ⟨by decide, by decide⟩,
      if_pos (by decide)]
  rw [messageType, hfind, Option.map_some, hbyte 2 (by decide)]
  rfl

/-- A header that is not complete. -/
theorem not_sameOutcome_of_short (hpass : HeaderPasses p)
    (hlt : p.payload.length < 240) : ¬ SameOutcome p := by
  have hignored : ¬ DhcpMsg.Checked (filled p.payload 1500 (fun _ => 0) fun _ => 0) := by
    intro hchecked
    have hbyte := loadBe32_eq_iff.mp hchecked.cookie 3 (by decide)
    rw [filled_stale (by omega) (by decide)] at hbyte
    exact absurd hbyte (by decide)
  have hchecked : DhcpMsg.Checked
      (filled p.payload 1500 oldRequest fun _ => 0) := by
    refine checked_of_passes hpass fun k hk _ => ?_
    rw [oldRequest, store_of_lt (by omega),
      store_at (show k < (beU32 0x63825363).length from hk),
      List.getD_eq_getElem?_getD,
      List.getElem?_eq_getElem (show k < (beU32 0x63825363).length from hk),
      Option.getD_some]
  exact not_sameOutcome_of_request hpass
    (fun server addr => recvMessage_of_not_checked hignored) hchecked
    (messageType_oldRequest hlt)

theorem settled_of_sameOutcome (h : SameOutcome p) : SettledByReceived p := by
  unfold SettledByReceived
  by_contra hnot
  simp only [not_or] at hnot
  obtain ⟨hlen, hshort, hop, hhlen, hcookie, hopen⟩ := hnot
  have hpass : HeaderPasses p :=
    ⟨Nat.not_lt.mp hlen, Nat.not_lt.mp hshort, not_not.mp hop, UInt8.not_lt.mp hhlen,
      hcookie⟩
  by_cases hheader : 240 ≤ p.payload.length
  · have hchecked (stale beyond : Memory) :
        DhcpMsg.Checked (filled p.payload 1500 stale beyond) :=
      checked_of_passes hpass fun k hk hle => by omega
    exact not_sameOutcome_of_not_optionsSettled hpass hchecked
      (fun hsettled => hopen ⟨hheader, hsettled⟩) h
  · exact not_sameOutcome_of_short hpass (Nat.not_le.mp hheader) h

end Open

/-- The outcome depends on the datagram alone exactly when what was received settles
it. -/
theorem sameOutcome_iff (p : Datagram) : SameOutcome p ↔ SettledByReceived p :=
  ⟨settled_of_sameOutcome, sameOutcome_of_settled⟩

/-- A datagram that ends with its cookie is answered from the old contents. -/
theorem answered_from_old_contents :
    ¬ SameOutcome (bootRequest 6 (stationAddr 1) []) := by
  intro h
  have hruns := h (smallPool [lease 2 0x0A136002] 0x0A136002) apAddr (fun _ => 0)
    oldRequest (fun _ => 0) none 0
  exact absurd hruns (by decide +kernel)

end RtpMulticast
