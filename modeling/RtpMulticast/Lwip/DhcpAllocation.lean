import RtpMulticast.Lwip.DhcpServer
import RtpMulticast.Support.Machine
import Mathlib.Data.List.Nodup
import Mathlib.Logic.Function.Iterate

/-!
# Allocation of an address

The runs of the DHCP servers, and when the allocation of an address returns.
-/

namespace RtpMulticast

open ByteBuffer ByteMemory CyclicSearch

/-! ## The list of servers -/

section Servers

variable {netif : ℕ} {f : DhcpServer → DhcpServer} {servers : List DhcpServer}
  {server : DhcpServer}

theorem mem_updateServer (h : server ∈ updateServer netif f servers) :
    server ∈ servers ∨
      ∃ old, findServer netif servers = some old ∧ server = f old := by
  induction servers with
  | nil => cases h
  | cons first rest ih =>
      by_cases hfirst : first.netif = netif
      · rw [updateServer, if_pos hfirst, List.mem_cons] at h
        rcases h with rfl | h
        · exact Or.inr ⟨first, by simp [findServer, hfirst], rfl⟩
        · exact Or.inl (List.mem_cons_of_mem _ h)
      · rw [updateServer, if_neg hfirst, List.mem_cons] at h
        rcases h with rfl | h
        · exact Or.inl List.mem_cons_self
        · refine (ih h).imp (List.mem_cons_of_mem _) ?_
          rintro ⟨old, hold, rfl⟩
          exact ⟨old, by simpa [findServer, hfirst] using hold, rfl⟩

theorem mem_of_findServer (h : findServer netif servers = some server) :
    server ∈ servers :=
  List.mem_of_find?_eq_some h

theorem mem_dhcpdStop (h : server ∈ dhcpdStop servers netif) :
    ∃ old ∈ servers, server = { old with dnsserver := noDnsServers } := by
  unfold dhcpdStop dhcpServerStop at h
  cases hfind : findServer netif (dhcpServerClearDnsServer servers) with
  | none =>
      rw [hfind] at h
      obtain ⟨old, hold, rfl⟩ := List.mem_map.mp h
      exact ⟨old, hold, rfl⟩
  | some found =>
      rw [hfind] at h
      cases h

/-- A start gives an existing server the new range, or makes an empty one. -/
theorem mem_dhcpServerStart {range : LeaseRange} {malloc udpNew : Bool}
    (h : server ∈ dhcpServerStart servers netif range malloc udpNew) :
    server ∈ servers ∨
      (∃ old, findServer netif servers = some old ∧
        server = { old with range := range, current := range.startIp }) ∨
      (server.nodeList = [] ∧ server.range = range ∧
        server.current = range.startIp) := by
  unfold dhcpServerStart at h
  split_ifs at h with hfind hmalloc
  · exact (mem_updateServer h).imp_right Or.inl
  · rcases List.mem_cons.mp h with rfl | h
    · exact Or.inr (Or.inr ⟨rfl, rfl, rfl⟩)
    · exact Or.inl h
  · exact Or.inl h

end Servers

/-! ## The cursor -/

namespace LeaseRange

variable {range : LeaseRange} {ip current : UInt32}

theorem startIp_mem (range : LeaseRange) : range.Mem range.startIp :=
  ⟨UInt32.le_refl _, range.le⟩

theorem mem_iff :
    range.Mem ip ↔
      range.startIp.toNat ≤ ip.toNat ∧ ip.toNat ≤ range.endIp.toNat := by
  unfold Mem
  rw [UInt32.le_iff_toNat_le, UInt32.le_iff_toNat_le]

theorem toNat_endIp_lt (range : LeaseRange) : range.endIp.toNat < 2 ^ 32 - 1 := by
  have := UInt32.lt_iff_toNat_lt.mp range.lt
  exact this

theorem toNat_next (h : current.toNat < range.endIp.toNat) :
    (range.next current).toNat = current.toNat + 1 := by
  have hend := range.toNat_endIp_lt
  have hsucc : (current + 1).toNat = current.toNat + 1 :=
    ByteBuffer.toNat_add_one (by omega)
  have hle : ¬ range.endIp < current + 1 := by
    rw [UInt32.lt_iff_toNat_lt, hsucc]
    omega
  rw [next, if_neg hle, hsucc]

theorem next_endIp : range.next range.endIp = range.startIp := by
  have hend := range.toNat_endIp_lt
  have hlt : range.endIp < range.endIp + 1 := by
    rw [UInt32.lt_iff_toNat_lt, UInt32.toNat_add]
    show _ < (range.endIp.toNat + 1) % 2 ^ 32
    omega
  rw [next, if_pos hlt]

theorem toNat_iterate_next {k : ℕ} (h : current.toNat + k ≤ range.endIp.toNat) :
    (range.next^[k] current).toNat = current.toNat + k := by
  induction k with
  | zero => rfl
  | succ k ih =>
      have hk := ih (by omega)
      rw [Function.iterate_succ_apply', toNat_next (by omega), hk]
      omega

/-- From `current` the cursor climbs to every address above it. -/
theorem exists_iterate_next (hle : current.toNat ≤ ip.toNat)
    (hmem : range.Mem ip) : ∃ k, range.next^[k] current = ip := by
  have hend := (mem_iff.mp hmem).2
  refine ⟨ip.toNat - current.toNat, UInt32.toNat_inj.mp ?_⟩
  rw [toNat_iterate_next (by omega)]
  omega

theorem next_cycles (range : LeaseRange) : Cycles range.next range.Mem where
  closed := by
    intro current hmem
    have hle := mem_iff.mp hmem
    by_cases hend : current.toNat < range.endIp.toNat
    · rw [mem_iff, toNat_next hend]
      omega
    · have heq : current = range.endIp := UInt32.toNat_inj.mp (by omega)
      rw [heq, next_endIp]
      exact range.startIp_mem
  visits := by
    intro current ip hcurrent hip
    have hend : range.Mem range.endIp := ⟨range.le, UInt32.le_refl _⟩
    -- up to the end, over to the start, and up to the address
    obtain ⟨k, hk⟩ := exists_iterate_next (mem_iff.mp hcurrent).2 hend
    obtain ⟨l, hl⟩ := exists_iterate_next (mem_iff.mp hip).1 hip
    refine ⟨l + 1 + k, ?_⟩
    rw [Function.iterate_add_apply, hk, Function.iterate_add_apply,
      Function.iterate_one, next_endIp, hl]

end LeaseRange

/-! ## Lookup and allocation -/

section Lookup

variable {server server' : DhcpServer} {node : DhcpClientNode} {chaddr : Bytes}
  {m : Memory} {malloc : Option Chaddr} {fuel : ℕ} {r : Option DhcpClientNode}

theorem findByMac_mem (h : dhcpClientFindByMac server chaddr = some node) :
    node ∈ server.nodeList :=
  List.mem_of_find?_eq_some h

theorem findByMac_matches (h : dhcpClientFindByMac server chaddr = some node) :
    node.Matches chaddr := by
  have hp := List.find?_some h
  simpa using hp

theorem findByMac_eq_none_iff :
    dhcpClientFindByMac server chaddr = none ↔
      ∀ node ∈ server.nodeList, ¬ node.Matches chaddr := by
  unfold dhcpClientFindByMac
  rw [List.find?_eq_none]
  simp

theorem leased_iff {ip : UInt32} :
    server.Leased ip ↔ ∃ node ∈ server.nodeList, node.ipaddr = ip := by
  unfold DhcpServer.Leased dhcpClientFindByIp
  rw [List.find?_isSome]
  simp

theorem requestedNode_mem (h : requestedNode server m = some node) :
    node ∈ server.nodeList ∧ node.Matches (DhcpMsg.requester m) := by
  obtain ⟨ip, -, hfilter⟩ := Option.bind_eq_some_iff.mp h
  obtain ⟨hfind, hmatch⟩ := Option.filter_eq_some_iff.mp hfilter
  exact ⟨List.mem_of_find?_eq_some hfind, by simpa using hmatch⟩

/-- The requested address never decides an allocation: a node that matches was
found before. -/
theorem requestedNode_eq_none
    (h : dhcpClientFindByMac server (DhcpMsg.requester m) = none) :
    requestedNode server m = none := by
  cases hnode : requestedNode server m with
  | none => rfl
  | some node =>
      obtain ⟨hmem, hmatch⟩ := requestedNode_mem hnode
      exact absurd hmatch (findByMac_eq_none_iff.mp h node hmem)

/-- The node that the allocation makes. -/
def newNode (m : Memory) (old : Chaddr) (current : UInt32) : DhcpClientNode where
  chaddr := old.copy (DhcpMsg.requester m)
  ipaddr := current
  client := DhcpMsg.requester m

theorem dhcpClientAlloc_of_found
    (h : dhcpClientFindByMac server (DhcpMsg.requester m) = some node) :
    dhcpClientAlloc server m malloc fuel = some (server, some node) := by
  simp only [dhcpClientAlloc, h]

theorem dhcpClientAlloc_of_not_found
    (h : dhcpClientFindByMac server (DhcpMsg.requester m) = none) :
    dhcpClientAlloc server m malloc fuel =
      (search server.range.next server.Leased fuel server.current).map fun current =>
        match malloc with
        | none => ({ server with current := current }, none)
        | some old =>
            ({ server with
                current := current
                nodeList := newNode m old current :: server.nodeList },
              some (newNode m old current)) := by
  simp only [dhcpClientAlloc, h, requestedNode_eq_none h]
  cases search server.range.next server.Leased fuel server.current with
  | none => rfl
  | some current =>
      cases malloc with
      | none => rfl
      | some old => rfl

/-- What an allocation that returns has done. -/
theorem dhcpClientAlloc_cases
    (h : dhcpClientAlloc server m malloc fuel = some (server', r)) :
    (∃ node, dhcpClientFindByMac server (DhcpMsg.requester m) = some node ∧
      server' = server ∧ r = some node) ∨
    dhcpClientFindByMac server (DhcpMsg.requester m) = none ∧
      ∃ current, search server.range.next server.Leased fuel server.current =
          some current ∧
        ((malloc = none ∧ r = none ∧ server' = { server with current := current }) ∨
        ∃ old, malloc = some old ∧ r = some (newNode m old current) ∧
          server' = { server with
            current := current
            nodeList := newNode m old current :: server.nodeList }) := by
  cases hfind : dhcpClientFindByMac server (DhcpMsg.requester m) with
  | some node =>
      rw [dhcpClientAlloc_of_found hfind, Option.some.injEq, Prod.mk.injEq] at h
      obtain ⟨rfl, rfl⟩ := h
      exact Or.inl ⟨node, rfl, rfl, rfl⟩
  | none =>
      rw [dhcpClientAlloc_of_not_found hfind, Option.map_eq_some_iff] at h
      obtain ⟨current, hsearch, hr⟩ := h
      refine Or.inr ⟨rfl, current, hsearch, ?_⟩
      cases malloc with
      | none =>
          rw [Prod.mk.injEq] at hr
          exact Or.inl ⟨rfl, hr.2.symm, hr.1.symm⟩
      | some old =>
          rw [Prod.mk.injEq] at hr
          exact Or.inr ⟨old, rfl, hr.2.symm, hr.1.symm⟩

end Lookup

/-! ## A message -/

/-- The client address in a datagram that is long enough for the header. -/
def Datagram.requester (p : Datagram) : Bytes :=
  (p.payload.drop 28).take (p.payload.getD 2 0).toNat

/-- All six bytes of the client address field. -/
def Datagram.chaddr (p : Datagram) : Bytes := (p.payload.drop 28).take 6

theorem Datagram.length_chaddr {p : Datagram} (h : 44 ≤ p.payload.length) :
    p.chaddr.length = 6 := by
  rw [Datagram.chaddr, List.length_take, List.length_drop]
  omega

/-- A message that the checks on its header let through. -/
structure DhcpMsg.Checked (m : Memory) : Prop where
  op : DhcpMsg.op m = 1
  cookie : DhcpMsg.cookie m = 0x63825363
  hlen : DhcpMsg.hlen m ≤ 6

section Message

variable {server : DhcpServer} {addr : NetifAddr} {p : Datagram}
  {answers : DhcpAnswers} {m stale beyond : Memory} {malloc : Option Chaddr}
  {fuel : ℕ} {r : DhcpRecvResult}

/-- The client address lies in the part of the header that was received. -/
theorem requester_filled (hlen : 34 ≤ p.payload.length)
    (hchecked : DhcpMsg.hlen (filled p.payload 1500 stale beyond) ≤ 6) :
    DhcpMsg.requester (filled p.payload 1500 stale beyond) = p.requester := by
  have hfield : DhcpMsg.hlen (filled p.payload 1500 stale beyond) =
      p.payload.getD 2 0 := filled_getD (by omega)
  unfold DhcpMsg.requester Datagram.requester
  rw [hfield] at hchecked ⊢
  have hle : (p.payload.getD 2 0).toNat ≤ 6 := UInt8.le_iff_toNat_le.mp hchecked
  generalize (p.payload.getD 2 0).toNat = n at hle
  apply List.ext_getElem?
  intro i
  by_cases hi : i < n
  · have hlt : 28 + i < p.payload.length := by omega
    simp [slice, hi, filled_received hlt, List.getElem?_eq_getElem hlt]
  · simp [slice, hi]

theorem recvMessage_of_not_checked (h : ¬ DhcpMsg.Checked m) :
    recvMessage server addr m malloc fuel = some (ignored server) := by
  unfold recvMessage
  split_ifs with hop hcookie hhlen
  · rfl
  · rfl
  · rfl
  · exact absurd ⟨not_not.mp hop, not_not.mp hcookie, UInt8.not_lt.mp hhlen⟩ h

theorem recvMessage_cases (h : recvMessage server addr m malloc fuel = some r) :
    r = ignored server ∨ DhcpMsg.Checked m ∧
      ((messageType m = some 1 ∧ recvDiscover server addr m malloc fuel = some r) ∨
        (messageType m = some 3 ∧ r = recvRequest server addr m) ∨
        (messageType m = some 7 ∧ r = recvRelease server m)) := by
  unfold recvMessage at h
  split_ifs at h with hop hcookie hhlen
  · exact Or.inl (Option.some.inj h).symm
  · exact Or.inl (Option.some.inj h).symm
  · exact Or.inl (Option.some.inj h).symm
  · have hchecked : DhcpMsg.Checked m :=
      ⟨not_not.mp hop, not_not.mp hcookie, UInt8.not_lt.mp hhlen⟩
    cases htype : messageType m with
    | none =>
        rw [htype] at h
        exact Or.inl (Option.some.inj h).symm
    | some msgType =>
        rw [htype] at h
        dsimp only at h
        split_ifs at h with hdiscover hrequest hrelease
        · exact Or.inr ⟨hchecked, Or.inl ⟨by rw [hdiscover], h⟩⟩
        · exact Or.inr ⟨hchecked, Or.inr (Or.inl
            ⟨by rw [hrequest], (Option.some.inj h).symm⟩)⟩
        · exact Or.inr ⟨hchecked, Or.inr (Or.inr
            ⟨by rw [hrelease], (Option.some.inj h).symm⟩)⟩
        · exact Or.inl (Option.some.inj h).symm

/-- What a call that returns has done with a datagram. -/
theorem dhcpServerRecv_cases (h : dhcpServerRecv server addr p answers = some r) :
    r = ignored server ∨ ∃ stale m, answers.message = some stale ∧
      m = filled p.payload 1500 stale answers.beyond ∧ DhcpMsg.Checked m ∧
      DhcpMsg.requester m = p.requester ∧
      ((messageType m = some 1 ∧
          recvDiscover server addr m answers.malloc answers.fuel = some r) ∨
        (messageType m = some 3 ∧ r = recvRequest server addr m) ∨
        (messageType m = some 7 ∧ r = recvRelease server m)) := by
  by_cases hlen : p.len < 44
  · rw [dhcpServerRecv, if_pos hlen] at h
    exact Or.inl (Option.some.inj h).symm
  have hpayload : 44 ≤ p.payload.length := by
    have := p.le
    omega
  rw [dhcpServerRecv, if_neg hlen] at h
  cases hmessage : answers.message with
  | none =>
      rw [hmessage] at h
      exact Or.inl (Option.some.inj h).symm
  | some stale =>
      rw [hmessage] at h
      dsimp only at h
      split_ifs at h with hlong
      · exact Or.inl (Option.some.inj h).symm
      · refine (recvMessage_cases h).imp_right fun ⟨hchecked, hwork⟩ => ?_
        exact ⟨stale, _, rfl, rfl, hchecked,
          requester_filled (by omega) hchecked.hlen, hwork⟩

end Message

/-! ## Runs -/

/-- A message and what became of it: the client address it carries, the reply, and
the nodes before and after. -/
structure DhcpExchange where
  requester : Bytes
  decision : DhcpDecision
  sent : Option Bytes
  before : List DhcpClientNode
  after : List DhcpClientNode
  deriving DecidableEq

structure DhcpState where
  servers : List DhcpServer
  log : List DhcpExchange
  deriving DecidableEq

inductive DhcpAction where
  | start (netif : ℕ) (range : LeaseRange) (malloc udpNew : Bool)
  | stop (netif : ℕ)
  | recv (netif : ℕ) (addr : NetifAddr) (p : Datagram) (answers : DhcpAnswers)

def exchangeOf (server : DhcpServer) (p : Datagram) (r : DhcpRecvResult) :
    DhcpExchange where
  requester := p.requester
  decision := r.decision
  sent := r.sent
  before := server.nodeList
  after := r.server.nodeList

def DhcpState.received (s : DhcpState) (server : DhcpServer) (p : Datagram)
    (r : DhcpRecvResult) : DhcpState where
  servers := updateServer server.netif (fun _ => r.server) s.servers
  log := exchangeOf server p r :: s.log

/-- Starts and stops of servers, and messages for a server that has its pcb. -/
def dhcpMachine : Machine DhcpState DhcpAction where
  init s := s = ⟨[], []⟩
  step s
    | .start netif range malloc udpNew =>
        some { s with
          servers := dhcpServerStart s.servers netif range malloc udpNew }
    | .stop netif => some { s with servers := dhcpdStop s.servers netif }
    | .recv netif addr p answers =>
        match findServer netif s.servers with
        | none => none
        | some server =>
            if server.pcb then
              (dhcpServerRecv server addr p answers).map (s.received server p)
            else none

section Runs

variable {s s' : DhcpState} {a : DhcpAction} {server : DhcpServer}

theorem findServer_netif {netif : ℕ} {servers : List DhcpServer}
    (h : findServer netif servers = some server) : server.netif = netif := by
  have hp := List.find?_some h
  simpa using hp

/-- A message that a call has dealt with. -/
theorem dhcpMachine_recv_step {netif : ℕ} {addr : NetifAddr} {p : Datagram}
    {answers : DhcpAnswers}
    (hstep : dhcpMachine.step s (.recv netif addr p answers) = some s') :
    ∃ old r, findServer netif s.servers = some old ∧
      dhcpServerRecv old addr p answers = some r ∧ s' = s.received old p r := by
  simp only [dhcpMachine] at hstep
  cases hfind : findServer netif s.servers with
  | none => simp [hfind] at hstep
  | some old =>
      rw [hfind] at hstep
      dsimp only at hstep
      split_ifs at hstep
      obtain ⟨r, hr, rfl⟩ := Option.map_eq_some_iff.mp hstep
      exact ⟨old, r, rfl, hr, rfl⟩

/-- Where a server of the next state comes from. -/
theorem dhcpMachine_step_servers (hstep : dhcpMachine.step s a = some s')
    (hmem : server ∈ s'.servers) :
    server ∈ s.servers ∨
      (∃ old ∈ s.servers, server = { old with dnsserver := noDnsServers }) ∨
      (∃ netif range malloc udpNew, a = .start netif range malloc udpNew ∧
        ((∃ old, findServer netif s.servers = some old ∧
          server = { old with range := range, current := range.startIp }) ∨
        (server.nodeList = [] ∧ server.range = range ∧
          server.current = range.startIp))) ∨
      ∃ netif addr p answers old r, a = .recv netif addr p answers ∧
        findServer netif s.servers = some old ∧
        dhcpServerRecv old addr p answers = some r ∧ server = r.server := by
  cases a with
  | start netif range malloc udpNew =>
      cases hstep
      rcases mem_dhcpServerStart hmem with h | h
      · exact Or.inl h
      · exact Or.inr (Or.inr (Or.inl ⟨_, _, _, _, rfl, h⟩))
  | stop netif =>
      cases hstep
      exact Or.inr (Or.inl (mem_dhcpdStop hmem))
  | recv netif addr p answers =>
      obtain ⟨old, r, hfind, hr, rfl⟩ := dhcpMachine_recv_step hstep
      rcases mem_updateServer hmem with h | ⟨old', -, h⟩
      · exact Or.inl h
      · exact Or.inr (Or.inr (Or.inr
          ⟨netif, addr, p, answers, old, r, rfl, hfind, hr, h⟩))

/-- Where an exchange of the next state comes from. -/
theorem dhcpMachine_step_log {e : DhcpExchange}
    (hstep : dhcpMachine.step s a = some s') (hmem : e ∈ s'.log) :
    e ∈ s.log ∨ ∃ netif addr p answers old r, a = .recv netif addr p answers ∧
      findServer netif s.servers = some old ∧
      dhcpServerRecv old addr p answers = some r ∧ e = exchangeOf old p r := by
  cases a with
  | start netif range malloc udpNew =>
      cases hstep
      exact Or.inl hmem
  | stop netif =>
      cases hstep
      exact Or.inl hmem
  | recv netif addr p answers =>
      obtain ⟨old, r, hfind, hr, rfl⟩ := dhcpMachine_recv_step hstep
      rcases List.mem_cons.mp hmem with rfl | h
      · exact Or.inr ⟨netif, addr, p, answers, old, r, rfl, hfind, hr, rfl⟩
      · exact Or.inl h

end Runs

/-! ## Termination of the allocation -/

section Allocation

variable {server : DhcpServer} {addr : NetifAddr} {p : Datagram}
  {answers : DhcpAnswers} {m : Memory} {malloc : Option Chaddr} {fuel : ℕ}
  {r : DhcpRecvResult}

/-- The cursor stays in the range. -/
theorem current_mem_of_alloc {server' : DhcpServer} {node : Option DhcpClientNode}
    (hcurrent : server.range.Mem server.current)
    (h : dhcpClientAlloc server m malloc fuel = some (server', node)) :
    server'.range = server.range ∧ server.range.Mem server'.current := by
  rcases dhcpClientAlloc_cases h with
    ⟨found, -, rfl, -⟩ | ⟨-, current, hsearch, ⟨-, -, rfl⟩ | ⟨old, -, -, rfl⟩⟩
  · exact ⟨rfl, hcurrent⟩
  · exact ⟨rfl, search_keeps server.range.next_cycles.closed hcurrent hsearch⟩
  · exact ⟨rfl, search_keeps server.range.next_cycles.closed hcurrent hsearch⟩

theorem recvDiscover_cases (h : recvDiscover server addr m malloc fuel = some r) :
    ∃ server' node, dhcpClientAlloc server m malloc fuel = some (server', node) ∧
      (node = none ∧ r = ignored server' ∨
        ∃ found, node = some found ∧
          r = ⟨server', .offer, some (offer server' addr m found), none⟩) := by
  unfold recvDiscover at h
  cases halloc : dhcpClientAlloc server m malloc fuel with
  | none => simp [halloc] at h
  | some result =>
      obtain ⟨server', node⟩ := result
      rw [halloc] at h
      cases node with
      | none => exact ⟨server', none, rfl, Or.inl ⟨rfl, (Option.some.inj h).symm⟩⟩
      | some found =>
          exact ⟨server', some found, rfl,
            Or.inr ⟨found, rfl, (Option.some.inj h).symm⟩⟩

theorem recvDiscover_server (h : recvDiscover server addr m malloc fuel = some r) :
    ∃ node, dhcpClientAlloc server m malloc fuel = some (r.server, node) := by
  obtain ⟨server', node, halloc, ⟨-, rfl⟩ | ⟨found, -, rfl⟩⟩ := recvDiscover_cases h
  · exact ⟨node, halloc⟩
  · exact ⟨node, halloc⟩

theorem recvRequest_server (server : DhcpServer) (addr : NetifAddr) (m : Memory) :
    (recvRequest server addr m).server = server := by
  unfold recvRequest
  cases dhcpClientFind server addr m with
  | none => rfl
  | some node => rfl

theorem current_mem_of_recv (hcurrent : server.range.Mem server.current)
    (h : dhcpServerRecv server addr p answers = some r) :
    r.server.range.Mem r.server.current := by
  rcases dhcpServerRecv_cases h with
    rfl | ⟨stale, m, -, -, -, -, ⟨-, hwork⟩ | ⟨-, rfl⟩ | ⟨-, rfl⟩⟩
  · exact hcurrent
  · obtain ⟨node, halloc⟩ := recvDiscover_server hwork
    obtain ⟨hrange, hmem⟩ := current_mem_of_alloc hcurrent halloc
    rwa [hrange]
  · rwa [recvRequest_server]
  · exact hcurrent

def DhcpState.CursorsInRange (s : DhcpState) : Prop :=
  ∀ server ∈ s.servers, server.range.Mem server.current

theorem current_mem {s : DhcpState} (hs : dhcpMachine.Reachable s)
    (hmem : server ∈ s.servers) : server.range.Mem server.current := by
  have hinv : s.CursorsInRange := by
    refine hs.invariant ?_ ?_
    · rintro s rfl server hmem
      cases hmem
    · intro s a s' ih _ hstep server hmem
      rcases dhcpMachine_step_servers hstep hmem with
        h | ⟨old, hold, rfl⟩ |
        ⟨netif, range, malloc, udpNew, -, ⟨old, -, rfl⟩ | ⟨-, hrange, hcurrent⟩⟩ |
        ⟨netif, addr, p, answers, old, r, -, hfind, hr, rfl⟩
      · exact ih server h
      · exact ih old hold
      · exact range.startIp_mem
      · rw [hrange, hcurrent]
        exact range.startIp_mem
      · exact current_mem_of_recv (ih old (mem_of_findServer hfind)) hr
  exact hinv server hmem

/-- What an allocation is to return: the requester's node, a node with an address
of the range that no other node has, or no node when memory or addresses are used
up. -/
def Allocates (server : DhcpServer) (m : Memory) (malloc : Option Chaddr) : Prop :=
  ∃ fuel server' result, dhcpClientAlloc server m malloc fuel = some (server', result) ∧
    match result with
    | none => malloc = none ∨ ∀ ip, server.range.Mem ip → server.Leased ip
    | some node =>
        node.client = DhcpMsg.requester m ∧
          (node ∈ server.nodeList ∧ server' = server ∨
            server.range.Mem node.ipaddr ∧ ¬ server.Leased node.ipaddr ∧
              server'.nodeList = node :: server.nodeList)

/-- The node that is found first belongs to the requester, and when none is found
an address of the range is free. -/
def CanAllocate (server : DhcpServer) (m : Memory) : Prop :=
  match dhcpClientFindByMac server (DhcpMsg.requester m) with
  | some node => node.client = DhcpMsg.requester m
  | none => ∃ ip, server.range.Mem ip ∧ ¬ server.Leased ip

/-- The loop ends when an address of the range is free, and only then. -/
theorem exists_search_iff_free (hcurrent : server.range.Mem server.current) :
    (∃ n ip, search server.range.next server.Leased n server.current = some ip) ↔
      ∃ ip, server.range.Mem ip ∧ ¬ server.Leased ip :=
  server.range.next_cycles.exists_search_iff hcurrent

theorem allocates_iff {s : DhcpState} (hs : dhcpMachine.Reachable s)
    (hmem : server ∈ s.servers) (m : Memory) (malloc : Option Chaddr) :
    Allocates server m malloc ↔ CanAllocate server m := by
  have hcurrent := current_mem hs hmem
  unfold CanAllocate
  cases hfind : dhcpClientFindByMac server (DhcpMsg.requester m) with
  | some node =>
      have hnode := findByMac_mem hfind
      constructor
      · rintro ⟨fuel, server', result, halloc, hresult⟩
        rw [dhcpClientAlloc_of_found hfind, Option.some.injEq, Prod.mk.injEq] at halloc
        obtain ⟨rfl, rfl⟩ := halloc
        exact hresult.1
      · intro hclient
        exact ⟨0, server, some node, dhcpClientAlloc_of_found hfind, hclient,
          Or.inl ⟨hnode, rfl⟩⟩
  | none =>
      rw [← exists_search_iff_free hcurrent]
      constructor
      · rintro ⟨fuel, server', result, halloc, -⟩
        rw [dhcpClientAlloc_of_not_found hfind, Option.map_eq_some_iff] at halloc
        obtain ⟨current, hsearch, -⟩ := halloc
        exact ⟨fuel, current, hsearch⟩
      · rintro ⟨fuel, current, hsearch⟩
        have hin := search_keeps server.range.next_cycles.closed hcurrent hsearch
        have hfree := not_taken_of_search hsearch
        have halloc : dhcpClientAlloc server m malloc fuel = _ :=
          dhcpClientAlloc_of_not_found hfind
        rw [hsearch] at halloc
        cases malloc with
        | none => exact ⟨fuel, _, _, halloc, Or.inl rfl⟩
        | some old => exact ⟨fuel, _, _, halloc, rfl, Or.inr ⟨hin, hfree, rfl⟩⟩

end Allocation

/-- A message with a complete header, its address and options filled in. -/
def bootRequestPayload (hlen : UInt8) (chaddr : Chaddr) (options : Bytes) : Bytes :=
  [1, 1, hlen, 0] ++ List.replicate 24 0 ++ chaddr.1 ++ List.replicate 202 0 ++
    beU32 0x63825363 ++ options

theorem le_length_bootRequestPayload (hlen : UInt8) (chaddr : Chaddr) (options : Bytes) :
    240 ≤ (bootRequestPayload hlen chaddr options).length := by
  simp only [bootRequestPayload, List.length_append, List.length_replicate,
    List.length_cons, List.length_nil, chaddr.2, beU32]
  omega

/-- Its header is in the first pbuf. -/
def bootRequest (hlen : UInt8) (chaddr : Chaddr) (options : Bytes) : Datagram :=
  ⟨bootRequestPayload hlen chaddr options, 240, le_length_bootRequestPayload _ _ _⟩

def stationAddr (n : UInt8) : Chaddr := ⟨[2, 0, 0, 0, 0, n], rfl⟩

def apAddr : NetifAddr := ⟨dhcpdServerIp, 0xFFFFFF00⟩

/-- A zeroed message buffer and memory for a node. -/
def someMemory : DhcpAnswers := ⟨some fun _ => 0, fun _ => 0, some (stationAddr 0), 8⟩

def discoverFrom (n : UInt8) : DhcpAction :=
  .recv 0 apAddr (bootRequest 6 (stationAddr n) [53, 1, 1, 255]) someMemory

/-- The range of `dhcpd_start(netif, 2, 2)`: two addresses. -/
def twoAddresses : LeaseRange := ⟨0x0A136002, 0x0A136003, by decide, by decide⟩

/-- A server of two addresses with the given leases. -/
def smallPool (nodeList : List DhcpClientNode) (current : UInt32) : DhcpServer where
  netif := 0
  pcb := true
  nodeList := nodeList
  range := twoAddresses
  current := current
  dnsserver := noDnsServers
  staStatusCb := none

def lease (n : UInt8) (ip : UInt32) : DhcpClientNode :=
  ⟨stationAddr n, ip, (stationAddr n).1⟩

/-- The leases of the small pool after a message from each of the stations. -/
theorem smallPool_reachable :
    (∃ s : DhcpState, dhcpMachine.Reachable s ∧
      s.servers = [smallPool [lease 1 0x0A136002] 0x0A136002]) ∧
    ∃ s : DhcpState, dhcpMachine.Reachable s ∧
      s.servers =
        [smallPool [lease 2 0x0A136003, lease 1 0x0A136002] 0x0A136003] := by
  have hone : (dhcpMachine.run ⟨[], []⟩ [.start 0 twoAddresses true true,
      discoverFrom 1]).map DhcpState.servers =
      some [smallPool [lease 1 0x0A136002] 0x0A136002] := by
    decide +kernel
  have htwo : (dhcpMachine.run ⟨[], []⟩ [.start 0 twoAddresses true true,
      discoverFrom 1, discoverFrom 2]).map DhcpState.servers =
      some [smallPool [lease 2 0x0A136003, lease 1 0x0A136002] 0x0A136003] := by
    decide +kernel
  obtain ⟨s, hs, hservers⟩ := Option.map_eq_some_iff.mp hone
  obtain ⟨t, ht, htservers⟩ := Option.map_eq_some_iff.mp htwo
  exact ⟨⟨s, Machine.reachable_of_run rfl _ hs, hservers⟩,
    ⟨t, Machine.reachable_of_run rfl _ ht, htservers⟩⟩

/-- The message buffer with a request of a station in it. -/
def requestOf (n : UInt8) : Memory :=
  filled (bootRequest 6 (stationAddr n) [53, 1, 1, 255]).payload 1500
    (fun _ => 0) (fun _ => 0)

theorem allocates_second_address :
    ∃ (s : DhcpState) (server : DhcpServer), dhcpMachine.Reachable s ∧
      server ∈ s.servers ∧
      Allocates server (requestOf 2) (some (stationAddr 0)) := by
  obtain ⟨⟨s, hs, hservers⟩, -⟩ := smallPool_reachable
  have hmem : smallPool [lease 1 0x0A136002] 0x0A136002 ∈ s.servers := by
    rw [hservers]
    exact List.mem_cons_self
  refine ⟨s, _, hs, hmem, (allocates_iff hs hmem _ _).mpr ?_⟩
  have hfind : dhcpClientFindByMac (smallPool [lease 1 0x0A136002] 0x0A136002)
      (DhcpMsg.requester (requestOf 2)) = none := by
    decide +kernel
  rw [CanAllocate, hfind]
  exact ⟨0x0A136003, by decide, by decide +kernel⟩

/-- With both addresses leased the allocation for a third station does not end. -/
theorem allocation_runs_forever :
    ∃ (s : DhcpState) (server : DhcpServer), dhcpMachine.Reachable s ∧
      server ∈ s.servers ∧
      (∀ fuel, dhcpClientAlloc server (requestOf 3) (some (stationAddr 0)) fuel =
        none) ∧
      ¬ Allocates server (requestOf 3) (some (stationAddr 0)) := by
  obtain ⟨-, ⟨s, hs, hservers⟩⟩ := smallPool_reachable
  have hmem : smallPool [lease 2 0x0A136003, lease 1 0x0A136002] 0x0A136003 ∈
      s.servers := by
    rw [hservers]
    exact List.mem_cons_self
  have hfind : dhcpClientFindByMac
      (smallPool [lease 2 0x0A136003, lease 1 0x0A136002] 0x0A136003)
      (DhcpMsg.requester (requestOf 3)) = none := by
    decide +kernel
  have hnone : ∀ fuel, dhcpClientAlloc
      (smallPool [lease 2 0x0A136003, lease 1 0x0A136002] 0x0A136003)
      (requestOf 3) (some (stationAddr 0)) fuel = none := by
    intro fuel
    rw [dhcpClientAlloc_of_not_found hfind, Option.map_eq_none_iff,
      Option.eq_none_iff_forall_ne_some]
    intro ip hsearch
    obtain ⟨ip, hin, hfree⟩ :=
      (exists_search_iff_free (current_mem hs hmem)).mp ⟨fuel, ip, hsearch⟩
    have hbounds := LeaseRange.mem_iff.mp hin
    have hcases : ip = 0x0A136002 ∨ ip = 0x0A136003 := by
      rw [← UInt32.toNat_inj, ← UInt32.toNat_inj]
      have hlow : 0x0A136002 ≤ ip.toNat := hbounds.1
      have hhigh : ip.toNat ≤ 0x0A136003 := hbounds.2
      show ip.toNat = 0x0A136002 ∨ ip.toNat = 0x0A136003
      omega
    rcases hcases with rfl | rfl
    · exact hfree (by decide +kernel)
    · exact hfree (by decide +kernel)
  refine ⟨s, _, hs, hmem, hnone, ?_⟩
  rintro ⟨fuel, server', result, halloc, -⟩
  rw [hnone fuel] at halloc
  cases halloc

end RtpMulticast
