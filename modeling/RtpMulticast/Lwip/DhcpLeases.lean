import RtpMulticast.Lwip.DhcpAllocation
import Mathlib.Data.List.GetD
import Mathlib.Data.List.Nodup

/-!
# Leases and their owners

A lease is looked up by the first `hlen` bytes of its stored address, and `hlen`
is chosen by the sender of a message.  As long as these bytes meet no lease of
another client, and no range is replaced by one that leaves a lease out, all
leases are unique, in the range, and answered and released to their owners only.
-/

namespace RtpMulticast

open ByteBuffer ByteMemory CyclicSearch

/-! ## What is to hold -/

structure DhcpServer.UniqueLeases (server : DhcpServer) : Prop where
  ips : (server.nodeList.map fun node => node.ipaddr).Nodup
  chaddrs : (server.nodeList.map fun node => node.chaddr).Nodup
  clients : (server.nodeList.map fun node => node.client).Nodup
  inRange : ∀ node ∈ server.nodeList, server.range.Mem node.ipaddr

/-- The field `yiaddr` of a reply. -/
def replyYiaddr (reply : Bytes) : UInt32 :=
  u32OfBytes (reply.getD 19 0) (reply.getD 18 0) (reply.getD 17 0) (reply.getD 16 0)

structure DhcpExchange.Owned (e : DhcpExchange) : Prop where
  granted : e.decision = .offer ∨ e.decision = .ack →
    ∃ node ∈ e.after, node.client = e.requester ∧ node.Matches e.requester ∧
      e.sent.map replyYiaddr = some node.ipaddr
  kept : e.decision ≠ .release → e.before <:+ e.after
  released : e.decision = .release → e.after = e.before ∨
    ∃ node l₁ l₂, node.client = e.requester ∧ e.before = l₁ ++ node :: l₂ ∧
      e.after = l₁ ++ l₂

def DhcpState.LeasesOwned (s : DhcpState) : Prop :=
  (∀ server ∈ s.servers, server.UniqueLeases) ∧ ∀ e ∈ s.log, e.Owned

/-! ## When it holds -/

/-- The lease that the lookups of a message meet first. -/
def matchedLease (server : DhcpServer) (m : Memory) : Option DhcpClientNode :=
  if messageType m = some 3 then
    (requestedNode server m).or (dhcpClientFindByMac server (DhcpMsg.requester m))
  else dhcpClientFindByMac server (DhcpMsg.requester m)

/-- A `DISCOVER`, `REQUEST` or `RELEASE` that passes the checks meets no lease that
was allocated for another client address than the one it carries. -/
def MeetsOwnLease (server : DhcpServer) (m : Memory) : Prop :=
  DhcpMsg.Checked m → messageType m ∈ [some 1, some 3, some 7] →
    ∀ node ∈ matchedLease server m, node.client = DhcpMsg.requester m

/-- A range replaces another one only with all leases in it, and messages meet
leases of their senders only. -/
def KeepsLeases (s : DhcpState) : DhcpAction → Prop
  | .start netif range _ _ =>
      ∀ server ∈ findServer netif s.servers,
        ∀ node ∈ server.nodeList, range.Mem node.ipaddr
  | .stop _ => True
  | .recv netif _ p answers =>
      ∀ server ∈ findServer netif s.servers, ∀ stale ∈ answers.message,
        MeetsOwnLease server (filled p.payload 1500 stale answers.beyond)

instance (m : Memory) : Decidable (DhcpMsg.Checked m) :=
  decidable_of_iff
    (DhcpMsg.op m = 1 ∧ DhcpMsg.cookie m = 0x63825363 ∧ DhcpMsg.hlen m ≤ 6)
    ⟨fun ⟨hop, hcookie, hhlen⟩ => ⟨hop, hcookie, hhlen⟩,
      fun h => ⟨h.op, h.cookie, h.hlen⟩⟩

instance (server : DhcpServer) (m : Memory) : Decidable (MeetsOwnLease server m) :=
  inferInstanceAs (Decidable (_ → _ → ∀ node ∈ matchedLease server m, _))

instance (s : DhcpState) (a : DhcpAction) : Decidable (KeepsLeases s a) :=
  match a with
  | .start _ _ _ _ => inferInstanceAs (Decidable (∀ server ∈ findServer _ _, _))
  | .stop _ => isTrue trivial
  | .recv _ _ _ _ => inferInstanceAs (Decidable (∀ server ∈ findServer _ _, _))

/-! ## Replies -/

section Replies

variable {server : DhcpServer} {addr : NetifAddr} {m : Memory} {node : DhcpClientNode}

theorem replyYiaddr_append (m : Memory) (rest : Bytes) :
    replyYiaddr (slice m 0 dhcpOptionsOfs ++ rest) = loadBe32 m 16 := by
  have hbyte (i : ℕ) (hi : i < dhcpOptionsOfs) :
      (slice m 0 dhcpOptionsOfs ++ rest).getD i 0 = m i := by
    rw [List.getD_append _ _ _ _ (by rwa [length_slice]), getD_slice hi, Nat.zero_add]
  unfold replyYiaddr
  rw [hbyte 19 (by decide), hbyte 18 (by decide), hbyte 17 (by decide),
    hbyte 16 (by decide)]
  rfl

theorem loadBe32_replyHeader (m : Memory) (addr : NetifAddr) (yiaddr : UInt32) :
    loadBe32 (replyHeader m addr yiaddr) 16 = yiaddr :=
  loadBe32_store _ 16 yiaddr

theorem replyYiaddr_offer : replyYiaddr (offer server addr m node) = node.ipaddr := by
  rw [offer, replyYiaddr_append, loadBe32_replyHeader]

theorem replyYiaddr_ack : replyYiaddr (ack server addr m node) = node.ipaddr := by
  rw [ack, replyYiaddr_append, loadBe32_replyHeader]

end Replies

/-! ## One message -/

/-- The first bytes of a stored address are those it was allocated for. -/
structure DhcpServer.Valid (server : DhcpServer) : Prop
    extends server.UniqueLeases where
  current : server.range.Mem server.current
  stored : ∀ node ∈ server.nodeList, node.Matches node.client

theorem Chaddr.copy_startsWith (old : Chaddr) {b : Bytes} (h : b.length ≤ 6) :
    b <+: (old.copy b).1 := by
  show b <+: (b ++ old.1.drop b.length).take 6
  rw [List.take_append, List.take_of_length_le h]
  exact List.prefix_append _ _

section Message

variable {server server' : DhcpServer} {addr : NetifAddr} {p : Datagram}
  {answers : DhcpAnswers} {m : Memory} {malloc : Option Chaddr} {fuel : ℕ}
  {r : DhcpRecvResult} {node : DhcpClientNode} {found : Option DhcpClientNode}

theorem length_requester (m : Memory) :
    (DhcpMsg.requester m).length = (DhcpMsg.hlen m).toNat :=
  length_slice _ _ _

theorem newNode_matches (hlen : DhcpMsg.hlen m ≤ 6) (old : Chaddr) (ip : UInt32) :
    (newNode m old ip).Matches (DhcpMsg.requester m) := by
  refine old.copy_startsWith ?_
  rw [length_requester]
  exact UInt8.le_iff_toNat_le.mp hlen

/-- A node for a client that matched no node, at a free address of the range. -/
theorem DhcpServer.Valid.newNode (hvalid : server.Valid) (hlen : DhcpMsg.hlen m ≤ 6)
    (hnone : dhcpClientFindByMac server (DhcpMsg.requester m) = none)
    {ip : UInt32} (hin : server.range.Mem ip) (hfree : ¬ server.Leased ip)
    (old : Chaddr) :
    ({ server with
        current := ip
        nodeList := RtpMulticast.newNode m old ip :: server.nodeList } :
      DhcpServer).Valid := by
  have hfresh := findByMac_eq_none_iff.mp hnone
  have hnew := newNode_matches hlen old ip
  refine ⟨⟨?_, ?_, ?_, ?_⟩, hin, ?_⟩
  · rw [List.map_cons, List.nodup_cons]
    refine ⟨?_, hvalid.ips⟩
    intro hmem
    obtain ⟨node, hnode, hip⟩ := List.mem_map.mp hmem
    exact hfree (leased_iff.mpr ⟨node, hnode, hip⟩)
  · rw [List.map_cons, List.nodup_cons]
    refine ⟨?_, hvalid.chaddrs⟩
    intro hmem
    obtain ⟨node, hnode, hchaddr⟩ := List.mem_map.mp hmem
    refine hfresh node hnode ?_
    rw [DhcpClientNode.Matches, hchaddr]
    exact hnew
  · rw [List.map_cons, List.nodup_cons]
    refine ⟨?_, hvalid.clients⟩
    intro hmem
    obtain ⟨node, hnode, hclient⟩ := List.mem_map.mp hmem
    refine hfresh node hnode ?_
    have hstored := hvalid.stored node hnode
    rwa [hclient] at hstored
  · intro node hnode
    rcases List.mem_cons.mp hnode with rfl | hnode
    · exact hin
    · exact hvalid.inRange node hnode
  · intro node hnode
    rcases List.mem_cons.mp hnode with rfl | hnode
    · exact hnew
    · exact hvalid.stored node hnode

theorem DhcpServer.Valid.alloc (hvalid : server.Valid) (hlen : DhcpMsg.hlen m ≤ 6)
    (h : dhcpClientAlloc server m malloc fuel = some (server', found)) :
    server'.Valid := by
  rcases dhcpClientAlloc_cases h with
    ⟨node, -, rfl, -⟩ | ⟨hnone, current, hsearch, hrest⟩
  · exact hvalid
  · have hin := search_keeps server.range.next_cycles.closed hvalid.current hsearch
    rcases hrest with ⟨-, -, rfl⟩ | ⟨old, -, -, rfl⟩
    · exact ⟨⟨hvalid.ips, hvalid.chaddrs, hvalid.clients, hvalid.inRange⟩, hin,
        hvalid.stored⟩
    · exact hvalid.newNode hlen hnone hin (not_taken_of_search hsearch) old

/-- The node that an allocation gives to a client whose lookups meet its own lease
only. -/
theorem alloc_owned (hlen : DhcpMsg.hlen m ≤ 6)
    (hown : ∀ node ∈ dhcpClientFindByMac server (DhcpMsg.requester m),
      node.client = DhcpMsg.requester m)
    (h : dhcpClientAlloc server m malloc fuel = some (server', some node)) :
    node ∈ server'.nodeList ∧ node.client = DhcpMsg.requester m ∧
      node.Matches (DhcpMsg.requester m) := by
  rcases dhcpClientAlloc_cases h with
    ⟨node', hfind, rfl, hnode⟩ | ⟨-, current, -, ⟨-, hnode, -⟩ | ⟨old, -, hnode, rfl⟩⟩
  · cases hnode
    exact ⟨findByMac_mem hfind, hown node hfind, findByMac_matches hfind⟩
  · cases hnode
  · cases hnode
    exact ⟨List.mem_cons_self, rfl, newNode_matches hlen old current⟩

theorem alloc_keeps (h : dhcpClientAlloc server m malloc fuel = some (server', found)) :
    server.nodeList <:+ server'.nodeList := by
  rcases dhcpClientAlloc_cases h with
    ⟨node', -, rfl, -⟩ | ⟨-, current, -, ⟨-, -, rfl⟩ | ⟨old, -, -, rfl⟩⟩
  · exact List.suffix_rfl
  · exact List.suffix_rfl
  · exact List.suffix_cons _ _

/-- The node that a request is answered with is one the lookups met. -/
theorem matchedLease_of_find (htype : messageType m = some 3)
    (h : dhcpClientFind server addr m = some node) :
    matchedLease server m = some node := by
  rw [matchedLease, if_pos htype]
  unfold dhcpClientFind at h
  unfold requestedNode
  cases hrequested : requestedIp m with
  | none =>
      rw [hrequested] at h
      exact h
  | some ip =>
      rw [hrequested] at h
      dsimp only at h
      rw [Option.bind_some]
      cases hfind : dhcpClientFindByIp server ip with
      | none =>
          rw [hfind] at h
          dsimp only at h
          split_ifs at h
          · exact h
          · exact h
      | some found =>
          rw [hfind] at h
          dsimp only at h
          split_ifs at h with hmatch
          · rw [Option.filter_some_pos (by simpa using hmatch)]
            exact h
          · rw [Option.filter_some_neg (by simpa using hmatch)]
            exact h

theorem matchedLease_mem (h : matchedLease server m = some node) :
    node ∈ server.nodeList ∧ node.Matches (DhcpMsg.requester m) := by
  unfold matchedLease at h
  split_ifs at h
  · rcases Option.or_eq_some_iff.mp h with h | ⟨-, h⟩
    · exact requestedNode_mem h
    · exact ⟨findByMac_mem h, findByMac_matches h⟩
  · exact ⟨findByMac_mem h, findByMac_matches h⟩

theorem DhcpServer.Valid.sublist (hvalid : server.Valid) {nodeList : List DhcpClientNode}
    (hsub : nodeList.Sublist server.nodeList) :
    ({ server with nodeList := nodeList } : DhcpServer).Valid where
  ips := hvalid.ips.sublist (hsub.map _)
  chaddrs := hvalid.chaddrs.sublist (hsub.map _)
  clients := hvalid.clients.sublist (hsub.map _)
  inRange node hnode := hvalid.inRange node (hsub.subset hnode)
  current := hvalid.current
  stored node hnode := hvalid.stored node (hsub.subset hnode)

/-- An exchange that is no grant and no release leaves the nodes alone. -/
theorem exchange_owned_of_kept (hdecision : r.decision = .ignore ∨ r.decision = .nak)
    (hkept : server.nodeList <:+ r.server.nodeList) :
    (exchangeOf server p r).Owned := by
  have hne (d : DhcpDecision) (hd : d ≠ .ignore ∧ d ≠ .nak) : r.decision ≠ d := by
    intro heq
    rw [heq] at hdecision
    exact hdecision.elim hd.1 hd.2
  refine ⟨fun h => ?_, fun _ => hkept, fun h => ?_⟩
  · exact absurd h (not_or.mpr ⟨hne _ (by decide), hne _ (by decide)⟩)
  · exact absurd h (hne _ (by decide))

/-- An exchange that grants a node of the requester. -/
theorem exchange_owned_of_granted (hdecision : r.decision ≠ .release)
    (hkept : server.nodeList <:+ r.server.nodeList)
    (hmem : node ∈ r.server.nodeList) (hclient : node.client = p.requester)
    (hmatch : node.Matches p.requester)
    (hsent : r.sent.map replyYiaddr = some node.ipaddr) :
    (exchangeOf server p r).Owned where
  granted _ := ⟨node, hmem, hclient, hmatch, hsent⟩
  kept _ := hkept
  released h := absurd h hdecision

theorem recvDiscover_owned (hvalid : server.Valid) (hlen : DhcpMsg.hlen m ≤ 6)
    (hrequester : DhcpMsg.requester m = p.requester)
    (hown : ∀ node ∈ dhcpClientFindByMac server (DhcpMsg.requester m),
      node.client = DhcpMsg.requester m)
    (h : recvDiscover server addr m malloc fuel = some r) :
    r.server.Valid ∧ (exchangeOf server p r).Owned := by
  obtain ⟨server', node, halloc, ⟨-, rfl⟩ | ⟨found, rfl, rfl⟩⟩ := recvDiscover_cases h
  · exact ⟨hvalid.alloc hlen halloc,
      exchange_owned_of_kept (Or.inl rfl) (alloc_keeps halloc)⟩
  · obtain ⟨hmem, hclient, hmatch⟩ := alloc_owned hlen hown halloc
    rw [hrequester] at hclient hmatch
    exact ⟨hvalid.alloc hlen halloc,
      exchange_owned_of_granted nofun (alloc_keeps halloc) hmem hclient hmatch
        (congrArg some replyYiaddr_offer)⟩

theorem recvRequest_owned (htype : messageType m = some 3)
    (hrequester : DhcpMsg.requester m = p.requester)
    (hown : ∀ node ∈ matchedLease server m, node.client = DhcpMsg.requester m) :
    (exchangeOf server p (recvRequest server addr m)).Owned := by
  unfold recvRequest
  cases hfind : dhcpClientFind server addr m with
  | none => exact exchange_owned_of_kept (Or.inr rfl) List.suffix_rfl
  | some node =>
      have hmatched := matchedLease_of_find htype hfind
      have hclient := hown node hmatched
      obtain ⟨hmem, hmatch⟩ := matchedLease_mem hmatched
      rw [hrequester] at hclient hmatch
      exact exchange_owned_of_granted nofun List.suffix_rfl hmem hclient hmatch
        (congrArg some replyYiaddr_ack)

/-- A release takes the first node that matches. -/
theorem recvRelease_owned (hrequester : DhcpMsg.requester m = p.requester)
    (hown : ∀ node ∈ dhcpClientFindByMac server (DhcpMsg.requester m),
      node.client = DhcpMsg.requester m) :
    (exchangeOf server p (recvRelease server m)).Owned where
  granted h := by
    rcases h with h | h
    · cases h
    · cases h
  kept h := absurd rfl h
  released _ := by
    have herased := List.exists_or_eq_self_of_eraseP
      (fun node : DhcpClientNode => node.Matches (DhcpMsg.requester m)) server.nodeList
    rcases herased with h | ⟨node, l₁, l₂, hbefore, hmatch, hsplit, herase⟩
    · exact Or.inl h
    · have hfind : dhcpClientFindByMac server (DhcpMsg.requester m) = some node := by
        rw [dhcpClientFindByMac, List.find?_eq_some_iff_append]
        refine ⟨hmatch, l₁, l₂, hsplit, fun a ha => ?_⟩
        simpa using hbefore a ha
      exact Or.inr ⟨node, l₁, l₂, (hown node hfind).trans hrequester, hsplit, herase⟩

/-- One message keeps the leases in order. -/
theorem DhcpServer.Valid.recv (hvalid : server.Valid)
    (hown : ∀ stale ∈ answers.message,
      MeetsOwnLease server (filled p.payload 1500 stale answers.beyond))
    (h : dhcpServerRecv server addr p answers = some r) :
    r.server.Valid ∧ (exchangeOf server p r).Owned := by
  rcases dhcpServerRecv_cases h with
    rfl | ⟨stale, m, hmessage, rfl, hchecked, hrequester, hwork⟩
  · exact ⟨hvalid, exchange_owned_of_kept (Or.inl rfl) List.suffix_rfl⟩
  · have hmatched := hown stale hmessage hchecked
    rcases hwork with ⟨htype, hwork⟩ | ⟨htype, rfl⟩ | ⟨htype, rfl⟩
    · have hfirst := hmatched (by simp [htype])
      rw [matchedLease, if_neg (by simp [htype])] at hfirst
      exact recvDiscover_owned hvalid hchecked.hlen hrequester hfirst hwork
    · refine ⟨?_, recvRequest_owned htype hrequester (hmatched (by simp [htype]))⟩
      rwa [recvRequest_server]
    · have hfirst := hmatched (by simp [htype])
      rw [matchedLease, if_neg (by simp [htype])] at hfirst
      exact ⟨hvalid.sublist List.eraseP_sublist, recvRelease_owned hrequester hfirst⟩

end Message

/-! ## Every run -/

section Runs

variable {s s' : DhcpState} {a : DhcpAction}

/-- The invariant of runs whose steps all keep leases. -/
structure DhcpState.Valid (s : DhcpState) : Prop where
  servers : ∀ server ∈ s.servers, server.Valid
  log : ∀ e ∈ s.log, e.Owned

theorem DhcpState.Valid.step (hvalid : s.Valid) (hguard : KeepsLeases s a)
    (hstep : dhcpMachine.step s a = some s') : s'.Valid where
  servers := by
    intro server hmem
    rcases dhcpMachine_step_servers hstep hmem with
      h | ⟨old, hold, rfl⟩ |
      ⟨netif, range, malloc, udpNew, rfl, ⟨old, hfind, rfl⟩ |
        ⟨hempty, hrange, hcurrent⟩⟩ |
      ⟨netif, addr, p, answers, old, r, rfl, hfind, hr, rfl⟩
    · exact hvalid.servers server h
    · have hold := hvalid.servers old hold
      exact ⟨⟨hold.ips, hold.chaddrs, hold.clients, hold.inRange⟩, hold.current,
        hold.stored⟩
    · have hold := hvalid.servers old (mem_of_findServer hfind)
      exact ⟨⟨hold.ips, hold.chaddrs, hold.clients, hguard old hfind⟩,
        range.startIp_mem, hold.stored⟩
    · have hnode (node : DhcpClientNode) : node ∉ server.nodeList := by
        rw [hempty]
        exact List.not_mem_nil
      refine ⟨⟨?_, ?_, ?_, fun node h => absurd h (hnode node)⟩, ?_,
        fun node h => absurd h (hnode node)⟩
      · simp [hempty]
      · simp [hempty]
      · simp [hempty]
      · rw [hrange, hcurrent]
        exact range.startIp_mem
    · have hold := hvalid.servers old (mem_of_findServer hfind)
      exact (hold.recv (hguard old hfind) hr).1
  log := by
    intro e hmem
    rcases dhcpMachine_step_log hstep hmem with
      h | ⟨netif, addr, p, answers, old, r, rfl, hfind, hr, rfl⟩
    · exact hvalid.log e h
    · have hold := hvalid.servers old (mem_of_findServer hfind)
      exact (hold.recv (hguard old hfind) hr).2

/-- Leases stay unique, in their range and with their owners. -/
theorem leases_owned (hs : dhcpMachine.ReachableVia KeepsLeases s) : s.LeasesOwned := by
  have hvalid : s.Valid := by
    refine hs.invariant ?_ fun s a s' hvalid hguard hstep => hvalid.step hguard hstep
    rintro s rfl
    exact ⟨fun server h => absurd h List.not_mem_nil, fun e h => absurd h List.not_mem_nil⟩
  exact ⟨fun server hmem => (hvalid.servers server hmem).toUniqueLeases, hvalid.log⟩

end Runs

/-! ## Messages with whole addresses -/

/-- Every message carries an address of six bytes, and ranges keep leases in. -/
def WholeAddresses (s : DhcpState) : DhcpAction → Prop
  | .recv _ _ p _ => p.payload.getD 2 0 = 6
  | a => KeepsLeases s a

/-- Every node stores the whole address it was allocated for. -/
def DhcpState.StoredWhole (s : DhcpState) : Prop :=
  ∀ server ∈ s.servers, ∀ node ∈ server.nodeList, node.client = node.chaddr.1

section WholeAddresses

variable {s s' : DhcpState} {a : DhcpAction} {server : DhcpServer} {p : Datagram}
  {m : Memory} {node : DhcpClientNode}

theorem hlen_filled (h : p.payload.getD 2 0 = 6) (stale beyond : Memory) :
    DhcpMsg.hlen (filled p.payload 1500 stale beyond) = 6 := by
  have hlt : 2 < p.payload.length := by
    by_contra hle
    rw [List.getD_eq_default _ _ (Nat.not_lt.mp hle)] at h
    cases h
  exact (filled_getD hlt).trans h

/-- Over six bytes a match is the equality of the addresses. -/
theorem chaddr_eq_of_matches (hlen : DhcpMsg.hlen m = 6)
    (h : node.Matches (DhcpMsg.requester m)) : node.chaddr.1 = DhcpMsg.requester m := by
  refine (h.eq_of_length ?_).symm
  rw [length_requester, hlen, node.chaddr.2]
  rfl

theorem DhcpState.StoredWhole.step (hwhole : s.StoredWhole) (hguard : WholeAddresses s a)
    (hstep : dhcpMachine.step s a = some s') : s'.StoredWhole := by
  intro server hmem node hnode
  rcases dhcpMachine_step_servers hstep hmem with
    h | ⟨old, hold, rfl⟩ |
    ⟨netif, range, malloc, udpNew, rfl, ⟨old, hfind, rfl⟩ | ⟨hempty, -, -⟩⟩ |
    ⟨netif, addr, p, answers, old, r, rfl, hfind, hr, rfl⟩
  · exact hwhole server h node hnode
  · exact hwhole old hold node hnode
  · exact hwhole old (mem_of_findServer hfind) node hnode
  · rw [hempty] at hnode
    cases hnode
  · have hold := hwhole old (mem_of_findServer hfind)
    rcases dhcpServerRecv_cases hr with
      rfl | ⟨stale, m, -, rfl, -, -, ⟨-, hwork⟩ | ⟨-, rfl⟩ | ⟨-, rfl⟩⟩
    · exact hold node hnode
    · obtain ⟨found, halloc⟩ := recvDiscover_server hwork
      rcases dhcpClientAlloc_cases halloc with
        ⟨first, -, hserver, -⟩ | ⟨-, current, -, ⟨-, -, hserver⟩ | ⟨chaddr, -, -, hserver⟩⟩
      · rw [hserver] at hnode
        exact hold node hnode
      · rw [hserver] at hnode
        exact hold node hnode
      · rw [hserver] at hnode
        rcases List.mem_cons.mp hnode with rfl | hnode
        · have hlen := hlen_filled hguard stale answers.beyond
          exact (chaddr_eq_of_matches hlen
            (newNode_matches (UInt8.le_of_eq hlen) chaddr current)).symm
        · exact hold node hnode
    · rw [recvRequest_server] at hnode
      exact hold node hnode
    · exact hold node (List.mem_of_mem_eraseP hnode)

/-- Messages with whole addresses meet their senders' leases only. -/
theorem keepsLeases_of_wholeAddresses (hs : dhcpMachine.ReachableVia WholeAddresses s) :
    dhcpMachine.ReachableVia KeepsLeases s := by
  refine hs.mono fun s a hreach hguard => ?_
  have hwhole : s.StoredWhole := by
    refine hreach.invariant ?_ fun s a s' hwhole hguard hstep => hwhole.step hguard hstep
    rintro s rfl server hmem
    cases hmem
  cases a with
  | start netif range malloc udpNew => exact hguard
  | stop netif => exact trivial
  | recv netif addr p answers =>
      intro server hfind stale _ _ _ node hnode
      obtain ⟨hmem, hmatch⟩ := matchedLease_mem hnode
      rw [hwhole server (mem_of_findServer hfind) node hmem]
      exact chaddr_eq_of_matches (hlen_filled hguard _ _) hmatch

end WholeAddresses

def requestFrom (n : UInt8) (options : Bytes) : DhcpAction :=
  .recv 0 apAddr (bootRequest 6 (stationAddr n) ([53, 1, 3] ++ options ++ [255]))
    someMemory

def releaseFrom (hlen n : UInt8) : DhcpAction :=
  .recv 0 apAddr (bootRequest hlen (stationAddr n) [53, 1, 7, 255]) someMemory

theorem leases_owned_two_stations :
    ∃ s : DhcpState, s.log.length = 4 ∧ dhcpMachine.ReachableVia KeepsLeases s ∧
      s.LeasesOwned := by
  have hrun : (dhcpMachine.run ⟨[], []⟩ [.start 0 twoAddresses true true,
      discoverFrom 1, requestFrom 1 [50, 4, 10, 19, 96, 2], discoverFrom 2,
      releaseFrom 6 1]).map (fun s => s.log.length) = some 4 := by
    decide +kernel
  have hmeets : dhcpMachine.Meets KeepsLeases ⟨[], []⟩
      [.start 0 twoAddresses true true, discoverFrom 1,
        requestFrom 1 [50, 4, 10, 19, 96, 2], discoverFrom 2, releaseFrom 6 1] := by
    decide +kernel
  obtain ⟨s, hs, hlog⟩ := Option.map_eq_some_iff.mp hrun
  have hreach := Machine.ReachableVia.run (.init rfl) _ hmeets hs
  exact ⟨s, hlog, hreach, leases_owned hreach⟩

/-- A release with `hlen = 0` takes another station's lease, and a start with a new
range leaves a lease outside of it. -/
theorem leases_mixed_up :
    (∃ s : DhcpState, dhcpMachine.Reachable s ∧
      s.log.head? = some ⟨[], .release, none, [lease 1 0x0A136002], []⟩ ∧
      ¬ s.LeasesOwned) ∧
    ∃ s : DhcpState, dhcpMachine.Reachable s ∧
      (∃ server ∈ s.servers, ¬ server.UniqueLeases) ∧ ¬ s.LeasesOwned := by
  constructor
  · have hrun : (dhcpMachine.run ⟨[], []⟩ [.start 0 twoAddresses true true,
        discoverFrom 1, releaseFrom 0 2]).map (fun s => s.log.head?) =
        some (some ⟨[], .release, none, [lease 1 0x0A136002], []⟩) := by
      decide +kernel
    obtain ⟨s, hs, hlog⟩ := Option.map_eq_some_iff.mp hrun
    refine ⟨s, Machine.reachable_of_run rfl _ hs, hlog, ?_⟩
    rintro ⟨-, howned⟩
    have hreleased := (howned _ (List.mem_of_head? hlog)).released rfl
    rcases hreleased with h | ⟨node, l₁, l₂, hclient, hbefore, -⟩
    · cases h
    · have hmem : node ∈ [lease 1 0x0A136002] := by
        rw [show [lease 1 0x0A136002] = l₁ ++ node :: l₂ from hbefore]
        simp
      rw [List.mem_singleton] at hmem
      rw [hmem] at hclient
      exact absurd hclient (by decide)
  · have hrun : (dhcpMachine.run ⟨[], []⟩ [.start 0 twoAddresses true true,
        discoverFrom 1,
        .start 0 ⟨0x0A136010, 0x0A136020, by decide, by decide⟩ true true]).map
        (fun s => s.servers.any fun server =>
          server.nodeList.any fun node => ¬ server.range.Mem node.ipaddr) =
        some true := by
      decide +kernel
    obtain ⟨s, hs, hany⟩ := Option.map_eq_some_iff.mp hrun
    obtain ⟨server, hserver, hnodes⟩ := List.any_eq_true.mp hany
    obtain ⟨node, hnode, hout⟩ := List.any_eq_true.mp hnodes
    have hunique : ¬ server.UniqueLeases := by
      intro h
      exact (of_decide_eq_true hout) (h.inRange node hnode)
    exact ⟨s, Machine.reachable_of_run rfl _ hs, ⟨server, hserver, hunique⟩,
      fun h => hunique (h.1 server hserver)⟩

end RtpMulticast
