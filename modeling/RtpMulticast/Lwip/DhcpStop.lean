import RtpMulticast.Lwip.DhcpAllocation

/-!
# Stopping a DHCP server

`dhcp_server_stop` is to remove the server of one interface.  It empties the list
instead, and frees the server without the nodes that the server owns.
-/

namespace RtpMulticast

/-! ## Objects and frees -/

/-- What the server of an interface owns: its structure, its pcb, and its lease nodes,
which are counted from the front of the list. -/
inductive DhcpObject where
  | server (netif : ℕ)
  | pcb (netif : ℕ)
  | node (netif i : ℕ)
  deriving DecidableEq, Repr

def DhcpServer.objects (server : DhcpServer) : List DhcpObject :=
  .server server.netif ::
    ((if server.pcb then [.pcb server.netif] else []) ++
      (List.range server.nodeList.length).map (.node server.netif))

/-- What a call of `dhcp_server_stop` gives back, with `udp_remove` and `vPortFree`. -/
def dhcpServerStopFrees (servers : List DhcpServer) (netif : ℕ) : List DhcpObject :=
  match findServer netif servers with
  | none => []
  | some server => (if server.pcb then [.pcb server.netif] else []) ++ [.server server.netif]

/-- The status, the list and the frees of a stop that touches the server of one
interface only. -/
structure StopsServer (servers : List DhcpServer) (netif : ℕ)
    (result : Bool × List DhcpServer) (frees : List DhcpObject) : Prop where
  absent : findServer netif servers = none →
    result = (false, servers) ∧ frees = []
  present : ∀ server, findServer netif servers = some server →
    result.1 = true ∧
      result.2.Perm (servers.filter fun other => other.netif ≠ netif) ∧
      frees.Perm server.objects

/-! ## Lists that starts and stops build -/

/-- A start or a stop, or what messages and the other functions of the module make of
the leases, the callback and the DNS servers of an interface. -/
inductive ServerListAction where
  | start (netif : ℕ) (range : LeaseRange) (malloc udpNew : Bool)
  | stop (netif : ℕ)
  | lease (netif : ℕ) (nodeList : List DhcpClientNode) (current : UInt32)
  | statusCallback (netif : ℕ) (cb : DhcpdCallback)
  | dnsServers (netif : ℕ) (dnsserver : Vector UInt32 2)

def serverListStep (servers : List DhcpServer) : ServerListAction → List DhcpServer
  | .start netif range malloc udpNew => dhcpServerStart servers netif range malloc udpNew
  | .stop netif => (dhcpServerStop servers netif).2
  | .lease netif nodeList current =>
      updateServer netif
        (fun server => { server with nodeList := nodeList, current := current }) servers
  | .statusCallback netif cb => (dhcpdStatusCallbackSet servers netif cb).2
  | .dnsServers netif dnsserver =>
      updateServer netif (fun server => { server with dnsserver := dnsserver }) servers

def serverListMachine : Machine (List DhcpServer) ServerListAction where
  init := fun servers => servers = []
  step := fun servers a => some (serverListStep servers a)

section Interfaces

variable {servers : List DhcpServer} {server : DhcpServer} {netif : ℕ}

theorem map_netif_updateServer {f : DhcpServer → DhcpServer}
    (hf : ∀ server, (f server).netif = server.netif) (netif : ℕ)
    (servers : List DhcpServer) :
    (updateServer netif f servers).map DhcpServer.netif =
      servers.map DhcpServer.netif := by
  induction servers with
  | nil => rfl
  | cons first rest ih =>
      rw [updateServer]
      split_ifs
      · rw [List.map_cons, List.map_cons, hf]
      · rw [List.map_cons, List.map_cons, ih]

theorem findServer_eq_none_iff :
    findServer netif servers = none ↔ netif ∉ servers.map DhcpServer.netif := by
  simp [findServer, List.find?_eq_none]

theorem netif_of_findServer (h : findServer netif servers = some server) :
    server.netif = netif := by
  simpa [findServer] using List.find?_some h

/-- An interface has one server at most. -/
def DistinctNetifs (servers : List DhcpServer) : Prop :=
  (servers.map DhcpServer.netif).Nodup

theorem DistinctNetifs.update {f : DhcpServer → DhcpServer} (h : DistinctNetifs servers)
    (hf : ∀ server, (f server).netif = server.netif) (netif : ℕ) :
    DistinctNetifs (updateServer netif f servers) := by
  unfold DistinctNetifs
  rwa [map_netif_updateServer hf]

theorem DistinctNetifs.step (h : DistinctNetifs servers) (a : ServerListAction) :
    DistinctNetifs (serverListStep servers a) := by
  match a with
  | .start netif range malloc udpNew =>
      simp only [serverListStep, dhcpServerStart]
      split_ifs with hfind hmalloc
      · exact h.update (by intro server; rfl) netif
      · unfold DistinctNetifs
        rw [List.map_cons, List.nodup_cons]
        refine ⟨?_, h⟩
        apply findServer_eq_none_iff.mp
        simpa using hfind
      · exact h
  | .stop netif =>
      simp only [serverListStep, dhcpServerStop]
      split
      · exact h
      · exact List.nodup_nil
  | .lease netif nodeList current => exact h.update (by intro server; rfl) netif
  | .statusCallback netif cb => exact h.update (by intro server; rfl) netif
  | .dnsServers netif dnsserver => exact h.update (by intro server; rfl) netif

theorem distinctNetifs (h : serverListMachine.Reachable servers) :
    DistinctNetifs servers := by
  apply h.invariant
  · rintro _ rfl
    exact List.nodup_nil
  · intro servers a servers' hdistinct _ hstep
    obtain rfl := Option.some.inj hstep
    exact hdistinct.step a

/-- Where an interface has one server, no other server is left without it exactly
when it is the only one. -/
theorem filter_others_eq_nil_iff (hdistinct : DistinctNetifs servers)
    (hfind : findServer netif servers = some server) :
    servers.filter (fun other => other.netif ≠ netif) = [] ↔ servers = [server] := by
  have hnetif := netif_of_findServer hfind
  constructor
  · intro hnil
    have hall : ∀ other ∈ servers, other.netif = netif := by
      simpa [List.filter_eq_nil_iff] using hnil
    have hrep : servers.map DhcpServer.netif = List.replicate servers.length netif := by
      rw [List.eq_replicate_iff]
      refine ⟨List.length_map _, fun n hn => ?_⟩
      obtain ⟨other, hother, rfl⟩ := List.mem_map.mp hn
      exact hall other hother
    rw [DistinctNetifs, hrep, List.nodup_replicate] at hdistinct
    match servers, hfind with
    | [], hfind => exact absurd hfind (by simp [findServer])
    | [other], hfind =>
        have : server ∈ [other] := mem_of_findServer hfind
        rw [List.mem_singleton.mp this]
    | _ :: _ :: _, _ => simp at hdistinct
  · rintro rfl
    simp [hnetif]

/-- Without its nodes, a server is freed whole exactly when it has none. -/
theorem stopFrees_perm_objects_iff (hfind : findServer netif servers = some server) :
    (dhcpServerStopFrees servers netif).Perm server.objects ↔ server.nodeList = [] := by
  have hfrees : dhcpServerStopFrees servers netif =
      (if server.pcb then [.pcb server.netif] else []) ++ [.server server.netif] := by
    rw [dhcpServerStopFrees, hfind]
  rw [hfrees]
  constructor
  · intro hperm
    have hlen := hperm.length_eq
    simp only [DhcpServer.objects, List.length_append, List.length_cons, List.length_nil,
      List.length_map, List.length_range] at hlen
    exact List.eq_nil_of_length_eq_zero (by omega)
  · intro hnil
    rw [DhcpServer.objects, hnil, List.length_nil, List.range_zero, List.map_nil,
      List.append_nil]
    exact List.perm_append_comm

end Interfaces

/-! ## When the stop is right -/

/-- In every list that starts and stops build, a stop touches one server only and
frees it whole exactly when the interface has none, or the list holds nothing but its
server, without leases. -/
theorem stopsServer_iff {servers : List DhcpServer}
    (h : serverListMachine.Reachable servers) (netif : ℕ) :
    StopsServer servers netif (dhcpServerStop servers netif)
        (dhcpServerStopFrees servers netif) ↔
      ∀ server, findServer netif servers = some server →
        servers = [server] ∧ server.nodeList = [] := by
  constructor
  · intro hstop server hfind
    obtain ⟨-, hothers, hfrees⟩ := hstop.present server hfind
    have hnil : (dhcpServerStop servers netif).2 = [] := by rw [dhcpServerStop, hfind]
    rw [hnil] at hothers
    exact ⟨(filter_others_eq_nil_iff (distinctNetifs h) hfind).mp hothers.nil_eq.symm,
      (stopFrees_perm_objects_iff hfind).mp hfrees⟩
  · intro hwhole
    constructor
    · intro hnone
      rw [dhcpServerStop, dhcpServerStopFrees, hnone]
      exact ⟨rfl, rfl⟩
    · intro server hfind
      obtain ⟨honly, hleases⟩ := hwhole server hfind
      have hstop : dhcpServerStop servers netif = (true, []) := by
        rw [dhcpServerStop, hfind]
      rw [hstop, (filter_others_eq_nil_iff (distinctNetifs h) hfind).mpr honly]
      exact ⟨rfl, List.Perm.nil, (stopFrees_perm_objects_iff hfind).mpr hleases⟩

theorem stopsServer_iff_started :
    ∃ servers, serverListMachine.Reachable servers ∧ servers.length = 1 ∧
      (StopsServer servers 0 (dhcpServerStop servers 0) (dhcpServerStopFrees servers 0) ↔
        ∀ server, findServer 0 servers = some server →
          servers = [server] ∧ server.nodeList = []) := by
  have hreach := serverListMachine.reachable_of_run (s := []) rfl
    [.start 0 twoAddresses true true] rfl
  exact ⟨_, hreach, rfl, stopsServer_iff hreach 0⟩

/-- Two interfaces: stopping the first loses the server of the second. -/
theorem not_stopsServer_two :
    ¬ ∀ servers, serverListMachine.Reachable servers → ∀ netif,
      StopsServer servers netif (dhcpServerStop servers netif)
        (dhcpServerStopFrees servers netif) := by
  intro hall
  have hreach := serverListMachine.reachable_of_run (s := []) rfl
    [.start 0 twoAddresses true true, .start 1 twoAddresses true true] rfl
  have hstop := (hall _ hreach 0).present _ rfl
  exact absurd hstop.2.1.length_eq (by decide)

end RtpMulticast
