import RtpMulticast.Lwip.DhcpLeases
import Mathlib.Logic.Function.Basic

/-!
# The table of connected stations

The soft-AP keeps a table of its stations and the addresses they got.  The table is
allocated when the link comes up and freed when it goes down; the DHCP server of the
interface reports every address it acknowledges to a callback that writes it there.
-/

namespace RtpMulticast

open ByteBuffer ByteMemory

/-! ## The table -/

/-- `ap_sta_ipv4_entry_t`. -/
structure ApStaIpv4Entry where
  used : Bool
  ipv4Logged : Bool
  mac : Chaddr
  ipv4Addr : UInt32
  deriving DecidableEq

/-- An entry set to zero. -/
def ApStaIpv4Entry.zero : ApStaIpv4Entry := ⟨false, false, ⟨[0, 0, 0, 0, 0, 0], rfl⟩, 0⟩

/-- The entry is in use for this address. -/
def ApStaIpv4Entry.Holds (entry : ApStaIpv4Entry) (mac : Bytes) : Prop :=
  entry.used = true ∧ entry.mac.1 = mac

instance (entry : ApStaIpv4Entry) (mac : Bytes) : Decidable (entry.Holds mac) :=
  inferInstanceAs (Decidable (_ ∧ _))

/-- `W6X_WIFI_MAX_CONNECTED_STATIONS` entries. -/
abbrev StationTable := Fin 4 → ApStaIpv4Entry

/-- The first entry with a property. -/
def StationTable.find (table : StationTable) (p : ApStaIpv4Entry → Bool) :
    Option (Fin 4) :=
  (List.finRange 4).find? fun count => p (table count)

def apStaIpv4TableAddEntry (table : Option StationTable) (mac : Option Chaddr) :
    Int × Option StationTable :=
  match mac, table with
  | some mac, some t =>
      match t.find fun entry => entry.Holds mac.1 with
      | some count => (count, some t)
      | none =>
          match t.find fun entry => entry.used = false with
          | some count =>
              (count, some (Function.update t count
                { ApStaIpv4Entry.zero with used := true, mac := mac }))
          | none => (-1, some t)
  | _, _ => (-1, table)

def apStaIpv4TableDelEntry (table : Option StationTable) (mac : Option Chaddr) :
    Int × Option StationTable :=
  match mac, table with
  | some mac, some t =>
      match t.find fun entry => entry.Holds mac.1 with
      | some count => (count, some (Function.update t count ApStaIpv4Entry.zero))
      | none => (-1, some t)
  | _, _ => (-1, table)

def StationTable.setAddr (t : StationTable) (count : Fin 4) (ip : UInt32) :
    StationTable :=
  Function.update t count { t count with ipv4Addr := ip }

def StationTable.setLogged (t : StationTable) (count : Fin 4) : StationTable :=
  Function.update t count { t count with ipv4Logged := true }

/-- The loop of `wifi_ap_status_callback` over the entries that are left. -/
def statusLoop (ip : UInt32) (mac : Chaddr) : List (Fin 4) → StationTable → StationTable
  | [], t => t
  | count :: rest, t =>
      if (t count).Holds mac.1 then
        if (t.setAddr count ip count).ipv4Logged then
          statusLoop ip mac rest (t.setAddr count ip)
        else (t.setAddr count ip).setLogged count
      else statusLoop ip mac rest t

/-- The callback with the address and the hardware address of its argument; no result
is an access through the table while there is none. -/
def wifiApStatusCallback (table : Option StationTable) (ip : UInt32) (mac : Chaddr) :
    Option (Option StationTable) :=
  if ip = 0 then some table
  else table.map fun t => some (statusLoop ip mac (List.finRange 4) t)

/-! ## The interface of the soft-AP -/

/-- An acknowledged address: the client address of the request, the address in the
reply, and the table after the callback. -/
structure StationAck where
  mac : Bytes
  ip : UInt32
  table : Option StationTable

/-- `netifAp` is `netif_usr_list[NETIF_AP]`.  `nullAccess` records an access through
the table while there is none. -/
structure ApState where
  netifAp : Option ℕ
  addr : NetifAddr
  table : Option StationTable
  servers : List DhcpServer
  nullAccess : Bool
  acks : List StationAck

def netifLinkApUpCb (s : ApState) (tableMalloc : Bool) (answers : DhcpdStartAnswers) :
    ApState :=
  match s.netifAp with
  | none => s
  | some netif =>
      if tableMalloc then
        let started := dhcpdStart s.servers netif s.addr (-1) (-1) answers
        { s with
          addr := started.1
          table := some fun _ => ApStaIpv4Entry.zero
          servers :=
            (dhcpdStatusCallbackSet started.2 netif .wifiApStatusCallback).2 }
      else { s with table := none }

def netifLinkApDownCb (s : ApState) : ApState :=
  match s.netifAp with
  | none => s
  | some netif =>
      { s with
        servers := dhcpdStop s.servers netif
        table := none }

/-- The callback of the server runs after an acknowledgement. -/
def ApState.received (s : ApState) (netif : ℕ) (p : Datagram) (r : DhcpRecvResult) :
    ApState :=
  let s' := { s with servers := updateServer netif (fun _ => r.server) s.servers }
  let s' :=
    match r.status with
    | none => s'
    | some (ip, mac) =>
        match wifiApStatusCallback s.table ip mac with
        | none => { s' with nullAccess := true }
        | some table => { s' with table := table }
  if r.decision = .ack then
    { s' with
      acks := ⟨p.chaddr, replyYiaddr (r.sent.getD []), s'.table⟩ :: s'.acks }
  else s'

inductive ApAction where
  | up (tableMalloc : Bool) (answers : DhcpdStartAnswers)
  | down
  | add (mac : Option Chaddr)
  | del (mac : Option Chaddr)
  | recv (p : Datagram) (answers : DhcpAnswers)

/-- The link events of the soft-AP, the stations that come and go, and the messages
for the DHCP server of the interface. -/
def apMachine : Machine ApState ApAction where
  init s := s.table = none ∧ s.servers = [] ∧ s.nullAccess = false ∧ s.acks = []
  step s
    | .up tableMalloc answers => some (netifLinkApUpCb s tableMalloc answers)
    | .down => some (netifLinkApDownCb s)
    | .add mac => some { s with table := (apStaIpv4TableAddEntry s.table mac).2 }
    | .del mac => some { s with table := (apStaIpv4TableDelEntry s.table mac).2 }
    | .recv p answers =>
        match s.netifAp with
        | none => none
        | some netif =>
            match findServer netif s.servers with
            | none => none
            | some server =>
                if server.pcb then
                  (dhcpServerRecv server s.addr p answers).map (s.received netif p)
                else none

/-! ## What is to hold -/

/-- At most one entry is in use for an address. -/
def StationTable.DistinctMacs (t : StationTable) : Prop :=
  ∀ i j, (t i).used = true → (t j).used = true → (t i).mac = (t j).mac → i = j

/-- The entry of the station holds the acknowledged address. -/
def StationAck.Recorded (ack : StationAck) : Prop :=
  ∀ t ∈ ack.table, ∀ count, (t count).Holds ack.mac → (t count).ipv4Addr = ack.ip

structure ApState.TableValid (s : ApState) : Prop where
  noNullAccess : s.nullAccess = false
  distinct : ∀ t ∈ s.table, t.DistinctMacs
  recorded : ∀ ack ∈ s.acks, ack.Recorded

/-- A `REQUEST` of a station in the table, if it is acknowledged, gets a lease whose
six bytes of address are those in the message. -/
def AcknowledgesWholeAddress (server : DhcpServer) (addr : NetifAddr) (p : Datagram)
    (table : Option StationTable) (m : Memory) : Prop :=
  DhcpMsg.Checked m → messageType m = some 3 →
    ∀ t ∈ table, (∃ count, (t count).Holds p.chaddr) →
      ∀ node ∈ dhcpClientFind server addr m, node.chaddr.1 = p.chaddr

/-- A table is given up without a new one only while no DHCP server of the interface
gets messages, and the lease acknowledged to a station of the table is stored under
all of its address. -/
def KeepsTable (s : ApState) : ApAction → Prop
  | .up tableMalloc _ =>
      ∀ netif ∈ s.netifAp, ∀ server ∈ findServer netif s.servers,
        tableMalloc = true ∨ server.pcb = false
  | .recv p answers =>
      ∀ netif ∈ s.netifAp, ∀ server ∈ findServer netif s.servers,
        ∀ stale ∈ answers.message,
          AcknowledgesWholeAddress server s.addr p s.table
            (filled p.payload 1500 stale answers.beyond)
  | _ => True

instance (server : DhcpServer) (addr : NetifAddr) (p : Datagram)
    (table : Option StationTable) (m : Memory) :
    Decidable (AcknowledgesWholeAddress server addr p table m) :=
  inferInstanceAs (Decidable (_ → _ → ∀ t ∈ table, _ →
    ∀ node ∈ dhcpClientFind server addr m, _))

instance (s : ApState) (a : ApAction) : Decidable (KeepsTable s a) :=
  match a with
  | .up _ _ => inferInstanceAs (Decidable (∀ netif ∈ s.netifAp, _))
  | .down => isTrue trivial
  | .add _ => isTrue trivial
  | .del _ => isTrue trivial
  | .recv _ _ => inferInstanceAs (Decidable (∀ netif ∈ s.netifAp, _))

/-! ## Changes of the table -/

section Table

variable {t : StationTable} {p : ApStaIpv4Entry → Bool} {mac : Chaddr} {ip : UInt32}
  {i count : Fin 4} {entry : ApStaIpv4Entry}

theorem StationTable.find_none (h : t.find p = none) (count : Fin 4) :
    ¬ p (t count) = true :=
  List.find?_eq_none.mp h count (List.mem_finRange count)

/-- Another address than those in use may take an entry. -/
theorem StationTable.DistinctMacs.update (h : t.DistinctMacs) (count : Fin 4)
    (hentry : entry.used = true →
      ∀ i, i ≠ count → (t i).used = true → (t i).mac ≠ entry.mac) :
    StationTable.DistinctMacs (Function.update t count entry) := by
  intro i j hi hj hmac
  by_cases hic : i = count
  · by_cases hjc : j = count
    · rw [hic, hjc]
    · rw [hic, Function.update_self] at hi hmac
      rw [Function.update_of_ne hjc] at hj hmac
      exact absurd hmac.symm (hentry hi j hjc hj)
  · rw [Function.update_of_ne hic] at hi hmac
    by_cases hjc : j = count
    · rw [hjc, Function.update_self] at hj hmac
      exact absurd hmac (hentry hj i hic hi)
    · rw [Function.update_of_ne hjc] at hj hmac
      exact h i j hi hj hmac

theorem addEntry_distinct {table : Option StationTable} {mac : Option Chaddr}
    (h : ∀ t ∈ table, t.DistinctMacs) :
    ∀ t ∈ (apStaIpv4TableAddEntry table mac).2, t.DistinctMacs := by
  unfold apStaIpv4TableAddEntry
  cases mac with
  | none => exact h
  | some mac =>
      cases table with
      | none => exact h
      | some t =>
          dsimp only
          cases hfind : t.find fun entry => entry.Holds mac.1 with
          | some count => exact h
          | none =>
              dsimp only
              cases hfree : t.find fun entry => entry.used = false with
              | none => exact h
              | some count =>
                  rintro t' ⟨⟩
                  refine (h t rfl).update count fun _ i _ hused hmac => ?_
                  have hholds : (t i).Holds mac.1 := ⟨hused, congrArg Subtype.val hmac⟩
                  exact StationTable.find_none hfind i (by simpa using hholds)

theorem delEntry_distinct {table : Option StationTable} {mac : Option Chaddr}
    (h : ∀ t ∈ table, t.DistinctMacs) :
    ∀ t ∈ (apStaIpv4TableDelEntry table mac).2, t.DistinctMacs := by
  unfold apStaIpv4TableDelEntry
  cases mac with
  | none => exact h
  | some mac =>
      cases table with
      | none => exact h
      | some t =>
          dsimp only
          cases hfind : t.find fun entry => entry.Holds mac.1 with
          | none => exact h
          | some count =>
              rintro t' ⟨⟩
              refine (h t rfl).update count ?_
              rintro ⟨⟩

theorem addEntry_isSome (table : Option StationTable) (mac : Option Chaddr) :
    (apStaIpv4TableAddEntry table mac).2.isSome = table.isSome := by
  unfold apStaIpv4TableAddEntry
  split
  · split
    · rfl
    · split
      · rfl
      · rfl
  · rfl

theorem delEntry_isSome (table : Option StationTable) (mac : Option Chaddr) :
    (apStaIpv4TableDelEntry table mac).2.isSome = table.isSome := by
  unfold apStaIpv4TableDelEntry
  split
  · split
    · rfl
    · rfl
  · rfl

/-- A write that keeps the owner of an entry keeps all owners. -/
theorem update_owner (hused : entry.used = (t count).used)
    (hmac : entry.mac = (t count).mac) (i : Fin 4) :
    (Function.update t count entry i).used = (t i).used ∧
      (Function.update t count entry i).mac = (t i).mac := by
  by_cases hi : i = count
  · rw [hi, Function.update_self]
    exact ⟨hused, hmac⟩
  · rw [Function.update_of_ne hi]
    exact ⟨rfl, rfl⟩

theorem setAddr_owner (t : StationTable) (count : Fin 4) (ip : UInt32) (i : Fin 4) :
    (t.setAddr count ip i).used = (t i).used ∧
      (t.setAddr count ip i).mac = (t i).mac := by
  apply update_owner
  · rfl
  · rfl

theorem setLogged_owner (t : StationTable) (count i : Fin 4) :
    (t.setLogged count i).used = (t i).used ∧
      (t.setLogged count i).mac = (t i).mac := by
  apply update_owner
  · rfl
  · rfl

@[simp] theorem setAddr_addr_self (t : StationTable) (count : Fin 4) (ip : UInt32) :
    (t.setAddr count ip count).ipv4Addr = ip := by
  simp [StationTable.setAddr]

theorem setAddr_addr_of_eq (h : (t i).ipv4Addr = ip) (count : Fin 4) :
    (t.setAddr count ip i).ipv4Addr = ip := by
  by_cases hi : i = count
  · rw [hi, setAddr_addr_self]
  · rwa [StationTable.setAddr, Function.update_of_ne hi]

@[simp] theorem setLogged_addr (t : StationTable) (count i : Fin 4) :
    (t.setLogged count i).ipv4Addr = (t i).ipv4Addr := by
  by_cases hi : i = count
  · rw [hi, StationTable.setLogged, Function.update_self]
  · rw [StationTable.setLogged, Function.update_of_ne hi]

theorem statusLoop_owner (ip : UInt32) (mac : Chaddr) (counts : List (Fin 4))
    (t : StationTable) (i : Fin 4) :
    (statusLoop ip mac counts t i).used = (t i).used ∧
      (statusLoop ip mac counts t i).mac = (t i).mac := by
  induction counts generalizing t with
  | nil => exact ⟨rfl, rfl⟩
  | cons count rest ih =>
      have haddr := setAddr_owner t count ip i
      rw [statusLoop]
      split_ifs with hholds hlogged
      · have hrest := ih (t.setAddr count ip)
        exact ⟨hrest.1.trans haddr.1, hrest.2.trans haddr.2⟩
      · have hlog := setLogged_owner (t.setAddr count ip) count i
        exact ⟨hlog.1.trans haddr.1, hlog.2.trans haddr.2⟩
      · exact ih t

theorem statusLoop_distinct (h : t.DistinctMacs) (ip : UInt32) (mac : Chaddr)
    (counts : List (Fin 4)) : (statusLoop ip mac counts t).DistinctMacs := by
  intro i j hi hj hmac
  obtain ⟨hiused, himac⟩ := statusLoop_owner ip mac counts t i
  obtain ⟨hjused, hjmac⟩ := statusLoop_owner ip mac counts t j
  rw [hiused] at hi
  rw [hjused] at hj
  rw [himac, hjmac] at hmac
  exact h i j hi hj hmac

/-- Once an entry holds the address, the rest of the loop leaves it there. -/
theorem statusLoop_addr_of_eq (h : (t i).ipv4Addr = ip) (mac : Chaddr)
    (counts : List (Fin 4)) : (statusLoop ip mac counts t i).ipv4Addr = ip := by
  induction counts generalizing t with
  | nil => exact h
  | cons count rest ih =>
      rw [statusLoop]
      split_ifs with hholds hlogged
      · exact ih (setAddr_addr_of_eq h count)
      · rw [setLogged_addr]
        exact setAddr_addr_of_eq h count
      · exact ih h

/-- The entry of the station gets the address: no other entry stops the loop before
it. -/
theorem statusLoop_addr (hdistinct : t.DistinctMacs) (hholds : (t i).Holds mac.1)
    {counts : List (Fin 4)} (hmem : i ∈ counts) :
    (statusLoop ip mac counts t i).ipv4Addr = ip := by
  induction counts with
  | nil => cases hmem
  | cons count rest ih =>
      rw [statusLoop]
      by_cases hcount : (t count).Holds mac.1
      · have heq : i = count := hdistinct i count hholds.1 hcount.1
          (Subtype.ext (hholds.2.trans hcount.2.symm))
        rw [if_pos hcount, heq]
        split_ifs
        · exact statusLoop_addr_of_eq (setAddr_addr_self t count ip) mac rest
        · rw [setLogged_addr, setAddr_addr_self]
      · rw [if_neg hcount]
        rcases List.mem_cons.mp hmem with rfl | hmem
        · exact absurd hholds hcount
        · exact ih hmem

end Table

/-! ## The server of the soft-AP -/

/-- The range of `dhcpd_start(netif, -1, -1)`. -/
def softApRange : LeaseRange := ⟨0x0A136002, 0x0A1360FE, by decide, by decide⟩

theorem ne_zero_of_mem_softApRange {ip : UInt32} (h : softApRange.Mem ip) : ip ≠ 0 := by
  rintro rfl
  exact absurd h (by decide)

theorem dhcpdConfig_default (addr : NetifAddr) :
    dhcpdConfig addr (-1) (-1) = (⟨dhcpdServerIp, 0xFFFFFF00⟩, some softApRange) := by
  rw [dhcpdConfig, if_pos (Or.inl rfl)]
  decide +kernel

/-- The server that an interface started with the default range has. -/
structure SoftApServer (netif : ℕ) (server : DhcpServer) : Prop where
  netif : server.netif = netif
  range : server.range = softApRange
  current : softApRange.Mem server.current
  inRange : ∀ node ∈ server.nodeList, softApRange.Mem node.ipaddr

section Server

variable {netif : ℕ} {server : DhcpServer} {servers : List DhcpServer}
  {addr : NetifAddr} {p : Datagram} {answers : DhcpAnswers} {r : DhcpRecvResult}

/-- A start keeps the leases of the server, or makes one without leases. -/
theorem dhcpServerStart_softAp (malloc udpNew : Bool)
    (h : servers = [] ∨ ∃ server, servers = [server] ∧ SoftApServer netif server) :
    dhcpServerStart servers netif softApRange malloc udpNew = [] ∨
      ∃ server, dhcpServerStart servers netif softApRange malloc udpNew = [server] ∧
        SoftApServer netif server := by
  rcases h with rfl | ⟨server, rfl, hserver⟩
  · cases malloc with
    | false => exact Or.inl rfl
    | true =>
        refine Or.inr ⟨_, rfl, rfl, rfl, softApRange.startIp_mem, ?_⟩
        intro node hnode
        cases hnode
  · refine Or.inr
      ⟨{ server with range := softApRange, current := softApRange.startIp }, ?_,
        hserver.netif, rfl, softApRange.startIp_mem, hserver.inRange⟩
    simp [dhcpServerStart, findServer, updateServer, hserver.netif]

theorem dhcpdStop_softAp
    (h : servers = [] ∨ ∃ server, servers = [server] ∧ SoftApServer netif server) :
    dhcpdStop servers netif = [] := by
  rcases h with rfl | ⟨server, rfl, hserver⟩
  · rfl
  · simp [dhcpdStop, dhcpServerStop, dhcpServerClearDnsServer, findServer,
      hserver.netif]

/-- A message leaves alone what belongs to the interface, and new leases are in the
range. -/
theorem recv_softAp (hserver : SoftApServer netif server)
    (h : dhcpServerRecv server addr p answers = some r) :
    SoftApServer netif r.server ∧ r.server.pcb = server.pcb ∧
      r.server.staStatusCb = server.staStatusCb := by
  rcases dhcpServerRecv_cases h with
    rfl | ⟨stale, m, -, -, -, -, ⟨-, hwork⟩ | ⟨-, rfl⟩ | ⟨-, rfl⟩⟩
  · exact ⟨hserver, rfl, rfl⟩
  · obtain ⟨node, halloc⟩ := recvDiscover_server hwork
    have hcurrent : server.range.Mem server.current := by
      rw [hserver.range]
      exact hserver.current
    have hin := (current_mem_of_alloc hcurrent halloc).2
    rw [hserver.range] at hin
    rcases dhcpClientAlloc_cases halloc with
      ⟨found, -, hr, -⟩ | ⟨-, current, -, ⟨-, -, hr⟩ | ⟨old, -, -, hr⟩⟩
    · rw [hr]
      exact ⟨hserver, rfl, rfl⟩
    · rw [hr] at hin ⊢
      exact ⟨⟨hserver.netif, hserver.range, hin, hserver.inRange⟩, rfl, rfl⟩
    · rw [hr] at hin ⊢
      refine ⟨⟨hserver.netif, hserver.range, hin, ?_⟩, rfl, rfl⟩
      intro node hnode
      rcases List.mem_cons.mp hnode with rfl | hnode
      · exact hin
      · exact hserver.inRange node hnode
  · rw [recvRequest_server]
    exact ⟨hserver, rfl, rfl⟩
  · refine ⟨⟨hserver.netif, hserver.range, hserver.current, ?_⟩, rfl, rfl⟩
    intro node hnode
    exact hserver.inRange node (List.mem_of_mem_eraseP hnode)

theorem mem_of_dhcpClientFind {m : Memory} {node : DhcpClientNode}
    (htype : messageType m = some 3) (h : dhcpClientFind server addr m = some node) :
    node ∈ server.nodeList :=
  (matchedLease_mem (matchedLease_of_find htype h)).1

/-- A message with a whole address meets leases that are stored under it. -/
theorem acknowledgesWholeAddress_of_hlen (h : p.payload.getD 2 0 = 6)
    (table : Option StationTable) (stale beyond : Memory) :
    AcknowledgesWholeAddress server addr p table
      (filled p.payload 1500 stale beyond) := by
  intro hchecked htype t _ hstation node hnode
  obtain ⟨count, -, hmac⟩ := hstation
  have hlength : p.chaddr.length = 6 := by rw [← hmac, (t count).mac.2]
  have hpayload : 34 ≤ p.payload.length := by
    rw [Datagram.chaddr, List.length_take, List.length_drop] at hlength
    omega
  have hrequester := requester_filled (p := p) hpayload hchecked.hlen
  obtain ⟨-, hmatch⟩ := matchedLease_mem (matchedLease_of_find htype hnode)
  rw [chaddr_eq_of_matches (hlen_filled h _ _) hmatch, hrequester, Datagram.requester, h]
  rfl

/-- Only acknowledgements have a status, that of the lease they carry. -/
theorem recv_status (h : dhcpServerRecv server addr p answers = some r) :
    (r.decision ≠ .ack ∧ r.status = none) ∨
      ∃ stale m node, answers.message = some stale ∧
        m = filled p.payload 1500 stale answers.beyond ∧ DhcpMsg.Checked m ∧
        messageType m = some 3 ∧ dhcpClientFind server addr m = some node ∧
        r = ⟨server, .ack, some (ack server addr m node),
          server.staStatusCb.map fun _ => (node.ipaddr, node.chaddr)⟩ := by
  rcases dhcpServerRecv_cases h with
    rfl | ⟨stale, m, hmessage, hm, hchecked, -, ⟨-, hwork⟩ | ⟨htype, rfl⟩ | ⟨-, rfl⟩⟩
  · exact Or.inl ⟨nofun, rfl⟩
  · obtain ⟨server', node, -, ⟨-, rfl⟩ | ⟨found, -, rfl⟩⟩ := recvDiscover_cases hwork
    · exact Or.inl ⟨nofun, rfl⟩
    · exact Or.inl ⟨nofun, rfl⟩
  · cases hfind : dhcpClientFind server addr m with
    | none =>
        rw [recvRequest, hfind]
        exact Or.inl ⟨nofun, rfl⟩
    | some node =>
        refine Or.inr ⟨stale, m, node, hmessage, hm, hchecked, htype, hfind, ?_⟩
        rw [recvRequest, hfind]
  · exact Or.inl ⟨nofun, rfl⟩

end Server

/-! ## Every run -/

/-- The server of the soft-AP reports to the callback, and gets messages only while
there is a table. -/
structure ApState.ServerValid (s : ApState) (server : DhcpServer) : Prop where
  softAp : ∃ netif, s.netifAp = some netif ∧ SoftApServer netif server
  callback : server.staStatusCb = some .wifiApStatusCallback
  table : server.pcb = true → s.table.isSome = true

structure ApState.Valid (s : ApState) : Prop extends s.TableValid where
  servers : s.servers = [] ∨ ∃ server, s.servers = [server] ∧ s.ServerValid server

section Runs

variable {s s' : ApState} {netif : ℕ} {server : DhcpServer} {p : Datagram}
  {r : DhcpRecvResult}

/-- The servers as the DHCP functions find them. -/
theorem ApState.Valid.softAp (hvalid : s.Valid) (hnetif : s.netifAp = some netif) :
    s.servers = [] ∨ ∃ server, s.servers = [server] ∧ SoftApServer netif server := by
  refine hvalid.servers.imp_right ?_
  rintro ⟨server, hservers, hserver⟩
  obtain ⟨netif', hnetif', hsoftAp⟩ := hserver.softAp
  rw [hnetif, Option.some.injEq] at hnetif'
  exact ⟨server, hservers, hnetif' ▸ hsoftAp⟩

/-- Setting the callback, once the start is through. -/
theorem callbackSet_softAp {servers : List DhcpServer}
    (h : servers = [] ∨ ∃ server, servers = [server] ∧ SoftApServer netif server) :
    (dhcpdStatusCallbackSet servers netif .wifiApStatusCallback).2 = [] ∨
      ∃ server, (dhcpdStatusCallbackSet servers netif .wifiApStatusCallback).2 =
          [server] ∧ SoftApServer netif server ∧
        server.staStatusCb = some .wifiApStatusCallback := by
  rcases h with rfl | ⟨server, rfl, hserver⟩
  · exact Or.inl rfl
  · refine Or.inr ⟨{ server with staStatusCb := some .wifiApStatusCallback }, ?_,
      ⟨hserver.netif, hserver.range, hserver.current, hserver.inRange⟩, rfl⟩
    simp [dhcpdStatusCallbackSet, updateServer, hserver.netif]

theorem ApState.Valid.up (hvalid : s.Valid) {tableMalloc : Bool}
    {answers : DhcpdStartAnswers} (hguard : KeepsTable s (.up tableMalloc answers)) :
    (netifLinkApUpCb s tableMalloc answers).Valid := by
  unfold netifLinkApUpCb
  cases hnetif : s.netifAp with
  | none => exact hvalid
  | some netif =>
      dsimp only
      cases tableMalloc with
      | false =>
          rw [if_neg Bool.false_ne_true]
          refine ⟨⟨hvalid.noNullAccess, ?_, hvalid.recorded⟩, ?_⟩
          · rintro t ⟨⟩
          · refine hvalid.servers.imp_right ?_
            rintro ⟨server, hservers, hserver⟩
            obtain ⟨netif', hnetif', hsoftAp⟩ := hserver.softAp
            have hfind : findServer netif s.servers = some server := by
              rw [hnetif, Option.some.injEq] at hnetif'
              rw [hservers, findServer, List.find?_cons_of_pos]
              simp [hsoftAp.netif, hnetif']
            have hpcb := (hguard netif hnetif server hfind).resolve_left Bool.false_ne_true
            refine ⟨server, hservers, ⟨netif', hnetif.symm.trans hnetif', hsoftAp⟩,
              hserver.callback, ?_⟩
            intro h
            rw [hpcb] at h
            cases h
      | true =>
          rw [if_pos rfl]
          have hstarted : (dhcpdStart s.servers netif s.addr (-1) (-1) answers).2 = [] ∨
              ∃ server, (dhcpdStart s.servers netif s.addr (-1) (-1) answers).2 =
                [server] ∧ SoftApServer netif server := by
            rw [dhcpdStart, dhcpdConfig_default]
            dsimp only
            split_ifs
            · exact dhcpServerStart_softAp _ _ (hvalid.softAp hnetif)
            · exact hvalid.softAp hnetif
          refine ⟨⟨hvalid.noNullAccess, ?_, hvalid.recorded⟩, ?_⟩
          · rintro t ⟨⟩ i j hi
            cases hi
          · refine (callbackSet_softAp hstarted).imp_right ?_
            rintro ⟨server, hservers, hsoftAp, hcallback⟩
            exact ⟨server, hservers, ⟨netif, rfl, hsoftAp⟩, hcallback, fun _ => rfl⟩

theorem ApState.Valid.down (hvalid : s.Valid) : (netifLinkApDownCb s).Valid := by
  unfold netifLinkApDownCb
  cases hnetif : s.netifAp with
  | none => exact hvalid
  | some netif =>
      refine ⟨⟨hvalid.noNullAccess, ?_, hvalid.recorded⟩,
        Or.inl (dhcpdStop_softAp (hvalid.softAp hnetif))⟩
      rintro t ⟨⟩

/-- A table for a table, with the stations distinct. -/
theorem ApState.Valid.setTable (hvalid : s.Valid) {table : Option StationTable}
    (hdistinct : ∀ t ∈ table, t.DistinctMacs) (hsome : table.isSome = s.table.isSome) :
    ({ s with table := table } : ApState).Valid := by
  refine ⟨⟨hvalid.noNullAccess, hdistinct, hvalid.recorded⟩, ?_⟩
  refine hvalid.servers.imp_right ?_
  rintro ⟨server, hservers, hserver⟩
  refine ⟨server, hservers, hserver.softAp, hserver.callback, fun hpcb => ?_⟩
  exact hsome.trans (hserver.table hpcb)

theorem ApState.Valid.addAck (hvalid : s.Valid) {ack : StationAck} (hack : ack.Recorded) :
    ({ s with acks := ack :: s.acks } : ApState).Valid := by
  refine ⟨⟨hvalid.noNullAccess, hvalid.distinct, ?_⟩, ?_⟩
  · intro ack' hmem
    rcases List.mem_cons.mp hmem with rfl | hmem
    · exact hack
    · exact hvalid.recorded ack' hmem
  · refine hvalid.servers.imp_right ?_
    rintro ⟨server, hservers, hserver⟩
    exact ⟨server, hservers, hserver.softAp, hserver.callback, hserver.table⟩

/-- The server after a message in place of the one before. -/
theorem ApState.Valid.setServer (hvalid : s.Valid)
    (hfind : findServer netif s.servers = some server) {server' : DhcpServer}
    (hsoftAp : SoftApServer netif server → SoftApServer netif server')
    (hpcb : server'.pcb = server.pcb)
    (hcallback : server'.staStatusCb = server.staStatusCb) :
    ({ s with servers := updateServer netif (fun _ => server') s.servers } :
      ApState).Valid := by
  refine ⟨⟨hvalid.noNullAccess, hvalid.distinct, hvalid.recorded⟩, ?_⟩
  rcases hvalid.servers with hservers | ⟨found, hservers, hserver⟩
  · rw [hservers] at hfind
    cases hfind
  · have hnetif := findServer_netif hfind
    have hmem := mem_of_findServer hfind
    rw [hservers, List.mem_singleton] at hmem
    rw [← hmem] at hserver
    obtain ⟨netif', hnetif', hold⟩ := hserver.softAp
    have heq : netif' = netif := hold.netif.symm.trans hnetif
    rw [heq] at hnetif' hold
    refine Or.inr ⟨server', ?_, ⟨netif, hnetif', hsoftAp hold⟩,
      hcallback.trans hserver.callback, fun h => hserver.table (hpcb ▸ h)⟩
    rw [hservers, ← hmem, updateServer, if_pos hnetif]

theorem received_of_ignored (hdecision : r.decision ≠ .ack) (hstatus : r.status = none) :
    s.received netif p r =
      { s with servers := updateServer netif (fun _ => r.server) s.servers } := by
  unfold ApState.received
  rw [hstatus]
  dsimp only
  rw [if_neg hdecision]

theorem received_of_ack {ip : UInt32} {mac : Chaddr} {table : Option StationTable}
    (hdecision : r.decision = .ack) (hstatus : r.status = some (ip, mac))
    (hwritten : wifiApStatusCallback s.table ip mac = some table) :
    s.received netif p r =
      { s with
        servers := updateServer netif (fun _ => r.server) s.servers
        table := table
        acks := ⟨p.chaddr, replyYiaddr (r.sent.getD []), table⟩ :: s.acks } := by
  unfold ApState.received
  rw [hstatus]
  dsimp only
  rw [hwritten]
  dsimp only
  rw [if_pos hdecision]

/-- What the callback writes for an acknowledged lease of the station. -/
theorem ack_recorded {t : StationTable} {ip : UInt32} {mac : Chaddr}
    (hdistinct : t.DistinctMacs)
    (hwhole : (∃ count, (t count).Holds p.chaddr) → mac.1 = p.chaddr) :
    StationAck.Recorded
      ⟨p.chaddr, ip, some (statusLoop ip mac (List.finRange 4) t)⟩ := by
  rintro t' ⟨⟩ count hholds
  obtain ⟨hused, hmac⟩ := statusLoop_owner ip mac (List.finRange 4) t count
  have hstation : (t count).Holds p.chaddr := ⟨hused ▸ hholds.1, hmac ▸ hholds.2⟩
  have hsame := hwhole ⟨count, hstation⟩
  rw [← hsame] at hstation
  exact statusLoop_addr hdistinct hstation (List.mem_finRange count)

/-- A message for the server of the soft-AP. -/
theorem ApState.Valid.received (hvalid : s.Valid) {answers : DhcpAnswers}
    (hnetif : s.netifAp = some netif)
    (hfind : findServer netif s.servers = some server) (hpcb : server.pcb = true)
    (hguard : KeepsTable s (.recv p answers))
    (hr : dhcpServerRecv server s.addr p answers = some r) :
    (s.received netif p r).Valid := by
  have hmem := mem_of_findServer hfind
  have hserver : s.ServerValid server := by
    rcases hvalid.servers with hservers | ⟨found, hservers, hserver⟩
    · rw [hservers] at hmem
      cases hmem
    · rw [hservers, List.mem_singleton] at hmem
      rwa [hmem]
  obtain ⟨netif', hnetif', hsoftAp⟩ := hserver.softAp
  have hkeeps := recv_softAp hsoftAp hr
  have hnext := hvalid.setServer hfind (fun h => (recv_softAp h hr).1) hkeeps.2.1
    hkeeps.2.2
  rcases recv_status hr with
    ⟨hdecision, hstatus⟩ | ⟨stale, m, node, hmessage, hm, hchecked, htype, hnode, hack⟩
  · rwa [received_of_ignored hdecision hstatus]
  · -- the callback finds a table, and the address is that of a lease
    obtain ⟨t, ht⟩ := Option.isSome_iff_exists.mp (hserver.table hpcb)
    have hip : node.ipaddr ≠ 0 :=
      ne_zero_of_mem_softApRange (hsoftAp.inRange node (mem_of_dhcpClientFind htype hnode))
    have hdistinct := hvalid.distinct t ht
    have hwritten : wifiApStatusCallback s.table node.ipaddr node.chaddr =
        some (some (statusLoop node.ipaddr node.chaddr (List.finRange 4) t)) := by
      rw [wifiApStatusCallback, if_neg hip, ht]
      rfl
    have hstatus : r.status = some (node.ipaddr, node.chaddr) := by
      rw [hack, hserver.callback]
      rfl
    have hsent : replyYiaddr (r.sent.getD []) = node.ipaddr := by
      rw [hack]
      exact replyYiaddr_ack
    have hwhole : (∃ count, (t count).Holds p.chaddr) → node.chaddr.1 = p.chaddr := by
      intro hstation
      have hmessage' := hguard netif hnetif server hfind stale hmessage
      rw [← hm] at hmessage'
      exact hmessage' hchecked htype t ht hstation node hnode
    have hkept : ∀ t' ∈ some (statusLoop node.ipaddr node.chaddr (List.finRange 4) t),
        t'.DistinctMacs := by
      rintro t' ⟨⟩
      exact statusLoop_distinct hdistinct _ _ _
    have hsome : (some (statusLoop node.ipaddr node.chaddr (List.finRange 4) t)).isSome =
        s.table.isSome := by
      rw [ht]
      rfl
    rw [received_of_ack (by rw [hack]) hstatus hwritten, hsent]
    exact (hnext.setTable hkept hsome).addAck (ack_recorded hdistinct hwhole)

theorem ApState.Valid.step {a : ApAction} (hvalid : s.Valid) (hguard : KeepsTable s a)
    (hstep : apMachine.step s a = some s') : s'.Valid := by
  cases a with
  | up tableMalloc answers =>
      cases hstep
      exact hvalid.up hguard
  | down =>
      cases hstep
      exact hvalid.down
  | add mac =>
      cases hstep
      exact hvalid.setTable (addEntry_distinct hvalid.distinct) (addEntry_isSome _ _)
  | del mac =>
      cases hstep
      exact hvalid.setTable (delEntry_distinct hvalid.distinct) (delEntry_isSome _ _)
  | recv p answers =>
      simp only [apMachine] at hstep
      cases hnetif : s.netifAp with
      | none => simp [hnetif] at hstep
      | some netif =>
          rw [hnetif] at hstep
          dsimp only at hstep
          cases hfind : findServer netif s.servers with
          | none => simp [hfind] at hstep
          | some server =>
              rw [hfind] at hstep
              dsimp only at hstep
              split_ifs at hstep with hpcb
              obtain ⟨r, hr, rfl⟩ := Option.map_eq_some_iff.mp hstep
              exact hvalid.received hnetif hfind hpcb hguard hr

/-- The table is there whenever it is used, and holds what was acknowledged. -/
theorem table_valid (hs : apMachine.ReachableVia KeepsTable s) : s.TableValid := by
  have hvalid : s.Valid := by
    refine hs.invariant ?_ fun s a s' hvalid hguard hstep => hvalid.step hguard hstep
    rintro s ⟨htable, hservers, hnull, hacks⟩
    refine ⟨⟨hnull, ?_, ?_⟩, Or.inl hservers⟩
    · intro t ht
      rw [htable] at ht
      cases ht
    · intro ack hack
      rw [hacks] at hack
      cases hack
  exact hvalid.toTableValid

end Runs

/-- The interface of the soft-AP before its link comes up. -/
def softApDown : ApState := ⟨some 0, ⟨0, 0⟩, none, [], false, []⟩

def linkUp (tableMalloc : Bool) : ApAction := .up tableMalloc ⟨true, true, true, true⟩

def stationDiscover : ApAction :=
  .recv (bootRequest 6 (stationAddr 1) [53, 1, 1, 255]) someMemory

def stationRequest : ApAction :=
  .recv (bootRequest 6 (stationAddr 1) [53, 1, 3, 50, 4, 10, 19, 96, 2, 255]) someMemory

theorem table_valid_station :
    ∃ s : ApState, s.acks.length = 1 ∧ apMachine.ReachableVia KeepsTable s ∧
      s.TableValid := by
  have hrun : (apMachine.run softApDown [linkUp true, .add (some (stationAddr 1)),
      stationDiscover, stationRequest, linkUp true]).map (fun s => s.acks.length) =
      some 1 := by
    decide +kernel
  have hmeets : apMachine.Meets KeepsTable softApDown [linkUp true,
      .add (some (stationAddr 1)), stationDiscover, stationRequest, linkUp true] := by
    decide +kernel
  obtain ⟨s, hs, hacks⟩ := Option.map_eq_some_iff.mp hrun
  have hinit : apMachine.init softApDown := ⟨rfl, rfl, rfl, rfl⟩
  have hreach := Machine.ReachableVia.run (.init hinit) _ hmeets hs
  exact ⟨s, hacks, hreach, table_valid hreach⟩

/-- The link comes up a second time without memory for the table: the server still
acknowledges, and its callback goes through the null pointer. -/
theorem table_used_without_memory :
    ∃ s : ApState, apMachine.Reachable s ∧ s.nullAccess = true ∧ ¬ s.TableValid := by
  have hrun : (apMachine.run softApDown [linkUp true, stationDiscover, linkUp false,
      stationRequest]).map ApState.nullAccess = some true := by
    decide +kernel
  obtain ⟨s, hs, hnull⟩ := Option.map_eq_some_iff.mp hrun
  refine ⟨s, Machine.reachable_of_run ⟨rfl, rfl, rfl, rfl⟩ _ hs, hnull, ?_⟩
  intro hvalid
  rw [hvalid.noNullAccess] at hnull
  cases hnull

end RtpMulticast
