import RtpMulticast.Support.ByteMemory
import RtpMulticast.Support.CyclicSearch
import Mathlib.Data.List.Nodup
import Mathlib.Order.Basic

/-!
# The DHCP server

`dhcp_server_raw.c` leases the addresses of one range per network interface to
the clients of the soft-AP.  Addresses are kept here in host order, which the
source converts to with `ntohl` whenever it computes with them.
-/

namespace RtpMulticast

open ByteBuffer ByteMemory

/-! ## Servers and their leases -/

/-- The field `chaddr` of a node: `DHCP_MAX_HLEN` bytes. -/
abbrev Chaddr := { b : Bytes // b.length = 6 }

/-- `memcpy(chaddr, b, len)` into a field that held `old`. -/
def Chaddr.copy (old : Chaddr) (b : Bytes) : Chaddr :=
  ⟨(b ++ old.1.drop b.length).take 6, by
    have := old.2
    simp only [List.length_take, List.length_append, List.length_drop]
    omega⟩

/-- `struct dhcp_client_node`.  `client` is not in the source: it remembers for
which client address the node was allocated. -/
structure DhcpClientNode where
  chaddr : Chaddr
  ipaddr : UInt32
  client : Bytes
  deriving DecidableEq

/-- What `dhcpd_start` lets through as range: not empty, and below the broadcast
address. -/
structure LeaseRange where
  startIp : UInt32
  endIp : UInt32
  le : startIp ≤ endIp
  lt : endIp < 0xFFFFFFFF
  deriving DecidableEq

def LeaseRange.Mem (range : LeaseRange) (ip : UInt32) : Prop :=
  range.startIp ≤ ip ∧ ip ≤ range.endIp

instance (range : LeaseRange) (ip : UInt32) : Decidable (range.Mem ip) :=
  inferInstanceAs (Decidable (_ ∧ _))

/-- How the allocation moves `current` on. -/
def LeaseRange.next (range : LeaseRange) (current : UInt32) : UInt32 :=
  if range.endIp < current + 1 then range.startIp else current + 1

/-- The functions that are ever registered as `sta_status_cb`. -/
inductive DhcpdCallback where
  | wifiApStatusCallback
  deriving DecidableEq, Repr

/-- `struct dhcp_server`, with the number of its interface. -/
structure DhcpServer where
  netif : ℕ
  pcb : Bool
  nodeList : List DhcpClientNode
  range : LeaseRange
  current : UInt32
  dnsserver : Vector UInt32 2
  staStatusCb : Option DhcpdCallback
  deriving DecidableEq

/-- The field `dnsserver` set to zero. -/
def noDnsServers : Vector UInt32 2 := #v[0, 0]

/-- The addresses of an interface. -/
structure NetifAddr where
  ipAddr : UInt32
  netmask : UInt32
  deriving DecidableEq, Repr

/-! ## Starting and stopping -/

/-- The loop over `dhcp_server_list` that works on the server of an interface. -/
def updateServer (netif : ℕ) (f : DhcpServer → DhcpServer) :
    List DhcpServer → List DhcpServer
  | [] => []
  | server :: rest =>
      if server.netif = netif then f server :: rest
      else server :: updateServer netif f rest

def findServer (netif : ℕ) (servers : List DhcpServer) : Option DhcpServer :=
  servers.find? fun server => server.netif = netif

/-- The checks and the range of `dhcpd_start`; `base` is the interface address
whose last octet is replaced. -/
def dhcpdRange (base : UInt32) (startNum endNum : Int) : Option LeaseRange :=
  if h : startNum > 254 ∨ startNum < 2 ∨ endNum > 254 ∨ endNum < 2 ∨
      startNum ≥ endNum then none
  else
    let subnet := base.toNat / 256 * 256
    some
      { startIp := UInt32.ofNat (subnet + startNum.toNat)
        endIp := UInt32.ofNat (subnet + endNum.toNat)
        le := by
          have := base.toNat_lt
          rw [UInt32.le_iff_toNat_le, UInt32.toNat_ofNat', UInt32.toNat_ofNat']
          omega
        lt := by
          have := base.toNat_lt
          rw [UInt32.lt_iff_toNat_lt, UInt32.toNat_ofNat']
          show _ < 4294967295
          omega }

/-- `DHCPD_SERVER_IP`, 10.19.96.1. -/
def dhcpdServerIp : UInt32 := 0x0A136001

/-- The addresses that `dhcpd_start` leaves to the interface, and the range. -/
def dhcpdConfig (addr : NetifAddr) (start limit : Int) :
    NetifAddr × Option LeaseRange :=
  if start = -1 ∨ limit = -1 ∨ addr.ipAddr = 0 then
    (⟨dhcpdServerIp, 0xFFFFFF00⟩, dhcpdRange dhcpdServerIp 2 254)
  else
    (addr, dhcpdRange addr.ipAddr start (start + limit - 1))

/-- `malloc` and `udpNew` say whether the server structure and its pcb can be
allocated. -/
def dhcpServerStart (servers : List DhcpServer) (netif : ℕ) (range : LeaseRange)
    (malloc udpNew : Bool) : List DhcpServer :=
  if (findServer netif servers).isSome then
    updateServer netif
      (fun server => { server with range := range, current := range.startIp }) servers
  else if malloc then
    { netif := netif, pcb := udpNew, nodeList := [], range := range,
      current := range.startIp, dnsserver := noDnsServers, staStatusCb := none } :: servers
  else servers

/-- What `dhcpd_start` gets from its surroundings: memory for its argument, a place
in the queue of the tcpip thread, and there memory for the server and its pcb. -/
structure DhcpdStartAnswers where
  arg : Bool
  callback : Bool
  server : Bool
  pcb : Bool
  deriving DecidableEq, Repr

/-- The addresses of the interface and the servers after `dhcpd_start` and the start
in the tcpip thread. -/
def dhcpdStart (servers : List DhcpServer) (netif : ℕ) (addr : NetifAddr)
    (start limit : Int) (answers : DhcpdStartAnswers) : NetifAddr × List DhcpServer :=
  match dhcpdConfig addr start limit with
  | (addr', none) => (addr', servers)
  | (addr', some range) =>
      if answers.arg ∧ answers.callback then
        (addr', dhcpServerStart servers netif range answers.server answers.pcb)
      else (addr', servers)

/-- The status tells whether the interface had a server. -/
def dhcpServerStop (servers : List DhcpServer) (netif : ℕ) :
    Bool × List DhcpServer :=
  match findServer netif servers with
  | none => (false, servers)
  | some _ => (true, [])

def dhcpServerClearDnsServer (servers : List DhcpServer) : List DhcpServer :=
  servers.map fun server => { server with dnsserver := noDnsServers }

def dhcpdStop (servers : List DhcpServer) (netif : ℕ) : List DhcpServer :=
  (dhcpServerStop (dhcpServerClearDnsServer servers) netif).2

def dhcpdStatusCallbackSet (servers : List DhcpServer) (netif : ℕ)
    (cb : DhcpdCallback) : Bool × List DhcpServer :=
  ((findServer netif servers).isSome,
    updateServer netif (fun server => { server with staStatusCb := some cb }) servers)

/-! ## Messages -/

namespace DhcpMsg

def op (m : Memory) : UInt8 := m 0

def hlen (m : Memory) : UInt8 := m 2

def cookie (m : Memory) : UInt32 := loadBe32 m 236

/-- The client address: `hlen` bytes of `chaddr`. -/
def requester (m : Memory) : Bytes := slice m 28 (hlen m).toNat

end DhcpMsg

/-- `DHCP_OPTIONS_OFS`. -/
def dhcpOptionsOfs : ℕ := 240

/-- `length`, what the 1500 bytes of the message buffer leave for options. -/
def dhcpOptionsLength : ℕ := 1260

/-- The loop of `dhcp_server_option_find` at position `buf`, for at most the given
number of rounds. -/
def optionFrom (m : Memory) (stop : ℕ) (option : UInt8) : ℕ → ℕ → Option ℕ
  | 0, _ => none
  | n + 1, buf =>
      if buf < stop ∧ m buf ≠ 255 then
        if m buf = option then some buf
        else optionFrom m stop option n (buf + (m (buf + 1)).toNat + 2)
      else none

/-- The position of the option; every round moves on by two bytes at least. -/
def dhcpServerOptionFind (m : Memory) (buf len : ℕ) (option : UInt8) : Option ℕ :=
  optionFrom m (buf + len) option len buf

/-- `DHCP_OPTION_MESSAGE_TYPE`. -/
def messageType (m : Memory) : Option UInt8 :=
  (dhcpServerOptionFind m dhcpOptionsOfs dhcpOptionsLength 53).map
    fun opt => m (opt + 2)

/-- `DHCP_OPTION_REQUESTED_IP`. -/
def requestedIp (m : Memory) : Option UInt32 :=
  (dhcpServerOptionFind m dhcpOptionsOfs dhcpOptionsLength 50).map
    fun opt => loadBe32 m (opt + 2)

/-! ## Lookup and allocation -/

/-- `memcmp(node->chaddr, chaddr, hlen) == 0`, for the `hlen` bytes of `chaddr`. -/
def DhcpClientNode.Matches (node : DhcpClientNode) (chaddr : Bytes) : Prop :=
  chaddr <+: node.chaddr.1

instance (node : DhcpClientNode) (chaddr : Bytes) : Decidable (node.Matches chaddr) :=
  inferInstanceAs (Decidable (chaddr <+: _))

def dhcpClientFindByIp (server : DhcpServer) (ip : UInt32) : Option DhcpClientNode :=
  server.nodeList.find? fun node => node.ipaddr = ip

def dhcpClientFindByMac (server : DhcpServer) (chaddr : Bytes) :
    Option DhcpClientNode :=
  server.nodeList.find? fun node => node.Matches chaddr

/-- The node of the requested address, if it matches the client address. -/
def requestedNode (server : DhcpServer) (m : Memory) : Option DhcpClientNode :=
  (requestedIp m).bind fun ip =>
    (dhcpClientFindByIp server ip).filter fun node =>
      node.Matches (DhcpMsg.requester m)

def dhcpClientFind (server : DhcpServer) (addr : NetifAddr) (m : Memory) :
    Option DhcpClientNode :=
  let mNode := dhcpClientFindByMac server (DhcpMsg.requester m)
  match requestedIp m with
  | none => mNode
  | some ip =>
      match dhcpClientFindByIp server ip with
      | some node => if node.Matches (DhcpMsg.requester m) then some node else mNode
      | none =>
          -- another subnet and an address out of range are answered like no address
          if ip &&& addr.netmask ≠ addr.ipAddr &&& addr.netmask then mNode
          else if ip < server.range.startIp ∨ server.range.endIp < ip then mNode
          else none

/-- `ip` is the address of a node. -/
def DhcpServer.Leased (server : DhcpServer) (ip : UInt32) : Prop :=
  (dhcpClientFindByIp server ip).isSome

instance (server : DhcpServer) : DecidablePred server.Leased :=
  fun _ => inferInstanceAs (Decidable (_ = true))

/-- `malloc` is what the new node's `chaddr` holds before the address is copied,
`none` when there is no memory.  No result means that the loop is still running
after `fuel` probes. -/
def dhcpClientAlloc (server : DhcpServer) (m : Memory) (malloc : Option Chaddr)
    (fuel : ℕ) : Option (DhcpServer × Option DhcpClientNode) :=
  match dhcpClientFindByMac server (DhcpMsg.requester m) with
  | some node => some (server, some node)
  | none =>
      match requestedNode server m with
      | some node => some (server, some node)
      | none =>
          match CyclicSearch.search server.range.next server.Leased fuel
              server.current with
          | none => none
          | some current =>
              match malloc with
              | none => some ({ server with current := current }, none)
              | some old =>
                  let node : DhcpClientNode :=
                    { chaddr := old.copy (DhcpMsg.requester m)
                      ipaddr := current
                      client := DhcpMsg.requester m }
                  some ({ server with
                    current := current
                    nodeList := node :: server.nodeList }, some node)

/-! ## Replies -/

/-- The header of a reply, written over the request. -/
def replyHeader (m : Memory) (addr : NetifAddr) (yiaddr : UInt32) : Memory :=
  let m := store m 0 [2]
  let m := store m 3 [0]
  let m := store m 8 [0, 0]
  let m := store m 20 (beU32 addr.ipAddr)
  let m := store m 44 [0]
  let m := store m 108 [0]
  let m := store m 236 (beU32 0x63825363)
  store m 16 (beU32 yiaddr)

def dnsAddresses (server : DhcpServer) (addr : NetifAddr) : List UInt32 :=
  match server.dnsserver.toList.filter (· ≠ 0) with
  | [] => [addr.ipAddr]
  | dns => dns

/-- The message type and the server identifier. -/
def replyStart (msgType : UInt8) (addr : NetifAddr) : Bytes :=
  [53, 1, msgType] ++ [54, 4] ++ beU32 addr.ipAddr

/-- The options of an offer or acknowledgement; the lease time is
`DHCP_DEFAULT_LIVE_TIME`. -/
def leaseOptions (msgType : UInt8) (server : DhcpServer) (addr : NetifAddr) : Bytes :=
  let dns := dnsAddresses server addr
  replyStart msgType addr ++
    [51, 4] ++ beU32 0x80510100 ++
    [1, 4] ++ beU32 addr.netmask ++
    [6, UInt8.ofNat (4 * dns.length)] ++ dns.flatMap beU32 ++
    [3, 4] ++ beU32 addr.ipAddr ++ [255]

def offer (server : DhcpServer) (addr : NetifAddr) (m : Memory)
    (node : DhcpClientNode) : Bytes :=
  slice (replyHeader m addr node.ipaddr) 0 dhcpOptionsOfs ++ leaseOptions 2 server addr

def ack (server : DhcpServer) (addr : NetifAddr) (m : Memory)
    (node : DhcpClientNode) : Bytes :=
  slice (replyHeader m addr node.ipaddr) 0 dhcpOptionsOfs ++ leaseOptions 5 server addr

def nak (addr : NetifAddr) (m : Memory) : Bytes :=
  slice (replyHeader m addr 0) 0 dhcpOptionsOfs ++ replyStart 6 addr ++ [255]

/-! ## Receiving a message -/

inductive DhcpDecision where
  | ignore
  | offer
  | ack
  | nak
  | release
  deriving DecidableEq, Repr

/-- The server after a message, the reply sent, and the argument that
`sta_status_cb` is called with. -/
structure DhcpRecvResult where
  server : DhcpServer
  decision : DhcpDecision
  sent : Option Bytes
  status : Option (UInt32 × Chaddr)
  deriving DecidableEq

/-- The bytes of the message, and how many of them the first pbuf holds. -/
structure Datagram where
  payload : Bytes
  len : ℕ
  le : len ≤ payload.length

/-- What the surroundings give to one call: the old contents of the message
buffer (`none` when `pbuf_alloc` fails) and what follows it, the memory for a
node, and the number of probes the allocation gets. -/
structure DhcpAnswers where
  message : Option Memory
  beyond : Memory
  malloc : Option Chaddr
  fuel : ℕ

def ignored (server : DhcpServer) : DhcpRecvResult := ⟨server, .ignore, none, none⟩

def recvDiscover (server : DhcpServer) (addr : NetifAddr) (m : Memory)
    (malloc : Option Chaddr) (fuel : ℕ) : Option DhcpRecvResult :=
  match dhcpClientAlloc server m malloc fuel with
  | none => none
  | some (server', none) => some (ignored server')
  | some (server', some node) =>
      some ⟨server', .offer, some (offer server' addr m node), none⟩

def recvRequest (server : DhcpServer) (addr : NetifAddr) (m : Memory) :
    DhcpRecvResult :=
  match dhcpClientFind server addr m with
  | some node =>
      ⟨server, .ack, some (ack server addr m node),
        server.staStatusCb.map fun _ => (node.ipaddr, node.chaddr)⟩
  | none => ⟨server, .nak, some (nak addr m), none⟩

def recvRelease (server : DhcpServer) (m : Memory) : DhcpRecvResult :=
  ⟨{ server with
      nodeList := server.nodeList.eraseP fun node => node.Matches (DhcpMsg.requester m) },
    .release, none, none⟩

/-- A message in the buffer: the checks, and the work on its type. -/
def recvMessage (server : DhcpServer) (addr : NetifAddr) (m : Memory)
    (malloc : Option Chaddr) (fuel : ℕ) : Option DhcpRecvResult :=
  if DhcpMsg.op m ≠ 1 then some (ignored server)
  else if DhcpMsg.cookie m ≠ 0x63825363 then some (ignored server)
  else if 6 < DhcpMsg.hlen m then some (ignored server)
  else
    match messageType m with
    | none => some (ignored server)
    | some msgType =>
        if msgType = 1 then recvDiscover server addr m malloc fuel
        else if msgType = 3 then some (recvRequest server addr m)
        else if msgType = 7 then some (recvRelease server m)
        else some (ignored server)

/-- No result means that the call has not returned. -/
def dhcpServerRecv (server : DhcpServer) (addr : NetifAddr) (p : Datagram)
    (answers : DhcpAnswers) : Option DhcpRecvResult :=
  if p.len < 44 then some (ignored server)
  else
    match answers.message with
    | none => some (ignored server)
    | some stale =>
        if 1500 < p.payload.length then some (ignored server)
        else
          recvMessage server addr (filled p.payload 1500 stale answers.beyond)
            answers.malloc answers.fuel

end RtpMulticast
