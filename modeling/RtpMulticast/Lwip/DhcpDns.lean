import RtpMulticast.Lwip.DhcpStop
import RtpMulticast.Support.SlotTable

/-!
# The DNS servers of an interface

`dhcp_server_op_dns_server` looks for the address and for a free slot in one loop.
The add uses the free slot only, so it stores an address a second time when it is
there already and a slot is free.  The copy of the file under `App/Src` takes the
index 0 for "not found" and never writes to the first slot.
-/

namespace RtpMulticast

open SlotTable

/-! ## The functions -/

/-- The copies of `dhcp_server_raw.c` under `LWIP/App` and `App/Src`.  Of the functions
here they differ in `dhcp_server_op_dns_server`. -/
inductive DhcpServerRaw where
  | lwip
  | app
  deriving DecidableEq, Repr

/-- The loop of `dhcp_server_op_dns_server` from slot `i` on, with `dns_found` and
`dns_free`; `none` is -1. -/
def dnsSearch (addr : UInt32) : List UInt32 → ℕ → Option ℕ → Option ℕ →
    Option ℕ × Option ℕ
  | [], _, found, free => (found, free)
  | slot :: rest, i, found, free =>
      dnsSearch addr rest (i + 1) (if addr = slot then some i else found)
        (if free = none ∧ slot = 0 then some i else free)

/-- The writes behind the loop. -/
def opDnsSlots (addr : UInt32) (reset : Bool) (dnsserver : Vector UInt32 2) :
    Vector UInt32 2 :=
  match reset, dnsSearch addr dnsserver.toList 0 none none with
  | false, (_, some free) => dnsserver.setIfInBounds free addr
  | true, (some found, _) => dnsserver.setIfInBounds found 0
  | _, _ => dnsserver

/-- The loop in `App/Src`, with `found` and `free`. -/
def dnsSearchApp (addr : UInt32) : List UInt32 → ℕ → ℕ → ℕ → ℕ × ℕ
  | [], _, found, free => (found, free)
  | slot :: rest, i, found, free =>
      dnsSearchApp addr rest (i + 1) (if addr = slot then i else found)
        (if free = 0 ∧ slot = 0 then i else free)

def opDnsSlotsApp (addr : UInt32) (reset : Bool) (dnsserver : Vector UInt32 2) :
    Vector UInt32 2 :=
  let (found, free) := dnsSearchApp addr dnsserver.toList 0 0 0
  if reset = false ∧ free ≠ 0 then dnsserver.setIfInBounds free addr
  else if reset = true ∧ found ≠ 0 then dnsserver.setIfInBounds found 0
  else dnsserver

def DhcpServerRaw.opDnsSlots : DhcpServerRaw → UInt32 → Bool → Vector UInt32 2 →
    Vector UInt32 2
  | .lwip => RtpMulticast.opDnsSlots
  | .app => opDnsSlotsApp

/-- `none` is a null pointer; the status tells whether it is `ERR_OK`. -/
def dhcpServerOpDnsServer (file : DhcpServerRaw) (servers : List DhcpServer)
    (netif : Option ℕ) (dnsserver : Option UInt32) (reset : Bool) :
    Bool × List DhcpServer :=
  match netif, dnsserver with
  | some netif, some addr =>
      if (findServer netif servers).isSome then
        (true, updateServer netif
          (fun server => { server with
            dnsserver := file.opDnsSlots addr reset server.dnsserver }) servers)
      else (false, servers)
  | _, _ => (false, servers)

def dhcpdAddDnsServer (file : DhcpServerRaw) (servers : List DhcpServer)
    (netif : Option ℕ) (dnsserver : Option UInt32) : Bool × List DhcpServer :=
  dhcpServerOpDnsServer file servers netif dnsserver false

def dhcpdRemoveDnsServer (file : DhcpServerRaw) (servers : List DhcpServer)
    (netif : Option ℕ) (dnsserver : Option UInt32) : Bool × List DhcpServer :=
  dhcpServerOpDnsServer file servers netif dnsserver true

def dhcpdClearDnsServer (servers : List DhcpServer) (netif : ℕ) : List DhcpServer :=
  servers.map fun server =>
    if server.netif = netif then { server with dnsserver := noDnsServers } else server

/-! ## Sequences of calls -/

inductive DnsCall where
  | add (addr : UInt32)
  | remove (addr : UInt32)
  | clear
  deriving DecidableEq, Repr

/-- The servers, and the set that the same calls made. -/
structure DnsState where
  servers : List DhcpServer
  set : Finset UInt32

/-- The slots of an interface. -/
def dnsSlots (netif : ℕ) (servers : List DhcpServer) : List UInt32 :=
  match findServer netif servers with
  | none => []
  | some server => server.dnsserver.toList

def dnsEntries (netif : ℕ) (servers : List DhcpServer) : List UInt32 :=
  entries 0 (dnsSlots netif servers)

def dnsStep (file : DhcpServerRaw) (netif : ℕ) (s : DnsState) :
    DnsCall → Option DnsState
  | .add addr =>
      if addr = 0 then none
      else some ⟨(dhcpdAddDnsServer file s.servers (some netif) (some addr)).2,
        insertWithin 2 addr s.set⟩
  | .remove addr =>
      if addr = 0 then none
      else some ⟨(dhcpdRemoveDnsServer file s.servers (some netif) (some addr)).2,
        s.set.erase addr⟩
  | .clear => some ⟨dhcpdClearDnsServer s.servers netif, ∅⟩

/-- Calls on an interface that was started, with addresses that are not zero. -/
def dnsMachine (file : DhcpServerRaw) (netif : ℕ) : Machine DnsState DnsCall where
  init := fun s =>
    s.set = ∅ ∧ ∃ server, findServer netif s.servers = some server ∧
      server.dnsserver = noDnsServers
  step := dnsStep file netif

/-- What a call makes of the addresses of the interface. -/
def DnsCall.Effect (before after : List UInt32) : DnsCall → Prop
  | .add addr =>
      (addr ∈ before ∨ before.length < 2 → addr ∈ after) ∧
        ∀ other, other ≠ addr → (other ∈ after ↔ other ∈ before)
  | .remove addr =>
      addr ∉ after ∧ ∀ other, other ≠ addr → (other ∈ after ↔ other ∈ before)
  | .clear => after = []

/-- The addresses of the interface are pairwise distinct and form the set, every call
does to them what it does to the set, and to no other interface anything. -/
structure DnsSetKept (file : DhcpServerRaw) (netif : ℕ)
    (guard : DnsState → DnsCall → Prop) (s : DnsState) : Prop where
  nodup : (dnsEntries netif s.servers).Nodup
  toFinset_eq : (dnsEntries netif s.servers).toFinset = s.set
  effect : ∀ call s', guard s call → (dnsMachine file netif).step s call = some s' →
    call.Effect (dnsEntries netif s.servers) (dnsEntries netif s'.servers)
  frame : ∀ call s' other, other ≠ netif →
    (dnsMachine file netif).step s call = some s' →
      findServer other s'.servers = findServer other s.servers

/-- In `LWIP/App` no address is added that is there already while a slot is free; in
`App/Src` no address is added while another one is there. -/
def AddsSafely : DhcpServerRaw → ℕ → DnsState → DnsCall → Prop
  | .lwip, netif, s, .add addr =>
      addr ∈ dnsSlots netif s.servers → 0 ∉ dnsSlots netif s.servers
  | .app, netif, s, .add addr => ∀ other ∈ dnsEntries netif s.servers, other = addr
  | _, _, _, .remove _ => True
  | _, _, _, .clear => True

instance (file : DhcpServerRaw) (netif : ℕ) (s : DnsState) (call : DnsCall) :
    Decidable (AddsSafely file netif s call) :=
  match file, call with
  | .lwip, .add addr => inferInstanceAs (Decidable (addr ∈ _ → 0 ∉ _))
  | .app, .add addr => inferInstanceAs (Decidable (∀ other ∈ _, other = addr))
  | .lwip, .remove _ => isTrue trivial
  | .app, .remove _ => isTrue trivial
  | .lwip, .clear => isTrue trivial
  | .app, .clear => isTrue trivial

/-! ## The loop -/

section Search

variable {addr : UInt32} {slots : List UInt32} {i k : ℕ} {found free : Option ℕ}

theorem dnsSearch_found (h : (dnsSearch addr slots i found free).1 = some k) :
    found = some k ∨ ∃ j, k = i + j ∧ slots[j]? = some addr := by
  induction slots generalizing i found free with
  | nil => exact Or.inl h
  | cons slot rest ih =>
      rcases ih h with hfound | ⟨j, rfl, hj⟩
      · by_cases heq : addr = slot
        · rw [if_pos heq] at hfound
          obtain rfl := Option.some.inj hfound
          exact Or.inr ⟨0, rfl, by rw [heq]; rfl⟩
        · rw [if_neg heq] at hfound
          exact Or.inl hfound
      · exact Or.inr ⟨j + 1, by omega, hj⟩

theorem dnsSearch_found_none (h : (dnsSearch addr slots i found free).1 = none) :
    found = none ∧ addr ∉ slots := by
  induction slots generalizing i found free with
  | nil => exact ⟨h, List.not_mem_nil⟩
  | cons slot rest ih =>
      obtain ⟨hfound, hrest⟩ := ih h
      by_cases heq : addr = slot
      · rw [if_pos heq] at hfound
        exact nomatch hfound
      · rw [if_neg heq] at hfound
        exact ⟨hfound, List.not_mem_cons_of_ne_of_not_mem heq hrest⟩

theorem dnsSearch_free (h : (dnsSearch addr slots i found free).2 = some k) :
    free = some k ∨ ∃ j, k = i + j ∧ slots[j]? = some 0 := by
  induction slots generalizing i found free with
  | nil => exact Or.inl h
  | cons slot rest ih =>
      rcases ih h with hfree | ⟨j, rfl, hj⟩
      · by_cases hzero : free = none ∧ slot = 0
        · rw [if_pos hzero] at hfree
          obtain rfl := Option.some.inj hfree
          exact Or.inr ⟨0, rfl, by rw [hzero.2]; rfl⟩
        · rw [if_neg hzero] at hfree
          exact Or.inl hfree
      · exact Or.inr ⟨j + 1, by omega, hj⟩

theorem dnsSearch_free_none (h : (dnsSearch addr slots i found free).2 = none) :
    free = none ∧ 0 ∉ slots := by
  induction slots generalizing i found free with
  | nil => exact ⟨h, List.not_mem_nil⟩
  | cons slot rest ih =>
      obtain ⟨hfree, hrest⟩ := ih h
      by_cases hzero : free = none ∧ slot = 0
      · rw [if_pos hzero] at hfree
        exact nomatch hfree
      · rw [if_neg hzero] at hfree
        have hne : (0 : UInt32) ≠ slot := fun heq => hzero ⟨hfree, heq.symm⟩
        exact ⟨hfree, List.not_mem_cons_of_ne_of_not_mem hne hrest⟩

end Search

/-! ## One call on the slots -/

/-- The slots hold the set; in `App/Src` the first one stays free. -/
structure SlotsHold (file : DhcpServerRaw) (dnsserver : Vector UInt32 2)
    (s : Finset UInt32) : Prop where
  holds : SlotTable.Holds 0 dnsserver.toList s
  first : file = .app → ∃ second, dnsserver = #v[0, second]

section Slots

variable {addr second : UInt32} {dnsserver : Vector UInt32 2} {s : Finset UInt32}

/-- An add that meets no free slot, or a new address. -/
theorem opDnsSlots_add (h : SlotTable.Holds 0 dnsserver.toList s) (haddr : addr ≠ 0)
    (hnew : addr ∈ dnsserver.toList → 0 ∉ dnsserver.toList) :
    SlotTable.Holds 0 (opDnsSlots addr false dnsserver).toList (insertWithin 2 addr s) := by
  have hlen : dnsserver.toList.length = 2 := Vector.length_toList
  unfold opDnsSlots
  match hsearch : dnsSearch addr dnsserver.toList 0 none none with
  | (_, some free) =>
      have hfree := dnsSearch_free (k := free) (congrArg Prod.snd hsearch)
      obtain ⟨k, rfl, hk⟩ := hfree.resolve_left nofun
      have hnot : addr ∉ s := by
        rw [h.mem_iff, mem_entries]
        exact fun hmem => hnew hmem.1 (List.mem_of_getElem? hk)
      have hset := h.insert_new hk haddr hnot
      rw [hlen] at hset
      simpa using hset
  | (_, none) =>
      have hfull := (dnsSearch_free_none (congrArg Prod.snd hsearch)).2
      have hset := h.insert_full (a := addr) hfull
      rwa [hlen] at hset

theorem slotsHold_noDnsServers (file : DhcpServerRaw) :
    SlotsHold file noDnsServers ∅ := by
  constructor
  · apply SlotTable.Holds.nil
    intro b hb
    have hslots : noDnsServers.toList = List.replicate 2 0 := rfl
    rw [hslots] at hb
    exact List.eq_of_mem_replicate hb
  · intro _
    exact ⟨0, rfl⟩

theorem opDnsSlots_remove (h : SlotTable.Holds 0 dnsserver.toList s) (haddr : addr ≠ 0) :
    SlotTable.Holds 0 (opDnsSlots addr true dnsserver).toList (s.erase addr) := by
  unfold opDnsSlots
  match hsearch : dnsSearch addr dnsserver.toList 0 none none with
  | (some found, _) =>
      have hfound := dnsSearch_found (k := found) (congrArg Prod.fst hsearch)
      obtain ⟨k, rfl, hk⟩ := hfound.resolve_left nofun
      simpa using h.erase hk haddr
  | (none, _) =>
      have habsent := (dnsSearch_found_none (congrArg Prod.fst hsearch)).2
      exact h.erase_absent habsent

/-- An address that is there already takes a second slot. -/
theorem opDnsSlots_add_not_nodup (haddr : addr ≠ 0) (hmem : addr ∈ dnsserver.toList)
    (hroom : 0 ∈ dnsserver.toList) :
    ¬ (entries 0 (opDnsSlots addr false dnsserver).toList).Nodup := by
  unfold opDnsSlots
  match hsearch : dnsSearch addr dnsserver.toList 0 none none with
  | (_, some free) =>
      have hfree := dnsSearch_free (k := free) (congrArg Prod.snd hsearch)
      obtain ⟨k, rfl, hk⟩ := hfree.resolve_left nofun
      have hperm := entries_set_perm hk haddr
      intro hnodup
      have hcons := hperm.nodup_iff.mp (by simpa using hnodup)
      exact (List.nodup_cons.mp hcons).1 (mem_entries.mpr ⟨hmem, haddr⟩)
  | (_, none) =>
      have hfull := (dnsSearch_free_none (congrArg Prod.snd hsearch)).2
      exact absurd hroom hfull

/-! ### The copy under `App/Src` -/

theorem opDnsSlotsApp_add_free : opDnsSlotsApp addr false #v[0, 0] = #v[0, addr] := by
  simp [opDnsSlotsApp, dnsSearchApp]

theorem opDnsSlotsApp_add_taken (h : second ≠ 0) :
    opDnsSlotsApp addr false #v[0, second] = #v[0, second] := by
  simp [opDnsSlotsApp, dnsSearchApp, h]

theorem opDnsSlotsApp_remove_self :
    opDnsSlotsApp addr true #v[0, addr] = #v[0, 0] := by
  simp [opDnsSlotsApp, dnsSearchApp]

theorem opDnsSlotsApp_remove_of_ne (haddr : addr ≠ 0) (h : addr ≠ second) :
    opDnsSlotsApp addr true #v[0, second] = #v[0, second] := by
  simp [opDnsSlotsApp, dnsSearchApp, haddr, h]

theorem slotsHold_app_add (h : SlotTable.Holds 0 [0, second] s) (haddr : addr ≠ 0)
    (hsame : ∀ other ∈ entries 0 [0, second], other = addr) :
    SlotsHold .app (opDnsSlotsApp addr false #v[0, second]) (insertWithin 2 addr s) := by
  by_cases hsecond : second = 0
  · subst hsecond
    rw [opDnsSlotsApp_add_free]
    have hnot : addr ∉ s := by
      rw [h.mem_iff]
      simp [entries]
    have hset := h.insert_new (k := 1) rfl haddr hnot
    exact ⟨hset, fun _ => ⟨addr, rfl⟩⟩
  · rw [opDnsSlotsApp_add_taken hsecond]
    have hmem : second ∈ entries 0 [0, second] :=
      mem_entries.mpr ⟨List.mem_of_getElem? (i := 1) rfl, hsecond⟩
    obtain rfl := hsame second hmem
    rw [insertWithin_of_mem (h.mem_iff.mpr hmem)]
    exact ⟨h, fun _ => ⟨second, rfl⟩⟩

/-- A second address is not stored in `App/Src`. -/
theorem opDnsSlotsApp_add_lost {other : UInt32} (h : SlotTable.Holds 0 [0, second] s)
    (haddr : addr ≠ 0) (hmem : other ∈ entries 0 [0, second]) (hne : other ≠ addr) :
    (entries 0 (opDnsSlotsApp addr false #v[0, second]).toList).toFinset ≠
      insertWithin 2 addr s := by
  obtain ⟨hslot, hother⟩ := mem_entries.mp hmem
  obtain rfl : other = second := by simpa [hother] using hslot
  rw [opDnsSlotsApp_add_taken hother]
  have hroom : s.card < 2 := by
    rw [h.card_eq]
    exact length_entries_lt_iff.mpr (List.mem_of_getElem? (i := 0) rfl)
  intro heq
  have hin : addr ∈ insertWithin 2 addr s := mem_insertWithin_self (Or.inr hroom)
  rw [← heq, List.mem_toFinset, mem_entries] at hin
  simp [haddr, hne.symm] at hin

theorem slotsHold_app_remove (h : SlotTable.Holds 0 [0, second] s) (haddr : addr ≠ 0) :
    SlotsHold .app (opDnsSlotsApp addr true #v[0, second]) (s.erase addr) := by
  by_cases hsecond : addr = second
  · subst hsecond
    rw [opDnsSlotsApp_remove_self]
    have hset := h.erase (k := 1) rfl haddr
    exact ⟨hset, fun _ => ⟨0, rfl⟩⟩
  · rw [opDnsSlotsApp_remove_of_ne haddr hsecond]
    have habsent : addr ∉ [0, second] := by simp [haddr, hsecond]
    exact ⟨h.erase_absent habsent, fun _ => ⟨second, rfl⟩⟩

end Slots

/-! ## One call on the servers -/

section Servers

variable {file : DhcpServerRaw} {servers : List DhcpServer} {server : DhcpServer}
  {netif other : ℕ} {f : DhcpServer → DhcpServer}

theorem findServer_updateServer_self (hf : ∀ server, (f server).netif = server.netif) :
    findServer netif (updateServer netif f servers) = (findServer netif servers).map f := by
  induction servers with
  | nil => rfl
  | cons first rest ih =>
      rw [updateServer]
      by_cases h : first.netif = netif
      · simp [findServer, h, hf]
      · rw [if_neg h]
        simpa [findServer, h] using ih

theorem findServer_updateServer_of_ne (hf : ∀ server, (f server).netif = server.netif)
    (hne : other ≠ netif) :
    findServer other (updateServer netif f servers) = findServer other servers := by
  induction servers with
  | nil => rfl
  | cons first rest ih =>
      rw [updateServer]
      by_cases h : first.netif = netif
      · simp [findServer, h, hf, hne.symm]
      · rw [if_neg h, findServer, List.find?_cons, ← findServer, ih, findServer,
          findServer, List.find?_cons]

theorem findServer_clear (other : ℕ) (servers : List DhcpServer) :
    findServer other (dhcpdClearDnsServer servers netif) =
      (findServer other servers).map fun server =>
        if server.netif = netif then { server with dnsserver := noDnsServers }
        else server := by
  unfold findServer dhcpdClearDnsServer
  rw [List.find?_map]
  congr 2
  funext server
  simp only [Function.comp_apply]
  split_ifs <;> rfl

theorem findServer_op {addr : UInt32} {reset : Bool}
    (hfind : findServer netif servers = some server) :
    findServer netif (dhcpServerOpDnsServer file servers (some netif) (some addr) reset).2 =
      some { server with dnsserver := file.opDnsSlots addr reset server.dnsserver } := by
  simp only [dhcpServerOpDnsServer, hfind, Option.isSome_some, if_true]
  rw [findServer_updateServer_self (by intro server; rfl), hfind, Option.map_some]

theorem findServer_op_of_ne {addr : UInt32} {reset : Bool} (hne : other ≠ netif) :
    findServer other
        (dhcpServerOpDnsServer file servers (some netif) (some addr) reset).2 =
      findServer other servers := by
  simp only [dhcpServerOpDnsServer]
  split_ifs
  · exact findServer_updateServer_of_ne (by intro server; rfl) hne
  · rfl

theorem dnsSlots_eq (hfind : findServer netif servers = some server) :
    dnsSlots netif servers = server.dnsserver.toList := by
  rw [dnsSlots, hfind]

end Servers

/-! ## Runs -/

/-- The interface has a server, and its slots hold the set. -/
def DnsState.Held (file : DhcpServerRaw) (netif : ℕ) (s : DnsState) : Prop :=
  ∃ server, findServer netif s.servers = some server ∧
    SlotsHold file server.dnsserver s.set

section Runs

variable {file : DhcpServerRaw} {netif : ℕ} {s s' : DnsState} {call : DnsCall}

theorem dnsStep_add {addr : UInt32}
    (hstep : (dnsMachine file netif).step s (.add addr) = some s') :
    addr ≠ 0 ∧ s' = ⟨(dhcpdAddDnsServer file s.servers (some netif) (some addr)).2,
      insertWithin 2 addr s.set⟩ := by
  simp only [dnsMachine, dnsStep] at hstep
  split_ifs at hstep with haddr
  exact ⟨haddr, (Option.some.inj hstep).symm⟩

theorem dnsStep_remove {addr : UInt32}
    (hstep : (dnsMachine file netif).step s (.remove addr) = some s') :
    addr ≠ 0 ∧ s' = ⟨(dhcpdRemoveDnsServer file s.servers (some netif) (some addr)).2,
      s.set.erase addr⟩ := by
  simp only [dnsMachine, dnsStep] at hstep
  split_ifs at hstep with haddr
  exact ⟨haddr, (Option.some.inj hstep).symm⟩

theorem DnsState.Held.entries (h : s.Held file netif) :
    (dnsEntries netif s.servers).Nodup ∧
      (dnsEntries netif s.servers).toFinset = s.set := by
  obtain ⟨server, hfind, hholds⟩ := h
  rw [dnsEntries, dnsSlots_eq hfind]
  exact ⟨hholds.holds.nodup, hholds.holds.toFinset_eq⟩

theorem DnsState.Held.add {addr : UInt32} (h : s.Held file netif) (haddr : addr ≠ 0)
    (hguard : AddsSafely file netif s (.add addr)) :
    DnsState.Held file netif
      ⟨(dhcpdAddDnsServer file s.servers (some netif) (some addr)).2,
        insertWithin 2 addr s.set⟩ := by
  obtain ⟨server, hfind, hholds⟩ := h
  refine ⟨_, findServer_op hfind, ?_⟩
  match file with
  | .lwip =>
      rw [AddsSafely, dnsSlots_eq hfind] at hguard
      exact ⟨opDnsSlots_add hholds.holds haddr hguard, nofun⟩
  | .app =>
      obtain ⟨second, hslots⟩ := hholds.first rfl
      rw [AddsSafely, dnsEntries, dnsSlots_eq hfind, hslots] at hguard
      have hset := hholds.holds
      rw [hslots] at hset ⊢
      exact slotsHold_app_add hset haddr hguard

theorem DnsState.Held.remove {addr : UInt32} (h : s.Held file netif) (haddr : addr ≠ 0) :
    DnsState.Held file netif
      ⟨(dhcpdRemoveDnsServer file s.servers (some netif) (some addr)).2,
        s.set.erase addr⟩ := by
  obtain ⟨server, hfind, hholds⟩ := h
  refine ⟨_, findServer_op hfind, ?_⟩
  match file with
  | .lwip => exact ⟨opDnsSlots_remove hholds.holds haddr, nofun⟩
  | .app =>
      obtain ⟨second, hslots⟩ := hholds.first rfl
      have hset := hholds.holds
      rw [hslots] at hset ⊢
      exact slotsHold_app_remove hset haddr

theorem DnsState.Held.step (h : s.Held file netif) (hguard : AddsSafely file netif s call)
    (hstep : (dnsMachine file netif).step s call = some s') : s'.Held file netif := by
  match call with
  | .add addr =>
      obtain ⟨haddr, rfl⟩ := dnsStep_add hstep
      exact h.add haddr hguard
  | .remove addr =>
      obtain ⟨haddr, rfl⟩ := dnsStep_remove hstep
      exact h.remove haddr
  | .clear =>
      obtain rfl := Option.some.inj hstep
      obtain ⟨server, hfind, -⟩ := h
      refine ⟨{ server with dnsserver := noDnsServers }, ?_, ?_⟩
      · rw [findServer_clear, hfind, Option.map_some, if_pos (netif_of_findServer hfind)]
      · exact slotsHold_noDnsServers file

theorem held_of_reachable
    (h : (dnsMachine file netif).ReachableVia (AddsSafely file netif) s) :
    s.Held file netif := by
  apply h.invariant
  · rintro s ⟨hset, server, hfind, hdns⟩
    refine ⟨server, hfind, ?_⟩
    rw [hset, hdns]
    exact slotsHold_noDnsServers file
  · intro s call s' hheld hguard hstep
    exact hheld.step hguard hstep

/-- What a call does to the set it does to the addresses. -/
theorem effect_of_held (h : s.Held file netif) (h' : s'.Held file netif)
    (hstep : (dnsMachine file netif).step s call = some s') :
    call.Effect (dnsEntries netif s.servers) (dnsEntries netif s'.servers) := by
  obtain ⟨hnodup, hset⟩ := h.entries
  obtain ⟨-, hset'⟩ := h'.entries
  have hmem (a : UInt32) : a ∈ dnsEntries netif s.servers ↔ a ∈ s.set := by
    rw [← hset, List.mem_toFinset]
  have hmem' (a : UInt32) : a ∈ dnsEntries netif s'.servers ↔ a ∈ s'.set := by
    rw [← hset', List.mem_toFinset]
  have hcard : (dnsEntries netif s.servers).length = s.set.card := by
    rw [← hset, List.toFinset_card_of_nodup hnodup]
  match call with
  | .add addr =>
      obtain ⟨-, rfl⟩ := dnsStep_add hstep
      constructor
      · intro hroom
        rw [hmem, hcard] at hroom
        exact (hmem' addr).mpr (mem_insertWithin_self hroom)
      · intro other hne
        rw [hmem, hmem']
        exact mem_insertWithin_of_ne hne
  | .remove addr =>
      obtain ⟨-, rfl⟩ := dnsStep_remove hstep
      constructor
      · rw [hmem']
        exact Finset.notMem_erase addr s.set
      · intro other hne
        rw [hmem, hmem']
        exact Finset.mem_erase.trans (and_iff_right hne)
  | .clear =>
      obtain rfl := Option.some.inj hstep
      rw [DnsCall.Effect, List.eq_nil_iff_forall_not_mem]
      intro a ha
      exact Finset.notMem_empty a ((hmem' a).mp ha)

theorem frame_of_step {other : ℕ} (hne : other ≠ netif)
    (hstep : (dnsMachine file netif).step s call = some s') :
    findServer other s'.servers = findServer other s.servers := by
  match call with
  | .add addr =>
      obtain ⟨-, rfl⟩ := dnsStep_add hstep
      exact findServer_op_of_ne hne
  | .remove addr =>
      obtain ⟨-, rfl⟩ := dnsStep_remove hstep
      exact findServer_op_of_ne hne
  | .clear =>
      obtain rfl := Option.some.inj hstep
      rw [findServer_clear]
      match hfind : findServer other s.servers with
      | none => rfl
      | some server =>
          rw [Option.map_some, if_neg]
          rw [netif_of_findServer hfind]
          exact hne

/-- A call that does not add safely breaks the set. -/
theorem not_kept_of_not_addsSafely (h : s.Held file netif)
    (hguard : ¬ AddsSafely file netif s call)
    (hstep : (dnsMachine file netif).step s call = some s') :
    ¬ ((dnsEntries netif s'.servers).Nodup ∧
      (dnsEntries netif s'.servers).toFinset = s'.set) := by
  obtain ⟨server, hfind, hholds⟩ := h
  match file, call with
  | .lwip, .add addr =>
      obtain ⟨haddr, rfl⟩ := dnsStep_add hstep
      rw [AddsSafely, dnsSlots_eq hfind, Classical.not_imp, not_not] at hguard
      have hnew : findServer netif
          (dhcpServerOpDnsServer .lwip s.servers (some netif) (some addr) false).2 = _ :=
        findServer_op hfind
      intro hkept
      rw [dnsEntries, dhcpdAddDnsServer, dnsSlots_eq hnew] at hkept
      exact opDnsSlots_add_not_nodup haddr hguard.1 hguard.2 hkept.1
  | .app, .add addr =>
      obtain ⟨haddr, rfl⟩ := dnsStep_add hstep
      obtain ⟨second, hslots⟩ := hholds.first rfl
      have hset := hholds.holds
      rw [AddsSafely, dnsEntries, dnsSlots_eq hfind, hslots] at hguard
      push Not at hguard
      obtain ⟨other, hmem, hne⟩ := hguard
      have hnew : findServer netif
          (dhcpServerOpDnsServer .app s.servers (some netif) (some addr) false).2 = _ :=
        findServer_op hfind
      intro hkept
      rw [dnsEntries, dhcpdAddDnsServer, dnsSlots_eq hnew] at hkept
      rw [hslots] at hset hkept
      exact opDnsSlotsApp_add_lost hset haddr hmem hne hkept.2
  | .lwip, .remove _ | .app, .remove _ => exact absurd trivial hguard
  | .lwip, .clear | .app, .clear => exact absurd trivial hguard

/-- In every sequence of calls that adds addresses safely, the addresses of the
interface are those of a set of at most two. -/
theorem dnsSetKept (h : (dnsMachine file netif).ReachableVia (AddsSafely file netif) s) :
    DnsSetKept file netif (AddsSafely file netif) s where
  nodup := (held_of_reachable h).entries.1
  toFinset_eq := (held_of_reachable h).entries.2
  effect := fun _ _ hguard hstep =>
    effect_of_held (held_of_reachable h) ((held_of_reachable h).step hguard hstep) hstep
  frame := fun _ _ _ hne hstep => frame_of_step hne hstep

end Runs

/-- Interface 0 right after the start of its server. -/
def dnsStarted : DnsState :=
  ⟨dhcpServerStart [] 0 twoAddresses true true, ∅⟩

theorem dnsStarted_init (file : DhcpServerRaw) : (dnsMachine file 0).init dnsStarted :=
  ⟨rfl, _, rfl, rfl⟩

theorem dnsSetKept_two :
    ∃ s : DnsState, dnsEntries 0 s.servers = [0x08080808] ∧
      (dnsMachine .lwip 0).ReachableVia (AddsSafely .lwip 0) s ∧
      DnsSetKept .lwip 0 (AddsSafely .lwip 0) s := by
  have hreach : (dnsMachine .lwip 0).ReachableVia (AddsSafely .lwip 0) _ :=
    (Machine.ReachableVia.init (dnsStarted_init .lwip)).run
      [.add 0x01010101, .add 0x08080808, .remove 0x01010101] (by decide) rfl
  exact ⟨_, by decide, hreach, dnsSetKept hreach⟩

/-- The same address added twice takes both slots, and in `App/Src` the second of two
addresses is not stored. -/
theorem not_dnsSetKept_twice :
    (¬ ∀ s, (dnsMachine .lwip 0).Reachable s →
        DnsSetKept .lwip 0 (fun _ _ => True) s) ∧
      ¬ ∀ s, (dnsMachine .app 0).Reachable s →
        DnsSetKept .app 0 (fun _ _ => True) s := by
  constructor
  · intro hall
    have hreach := (dnsMachine .lwip 0).reachable_of_run (dnsStarted_init .lwip)
      [.add 0x08080808, .add 0x08080808] rfl
    exact absurd (hall _ hreach).nodup (by decide)
  · intro hall
    have hreach := (dnsMachine .app 0).reachable_of_run (dnsStarted_init .app)
      [.add 0x01010101, .add 0x08080808] rfl
    exact absurd (hall _ hreach).toFinset_eq (by decide)

end RtpMulticast
