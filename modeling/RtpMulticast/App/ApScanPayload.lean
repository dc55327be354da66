import RtpMulticast.Support.CString

/-!
# The report of a Wi-Fi access point over BLE

`BLE_COMM_APP_BuildApScanPayload` writes one access point of a scan to the value
of a characteristic.  The phone reads it back by the layout in the comment of that
function.
-/

namespace RtpMulticast

open ByteBuffer CStrings

/-! ## Building the payload -/

/-- `W6X_WIFI_MAX_SSID_SIZE`. -/
def w6xWifiMaxSsidSize : ℕ := 32

/-- The payload size, zero for an error, and the destination.  A pointer is null
or the object from there on. -/
def bleCommAppBuildApScanPayload (dst : Option Bytes) (dstSize : ℕ)
    (ssid : Option Bytes) (channel : UInt8) (rssi : Int16) (security : UInt32) :
    Except Fault (UInt8 × Option Bytes) := do
  match dst, ssid with
  | some dst, some ssid =>
      let ssidLen ← strnlen ssid w6xWifiMaxSsidSize
      let dst ← copyIn dst 0 (List.replicate dstSize 0)
      let payloadLen := 8 + ssidLen + 1
      if dstSize < payloadLen ∨ 255 < payloadLen then
        return (0, some dst)
      let dst ← storeU8 dst 0 (UInt8.ofNat (ssidLen + 1))
      let dst ← storeU8 dst 1 channel
      let rssiU16 := rssi.toUInt16
      let dst ← storeU8 dst 2 (rssiU16 &&& 0xFF).toUInt8
      let dst ← storeU8 dst 3 ((rssiU16 >>> 8) &&& 0xFF).toUInt8
      let dst ← storeU8 dst 4 (security &&& 0xFF).toUInt8
      let dst ← storeU8 dst 5 ((security >>> 8) &&& 0xFF).toUInt8
      let dst ← storeU8 dst 6 ((security >>> 16) &&& 0xFF).toUInt8
      let dst ← storeU8 dst 7 ((security >>> 24) &&& 0xFF).toUInt8
      let ssidBytes ← copyOut ssid 0 ssidLen
      let dst ← copyIn dst 8 ssidBytes
      let dst ← storeU8 dst (8 + ssidLen) 0
      return (UInt8.ofNat payloadLen, some dst)
  | dst, _ => return (0, dst)

/-! ## The documented layout -/

/-- What is reported of an access point. -/
structure ApReport where
  ssid : Bytes
  channel : UInt8
  rssi : Int16
  security : UInt32
  deriving DecidableEq

/-- Length of the name with its terminator, channel, signal strength and security
with the least significant byte first, and the name. -/
def decodeApReport : Bytes → Option ApReport
  | len :: channel :: r₀ :: r₁ :: s₀ :: s₁ :: s₂ :: s₃ :: name =>
      if name.length = len.toNat ∧ name = stringOf name ++ [0] then
        some
          { ssid := stringOf name
            channel := channel
            rssi := (u16OfBytes r₀ r₁).toInt16
            security := u32OfBytes s₀ s₁ s₂ s₃ }
      else none
  | _ => none

/-- The bytes of a report in that layout. -/
def encodeApReport (report : ApReport) : Bytes :=
  UInt8.ofNat (report.ssid.length + 1) :: report.channel ::
    (leU16 report.rssi.toUInt16 ++ (leU32 report.security ++
      (report.ssid ++ [0])))

theorem decodeApReport_encode {report : ApReport} (hzero : 0 ∉ report.ssid)
    (hlen : report.ssid.length < 255) :
    decodeApReport (encodeApReport report) = some report := by
  have hstring : stringOf (report.ssid ++ [0]) = report.ssid := by
    rw [stringOf_append hzero]
    exact List.append_nil _
  have hlength : (report.ssid ++ [0]).length =
      (UInt8.ofNat (report.ssid.length + 1)).toNat := by
    rw [List.length_append, UInt8.toNat_ofNat_of_lt' (by rw [UInt8.size]; omega)]
    rfl
  have hcond : (report.ssid ++ [0]).length =
      (UInt8.ofNat (report.ssid.length + 1)).toNat ∧
        report.ssid ++ [0] = stringOf (report.ssid ++ [0]) ++ [0] :=
    ⟨hlength, by rw [hstring]⟩
  have hbytes : encodeApReport report =
      UInt8.ofNat (report.ssid.length + 1) :: report.channel ::
        byteOf report.rssi.toUInt16.toNat 0 ::
        byteOf report.rssi.toUInt16.toNat 1 ::
        byteOf report.security.toNat 0 :: byteOf report.security.toNat 1 ::
        byteOf report.security.toNat 2 :: byteOf report.security.toNat 3 ::
        (report.ssid ++ [0]) := rfl
  rw [hbytes, decodeApReport, if_pos hcond, hstring, u16OfBytes_byteOf,
    u32OfBytes_byteOf]
  rfl

/-! ## The payload is the report -/

/-- A pointer to a name of a scan: its bytes, ended by a terminator or by the
bound, and what follows in memory. -/
structure SsidField where
  ssid : Bytes
  rest : Bytes
  noZero : 0 ∉ ssid
  length_le : ssid.length ≤ w6xWifiMaxSsidSize
  ends : ssid.length = w6xWifiMaxSsidSize ∨ rest.head? = some 0

theorem SsidField.strnlen_eq (field : SsidField) :
    strnlen (field.ssid ++ field.rest) w6xWifiMaxSsidSize =
      .ok field.ssid.length :=
  strnlen_append field.noZero field.length_le field.ends

theorem length_encodeApReport (report : ApReport) :
    (encodeApReport report).length = 9 + report.ssid.length := by
  simp only [encodeApReport, leU16, leU32, List.length_cons,
    List.length_append, List.length_nil]
  omega

/-- `memset` over the destination, with what lies behind it. -/
theorem copyIn_zeros (dest beyond : Bytes) :
    copyIn (dest ++ beyond) 0 (List.replicate dest.length 0) =
      .ok (List.replicate dest.length 0 ++ beyond) := by
  have hcopy := copyIn_append [] dest beyond (List.replicate dest.length 0)
    List.length_replicate
  exact hcopy

/-- A payload that does not fit is refused, the destination cleared. -/
theorem bleCommAppBuildApScanPayload_of_lt {dest : Bytes} (beyond : Bytes)
    (field : SsidField) (channel : UInt8) (rssi : Int16) (security : UInt32)
    (h : dest.length < 9 + field.ssid.length) :
    bleCommAppBuildApScanPayload (some (dest ++ beyond)) dest.length
        (some (field.ssid ++ field.rest)) channel rssi security =
      .ok (0, some (List.replicate dest.length 0 ++ beyond)) := by
  have hrefused : dest.length < 8 + field.ssid.length + 1 ∨
      255 < 8 + field.ssid.length + 1 := Or.inl (by omega)
  simp only [bleCommAppBuildApScanPayload, field.strnlen_eq, ok_bind,
    copyIn_zeros, if_pos hrefused, pure_eq_ok]

/-- The bytes in front of the name. -/
theorem storeU8_header (b₀ b₁ b₂ b₃ b₄ b₅ b₆ b₇ : UInt8) (tail : Bytes)
    {α : Type} (f : Bytes → Except Fault α) :
    (do
      let dst ← storeU8 (0 :: 0 :: 0 :: 0 :: 0 :: 0 :: 0 :: 0 :: tail) 0 b₀
      let dst ← storeU8 dst 1 b₁
      let dst ← storeU8 dst 2 b₂
      let dst ← storeU8 dst 3 b₃
      let dst ← storeU8 dst 4 b₄
      let dst ← storeU8 dst 5 b₅
      let dst ← storeU8 dst 6 b₆
      let dst ← storeU8 dst 7 b₇
      f dst) = f ([b₀, b₁, b₂, b₃, b₄, b₅, b₆, b₇] ++ tail) := by
  simp [storeU8]

/-- The name and its terminator behind a header of eight bytes. -/
theorem copyIn_name {header : Bytes} (hheader : header.length = 8)
    (name tail : Bytes) {α : Type} (f : Bytes → Except Fault α) :
    (do
      let dst ← copyIn (header ++ (List.replicate name.length 0 ++ (0 :: tail)))
        8 name
      let dst ← storeU8 dst (8 + name.length) 0
      f dst) = f (header ++ (name ++ (0 :: tail))) := by
  have hcopy := copyIn_append header (List.replicate name.length 0) (0 :: tail)
    name List.length_replicate.symm
  have hstore := storeU8_append (header ++ name) 0 tail 0
  rw [List.append_assoc, List.append_assoc, hheader] at hcopy
  rw [List.append_assoc, List.length_append, hheader] at hstore
  rw [hcopy, ok_bind, hstore, ok_bind]

/-- A payload that fits is the report, with zeros up to the end of the
destination. -/
theorem bleCommAppBuildApScanPayload_of_le {dest : Bytes} (beyond : Bytes)
    (field : SsidField) (channel : UInt8) (rssi : Int16) (security : UInt32)
    (h : 9 + field.ssid.length ≤ dest.length) :
    ∃ k, bleCommAppBuildApScanPayload (some (dest ++ beyond)) dest.length
        (some (field.ssid ++ field.rest)) channel rssi security =
      .ok (UInt8.ofNat (9 + field.ssid.length),
        some (encodeApReport ⟨field.ssid, channel, rssi, security⟩ ++
          List.replicate k 0 ++ beyond)) ∧
      dest.length = 9 + field.ssid.length + k := by
  have hlen := field.length_le
  rw [w6xWifiMaxSsidSize] at hlen
  have haccepted : ¬ (dest.length < 8 + field.ssid.length + 1 ∨
      255 < 8 + field.ssid.length + 1) := by omega
  obtain ⟨k, hk⟩ := Nat.exists_eq_add_of_le h
  have hzeros : List.replicate dest.length (0 : UInt8) ++ beyond =
      0 :: 0 :: 0 :: 0 :: 0 :: 0 :: 0 :: 0 ::
        (List.replicate field.ssid.length 0 ++
          (0 :: (List.replicate k 0 ++ beyond))) := by
    have hparts : dest.length = 8 + (field.ssid.length + (1 + k)) := by omega
    rw [hparts, List.replicate_add, List.replicate_add, List.replicate_add,
      List.append_assoc, List.append_assoc, List.append_assoc]
    rfl
  have hname : copyOut (field.ssid ++ field.rest) 0 field.ssid.length =
      .ok field.ssid := copyOut_append [] field.ssid field.rest
  refine ⟨k, ?_, hk⟩
  simp only [bleCommAppBuildApScanPayload, field.strnlen_eq, ok_bind,
    copyIn_zeros, if_neg haccepted, pure_eq_ok, hzeros, hname]
  rw [storeU8_header, copyIn_name rfl, toUInt8_mask16, toUInt8_mask32,
    toUInt8_shift_mask16 rssi.toUInt16 (by decide : (8 : UInt16).toNat = 8 * 1)
      (by decide),
    toUInt8_shift_mask32 security (by decide : (8 : UInt32).toNat = 8 * 1)
      (by decide),
    toUInt8_shift_mask32 security (by decide : (16 : UInt32).toNat = 8 * 2)
      (by decide),
    toUInt8_shift_mask32 security (by decide : (24 : UInt32).toNat = 8 * 3)
      (by decide)]
  have hsize : 8 + field.ssid.length + 1 = 9 + field.ssid.length := by omega
  rw [hsize]
  simp only [encodeApReport, leU16, leU32, List.cons_append, List.nil_append,
    List.append_assoc]

/-- The report of an access point: zero exactly for a destination that is too
small, nothing written behind the destination, and a payload that reads back as
what was reported. -/
theorem bleCommAppBuildApScanPayload_decodes (dest beyond : Bytes)
    (field : SsidField) (channel : UInt8) (rssi : Int16) (security : UInt32) :
    ∃ size dest', bleCommAppBuildApScanPayload (some (dest ++ beyond))
        dest.length (some (field.ssid ++ field.rest)) channel rssi security =
          .ok (size, some (dest' ++ beyond)) ∧
      dest'.length = dest.length ∧
      (size = 0 ↔ dest.length < 9 + field.ssid.length) ∧
      (size ≠ 0 → decodeApReport (dest'.take size.toNat) =
        some ⟨field.ssid, channel, rssi, security⟩) := by
  have hlen := field.length_le
  rw [w6xWifiMaxSsidSize] at hlen
  by_cases hfits : dest.length < 9 + field.ssid.length
  · refine ⟨0, List.replicate dest.length 0, ?_, List.length_replicate, ?_, ?_⟩
    · exact bleCommAppBuildApScanPayload_of_lt beyond field channel rssi security
        hfits
    · exact ⟨fun _ => hfits, fun _ => rfl⟩
    · exact fun hne => absurd rfl hne
  · obtain ⟨k, hbuild, hk⟩ := bleCommAppBuildApScanPayload_of_le beyond field
      channel rssi security (Nat.le_of_not_lt hfits)
    have hlength :=
      length_encodeApReport ⟨field.ssid, channel, rssi, security⟩
    have hsize : (UInt8.ofNat (9 + field.ssid.length)).toNat =
        9 + field.ssid.length :=
      UInt8.toNat_ofNat_of_lt' (by rw [UInt8.size]; omega)
    refine ⟨_, _, hbuild, ?_, ?_, fun _ => ?_⟩
    · rw [List.length_append, List.length_replicate, hlength, hk]
    · constructor
      · intro hzero
        rw [hzero, UInt8.toNat_zero] at hsize
        omega
      · exact fun hlt => absurd hlt hfits
    · rw [hsize, ← hlength, List.take_left]
      have hshort : field.ssid.length < 255 := by omega
      exact decodeApReport_encode field.noZero hshort

/-- The name `Home` in a buffer of 33 bytes. -/
def homeField : SsidField where
  ssid := [0x48, 0x6F, 0x6D, 0x65]
  rest := List.replicate 29 0
  noZero := by decide
  length_le := by decide
  ends := Or.inr rfl

/-- Channel 6, a signal of -40 dBm and WPA2 security, for a destination of 20 bytes. -/
theorem bleCommAppBuildApScanPayload_decodes_home :
    ∃ size dest', bleCommAppBuildApScanPayload (some (List.replicate 20 0 ++ [0xEE]))
        20 (some (homeField.ssid ++ homeField.rest)) 6 (-40) 3 =
          .ok (size, some (dest' ++ [0xEE])) ∧
      dest'.length = 20 ∧ (size = 0 ↔ 20 < 9 + homeField.ssid.length) ∧
      (size ≠ 0 → decodeApReport (dest'.take size.toNat) =
        some ⟨homeField.ssid, 6, -40, 3⟩) :=
  bleCommAppBuildApScanPayload_decodes (List.replicate 20 0) [0xEE] homeField 6 (-40) 3

end RtpMulticast
