import RtpMulticast.Support.Rfc3550

/-!
# A reader of RTCP compound packets

Reads what RFC 3550, section 6, puts on the wire: a packet is one word longer
than its length field says in words, the items of a chunk are ended by a null
octet and padded with null octets to the next word, and a compound packet is
read to its last byte.  The encodings of sender reports and source descriptions
are read back as they were written.
-/

namespace Rfc3550

open ByteBuffer

/-- A sender report; `blocks` are the octets of the report blocks and
`extension` is the profile-specific part behind them. -/
structure SenderReport where
  source : UInt32
  ntpMsw : UInt32
  ntpLsw : UInt32
  rtpTimestamp : UInt32
  packetCount : UInt32
  octetCount : UInt32
  blocks : Bytes
  extension : Bytes
  deriving DecidableEq

inductive ReadPacket where
  | senderReport (report : SenderReport)
  | sourceDescription (chunks : List SdesChunk)
  | other (type : UInt8) (count : ℕ) (body : Bytes)

/-! ## Fields -/

def readU16 : Bytes → Option (UInt16 × Bytes)
  | b₁ :: b₀ :: rest => some (u16OfBytes b₀ b₁, rest)
  | _ => none

def readU32 : Bytes → Option (UInt32 × Bytes)
  | b₃ :: b₂ :: b₁ :: b₀ :: rest => some (u32OfBytes b₀ b₁ b₂ b₃, rest)
  | _ => none

def readBytes (n : ℕ) (bytes : Bytes) : Option (Bytes × Bytes) :=
  if n ≤ bytes.length then some (bytes.take n, bytes.drop n) else none

/-! ## Source descriptions -/

theorem length_take_le (rest : Bytes) (size : UInt8) :
    (rest.take size.toNat).length ≤ 255 := by
  have hsize := size.toNat_lt
  rw [List.length_take]
  omega

/-- Items up to their terminator.  The packet ends at a word, so the octets
left behind the terminator say how many of them are padding. -/
def readItems : ℕ → Bytes → Option (List SdesItem × Bytes)
  | fuel + 1, type :: rest =>
      if h : type = 0 then
        if rest.take (rest.length % 4) = List.replicate (rest.length % 4) 0 then
          some ([], rest.drop (rest.length % 4))
        else none
      else
        match rest with
        | [] => none
        | size :: rest =>
            if size.toNat ≤ rest.length then
              match readItems fuel (rest.drop size.toNat) with
              | none => none
              | some (items, left) =>
                  some (⟨type, rest.take size.toNat, h,
                    length_take_le rest size⟩ :: items, left)
            else none
  | _, _ => none

def readChunks : ℕ → Bytes → Option (List SdesChunk × Bytes)
  | 0, bytes => some ([], bytes)
  | count + 1, bytes => do
      let (source, bytes) ← readU32 bytes
      let (items, bytes) ← readItems bytes.length bytes
      let (chunks, bytes) ← readChunks count bytes
      return (⟨source, items⟩ :: chunks, bytes)

/-! ## Packets -/

def readSenderReport (count : ℕ) (body : Bytes) : Option SenderReport := do
  let (source, body) ← readU32 body
  let (ntpMsw, body) ← readU32 body
  let (ntpLsw, body) ← readU32 body
  let (rtpTimestamp, body) ← readU32 body
  let (packetCount, body) ← readU32 body
  let (octetCount, body) ← readU32 body
  let (blocks, extension) ← readBytes (24 * count) body
  return ⟨source, ntpMsw, ntpLsw, rtpTimestamp, packetCount, octetCount,
    blocks, extension⟩

def readBody (type : UInt8) (count : ℕ) (body : Bytes) : Option ReadPacket :=
  if type = 200 then (readSenderReport count body).map .senderReport
  else if type = 202 then
    match readChunks count body with
    | some (chunks, []) => some (.sourceDescription chunks)
    | _ => none
  else some (.other type count body)

/-- With the padding bit set, the last octet counts the octets to leave out,
itself included. -/
def dropPadding (padded : Bool) (body : Bytes) : Option Bytes :=
  if padded then
    let size := (body.getLastD 0).toNat
    if 0 < size ∧ size % 4 = 0 ∧ size ≤ body.length then
      some (body.take (body.length - size))
    else none
  else some body

def readPacket : Bytes → Option (ReadPacket × Bytes)
  | first :: type :: bytes => do
      if first &&& 0xC0 ≠ 0x80 then none
      let (size, bytes) ← readU16 bytes
      let (body, rest) ← readBytes (4 * size.toNat) bytes
      let body ← dropPadding (first &&& 0x20 ≠ 0) body
      let packet ← readBody type (first &&& 0x1F).toNat body
      return (packet, rest)
  | _ => none

/-- Packets up to the end of the bytes; every packet takes a word or more. -/
def readPackets : ℕ → Bytes → Option (List ReadPacket)
  | _, [] => some []
  | fuel + 1, bytes => do
      let (packet, rest) ← readPacket bytes
      let packets ← readPackets fuel rest
      return packet :: packets
  | _, _ => none

def readCompound (bytes : Bytes) : Option (List ReadPacket) :=
  readPackets bytes.length bytes

/-! ## What is encoded is read back -/

theorem readU16_beU16 (v : UInt16) (rest : Bytes) :
    readU16 (beU16 v ++ rest) = some (v, rest) := by
  simp [readU16, beU16]

theorem readU32_beU32 (v : UInt32) (rest : Bytes) :
    readU32 (beU32 v ++ rest) = some (v, rest) := by
  simp [readU32, beU32]

theorem readBytes_append {front : Bytes} {n : ℕ} (h : front.length = n)
    (rest : Bytes) : readBytes n (front ++ rest) = some (front, rest) := by
  subst h
  simp [readBytes]

theorem length_le_flatMap_encode (items : List SdesItem) :
    items.length ≤ (items.flatMap SdesItem.encode).length := by
  induction items with
  | nil => exact le_rfl
  | cons item items ih =>
      rw [List.flatMap_cons, List.length_append, List.length_cons,
        SdesItem.length_encode]
      omega

theorem readItems_encode (items : List SdesItem) {pad fuel : ℕ}
    {rest : Bytes} (hpad : pad ≤ 3) (hrest : 4 ∣ rest.length)
    (hfuel : items.length < fuel) :
    readItems fuel (items.flatMap SdesItem.encode ++
        (List.replicate (pad + 1) 0 ++ rest)) = some (items, rest) := by
  induction items generalizing fuel with
  | nil =>
      obtain ⟨fuel, rfl⟩ : ∃ n, fuel = n + 1 := ⟨fuel - 1, by omega⟩
      have hsize : (List.replicate pad (0 : UInt8) ++ rest).length % 4 =
          (List.replicate pad (0 : UInt8)).length := by
        rw [List.length_append, List.length_replicate]
        omega
      rw [List.replicate_succ]
      simp only [List.flatMap_nil, List.nil_append, List.cons_append,
        readItems, dite_true, hsize, List.take_left', List.drop_left',
        List.length_replicate, if_true]
  | cons item items ih =>
      obtain ⟨fuel, rfl⟩ : ∃ n, fuel = n + 1 := ⟨fuel - 1, by omega⟩
      have hlen : (UInt8.ofNat item.data.length).toNat = item.data.length := by
        have hle := item.data_le
        rw [UInt8.toNat_ofNat']
        omega
      have hitems := @ih fuel (by simpa using hfuel)
      simp only [List.flatMap_cons, SdesItem.encode, List.append_assoc,
        List.cons_append, List.nil_append, readItems, dif_neg item.type_ne,
        hlen]
      rw [if_pos (by simp), List.drop_left, hitems]
      simp

theorem readChunks_encode (chunks : List SdesChunk) {rest : Bytes}
    (hrest : 4 ∣ rest.length) :
    readChunks chunks.length (chunks.flatMap SdesChunk.encode ++ rest) =
      some (chunks, rest) := by
  induction chunks with
  | nil => rfl
  | cons chunk chunks ih =>
      have hbounds := chunk.padding_bounds
      have haligned : 4 ∣ (chunks.flatMap SdesChunk.encode ++ rest).length := by
        rw [List.length_append]
        exact Nat.dvd_add (chunks_aligned chunks) hrest
      have hpad : chunk.padding = (chunk.padding - 1) + 1 := by omega
      have hfuel : chunk.items.length <
          (chunk.items.flatMap SdesItem.encode ++
            (List.replicate (chunk.padding - 1 + 1) 0 ++
              (chunks.flatMap SdesChunk.encode ++ rest))).length := by
        have hle := length_le_flatMap_encode chunk.items
        rw [List.length_append, List.length_append, List.length_replicate]
        omega
      have hitems := @readItems_encode chunk.items (chunk.padding - 1) _ _
        (by omega) haligned hfuel
      simp only [List.flatMap_cons, SdesChunk.encode, List.append_assoc,
        List.length_cons, readChunks, readU32_beU32]
      rw [hpad]
      simp only [Option.bind_eq_bind, Option.bind_some, hitems, ih,
        Option.pure_def]

/-! ## Round trips of packets -/

def SenderReport.words (report : SenderReport) : ℕ :=
  7 + (report.blocks.length + report.extension.length) / 4

def SenderReport.body (report : SenderReport) : Bytes :=
  beU32 report.source ++ (beU32 report.ntpMsw ++ (beU32 report.ntpLsw ++
    (beU32 report.rtpTimestamp ++ (beU32 report.packetCount ++
      (beU32 report.octetCount ++ (report.blocks ++ report.extension))))))

def SenderReport.encode (report : SenderReport) : Bytes :=
  [0x80 ||| UInt8.ofNat (report.blocks.length / 24), 200] ++
    beU16 (UInt16.ofNat (report.words - 1)) ++ report.body

/-- Reports that the format can carry. -/
structure SenderReport.Valid (report : SenderReport) : Prop where
  blocks : ∃ n ≤ 31, report.blocks.length = 24 * n
  extension : 4 ∣ report.extension.length
  words : report.words ≤ 65536

/-- A packet without padding is read as its body is. -/
theorem readPacket_of_body {count size : ℕ} {type : UInt8} {body : Bytes}
    {packet : ReadPacket} (rest : Bytes) (hcount : count ≤ 31)
    (hsize : size < 65536) (hlen : body.length = 4 * size)
    (hbody : readBody type count body = some packet) :
    readPacket ([0x80 ||| UInt8.ofNat count, type] ++
      beU16 (UInt16.ofNat size) ++ body ++ rest) = some (packet, rest) := by
  obtain ⟨hversion, hpadding⟩ := version_field count hcount
  have hfield : (UInt16.ofNat size).toNat = size := by
    rw [UInt16.toNat_ofNat']
    omega
  simp only [List.cons_append, List.nil_append, List.append_assoc, readPacket,
    hversion, ne_eq, not_true_eq_false, if_false, readU16_beU16, hfield,
    Option.bind_eq_bind, Option.bind_some, readBytes_append hlen, hpadding,
    count_field count hcount, Option.pure_def]
  simp [dropPadding, hbody]

theorem readSenderReport_body {report : SenderReport} {n : ℕ}
    (h : report.blocks.length = 24 * n) :
    readSenderReport n report.body = some report := by
  simp only [readSenderReport, SenderReport.body, readU32_beU32,
    Option.bind_eq_bind, Option.bind_some, readBytes_append h, Option.pure_def]

theorem readPacket_senderReport {report : SenderReport} (h : report.Valid)
    (rest : Bytes) :
    readPacket (report.encode ++ rest) =
      some (.senderReport report, rest) := by
  obtain ⟨n, hn, hblocks⟩ := h.blocks
  have hextension := h.extension
  have hwords := h.words
  have hcount : report.blocks.length / 24 = n := by omega
  have hlen : report.body.length = 4 * (report.words - 1) := by
    simp only [SenderReport.body, SenderReport.words, List.length_append,
      length_beU32]
    omega
  have hbody : readBody 200 n report.body = some (.senderReport report) := by
    simp [readBody, readSenderReport_body hblocks]
  rw [SenderReport.encode, hcount]
  exact readPacket_of_body rest hn (by omega) hlen hbody

theorem readPacket_sourceDescription (sdes : SourceDescription)
    (rest : Bytes) :
    readPacket (sdes.encode ++ rest) =
      some (.sourceDescription sdes.chunks, rest) := by
  have hwords := sdes.words_le
  have haligned := chunks_aligned sdes.chunks
  have hlen : (sdes.chunks.flatMap SdesChunk.encode).length =
      4 * (sdes.words - 1) := by
    simp only [SourceDescription.words]
    omega
  have hchunks := @readChunks_encode sdes.chunks [] (dvd_zero 4)
  rw [List.append_nil] at hchunks
  have hbody : readBody 202 sdes.chunks.length
      (sdes.chunks.flatMap SdesChunk.encode) =
        some (.sourceDescription sdes.chunks) := by
    simp [readBody, hchunks]
  have hpos : 1 ≤ sdes.words := Nat.le_add_right 1 _
  rw [SourceDescription.encode]
  exact readPacket_of_body rest sdes.chunks_le (by omega) hlen hbody

theorem readPackets_cons {fuel : ℕ} {bytes rest : Bytes} {packet : ReadPacket}
    (hbytes : bytes ≠ []) (h : readPacket bytes = some (packet, rest)) :
    readPackets (fuel + 1) bytes =
      (readPackets fuel rest).map (packet :: ·) := by
  cases bytes with
  | nil => exact absurd rfl hbytes
  | cons byte bytes =>
      simp only [readPackets, h, Option.bind_eq_bind, Option.bind_some,
        Option.pure_def]
      cases readPackets fuel rest <;> rfl

/-- A sender report followed by a source description is read as such. -/
theorem readCompound_encode {report : SenderReport} (h : report.Valid)
    (sdes : SourceDescription) :
    readCompound (report.encode ++ sdes.encode) =
      some [.senderReport report, .sourceDescription sdes.chunks] := by
  have hfirst := readPacket_senderReport h sdes.encode
  have hsecond := readPacket_sourceDescription sdes []
  rw [List.append_nil] at hsecond
  obtain ⟨fuel, hfuel⟩ : ∃ fuel,
      (report.encode ++ sdes.encode).length = fuel + 1 + 1 := by
    refine ⟨(report.encode ++ sdes.encode).length - 2, ?_⟩
    simp only [SenderReport.encode, List.length_append, List.length_cons]
    omega
  rw [readCompound, hfuel, readPackets_cons (by simp [SenderReport.encode])
    hfirst, readPackets_cons (by simp [SourceDescription.encode]) hsecond]
  cases fuel <;> rfl

/-! ## What was read is there -/

theorem readU32_eq_some {bytes rest : Bytes} {v : UInt32}
    (h : readU32 bytes = some (v, rest)) : bytes = beU32 v ++ rest := by
  match bytes with
  | b₃ :: b₂ :: b₁ :: b₀ :: left =>
      simp only [readU32, Option.some.injEq, Prod.mk.injEq] at h
      obtain ⟨rfl, rfl⟩ := h
      simp [beU32]
  | [] => cases h
  | [_] => cases h
  | [_, _] => cases h
  | [_, _, _] => cases h

/-- The chunk read first starts with its source. -/
theorem readChunks_eq_some {count : ℕ} {bytes rest : Bytes} {chunk : SdesChunk}
    {chunks : List SdesChunk}
    (h : readChunks count bytes = some (chunk :: chunks, rest)) :
    ∃ left, bytes = beU32 chunk.source ++ left := by
  cases count with
  | zero => cases h
  | succ count =>
      simp only [readChunks, Option.bind_eq_bind, Option.bind_eq_some_iff,
        Option.pure_def, Option.some.injEq] at h
      obtain ⟨⟨source, left⟩, hsource, ⟨items, _⟩, -, ⟨_, _⟩, -, h⟩ := h
      cases h
      exact ⟨left, readU32_eq_some hsource⟩

theorem dropPadding_prefix {padded : Bool} {body left : Bytes}
    (h : dropPadding padded body = some left) : left <+: body := by
  cases padded with
  | false =>
      cases h
      exact List.prefix_refl _
  | true =>
      simp only [dropPadding, if_true] at h
      split at h
      · cases h
        exact List.take_prefix _ _
      · cases h

theorem readU16_eq_some {bytes rest : Bytes} {v : UInt16}
    (h : readU16 bytes = some (v, rest)) : bytes = beU16 v ++ rest := by
  match bytes with
  | b₁ :: b₀ :: left =>
      simp only [readU16, Option.some.injEq, Prod.mk.injEq] at h
      obtain ⟨rfl, rfl⟩ := h
      simp [beU16]
  | [] => cases h
  | [_] => cases h

theorem readBytes_eq_some {n : ℕ} {bytes front rest : Bytes}
    (h : readBytes n bytes = some (front, rest)) :
    bytes = front ++ rest ∧ front.length = n := by
  simp only [readBytes] at h
  split at h
  · next hle =>
      simp only [Option.some.injEq, Prod.mk.injEq] at h
      obtain ⟨rfl, rfl⟩ := h
      exact ⟨(List.take_append_drop n bytes).symm, List.length_take_of_le hle⟩
  · cases h

/-- A packet that was read: its header, its octets and what is behind it. -/
theorem readPacket_eq_some {bytes rest : Bytes} {packet : ReadPacket}
    (h : readPacket bytes = some (packet, rest)) :
    ∃ first type size padded body,
      bytes = first :: type :: (beU16 size ++ (padded ++ rest)) ∧
        first &&& 0xC0 = 0x80 ∧ padded.length = 4 * size.toNat ∧
        body <+: padded ∧
        readBody type (first &&& 0x1F).toNat body = some packet := by
  match bytes with
  | [] => cases h
  | [_] => cases h
  | first :: type :: bytes =>
      rw [readPacket] at h
      split at h
      · cases h
      · next hversion =>
          simp only [Option.bind_eq_bind, Option.bind_eq_some_iff,
            Option.pure_def, Option.some.injEq, Prod.mk.injEq] at h
          obtain ⟨⟨size, left⟩, hsize, ⟨padded, rest'⟩, hpadded, body, hbody,
            packet', hpacket, rfl, rfl⟩ := h
          obtain ⟨hleft, hlen⟩ := readBytes_eq_some hpadded
          refine ⟨first, type, size, padded, body, ?_, not_not.mp hversion,
            hlen, dropPadding_prefix hbody, hpacket⟩
          have hleft' : left = padded ++ rest' := hleft
          rw [readU16_eq_some hsize, hleft']

/-- The next packet starts one word behind what the length field counts. -/
theorem readPacket_rest {first type : UInt8} {size : UInt16}
    {body rest left : Bytes} {packet : ReadPacket}
    (hlen : body.length = 4 * size.toNat)
    (h : readPacket (first :: type :: (beU16 size ++ (body ++ rest))) =
      some (packet, left)) : left = rest := by
  obtain ⟨_, _, size', padded, _, hbytes, -, hpadded, -⟩ := readPacket_eq_some h
  simp only [List.cons.injEq] at hbytes
  obtain ⟨-, -, hbytes⟩ := hbytes
  have hread := readU16_beU16 size (body ++ rest)
  rw [hbytes, readU16_beU16] at hread
  simp only [Option.some.injEq, Prod.mk.injEq] at hread
  obtain ⟨rfl, hread⟩ := hread
  exact (List.append_inj hread (hpadded.trans hlen.symm)).2

/-- The first chunk of a source description names its source behind the
header. -/
theorem readPacket_source {bytes rest : Bytes} {chunk : SdesChunk}
    {chunks : List SdesChunk}
    (h : readPacket bytes =
      some (.sourceDescription (chunk :: chunks), rest)) :
    ∃ first type size left,
      bytes = first :: type :: (beU16 size ++ (beU32 chunk.source ++ left)) ∧
        first &&& 0xC0 = 0x80 := by
  obtain ⟨first, type, size, padded, body, hbytes, hversion, -, ⟨tail, htail⟩,
    hbody⟩ := readPacket_eq_some h
  simp only [readBody] at hbody
  split at hbody
  · simp at hbody
  · split at hbody
    · split at hbody
      · next hchunks =>
          simp only [Option.some.injEq, ReadPacket.sourceDescription.injEq]
            at hbody
          rw [hbody] at hchunks
          obtain ⟨left, hleft⟩ := readChunks_eq_some hchunks
          refine ⟨first, type, size, left ++ (tail ++ rest), ?_, hversion⟩
          rw [hbytes, ← htail, hleft]
          simp only [List.append_assoc]
      · cases hbody
    · cases hbody

theorem readPackets_eq_some {fuel : ℕ} {bytes : Bytes} {packet : ReadPacket}
    {packets : List ReadPacket}
    (h : readPackets fuel bytes = some (packet :: packets)) :
    ∃ fuel' rest, readPacket bytes = some (packet, rest) ∧
      readPackets fuel' rest = some packets := by
  cases bytes with
  | nil =>
      cases fuel <;> simp [readPackets] at h
  | cons byte bytes =>
      cases fuel with
      | zero => simp [readPackets] at h
      | succ fuel =>
          simp only [readPackets, Option.bind_eq_bind, Option.bind_eq_some_iff,
            Option.pure_def, Option.some.injEq, List.cons.injEq] at h
          obtain ⟨⟨_, rest⟩, hpacket, _, hpackets, rfl, rfl⟩ := h
          exact ⟨fuel, rest, hpacket, hpackets⟩

end Rfc3550
