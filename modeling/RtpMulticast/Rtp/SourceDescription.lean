import RtpMulticast.Support.Rfc3550
import RtpMulticast.Rtp.RtcpBounds

/-!
# Decoding source descriptions

The item loop is followed through the items of a chunk.  It stops before the
last item when that one is empty and a single null octet ends the packet, the
chunk loop does not start on a chunk of eight bytes at the end of the packet,
and the step to the next chunk counts bytes where it means words.  A source
description with at most one chunk is decoded completely exactly when the first
two cases cost no name.
-/

namespace RtpMulticast

open ByteBuffer Rfc3550

/-! ## What a source description says -/

/-- Source and name that a call hands over. -/
def RtcpCall.named : RtcpCall → Option (UInt32 × Bytes)
  | .rr _ _ => none
  | .sdes client _ cnameSize name =>
      if name.length = cnameSize.toNat then some (client, name) else none

/-- The items that the loop reads when `padding` null octets follow. -/
def itemsRead (padding : ℕ) : List SdesItem → List SdesItem
  | [] => []
  | item :: rest =>
      if item.data = [] ∧ rest = [] ∧ padding = 1 then []
      else item :: itemsRead padding rest

/-! ## The item loop on a chunk -/

section Items

variable {chunk : ℕ}

/-- One item that the loop reads. -/
theorem sdesItems_cons (pre post : Bytes) (item : SdesItem)
    (calls : List RtcpCall) (limit : ℕ) (hchunk : chunk + 4 ≤ pre.length)
    (hlimit : limit ≤ (pre ++ item.encode ++ post).length)
    (hroom : pre.length + 3 < limit)
    (hend : pre.length + item.encode.length ≤ limit) :
    ∃ new,
      sdesItems (pre ++ item.encode ++ post) chunk limit pre.length calls =
          sdesItems (pre ++ item.encode ++ post) chunk limit
            (pre ++ item.encode).length (calls ++ new) ∧
        new.map RtcpCall.named =
          (cnames [item]).map fun name => some (leWord pre chunk, name) := by
  have hlen := item.length_encode
  have htotal : (pre ++ item.encode ++ post).length =
      pre.length + (2 + item.data.length) + post.length := by
    rw [List.length_append, List.length_append, hlen]
  have htype : (pre ++ item.encode ++ post).getD pre.length 0 = item.type := by
    rw [List.append_assoc, getD_append_right _ _ le_rfl, Nat.sub_self]
    rfl
  have hsize : (pre ++ item.encode ++ post).getD (pre.length + 1) 0 =
      UInt8.ofNat item.data.length := by
    rw [List.append_assoc, getD_append_right _ _ (by omega),
      Nat.add_sub_cancel_left]
    rfl
  have hclient : leWord (pre ++ item.encode ++ post) chunk = leWord pre chunk :=
    by rw [List.append_assoc, leWord_append_left pre _ hchunk]
  have hdata : ((pre ++ item.encode ++ post).drop (pre.length + 2)).take
      item.data.length = item.data := by
    have hsplit : pre ++ item.encode ++ post =
        (pre ++ [item.type, UInt8.ofNat item.data.length]) ++
          (item.data ++ post) := by
      simp only [SdesItem.encode, List.append_assoc]
    rw [hsplit, List.drop_left' (by simp), List.take_left]
  have htoNat : (UInt8.ofNat item.data.length).toNat = item.data.length := by
    have hle := item.data_le
    rw [UInt8.toNat_ofNat']
    omega
  refine ⟨sdesItemCalls (pre ++ item.encode ++ post) chunk pre.length, ?_, ?_⟩
  · rw [sdesItems_eq hlimit (by omega), if_pos hroom, htype,
      if_neg item.type_ne, hsize, htoNat, if_neg (by omega), List.length_append,
      hlen]
    congr 1
    omega
  · rw [sdesItemCalls, htype, hsize, htoNat, hclient, hdata]
    by_cases hcname : item.type = rtcpSdesTypeCname
    · rw [if_pos hcname, cnames_cons_of_eq hcname]
      simp [RtcpCall.named, htoNat, cnames]
    · rw [if_neg hcname, cnames_cons_of_ne hcname]
      rfl

theorem length_flatMap_pos {items : List SdesItem} (h : items ≠ []) :
    2 ≤ (items.flatMap SdesItem.encode).length := by
  obtain ⟨item, rest, rfl⟩ := List.exists_cons_of_ne_nil h
  rw [List.flatMap_cons, List.length_append, item.length_encode]
  omega

/-- The loop over the items of the last chunk of a packet. -/
theorem sdesItems_chunk (pre post : Bytes) (items : List SdesItem)
    {padding : ℕ} (hpadding : 1 ≤ padding) (calls : List RtcpCall)
    (hchunk : chunk + 4 ≤ pre.length) :
    ∃ item' new,
      sdesItems
          (pre ++ (items.flatMap SdesItem.encode ++
            (List.replicate padding 0 ++ post)))
          chunk
          (pre.length + (items.flatMap SdesItem.encode).length + padding)
          pre.length calls =
          .ok (.ok, item', calls ++ new) ∧
        new.map RtcpCall.named =
          (cnames (itemsRead padding items)).map
            fun name => some (leWord pre chunk, name) := by
  induction items generalizing pre calls with
  | nil =>
      refine ⟨pre.length, [], ?_, rfl⟩
      rw [List.append_nil, List.flatMap_nil, List.nil_append, List.length_nil,
        Nat.add_zero, sdesItems]
      split
      · have hnull : loadU8 (pre ++ (List.replicate padding 0 ++ post))
            pre.length = .ok 0 := by
          have h := loadU8_append_right pre (List.replicate padding 0 ++ post) 0
          obtain ⟨n, rfl⟩ := Nat.exists_eq_add_of_le' hpadding
          exact h
        rw [hnull]
        rfl
      · rfl
  | cons item rest ih =>
      rw [List.flatMap_cons, List.append_assoc, List.length_append,
        item.length_encode]
      by_cases hskip : item.data = [] ∧ rest = [] ∧ padding = 1
      · -- No room for the three bytes that the loop asks for.
        obtain ⟨hdata, rfl, rfl⟩ := hskip
        refine ⟨pre.length, [], ?_, ?_⟩
        · rw [sdesItems, dif_neg (by simp [hdata, rtcpPktSdesItemSize]),
            List.append_nil]
        · simp [itemsRead, hdata, cnames]
      · have hroom : 3 < 2 + item.data.length +
            (rest.flatMap SdesItem.encode).length + padding := by
          by_contra hsmall
          apply hskip
          refine ⟨List.length_eq_zero_iff.mp (by omega), ?_, by omega⟩
          by_contra hrest
          have hpos := length_flatMap_pos hrest
          omega
        obtain ⟨new, hstep, hnew⟩ := sdesItems_cons pre
          (rest.flatMap SdesItem.encode ++ (List.replicate padding 0 ++ post))
          item calls (pre.length + (2 + item.data.length +
            (rest.flatMap SdesItem.encode).length) + padding) hchunk
          (by simp [item.length_encode]; omega) (by omega)
          (by rw [item.length_encode]; omega)
        obtain ⟨item', new', hrun, hnew'⟩ := ih (pre ++ item.encode)
          (calls ++ new) (by rw [List.length_append]; omega)
        refine ⟨item', new ++ new', ?_, ?_⟩
        · have hlimit : pre.length + (2 + item.data.length +
              (rest.flatMap SdesItem.encode).length) + padding =
                (pre ++ item.encode).length +
                  (rest.flatMap SdesItem.encode).length + padding := by
            rw [List.length_append, item.length_encode]
            omega
          rw [← List.append_assoc pre, hstep, ← List.append_assoc calls,
            hlimit, hrun]
        · rw [itemsRead, if_neg hskip, List.map_append, hnew, hnew',
            leWord_append_left pre _ hchunk, ← List.map_append]
          by_cases hcname : item.type = 1
          · rw [cnames_cons_of_eq hcname, cnames_cons_of_eq hcname]
            rfl
          · rw [cnames_cons_of_ne hcname, cnames_cons_of_ne hcname]
            rfl

end Items

/-! ## Names lost at the end of a chunk -/

/-- No name is lost at the end of the chunk: a chunk of eight bytes has none,
and the last item is not an empty name with a single null octet behind it. -/
structure ChunkReadable (chunk : SdesChunk) : Prop where
  not_small : chunk.encode.length = 8 → cnames chunk.items = []
  not_flush : ∀ last, chunk.items.getLast? = some last →
    ¬ (last.type = 1 ∧ last.data = [] ∧ chunk.padding = 1)

/-- The items that are read have all names unless the last one is empty. -/
theorem cnames_itemsRead_iff (padding : ℕ) (items : List SdesItem) :
    cnames (itemsRead padding items) = cnames items ↔
      ∀ last, items.getLast? = some last →
        ¬ (last.type = 1 ∧ last.data = [] ∧ padding = 1) := by
  induction items with
  | nil => simp [itemsRead]
  | cons item rest ih =>
      rw [itemsRead]
      by_cases hskip : item.data = [] ∧ rest = [] ∧ padding = 1
      · obtain ⟨hdata, rfl, rfl⟩ := hskip
        by_cases hcname : item.type = 1
        · simp [hdata, hcname, cnames]
        · simp [hdata, hcname, cnames]
      · rw [if_neg hskip]
        have hhead : cnames (item :: itemsRead padding rest) =
            cnames (item :: rest) ↔
              cnames (itemsRead padding rest) = cnames rest := by
          by_cases hcname : item.type = 1
          · rw [cnames_cons_of_eq hcname, cnames_cons_of_eq hcname,
              List.cons.injEq, and_iff_right rfl]
          · rw [cnames_cons_of_ne hcname, cnames_cons_of_ne hcname]
        rw [hhead, ih]
        cases rest with
        | nil =>
            constructor
            · rintro - last hlast ⟨-, hdata, hpadding⟩
              rw [List.getLast?_singleton, Option.some.injEq] at hlast
              rw [← hlast] at hdata
              exact hskip ⟨hdata, rfl, hpadding⟩
            · rintro - last hlast
              cases hlast
        | cons next rest => rw [List.getLast?_cons_cons]

/-- A chunk without names loses none. -/
theorem chunkReadable_of_cnames_nil {chunk : SdesChunk}
    (h : cnames chunk.items = []) : ChunkReadable chunk := by
  refine ⟨fun _ => h, ?_⟩
  rintro last hlast ⟨htype, -, -⟩
  simp only [cnames, List.map_eq_nil_iff, List.filter_eq_nil_iff,
    beq_iff_eq] at h
  exact h last (List.mem_of_getLast? hlast) htype

/-! ## Complete decoding -/

/-- The receive task at a source description that stands behind `pre`. -/
def sdesRx (pre post : Bytes) (sdes : SourceDescription)
    (calls : List RtcpCall) (walked : List (ℕ × UInt8)) : RtcpRx :=
  rtcpFramed pre.length ⟨pre ++ (sdes.encode ++ post), calls, walked⟩

/-- The handler returns `ok` and has made one call for each CNAME item, in
packet order. -/
def SdesDecoded (sender : Sender) (sdes : SourceDescription) (pre post : Bytes)
    (calls : List RtcpCall) (walked : List (ℕ × UInt8)) : Prop :=
  ∃ rx new, w6xRtcpProcessPacketSdes sender pre.length
      (sdesRx pre post sdes calls walked) = .ok (.ok, rx) ∧
    rx.calls = calls ++ new ∧
    new.map RtcpCall.named = sdes.cnames.map some

section Packet

variable (pre post : Bytes) (sdes : SourceDescription) (calls : List RtcpCall)
  (walked : List (ℕ × UInt8))

/-- The header of the packet with its length field in host order. -/
def sdesHeader (sdes : SourceDescription) : Bytes :=
  [0x80 ||| UInt8.ofNat sdes.chunks.length, 202] ++
    leU16 (UInt16.ofNat (sdes.words - 1))

theorem packet_sdesRx :
    (sdesRx pre post sdes calls walked).packet =
      pre ++ (sdesHeader sdes ++
        (sdes.chunks.flatMap SdesChunk.encode ++ post)) := by
  change swapHalf (pre ++ (sdes.encode ++ post)) (pre.length + 2) = _
  rw [swapHalf_append_right]
  simp only [SourceDescription.encode, sdesHeader, List.append_assoc]
  rfl

theorem length_sdesRx :
    (sdesRx pre post sdes calls walked).packet.length =
      pre.length + 4 * sdes.words + post.length := by
  rw [sdesRx, length_rtcpFramed, List.length_append, List.length_append,
    sdes.length_encode]
  omega

/-- The handler goes into the chunk loop with the count and the end of the
packet. -/
theorem w6xRtcpProcessPacketSdes_sdesRx {sender : Sender}
    (hid : sender.id = rtpSenderId) (hcb : sender.rtcpSdesCb = true) :
    w6xRtcpProcessPacketSdes sender pre.length
        (sdesRx pre post sdes calls walked) =
      sdesChunks (pre.length + 4 * sdes.words) sdes.chunks.length
        (pre.length + 4) (sdesRx pre post sdes calls walked) := by
  have hlen := length_sdesRx pre post sdes calls walked
  have hwords := sdes.words_le
  have hpos : 1 ≤ sdes.words := Nat.le_add_right 1 _
  have hraw : (pre ++ (sdes.encode ++ post)).length =
      pre.length + 4 * sdes.words + post.length := by
    rw [← hlen, sdesRx, length_rtcpFramed]
  have hsize : (beHalf (pre ++ (sdes.encode ++ post)) (pre.length + 2)).toNat =
      sdes.words - 1 := by
    have hhalf : beHalf (sdes.encode ++ post) 2 =
        UInt16.ofNat (sdes.words - 1) := u16OfBytes_byteOf _
    rw [beHalf_append_right, hhalf, UInt16.toNat_ofNat']
    omega
  have hlimit : pre.length + 4 * ((leHalf
      (sdesRx pre post sdes calls walked).packet (pre.length + 2)).toNat + 1) =
        pre.length + 4 * sdes.words := by
    rw [sdesRx, rtcpFramed_size (by rw [hraw]; omega), rtcpNext, hsize]
    omega
  have hcount : (sdesRx pre post sdes calls walked).packet.getD pre.length 0 =
      0x80 ||| UInt8.ofNat sdes.chunks.length := by
    rw [packet_sdesRx, getD_append_right _ _ le_rfl, Nat.sub_self]
    rfl
  rw [w6xRtcpProcessPacketSdes_eq hid (by rw [hlen]; omega), if_pos hcb, hlimit,
    hcount]
  congr 1
  exact count_field sdes.chunks.length sdes.chunks_le

end Packet

/-- What the chunk loop does with the only chunk of a packet. -/
theorem sdesChunks_single (pre post : Bytes) (sdes : SourceDescription)
    (calls : List RtcpCall) (walked : List (ℕ × UInt8)) {chunk : SdesChunk}
    (hchunks : sdes.chunks = [chunk]) :
    ∃ rx new,
      sdesChunks (pre.length + 4 * sdes.words) 1 (pre.length + 4)
          (sdesRx pre post sdes calls walked) = .ok (.ok, rx) ∧
        rx.calls = calls ++ new ∧
        new.map RtcpCall.named =
          (if chunk.encode.length = 8 then []
            else cnames (itemsRead chunk.padding chunk.items)).map
              fun name => some (chunk.source, name) := by
  have hlen := chunk.length_encode
  have hpad := chunk.padding_bounds
  have halign := chunk.encode_aligned
  have hwords : 4 * sdes.words = 4 + chunk.encode.length := by
    simp only [SourceDescription.words, hchunks, List.flatMap_cons,
      List.flatMap_nil, List.append_nil]
    omega
  have hcalls : (sdesRx pre post sdes calls walked).calls = calls := rfl
  rw [sdesChunks, hwords]
  by_cases hsmall : chunk.encode.length = 8
  · refine ⟨sdesRx pre post sdes calls walked, [], ?_, ?_, ?_⟩
    · rw [if_neg]
      rw [hsmall, rtcpPktSdesChunkSize]
      omega
    · rw [hcalls, List.append_nil]
    · rw [if_pos hsmall]
      rfl
  · -- The source is swapped in place, then the items follow.
    have hpacket : (sdesRx pre post sdes calls walked).packet =
        (pre ++ sdesHeader sdes) ++ (beU32 chunk.source ++
          (chunk.items.flatMap SdesItem.encode ++
            (List.replicate chunk.padding 0 ++ post))) := by
      rw [packet_sdesRx, hchunks]
      simp only [List.flatMap_cons, List.flatMap_nil, List.append_nil,
        SdesChunk.encode, List.append_assoc]
    have hhead : (pre ++ sdesHeader sdes).length = pre.length + 4 := by
      rw [List.length_append]
      rfl
    have hswap : swapU32 (sdesRx pre post sdes calls walked).packet
        (pre.length + 4) = .ok ((pre ++ sdesHeader sdes) ++
          (leU32 chunk.source ++ (chunk.items.flatMap SdesItem.encode ++
            (List.replicate chunk.padding 0 ++ post)))) := by
      have hfit := length_sdesRx pre post sdes calls walked
      have h := swapWord_append_right (pre ++ sdesHeader sdes)
        (beU32 chunk.source ++ (chunk.items.flatMap SdesItem.encode ++
            (List.replicate chunk.padding 0 ++ post))) 0
      rw [Nat.add_zero, hhead, ← hpacket, swapWord_beU32_append] at h
      rw [swapU32_eq (by omega), h]
    have hbody : ((pre ++ sdesHeader sdes) ++ leU32 chunk.source).length =
        pre.length + 4 + 4 := by
      rw [List.length_append, hhead]
      rfl
    have hsource : leWord ((pre ++ sdesHeader sdes) ++ leU32 chunk.source)
        (pre.length + 4) = chunk.source := by
      rw [← hhead, ← Nat.add_zero (pre ++ sdesHeader sdes).length,
        leWord_append_right, leWord_leU32]
    obtain ⟨item', new, hitems, hnew⟩ := sdesItems_chunk
      ((pre ++ sdesHeader sdes) ++ leU32 chunk.source) post chunk.items
      hpad.1 calls (hbody.ge)
    rw [hsource] at hnew
    rw [hbody, List.append_assoc (pre ++ sdesHeader sdes)] at hitems
    rw [if_pos (by rw [rtcpPktSdesChunkSize]; omega), hswap, hcalls]
    rw [show pre.length + (4 + chunk.encode.length) = pre.length + 4 + 4 +
      (chunk.items.flatMap SdesItem.encode).length + chunk.padding by omega]
    simp only [ok_bind, hitems, ne_eq, not_true_eq_false, if_false, sdesChunks]
    refine ⟨_, new, rfl, rfl, ?_⟩
    rw [if_neg hsmall]
    exact hnew

/-- A source description with at most one chunk is decoded completely exactly
when its chunk loses no name at its end. -/
theorem sdesDecoded_iff_of_le_one {sender : Sender}
    (hid : sender.id = rtpSenderId) (hcb : sender.rtcpSdesCb = true)
    {sdes : SourceDescription} (hone : sdes.chunks.length ≤ 1)
    (pre post : Bytes) (calls : List RtcpCall) (walked : List (ℕ × UInt8)) :
    SdesDecoded sender sdes pre post calls walked ↔
      ∀ chunk ∈ sdes.chunks, ChunkReadable chunk := by
  rw [SdesDecoded, w6xRtcpProcessPacketSdes_sdesRx pre post sdes calls walked
    hid hcb]
  cases hchunks : sdes.chunks with
  | nil =>
      constructor
      · intro _ chunk hchunk
        cases hchunk
      · intro _
        refine ⟨_, [], rfl, ?_, ?_⟩
        · rw [List.append_nil]
          rfl
        · rw [SourceDescription.cnames, hchunks]
          rfl
  | cons chunk rest =>
      have hrest : rest = [] := by
        rw [hchunks, List.length_cons] at hone
        exact List.length_eq_zero_iff.mp (by omega)
      subst hrest
      obtain ⟨rx, new, hrun, hcalls, hnew⟩ :=
        sdesChunks_single pre post sdes calls walked hchunks
      have hexpected : sdes.cnames.map some =
          (cnames chunk.items).map fun name => some (chunk.source, name) := by
        simp only [SourceDescription.cnames, hchunks, List.flatMap_cons,
          List.flatMap_nil, List.append_nil, List.map_map]
        rfl
      have hinj : Function.Injective
          fun name : Bytes => some (chunk.source, name) := by
        intro a b hab
        simpa using hab
      have hmatch : new.map RtcpCall.named = sdes.cnames.map some ↔
          ChunkReadable chunk := by
        rw [hnew, hexpected, (List.map_injective_iff.mpr hinj).eq_iff]
        by_cases hsmall : chunk.encode.length = 8
        · rw [if_pos hsmall]
          constructor
          · intro h
            exact chunkReadable_of_cnames_nil h.symm
          · intro h
            exact (h.not_small hsmall).symm
        · rw [if_neg hsmall, cnames_itemsRead_iff]
          constructor
          · intro h
            exact ⟨fun h8 => absurd h8 hsmall, h⟩
          · intro h
            exact h.not_flush
      rw [List.forall_mem_singleton, ← hmatch]
      constructor
      · rintro ⟨rx', new', hrun', hcalls', hnew'⟩
        rw [List.length_singleton, hrun] at hrun'
        cases hrun'
        rw [hcalls, List.append_cancel_left_eq] at hcalls'
        rw [hcalls']
        exact hnew'
      · intro h
        exact ⟨rx, new, hrun, hcalls, h⟩

/-- At most one chunk, and no name lost at its end. -/
structure SdesReadable (sdes : SourceDescription) : Prop where
  single : sdes.chunks.length ≤ 1
  readable : ∀ chunk ∈ sdes.chunks, ChunkReadable chunk

/-- Readable source descriptions are decoded completely; among those with at
most one chunk no others are. -/
theorem w6xRtcpProcessPacketSdes_decodes {sender : Sender}
    (hid : sender.id = rtpSenderId) (hcb : sender.rtcpSdesCb = true)
    (sdes : SourceDescription) (pre post : Bytes) (calls : List RtcpCall)
    (walked : List (ℕ × UInt8)) :
    (SdesReadable sdes → SdesDecoded sender sdes pre post calls walked) ∧
      (sdes.chunks.length ≤ 1 →
        SdesDecoded sender sdes pre post calls walked → SdesReadable sdes) := by
  constructor
  · rintro ⟨hone, hreadable⟩
    exact (sdesDecoded_iff_of_le_one hid hcb hone pre post calls walked).mpr
      hreadable
  · intro hone hdecoded
    exact ⟨hone, (sdesDecoded_iff_of_le_one hid hcb hone pre post calls
      walked).mp hdecoded⟩

/-- The name "ab". -/
def abItem : SdesItem := ⟨1, [0x61, 0x62], by decide, by decide⟩

/-- A source with a tool, a name of two bytes and a note. -/
def namedSdes : SourceDescription where
  chunks := [⟨1, [⟨6, [0x76, 0x6C, 0x63], by decide, by decide⟩, abItem,
    ⟨7, [0x78], by decide, by decide⟩]⟩]
  chunks_le := by decide
  size_le := by decide

theorem namedSdes_readable : SdesReadable namedSdes := by
  refine ⟨by decide, ?_⟩
  intro chunk hchunk
  obtain rfl := List.mem_singleton.mp hchunk
  constructor
  · intro hsmall
    exact absurd hsmall (by decide)
  · rintro last hlast ⟨htype, -, -⟩
    cases hlast
    exact absurd htype (by decide)

/-- The name between the other items is found. -/
theorem w6xRtcpProcessPacketSdes_named_decodes :
    SdesDecoded streamSender namedSdes [] [0x80, 203] [] [] ∧
      namedSdes.cnames = [(1, [0x61, 0x62])] ∧ SdesReadable namedSdes := by
  obtain ⟨hdecodes, hreadable⟩ := w6xRtcpProcessPacketSdes_decodes rfl
    (show streamSender.rtcpSdesCb = true from rfl) namedSdes [] [0x80, 203] [] []
  have hdecoded := hdecodes namedSdes_readable
  exact ⟨hdecoded, rfl, hreadable (by decide) hdecoded⟩

/-- Two sources with names of two bytes. -/
def twoChunkSdes : SourceDescription where
  chunks := [⟨1, [abItem]⟩, ⟨2, [⟨1, [0x63, 0x64], by decide, by decide⟩]⟩]
  chunks_le := by decide
  size_le := by decide

/-- The second chunk is looked for three bytes behind the first one's start
and its name is not found. -/
theorem w6xRtcpProcessPacketSdes_misses_second_chunk :
    ¬ SdesDecoded streamSender twoChunkSdes [] [] [] [] := by
  have hpacket : sdesRx [] [] twoChunkSdes [] [] =
      ⟨[0x82, 202, 6, 0, 0, 0, 0, 1, 1, 2, 0x61, 0x62, 0, 0, 0, 0,
        0, 0, 0, 2, 1, 2, 0x63, 0x64, 0, 0, 0, 0], [], [(0, 202)]⟩ := by
    decide
  have hfirst (calls : List RtcpCall) : sdesItems
      [0x82, 202, 6, 0, 1, 0, 0, 0, 1, 2, 0x61, 0x62, 0, 0, 0, 0,
        0, 0, 0, 2, 1, 2, 0x63, 0x64, 0, 0, 0, 0] 4 28 8 calls =
      .ok (.ok, 12, calls ++ [.sdes 1 10 2 [0x61, 0x62]]) := by
    rw [sdesItems_eq (by decide) (by decide), if_pos (by decide),
      if_neg (by decide), if_neg (by decide)]
    change sdesItems _ 4 28 12 _ = _
    rw [sdesItems_eq (by decide) (by decide), if_pos (by decide),
      if_pos (by decide)]
    rfl
  have hsecond (calls : List RtcpCall) : sdesItems
      [0x82, 202, 6, 0, 1, 0, 0, 0x61, 2, 1, 0, 0x62, 0, 0, 0, 0,
        0, 0, 0, 2, 1, 2, 0x63, 0x64, 0, 0, 0, 0] 7 28 11 calls =
      .ok (.ok, 13, calls) := by
    rw [sdesItems_eq (by decide) (by decide), if_pos (by decide),
      if_neg (by decide), if_neg (by decide)]
    change sdesItems _ 7 28 13 (calls ++ []) = _
    rw [List.append_nil, sdesItems_eq (by decide) (by decide),
      if_pos (by decide), if_pos (by decide)]
  have hswap₁ : swapU32
      [0x82, 202, 6, 0, 0, 0, 0, 1, 1, 2, 0x61, 0x62, 0, 0, 0, 0,
        0, 0, 0, 2, 1, 2, 0x63, 0x64, 0, 0, 0, 0] 4 =
      .ok [0x82, 202, 6, 0, 1, 0, 0, 0, 1, 2, 0x61, 0x62, 0, 0, 0, 0,
        0, 0, 0, 2, 1, 2, 0x63, 0x64, 0, 0, 0, 0] := rfl
  have hswap₂ : swapU32
      [0x82, 202, 6, 0, 1, 0, 0, 0, 1, 2, 0x61, 0x62, 0, 0, 0, 0,
        0, 0, 0, 2, 1, 2, 0x63, 0x64, 0, 0, 0, 0] 7 =
      .ok [0x82, 202, 6, 0, 1, 0, 0, 0x61, 2, 1, 0, 0x62, 0, 0, 0, 0,
        0, 0, 0, 2, 1, 2, 0x63, 0x64, 0, 0, 0, 0] := rfl
  have hrun : sdesChunks 28 2 4 (sdesRx [] [] twoChunkSdes [] []) =
      .ok (.ok, ⟨[0x82, 202, 6, 0, 1, 0, 0, 0x61, 2, 1, 0, 0x62, 0, 0, 0, 0,
        0, 0, 0, 2, 1, 2, 0x63, 0x64, 0, 0, 0, 0],
        [.sdes 1 10 2 [0x61, 0x62]], [(0, 202)]⟩) := by
    rw [hpacket, sdesChunks, if_pos (by decide), hswap₁, ok_bind, hfirst,
      ok_bind]
    change sdesChunks 28 1 7 _ = _
    rw [sdesChunks, if_pos (by decide), hswap₂, ok_bind, hsecond]
    rfl
  rintro ⟨rx, new, hrun', hcalls, hnew⟩
  rw [w6xRtcpProcessPacketSdes_sdesRx [] [] twoChunkSdes [] [] rfl rfl] at hrun'
  change sdesChunks 28 2 4 _ = _ at hrun'
  rw [hrun] at hrun'
  cases hrun'
  have hlength := congrArg List.length hnew
  rw [List.length_map, List.length_map, ← List.nil_append new, ← hcalls]
    at hlength
  revert hlength
  decide

end RtpMulticast
