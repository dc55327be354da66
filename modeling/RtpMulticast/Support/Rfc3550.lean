import Mathlib.Data.BitVec
import RtpMulticast.Support.ByteBuffer

/-!
# Receiver reports and source descriptions on the wire

The packets of RFC 3550, sections 6.4.2 and 6.5, as values that cannot be ill
formed, with their encoding in network order.
-/

namespace Rfc3550

open ByteBuffer

/-- The first byte of a packet holds the version and a count of five bits. -/
theorem count_field : ∀ n ≤ 31,
    ((0x80 ||| UInt8.ofNat n) &&& 0x1F).toNat = n := by
  decide

/-- Its upper bits are version two without padding. -/
theorem version_field : ∀ n ≤ 31,
    (0x80 ||| UInt8.ofNat n) &&& 0xC0 = 0x80 ∧
      (0x80 ||| UInt8.ofNat n) &&& 0x20 = 0 := by
  decide

/-! ## Receiver reports -/

structure ReportBlock where
  source : UInt32
  fractionLost : UInt8
  cumulativeLost : BitVec 24
  extendedMax : UInt32
  jitter : UInt32
  lastSr : UInt32
  delay : UInt32
  deriving DecidableEq

/-- Fraction and cumulative number of lost packets share a word. -/
def ReportBlock.loss (block : ReportBlock) : Bytes :=
  [block.fractionLost, byteOf block.cumulativeLost.toNat 2,
    byteOf block.cumulativeLost.toNat 1, byteOf block.cumulativeLost.toNat 0]

def ReportBlock.encode (block : ReportBlock) : Bytes :=
  beU32 block.source ++ block.loss ++ beU32 block.extendedMax ++
    beU32 block.jitter ++ beU32 block.lastSr ++ beU32 block.delay

/-- A receiver report; `extension` is the profile-specific part behind the
blocks. -/
structure ReceiverReport where
  reporter : UInt32
  blocks : List ReportBlock
  extension : Bytes
  blocks_le : blocks.length ≤ 31
  extension_aligned : 4 ∣ extension.length
  size_le : 8 + 24 * blocks.length + extension.length ≤ 4 * 65536

/-- A report without a profile-specific part. -/
def ReceiverReport.plain (reporter : UInt32) (blocks : List ReportBlock)
    (h : blocks.length ≤ 31) : ReceiverReport where
  reporter := reporter
  blocks := blocks
  extension := []
  blocks_le := h
  extension_aligned := dvd_zero 4
  size_le := by
    rw [List.length_nil]
    omega

/-- Number of 32-bit words of the packet. -/
def ReceiverReport.words (report : ReceiverReport) : ℕ :=
  2 + 6 * report.blocks.length + report.extension.length / 4

def ReceiverReport.encode (report : ReceiverReport) : Bytes :=
  [0x80 ||| UInt8.ofNat report.blocks.length, 201] ++
    beU16 (UInt16.ofNat (report.words - 1)) ++ beU32 report.reporter ++
    report.blocks.flatMap ReportBlock.encode ++ report.extension

@[simp] theorem ReportBlock.length_encode (block : ReportBlock) :
    block.encode.length = 24 := rfl

theorem length_flatMap_encode (blocks : List ReportBlock) :
    (blocks.flatMap ReportBlock.encode).length = 24 * blocks.length := by
  induction blocks with
  | nil => rfl
  | cons block blocks ih =>
      simp only [List.flatMap_cons, List.length_append, List.length_cons, ih,
        ReportBlock.length_encode]
      omega

theorem ReceiverReport.length_encode (report : ReceiverReport) :
    report.encode.length = 4 * report.words := by
  have haligned := report.extension_aligned
  simp only [ReceiverReport.encode, ReceiverReport.words, List.length_append,
    length_flatMap_encode, length_beU16, length_beU32, List.length_cons,
    List.length_nil]
  omega

theorem ReceiverReport.words_le (report : ReceiverReport) :
    report.words ≤ 65536 := by
  have hsize := report.size_le
  simp only [ReceiverReport.words]
  omega

/-! ## Source descriptions -/

/-- An item of a chunk; type zero is the terminator and no item. -/
structure SdesItem where
  type : UInt8
  data : Bytes
  type_ne : type ≠ 0
  data_le : data.length ≤ 255

def SdesItem.encode (item : SdesItem) : Bytes :=
  [item.type, UInt8.ofNat item.data.length] ++ item.data

structure SdesChunk where
  source : UInt32
  items : List SdesItem

/-- Null octets behind the items: at least one, up to the next word. -/
def SdesChunk.padding (chunk : SdesChunk) : ℕ :=
  4 - (chunk.items.flatMap SdesItem.encode).length % 4

def SdesChunk.encode (chunk : SdesChunk) : Bytes :=
  beU32 chunk.source ++ chunk.items.flatMap SdesItem.encode ++
    List.replicate chunk.padding 0

structure SourceDescription where
  chunks : List SdesChunk
  chunks_le : chunks.length ≤ 31
  size_le : 4 + (chunks.flatMap SdesChunk.encode).length ≤ 4 * 65536

def SourceDescription.words (sdes : SourceDescription) : ℕ :=
  1 + (sdes.chunks.flatMap SdesChunk.encode).length / 4

def SourceDescription.encode (sdes : SourceDescription) : Bytes :=
  [0x80 ||| UInt8.ofNat sdes.chunks.length, 202] ++
    beU16 (UInt16.ofNat (sdes.words - 1)) ++
    sdes.chunks.flatMap SdesChunk.encode

/-- The canonical names of a list of items. -/
def cnames (items : List SdesItem) : List Bytes :=
  (items.filter fun item => item.type == 1).map SdesItem.data

/-- Source and name of each CNAME item, in packet order. -/
def SourceDescription.cnames (sdes : SourceDescription) :
    List (UInt32 × Bytes) :=
  sdes.chunks.flatMap fun chunk =>
    (Rfc3550.cnames chunk.items).map fun name => (chunk.source, name)

theorem cnames_cons_of_eq {item : SdesItem} (h : item.type = 1)
    (rest : List SdesItem) : cnames (item :: rest) = item.data :: cnames rest := by
  simp [cnames, h]

theorem cnames_cons_of_ne {item : SdesItem} (h : item.type ≠ 1)
    (rest : List SdesItem) : cnames (item :: rest) = cnames rest := by
  simp [cnames, h]

theorem SdesItem.length_encode (item : SdesItem) :
    item.encode.length = 2 + item.data.length := by
  simp only [SdesItem.encode, List.length_append, List.length_cons,
    List.length_nil]

theorem SdesChunk.padding_bounds (chunk : SdesChunk) :
    1 ≤ chunk.padding ∧ chunk.padding ≤ 4 := by
  simp only [SdesChunk.padding]
  omega

theorem SdesChunk.length_encode (chunk : SdesChunk) :
    chunk.encode.length =
      4 + (chunk.items.flatMap SdesItem.encode).length + chunk.padding := by
  simp only [SdesChunk.encode, List.length_append, length_beU32,
    List.length_replicate]

theorem SdesChunk.encode_aligned (chunk : SdesChunk) :
    4 ∣ chunk.encode.length := by
  rw [SdesChunk.length_encode, SdesChunk.padding]
  omega

theorem chunks_aligned (chunks : List SdesChunk) :
    4 ∣ (chunks.flatMap SdesChunk.encode).length := by
  induction chunks with
  | nil => exact dvd_zero 4
  | cons chunk chunks ih =>
      rw [List.flatMap_cons, List.length_append]
      exact Nat.dvd_add chunk.encode_aligned ih

theorem SourceDescription.length_encode (sdes : SourceDescription) :
    sdes.encode.length = 4 * sdes.words := by
  have haligned := chunks_aligned sdes.chunks
  simp only [SourceDescription.encode, SourceDescription.words,
    List.length_append, length_beU16, List.length_cons, List.length_nil]
  omega

theorem SourceDescription.words_le (sdes : SourceDescription) :
    sdes.words ≤ 65536 := by
  have hsize := sdes.size_le
  simp only [SourceDescription.words]
  omega

/-! ## Compound packets -/

/-- A packet of another type, such as a sender report. -/
structure OtherPacket where
  type : UInt8
  count : ℕ
  body : Bytes
  type_ne_report : type ≠ 201
  type_ne_description : type ≠ 202
  count_le : count ≤ 31
  body_aligned : 4 ∣ body.length
  size_le : 4 + body.length ≤ 4 * 65536

inductive Packet where
  | report (r : ReceiverReport)
  | description (d : SourceDescription)
  | other (o : OtherPacket)

namespace Packet

def count : Packet → ℕ
  | .report r => r.blocks.length
  | .description d => d.chunks.length
  | .other o => o.count

def type : Packet → UInt8
  | .report _ => 201
  | .description _ => 202
  | .other o => o.type

def words : Packet → ℕ
  | .report r => r.words
  | .description d => d.words
  | .other o => 1 + o.body.length / 4

/-- The bytes behind the header. -/
def body : Packet → Bytes
  | .report r => beU32 r.reporter ++
      (r.blocks.flatMap ReportBlock.encode ++ r.extension)
  | .description d => d.chunks.flatMap SdesChunk.encode
  | .other o => o.body

def encode (packet : Packet) : Bytes :=
  [0x80 ||| UInt8.ofNat packet.count, packet.type] ++
    beU16 (UInt16.ofNat (packet.words - 1)) ++ packet.body

theorem encode_report (r : ReceiverReport) :
    (Packet.report r).encode = r.encode := by
  simp only [encode, count, type, words, body, ReceiverReport.encode,
    List.append_assoc]

theorem count_le (packet : Packet) : packet.count ≤ 31 := by
  cases packet with
  | report r => exact r.blocks_le
  | description d => exact d.chunks_le
  | other o => exact o.count_le

theorem words_pos (packet : Packet) : 1 ≤ packet.words := by
  cases packet with
  | report r =>
      simp only [words, ReceiverReport.words]
      omega
  | description d => exact Nat.le_add_right 1 _
  | other o => exact Nat.le_add_right 1 _

theorem words_le (packet : Packet) : packet.words ≤ 65536 := by
  cases packet with
  | report r => exact r.words_le
  | description d => exact d.words_le
  | other o =>
      have hsize := o.size_le
      simp only [words]
      omega

theorem length_encode (packet : Packet) :
    packet.encode.length = 4 * packet.words := by
  cases packet with
  | report r =>
      rw [encode_report]
      exact r.length_encode
  | description d => exact d.length_encode
  | other o =>
      have haligned := o.body_aligned
      simp only [encode, words, body, List.length_append, length_beU16,
        List.length_cons, List.length_nil]
      omega

end Packet

end Rfc3550
