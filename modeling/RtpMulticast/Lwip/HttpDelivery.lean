import RtpMulticast.Lwip.HttpBody

/-!
# Delivery of the body

A response arrives in pieces that the network chooses.  With a length that the
header announces the task hands over the body in all of them.  Without one it
looks for a blank line at the end of each piece, so which cuts are delivered
whole depends on the pieces themselves.
-/

namespace RtpMulticast

open ByteBuffer CStrings

/-! ## Responses and their cuts -/

/-- A header with a status line of a 2xx status; its end is the first CRLFCRLF
in it. -/
structure SuccessHeader (header : Bytes) : Prop where
  statusLine : ∃ major minor tens ones rest,
    header = httpTag ++ [major, 0x2E, minor, 0x20, 0x32, tens, ones, 0x20] ++
        rest ∧
      isDigit major = true ∧ isDigit minor = true ∧ isDigit tens = true ∧
      isDigit ones = true
  ends : FirstAt crlfcrlf header (header.length - crlfcrlf.length)
  noNul : 0 ∉ header

/-- A way in which a response arrives: the pieces in front of the one that
completes the header, that piece, and the pieces of the rest of the body.  Each
piece is one answer, so it is not longer than what is asked for; the answers of
a header that is too long for the buffer never complete it. -/
structure Cut (header body : Bytes) where
  before : List Piece
  front : Bytes
  behind : Bytes
  rest : List Piece
  front_ne : front ≠ []
  header_eq : (before.map Subtype.val).flatten ++ front = header
  body_eq : behind ++ (rest.map Subtype.val).flatten = body
  fits : header.length ≤ httpClientHeadMaxRespBufferSize →
    header.length + behind.length ≤ httpClientHeadMaxRespBufferSize
  rest_le : ∀ piece ∈ rest, piece.val.length ≤ httpClientDataRecvSize

/-- The piece that completes the header. -/
def Cut.middle {header body : Bytes} (cut : Cut header body) : Piece :=
  ⟨cut.front ++ cut.behind, List.append_ne_nil_of_left_ne_nil cut.front_ne _⟩

/-- The connection that delivers the response in these pieces. -/
def Cut.peer {header body : Bytes} (cut : Cut header body) (ending : Int)
    (hending : ending ≤ 0) : Peer :=
  ⟨cut.before ++ cut.middle :: cut.rest, ending, hending⟩

theorem Cut.stream_peer {header body : Bytes} (cut : Cut header body)
    (ending : Int) (hending : ending ≤ 0) :
    (cut.peer ending hending).stream = header ++ body := by
  obtain ⟨before, front, behind, rest, hne, rfl, rfl, -, -⟩ := cut
  simp only [Peer.stream, Cut.peer, Cut.middle, List.map_append, List.map_cons,
    List.flatten_append, List.flatten_cons, List.append_assoc]

/-- The pieces of the body. -/
def Cut.chunks {header body : Bytes} (cut : Cut header body) : List Bytes :=
  [cut.behind].filter (· ≠ []) ++ cut.rest.map Subtype.val

theorem Cut.flatten_chunks {header body : Bytes} (cut : Cut header body) :
    cut.chunks.flatten = body := by
  refine Eq.trans ?_ cut.body_eq
  rw [Cut.chunks, List.flatten_append]
  by_cases hbehind : cut.behind = []
  · simp [hbehind]
  · simp [hbehind]

/-! ## The header is received -/

/-- What the call leaves for a response that arrives so. -/
def Cut.wait {header body : Bytes} (cut : Cut header body) (ending : Int)
    (hending : ending ≤ 0) : HeaderWait where
  status := .success
  buffer := ⟨receivedBuffer (header ++ cut.behind), (header ++ cut.behind).length⟩
  bodyStartOffset := header.length
  peer := ⟨cut.rest, ending, hending⟩

/-- In front of its last bytes the header has no end. -/
theorem SuccessHeader.find_none {header received : Bytes}
    (h : SuccessHeader header) (hfront : received <+: header)
    (hlt : received.length < header.length) :
    find crlfcrlf (stringOf received) = none := by
  have hcrlf : crlfcrlf ≠ [] := List.cons_ne_nil _ _
  rw [find_eq_none_iff hcrlf]
  intro headerEnd hfirst
  have hle := hfirst.le_length hcrlf
  have hstring := (stringOf_isPrefix received).length_le
  have hmono := hfirst.mono hcrlf ((stringOf_isPrefix received).trans hfront)
  have hend := hmono.unique h.ends
  omega

theorem SuccessHeader.find_some {header : Bytes} (h : SuccessHeader header)
    (behind : Bytes) :
    find crlfcrlf (stringOf (header ++ behind)) =
      some (header.length - crlfcrlf.length) := by
  have hcrlf : crlfcrlf ≠ [] := List.cons_ne_nil _ _
  rw [find_eq_some_iff hcrlf, stringOf_append h.noNul]
  exact h.ends.mono hcrlf (List.prefix_append _ _)

theorem SuccessHeader.crlfcrlf_le {header : Bytes} (h : SuccessHeader header) :
    crlfcrlf.length ≤ header.length := by
  have hcrlf : crlfcrlf ≠ [] := List.cons_ne_nil _ _
  have hle := h.ends.le_length hcrlf
  omega

/-- The loop with the pieces in front of the completing one still to come. -/
theorem waitForHeaderLoop_cut {header front behind : Bytes}
    (hheader : SuccessHeader header) (hfront : front ≠ [])
    (hfits : header.length + behind.length ≤ httpClientHeadMaxRespBufferSize)
    {before rest : List Piece} {middle : Piece}
    (hmiddle : middle.val = front ++ behind) {received : Bytes}
    (hreceived : received ++ (before.map Subtype.val).flatten ++ front = header)
    {ending : Int} (hending : ending ≤ 0) (fuel length offset : ℕ) :
    waitForHeaderLoop (before.length + 1 + fuel)
        ⟨before ++ middle :: rest, ending, hending⟩
        ⟨receivedBuffer received, length⟩
        offset received.length =
      .ok (some ⟨.success,
        ⟨receivedBuffer (header ++ behind), (header ++ behind).length⟩, header.length,
        ⟨rest, ending, hending⟩⟩) := by
  have hpos : 0 < front.length := List.length_pos_iff.mpr hfront
  induction before generalizing received with
  | nil =>
      rw [List.map_nil, List.flatten_nil, List.append_nil] at hreceived
      have hall : received ++ middle.val = header ++ behind := by
        rw [hmiddle, ← List.append_assoc, hreceived]
      have hlength := congrArg List.length hall
      have hheaderLength := congrArg List.length hreceived
      rw [List.length_append] at hheaderLength
      simp only [List.length_append] at hlength
      have hrecv := Peer.recv_of_le rest hending
        (show middle.val.length ≤
          httpClientHeadMaxRespBufferSize - received.length by omega)
      have hstep := waitForHeaderLoop_of_recv hrecv (by omega)
        (by rw [hall, List.length_append]; exact hfits) fuel length offset
      simp only [hall, hheader.find_some] at hstep
      rw [List.length_nil, Nat.zero_add, Nat.add_comm, List.nil_append, hstep,
        Nat.sub_add_cancel hheader.crlfcrlf_le]
  | cons piece before ih =>
      have hnext : (received ++ piece.val) ++
          (before.map Subtype.val).flatten ++ front = header := by
        rw [← hreceived]
        simp
      have hheaderLength := congrArg List.length hnext
      simp only [List.length_append] at hheaderLength
      have hrecv := Peer.recv_of_le (before ++ middle :: rest) hending
        (show piece.val.length ≤
          httpClientHeadMaxRespBufferSize - received.length by omega)
      have hpart : received ++ piece.val <+: header := by
        rw [← hnext, List.append_assoc _ _ front]
        exact List.prefix_append _ _
      have hlength : (received ++ piece.val).length < header.length := by
        rw [List.length_append]
        omega
      have hstep := waitForHeaderLoop_of_recv hrecv (by omega) (by omega)
        (before.length + 1 + fuel) length offset
      simp only [hheader.find_none hpart hlength] at hstep
      rw [if_pos (by omega), ih hnext] at hstep
      rw [show (piece :: before).length + 1 + fuel =
          before.length + 1 + fuel + 1 by rw [List.length_cons]; omega,
        List.cons_append]
      exact hstep

theorem httpClientWaitForHeader_cut {header body : Bytes}
    (hheader : SuccessHeader header)
    (hshort : header.length ≤ httpClientHeadMaxRespBufferSize)
    (cut : Cut header body) {ending : Int} (hending : ending ≤ 0) (fuel : ℕ) :
    httpClientWaitForHeader (cut.before.length + 1 + fuel)
        (cut.peer ending hending) httpBufferClear =
      .ok (some (cut.wait ending hending)) :=
  waitForHeaderLoop_cut hheader cut.front_ne (cut.fits hshort)
    (show cut.middle.val = cut.front ++ cut.behind from rfl)
    (show [] ++ (cut.before.map Subtype.val).flatten ++ cut.front = header from
      cut.header_eq) hending fuel 0 0

/-- A header that is too long for the buffer fills it. -/
theorem waitForHeaderLoop_long {header : Bytes} (hheader : SuccessHeader header)
    (hlong : httpClientHeadMaxRespBufferSize < header.length) {peer : Peer}
    {received behind : Bytes} (hstream : received ++ peer.stream = header ++ behind)
    (hroom : received.length < httpClientHeadMaxRespBufferSize) {fuel : ℕ}
    (hfuel : httpClientHeadMaxRespBufferSize - received.length ≤ fuel)
    (length offset : ℕ) :
    ∃ out, waitForHeaderLoop fuel peer ⟨receivedBuffer received, length⟩ offset
        received.length = .ok (some out) ∧ out.status = .err := by
  induction fuel generalizing peer received with
  | zero => omega
  | succ fuel ih =>
      have hlength := congrArg List.length hstream
      simp only [List.length_append] at hlength
      have hpieces : peer.pieces ≠ [] := by
        intro hnil
        rw [(peer.stream_eq_nil_iff).mpr hnil, List.length_nil] at hlength
        omega
      obtain ⟨bytes, peer', hrecv, hpos, hsize, hrest, -⟩ :=
        Peer.recv_of_cons hpieces (Nat.sub_pos_of_lt hroom)
      have hnext : (received ++ bytes) ++ peer'.stream = header ++ behind := by
        rw [List.append_assoc, ← hrest, hstream]
      have hfit : (received ++ bytes).length ≤
          httpClientHeadMaxRespBufferSize := by
        rw [List.length_append]
        omega
      have hfront : received ++ bytes <+: header :=
        List.prefix_of_prefix_length_le (hnext ▸ List.prefix_append _ _)
          (List.prefix_append header behind) (by omega)
      have hstep := waitForHeaderLoop_of_recv hrecv hroom hfit fuel length offset
      simp only [hheader.find_none hfront (by omega)] at hstep
      rw [hstep]
      by_cases hmore : (received ++ bytes).length <
          httpClientHeadMaxRespBufferSize
      · rw [if_pos hmore]
        apply ih hnext hmore
        rw [List.length_append]
        omega
      · rw [if_neg hmore]
        exact ⟨_, rfl, rfl⟩

/-! ## The header is read -/

theorem cString_drop_receivedBuffer {received : Bytes}
    (hfit : received.length ≤ httpClientMaxDataSendBufferSize) {pos : ℕ}
    (hpos : pos ≤ received.length) :
    cString (receivedBuffer received) pos = .ok (stringOf (received.drop pos)) := by
  have hdrop : (receivedBuffer received).drop pos = received.drop pos ++
      List.replicate (httpClientMaxDataSendBufferSize + 1 - received.length)
        0 := by
    rw [receivedBuffer, List.drop_append_of_le_length hpos]
  have hmem : (0 : UInt8) ∈ received.drop pos ++ List.replicate
      (httpClientMaxDataSendBufferSize + 1 - received.length) 0 :=
    List.mem_append_right _ (List.mem_replicate.mpr ⟨by omega, rfl⟩)
  rw [cString, hdrop, if_pos hmem, stringOf_append_zeros]

theorem length_receivedBuffer {received : Bytes}
    (hfit : received.length ≤ httpClientMaxDataSendBufferSize) :
    (receivedBuffer received).length = httpClientMaxDataSendBufferSize + 1 := by
  rw [receivedBuffer, List.length_append, List.length_replicate]
  omega

theorem loadU8_receivedBuffer {received : Bytes}
    (hfit : received.length ≤ httpClientMaxDataSendBufferSize) {i : ℕ}
    (hi : i ≤ (stringOf received).length) :
    loadU8 (receivedBuffer received) i = .ok ((stringOf received).getD i 0) := by
  have hmem : (0 : UInt8) ∈ receivedBuffer received :=
    List.mem_append_right _ (List.mem_replicate.mpr ⟨by omega, rfl⟩)
  have hstring : stringOf (receivedBuffer received) = stringOf received :=
    stringOf_append_zeros _ _
  rw [loadU8_stringOf hmem (by rw [hstring]; exact hi), hstring]

/-- The number behind the first `Content-Length: ` of a text, with a carriage
return behind it; zero when there is none. -/
def announcedLength (text : Bytes) : UInt32 :=
  match find contentLengthTag text with
  | none => 0
  | some tag =>
      let field := text.drop (tag + contentLengthTag.length)
      let (value, used) := strtol field
      if used ≠ 0 ∧ field.getD used 0 = 0x0D then UInt32.ofInt value else 0

/-- The length that the bytes announce that are received with the header. -/
def contentLengthOf (received : Bytes) : UInt32 :=
  announcedLength (stringOf received)

/-- Reading the content length stays in the buffer. -/
theorem httpParseContentLength_receivedBuffer {received : Bytes}
    (hfit : received.length ≤ httpClientMaxDataSendBufferSize) :
    ∃ parsed, httpParseContentLength (receivedBuffer received) = .ok parsed ∧
      parsed.getD 0 = contentLengthOf received := by
  have htag : contentLengthTag ≠ [] := List.cons_ne_nil _ _
  rw [httpParseContentLength, strstr_receivedBuffer hfit, ok_bind, contentLengthOf,
    announcedLength]
  cases hfind : find contentLengthTag (stringOf received) with
  | none => exact ⟨none, rfl, rfl⟩
  | some tag =>
      have hle := ((find_eq_some_iff htag).mp hfind).le_length htag
      have hstring := (stringOf_isPrefix received).length_le
      have hfield := stringOf_drop hle
      have hused := strtol_le
        ((stringOf received).drop (tag + contentLengthTag.length))
      rw [List.length_drop] at hused
      have hload := loadU8_receivedBuffer hfit (show tag + contentLengthTag.length +
        (strtol ((stringOf received).drop
          (tag + contentLengthTag.length))).2 ≤ (stringOf received).length by
            omega)
      have hstop (used : ℕ) :
          ((stringOf received).drop (tag + contentLengthTag.length)).getD used
            0 = (stringOf received).getD
              (tag + contentLengthTag.length + used) 0 := by
        simp [List.getD]
      simp only [cString_drop_receivedBuffer hfit (hle.trans hstring), ok_bind, hfield,
        hload, hstop]
      by_cases hnone : (strtol ((stringOf received).drop
          (tag + contentLengthTag.length))).2 = 0
      · rw [if_pos hnone, if_neg fun h => h.1 hnone]
        exact ⟨none, rfl, rfl⟩
      · rw [if_neg hnone]
        by_cases hcr : (stringOf received).getD (tag + contentLengthTag.length +
            (strtol ((stringOf received).drop
              (tag + contentLengthTag.length))).2) 0 = 0x0D
        · rw [if_neg (not_not_intro hcr), if_pos ⟨hnone, hcr⟩]
          exact ⟨_, rfl, rfl⟩
        · rw [if_pos hcr, if_neg fun h => hcr h.2]
          exact ⟨none, rfl, rfl⟩

/-- The number of three digits behind the space. -/
theorem strtol_status {tens ones : UInt8} (htens : isDigit tens = true)
    (hones : isDigit ones = true) (s : Bytes) :
    ∃ status : ℕ, strtol (0x32 :: tens :: ones :: 0x20 :: s) =
        ((status : Int), 3) ∧ 200 ≤ status ∧ status < 300 := by
  have hdigits : ∀ b ∈ [(0x32 : UInt8), tens, ones], isDigit b = true := by
    rw [List.forall_mem_cons, List.forall_mem_cons, List.forall_mem_singleton]
    exact ⟨rfl, htens, hones⟩
  have hread := strtol_digits (List.cons_ne_nil _ _) hdigits
    (show isDigit 0x20 = false from rfl) s
  have htensRange := (isDigit_iff tens).mp htens
  have honesRange := (isDigit_iff ones).mp hones
  have hvalue : digitsValue [0x32, tens, ones] =
      200 + (tens.toNat - 0x30) * 10 + (ones.toNat - 0x30) := by
    simp only [digitsValue, List.foldl_cons, List.foldl_nil]
    have htwo : (0x32 : UInt8).toNat = 50 := rfl
    omega
  refine ⟨digitsValue [0x32, tens, ones], ?_, by omega, by omega⟩
  rw [show (0x32 :: tens :: ones :: 0x20 :: s) =
    [0x32, tens, ones] ++ 0x20 :: s from rfl, hread, clampLong]
  rw [min_eq_left (by omega), max_eq_right (by omega)]
  rfl

/-- A status of the form 2xx is parsed, whatever is behind the header. -/
theorem httpParseResponseStatus_success {header : Bytes}
    (hheader : SuccessHeader header) {behind : Bytes}
    (hfit : (header ++ behind).length ≤ httpClientMaxDataSendBufferSize) :
    ∃ version status, httpParseResponseStatus (receivedBuffer (header ++ behind)) =
        .ok (some (version, status)) ∧
      httpGetStatusCategory status = .success := by
  obtain ⟨major, minor, tens, ones, rest, hline, hmajor, hminor, htens, hones⟩ :=
    hheader.statusLine
  have hspace : find [0x20] (stringOf (header ++ behind)) = some 8 := by
    have hmajorNe : (0x20 : UInt8) ≠ major := (ne_of_isDigit hmajor rfl).symm
    have hminorNe : (0x20 : UInt8) ≠ minor := (ne_of_isDigit hminor rfl).symm
    rw [stringOf_append hheader.noNul behind, hline]
    simp [httpTag, find_singleton_cons, hmajorNe, hminorNe]
  have hnine : 9 ≤ (header ++ behind).length := by
    rw [hline]
    simp [httpTag]
  obtain ⟨tail, htail⟩ : ∃ tail, receivedBuffer (header ++ behind) =
      httpTag ++ major :: 0x2E :: minor :: 0x20 :: 0x32 :: tens :: ones ::
        0x20 :: tail := by
    refine ⟨rest ++ behind ++ List.replicate
      (httpClientMaxDataSendBufferSize + 1 - (header ++ behind).length) 0, ?_⟩
    rw [receivedBuffer, hline]
    simp only [List.append_assoc, List.cons_append, List.nil_append]
  obtain ⟨text, htext⟩ : ∃ text, stringOf ((header ++ behind).drop 9) =
      0x32 :: tens :: ones :: 0x20 :: text := by
    have htensNe : tens ≠ 0 := ne_of_isDigit htens rfl
    have honesNe : ones ≠ 0 := ne_of_isDigit hones rfl
    refine ⟨stringOf (rest ++ behind), ?_⟩
    rw [hline]
    simp [httpTag, stringOf, htensNe, honesNe]
  obtain ⟨status, hstatus, hlow, hhigh⟩ := strtol_status htens hones text
  have htag : strncmpEq (receivedBuffer (header ++ behind)) 0 httpTag = .ok true := by
    have hlength := length_receivedBuffer hfit
    rw [strncmpEq_of_le (by rw [hlength]; decide), htail]
    rfl
  have hnat : (UInt32.ofInt (status : Int)).toNat = status := by
    rw [UInt32.ofInt, UInt32.toNat_ofNat']
    omega
  refine ⟨((major.toUInt16 - 0x30) <<< 8) ||| (minor.toUInt16 - 0x30),
    UInt32.ofInt status, ?_, ?_⟩
  · have hrange : 0 < UInt32.ofInt (status : Int) ∧
        UInt32.ofInt (status : Int) ≤ 0xFFFF := by
      rw [UInt32.lt_iff_toNat_lt, UInt32.le_iff_toNat_le, hnat]
      constructor
      · exact Nat.lt_of_lt_of_le (by decide) hlow
      · exact Nat.le_trans (Nat.le_of_lt hhigh) (by decide)
    simp only [httpParseResponseStatus, strstr_receivedBuffer hfit, ok_bind,
      hheader.find_some, hspace, htag, cString_drop_receivedBuffer hfit hnine, htext,
      hstatus]
    rw [htail]
    simp [loadU8, httpTag, hrange]
  · have hhundred : status / 100 = 2 := by omega
    simp only [httpGetStatusCategory, hnat, hhundred]

/-- Moving the body to the front of the buffer. -/
theorem httpShiftBody_receivedBuffer {header behind : Bytes} (hheader : header ≠ [])
    (hfit : (header ++ behind).length ≤ httpClientMaxDataSendBufferSize) :
    ∃ buffer, httpShiftBody
        ⟨receivedBuffer (header ++ behind), (header ++ behind).length⟩ header.length =
          .ok buffer ∧
      Holds buffer behind := by
  have hpos : 0 < header.length := List.length_pos_iff.mpr hheader
  have hlength := length_receivedBuffer hfit
  have hcopyOut : copyOut (receivedBuffer (header ++ behind)) header.length
      behind.length = .ok behind := by
    rw [receivedBuffer]
    exact copyOut_append header behind _
  rw [List.length_append] at hfit
  obtain ⟨data, hcopy, hholds⟩ := copyIn_holds hlength
    (show behind.length ≤ httpClientMaxDataSendBufferSize + 1 by omega)
  have hstore : behind.length < data.length := by
    have hsize := hholds.size
    simp only at hsize
    omega
  refine ⟨⟨data.set behind.length 0, behind.length⟩, ?_, ?_, rfl, ?_⟩
  · simp only [httpShiftBody, if_pos hpos, subSize, List.length_append,
      Nat.le_add_right, if_true, Nat.add_sub_cancel_left, ok_bind, hcopyOut,
      hcopy, storeU8, if_pos hstore]
    rfl
  · rw [List.length_set]
    exact hholds.size
  · obtain ⟨tail, htail⟩ := hholds.chunk
    simp only at htail ⊢
    rw [← htail, List.set_append_right _ _ le_rfl]
    exact List.prefix_append _ _

/-! ## Which cuts are delivered whole -/

/-- No chunk is taken for the last one in front of the last, `total` bytes
having been handed over before, and none is too short for the comparison with
the end of a header. -/
def StopsInTime (contentLength total : UInt32) (chunks : List Bytes) : Prop :=
  (contentLength = 0 → ∀ chunk ∈ chunks, crlfcrlf.length ≤ chunk.length) ∧
  ∀ before chunk after, chunks = before ++ chunk :: after → after ≠ [] →
    if contentLength = 0 then ¬ crlfcrlf <:+ chunk
    else total + UInt32.ofNat (before.flatten ++ chunk).length < contentLength

theorem stopsInTime_cons (contentLength total : UInt32) (chunk : Bytes)
    (chunks : List Bytes) :
    StopsInTime contentLength total (chunk :: chunks) ↔
      (contentLength = 0 → crlfcrlf.length ≤ chunk.length) ∧
      (chunks ≠ [] → if contentLength = 0 then ¬ crlfcrlf <:+ chunk
        else total + UInt32.ofNat chunk.length < contentLength) ∧
      StopsInTime contentLength (total + UInt32.ofNat chunk.length) chunks := by
  have hadd : ∀ (before : List Bytes) (last : Bytes),
      total + UInt32.ofNat chunk.length +
          UInt32.ofNat (before.flatten ++ last).length =
        total + UInt32.ofNat ((chunk :: before).flatten ++ last).length := by
    intro before last
    rw [UInt32.add_assoc, ← UInt32.ofNat_add, List.flatten_cons,
      List.append_assoc, ← List.length_append]
  constructor
  · rintro ⟨hlong, hstop⟩
    refine ⟨fun hzero => hlong hzero chunk List.mem_cons_self, ?_, ?_, ?_⟩
    · intro hmore
      exact hstop [] chunk chunks rfl hmore
    · intro hzero other hother
      exact hlong hzero other (List.mem_cons_of_mem _ hother)
    · rintro before last after rfl hmore
      rw [hadd]
      exact hstop (chunk :: before) last after rfl hmore
  · rintro ⟨hlong, hfirst, hrestLong, hrestStop⟩
    constructor
    · intro hzero
      exact List.forall_mem_cons.mpr ⟨hlong hzero, hrestLong hzero⟩
    · intro before last after hsplit hmore
      cases before with
      | nil =>
          obtain ⟨rfl, rfl⟩ := List.cons.inj hsplit
          exact hfirst hmore
      | cons head before =>
          obtain ⟨rfl, hrest⟩ := List.cons.inj hsplit
          rw [← hadd]
          exact hrestStop before last after hrest hmore

theorem bodyRun_eq_some_iff (contentLength total : UInt32)
    (chunks : List Bytes) :
    bodyRun contentLength total chunks = some chunks ↔
      StopsInTime contentLength total chunks := by
  induction chunks generalizing total with
  | nil => simp [bodyRun, StopsInTime]
  | cons chunk chunks ih =>
      have hnil (total : UInt32) : StopsInTime contentLength total [] := by
        simp [StopsInTime]
      rw [stopsInTime_cons, bodyRun]
      by_cases hlong : 0 < contentLength ∧
          contentLength ≤ total + UInt32.ofNat chunk.length
      · have hne : contentLength ≠ 0 := (UInt32.pos_iff_ne_zero).mp hlong.1
        rw [if_pos hlong, Option.some.injEq, List.cons.injEq,
          if_neg hne]
        constructor
        · rintro ⟨-, hchunks⟩
          rw [← hchunks]
          exact ⟨fun hzero => absurd hzero hne, fun h => absurd rfl h, hnil _⟩
        · rintro ⟨-, hmore, -⟩
          by_contra hchunks
          exact absurd (hmore fun h => hchunks ⟨rfl, h.symm⟩)
            (UInt32.not_lt.mpr hlong.2)
      · rw [if_neg hlong]
        by_cases hshort : contentLength = 0 ∧ chunk.length < crlfcrlf.length
        · rw [if_pos hshort]
          constructor
          · intro h
            cases h
          · rintro ⟨hsize, -⟩
            exact absurd hshort.2 (Nat.not_lt.mpr (hsize hshort.1))
        · have hsize : contentLength = 0 → crlfcrlf.length ≤ chunk.length :=
            fun hzero => Nat.not_lt.mp fun h => hshort ⟨hzero, h⟩
          rw [if_neg hshort]
          by_cases hlast : contentLength = 0 ∧ crlfcrlf <:+ chunk
          · rw [if_pos hlast, Option.some.injEq, List.cons.injEq,
              if_pos hlast.1]
            constructor
            · rintro ⟨-, hchunks⟩
              rw [← hchunks]
              exact ⟨hsize, fun h => absurd rfl h, hnil _⟩
            · rintro ⟨-, hmore, -⟩
              by_contra hchunks
              exact hmore (fun h => hchunks ⟨rfl, h.symm⟩) hlast.2
          · have hgoes : if contentLength = 0 then ¬ crlfcrlf <:+ chunk
                else total + UInt32.ofNat chunk.length < contentLength := by
              split
              · next hzero => exact fun h => hlast ⟨hzero, h⟩
              · next hne =>
                  rw [← UInt32.not_le]
                  exact fun h => hlong ⟨UInt32.pos_iff_ne_zero.mpr hne, h⟩
            rw [if_neg hlast, ← ih, Option.map_eq_some_iff]
            constructor
            · rintro ⟨rest, hrest, hcons⟩
              obtain ⟨-, rfl⟩ := List.cons.inj hcons
              exact ⟨hsize, fun _ => hgoes, hrest⟩
            · rintro ⟨-, -, hrest⟩
              exact ⟨chunks, hrest, rfl⟩

theorem bodyRun_isPrefix {contentLength total : UInt32}
    {chunks delivered : List Bytes}
    (h : bodyRun contentLength total chunks = some delivered) :
    delivered <+: chunks := by
  induction chunks generalizing total delivered with
  | nil =>
      obtain rfl := Option.some.inj h
      exact List.nil_prefix
  | cons chunk chunks ih =>
      have hsingle : [chunk] <+: chunk :: chunks :=
        List.cons_prefix_cons.mpr ⟨rfl, List.nil_prefix⟩
      rw [bodyRun] at h
      split at h
      · obtain rfl := Option.some.inj h
        exact hsingle
      · split at h
        · cases h
        · split at h
          · obtain rfl := Option.some.inj h
            exact hsingle
          · obtain ⟨rest, hrest, rfl⟩ := Option.map_eq_some_iff.mp h
            exact List.cons_prefix_cons.mpr ⟨rfl, ih hrest⟩

section Task

variable {settings : HttpSettings} {recvFn : ℕ → Bytes → Int}
  {header body : Bytes} (hheader : SuccessHeader header)
  (cut : Cut header body) {ending : Int} (hending : ending ≤ 0)
include hheader

/-- The task hands over what `bodyRun` says, for a header that fits. -/
theorem httpClientTaskResponse_cut
    (hshort : header.length ≤ httpClientHeadMaxRespBufferSize)
    (hset : settings.recvFn = some recvFn)
    (hnever : ∀ n chunk, 0 ≤ recvFn n chunk) {fuel : ℕ}
    (hfuel : cut.before.length + 1 + (cut.rest.length + 2) ≤ fuel) :
    (∃ chunks, bodyRun (contentLengthOf (header ++ cut.behind)) 0 cut.chunks =
        some chunks ∧
      ∃ out, httpClientTaskResponse settings .get fuel
          (cut.peer ending hending) = .ok (some out) ∧
        out.delivered = chunks) ∨
    (bodyRun (contentLengthOf (header ++ cut.behind)) 0 cut.chunks = none ∧
      ∃ fault, httpClientTaskResponse settings .get fuel
        (cut.peer ending hending) = .error fault) := by
  have hfit : (header ++ cut.behind).length ≤
      httpClientMaxDataSendBufferSize := by
    rw [List.length_append]
    exact (cut.fits hshort).trans (by decide)
  obtain ⟨more, rfl⟩ : ∃ n, fuel = cut.before.length + 1 + n :=
    Nat.exists_eq_add_of_le (by omega)
  have hwait := httpClientWaitForHeader_cut hheader hshort cut hending more
  obtain ⟨version, status, hstatus, hcategory⟩ :=
    httpParseResponseStatus_success hheader hfit
  obtain ⟨parsed, hparsed, hlength⟩ := httpParseContentLength_receivedBuffer hfit
  have hcopy : copyOut (receivedBuffer (header ++ cut.behind)) 0 header.length =
      .ok header := by
    rw [receivedBuffer, List.append_assoc]
    exact copyOut_append [] header _
  have hne : header ≠ [] := by
    intro hnil
    have hle := hheader.crlfcrlf_le
    rw [hnil] at hle
    exact absurd hle (by decide)
  obtain ⟨buffer, hshift, hholds⟩ := httpShiftBody_receivedBuffer hne hfit
  have htask : httpClientTaskResponse settings .get
      (cut.before.length + 1 + more) (cut.peer ending hending) =
      (httpReceiveBody settings (contentLengthOf (header ++ cut.behind))
        (cut.before.length + 1 + more) ⟨cut.rest, ending, hending⟩ buffer).map
        (Option.map fun body =>
          ⟨status, settings.announce header status
            (contentLengthOf (header ++ cut.behind)), body.delivered,
            body.failed⟩) := by
    have hsuccess : ¬ HttpStatusCategory.clientError.value ≤
        HttpStatusCategory.success.value := by decide
    simp only [httpClientTaskResponse, hwait, Cut.wait, ok_bind, pure_eq_ok,
      hstatus, httpContentLength, if_true, hparsed, hlength, hcopy, hcategory,
      if_neg hsuccess, hshift, ne_eq, not_true_eq_false, if_false]
    rcases httpReceiveBody settings (contentLengthOf (header ++ cut.behind))
        (cut.before.length + 1 + more) ⟨cut.rest, ending, hending⟩ buffer with
      fault | _ | body
    · rfl
    · rfl
    · rfl
  rw [htask]
  have hfollows := httpReceiveBody_run hset hnever
    (contentLengthOf (header ++ cut.behind)) hholds cut.rest_le hending
    (show cut.rest.length + 2 ≤ cut.before.length + 1 + more by omega)
  rw [← Cut.chunks] at hfollows
  cases hrun : bodyRun (contentLengthOf (header ++ cut.behind)) 0
      cut.chunks with
  | some chunks =>
      rw [hrun] at hfollows
      obtain ⟨out, hout, hdelivered⟩ := hfollows
      rw [hout]
      exact Or.inl ⟨chunks, rfl, _, rfl, hdelivered⟩
  | none =>
      rw [hrun] at hfollows
      obtain ⟨fault, hfault⟩ := hfollows
      rw [hfault]
      exact Or.inr ⟨rfl, fault, rfl⟩

/-- The task gives up on a header that does not fit. -/
theorem httpClientTaskResponse_long
    (hlong : httpClientHeadMaxRespBufferSize < header.length) {fuel : ℕ}
    (hfuel : httpClientHeadMaxRespBufferSize ≤ fuel) :
    ∃ out, httpClientTaskResponse settings .get fuel
        (cut.peer ending hending) = .ok (some out) ∧
      out.delivered = [] := by
  have hstream : [] ++ (cut.peer ending hending).stream = header ++ body :=
    cut.stream_peer ending hending
  obtain ⟨wait, hwait, herr⟩ := waitForHeaderLoop_long hheader hlong hstream
    (by decide) hfuel 0 0
  have hfailed : wait.status ≠ .success := by
    rw [herr]
    decide
  have hcall : httpClientWaitForHeader fuel (cut.peer ending hending)
      httpBufferClear = .ok (some wait) := hwait
  refine ⟨⟨httpVersionNotSupported, [], [], true⟩, ?_, rfl⟩
  simp only [httpClientTaskResponse, hcall, ok_bind, if_pos hfailed]
  rfl

end Task

/-- Whatever the pieces, the task ends within the buffer and has handed over
the body. -/
def DeliversBody (settings : HttpSettings) {header body : Bytes}
    (cut : Cut header body) (ending : Int) (hending : ending ≤ 0) : Prop :=
  ∃ enough, ∀ fuel, enough ≤ fuel → ∃ out,
    httpClientTaskResponse settings .get fuel (cut.peer ending hending) =
      .ok (some out) ∧
    out.delivered.flatten = body

theorem Cut.ne_nil_of_mem_chunks {header body : Bytes} (cut : Cut header body)
    {chunk : Bytes} (hchunk : chunk ∈ cut.chunks) : chunk ≠ [] := by
  rw [Cut.chunks, List.mem_append] at hchunk
  rcases hchunk with hbehind | hrest
  · exact of_decide_eq_true (List.mem_filter.mp hbehind).2
  · obtain ⟨piece, -, rfl⟩ := List.mem_map.mp hrest
    exact piece.property

/-- Chunks that are the front of others and have the same bytes are all of
them. -/
theorem eq_of_isPrefix_of_flatten_eq {delivered chunks : List Bytes}
    (hfront : delivered <+: chunks) (hne : ∀ chunk ∈ chunks, chunk ≠ [])
    (hflatten : delivered.flatten = chunks.flatten) : delivered = chunks := by
  obtain ⟨rest, rfl⟩ := hfront
  rw [List.flatten_append, List.self_eq_append_right] at hflatten
  cases rest with
  | nil => rw [List.append_nil]
  | cons chunk rest =>
      rw [List.flatten_cons, List.append_eq_nil_iff] at hflatten
      exact absurd hflatten.1
        (hne chunk (List.mem_append_right _ List.mem_cons_self))

section Delivery

variable {settings : HttpSettings} {recvFn : ℕ → Bytes → Int}
  (hset : settings.recvFn = some recvFn)
  (hnever : ∀ n chunk, 0 ≤ recvFn n chunk)
  {header body : Bytes} (hheader : SuccessHeader header)
  (cut : Cut header body) {ending : Int} (hending : ending ≤ 0)
include hset hnever hheader

theorem deliversBody_of_stopsInTime
    (hshort : header.length ≤ httpClientHeadMaxRespBufferSize)
    (hstops : StopsInTime (contentLengthOf (header ++ cut.behind)) 0
      cut.chunks) : DeliversBody settings cut ending hending := by
  refine ⟨cut.before.length + 1 + (cut.rest.length + 2), ?_⟩
  intro fuel hfuel
  have hall := (bodyRun_eq_some_iff _ _ _).mpr hstops
  rcases httpClientTaskResponse_cut hheader cut hending hshort hset hnever
    hfuel with ⟨chunks, hrun, out, hout, hdelivered⟩ | ⟨hrun, -⟩
  · rw [hall, Option.some.injEq] at hrun
    refine ⟨out, hout, ?_⟩
    rw [hdelivered, ← hrun, cut.flatten_chunks]
  · rw [hall] at hrun
    cases hrun

theorem stopsInTime_of_deliversBody
    (hshort : header.length ≤ httpClientHeadMaxRespBufferSize)
    (hdelivers : DeliversBody settings cut ending hending) :
    StopsInTime (contentLengthOf (header ++ cut.behind)) 0 cut.chunks := by
  obtain ⟨enough, henough⟩ := hdelivers
  obtain ⟨out, hout, hbody⟩ := henough
    (enough + (cut.before.length + 1 + (cut.rest.length + 2)))
    (Nat.le_add_right _ _)
  rw [← bodyRun_eq_some_iff]
  rcases httpClientTaskResponse_cut hheader cut hending hshort hset hnever
    (Nat.le_add_left _ enough) with
    ⟨chunks, hrun, out', hout', hdelivered⟩ | ⟨-, fault, hfault⟩
  · rw [hout, Except.ok.injEq, Option.some.injEq] at hout'
    have hflatten : chunks.flatten = cut.chunks.flatten := by
      rw [cut.flatten_chunks, ← hdelivered, ← hout', hbody]
    have hfront := bodyRun_isPrefix hrun
    rw [hrun, eq_of_isPrefix_of_flatten_eq hfront
      (fun chunk => cut.ne_nil_of_mem_chunks) hflatten]
  · rw [hout] at hfault
    cases hfault

omit hset hnever hheader in
theorem Cut.chunks_eq_nil (hbody : body = []) : cut.chunks = [] := by
  have hflatten := cut.flatten_chunks.trans hbody
  rw [List.flatten_eq_nil_iff] at hflatten
  rw [List.eq_nil_iff_forall_not_mem]
  intro chunk hchunk
  exact cut.ne_nil_of_mem_chunks hchunk (hflatten chunk hchunk)

/-- A body is handed over whole if and only if it is empty, or the header fits
the buffer and no chunk in front of the last one makes the loop stop. -/
theorem deliversBody_iff :
    DeliversBody settings cut ending hending ↔
      body = [] ∨ header.length ≤ httpClientHeadMaxRespBufferSize ∧
        StopsInTime (contentLengthOf (header ++ cut.behind)) 0 cut.chunks := by
  by_cases hshort : header.length ≤ httpClientHeadMaxRespBufferSize
  · constructor
    · intro hdelivers
      exact Or.inr ⟨hshort, stopsInTime_of_deliversBody hset hnever hheader cut
        hending hshort hdelivers⟩
    · intro hcondition
      apply deliversBody_of_stopsInTime hset hnever hheader cut hending hshort
      rcases hcondition with hbody | ⟨-, hstops⟩
      · rw [cut.chunks_eq_nil hbody]
        simp [StopsInTime]
      · exact hstops
  · have hlong := Nat.not_le.mp hshort
    constructor
    · rintro ⟨enough, henough⟩
      obtain ⟨out, hout, hbody⟩ := henough
        (enough + httpClientHeadMaxRespBufferSize) (Nat.le_add_right _ _)
      obtain ⟨out', hout', hnone⟩ := httpClientTaskResponse_long
        hheader cut hending hlong (Nat.le_add_left _ enough)
      rw [hout, Except.ok.injEq, Option.some.injEq] at hout'
      rw [hout', hnone] at hbody
      exact Or.inl hbody.symm
    · rintro (hbody | ⟨hfits, -⟩)
      · refine ⟨httpClientHeadMaxRespBufferSize, ?_⟩
        intro fuel hfuel
        obtain ⟨out, hout, hnone⟩ := httpClientTaskResponse_long
          hheader cut hending hlong hfuel
        refine ⟨out, hout, ?_⟩
        rw [hnone, hbody]
        rfl
      · exact absurd hfits hshort

end Delivery

/-! ## Responses that announce their length -/

/-- The first `Content-Length: ` of the header has the number `length` behind
it. -/
def AnnouncesLength (header : Bytes) (length : ℕ) : Prop :=
  ∃ tag digits rest, FirstAt contentLengthTag header tag ∧
    header.drop (tag + contentLengthTag.length) = digits ++ 0x0D :: rest ∧
    digits ≠ [] ∧ (∀ b ∈ digits, isDigit b = true) ∧
    digitsValue digits = length

/-- An announced length is read, whatever is behind the header. -/
theorem contentLengthOf_of_announces {header behind : Bytes}
    (hnoNul : 0 ∉ header) {length : ℕ}
    (hannounces : AnnouncesLength header length) (hsmall : length < 2 ^ 31) :
    contentLengthOf (header ++ behind) = UInt32.ofNat length := by
  have htag : contentLengthTag ≠ [] := List.cons_ne_nil _ _
  obtain ⟨tag, digits, rest, hfirst, hdrop, hne, hdigits, hvalue⟩ := hannounces
  have hfind : find contentLengthTag (header ++ stringOf behind) = some tag :=
    (find_eq_some_iff htag).mpr (hfirst.mono htag (List.prefix_append _ _))
  have hfield : (header ++ stringOf behind).drop
      (tag + contentLengthTag.length) =
        digits ++ 0x0D :: (rest ++ stringOf behind) := by
    rw [List.drop_append_of_le_length (hfirst.le_length htag), hdrop,
      List.append_assoc, List.cons_append]
  have hread := strtol_digits hne hdigits (show isDigit 0x0D = false from rfl)
    (rest ++ stringOf behind)
  have hused : digits.length ≠ 0 := by
    rw [ne_eq, List.length_eq_zero_iff]
    exact hne
  have hcr : (digits ++ 0x0D :: (rest ++ stringOf behind)).getD
      digits.length 0 = 0x0D := by
    simp [List.getD]
  have hclamp : clampLong (digitsValue digits) = (length : Int) := by
    rw [clampLong, hvalue]
    omega
  have hofInt : UInt32.ofInt (length : Int) = UInt32.ofNat length := by
    rw [← UInt32.toNat_inj, UInt32.ofInt, UInt32.toNat_ofNat',
      UInt32.toNat_ofNat']
    omega
  simp only [contentLengthOf, announcedLength, stringOf_append hnoNul, hfind,
    hfield, hread, hclamp, hofInt]
  exact if_pos ⟨hused, hcr⟩

/-- An announced length makes the loop stop behind the last chunk. -/
theorem stopsInTime_of_flatten {chunks : List Bytes}
    (hne : ∀ chunk ∈ chunks, chunk ≠ []) (hpos : 0 < chunks.flatten.length)
    (hsmall : chunks.flatten.length < 2 ^ 32) :
    StopsInTime (UInt32.ofNat chunks.flatten.length) 0 chunks := by
  have hnat : (UInt32.ofNat chunks.flatten.length).toNat =
      chunks.flatten.length := UInt32.toNat_ofNat_of_lt' hsmall
  have hzero : UInt32.ofNat chunks.flatten.length ≠ 0 := by
    intro heq
    rw [heq] at hnat
    exact absurd hnat.symm (Nat.ne_of_gt hpos)
  refine ⟨fun heq => absurd heq hzero, ?_⟩
  intro before chunk after hsplit hmore
  rw [if_neg hzero, UInt32.zero_add, UInt32.lt_iff_toNat_lt, hnat]
  obtain ⟨next, after, rfl⟩ := List.exists_cons_of_ne_nil hmore
  have hnext := List.length_pos_iff.mpr (hne next (by rw [hsplit]; simp))
  have hlength : (before.flatten ++ chunk).length < chunks.flatten.length := by
    rw [hsplit]
    simp only [List.flatten_append, List.flatten_cons, List.length_append]
    omega
  rwa [UInt32.toNat_ofNat_of_lt' (hlength.trans hsmall)]

/-- A body of the announced length is handed over whole, in whatever pieces it
arrives. -/
theorem deliversBody_of_announces {settings : HttpSettings}
    {recvFn : ℕ → Bytes → Int} (hset : settings.recvFn = some recvFn)
    (hnever : ∀ n chunk, 0 ≤ recvFn n chunk) {header body : Bytes}
    (hheader : SuccessHeader header)
    (hshort : header.length ≤ httpClientHeadMaxRespBufferSize)
    (hannounces : AnnouncesLength header body.length)
    (hsmall : body.length < 2 ^ 31) (hne : body ≠ []) (cut : Cut header body)
    {ending : Int} (hending : ending ≤ 0) :
    DeliversBody settings cut ending hending := by
  apply deliversBody_of_stopsInTime hset hnever hheader cut hending hshort
  have hflatten := congrArg List.length cut.flatten_chunks
  have hpos := List.length_pos_iff.mpr hne
  rw [contentLengthOf_of_announces hheader.noNul hannounces hsmall, ← hflatten]
  exact stopsInTime_of_flatten (fun chunk => cut.ne_nil_of_mem_chunks)
    (by omega) (by omega)

/-! ## Two responses -/

/-- Callbacks that accept everything. -/
def acceptAll : HttpSettings := ⟨false, false, some fun _ _ => 0⟩

/-- `HTTP/1.1 200 OK` with `Content-Length: 5`. -/
def fiveHeader : Bytes :=
  [0x48, 0x54, 0x54, 0x50, 0x2F, 0x31, 0x2E, 0x31, 0x20, 0x32, 0x30, 0x30,
    0x20, 0x4F, 0x4B, 0x0D, 0x0A] ++ contentLengthTag ++
    [0x35, 0x0D, 0x0A, 0x0D, 0x0A]

theorem successHeader_fiveHeader : SuccessHeader fiveHeader where
  statusLine := ⟨0x31, 0x31, 0x30, 0x30, [0x4F, 0x4B, 0x0D, 0x0A] ++
    contentLengthTag ++ [0x35, 0x0D, 0x0A, 0x0D, 0x0A],
    rfl, rfl, rfl, rfl, rfl⟩
  ends := (find_eq_some_iff (List.cons_ne_nil _ _)).mp (by decide)
  noNul := by decide

set_option maxRecDepth 2000 in
theorem announcesLength_fiveHeader : AnnouncesLength fiveHeader 5 :=
  ⟨17, [0x35], [0x0A, 0x0D, 0x0A],
    (find_eq_some_iff (List.cons_ne_nil _ _)).mp (by decide), rfl,
    List.cons_ne_nil _ _, by decide, rfl⟩

/-- The header in two pieces, the second with the first byte of the body. -/
def helloCut : Cut fiveHeader [0x68, 0x65, 0x6C, 0x6C, 0x6F] where
  before := [⟨fiveHeader.take 20, by decide⟩]
  front := fiveHeader.drop 20
  behind := [0x68]
  rest := [⟨[0x65], List.cons_ne_nil _ _⟩,
    ⟨[0x6C, 0x6C, 0x6F], List.cons_ne_nil _ _⟩]
  front_ne := by decide
  header_eq := rfl
  body_eq := rfl
  fits := fun _ => by decide
  rest_le := by decide

theorem stopsInTime_helloCut :
    StopsInTime (contentLengthOf (fiveHeader ++ helloCut.behind)) 0
      helloCut.chunks := by
  rw [contentLengthOf_of_announces successHeader_fiveHeader.noNul
    announcesLength_fiveHeader (by decide)]
  exact stopsInTime_of_flatten (fun chunk => helloCut.ne_nil_of_mem_chunks)
    (by decide) (by decide)

theorem deliversBody_helloCut :
    DeliversBody acceptAll helloCut 0 (Int.le_refl 0) :=
  (deliversBody_iff (show acceptAll.recvFn = some fun _ _ => 0 from rfl)
    (fun _ _ => Int.le_refl 0) successHeader_fiveHeader helloCut
    (Int.le_refl 0)).mpr
    (Or.inr ⟨by decide, stopsInTime_helloCut⟩)

/-- `HTTP/1.1 200 OK`, without a field. -/
def bareHeader : Bytes :=
  [0x48, 0x54, 0x54, 0x50, 0x2F, 0x31, 0x2E, 0x31, 0x20, 0x32, 0x30, 0x30,
    0x20, 0x4F, 0x4B, 0x0D, 0x0A, 0x0D, 0x0A]

theorem successHeader_bareHeader : SuccessHeader bareHeader where
  statusLine := ⟨0x31, 0x31, 0x30, 0x30, [0x4F, 0x4B, 0x0D, 0x0A, 0x0D, 0x0A],
    rfl, rfl, rfl, rfl, rfl⟩
  ends := (find_eq_some_iff (List.cons_ne_nil _ _)).mp (by decide)
  noNul := by decide

/-- A body of two bytes, in a piece behind the header. -/
def shortBodyCut : Cut bareHeader [0x68, 0x69] where
  before := []
  front := bareHeader
  behind := []
  rest := [⟨[0x68, 0x69], List.cons_ne_nil _ _⟩]
  front_ne := List.cons_ne_nil _ _
  header_eq := rfl
  body_eq := rfl
  fits := fun _ => by decide
  rest_le := by decide

/-- A body that starts with a blank line, which arrives with the header. -/
def blankLineCut : Cut bareHeader (crlfcrlf ++ [0x65, 0x6E, 0x64, 0x2E]) where
  before := []
  front := bareHeader
  behind := crlfcrlf
  rest := [⟨[0x65, 0x6E, 0x64, 0x2E], List.cons_ne_nil _ _⟩]
  front_ne := List.cons_ne_nil _ _
  header_eq := rfl
  body_eq := rfl
  fits := fun _ => by decide
  rest_le := by decide

/-- A response without the field shows no length. -/
theorem stopsInTime_of_no_length {body : Bytes} {cut : Cut bareHeader body}
    (hnone : contentLengthOf (bareHeader ++ cut.behind) = 0)
    (hdelivers : DeliversBody acceptAll cut 0 (Int.le_refl 0)) :
    StopsInTime 0 0 cut.chunks := by
  have hstops := stopsInTime_of_deliversBody
    (show acceptAll.recvFn = some fun _ _ => 0 from rfl)
    (fun _ _ => Int.le_refl 0) successHeader_bareHeader cut (Int.le_refl 0)
    (by decide) hdelivers
  rwa [hnone] at hstops

/-- The connection is closed behind each body: the first one makes the task
compare in front of the buffer, the second one is cut off. -/
theorem not_deliversBody_without_length :
    find contentLengthTag bareHeader = none ∧
      ¬ DeliversBody acceptAll shortBodyCut 0 (Int.le_refl 0) ∧
      ¬ DeliversBody acceptAll blankLineCut 0 (Int.le_refl 0) := by
  refine ⟨by decide, ?_, ?_⟩
  · intro hdelivers
    have hstops := stopsInTime_of_no_length (by decide) hdelivers
    exact absurd (hstops.1 rfl [0x68, 0x69] (by decide)) (by decide)
  · intro hdelivers
    have hstops := stopsInTime_of_no_length (by decide) hdelivers
    have hblank := hstops.2 [] crlfcrlf [[0x65, 0x6E, 0x64, 0x2E]] (by decide)
      (List.cons_ne_nil _ _)
    rw [if_pos rfl] at hblank
    exact hblank List.suffix_rfl

end RtpMulticast
