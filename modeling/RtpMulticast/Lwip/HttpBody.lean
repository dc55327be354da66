import RtpMulticast.Lwip.HttpHeader

/-!
# The body of an HTTP response

`HTTP_Client_task` from the response on: it waits for the header, reads status
and content length from the buffer and hands the body to `recv_fn` in the
pieces in which it arrives.  The loop decides from the current piece and the
number of bytes so far whether the body ends there.
-/

namespace RtpMulticast

open ByteBuffer CStrings

/-! ## Parsing the header -/

/-- The string `Content-Length: `. -/
def contentLengthTag : Bytes :=
  [0x43, 0x6F, 0x6E, 0x74, 0x65, 0x6E, 0x74, 0x2D, 0x4C, 0x65, 0x6E, 0x67,
    0x74, 0x68, 0x3A, 0x20]

/-- The number behind the first `Content-Length: ` in the buffer. -/
def httpParseContentLength (data : Bytes) : Except Fault (Option UInt32) := do
  match ← strstr data contentLengthTag with
  | none => return none
  | some tag =>
      let contentLen ← cString data (tag + contentLengthTag.length)
      let (rxDataLen, used) := strtol contentLen
      if used = 0 then
        return none
      let stop ← loadU8 data (tag + contentLengthTag.length + used)
      if stop ≠ 0x0D then
        return none
      return some (UInt32.ofInt rxDataLen)

/-- The string `HTTP/`. -/
def httpTag : Bytes := [0x48, 0x54, 0x54, 0x50, 0x2F]

/-- Version and status of the response; the version is written before the
status is found to be one. -/
def httpParseResponseStatus (data : Bytes) :
    Except Fault (Option (UInt16 × UInt32)) := do
  match ← strstr data crlfcrlf with
  | none => return none
  | some _ =>
      match ← strstr data [0x20] with
      | none => return none
      | some space =>
          if ¬ (← strncmpEq data 0 httpTag) then
            return none
          let dot ← loadU8 data 6
          if dot ≠ 0x2E then
            return none
          let major ← loadU8 data 5
          let minor ← loadU8 data 7
          let version := ((major.toUInt16 - 0x30) <<< 8) |||
            (minor.toUInt16 - 0x30)
          let rest ← cString data (space + 1)
          let (value, used) := strtol rest
          if used = 0 then
            return none
          let stop ← loadU8 data (space + 1 + used)
          if stop ≠ 0x20 then
            return none
          let status := UInt32.ofInt value
          if 0 < status ∧ status ≤ 0xFFFF then
            return some (version, status)
          return none

inductive HttpStatusCategory where
  | unknown
  | informational
  | success
  | redirection
  | clientError
  | serverError
  deriving DecidableEq, Repr

def HttpStatusCategory.value : HttpStatusCategory → ℕ
  | .unknown => 0
  | .informational => 1
  | .success => 2
  | .redirection => 3
  | .clientError => 4
  | .serverError => 5

def httpGetStatusCategory (status : UInt32) : HttpStatusCategory :=
  match status.toNat / 100 with
  | 1 => .informational
  | 2 => .success
  | 3 => .redirection
  | 4 => .clientError
  | 5 => .serverError
  | _ => .unknown

/-! ## The task -/

inductive HttpReqType where
  | head
  | get
  | put
  | post
  deriving DecidableEq, Repr

/-- The callbacks that are set; `recvFn` answers the call with a number. -/
structure HttpSettings where
  headersDoneFn : Bool
  resultFn : Bool
  recvFn : Option (ℕ → Bytes → Int)

/-- Calls of the callbacks. -/
inductive HttpEvent where
  | headersDone (header : Bytes) (contentLength : UInt32)
  | result (status contentLength : UInt32) (err : Int)
  | data (chunk : Bytes)
  | dataFailed
  deriving DecidableEq, Repr

/-- The end of the read loop: whether a read failed, the chunks handed to
`recv_fn`, and the connection. -/
structure BodyEnd where
  failed : Bool
  delivered : List Bytes
  peer : Peer

/-- Hand a chunk to `recv_fn`, if it is set. -/
def HttpSettings.deliver (settings : HttpSettings) (delivered : List Bytes)
    (chunk : Bytes) : Int × List Bytes :=
  match settings.recvFn with
  | some recvFn => (recvFn delivered.length chunk, delivered ++ [chunk])
  | none => (0, delivered)

/-- Whether the loop takes the current piece for the last one. -/
def httpBodyEnds (contentLength totalRecvData : UInt32) (buffer : HttpBuffer) :
    Except Fault Bool := do
  if 0 < contentLength ∧ contentLength ≤ totalRecvData then
    return true
  if contentLength = 0 then
    let last ← subSize buffer.length 4
    strncmpEq buffer.data last crlfcrlf
  else
    return false

/-- The read loop with a piece of the body in the buffer and the chunks handed
over before it; no result when it is still running after `fuel` iterations. -/
def httpBodyLoop (settings : HttpSettings) (contentLength : UInt32) :
    ℕ → Peer → HttpBuffer → UInt32 → List Bytes →
      Except Fault (Option BodyEnd)
  | 0, _, _, _, _ => .ok none
  | fuel + 1, peer, buffer, totalRecvData, delivered => do
      if buffer.length = 0 then
        return some ⟨false, delivered, peer⟩
      let totalRecvData := totalRecvData + UInt32.ofNat buffer.length
      let chunk ← copyOut buffer.data 0 buffer.length
      let (answer, delivered) := settings.deliver delivered chunk
      if answer < 0 then
        return some ⟨false, delivered, peer⟩
      if ← httpBodyEnds contentLength totalRecvData buffer then
        return some ⟨false, delivered, peer⟩
      let data ← copyIn buffer.data 0 (List.replicate httpClientDataRecvSize 0)
      let (recvLen, bytes, peer) := peer.recv httpClientDataRecvSize
      if recvLen < 0 then
        return some ⟨true, delivered, peer⟩
      let data ← copyIn data 0 bytes
      httpBodyLoop settings contentLength fuel peer ⟨data, recvLen.toNat⟩
        totalRecvData delivered

/-- The end of the task: what it announced, what it delivered, and whether it
reports an error. -/
structure TaskEnd where
  status : UInt32
  announced : List HttpEvent
  delivered : List Bytes
  failed : Bool

/-- `HTTP_VERSION_NOT_SUPPORTED`. -/
def httpVersionNotSupported : UInt32 := 505

/-- The calls of the callbacks, in order. -/
def TaskEnd.events (settings : HttpSettings) (out : TaskEnd) :
    List HttpEvent :=
  out.announced ++ out.delivered.map .data ++
    (if out.failed ∧ settings.resultFn then [.result out.status 0 (-1)]
      else []) ++
    (if out.failed ∧ settings.recvFn.isSome then [.dataFailed] else [])

/-- Move what was received behind the header to the front of the buffer. -/
def httpShiftBody (buffer : HttpBuffer) (offset : ℕ) :
    Except Fault HttpBuffer := do
  if 0 < offset then
    let length ← subSize buffer.length offset
    let rest ← copyOut buffer.data offset length
    let data ← copyIn buffer.data 0 rest
    let data ← storeU8 data length 0
    return ⟨data, length⟩
  else
    return buffer

/-- Read the body; the buffer has its first piece, unless that is empty. -/
def httpReceiveBody (settings : HttpSettings) (contentLength : UInt32)
    (fuel : ℕ) (peer : Peer) (buffer : HttpBuffer) :
    Except Fault (Option BodyEnd) := do
  if buffer.length = 0 then
    let (recvLen, bytes, peer) := peer.recv httpClientDataRecvSize
    if recvLen < 0 then
      return some ⟨true, [], peer⟩
    let data ← copyIn buffer.data 0 bytes
    httpBodyLoop settings contentLength fuel peer ⟨data, recvLen.toNat⟩ 0 []
  else
    httpBodyLoop settings contentLength fuel peer buffer 0 []

/-- The calls of `headers_done_fn` and `result_fn` for a header. -/
def HttpSettings.announce (settings : HttpSettings) (header : Bytes)
    (status contentLength : UInt32) : List HttpEvent :=
  (if settings.headersDoneFn then [.headersDone header contentLength]
    else []) ++
    (if settings.resultFn then [.result status contentLength 0] else [])

/-- The content length of a GET request, zero when none is found. -/
def httpContentLength (reqType : HttpReqType) (data : Bytes) :
    Except Fault UInt32 :=
  if reqType = .get then do
    return (← httpParseContentLength data).getD 0
  else return 0

/-- `HTTP_Client_task` behind the request. -/
def httpClientTaskResponse (settings : HttpSettings) (reqType : HttpReqType)
    (fuel : ℕ) (peer : Peer) : Except Fault (Option TaskEnd) := do
  match ← httpClientWaitForHeader fuel peer httpBufferClear with
  | none => return none
  | some wait =>
      if wait.status ≠ .success then
        return some ⟨httpVersionNotSupported, [], [], true⟩
      match ← httpParseResponseStatus wait.buffer.data with
      | none => return some ⟨httpVersionNotSupported, [], [], true⟩
      | some (_, status) =>
          let contentLength ← httpContentLength reqType wait.buffer.data
          let header ← copyOut wait.buffer.data 0 wait.bodyStartOffset
          let announced := settings.announce header status contentLength
          if HttpStatusCategory.clientError.value ≤
              (httpGetStatusCategory status).value then
            return some ⟨status, announced, [], true⟩
          let buffer ← httpShiftBody wait.buffer wait.bodyStartOffset
          match ← httpReceiveBody settings contentLength fuel wait.peer
              buffer with
          | none => return none
          | some body =>
              return some ⟨status, announced, body.delivered, body.failed⟩

/-! ## The read loop -/

/-- A piece that is not longer than what is asked for is one answer. -/
theorem Peer.recv_of_le {piece : Piece} (pieces : List Piece) {ending : Int}
    (hending : ending ≤ 0) {size : ℕ} (hle : piece.val.length ≤ size) :
    (Peer.mk (piece :: pieces) ending hending).recv size =
      ((piece.val.length : Int), piece.val, ⟨pieces, ending, hending⟩) := by
  simp only [Peer.recv, dif_neg (Nat.not_lt.mpr hle)]

/-- The chunks that the loop hands over of those that arrive, with `total`
bytes handed over before; none when it reads outside the buffer. -/
def bodyRun (contentLength : UInt32) : UInt32 → List Bytes → Option (List Bytes)
  | _, [] => some []
  | total, chunk :: chunks =>
      if 0 < contentLength ∧
          contentLength ≤ total + UInt32.ofNat chunk.length then some [chunk]
      else if contentLength = 0 ∧ chunk.length < crlfcrlf.length then none
      else if contentLength = 0 ∧ crlfcrlf <:+ chunk then some [chunk]
      else
        (bodyRun contentLength (total + UInt32.ofNat chunk.length) chunks).map
          (chunk :: ·)

/-- A reading of the body, with `delivered` handed over before, hands over the
chunks of a run, and is at fault when there is none. -/
def BodyFollows (run : Option (List Bytes)) (delivered : List Bytes)
    (result : Except Fault (Option BodyEnd)) : Prop :=
  match run with
  | some chunks => ∃ out, result = .ok (some out) ∧
      out.delivered = delivered ++ chunks
  | none => ∃ fault, result = .error fault

/-- The buffer has a chunk at its front. -/
structure Holds (buffer : HttpBuffer) (chunk : Bytes) : Prop where
  size : buffer.data.length = httpClientMaxDataSendBufferSize + 1
  length : buffer.length = chunk.length
  chunk : chunk <+: buffer.data

theorem Holds.copyOut {buffer : HttpBuffer} {chunk : Bytes}
    (h : Holds buffer chunk) :
    ByteBuffer.copyOut buffer.data 0 buffer.length = .ok chunk := by
  obtain ⟨rest, hrest⟩ := h.chunk
  rw [h.length, ← hrest]
  exact copyOut_append [] chunk rest

theorem Holds.drop_eq {buffer : HttpBuffer} {chunk : Bytes}
    (h : Holds buffer chunk) (hsize : crlfcrlf.length ≤ chunk.length) :
    (buffer.data.drop (chunk.length - crlfcrlf.length)).take crlfcrlf.length =
      chunk.drop (chunk.length - crlfcrlf.length) := by
  obtain ⟨rest, hrest⟩ := h.chunk
  rw [← hrest, List.drop_append_of_le_length (Nat.sub_le _ _)]
  apply List.take_left'
  rw [List.length_drop]
  omega

/-- The exit tests, in terms of the chunk. -/
theorem Holds.httpBodyEnds {buffer : HttpBuffer} {chunk : Bytes}
    (h : Holds buffer chunk) (contentLength total : UInt32) :
    RtpMulticast.httpBodyEnds contentLength total buffer =
      if 0 < contentLength ∧ contentLength ≤ total then .ok true
      else if contentLength = 0 ∧ chunk.length < crlfcrlf.length then
        .error .sizeUnderflow
      else .ok (decide (contentLength = 0 ∧ crlfcrlf <:+ chunk)) := by
  have hfour : crlfcrlf.length = 4 := rfl
  rw [RtpMulticast.httpBodyEnds]
  by_cases hlong : 0 < contentLength ∧ contentLength ≤ total
  · rw [if_pos hlong, if_pos hlong]
    rfl
  · rw [if_neg hlong, if_neg hlong, h.length]
    by_cases hzero : contentLength = 0
    · rw [if_pos hzero]
      by_cases hsize : chunk.length < crlfcrlf.length
      · rw [if_pos ⟨hzero, hsize⟩, subSize,
          if_neg (show ¬ 4 ≤ chunk.length by omega)]
        rfl
      · have hsize' := Nat.not_lt.mp hsize
        have hlength := h.chunk.length_le
        have hcompare : strncmpEq buffer.data
            (chunk.length - crlfcrlf.length) crlfcrlf = .ok (decide
              ((buffer.data.drop (chunk.length - crlfcrlf.length)).take
                crlfcrlf.length = crlfcrlf)) :=
          strncmpEq_of_le (by omega)
        have hsuffix : chunk.drop (chunk.length - crlfcrlf.length) = crlfcrlf ↔
            contentLength = 0 ∧ crlfcrlf <:+ chunk := by
          rw [List.suffix_iff_eq_drop, eq_comm]
          exact (and_iff_right hzero).symm
        rw [if_neg fun hshort => hsize hshort.2, subSize,
          if_pos (show 4 ≤ chunk.length by omega), ok_bind]
        refine hcompare.trans ?_
        simp only [h.drop_eq hsize', hsuffix]
    · rw [if_neg hzero, if_neg fun hshort => hzero hshort.1]
      simp [hzero]

theorem copyIn_front {data bytes : Bytes} (hfit : bytes.length ≤ data.length) :
    copyIn data 0 bytes = .ok (bytes ++ data.drop bytes.length) := by
  rw [copyIn, if_pos (by omega), List.take_zero, List.nil_append,
    Nat.zero_add]

/-- The buffer after it is cleared for the next read, and after that read. -/
theorem copyIn_holds {data bytes : Bytes}
    (hdata : data.length = httpClientMaxDataSendBufferSize + 1)
    (hbytes : bytes.length ≤ httpClientMaxDataSendBufferSize + 1) :
    ∃ data', copyIn data 0 bytes = .ok data' ∧
      Holds ⟨data', bytes.length⟩ bytes := by
  refine ⟨_, copyIn_front (by omega), ?_, rfl, List.prefix_append _ _⟩
  simp only [List.length_append, List.length_drop]
  omega

section Loop

variable {settings : HttpSettings} {recvFn : ℕ → Bytes → Int}
  (hset : settings.recvFn = some recvFn)
  (hnever : ∀ n chunk, 0 ≤ recvFn n chunk)
include hset hnever

/-- One turn of the loop: the chunk is handed over, and if it is not the last
one the next answer is read. -/
theorem httpBodyLoop_succ (contentLength : UInt32) {chunk : Bytes}
    (hchunk : chunk ≠ []) {buffer : HttpBuffer} (hholds : Holds buffer chunk)
    (peer : Peer) (total : UInt32) (delivered : List Bytes) (fuel : ℕ) :
    httpBodyLoop settings contentLength (fuel + 1) peer buffer total
        delivered = (do
      if ← httpBodyEnds contentLength
          (total + UInt32.ofNat chunk.length) buffer then
        return some ⟨false, delivered ++ [chunk], peer⟩
      let data ← copyIn buffer.data 0 (List.replicate httpClientDataRecvSize 0)
      let (recvLen, bytes, peer) := peer.recv httpClientDataRecvSize
      if recvLen < 0 then
        return some ⟨true, delivered ++ [chunk], peer⟩
      let data ← copyIn data 0 bytes
      httpBodyLoop settings contentLength fuel peer ⟨data, recvLen.toNat⟩
        (total + UInt32.ofNat chunk.length) (delivered ++ [chunk])) := by
  have hlength : buffer.length ≠ 0 := by
    rw [hholds.length, ne_eq, List.length_eq_zero_iff]
    exact hchunk
  have hanswer := Int.not_lt.mpr (hnever delivered.length chunk)
  have hcopy := hholds.copyOut
  rw [hholds.length] at hlength hcopy
  simp only [httpBodyLoop, hholds.length, if_neg hlength, hcopy, ok_bind,
    HttpSettings.deliver, hset, if_neg hanswer]

omit hset hnever in
theorem httpBodyLoop_empty (contentLength : UInt32) {buffer : HttpBuffer}
    (hempty : buffer.length = 0) (peer : Peer) (total : UInt32)
    (delivered : List Bytes) (fuel : ℕ) :
    httpBodyLoop settings contentLength (fuel + 1) peer buffer total delivered =
      .ok (some ⟨false, delivered, peer⟩) := by
  rw [httpBodyLoop, if_pos hempty]
  rfl

/-- The next answer is read into `data`. -/
def httpBodyNext (settings : HttpSettings) (contentLength : UInt32) (fuel : ℕ)
    (peer : Peer) (data : Bytes) (total : UInt32) (delivered : List Bytes) :
    Except Fault (Option BodyEnd) := do
  let (recvLen, bytes, peer) := peer.recv httpClientDataRecvSize
  if recvLen < 0 then
    return some ⟨true, delivered, peer⟩
  let data ← copyIn data 0 bytes
  httpBodyLoop settings contentLength fuel peer ⟨data, recvLen.toNat⟩ total
    delivered

/-- One turn: the chunk is the last one, or the loop reads in front of the
buffer, or it goes on. -/
theorem httpBodyLoop_cases (contentLength : UInt32) {chunk : Bytes}
    (hchunk : chunk ≠ []) {buffer : HttpBuffer} (hholds : Holds buffer chunk)
    (peer : Peer) (total : UInt32) (delivered : List Bytes) (fuel : ℕ)
    (chunks : List Bytes) :
    (bodyRun contentLength total (chunk :: chunks) = some [chunk] ∧
      httpBodyLoop settings contentLength (fuel + 1) peer buffer total
        delivered = .ok (some ⟨false, delivered ++ [chunk], peer⟩)) ∨
    (bodyRun contentLength total (chunk :: chunks) = none ∧
      ∃ fault, httpBodyLoop settings contentLength (fuel + 1) peer buffer total
        delivered = .error fault) ∨
    (bodyRun contentLength total (chunk :: chunks) =
        (bodyRun contentLength (total + UInt32.ofNat chunk.length) chunks).map
          (chunk :: ·) ∧
      ∃ data, data.length = httpClientMaxDataSendBufferSize + 1 ∧
        httpBodyLoop settings contentLength (fuel + 1) peer buffer total
          delivered =
        httpBodyNext settings contentLength fuel peer data
          (total + UInt32.ofNat chunk.length) (delivered ++ [chunk])) := by
  rw [httpBodyLoop_succ hset hnever contentLength hchunk hholds,
    hholds.httpBodyEnds, bodyRun]
  by_cases hlong : 0 < contentLength ∧
      contentLength ≤ total + UInt32.ofNat chunk.length
  · left
    rw [if_pos hlong, if_pos hlong]
    exact ⟨rfl, rfl⟩
  · rw [if_neg hlong, if_neg hlong]
    by_cases hshort : contentLength = 0 ∧ chunk.length < crlfcrlf.length
    · right
      left
      rw [if_pos hshort, if_pos hshort]
      exact ⟨rfl, _, rfl⟩
    · rw [if_neg hshort, if_neg hshort, ok_bind]
      by_cases hlast : contentLength = 0 ∧ crlfcrlf <:+ chunk
      · left
        rw [if_pos hlast, if_pos (decide_eq_true hlast)]
        exact ⟨rfl, rfl⟩
      · right
        right
        obtain ⟨data, hclear, hdata⟩ := copyIn_holds hholds.size
          (show (List.replicate httpClientDataRecvSize (0 : UInt8)).length ≤
            httpClientMaxDataSendBufferSize + 1 by
              rw [List.length_replicate]
              decide)
        rw [if_neg hlast, if_neg (by rw [decide_eq_true_iff]; exact hlast)]
        refine ⟨rfl, data, hdata.size, ?_⟩
        rw [hclear]
        rfl

omit hset hnever in
/-- What is left of the run when a chunk is not the last one. -/
theorem BodyFollows.cons {run : Option (List Bytes)} {chunk : Bytes}
    {delivered : List Bytes} {result : Except Fault (Option BodyEnd)}
    (h : BodyFollows run (delivered ++ [chunk]) result) :
    BodyFollows (run.map (chunk :: ·)) delivered result := by
  cases run with
  | none => exact h
  | some chunks =>
      obtain ⟨out, hout, hdelivered⟩ := h
      refine ⟨out, hout, ?_⟩
      rw [hdelivered, List.append_assoc]
      rfl

/-- A turn of the loop follows its run when what it reads next does. -/
theorem httpBodyLoop_follows (contentLength : UInt32) {chunk : Bytes}
    (hchunk : chunk ≠ []) {buffer : HttpBuffer} (hholds : Holds buffer chunk)
    (peer : Peer) (total : UInt32) (delivered : List Bytes) (fuel : ℕ)
    (chunks : List Bytes)
    (hnext : ∀ data : Bytes, data.length = httpClientMaxDataSendBufferSize + 1 →
      BodyFollows
        (bodyRun contentLength (total + UInt32.ofNat chunk.length) chunks)
        (delivered ++ [chunk])
        (httpBodyNext settings contentLength fuel peer data
          (total + UInt32.ofNat chunk.length) (delivered ++ [chunk]))) :
    BodyFollows (bodyRun contentLength total (chunk :: chunks)) delivered
      (httpBodyLoop settings contentLength (fuel + 1) peer buffer total
        delivered) := by
  rcases httpBodyLoop_cases hset hnever contentLength hchunk hholds peer total
    delivered fuel chunks with
    ⟨hrun, hloop⟩ | ⟨hrun, hfault⟩ | ⟨hrun, data, hdata, hloop⟩
  · rw [hrun]
    exact ⟨_, hloop, rfl⟩
  · rw [hrun]
    exact hfault
  · rw [hrun, hloop]
    exact (hnext data hdata).cons

/-- Reading on hands over what `bodyRun` says, by induction on the pieces that
are still to come. -/
theorem httpBodyNext_run (contentLength : UInt32) {pieces : List Piece}
    (hpieces : ∀ piece ∈ pieces, piece.val.length ≤ httpClientDataRecvSize)
    {ending : Int} (hending : ending ≤ 0) {data : Bytes}
    (hdata : data.length = httpClientMaxDataSendBufferSize + 1)
    (total : UInt32) (delivered : List Bytes) {fuel : ℕ}
    (hfuel : pieces.length + 1 ≤ fuel) :
    BodyFollows (bodyRun contentLength total (pieces.map Subtype.val)) delivered
      (httpBodyNext settings contentLength fuel ⟨pieces, ending, hending⟩ data
        total delivered) := by
  induction pieces generalizing data total delivered fuel with
  | nil =>
      obtain ⟨fuel, rfl⟩ : ∃ n, fuel = n + 1 := Nat.exists_eq_add_of_le' hfuel
      rw [httpBodyNext, Peer.recv_of_nil rfl]
      by_cases herror : ending < 0
      · simp only [if_pos herror]
        exact ⟨_, rfl, (List.append_nil _).symm⟩
      · obtain rfl : ending = 0 := by omega
        obtain ⟨data', hcopy, -⟩ := copyIn_holds hdata
          (show ([] : Bytes).length ≤ httpClientMaxDataSendBufferSize + 1 from
            Nat.zero_le _)
        simp only [if_neg herror, hcopy, ok_bind]
        exact ⟨_, httpBodyLoop_empty contentLength rfl _ _ _ fuel,
          (List.append_nil _).symm⟩
  | cons piece pieces ih =>
      obtain ⟨hpiece, hrest⟩ := List.forall_mem_cons.mp hpieces
      rw [List.length_cons] at hfuel
      obtain ⟨fuel, rfl⟩ : ∃ n, fuel = n + 1 := ⟨fuel - 1, by omega⟩
      have hpos : ¬ ((piece.val.length : Int) < 0) := by omega
      obtain ⟨data', hcopy, hholds⟩ := copyIn_holds hdata
        (hpiece.trans (by decide))
      have hturn : httpBodyNext settings contentLength (fuel + 1)
          ⟨piece :: pieces, ending, hending⟩ data total delivered =
        httpBodyLoop settings contentLength (fuel + 1)
          ⟨pieces, ending, hending⟩ ⟨data', piece.val.length⟩ total
          delivered := by
        simp only [httpBodyNext, Peer.recv_of_le pieces hending hpiece,
          if_neg hpos, hcopy, ok_bind, Int.toNat_natCast]
      rw [hturn, List.map_cons]
      apply httpBodyLoop_follows hset hnever contentLength piece.property hholds
      intro data' hdata'
      exact ih hrest hdata' _ _ (by omega)

/-- The body is handed over in the chunks of `bodyRun`, when the buffer has
those that came with the header. -/
theorem httpReceiveBody_run (contentLength : UInt32) {behind : Bytes}
    {buffer : HttpBuffer} (hholds : Holds buffer behind) {rest : List Piece}
    (hrest : ∀ piece ∈ rest, piece.val.length ≤ httpClientDataRecvSize)
    {ending : Int} (hending : ending ≤ 0) {fuel : ℕ}
    (hfuel : rest.length + 2 ≤ fuel) :
    BodyFollows (bodyRun contentLength 0
        ([behind].filter (· ≠ []) ++ rest.map Subtype.val)) []
      (httpReceiveBody settings contentLength fuel ⟨rest, ending, hending⟩
        buffer) := by
  by_cases hbehind : behind = []
  · have hempty : buffer.length = 0 := by
      rw [hholds.length, hbehind]
      rfl
    have hchunks : [behind].filter (· ≠ []) ++ rest.map Subtype.val =
        rest.map Subtype.val := by
      simp [hbehind]
    rw [hchunks, httpReceiveBody, if_pos hempty]
    exact httpBodyNext_run hset hnever contentLength hrest hending hholds.size 0
      [] (by omega)
  · have hne : buffer.length ≠ 0 := by
      rw [hholds.length, ne_eq, List.length_eq_zero_iff]
      exact hbehind
    have hchunks : [behind].filter (· ≠ []) ++ rest.map Subtype.val =
        behind :: rest.map Subtype.val := by
      simp [hbehind]
    obtain ⟨fuel, rfl⟩ : ∃ n, fuel = n + 1 := ⟨fuel - 1, by omega⟩
    rw [hchunks, httpReceiveBody, if_neg hne]
    apply httpBodyLoop_follows hset hnever contentLength hbehind hholds
    intro data hdata
    exact httpBodyNext_run hset hnever contentLength hrest hending hdata _ _
      (by omega)

end Loop

/-! ## The end of the exchange -/

theorem bind_ne_ok_none {α β : Type} {x : Except Fault α}
    {f : α → Except Fault (Option β)} (h : ∀ a, x = .ok a → f a ≠ .ok none) :
    x >>= f ≠ .ok none := by
  intro hnone
  obtain ⟨a, ha, hf⟩ := bind_eq_ok.mp hnone
  exact h a ha hf

theorem some_ne_ok_none {α : Type} (a : α) :
    (pure (some a) : Except Fault (Option α)) ≠ .ok none := by
  rintro ⟨⟩

/-- A read loop ends that may take as many turns as bytes are still to come: each turn
takes some of them, or the connection has no more. -/
theorem httpBodyLoop_leaves (settings : HttpSettings) (contentLength : UInt32) {fuel : ℕ}
    {peer : Peer} (hfuel : peer.stream.length + 2 ≤ fuel) (buffer : HttpBuffer)
    (total : UInt32) (delivered : List Bytes) :
    httpBodyLoop settings contentLength fuel peer buffer total delivered ≠ .ok none := by
  induction fuel generalizing peer buffer total delivered with
  | zero => omega
  | succ fuel ih =>
      rw [httpBodyLoop]
      by_cases hempty : buffer.length = 0
      · rw [if_pos hempty]
        exact some_ne_ok_none _
      · rw [if_neg hempty]
        refine bind_ne_ok_none fun chunk _ => ?_
        dsimp only
        by_cases hanswer : (settings.deliver delivered chunk).1 < 0
        · rw [if_pos hanswer]
          exact some_ne_ok_none _
        · rw [if_neg hanswer]
          refine bind_ne_ok_none fun last _ => ?_
          cases last with
          | true => exact some_ne_ok_none _
          | false =>
              refine bind_ne_ok_none fun data _ => ?_
              by_cases hnil : peer.pieces = []
              · rw [Peer.recv_of_nil hnil]
                dsimp only
                by_cases herror : peer.ending < 0
                · rw [if_pos herror]
                  exact some_ne_ok_none _
                · rw [if_neg herror]
                  refine bind_ne_ok_none fun data _ => ?_
                  obtain ⟨fuel, rfl⟩ : ∃ n, fuel = n + 1 := ⟨fuel - 1, by omega⟩
                  have hzero : peer.ending.toNat = 0 := by
                    have hle := peer.ending_le
                    omega
                  rw [hzero, httpBodyLoop_empty contentLength rfl]
                  exact some_ne_ok_none _
              · obtain ⟨bytes, peer', hrecv, hpos, -, hstream, -⟩ :=
                  Peer.recv_of_cons hnil (by decide : 0 < httpClientDataRecvSize)
                have hlength := congrArg List.length hstream
                rw [List.length_append] at hlength
                have hcount : ¬ (bytes.length : Int) < 0 := by omega
                rw [hrecv]
                dsimp only
                rw [if_neg hcount]
                exact bind_ne_ok_none fun data _ => ih (by omega) _ _ _

theorem httpReceiveBody_leaves (settings : HttpSettings) (contentLength : UInt32)
    {fuel : ℕ} {peer : Peer} (hfuel : peer.stream.length + 2 ≤ fuel)
    (buffer : HttpBuffer) :
    httpReceiveBody settings contentLength fuel peer buffer ≠ .ok none := by
  rw [httpReceiveBody]
  by_cases hempty : buffer.length = 0
  · rw [if_pos hempty]
    have hle := peer.stream_recv_le httpClientDataRecvSize
    generalize peer.recv httpClientDataRecvSize = answer at hle
    obtain ⟨recvLen, bytes, peer'⟩ := answer
    dsimp only at hle ⊢
    by_cases herror : recvLen < 0
    · rw [if_pos herror]
      exact some_ne_ok_none _
    · rw [if_neg herror]
      refine bind_ne_ok_none fun data _ => ?_
      exact httpBodyLoop_leaves settings contentLength (by omega) _ _ _
  · rw [if_neg hempty]
    exact httpBodyLoop_leaves settings contentLength hfuel _ _ _

/-- The task leaves its exchange with the peer. -/
def ResponseEnds (settings : HttpSettings) (reqType : HttpReqType) (peer : Peer) : Prop :=
  ∃ fuel, httpClientTaskResponse settings reqType fuel peer ≠ .ok none

/-- The task leaves its exchange exactly when the wait for the header ends; the body always
does. -/
theorem responseEnds_iff (settings : HttpSettings) (reqType : HttpReqType) (peer : Peer) :
    ResponseEnds settings reqType peer ↔ peer.ending < 0 ∨
      httpClientHeadMaxRespBufferSize ≤ peer.stream.length ∨ HasHeader peer := by
  constructor
  · rintro ⟨fuel, hresponse⟩
    by_contra hends
    apply hresponse
    rw [httpClientTaskResponse, httpClientWaitForHeader_runs_of_not hends fuel]
    rfl
  · intro hends
    obtain ⟨fuel, wait, hwait, -⟩ :=
      @waitForHeaderLoop_ends peer [] (by decide) (by decide) hends 0 0
    have hmore : httpClientWaitForHeader (fuel + (wait.peer.stream.length + 2)) peer
        httpBufferClear = .ok (some wait) := httpClientWaitForHeader_mono hwait _
    refine ⟨fuel + (wait.peer.stream.length + 2), ?_⟩
    rw [httpClientTaskResponse, hmore, ok_bind]
    dsimp only
    by_cases hstatus : wait.status ≠ .success
    · rw [if_pos hstatus]
      exact some_ne_ok_none _
    · rw [if_neg hstatus]
      refine bind_ne_ok_none fun parsed _ => ?_
      cases parsed with
      | none => exact some_ne_ok_none _
      | some parsed =>
          refine bind_ne_ok_none fun contentLength _ => ?_
          refine bind_ne_ok_none fun header _ => ?_
          split_ifs
          · exact some_ne_ok_none _
          · refine bind_ne_ok_none fun buffer _ => bind_ne_ok_none fun body hbody => ?_
            cases body with
            | none =>
                exact absurd hbody
                  (httpReceiveBody_leaves _ _ (Nat.le_add_left _ _) _)
            | some body => exact some_ne_ok_none _

end RtpMulticast
