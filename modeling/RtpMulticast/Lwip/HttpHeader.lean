import RtpMulticast.Support.CString

/-!
# Waiting for the header of an HTTP response

`HTTP_Client_Wait_For_Header` reads from the socket until the buffer has the
end of the header.  The answers of `recv` and `mbedtls_ssl_read` are the pieces
in which the peer's bytes arrive; behind them each further call answers that
the connection is closed, or fails.  The loop looks at the number of bytes and
at the string in the buffer only, so a peer that closes the connection in front
of the end of its header keeps it running.
-/

namespace RtpMulticast

open ByteBuffer CStrings

/-! ## The peer -/

/-- The bytes of one answer. -/
abbrev Piece : Type := { bytes : Bytes // bytes ≠ [] }

/-- What stays of a piece when its first `size` bytes are taken. -/
def Piece.rest (piece : Piece) {size : ℕ} (h : size < piece.val.length) :
    Piece :=
  ⟨piece.val.drop size, by
    rw [ne_eq, List.drop_eq_nil_iff]
    omega⟩

/-- What a connection still delivers: pieces, and behind them the answer of
every further call, 0 when the peer has closed it. -/
structure Peer where
  pieces : List Piece
  ending : Int
  ending_le : ending ≤ 0

/-- All bytes that the connection still delivers. -/
def Peer.stream (peer : Peer) : Bytes :=
  (peer.pieces.map Subtype.val).flatten

/-- Read at most `size` bytes: the answer, the bytes, and what is left.  A
piece that is longer stays behind in part. -/
def Peer.recv (peer : Peer) (size : ℕ) : Int × Bytes × Peer :=
  match peer.pieces with
  | [] => (peer.ending, [], peer)
  | piece :: pieces =>
      if h : size < piece.val.length then
        (size, piece.val.take size,
          { peer with pieces := piece.rest h :: pieces })
      else (piece.val.length, piece.val, { peer with pieces := pieces })

/-! ## The buffer and the loop -/

/-- `HTTP_CLIENT_MAX_DATA_SEND_BUFFER_SIZE`. -/
def httpClientMaxDataSendBufferSize : ℕ := 4096

/-- `HTTP_CLIENT_HEAD_MAX_RESP_BUFFER_SIZE`. -/
def httpClientHeadMaxRespBufferSize : ℕ := 2048

/-- `HTTP_CLIENT_DATA_RECV_SIZE`. -/
def httpClientDataRecvSize : ℕ := 1024

def crlfcrlf : Bytes := [0x0D, 0x0A, 0x0D, 0x0A]

inductive HttpStatus where
  | success
  | err
  deriving DecidableEq, Repr

/-- `HTTP_buffer_t` with the object behind its data pointer. -/
structure HttpBuffer where
  data : Bytes
  length : ℕ
  deriving DecidableEq, Repr

/-- The buffer that the task allocates and clears. -/
def httpBufferClear : HttpBuffer :=
  ⟨List.replicate (httpClientMaxDataSendBufferSize + 1) 0, 0⟩

/-- What the call leaves behind. -/
structure HeaderWait where
  status : HttpStatus
  buffer : HttpBuffer
  bodyStartOffset : ℕ
  peer : Peer

/-- The loop with `totalDataReceived` bytes in the buffer; no result when it is
still running after `fuel` iterations. -/
def waitForHeaderLoop : ℕ → Peer → HttpBuffer → ℕ → ℕ →
    Except Fault (Option HeaderWait)
  | 0, _, _, _, _ => .ok none
  | fuel + 1, peer, buffer, bodyStartOffset, totalDataReceived => do
      let size ← subSize httpClientHeadMaxRespBufferSize totalDataReceived
      let (dataReceived, bytes, peer) := peer.recv size
      if dataReceived < 0 then
        return some ⟨.err, buffer, bodyStartOffset, peer⟩
      let data ← copyIn buffer.data totalDataReceived bytes
      let totalDataReceived := totalDataReceived + dataReceived.toNat
      match ← strstr data crlfcrlf with
      | some headerEnd =>
          return some ⟨.success, ⟨data, totalDataReceived⟩,
            headerEnd + crlfcrlf.length, peer⟩
      | none =>
          if totalDataReceived < httpClientHeadMaxRespBufferSize then
            waitForHeaderLoop fuel peer ⟨data, buffer.length⟩ bodyStartOffset
              totalDataReceived
          else
            return some ⟨.err, ⟨data, totalDataReceived⟩, bodyStartOffset, peer⟩

/-- Wait for the header in a buffer that is not absent. -/
def httpClientWaitForHeader (fuel : ℕ) (peer : Peer) (buffer : HttpBuffer) :
    Except Fault (Option HeaderWait) :=
  waitForHeaderLoop fuel peer buffer 0 0

/-! ## One call of `recv` -/

theorem Peer.recv_of_nil {peer : Peer} (h : peer.pieces = []) (size : ℕ) :
    peer.recv size = (peer.ending, [], peer) := by
  rw [Peer.recv, h]

/-- A call on a connection with bytes takes some of them, in order. -/
theorem Peer.recv_of_cons {peer : Peer} (h : peer.pieces ≠ []) {size : ℕ}
    (hsize : 0 < size) :
    ∃ bytes peer', peer.recv size = ((bytes.length : Int), bytes, peer') ∧
      0 < bytes.length ∧ bytes.length ≤ size ∧
      peer.stream = bytes ++ peer'.stream ∧ peer'.ending = peer.ending := by
  obtain ⟨pieces, ending, hending⟩ := peer
  obtain ⟨piece, pieces, rfl⟩ := List.exists_cons_of_ne_nil h
  have hpos : 0 < piece.val.length := List.length_pos_iff.mpr piece.property
  by_cases hlong : size < piece.val.length
  · have htake : (piece.val.take size).length = size := by
      rw [List.length_take]
      omega
    refine ⟨piece.val.take size, ⟨piece.rest hlong :: pieces, ending, hending⟩,
      ?_, by omega, by omega, ?_, rfl⟩
    · simp only [Peer.recv, dif_pos hlong, htake]
    · simp only [Peer.stream, List.map_cons, List.flatten_cons, Piece.rest]
      rw [← List.append_assoc, List.take_append_drop]
  · refine ⟨piece.val, ⟨pieces, ending, hending⟩, ?_, hpos, by omega, ?_, rfl⟩
    · simp only [Peer.recv, dif_neg hlong]
    · rfl

/-- No call gives bytes back to the connection. -/
theorem Peer.stream_recv_le (peer : Peer) (size : ℕ) :
    (peer.recv size).2.2.stream.length ≤ peer.stream.length := by
  rw [Peer.recv]
  split
  · exact le_rfl
  · next piece pieces hpieces =>
      split_ifs with hlong
      · simp only [Peer.stream, hpieces, List.map_cons, List.flatten_cons, List.length_append,
          Piece.rest, List.length_drop]
        omega
      · simp only [Peer.stream, hpieces, List.map_cons, List.flatten_cons,
          List.length_append]
        exact Nat.le_add_left _ _

theorem Peer.stream_eq_nil_iff (peer : Peer) :
    peer.stream = [] ↔ peer.pieces = [] := by
  constructor
  · intro hnil
    by_contra hpieces
    obtain ⟨bytes, peer', -, hpos, -, hstream, -⟩ :=
      Peer.recv_of_cons hpieces Nat.zero_lt_one
    rw [hnil, eq_comm, List.append_eq_nil_iff] at hstream
    rw [hstream.1] at hpos
    exact absurd hpos (Nat.lt_irrefl 0)
  · intro hpieces
    rw [Peer.stream, hpieces]
    rfl

/-! ## One iteration -/

/-- The cleared buffer with the bytes received so far. -/
def receivedBuffer (received : Bytes) : Bytes :=
  received ++ List.replicate
    (httpClientMaxDataSendBufferSize + 1 - received.length) 0

theorem copyIn_receivedBuffer {received bytes : Bytes}
    (hfit : received.length + bytes.length ≤
      httpClientMaxDataSendBufferSize + 1) :
    copyIn (receivedBuffer received) received.length bytes =
      .ok (receivedBuffer (received ++ bytes)) := by
  rw [receivedBuffer, copyIn_replicate received bytes (by omega), receivedBuffer,
    List.length_append, Nat.sub_sub]

theorem strstr_receivedBuffer {received : Bytes}
    (hfit : received.length ≤ httpClientMaxDataSendBufferSize)
    (needle : Bytes) :
    strstr (receivedBuffer received) needle = .ok (find needle (stringOf received)) :=
  strstr_zeros received needle (by omega)

/-- The iteration that is answered with `bytes`, none of them when the
connection is closed. -/
theorem waitForHeaderLoop_of_recv {peer peer' : Peer} {received bytes : Bytes}
    (hrecv : peer.recv (httpClientHeadMaxRespBufferSize - received.length) =
      ((bytes.length : Int), bytes, peer'))
    (hroom : received.length < httpClientHeadMaxRespBufferSize)
    (hfit : (received ++ bytes).length ≤ httpClientHeadMaxRespBufferSize)
    (fuel length offset : ℕ) :
    waitForHeaderLoop (fuel + 1) peer ⟨receivedBuffer received, length⟩ offset
        received.length =
      match find crlfcrlf (stringOf (received ++ bytes)) with
      | some headerEnd => .ok (some ⟨.success,
          ⟨receivedBuffer (received ++ bytes), (received ++ bytes).length⟩,
          headerEnd + crlfcrlf.length, peer'⟩)
      | none =>
          if (received ++ bytes).length < httpClientHeadMaxRespBufferSize then
            waitForHeaderLoop fuel peer' ⟨receivedBuffer (received ++ bytes), length⟩
              offset (received ++ bytes).length
          else .ok (some ⟨.err,
            ⟨receivedBuffer (received ++ bytes), (received ++ bytes).length⟩, offset,
            peer'⟩) := by
  have hsizes : httpClientHeadMaxRespBufferSize ≤
      httpClientMaxDataSendBufferSize := by decide
  have hle := hfit
  rw [List.length_append] at hle
  have hcopy : copyIn (receivedBuffer received) received.length bytes =
      .ok (receivedBuffer (received ++ bytes)) := copyIn_receivedBuffer (by omega)
  have hfind := strstr_receivedBuffer (hfit.trans hsizes) crlfcrlf
  have hpos : ¬ ((bytes.length : Int) < 0) := by omega
  rw [waitForHeaderLoop, subSize, if_pos hroom.le]
  simp only [ok_bind, hrecv, if_neg hpos, hcopy, Int.toNat_natCast, hfind,
    List.length_append]
  split
  · rfl
  · split
    · rfl
    · rfl

/-- The iteration that is answered with an error. -/
theorem waitForHeaderLoop_of_error {peer : Peer} (hnil : peer.pieces = [])
    (herror : peer.ending < 0) {received : Bytes}
    (hroom : received.length < httpClientHeadMaxRespBufferSize)
    (fuel length offset : ℕ) :
    waitForHeaderLoop (fuel + 1) peer ⟨receivedBuffer received, length⟩ offset
        received.length =
      .ok (some ⟨.err, ⟨receivedBuffer received, length⟩, offset, peer⟩) := by
  rw [waitForHeaderLoop, subSize, if_pos hroom.le]
  simp only [ok_bind, Peer.recv_of_nil hnil, if_pos herror]
  rfl

/-! ## Runs -/

/-- What the header is looked for in: the string in front of the bound. -/
def headBytes (stream : Bytes) : Bytes :=
  stringOf (stream.take httpClientHeadMaxRespBufferSize)

/-- The result that belongs to a stream. -/
structure HeaderFound (stream : Bytes) (out : HeaderWait) : Prop where
  status : out.status = .success ↔
    ∃ headerEnd, FirstAt crlfcrlf (headBytes stream) headerEnd
  offset : ∀ headerEnd, FirstAt crlfcrlf (headBytes stream) headerEnd →
    out.bodyStartOffset = headerEnd + crlfcrlf.length

theorem headBytes_of_le {received : Bytes}
    (hfit : received.length ≤ httpClientHeadMaxRespBufferSize) :
    headBytes received = stringOf received := by
  rw [headBytes, List.take_of_length_le hfit]

/-- Received bytes that fill the bound are all that is searched. -/
theorem headBytes_append_of_length_eq {received : Bytes}
    (hfull : received.length = httpClientHeadMaxRespBufferSize)
    (rest : Bytes) : headBytes (received ++ rest) = stringOf received := by
  rw [headBytes, List.take_append_of_le_length hfull.ge,
    List.take_of_length_le hfull.le]

/-- What is searched now starts what is searched in the end. -/
theorem stringOf_prefix_headBytes {received : Bytes}
    (hfit : received.length ≤ httpClientHeadMaxRespBufferSize)
    (rest : Bytes) : stringOf received <+: headBytes (received ++ rest) := by
  rw [headBytes, List.take_append, List.take_of_length_le hfit]
  exact stringOf_prefix_append _ _

/-- An error is the result of a stream without the end of a header. -/
theorem headerFound_of_err {stream : Bytes} {out : HeaderWait}
    (herr : out.status = .err)
    (habsent : ∀ headerEnd, ¬ FirstAt crlfcrlf (headBytes stream) headerEnd) :
    HeaderFound stream out := by
  constructor
  · rw [herr]
    constructor
    · intro hstatus
      cases hstatus
    · rintro ⟨headerEnd, hfirst⟩
      exact absurd hfirst (habsent headerEnd)
  · intro headerEnd hfirst
    exact absurd hfirst (habsent headerEnd)

/-- A loop that gets the end of the header, enough bytes or an error ends with
the result of the stream. -/
theorem waitForHeaderLoop_ends (peer : Peer) {received : Bytes}
    (hroom : received.length < httpClientHeadMaxRespBufferSize)
    (hnone : find crlfcrlf (stringOf received) = none)
    (hends : peer.ending < 0 ∨
      httpClientHeadMaxRespBufferSize ≤ (received ++ peer.stream).length ∨
      ∃ headerEnd, FirstAt crlfcrlf (headBytes (received ++ peer.stream))
        headerEnd) (length offset : ℕ) :
    ∃ fuel out, waitForHeaderLoop fuel peer ⟨receivedBuffer received, length⟩ offset
        received.length = .ok (some out) ∧
      HeaderFound (received ++ peer.stream) out := by
  have hcrlf : crlfcrlf ≠ [] := List.cons_ne_nil _ _
  induction hrest : peer.stream.length using Nat.strong_induction_on
    generalizing peer received with
  | _ rest ih =>
      by_cases hnil : peer.pieces = []
      · have hstream := peer.stream_eq_nil_iff.mpr hnil
        rw [hstream, List.append_nil] at hends ⊢
        have habsent := (find_eq_none_iff hcrlf).mp hnone
        rw [← headBytes_of_le hroom.le] at habsent
        have herror : peer.ending < 0 := by
          rcases hends with herror | hlong | ⟨headerEnd, hfirst⟩
          · exact herror
          · omega
          · exact absurd hfirst (habsent headerEnd)
        exact ⟨1, _, waitForHeaderLoop_of_error hnil herror hroom 0 length
          offset, headerFound_of_err rfl habsent⟩
      · obtain ⟨bytes, peer', hrecv, hpos, hsize, hstream, hending⟩ :=
          Peer.recv_of_cons hnil (Nat.sub_pos_of_lt hroom)
        have hfit : (received ++ bytes).length ≤
            httpClientHeadMaxRespBufferSize := by
          rw [List.length_append]
          omega
        have hall : received ++ peer.stream =
            (received ++ bytes) ++ peer'.stream := by
          rw [hstream, List.append_assoc]
        have hstep := waitForHeaderLoop_of_recv hrecv hroom hfit
        rw [hall] at hends ⊢
        cases hfind : find crlfcrlf (stringOf (received ++ bytes)) with
        | some headerEnd =>
            have hfirst := ((find_eq_some_iff hcrlf).mp hfind).mono hcrlf
              (stringOf_prefix_headBytes hfit peer'.stream)
            simp only [hfind] at hstep
            refine ⟨1, _, hstep 0 length offset, ?_, ?_⟩
            · exact ⟨fun _ => ⟨headerEnd, hfirst⟩, fun _ => rfl⟩
            · intro other hother
              rw [hother.unique hfirst]
        | none =>
            simp only [hfind] at hstep
            by_cases hmore : (received ++ bytes).length <
                httpClientHeadMaxRespBufferSize
            · have hshort : peer'.stream.length < rest := by
                have hlength := congrArg List.length hstream
                rw [List.length_append] at hlength
                omega
              obtain ⟨fuel, out, hloop, hfound⟩ := ih _ hshort peer' hmore hfind
                (by rw [hending]; exact hends) rfl
              refine ⟨fuel + 1, out, ?_, hfound⟩
              rw [hstep, if_pos hmore]
              exact hloop
            · have habsent := (find_eq_none_iff hcrlf).mp hfind
              rw [← headBytes_append_of_length_eq (by omega) peer'.stream]
                at habsent
              exact ⟨1, _, (hstep 0 length offset).trans (if_neg hmore),
                headerFound_of_err rfl habsent⟩

/-- A loop whose peer closes the connection in front of the end of the header
is still running after any number of iterations. -/
theorem waitForHeaderLoop_runs (fuel : ℕ) {peer : Peer} (hclosed : peer.ending = 0)
    {received : Bytes}
    (hshort : (received ++ peer.stream).length <
      httpClientHeadMaxRespBufferSize)
    (habsent : ∀ headerEnd,
      ¬ FirstAt crlfcrlf (headBytes (received ++ peer.stream)) headerEnd)
    (length offset : ℕ) :
    waitForHeaderLoop fuel peer ⟨receivedBuffer received, length⟩ offset
      received.length = .ok none := by
  have hcrlf : crlfcrlf ≠ [] := List.cons_ne_nil _ _
  induction fuel generalizing peer received with
  | zero => rfl
  | succ fuel ih =>
      have hlength := hshort
      rw [List.length_append] at hlength
      have hroom : received.length < httpClientHeadMaxRespBufferSize := by omega
      obtain ⟨bytes, peer', hrecv, hstream, hclosed'⟩ : ∃ bytes peer',
          peer.recv (httpClientHeadMaxRespBufferSize - received.length) =
            ((bytes.length : Int), bytes, peer') ∧
          peer.stream = bytes ++ peer'.stream ∧ peer'.ending = 0 := by
        by_cases hnil : peer.pieces = []
        · refine ⟨[], peer, ?_, rfl, hclosed⟩
          rw [Peer.recv_of_nil hnil, hclosed]
          rfl
        · obtain ⟨bytes, peer', hrecv, -, -, hstream, hending⟩ :=
            Peer.recv_of_cons hnil (Nat.sub_pos_of_lt hroom)
          exact ⟨bytes, peer', hrecv, hstream, hending.trans hclosed⟩
      have hall : received ++ peer.stream =
          (received ++ bytes) ++ peer'.stream := by
        rw [hstream, List.append_assoc]
      rw [hall] at hshort habsent
      have hfit : (received ++ bytes).length <
          httpClientHeadMaxRespBufferSize := by
        rw [List.length_append] at hshort
        omega
      have hfind : find crlfcrlf (stringOf (received ++ bytes)) = none := by
        rw [find_eq_none_iff hcrlf]
        intro headerEnd hfirst
        apply habsent headerEnd
        rw [headBytes_of_le hshort.le]
        exact hfirst.mono hcrlf (stringOf_prefix_append _ _)
      have hstep := waitForHeaderLoop_of_recv hrecv hroom hfit.le
      simp only [hfind, if_pos hfit] at hstep
      rw [hstep]
      exact ih hclosed' hshort habsent

theorem httpClientWaitForHeader_runs (fuel : ℕ) {peer : Peer}
    (hclosed : peer.ending = 0)
    (hshort : peer.stream.length < httpClientHeadMaxRespBufferSize)
    (habsent : ∀ headerEnd,
      ¬ FirstAt crlfcrlf (headBytes peer.stream) headerEnd) :
    httpClientWaitForHeader fuel peer httpBufferClear = .ok none :=
  @waitForHeaderLoop_runs fuel peer hclosed [] hshort habsent 0 0

theorem waitForHeaderLoop_succ {fuel : ℕ} {peer : Peer} {buffer : HttpBuffer}
    {offset total : ℕ} {out : HeaderWait}
    (h : waitForHeaderLoop fuel peer buffer offset total = .ok (some out)) :
    waitForHeaderLoop (fuel + 1) peer buffer offset total = .ok (some out) := by
  induction fuel generalizing peer buffer total with
  | zero => cases h
  | succ fuel ih =>
      rw [waitForHeaderLoop] at h ⊢
      obtain ⟨size, hsize, h⟩ := bind_eq_ok.mp h
      rw [hsize, ok_bind]
      dsimp only at h ⊢
      by_cases herror : (peer.recv size).1 < 0
      · rw [if_pos herror] at h ⊢
        exact h
      · rw [if_neg herror] at h ⊢
        obtain ⟨data, hdata, h⟩ := bind_eq_ok.mp h
        obtain ⟨found, hfound, h⟩ := bind_eq_ok.mp h
        rw [hdata, ok_bind, hfound, ok_bind]
        cases found with
        | some headerEnd => exact h
        | none =>
            dsimp only at h ⊢
            by_cases hmore : total + (peer.recv size).1.toNat <
                httpClientHeadMaxRespBufferSize
            · rw [if_pos hmore] at h ⊢
              exact ih h
            · rw [if_neg hmore] at h ⊢
              exact h

/-- A call that ends does so within any more iterations. -/
theorem httpClientWaitForHeader_mono {fuel : ℕ} {peer : Peer} {buffer : HttpBuffer}
    {out : HeaderWait} (h : httpClientWaitForHeader fuel peer buffer = .ok (some out))
    (more : ℕ) : httpClientWaitForHeader (fuel + more) peer buffer = .ok (some out) := by
  induction more with
  | zero => exact h
  | succ more ih => exact waitForHeaderLoop_succ ih

/-- The call ends, with the result of the stream and without a write outside
the buffer. -/
def WaitEnds (peer : Peer) : Prop :=
  ∃ fuel out, httpClientWaitForHeader fuel peer httpBufferClear =
    .ok (some out) ∧ HeaderFound peer.stream out

/-- The end of the header is found in time. -/
def HasHeader (peer : Peer) : Prop :=
  ∃ headerEnd, FirstAt crlfcrlf (headBytes peer.stream) headerEnd

/-- Without an error, enough bytes or the end of the header the call is still running
after any number of iterations. -/
theorem httpClientWaitForHeader_runs_of_not {peer : Peer}
    (hends : ¬ (peer.ending < 0 ∨
      httpClientHeadMaxRespBufferSize ≤ peer.stream.length ∨ HasHeader peer)) (fuel : ℕ) :
    httpClientWaitForHeader fuel peer httpBufferClear = .ok none := by
  simp only [not_or, HasHeader, not_exists] at hends
  obtain ⟨herror, hlong, habsent⟩ := hends
  have hle := peer.ending_le
  exact httpClientWaitForHeader_runs fuel (by omega) (Nat.not_le.mp hlong) habsent

/-- The call ends exactly for peers that end the connection with an error, send
as many bytes as it takes, or send the end of the header; a peer that closes
the connection before keeps it running. -/
theorem httpClientWaitForHeader_ends_iff (peer : Peer) :
    WaitEnds peer ↔ peer.ending < 0 ∨
      httpClientHeadMaxRespBufferSize ≤ peer.stream.length ∨
      HasHeader peer := by
  constructor
  · rintro ⟨fuel, out, hwait, -⟩
    by_contra hends
    rw [httpClientWaitForHeader_runs_of_not hends fuel] at hwait
    cases hwait
  · intro hends
    exact @waitForHeaderLoop_ends peer [] (by decide) (by decide) hends 0 0

/-- The status line `HTTP/1.1 200 OK`, and no end of the header. -/
def halfHeader : Piece :=
  ⟨[0x48, 0x54, 0x54, 0x50, 0x2F, 0x31, 0x2E, 0x31, 0x20, 0x32, 0x30, 0x30,
    0x20, 0x4F, 0x4B, 0x0D, 0x0A], by decide⟩

/-- A peer that closes the connection behind the status line. -/
theorem not_waitEnds_half_header :
    ¬ WaitEnds ⟨[halfHeader], 0, Int.le_refl 0⟩ := by
  rintro ⟨fuel, out, hwait, -⟩
  have hcrlf : crlfcrlf ≠ [] := List.cons_ne_nil _ _
  have hruns := httpClientWaitForHeader_runs fuel
    (show (Peer.mk [halfHeader] 0 (Int.le_refl 0)).ending = 0 from rfl)
    (by decide)
    ((find_eq_none_iff hcrlf).mp (by decide))
  rw [hwait] at hruns
  cases hruns

end RtpMulticast
