import RtpMulticast.Modem.DataCuts
import RtpMulticast.Modem.RxDelivery

/-!
# Data messages and the receive buffer

What a cut message does to the loop over the buffer: the loop hangs on a message of a
socket that is cut in its length, a Bluetooth message that is cut there is lost, and a
message that is larger than the buffer makes its function write behind it.
-/

namespace RtpMulticast

open ByteBuffer CStrings Text StreamScanner

section Pieces

variable {answers : ModemAnswers} {cmds : List ModemCmd} {cmd : ModemCmd}

/-- Less than a name is no direct command. -/
theorem DirectNames.findCmdDirectMatch_take (hs : DirectNames cmds) (hmem : cmd ∈ cmds)
    (hdirect : cmd.direct = true) {k : ℕ} (hk : k < cmd.cmd.length) :
    findCmdDirectMatch cmds (cmd.cmd.take k) = none := by
  rw [findCmdDirectMatch, List.find?_eq_none]
  intro other hother hmatch
  rw [Bool.and_eq_true, List.isPrefixOf_iff_prefix] at hmatch
  have hname := hs.prefixFree other hother cmd hmem hmatch.1 hdirect
    (hmatch.2.trans (List.take_prefix _ _))
  have hle := hmatch.2.length_le
  rw [hname, List.length_take] at hle
  omega

/-- A direct command stands in front when its name does. -/
theorem rxScan_name (answers : ModemAnswers) (hs : DirectNames cmds)
    (hfirst : findCmdDirectMatch cmds cmd.cmd = some cmd)
    (rest : Bytes) :
    rxScan answers cmds (cmd.cmd ++ rest) =
      if answers (.direct cmd rest) = -EAGAIN then none
      else some ((ModemCall.direct cmd rest).events answers,
        min (answers (.direct cmd rest)).toNat (cmd.cmd ++ rest).length) := by
  obtain ⟨hmem, hdirect⟩ := findCmdDirectMatch_mem hfirst
  obtain ⟨b, name, hname⟩ := List.exists_cons_of_ne_nil (hs.nonempty cmd hmem hdirect)
  have hb : isCrlf b = false :=
    hs.plain cmd hmem hdirect b (hname ▸ List.mem_cons_self)
  have hfound := hs.findCmdDirectMatch_append hfirst rest
  have hbytes : cmd.cmd ++ rest = b :: (name ++ rest) := by rw [hname, List.cons_append]
  rw [hbytes] at hfound
  have hscan := rxScan_direct answers hb hfound
  rwa [← hbytes, List.drop_left] at hscan

theorem rxScan_part_of_name (hs : DirectNames cmds)
    (hfirst : findCmdDirectMatch cmds cmd.cmd = some cmd) {k : ℕ} (hk : k < cmd.cmd.length) :
    rxScan answers cmds (cmd.cmd.take k) = none := by
  obtain ⟨hmem, hdirect⟩ := findCmdDirectMatch_mem hfirst
  apply rxScan_of_plain (hs.findCmdDirectMatch_take hmem hdirect hk)
  exact fun b hb => hs.plain cmd hmem hdirect b (List.mem_of_mem_take hb)

/-- The loop over the first `k` bytes of a direct message returns when they are less than
the name, or when the function waits or takes them. -/
theorem piece_returns_iff (hs : DirectNames cmds)
    (hfirst : findCmdDirectMatch cmds cmd.cmd = some cmd) {payload matchBuf : Bytes} {k : ℕ}
    (hlen : matchBuf.length = w61CmdMatchBuffSize) (hk : k ≤ (cmd.cmd ++ payload).length)
    (hall : 0 < answers (.direct cmd (payload.take (k - cmd.cmd.length))) →
      answers (.direct cmd (payload.take (k - cmd.cmd.length))) = k) :
    (∃ es rest, Returns answers cmds ⟨(cmd.cmd ++ payload).take k, matchBuf⟩ es rest) ↔
      k < cmd.cmd.length ∨
        answers (.direct cmd (payload.take (k - cmd.cmd.length))) = -EAGAIN ∨
        0 < answers (.direct cmd (payload.take (k - cmd.cmd.length))) := by
  have hdrains : (∃ es rest,
      Returns answers cmds ⟨(cmd.cmd ++ payload).take k, matchBuf⟩ es rest) ↔
      ∃ es rest, Drains (rxScan answers cmds) ((cmd.cmd ++ payload).take k) es rest :=
    exists_congr fun es => exists_congr fun rest => returns_iff_drains hlen
  rw [hdrains]
  by_cases hname : k < cmd.cmd.length
  · refine iff_of_true ⟨[], cmd.cmd.take k, ?_⟩ (Or.inl hname)
    rw [List.take_append_of_le_length hname.le]
    exact Drains.stop (rxScan_part_of_name hs hfirst hname)
  · obtain ⟨j, rfl⟩ := Nat.exists_eq_add_of_le (Nat.not_lt.mp hname)
    rw [Nat.add_sub_cancel_left] at hall ⊢
    rw [List.take_length_add_append]
    have hscan := rxScan_name answers hs hfirst (payload.take j)
    by_cases hagain : answers (.direct cmd (payload.take j)) = -EAGAIN
    · rw [if_pos hagain] at hscan
      exact iff_of_true ⟨[], _, Drains.stop hscan⟩ (Or.inr (Or.inl hagain))
    · rw [if_neg hagain] at hscan
      by_cases hpos : 0 < answers (.direct cmd (payload.take j))
      · have hlength : (cmd.cmd ++ payload.take j).length = cmd.cmd.length + j := by
          rw [List.length_append] at hk
          rw [List.length_append, List.length_take_of_le (by omega)]
        have hwhole : min (answers (.direct cmd (payload.take j))).toNat
            (cmd.cmd ++ payload.take j).length = (cmd.cmd ++ payload.take j).length := by
          rw [hall hpos, hlength, Int.toNat_natCast, min_self]
        rw [hwhole] at hscan
        have hrest : Drains (rxScan answers cmds) ((cmd.cmd ++ payload.take j).drop
            (cmd.cmd ++ payload.take j).length) [] [] := by
          rw [List.drop_length]
          exact Drains.stop rfl
        exact iff_of_true ⟨_, [], Drains.item hscan hrest⟩ (Or.inr (Or.inr hpos))
      · have hzero : (answers (.direct cmd (payload.take j))).toNat = 0 :=
          Int.toNat_of_nonpos (Int.not_lt.mp hpos)
        rw [hzero, Nat.zero_min] at hscan
        refine iff_of_false ?_ ?_
        · rintro ⟨es, rest, hdrains⟩
          exact not_drains_of_zero hscan hdrains
        · rintro (h | h | h)
          · exact hname h
          · exact hagain h
          · exact hpos h

end Pieces

/-! ## Cut messages of a socket -/

section Sockets

variable {answers : ModemAnswers} {cmds : List ModemCmd}

/-- The command that `W61_Net_PullDataFromSocket` installs. -/
def pulldataCmd : ModemCmd := modemCmdDirect "+CIPRECVDATA:"

/-- The answers of a command are those of its function. -/
def AnswersAs {ρ : Type*} (answers : ModemAnswers) (cmd : ModemCmd)
    (func : Bytes → ℕ → Except Fault (ℤ × ρ)) : Prop :=
  ∀ rest r, func (cmd.cmd ++ rest) cmd.cmd.length = .ok r → answers (.direct cmd rest) = r.1

/-- The answers of one function; what other functions see is taken. -/
def answersOf {ρ : Type*} (cmd : ModemCmd)
    (func : Bytes → ℕ → Except Fault (ℤ × ρ)) : ModemAnswers
  | .direct other rest =>
      if other = cmd then
        match func (cmd.cmd ++ rest) cmd.cmd.length with
        | .ok r => r.1
        | .error _ => 0
      else other.cmd.length
  | .line _ _ => 0

theorem answersAs_answersOf {ρ : Type*} (cmd : ModemCmd)
    (func : Bytes → ℕ → Except Fault (ℤ × ρ)) :
    AnswersAs (answersOf cmd func) cmd func := by
  intro rest r h
  rw [answersOf, if_pos rfl, h]

/-- The first `k` bytes of the answer to `AT+CIPRECVDATA` let the loop return exactly when
they end in the name of the answer or behind the comma of its length. -/
theorem pulldata_piece_returns_iff (hs : DirectNames cmds)
    (hfirst : findCmdDirectMatch cmds pulldataCmd.cmd = some pulldataCmd) {reqlen : ℕ}
    (hanswers : AnswersAs answers pulldataCmd (onCmdPulldata reqlen)) (f : CountedFrame)
    (hreqlen : f.data.length ≤ reqlen) (hfit : 13 + f.bytes.length < rxBufSize)
    {matchBuf : Bytes} (hlen : matchBuf.length = w61CmdMatchBuffSize) {k : ℕ}
    (hk : k ≤ 13 + f.bytes.length) :
    (∃ es rest,
        Returns answers cmds ⟨(pulldataCmd.cmd ++ f.bytes).take k, matchBuf⟩ es rest) ↔
      k < 13 ∨ 13 + f.size.text.length < k := by
  have hname : pulldataCmd.cmd.length = 13 := rfl
  have hlength : f.bytes.length = f.size.text.length + (f.data.length + 1) := by
    simp only [CountedFrame.bytes, List.length_append, List.length_cons]
  have hsmall : f.data.length < 2 ^ 16 := by
    have : rxBufSize < 2 ^ 16 := by decide
    omega
  have hanswer (j : ℕ) (hj : j ≤ f.bytes.length) :
      answers (.direct pulldataCmd (f.bytes.take j)) =
        if j ≤ f.size.text.length then -EINVAL
        else if j < f.bytes.length then -EAGAIN
        else ((13 + f.bytes.length : ℕ) : ℤ) := by
    have hreceived := rxCounted_received pulldataCmd.cmd reqlen f hsmall []
      (by rwa [List.append_nil]) (show 13 + j < rxBufSize by omega)
    rw [List.append_nil, if_pos hreqlen] at hreceived
    by_cases hcount : j ≤ f.size.text.length
    · rw [if_pos hcount] at hreceived ⊢
      exact hanswers _ _ hreceived
    · rw [if_neg hcount] at hreceived ⊢
      by_cases hpart : j < f.bytes.length
      · rw [if_pos hpart] at hreceived ⊢
        exact hanswers _ _ hreceived
      · rw [if_neg hpart] at hreceived ⊢
        exact hanswers _ _ hreceived
  have hj : k - 13 ≤ f.bytes.length := by omega
  have hk' : k ≤ (pulldataCmd.cmd ++ f.bytes).length := by
    rw [List.length_append]
    exact hk
  have hall : 0 < answers (.direct pulldataCmd (f.bytes.take (k - 13))) →
      answers (.direct pulldataCmd (f.bytes.take (k - 13))) = k := by
    rw [hanswer _ hj, EINVAL, EAGAIN]
    split
    · omega
    · split <;> omega
  rw [piece_returns_iff hs hfirst hlen hk' hall, hname, hanswer _ hj, EINVAL, EAGAIN]
  split
  · omega
  · split <;> omega

theorem pulldata_piece_returns_iff_length :
    (∃ es rest, Returns (answersOf pulldataCmd (onCmdPulldata 20)) (modemCmds [pulldataCmd])
        ⟨(pulldataCmd.cmd ++ ascii "12,twelve bytes").take 15,
          List.replicate w61CmdMatchBuffSize 0⟩ es rest) ↔ 15 < 13 ∨ 13 + 2 < 15 := by
  have hs : DirectNames (modemCmds [pulldataCmd]) := by
    constructor <;> decide +kernel
  let f : CountedFrame :=
    ⟨⟨ascii "12", by decide +kernel, by decide +kernel, by decide +kernel⟩,
      ascii "twelve bytes", by decide +kernel⟩
  exact pulldata_piece_returns_iff hs (by decide +kernel) (answersAs_answersOf _ _) f
    (by decide +kernel) (by decide +kernel) List.length_replicate (by decide +kernel)

end Sockets

/-! ## Cut messages of a Bluetooth peer -/

section Ble

variable {answers : ModemAnswers} {cmds : List ModemCmd} {cmd : ModemCmd} {size : ℕ}
  {eventId : BleDataId}

theorem ble_answer (hanswers : AnswersAs answers cmd (onCmdBleDataEvent true (some size) eventId))
    (f : BleFrame eventId) (hsize : f.data.length ≤ size)
    (hfit : cmd.cmd.length + f.bytes.length < rxBufSize) {j : ℕ} (hj : j ≤ f.bytes.length) :
    answers (.direct cmd (f.bytes.take j)) =
      if j < f.head.length then -EINVAL
      else if j ≤ f.head.length + f.size.text.length then ((cmd.cmd.length + j : ℕ) : ℤ)
      else if j < f.bytes.length then -EAGAIN
      else ((cmd.cmd.length + f.bytes.length : ℕ) : ℤ) := by
  have hsmall : rxBufSize < 2 ^ 16 := by decide
  have hreceived := bleDataEvent_received f hsize (show cmd.cmd.length + f.bytes.length < 2 ^ 16
    by omega) [] (by rwa [List.append_nil]) (show cmd.cmd.length + j < rxBufSize by omega)
  rw [List.append_nil] at hreceived
  rw [hanswers _ _ hreceived]
  split
  · rfl
  · split
    · rfl
    · split <;> rfl

/-- The first `k` bytes of a message with data let the loop return exactly when they end in
the name or reach the length. -/
theorem ble_piece_returns_iff (hs : DirectNames cmds)
    (hfirst : findCmdDirectMatch cmds cmd.cmd = some cmd)
    (hanswers : AnswersAs answers cmd (onCmdBleDataEvent true (some size) eventId))
    (f : BleFrame eventId) (hsize : f.data.length ≤ size)
    (hfit : cmd.cmd.length + f.bytes.length < rxBufSize) {matchBuf : Bytes}
    (hlen : matchBuf.length = w61CmdMatchBuffSize) {k : ℕ}
    (hk : k ≤ cmd.cmd.length + f.bytes.length) :
    (∃ es rest, Returns answers cmds ⟨(cmd.cmd ++ f.bytes).take k, matchBuf⟩ es rest) ↔
      k < cmd.cmd.length ∨ cmd.cmd.length + f.head.length ≤ k := by
  have hlength : f.bytes.length =
      f.head.length + (f.size.text.length + (f.data.length + 1)) := by
    simp only [BleFrame.bytes, List.length_append, List.length_cons]
  have hanswer := ble_answer hanswers f hsize hfit (show k - cmd.cmd.length ≤ f.bytes.length
    by omega)
  have hk' : k ≤ (cmd.cmd ++ f.bytes).length := by
    rw [List.length_append]
    exact hk
  have hpos : 0 < f.head.length := by
    rw [BleFrame.head, numerals_cons, List.length_append, List.length_cons]
    omega
  have hall : 0 < answers (.direct cmd (f.bytes.take (k - cmd.cmd.length))) →
      answers (.direct cmd (f.bytes.take (k - cmd.cmd.length))) = k := by
    rw [hanswer, EINVAL, EAGAIN]
    split
    · omega
    · split
      · omega
      · split <;> omega
  rw [piece_returns_iff hs hfirst hlen hk' hall, hanswer, EINVAL, EAGAIN]
  split
  · omega
  · split
    · omega
    · split <;> omega

theorem unsolCmds_directNames : DirectNames (modemCmds []) := by
  constructor <;> decide +kernel

/-- A write of two bytes of which only the connection is there. -/
def bleWriteFrame : BleFrame .write where
  conn := ⟨ascii "0", by decide +kernel, by decide +kernel, by decide +kernel⟩
  indices := [⟨ascii "1", by decide +kernel, by decide +kernel, by decide +kernel⟩,
    ⟨ascii "2", by decide +kernel, by decide +kernel, by decide +kernel⟩]
  size := ⟨ascii "12", by decide +kernel, by decide +kernel, by decide +kernel⟩
  data := ascii "twelve bytes"
  indices_length := rfl
  size_value := by decide +kernel
  nonempty := by decide +kernel

theorem ble_piece_returns_iff_write :
    (∃ es rest, Returns
        (answersOf (modemCmdDirect "+BLE:GATTWRITE:") (onCmdBleDataEvent true (some 20) .write))
        (modemCmds [])
        ⟨(ascii "+BLE:GATTWRITE:" ++ bleWriteFrame.bytes).take 18,
          List.replicate w61CmdMatchBuffSize 0⟩ es rest) ↔ 18 < 15 ∨ 15 + 6 ≤ 18 := by
  exact @ble_piece_returns_iff _ _ (modemCmdDirect "+BLE:GATTWRITE:") _ _
    unsolCmds_directNames (by decide +kernel) (answersAs_answersOf _ _) bleWriteFrame
    (by decide) (by decide +kernel) _ List.length_replicate 18 (by decide +kernel)

/-- A message that is cut in its length is lost: the loop takes what is there and keeps
nothing, and the application is told of nothing. -/
theorem ble_piece_lost (hs : DirectNames cmds)
    (hfirst : findCmdDirectMatch cmds cmd.cmd = some cmd)
    (hanswers : AnswersAs answers cmd (onCmdBleDataEvent true (some size) eventId))
    (f : BleFrame eventId) (hsize : f.data.length ≤ size)
    (hfit : cmd.cmd.length + f.bytes.length < rxBufSize) {matchBuf : Bytes}
    (hlen : matchBuf.length = w61CmdMatchBuffSize) {j : ℕ} (hhead : f.head.length ≤ j)
    (hcut : j ≤ f.head.length + f.size.text.length) :
    Returns answers cmds ⟨cmd.cmd ++ f.bytes.take j, matchBuf⟩
        [.direct cmd (f.bytes.take j)] [] ∧
      onCmdBleDataEvent true (some size) eventId (cmd.cmd ++ f.bytes.take j) cmd.cmd.length =
        .ok (((cmd.cmd.length + j : ℕ) : ℤ), none) := by
  have hlength : f.bytes.length =
      f.head.length + (f.size.text.length + (f.data.length + 1)) := by
    simp only [BleFrame.bytes, List.length_append, List.length_cons]
  have hsmall : rxBufSize < 2 ^ 16 := by decide
  have hreceived := bleDataEvent_received f hsize (show cmd.cmd.length + f.bytes.length < 2 ^ 16
    by omega) [] (show j ≤ (f.bytes ++ []).length by rw [List.append_nil]; omega)
    (show cmd.cmd.length + j < rxBufSize by omega)
  rw [List.append_nil, if_neg (by omega), if_pos hcut] at hreceived
  have hanswer : answers (.direct cmd (f.bytes.take j)) = ((cmd.cmd.length + j : ℕ) : ℤ) :=
    hanswers _ _ hreceived
  have hscan := rxScan_name answers hs hfirst (f.bytes.take j)
  have htotal : (cmd.cmd ++ f.bytes.take j).length = cmd.cmd.length + j := by
    rw [List.length_append, List.length_take_of_le (by omega)]
  have hgo : ((cmd.cmd.length + j : ℕ) : ℤ) ≠ -EAGAIN := by
    rw [EAGAIN]
    omega
  rw [hanswer, if_neg hgo, ModemCall.events, hanswer, if_neg hgo, Int.toNat_natCast,
    Nat.add_sub_cancel_left, List.take_take, min_self, htotal, min_self, ← htotal] at hscan
  refine ⟨(returns_iff_drains hlen).mpr ?_, hreceived⟩
  have hrest : Drains (rxScan answers cmds) ((cmd.cmd ++ f.bytes.take j).drop
      (cmd.cmd ++ f.bytes.take j).length) [] [] := by
    rw [List.drop_length]
    exact Drains.stop rfl
  exact Drains.item hscan hrest

/-- Of the length 12 the first digit is there. -/
theorem ble_piece_lost_write :
    Returns
        (answersOf (modemCmdDirect "+BLE:GATTWRITE:") (onCmdBleDataEvent true (some 20) .write))
        (modemCmds [])
        ⟨ascii "+BLE:GATTWRITE:" ++ ascii "0,1,2,1", List.replicate w61CmdMatchBuffSize 0⟩
        [.direct (modemCmdDirect "+BLE:GATTWRITE:") (ascii "0,1,2,1")] [] ∧
      onCmdBleDataEvent true (some 20) .write (ascii "+BLE:GATTWRITE:" ++ ascii "0,1,2,1") 15 =
        .ok (22, none) := by
  exact @ble_piece_lost _ _ (modemCmdDirect "+BLE:GATTWRITE:") _ _
    unsolCmds_directNames (by decide +kernel) (answersAs_answersOf _ _) bleWriteFrame
    (by decide) (by decide +kernel) _ List.length_replicate 7 (by decide) (by decide)

end Ble

/-! ## Messages larger than the buffer -/

section Oversized

variable {answers : ModemAnswers} {cmds : List ModemCmd} {cmd : ModemCmd} {size : ℕ}

/-- A stream of which nothing is handed on before the buffer is full fills the buffer. -/
theorem fills_buffer {stream : Bytes} {low : ℕ}
    (hwaits : ∀ front, front <+: stream → low ≤ front.length → front.length < rxBufSize →
      rxScan answers cmds front = none) (hlong : rxBufSize ≤ stream.length)
    (messages : List Bytes) (kept : Bytes) {matchBuf : Bytes}
    (hstream : kept ++ messages.flatten = stream) (hkept : kept.length < rxBufSize)
    (hfirst : ∀ message ∈ messages.head?, low ≤ kept.length + message.length)
    (hlen : matchBuf.length = w61CmdMatchBuffSize) :
    ∃ k calls data messages' data' messages'',
      processTask answers cmds 1 k ⟨kept, matchBuf⟩ messages =
        .ok (some (calls, data, messages')) ∧
      processIfaceData data messages' = some (0, data', messages'') ∧
      data'.rxBuf = stream.take rxBufSize := by
  induction messages generalizing kept matchBuf with
  | nil =>
      rw [List.flatten_nil, List.append_nil] at hstream
      rw [hstream] at hkept
      omega
  | cons message messages ih =>
      rw [List.flatten_cons] at hstream
      have hroom : rxBufSize - kept.length ≠ 0 := by omega
      have hread : processIfaceData ⟨kept, matchBuf⟩ (message :: messages) =
          some (0, ⟨kept ++ message.take (rxBufSize - kept.length), matchBuf⟩, messages) := by
        rw [processIfaceData, if_neg hroom]
      by_cases hfull : rxBufSize - kept.length ≤ message.length
      · refine ⟨0, [], ⟨kept, matchBuf⟩, message :: messages, _, messages, rfl, hread, ?_⟩
        have hsize : rxBufSize = kept.length + (rxBufSize - kept.length) := by omega
        rw [← hstream, hsize, List.take_length_add_append, Nat.add_sub_cancel_left,
          List.take_append_of_le_length hfull]
      · have hlow := hfirst message rfl
        have hall : message.take (rxBufSize - kept.length) = message :=
          List.take_of_length_le (by omega)
        rw [hall] at hread
        have hfront : kept ++ message <+: stream := by
          rw [← hstream, ← List.append_assoc]
          exact List.prefix_append _ _
        have hwait : rxScan answers cmds (kept ++ message) = none := by
          refine hwaits _ hfront ?_ ?_
          · rwa [List.length_append]
          · rw [List.length_append]
            omega
        obtain ⟨calls, matchBuf', hrun, -, hlen'⟩ := processRxBuf_waits hwait hlen 0
        have hnext : ∀ next ∈ messages.head?,
            low ≤ (kept ++ message).length + next.length := by
          intro next _
          rw [List.length_append]
          omega
        obtain ⟨k, calls', data, messages', data', messages'', htask, hread', hdata⟩ :=
          ih _ (by rw [List.append_assoc, hstream]) (by rw [List.length_append]; omega) hnext hlen'
        refine ⟨k + 1, calls ++ calls', data, messages', data', messages'', ?_, hread', hdata⟩
        rw [processTask, hread]
        dsimp only
        rw [hrun, ok_bind]
        dsimp only
        rw [htask]
        rfl

/-- The command of `on_cmd_mqtt_data_event`. -/
def mqttDataCmd : ModemCmd := modemCmdDirect "+MQTT:SUBRECV:"

/-- The message of a subscription that is larger than the buffer fills it, and its function
then stores its NUL behind the buffer. -/
theorem mqtt_oversized_overruns (hs : DirectNames cmds)
    (hfirst : findCmdDirectMatch cmds mqttDataCmd.cmd = some mqttDataCmd) {stale : Bytes}
    (hanswers : AnswersAs answers mqttDataCmd (mqttDataEvent (some size) stale)) (f : MqttFrame)
    (hsize : f.topic.length + f.message.length + 1 ≤ size)
    (hfit : 14 + f.bytes.length < 2 ^ 16) (hlong : rxBufSize ≤ 14 + f.bytes.length)
    {message : Bytes} {messages : List Bytes} (more : Bytes)
    (hstream : (message :: messages).flatten = mqttDataCmd.cmd ++ (f.bytes ++ more))
    (hheader : 16 + f.sizes.length ≤ message.length) {matchBuf : Bytes}
    (hlen : matchBuf.length = w61CmdMatchBuffSize) :
    ∃ k calls data messages' data' messages'',
      processTask answers cmds 1 k ⟨[], matchBuf⟩ (message :: messages) =
        .ok (some (calls, data, messages')) ∧
      processIfaceData data messages' = some (0, data', messages'') ∧
      findCmdDirectMatch cmds data'.rxBuf = some mqttDataCmd ∧
      mqttDataEvent (some size) stale data'.rxBuf 14 = .error .outOfBounds := by
  have hname : mqttDataCmd.cmd.length = 14 := rfl
  have hwaits : ∀ front, front <+: mqttDataCmd.cmd ++ (f.bytes ++ more) →
      16 + f.sizes.length ≤ front.length → front.length < rxBufSize →
      rxScan answers cmds front = none := by
    intro front hfront hlow hlt
    obtain ⟨rest, rfl⟩ := List.prefix_of_prefix_length_le (List.prefix_append mqttDataCmd.cmd _)
      hfront (by omega)
    rw [List.prefix_append_right_inj] at hfront
    rw [List.length_append, hname] at hlow hlt
    have hrest : (f.bytes ++ more).take rest.length = rest :=
      (List.prefix_iff_eq_take.mp hfront).symm
    have hreceived := mqttDataEvent_received mqttDataCmd.cmd f hsize hfit stale more
      (show 2 ≤ rest.length by omega) hfront.length_le hlt
    rw [if_neg (by omega), if_pos (by omega), hrest] at hreceived
    have hanswer : answers (.direct mqttDataCmd rest) = -EAGAIN := hanswers _ _ hreceived
    rw [rxScan_name answers hs hfirst rest, if_pos hanswer]
  have hlongStream : rxBufSize ≤ (mqttDataCmd.cmd ++ (f.bytes ++ more)).length := by
    rw [List.length_append, List.length_append, hname]
    omega
  obtain ⟨k, calls, data, messages', data', messages'', htask, hread, hdata⟩ :=
    fills_buffer hwaits hlongStream (message :: messages) [] hstream (by decide +kernel)
      (by simpa using hheader) hlen
  have hfull : data'.rxBuf.length = rxBufSize := by
    rw [hdata, List.length_take_of_le hlongStream]
  refine ⟨k, calls, data, messages', data', messages'', htask, hread, ?_, ?_⟩
  · have hsplit : rxBufSize = mqttDataCmd.cmd.length + 1506 := rfl
    rw [hdata, hsplit, List.take_length_add_append]
    exact hs.findCmdDirectMatch_append hfirst _
  · rw [mqttDataEvent, terminateRxBuf, hfull, if_neg (Nat.lt_irrefl _)]
    rfl

/-- A message of 1600 letters, in two pieces. -/
theorem mqtt_oversized_overruns_letters :
    ∃ k calls data messages' data' messages'',
      processTask
          (answersOf mqttDataCmd (mqttDataEvent (some 2000) [])) (modemCmds []) 1 k
          ⟨[], List.replicate w61CmdMatchBuffSize 0⟩
          [ascii "+MQTT:SUBRECV:0,1,1600,", ascii "\"t\"," ++ List.replicate 1600 0x41] =
        .ok (some (calls, data, messages')) ∧
      processIfaceData data messages' = some (0, data', messages'') ∧
      findCmdDirectMatch (modemCmds []) data'.rxBuf = some mqttDataCmd ∧
      mqttDataEvent (some 2000) [] data'.rxBuf 14 = .error .outOfBounds := by
  have hlength : (List.replicate 1600 (0x41 : UInt8)).length = 1600 := List.length_replicate
  let f : MqttFrame :=
    { link := ascii "0,"
      topicSize := ⟨ascii "1", by decide +kernel, by decide +kernel, by decide +kernel⟩
      messageSize := ⟨ascii "1600", by decide +kernel, by decide +kernel, by decide +kernel⟩
      topic := ascii "\"t\""
      message := List.replicate 1600 0x41
      link_length := rfl
      topic_length := by decide +kernel
      message_length := by rw [List.length_replicate]; decide }
  have hbytes : f.bytes = ascii "0,1,1600,\"t\"," ++ List.replicate 1600 0x41 := rfl
  refine mqtt_oversized_overruns unsolCmds_directNames (by decide +kernel)
    (answersAs_answersOf _ _) f ?_ ?_ ?_ [] ?_ (by decide +kernel) List.length_replicate
  · rw [hlength]
    decide
  · rw [hbytes, List.length_append, hlength]
    decide
  · rw [hbytes, List.length_append, hlength]
    decide
  · rw [List.append_nil, hbytes, List.flatten_cons, List.flatten_cons, List.flatten_nil,
      List.append_nil, ← List.append_assoc, ← List.append_assoc]
    rfl

end Oversized

end RtpMulticast
