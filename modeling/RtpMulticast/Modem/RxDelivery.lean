import RtpMulticast.Modem.RxStream

/-!
# What reaches the functions of the commands

Lines and direct messages, in whatever pieces the bus brings them, reach the functions
of their commands in order and with their parameters.  The loop over the buffer hangs
exactly when a function of a direct command takes nothing, and a message that does not
fit the buffer ends all reading.
-/

namespace RtpMulticast

open ByteBuffer CStrings Text QuotedFields StreamScanner

/-! ## Messages of the modem -/

/-- A message of the modem: a line with its parameters, or a direct message. -/
inductive ModemFrame where
  | line (cmd : ModemCmd) (params : List Bytes) (sep : UInt8)
  | direct (cmd : ModemCmd) (payload : Bytes)
  deriving DecidableEq, Repr

/-- The text of a line. -/
def lineText (cmd : ModemCmd) (params : List Bytes) (sep : UInt8) : Bytes :=
  cmd.cmd ++ [sep].intercalate params

/-- The parameters that `parse_params` has room for. -/
def ModemCmd.argCountLimit (cmd : ModemCmd) : ℕ :=
  min cmd.argCountMax modemCmdHandlerMaxParamCount

def ModemFrame.bytes : ModemFrame → Bytes
  | .line cmd params sep => lineText cmd params sep ++ [0x0D, 0x0A]
  | .direct cmd payload => cmd.cmd ++ payload

def ModemFrame.events : ModemFrame → List ModemEvent
  | .line cmd params _ => [.line cmd (params.take cmd.argCountLimit)]
  | .direct cmd payload => [.direct cmd payload]

/-- A line that its command can be recognised from, and whose parameters can be told
apart. -/
structure ValidLine (answers : ModemAnswers) (cmds : List ModemCmd) (cmd : ModemCmd)
    (params : List Bytes) (sep : UInt8) : Prop where
  nonempty : lineText cmd params sep ≠ []
  short : (lineText cmd params sep).length < w61CmdMatchBuffSize
  plain : ∀ b ∈ lineText cmd params sep, b ≠ 0 ∧ isCrlf b = false
  noDirect : findCmdDirectMatch cmds (lineText cmd params sep) = none
  found : findCmdMatch cmds (lineText cmd params sep) = some cmd
  closed : ∀ p ∈ params, Closed cmd.marks p
  delim : params.length ≤ 1 ∨ sep ∈ cmd.delim ∧ sep ≠ 0x22
  last : params.getLast? ≠ some [] ∨ cmd.argCountLimit < params.length
  enough : cmd.argCountMax = 0 ∨ cmd.argCountMin ≤ (params.take cmd.argCountLimit).length
  answer : answers (.line cmd (params.take cmd.argCountLimit)) ≠ -EAGAIN

/-- A direct message that its function takes as a whole. -/
structure ValidDirect (answers : ModemAnswers) (cmds : List ModemCmd) (cmd : ModemCmd)
    (payload : Bytes) : Prop where
  found : findCmdDirectMatch cmds (cmd.cmd ++ payload) = some cmd
  answer : answers (.direct cmd payload) = cmd.cmd.length + payload.length

def ModemFrame.Valid (answers : ModemAnswers) (cmds : List ModemCmd) : ModemFrame → Prop
  | .line cmd params sep => ValidLine answers cmds cmd params sep
  | .direct cmd payload => ValidDirect answers cmds cmd payload

section Frames

variable {answers : ModemAnswers} {cmds : List ModemCmd} {cmd : ModemCmd}
  {params : List Bytes} {sep : UInt8} {payload : Bytes}

theorem mem_intercalate_of_mem {p : Bytes} {b : UInt8} (hp : p ∈ params) (hb : b ∈ p) :
    b ∈ [sep].intercalate params := by
  induction params with
  | nil => exact absurd hp List.not_mem_nil
  | cons q params ih =>
      cases params with
      | nil =>
          rw [List.mem_singleton] at hp
          rwa [List.intercalate_singleton, ← hp]
      | cons r params =>
          rw [List.intercalate_cons_cons]
          rcases List.mem_cons.mp hp with rfl | hp
          · exact List.mem_append_left _ (List.mem_append_left _ hb)
          · exact List.mem_append_right _ (ih hp)

theorem ValidLine.stringOf_text (h : ValidLine answers cmds cmd params sep) :
    stringOf (lineText cmd params sep) = lineText cmd params sep := by
  rw [stringOf, List.takeWhile_eq_self_iff]
  intro b hb
  exact decide_eq_true (h.plain b hb).1

theorem ValidLine.stringOf_param (h : ValidLine answers cmds cmd params sep) {p : Bytes}
    (hp : p ∈ params) : stringOf p = p := by
  rw [stringOf, List.takeWhile_eq_self_iff]
  intro b hb
  exact decide_eq_true
    (h.plain b (List.mem_append_right _ (mem_intercalate_of_mem hp hb))).1

/-- The parameters of a line are read back. -/
theorem ValidLine.lineCall_eq (h : ValidLine answers cmds cmd params sep) :
    lineCall cmds (lineText cmd params sep) =
      some (.line cmd (params.take cmd.argCountLimit)) := by
  rw [lineCall, h.stringOf_text, h.found]
  dsimp only
  by_cases hmax : cmd.argCountMax = 0
  · rw [if_pos hmax, ModemCmd.argCountLimit, hmax, Nat.zero_min, List.take_zero]
  · have hparams : cmd.params modemCmdHandlerMaxParamCount
        ((lineText cmd params sep).drop cmd.cmd.length) = params.take cmd.argCountLimit := by
      rw [lineText, List.drop_left]
      exact fields_intercalate h.closed h.delim h.last
    have hstrings : (params.take cmd.argCountLimit).map stringOf =
        params.take cmd.argCountLimit :=
      (List.map_congr_left fun p hp => h.stringOf_param (List.mem_of_mem_take hp)).trans
        (List.map_id _)
    have henough := h.enough.resolve_left hmax
    rw [if_neg hmax, hparams, if_neg (Nat.not_lt.mpr henough), hstrings]

theorem ValidLine.reads (hs : Steady answers cmds)
    (h : ValidLine answers cmds cmd params sep) :
    Reads (rxScan answers cmds) (ModemFrame.line cmd params sep).bytes
      (ModemFrame.line cmd params sep).events := by
  have hline : ∀ b ∈ lineText cmd params sep, isCrlf b = false :=
    fun b hb => (h.plain b hb).2
  have hmatch : matchLine (lineText cmd params sep) = lineText cmd params sep :=
    List.take_of_length_le (Nat.le_sub_one_of_lt h.short)
  have hfirst : rxScan answers cmds (lineText cmd params sep ++ [0x0D]) =
      some ((ModemFrame.line cmd params sep).events,
        (lineText cmd params sep ++ [0x0D]).length) := by
    rw [rxScan_line answers h.nonempty hline rfl
      (hs.findCmdDirectMatch_line rfl h.noDirect []), hmatch, h.lineCall_eq]
    dsimp only
    rw [if_neg h.answer, ModemCall.events, if_neg h.answer, List.length_append]
    rfl
  have hsecond : rxScan answers cmds [0x0A] = some ([], [(0x0A : UInt8)].length) :=
    rxScan_crlf answers rfl []
  have hreads := (Reads.of_item hs.stable hfirst).append (Reads.of_item hs.stable hsecond)
  rwa [List.append_nil, List.append_assoc] at hreads

theorem ValidDirect.reads (hs : Steady answers cmds)
    (h : ValidDirect answers cmds cmd payload) :
    Reads (rxScan answers cmds) (ModemFrame.direct cmd payload).bytes
      (ModemFrame.direct cmd payload).events := by
  obtain ⟨hmem, hdirect⟩ := findCmdDirectMatch_mem h.found
  obtain ⟨b, name, hname⟩ := List.exists_cons_of_ne_nil (hs.nonempty cmd hmem hdirect)
  have hb : isCrlf b = false :=
    hs.plain cmd hmem hdirect b (hname ▸ List.mem_cons_self)
  have hbytes : cmd.cmd ++ payload = b :: (name ++ payload) := by
    rw [hname, List.cons_append]
  have hanswer : answers (.direct cmd payload) ≠ -EAGAIN := by
    rw [h.answer, EAGAIN]
    omega
  have hfound := h.found
  rw [hbytes] at hfound
  have hscan := rxScan_direct answers hb hfound
  rw [← hbytes, List.drop_left, if_neg hanswer, h.answer, ModemCall.events, if_neg hanswer,
    h.answer] at hscan
  refine Reads.of_item hs.stable (hscan.trans ?_)
  have hlen : ((cmd.cmd.length : ℤ) + payload.length).toNat =
      cmd.cmd.length + payload.length := by omega
  have hall : min (cmd.cmd.length + payload.length) (cmd.cmd ++ payload).length =
      (ModemFrame.direct cmd payload).bytes.length := by
    rw [List.length_append, min_self, ModemFrame.bytes, List.length_append]
  rw [hlen, hall, Nat.add_sub_cancel_left, List.take_length]
  rfl

theorem ModemFrame.Valid.reads (hs : Steady answers cmds) {frame : ModemFrame}
    (h : frame.Valid answers cmds) :
    Reads (rxScan answers cmds) frame.bytes frame.events := by
  cases frame with
  | line cmd params sep => exact ValidLine.reads hs h
  | direct cmd payload => exact ValidDirect.reads hs h

end Frames

/-! ## Delivery -/

section Delivery

variable {answers : ModemAnswers} {cmds : List ModemCmd}

/-- Messages of the modem, cut in any pieces that are small enough for the buffer, reach
the functions of their commands: each once, in order, with its parameters. -/
theorem messages_delivered (hs : Steady answers cmds) {frames : List ModemFrame}
    (hvalid : ∀ frame ∈ frames, frame.Valid answers cmds) (size piece : ℕ) (hsize : 0 < size)
    (hframe : ∀ frame ∈ frames, frame.bytes.length ≤ size) (messages : List Bytes)
    (hmessages : messages.flatten = frames.flatMap ModemFrame.bytes)
    (hpiece : ∀ message ∈ messages, message ≠ [] ∧ message.length ≤ piece)
    (hroom : size + piece ≤ rxBufSize + 1) {matchBuf : Bytes}
    (hlen : matchBuf.length = w61CmdMatchBuffSize) :
    ∃ N, ∀ n ≥ N, ∃ calls matchBuf',
      processTask answers cmds n messages.length ⟨[], matchBuf⟩ messages =
        .ok (some (calls, ⟨[], matchBuf'⟩, [])) ∧
      calls.flatMap (ModemCall.events answers) = frames.flatMap ModemFrame.events := by
  have hreads : ∀ frame ∈ frames, Reads (rxScan answers cmds) frame.bytes frame.events ∧
      frame.bytes.length ≤ size :=
    fun frame hmem => ⟨(hvalid frame hmem).reads hs, hframe frame hmem⟩
  have hfeeds := feeds_frames hs.stable hs.progresses rfl hsize hreads hmessages
    (fun message hmem => (hpiece message hmem).2) hroom
  exact processTask_of_feeds hfeeds (fun message hmem => (hpiece message hmem).1) hlen

theorem sendData_steady : Steady sendDataAnswers (modemCmds sendDataCmds) where
  nonempty := by decide +kernel
  plain := by decide +kernel
  prefixFree := by decide +kernel
  inside := by
    intro cmd hmem rxBuf _
    have hpos : 0 < cmd.cmd.length :=
      (show ∀ cmd ∈ modemCmds sendDataCmds, 0 < cmd.cmd.length by decide) cmd hmem
    rw [sendDataAnswers]
    omega
  append := fun _ _ _ _ _ => rfl

/-- The prompt, the confirmation of the data and the end of the answer, in four pieces. -/
theorem messages_delivered_prompt :
    ∃ N, ∀ n ≥ N, ∃ calls matchBuf',
      processTask sendDataAnswers (modemCmds sendDataCmds) n 4
          ⟨[], List.replicate w61CmdMatchBuffSize 0⟩
          [ascii ">Re", ascii "cv 512", ascii " bytes\r", ascii "\nOK\r\n"] =
        .ok (some (calls, ⟨[], matchBuf'⟩, [])) ∧
      calls.flatMap (ModemCall.events sendDataAnswers) =
        [.direct (modemCmdDirect ">") [],
          .line (modemCmd "Recv " 1 " ") [ascii "512"], .line (modemCmd "OK" 0 "") []] := by
  have hrecv : ValidLine sendDataAnswers (modemCmds sendDataCmds) (modemCmd "Recv " 1 " ")
      [ascii "512", ascii "bytes"] 0x20 := by
    constructor <;> decide +kernel
  have hok : ValidLine sendDataAnswers (modemCmds sendDataCmds) (modemCmd "OK" 0 "") [] 0 := by
    constructor <;> decide +kernel
  have hprompt : ValidDirect sendDataAnswers (modemCmds sendDataCmds) (modemCmdDirect ">") [] := by
    constructor <;> decide +kernel
  have hvalid : ∀ frame ∈ [ModemFrame.direct (modemCmdDirect ">") [],
      .line (modemCmd "Recv " 1 " ") [ascii "512", ascii "bytes"] 0x20,
      .line (modemCmd "OK" 0 "") [] 0],
      frame.Valid sendDataAnswers (modemCmds sendDataCmds) := by
    intro frame hmem
    simp only [List.mem_cons, List.not_mem_nil, or_false] at hmem
    rcases hmem with rfl | rfl | rfl
    · exact hprompt
    · exact hrecv
    · exact hok
  exact messages_delivered sendData_steady hvalid 20 20 (by decide) (by decide +kernel)
    [ascii ">Re", ascii "cv 512", ascii " bytes\r", ascii "\nOK\r\n"] (by decide +kernel)
    (by decide +kernel) (by decide) List.length_replicate

/-- Whatever the bytes, the pieces they arrive in make no difference, as long as each
finds room. -/
theorem pieces_make_no_difference (hs : Steady answers cmds) {n : ℕ} {matchBuf : Bytes}
    (hlen : matchBuf.length = w61CmdMatchBuffSize) {messages messages' : List Bytes}
    (hsame : messages.flatten = messages'.flatten)
    (hroom : findRoom answers cmds n ⟨[], matchBuf⟩ messages = true)
    (hroom' : findRoom answers cmds n ⟨[], matchBuf⟩ messages' = true)
    {calls calls' : List ModemCall} {data data' : ModemData}
    (hrun : processTask answers cmds n messages.length ⟨[], matchBuf⟩ messages =
      .ok (some (calls, data, [])))
    (hrun' : processTask answers cmds n messages'.length ⟨[], matchBuf⟩ messages' =
      .ok (some (calls', data', []))) :
    calls.flatMap (ModemCall.events answers) = calls'.flatMap (ModemCall.events answers) ∧
      data.rxBuf = data'.rxBuf :=
  (feeds_of_processTask hroom hlen hrun).unique hs.stable rfl
    (feeds_of_processTask hroom' hlen hrun') hsame

/-- A line and a prompt, once in two pieces and once in one. -/
theorem pieces_make_no_difference_prompt :
    ∃ calls calls' data,
      processTask sendDataAnswers (modemCmds sendDataCmds) 9 2
          ⟨[], List.replicate w61CmdMatchBuffSize 0⟩ [ascii "O", ascii "K\r\n>"] =
        .ok (some (calls, data, [])) ∧
      processTask sendDataAnswers (modemCmds sendDataCmds) 9 1
          ⟨[], List.replicate w61CmdMatchBuffSize 0⟩ [ascii "OK\r\n>"] =
        .ok (some (calls', data, [])) ∧
      calls.flatMap (ModemCall.events sendDataAnswers) =
        calls'.flatMap (ModemCall.events sendDataAnswers) := by
  have hrun : processTask sendDataAnswers (modemCmds sendDataCmds) 9 2
      ⟨[], List.replicate w61CmdMatchBuffSize 0⟩ [ascii "O", ascii "K\r\n>"] =
      .ok (some ([.line (modemCmd "OK" 0 "") [], .direct (modemCmdDirect ">") []],
        ⟨[], ascii "OK" ++ List.replicate 254 0⟩, [])) := by decide +kernel
  have hrun' : processTask sendDataAnswers (modemCmds sendDataCmds) 9 1
      ⟨[], List.replicate w61CmdMatchBuffSize 0⟩ [ascii "OK\r\n>"] =
      .ok (some ([.line (modemCmd "OK" 0 "") [], .direct (modemCmdDirect ">") []],
        ⟨[], ascii "OK" ++ List.replicate 254 0⟩, [])) := by decide +kernel
  have hroom : findRoom sendDataAnswers (modemCmds sendDataCmds) 9
      ⟨[], List.replicate w61CmdMatchBuffSize 0⟩ [ascii "O", ascii "K\r\n>"] = true := by
    decide +kernel
  have hroom' : findRoom sendDataAnswers (modemCmds sendDataCmds) 9
      ⟨[], List.replicate w61CmdMatchBuffSize 0⟩ [ascii "OK\r\n>"] = true := by
    decide +kernel
  have hsame : [ascii "O", ascii "K\r\n>"].flatten = [ascii "OK\r\n>"].flatten := by
    decide +kernel
  exact ⟨_, _, _, hrun, hrun', (pieces_make_no_difference sendData_steady
    List.length_replicate hsame hroom hroom' hrun hrun').1⟩

/-- A direct command stands in front whose function takes nothing, and does not wait. -/
def Stuck (answers : ModemAnswers) (cmds : List ModemCmd) (rxBuf : Bytes) : Prop :=
  ∃ b bytes cmd, rxBuf = b :: bytes ∧ isCrlf b = false ∧
    findCmdDirectMatch cmds rxBuf = some cmd ∧
    answers (.direct cmd (rxBuf.drop cmd.cmd.length)) ≤ 0 ∧
    answers (.direct cmd (rxBuf.drop cmd.cmd.length)) ≠ -EAGAIN

theorem stuck_iff_zero {rxBuf : Bytes} :
    Stuck answers cmds rxBuf ↔ ∃ es, rxScan answers cmds rxBuf = some (es, 0) := by
  constructor
  · rintro ⟨b, bytes, cmd, rfl, hb, hdirect, hle, hanswer⟩
    refine ⟨(ModemCall.direct cmd ((b :: bytes).drop cmd.cmd.length)).events answers, ?_⟩
    rw [rxScan_direct answers hb hdirect, if_neg hanswer, Int.toNat_of_nonpos hle,
      Nat.zero_min]
  · rintro ⟨es, h⟩
    cases rxFront_of_item answers h with
    | crlf hb =>
        rw [rxScan_crlf answers hb] at h
        exact absurd (Prod.mk.inj (Option.some.inj h)).2 Nat.one_ne_zero
    | @direct b bytes cmd hb hdirect =>
        refine ⟨b, bytes, cmd, rfl, hb, hdirect, ?_⟩
        rw [rxScan_direct answers hb hdirect] at h
        by_cases hanswer : answers (.direct cmd ((b :: bytes).drop cmd.cmd.length)) = -EAGAIN
        · rw [if_pos hanswer] at h
          exact absurd h.symm (Option.some_ne_none _)
        · rw [if_neg hanswer] at h
          have hzero := (Prod.mk.inj (Option.some.inj h)).2
          rw [List.length_cons] at hzero
          exact ⟨by omega, hanswer⟩
    | line hne hline hc hdirect =>
        exact absurd (length_of_rxScan_line hne hline hc hdirect h).symm (Nat.succ_ne_zero _)

/-- The loop over the buffer returns exactly when it comes to no direct command whose
function takes nothing: that function is called again and again with the same bytes. -/
theorem returns_iff_not_stuck {data : ModemData}
    (hlen : data.matchBuf.length = w61CmdMatchBuffSize) :
    (∃ es rest, Returns answers cmds data es rest) ↔
      ¬ ∃ rxBuf, Passes (rxScan answers cmds) data.rxBuf rxBuf ∧
        Stuck answers cmds rxBuf := by
  have hdrains : (∃ es rest, Returns answers cmds data es rest) ↔
      ∃ es rest, Drains (rxScan answers cmds) data.rxBuf es rest :=
    exists_congr fun es => exists_congr fun rest => returns_iff_drains hlen
  rw [hdrains, drains_iff rxScan_inside]
  simp only [stuck_iff_zero, exists_and_left]

theorem returns_iff_not_stuck_prompt :
    (∃ es rest, Returns sendDataAnswers (modemCmds sendDataCmds)
        ⟨ascii ">OK", List.replicate w61CmdMatchBuffSize 0⟩ es rest) ↔
      ¬ ∃ rxBuf, Passes (rxScan sendDataAnswers (modemCmds sendDataCmds)) (ascii ">OK") rxBuf ∧
        Stuck sendDataAnswers (modemCmds sendDataCmds) rxBuf :=
  returns_iff_not_stuck List.length_replicate

/-- The buffer holds the beginning of the stream, and the rest still waits unless the
buffer is full. -/
structure HoldsFront (stream rxBuf : Bytes) (queue : List Bytes) : Prop where
  front : rxBuf <+: stream
  size : rxBuf.length ≤ rxBufSize
  queue : rxBuf.length < rxBufSize → rxBuf ++ queue.flatten = stream

theorem HoldsFront.read {stream rxBuf matchBuf : Bytes} {queue : List Bytes}
    (h : HoldsFront stream rxBuf queue) :
    processIfaceData ⟨rxBuf, matchBuf⟩ queue = none ∨
      ∃ err rxBuf' queue', processIfaceData ⟨rxBuf, matchBuf⟩ queue =
          some (err, ⟨rxBuf', matchBuf⟩, queue') ∧
        rxBuf <+: rxBuf' ∧ HoldsFront stream rxBuf' queue' := by
  by_cases hfull : rxBufSize - rxBuf.length = 0
  · refine Or.inr ⟨-ENOMEM, rxBuf, queue, ?_, List.prefix_refl _, h⟩
    rw [processIfaceData.eq_def, if_pos hfull]
  · cases queue with
    | nil =>
        refine Or.inl ?_
        rw [processIfaceData, if_neg hfull]
    | cons message queue =>
        have hstream := h.queue (by omega)
        rw [List.flatten_cons, ← List.append_assoc] at hstream
        refine Or.inr ⟨0, rxBuf ++ message.take (rxBufSize - rxBuf.length), queue, ?_,
          List.prefix_append _ _, ?_, ?_, ?_⟩
        · rw [processIfaceData, if_neg hfull]
        · rw [← hstream, List.append_assoc]
          exact (List.prefix_append_right_inj rxBuf).mpr
            ((List.take_prefix _ _).trans (List.prefix_append _ _))
        · rw [List.length_append, List.length_take]
          omega
        · intro hlt
          rw [List.length_append, List.length_take] at hlt
          rw [List.take_of_length_le (by omega), hstream]

/-- When nothing in front of the stream, as far as the buffer reaches, is an item, then
nothing of the stream is ever handed on, however long the task runs and whatever follows:
a full buffer is not read into any more. -/
theorem full_buffer_ends_reading {kept matchBuf : Bytes} {messages : List Bytes}
    (hwaits : ∀ front, kept <+: front → front <+: kept ++ messages.flatten →
      front.length ≤ rxBufSize → rxScan answers cmds front = none)
    (hkept : kept.length ≤ rxBufSize) (hlen : matchBuf.length = w61CmdMatchBuffSize)
    (n k : ℕ) :
    ∃ calls data messages', processTask answers cmds (n + 1) k ⟨kept, matchBuf⟩ messages =
        .ok (some (calls, data, messages')) ∧
      calls.flatMap (ModemCall.events answers) = [] ∧
      HoldsFront (kept ++ messages.flatten) data.rxBuf messages' := by
  suffices h : ∀ rxBuf matchBuf queue, kept <+: rxBuf →
      HoldsFront (kept ++ messages.flatten) rxBuf queue →
      matchBuf.length = w61CmdMatchBuffSize →
      ∃ calls data messages', processTask answers cmds (n + 1) k ⟨rxBuf, matchBuf⟩ queue =
          .ok (some (calls, data, messages')) ∧
        calls.flatMap (ModemCall.events answers) = [] ∧
        HoldsFront (kept ++ messages.flatten) data.rxBuf messages' from
    h kept matchBuf messages (List.prefix_refl _)
      ⟨List.prefix_append _ _, hkept, fun _ => rfl⟩ hlen
  induction k with
  | zero =>
      intro rxBuf matchBuf queue _ hholds _
      exact ⟨[], ⟨rxBuf, matchBuf⟩, queue, rfl, rfl, hholds⟩
  | succ k ih =>
      intro rxBuf matchBuf queue hfront hholds hlen
      rcases hholds.read with hread | ⟨err, rxBuf', queue', hread, hgrows, hholds'⟩
      · refine ⟨[], ⟨rxBuf, matchBuf⟩, queue, ?_, rfl, hholds⟩
        rw [processTask, hread]
      · obtain ⟨calls, matchBuf', hrun, hcalls, hlen'⟩ := processRxBuf_waits
          (hwaits rxBuf' (hfront.trans hgrows) hholds'.front hholds'.size) hlen n
        obtain ⟨calls', data, messages', htask, hcalls', hkept'⟩ :=
          ih rxBuf' matchBuf' queue' (hfront.trans hgrows) hholds' hlen'
        refine ⟨calls ++ calls', data, messages', ?_, ?_, hkept'⟩
        · rw [processTask, hread]
          dsimp only
          rw [hrun, ok_bind]
          dsimp only
          rw [htask]
          rfl
        · rw [List.flatMap_append, hcalls, hcalls']
          rfl

/-- Bytes without an end of line. -/
theorem rxScan_of_plain {rxBuf : Bytes} (hdirect : findCmdDirectMatch cmds rxBuf = none)
    (hplain : ∀ b ∈ rxBuf, isCrlf b = false) : rxScan answers cmds rxBuf = none := by
  cases rxBuf with
  | nil => rfl
  | cons b bytes =>
      rw [rxScan, hplain b List.mem_cons_self, if_neg Bool.false_ne_true, hdirect]
      dsimp only
      rw [List.findIdx?_eq_none_iff.mpr hplain]

/-- A line that is longer than the buffer, and an answer behind it. -/
theorem full_buffer_ends_reading_line :
    ∃ calls data messages', processTask sendDataAnswers (modemCmds sendDataCmds) 9 5
          ⟨[], List.replicate w61CmdMatchBuffSize 0⟩
          [List.replicate 1000 0x41, List.replicate 1000 0x41, ascii "OK\r\n"] =
        .ok (some (calls, data, messages')) ∧
      calls.flatMap (ModemCall.events sendDataAnswers) = [] ∧
      HoldsFront ([] ++ [List.replicate 1000 0x41, List.replicate 1000 0x41,
        ascii "OK\r\n"].flatten) data.rxBuf messages' := by
  refine full_buffer_ends_reading ?_ (Nat.zero_le _) List.length_replicate 8 5
  intro front _ hfront hsize
  have hstream : [] ++ [List.replicate 1000 (0x41 : UInt8), List.replicate 1000 0x41,
      ascii "OK\r\n"].flatten = List.replicate 2000 0x41 ++ ascii "OK\r\n" := by
    rw [List.nil_append, List.flatten_cons, List.flatten_cons, List.flatten_cons,
      ← List.append_assoc, List.replicate_append_replicate]
    rfl
  rw [hstream] at hfront
  have hletters : front <+: List.replicate 2000 0x41 := by
    refine List.prefix_of_prefix_length_le hfront (List.prefix_append _ _) ?_
    rw [List.length_replicate]
    exact hsize.trans (by decide)
  rw [(List.prefix_replicate_iff.mp hletters).2]
  apply rxScan_of_plain
  · cases front.length <;> rfl
  · intro b hb
    rw [List.eq_of_mem_replicate hb]
    rfl

end Delivery

end RtpMulticast
