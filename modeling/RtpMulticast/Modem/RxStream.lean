import RtpMulticast.Modem.RxRounds

/-!
# The stream of the modem

The task of the command handler appends one message of the bus after the other to the
receive buffer and processes what is there.  A message that does not fit is cut, and a
full buffer is not read into any more.
-/

namespace RtpMulticast

open ByteBuffer CStrings QuotedFields StreamScanner

/-! ## The task -/

/-- `cmd_handler_process_iface_data` with the messages that wait on the bus; without a
message it blocks.  `spi_read` drops what does not fit. -/
def processIfaceData (data : ModemData) (messages : List Bytes) :
    Option (ℤ × ModemData × List Bytes) :=
  let room := rxBufSize - data.rxBuf.length
  if room = 0 then some (-ENOMEM, data, messages)
  else match messages with
    | [] => none
    | message :: messages =>
        some (0, { data with rxBuf := data.rxBuf ++ message.take room }, messages)

/-- The iterations of `cmd_handler_process` and of the task around it, which calls it
again at once; each takes at most `n` rounds over the buffer. -/
def processTask (answers : ModemAnswers) (cmds : List ModemCmd) (n : ℕ) :
    ℕ → ModemData → List Bytes →
      Except Fault (Option (List ModemCall × ModemData × List Bytes))
  | 0, data, messages => .ok (some ([], data, messages))
  | k + 1, data, messages =>
      match processIfaceData data messages with
      | none => .ok (some ([], data, messages))
      | some (_, data, messages) => do
          match ← processRxBuf answers cmds n data with
          | none => return none
          | some (calls, data) =>
              let rest ← processTask answers cmds n k data messages
              return rest.map fun r => (calls ++ r.1, r.2)

/-! ## What the functions of direct commands must do -/

/-- The names of direct commands are told apart as they arrive. -/
structure DirectNames (cmds : List ModemCmd) : Prop where
  nonempty : ∀ cmd ∈ cmds, cmd.direct = true → cmd.cmd ≠ []
  plain : ∀ cmd ∈ cmds, cmd.direct = true → ∀ b ∈ cmd.cmd, isCrlf b = false
  prefixFree : ∀ cmd ∈ cmds, ∀ cmd' ∈ cmds, cmd.direct = true → cmd'.direct = true →
    cmd.cmd <+: cmd'.cmd → cmd.cmd = cmd'.cmd

/-- A function that has taken its bytes would take the same ones with more bytes behind
them. -/
structure Steady (answers : ModemAnswers) (cmds : List ModemCmd) : Prop
    extends DirectNames cmds where
  inside : ∀ cmd ∈ cmds, ∀ rxBuf, answers (.direct cmd rxBuf) ≠ -EAGAIN →
    0 < answers (.direct cmd rxBuf) ∧
      answers (.direct cmd rxBuf) ≤ cmd.cmd.length + rxBuf.length
  append : ∀ cmd ∈ cmds, ∀ rxBuf, answers (.direct cmd rxBuf) ≠ -EAGAIN →
    ∀ more, answers (.direct cmd (rxBuf ++ more)) = answers (.direct cmd rxBuf)

section Stable

variable {answers : ModemAnswers} {cmds : List ModemCmd}

theorem findCmdDirectMatch_mem {rxBuf : Bytes} {cmd : ModemCmd}
    (h : findCmdDirectMatch cmds rxBuf = some cmd) : cmd ∈ cmds ∧ cmd.direct = true := by
  have hfound := List.find?_some h
  rw [Bool.and_eq_true] at hfound
  exact ⟨List.mem_of_find?_eq_some h, hfound.1⟩

/-- A line is read with the byte that ends it. -/
theorem length_of_rxScan_line {line rest : Bytes} {c : UInt8} {es : List ModemEvent} {n : ℕ}
    (hne : line ≠ []) (hline : ∀ b ∈ line, isCrlf b = false) (hc : isCrlf c = true)
    (hdirect : findCmdDirectMatch cmds (line ++ c :: rest) = none)
    (h : rxScan answers cmds (line ++ c :: rest) = some (es, n)) : n = line.length + 1 := by
  rw [rxScan_line answers hne hline hc hdirect] at h
  split at h
  · exact (Prod.mk.inj (Option.some.inj h)).2.symm
  · split at h
    · exact absurd h.symm (Option.some_ne_none _)
    · exact (Prod.mk.inj (Option.some.inj h)).2.symm

/-- The item in front is inside the buffer. -/
theorem rxScan_inside {rxBuf : Bytes} {es : List ModemEvent} {n : ℕ}
    (h : rxScan answers cmds rxBuf = some (es, n)) : n ≤ rxBuf.length := by
  cases rxFront_of_item answers h with
  | crlf hb =>
      rw [rxScan_crlf answers hb] at h
      obtain ⟨-, rfl⟩ := Prod.mk.inj (Option.some.inj h)
      exact Nat.succ_le_succ (Nat.zero_le _)
  | direct hb hdirect =>
      rw [rxScan_direct answers hb hdirect] at h
      split at h
      · exact absurd h.symm (Option.some_ne_none _)
      · obtain ⟨-, rfl⟩ := Prod.mk.inj (Option.some.inj h)
        exact min_le_right _ _
  | @line line rest c hne hline hc hdirect =>
      rw [length_of_rxScan_line hne hline hc hdirect h, List.length_append, List.length_cons]
      omega

/-- A direct command that is recognised stays the one that is recognised. -/
theorem DirectNames.findCmdDirectMatch_append (hs : DirectNames cmds) {rxBuf : Bytes}
    {cmd : ModemCmd} (h : findCmdDirectMatch cmds rxBuf = some cmd) (more : Bytes) :
    findCmdDirectMatch cmds (rxBuf ++ more) = some cmd := by
  obtain ⟨hmem, hdirect⟩ := findCmdDirectMatch_mem h
  have hfront := findCmdDirectMatch_isPrefix h
  obtain ⟨-, before, after, hcmds, hbefore⟩ := List.find?_eq_some_iff_append.mp h
  refine List.find?_eq_some_iff_append.mpr ⟨?_, before, after, hcmds, ?_⟩
  · rw [Bool.and_eq_true]
    exact ⟨hdirect, List.isPrefixOf_iff_prefix.mpr (hfront.trans (List.prefix_append _ _))⟩
  · intro other hother
    have hnot := hbefore other hother
    have hmem' : other ∈ cmds := by
      rw [hcmds]
      exact List.mem_append_left _ hother
    cases hdir : other.direct with
    | false => rfl
    | true =>
        rw [hdir, Bool.true_and, Bool.not_eq_true'] at hnot
        rw [Bool.true_and, Bool.not_eq_true']
        by_contra hmatch
        rw [Bool.not_eq_false, List.isPrefixOf_iff_prefix] at hmatch
        have heq : other.cmd = cmd.cmd := by
          rcases List.prefix_or_prefix_of_prefix hmatch
            (hfront.trans (List.prefix_append rxBuf more)) with hp | hp
          · exact hs.prefixFree other hmem' cmd hmem hdir hdirect hp
          · exact (hs.prefixFree cmd hmem other hmem' hdirect hdir hp).symm
        rw [heq, List.isPrefixOf_iff_prefix.mpr hfront] at hnot
        exact absurd hnot.symm Bool.false_ne_true

theorem findCmdDirectMatch_of_append {rxBuf more : Bytes}
    (h : findCmdDirectMatch cmds (rxBuf ++ more) = none) :
    findCmdDirectMatch cmds rxBuf = none := by
  rw [findCmdDirectMatch, List.find?_eq_none] at h ⊢
  intro cmd hmem hmatch
  rw [Bool.and_eq_true, List.isPrefixOf_iff_prefix] at hmatch
  apply h cmd hmem
  rw [Bool.and_eq_true, List.isPrefixOf_iff_prefix]
  exact ⟨hmatch.1, hmatch.2.trans (List.prefix_append _ _)⟩

/-- The end of a line, and what is behind it, make nothing a direct command. -/
theorem DirectNames.findCmdDirectMatch_line (hs : DirectNames cmds) {line : Bytes} {c : UInt8}
    (hc : isCrlf c = true) (h : findCmdDirectMatch cmds line = none) (more : Bytes) :
    findCmdDirectMatch cmds (line ++ c :: more) = none := by
  rw [findCmdDirectMatch, List.find?_eq_none] at h ⊢
  intro cmd hmem hmatch
  rw [Bool.and_eq_true, List.isPrefixOf_iff_prefix] at hmatch
  obtain ⟨hdirect, hmatch⟩ := hmatch
  have hle : cmd.cmd.length ≤ line.length := by
    by_contra hlong
    have hfront : line ++ [c] <+: cmd.cmd := by
      refine List.prefix_of_prefix_length_le ?_ hmatch ?_
      · rw [List.append_cons line c more]
        exact List.prefix_append _ _
      · rw [List.length_append, List.length_singleton]
        omega
    have hmem_c : c ∈ cmd.cmd :=
      hfront.subset (List.mem_append_right _ List.mem_cons_self)
    rw [hs.plain cmd hmem hdirect c hmem_c] at hc
    exact absurd hc Bool.false_ne_true
  have hfront : cmd.cmd <+: line :=
    List.prefix_of_prefix_length_le hmatch (List.prefix_append _ _) hle
  apply h cmd hmem
  rw [Bool.and_eq_true, List.isPrefixOf_iff_prefix]
  exact ⟨hdirect, hfront⟩

/-- A direct command that was taken takes the same bytes when more follow. -/
theorem Steady.events_append (hs : Steady answers cmds) {cmd : ModemCmd} (hmem : cmd ∈ cmds)
    {rxBuf : Bytes} (hanswer : answers (.direct cmd rxBuf) ≠ -EAGAIN) (more : Bytes) :
    (ModemCall.direct cmd (rxBuf ++ more)).events answers =
      (ModemCall.direct cmd rxBuf).events answers := by
  have hsame := hs.append cmd hmem rxBuf hanswer more
  have hle : (answers (.direct cmd rxBuf)).toNat - cmd.cmd.length ≤ rxBuf.length := by
    have := (hs.inside cmd hmem rxBuf hanswer).2
    omega
  rw [ModemCall.events, ModemCall.events, hsame, if_neg hanswer, if_neg hanswer,
    List.take_append_of_le_length hle]

theorem Steady.rxScan_append (hs : Steady answers cmds) {rxBuf : Bytes}
    {item : List ModemEvent × ℕ} (h : rxScan answers cmds rxBuf = some item) (more : Bytes) :
    rxScan answers cmds (rxBuf ++ more) = some item := by
  cases rxFront_of_item answers h with
  | crlf hb =>
      rw [rxScan_crlf answers hb] at h
      rw [List.cons_append, rxScan_crlf answers hb, h]
  | @direct b bytes cmd hb hdirect =>
      have hmem := (findCmdDirectMatch_mem hdirect).1
      obtain ⟨rest, hrest⟩ := findCmdDirectMatch_isPrefix hdirect
      have hmore := hs.findCmdDirectMatch_append hdirect more
      have hdrop : (b :: bytes).drop cmd.cmd.length = rest := by
        rw [← hrest, List.drop_left]
      have hdrop' : (b :: bytes ++ more).drop cmd.cmd.length = rest ++ more := by
        rw [← hrest, List.append_assoc, List.drop_left]
      rw [rxScan_direct answers hb hdirect, hdrop] at h
      rw [List.cons_append] at hmore hdrop'
      rw [List.cons_append, rxScan_direct answers hb hmore, hdrop']
      by_cases hanswer : answers (.direct cmd rest) = -EAGAIN
      · rw [if_pos hanswer] at h
        exact absurd h.symm (Option.some_ne_none _)
      · have hlen : (b :: bytes).length = cmd.cmd.length + rest.length := by
          rw [← hrest, List.length_append]
        have hle : (answers (.direct cmd rest)).toNat ≤ (b :: bytes).length := by
          have := (hs.inside cmd hmem rest hanswer).2
          omega
        have hle' : (answers (.direct cmd rest)).toNat ≤ (b :: (bytes ++ more)).length := by
          rw [← List.cons_append, List.length_append]
          omega
        rw [if_neg hanswer, min_eq_left hle] at h
        rw [hs.append cmd hmem rest hanswer more, if_neg hanswer,
          hs.events_append hmem hanswer more, min_eq_left hle', h]
  | @line line rest c hne hline hc hdirect =>
      have hmore := hs.findCmdDirectMatch_line hc (findCmdDirectMatch_of_append hdirect)
        (rest ++ more)
      rw [rxScan_line answers hne hline hc hdirect] at h
      rw [List.append_assoc, List.cons_append, rxScan_line answers hne hline hc hmore, h]

theorem Steady.stable (hs : Steady answers cmds) : Stable (rxScan answers cmds) where
  inside := rxScan_inside
  append := hs.rxScan_append

theorem Steady.progresses (hs : Steady answers cmds) : Progresses (rxScan answers cmds) := by
  intro rxBuf es n h
  cases rxFront_of_item answers h with
  | crlf hb =>
      rw [rxScan_crlf answers hb] at h
      obtain ⟨-, rfl⟩ := Prod.mk.inj (Option.some.inj h)
      exact Nat.one_pos
  | direct hb hdirect =>
      rw [rxScan_direct answers hb hdirect] at h
      split at h
      · exact absurd h.symm (Option.some_ne_none _)
      · next hanswer =>
          obtain ⟨-, rfl⟩ := Prod.mk.inj (Option.some.inj h)
          have hpos := (hs.inside _ (findCmdDirectMatch_mem hdirect).1 _ hanswer).1
          exact lt_min (Int.pos_iff_toNat_pos.mp hpos) (Nat.succ_pos _)
  | @line line rest c hne hline hc hdirect =>
      rw [length_of_rxScan_line hne hline hc hdirect h]
      exact Nat.succ_pos _

end Stable

/-! ## The task and the pieces of the stream -/

section Task

variable {answers : ModemAnswers} {cmds : List ModemCmd}

theorem processRxBuf_mono {n m : ℕ} {data : ModemData} {result : List ModemCall × ModemData}
    (h : processRxBuf answers cmds n data = .ok (some result)) (hle : n ≤ m) :
    processRxBuf answers cmds m data = .ok (some result) := by
  induction n generalizing m data result with
  | zero =>
      exact absurd (Except.ok.inj h).symm (Option.some_ne_none _)
  | succ n ih =>
      obtain ⟨m, rfl⟩ := Nat.exists_eq_add_of_le' (Nat.le_trans (Nat.succ_pos n) hle)
      rw [processRxBuf] at h ⊢
      by_cases hnil : data.rxBuf.length = 0
      · rwa [if_pos hnil] at h ⊢
      · rw [if_neg hnil] at h ⊢
        obtain ⟨round, hround, h⟩ := bind_eq_ok.mp h
        rw [hround, ok_bind]
        cases round with
        | leave calls data' => exact h
        | next calls data' =>
            obtain ⟨rest, hrest, h⟩ := bind_eq_ok.mp h
            cases rest with
            | none => exact absurd (Except.ok.inj h).symm (Option.some_ne_none _)
            | some rest =>
                dsimp only
                rw [ih hrest (Nat.le_of_succ_le_succ hle)]
                exact h

theorem processIfaceData_of_fit {data : ModemData} {message : Bytes} {messages : List Bytes}
    (hne : message ≠ []) (hfit : data.rxBuf.length + message.length ≤ rxBufSize) :
    processIfaceData data (message :: messages) =
      some (0, ⟨data.rxBuf ++ message, data.matchBuf⟩, messages) := by
  have hpos : 0 < message.length := List.length_pos_iff.mpr hne
  have hroom : rxBufSize - data.rxBuf.length ≠ 0 := by omega
  have hall : message.length ≤ rxBufSize - data.rxBuf.length := by omega
  rw [processIfaceData, if_neg hroom, List.take_of_length_le hall]

/-- Messages that find room are read one after the other. -/
theorem processTask_of_feeds {rxBuf rest matchBuf : Bytes} {messages : List Bytes}
    {es : List ModemEvent}
    (h : Feeds (rxScan answers cmds) rxBufSize rxBuf messages es rest)
    (hne : ∀ message ∈ messages, message ≠ [])
    (hlen : matchBuf.length = w61CmdMatchBuffSize) :
    ∃ N, ∀ n ≥ N, ∃ calls matchBuf',
      processTask answers cmds n messages.length ⟨rxBuf, matchBuf⟩ messages =
        .ok (some (calls, ⟨rest, matchBuf'⟩, [])) ∧
      calls.flatMap (ModemCall.events answers) = es := by
  induction h generalizing matchBuf with
  | nil rxBuf => exact ⟨0, fun n _ => ⟨[], matchBuf, rfl, rfl⟩⟩
  | @cons rxBuf message kept rest messages es es' hfit hdrains hfeeds ih =>
      obtain ⟨n₁, calls, data, hrun, rfl, rfl⟩ := processRxBuf_complete hdrains hlen
      have hkept := (processRxBuf_some hlen hrun).2
      obtain ⟨N, hrest⟩ := ih (fun m hm => hne m (List.mem_cons_of_mem _ hm)) hkept
      have hread := @processIfaceData_of_fit ⟨rxBuf, matchBuf⟩ message messages
        (hne message List.mem_cons_self) hfit
      refine ⟨max n₁ N, fun n hn => ?_⟩
      obtain ⟨calls', matchBuf', htask, hcalls⟩ := hrest n (le_of_max_le_right hn)
      refine ⟨calls ++ calls', matchBuf', ?_, ?_⟩
      · rw [List.length_cons, processTask, hread]
        dsimp only
        rw [processRxBuf_mono hrun (le_of_max_le_left hn), ok_bind]
        dsimp only
        rw [htask]
        rfl
      · rw [List.flatMap_append, hcalls]

/-- Every message finds room behind what the ones before it left. -/
def findRoom (answers : ModemAnswers) (cmds : List ModemCmd) (n : ℕ) :
    ModemData → List Bytes → Bool
  | _, [] => true
  | data, message :: messages =>
      decide (message ≠ [] ∧ data.rxBuf.length + message.length ≤ rxBufSize) &&
        match processRxBuf answers cmds n { data with rxBuf := data.rxBuf ++ message } with
        | .ok (some (_, data')) => findRoom answers cmds n data' messages
        | _ => true

/-- A run of the task over messages that find room reads them as pieces of a stream. -/
theorem feeds_of_processTask {n : ℕ} {data data' : ModemData} {messages : List Bytes}
    {calls : List ModemCall} (hroom : findRoom answers cmds n data messages = true)
    (hlen : data.matchBuf.length = w61CmdMatchBuffSize)
    (h : processTask answers cmds n messages.length data messages =
      .ok (some (calls, data', []))) :
    Feeds (rxScan answers cmds) rxBufSize data.rxBuf messages
      (calls.flatMap (ModemCall.events answers)) data'.rxBuf := by
  induction messages generalizing data calls with
  | nil =>
      obtain ⟨rfl, rfl, -⟩ : [] = calls ∧ data = data' ∧ ([] : List Bytes) = [] := by
        simpa [processTask] using h
      exact Feeds.nil _
  | cons message messages ih =>
      rw [findRoom, Bool.and_eq_true, decide_eq_true_eq] at hroom
      obtain ⟨⟨hne, hfit⟩, hnext⟩ := hroom
      rw [List.length_cons, processTask, processIfaceData_of_fit hne hfit] at h
      obtain ⟨result, hrun, h⟩ := bind_eq_ok.mp h
      cases result with
      | none => exact absurd (Except.ok.inj h).symm (Option.some_ne_none _)
      | some result =>
          obtain ⟨calls₁, data₁⟩ := result
          obtain ⟨result, htask, h⟩ := bind_eq_ok.mp h
          obtain ⟨⟨calls₂, data₂, kept⟩, rfl, heq⟩ :=
            Option.map_eq_some_iff.mp (Except.ok.inj h)
          obtain ⟨rfl, rfl, rfl⟩ : calls₁ ++ calls₂ = calls ∧ data₂ = data' ∧ kept = [] := by
            simpa using heq
          obtain ⟨hdrains, hlen₁⟩ :=
            @processRxBuf_some _ _ _ ⟨data.rxBuf ++ message, data.matchBuf⟩ _ _ hlen hrun
          rw [hrun] at hnext
          rw [List.flatMap_append]
          exact Feeds.cons hfit hdrains (ih hnext hlen₁ htask)

end Task

end RtpMulticast
