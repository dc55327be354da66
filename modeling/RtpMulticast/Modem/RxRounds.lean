import RtpMulticast.Modem.ParseParams
import RtpMulticast.Support.StreamScanner

/-!
# Rounds over the receive buffer

The loop of `cmd_handler_process_rx_buf` reads items off the front of the buffer: an
end of line, a direct command as far as its function takes it, or a whole line.  What
the match buffer held before has no influence, and no round leaves a buffer.
-/

namespace RtpMulticast

open ByteBuffer CStrings Text StreamScanner

/-! ## The items -/

/-- What the function of a command takes: the bytes behind the name of a direct command,
or the parameters of a line. -/
inductive ModemEvent where
  | direct (cmd : ModemCmd) (bytes : Bytes)
  | line (cmd : ModemCmd) (argv : List Bytes)
  deriving DecidableEq, Repr

/-- A call that the function wants to see again with more bytes is no event. -/
def ModemCall.events (answers : ModemAnswers) (call : ModemCall) : List ModemEvent :=
  if answers call = -EAGAIN then []
  else match call with
    | .direct cmd rxBuf => [.direct cmd (rxBuf.take ((answers call).toNat - cmd.cmd.length))]
    | .line cmd argv => [.line cmd argv]

/-- The call that a line leads to. -/
def lineCall (cmds : List ModemCmd) (line : Bytes) : Option ModemCall :=
  match findCmdMatch cmds (stringOf line) with
  | none => none
  | some cmd =>
      if cmd.argCountMax = 0 then some (.line cmd [])
      else
        let argv := cmd.params modemCmdHandlerMaxParamCount (line.drop cmd.cmd.length)
        if argv.length < cmd.argCountMin then none else some (.line cmd (argv.map stringOf))

/-- The part of a line that fits the match buffer. -/
def matchLine (line : Bytes) : Bytes := line.take (w61CmdMatchBuffSize - 1)

/-- The item in front of the receive buffer. -/
def rxScan (answers : ModemAnswers) (cmds : List ModemCmd) : Scanner UInt8 ModemEvent
  | [] => none
  | b :: bytes =>
      if isCrlf b then some ([], 1)
      else match findCmdDirectMatch cmds (b :: bytes) with
        | some cmd =>
            let call := .direct cmd ((b :: bytes).drop cmd.cmd.length)
            if answers call = -EAGAIN then none
            else some (call.events answers, min (answers call).toNat (b :: bytes).length)
        | none =>
            match (b :: bytes).findIdx? isCrlf with
            | none => none
            | some len =>
                match lineCall cmds (matchLine ((b :: bytes).take len)) with
                | none => some ([], len + 1)
                | some call =>
                    if answers call = -EAGAIN then none
                    else some (call.events answers, len + 1)

/-! ## Lines -/

section Lines

variable {rxBuf line rest : Bytes} {len : ℕ} {c : UInt8}

theorem findIdx?_line (hline : ∀ b ∈ line, isCrlf b = false) (hc : isCrlf c = true) :
    (line ++ c :: rest).findIdx? isCrlf = some line.length := by
  rw [List.findIdx?_append, List.findIdx?_eq_none_iff.mpr hline, Option.none_or,
    List.findIdx?_cons, hc]
  simp

/-- The line in front of the first end of line. -/
theorem exists_line (h : rxBuf.findIdx? isCrlf = some len) :
    ∃ line c rest, rxBuf = line ++ c :: rest ∧ line.length = len ∧
      (∀ b ∈ line, isCrlf b = false) ∧ isCrlf c = true := by
  obtain ⟨hlt, hc, hbefore⟩ := List.findIdx?_eq_some_iff_getElem.mp h
  refine ⟨rxBuf.take len, rxBuf[len], rxBuf.drop (len + 1), ?_, ?_, ?_, hc⟩
  · rw [← List.drop_eq_getElem_cons hlt, List.take_append_drop]
  · exact List.length_take_of_le hlt.le
  · intro b hb
    obtain ⟨i, hi, rfl⟩ := List.mem_take_iff_getElem.mp hb
    have := hbefore i (by omega)
    simpa using this

end Lines

/-! ## One round -/

section Round

variable (answers : ModemAnswers) {cmds : List ModemCmd}

/-- The round does what the scanner says of the buffer `rxBuf`. -/
inductive RoundOf (answers : ModemAnswers) (cmds : List ModemCmd) (rxBuf : Bytes) :
    RxRound → Prop
  | leave {calls : List ModemCall} {matchBuf : Bytes}
      (hscan : rxScan answers cmds rxBuf = none)
      (hcalls : calls.flatMap (ModemCall.events answers) = [])
      (hlen : matchBuf.length = w61CmdMatchBuffSize) :
      RoundOf answers cmds rxBuf (.leave calls ⟨rxBuf, matchBuf⟩)
  | next {calls : List ModemCall} {matchBuf : Bytes} {n : ℕ}
      (hscan : rxScan answers cmds rxBuf =
        some (calls.flatMap (ModemCall.events answers), n))
      (hlen : matchBuf.length = w61CmdMatchBuffSize) :
      RoundOf answers cmds rxBuf (.next calls ⟨rxBuf.drop n, matchBuf⟩)

theorem findCmdMatch_isPrefix {cmd : ModemCmd} {line : Bytes}
    (h : findCmdMatch cmds (stringOf line) = some cmd) : cmd.cmd <+: line := by
  have hfound := List.find?_some h
  exact (List.isPrefixOf_iff_prefix.mp hfound).trans (stringOf_isPrefix line)

/-- `process_cmd` on a line: the call of the line, and not more than the line is
skipped. -/
theorem processCmd_line {cmd : ModemCmd} {line : Bytes} (tail : Bytes) (hne : line ≠ [])
    (hfind : findCmdMatch cmds (stringOf line) = some cmd) :
    ∃ ret matchBuf skipLen,
      processCmd answers cmd line.length (line ++ 0 :: tail) =
        .ok (ret, matchBuf, skipLen, (lineCall cmds line).toList) ∧
      matchBuf.length = (line ++ 0 :: tail).length ∧ skipLen ≤ line.length ∧
      (ret = -EAGAIN ↔ ∃ call, lineCall cmds line = some call ∧ answers call = -EAGAIN) := by
  obtain ⟨text, rfl⟩ := findCmdMatch_isPrefix hfind
  by_cases hmax : cmd.argCountMax = 0
  · have hcall : lineCall cmds (cmd.cmd ++ text) = some (.line cmd []) := by
      simp [lineCall, hfind, hmax]
    rw [hcall]
    refine ⟨answers (.line cmd []), cmd.cmd ++ text ++ 0 :: tail,
      if answers (.line cmd []) = -EAGAIN then 0 else cmd.cmd.length, ?_, rfl, ?_, ?_⟩
    · simp [processCmd, hmax, argvStrings]
    · rw [List.length_append]
      split <;> omega
    · simp
  · have hpos : 0 < cmd.argCountMax := Nat.pos_of_ne_zero hmax
    have hlen : 0 < cmd.cmd.length + text.length := by
      rw [← List.length_append]
      exact List.length_pos_iff.mpr hne
    obtain ⟨matchBuf, argv, hparse, hargv, hbuf⟩ :=
      parseParams_fields hpos modemCmdHandlerMaxParamCount (by decide) hlen 0 tail
    rw [← List.append_assoc, ← List.length_append] at hparse
    by_cases hfew :
        (cmd.params modemCmdHandlerMaxParamCount text).length < cmd.argCountMin
    · have hcall : lineCall cmds (cmd.cmd ++ text) = none := by
        simp [lineCall, hfind, hmax, hfew]
      rw [if_pos hfew] at hparse
      rw [hcall]
      refine ⟨-EINVAL, matchBuf, 0, ?_, ?_, Nat.zero_le _, ?_⟩
      · rw [processCmd, if_pos hpos, hparse]
        rfl
      · rw [hbuf, List.length_append, List.length_append]
      · simp [EINVAL, EAGAIN]
    · have hcall : lineCall cmds (cmd.cmd ++ text) =
          some (.line cmd (argvStrings matchBuf argv)) := by
        simp [lineCall, hfind, hmax, hfew, hargv]
      rw [if_neg hfew] at hparse
      rw [hcall]
      refine ⟨answers (.line cmd (argvStrings matchBuf argv)), matchBuf,
        if answers (.line cmd (argvStrings matchBuf argv)) = -EAGAIN then 0
        else cmd.cmd.length + cmd.parsed modemCmdHandlerMaxParamCount text, ?_, ?_, ?_, ?_⟩
      · rw [processCmd, if_pos hpos, hparse, ok_bind]
        dsimp only
        rw [if_neg (by omega), Int.toNat_natCast]
        rfl
      · rw [hbuf, List.length_append, List.length_append]
      · have hparsed := cmd.parsed_le modemCmdHandlerMaxParamCount text
        rw [List.length_append]
        split <;> omega
      · simp

/-- The line is copied with a NUL behind it. -/
theorem matchLine_copied (line rest : Bytes) {matchBuf : Bytes}
    (hlen : matchBuf.length = w61CmdMatchBuffSize) :
    ∃ tail, (do
        let matchBuf ← copyIn matchBuf 0 ((line ++ rest).take (matchLine line).length)
        storeU8 matchBuf (matchLine line).length 0) = .ok (matchLine line ++ 0 :: tail) ∧
      (matchLine line ++ 0 :: tail).length = w61CmdMatchBuffSize := by
  have hle : (matchLine line).length ≤ w61CmdMatchBuffSize - 1 := List.length_take_le _ _
  have htake : (line ++ rest).take (matchLine line).length = matchLine line := by
    have hshort : (matchLine line).length ≤ line.length := List.length_take_le' _ _
    rw [List.take_append_of_le_length hshort, matchLine, List.length_take, List.take_eq_take_iff]
    omega
  have hcopy := copyIn_tail [] matchBuf (matchLine line)
    (by rw [hlen]; exact hle.trans (Nat.sub_le _ _))
  have hdrop : matchBuf.drop (matchLine line).length ≠ [] := by
    rw [Ne, List.drop_eq_nil_iff, hlen, Nat.not_le]
    exact lt_of_le_of_lt hle (by decide)
  obtain ⟨b, tail, hcons⟩ := List.exists_cons_of_ne_nil hdrop
  rw [List.length_nil, List.nil_append, List.nil_append, hcons] at hcopy
  refine ⟨tail, ?_, ?_⟩
  · rw [htake, hcopy, ok_bind]
    exact storeU8_append _ _ _ _
  · have hsum := congrArg List.length hcons
    rw [List.length_drop, hlen, List.length_cons] at hsum
    rw [List.length_append, List.length_cons]
    omega

theorem rxScan_crlf {b : UInt8} (hb : isCrlf b = true) (bytes : Bytes) :
    rxScan answers cmds (b :: bytes) = some ([], 1) := by
  rw [rxScan, hb, if_pos rfl]

theorem rxScan_direct {b : UInt8} {bytes : Bytes} {cmd : ModemCmd} (hb : isCrlf b = false)
    (hdirect : findCmdDirectMatch cmds (b :: bytes) = some cmd) :
    rxScan answers cmds (b :: bytes) =
      if answers (.direct cmd ((b :: bytes).drop cmd.cmd.length)) = -EAGAIN then none
      else some ((ModemCall.direct cmd ((b :: bytes).drop cmd.cmd.length)).events answers,
        min (answers (.direct cmd ((b :: bytes).drop cmd.cmd.length))).toNat
          (b :: bytes).length) := by
  rw [rxScan, hb, if_neg Bool.false_ne_true, hdirect]

theorem rxScan_line {line rest : Bytes} {c : UInt8} (hne : line ≠ [])
    (hline : ∀ b ∈ line, isCrlf b = false) (hc : isCrlf c = true)
    (hdirect : findCmdDirectMatch cmds (line ++ c :: rest) = none) :
    rxScan answers cmds (line ++ c :: rest) =
      match lineCall cmds (matchLine line) with
      | none => some ([], line.length + 1)
      | some call =>
          if answers call = -EAGAIN then none
          else some (call.events answers, line.length + 1) := by
  obtain ⟨b, line, rfl⟩ := List.exists_cons_of_ne_nil hne
  have hb : isCrlf b = false := hline b List.mem_cons_self
  rw [List.cons_append, rxScan, hb, if_neg Bool.false_ne_true, ← List.cons_append, hdirect]
  dsimp only
  rw [findIdx?_line hline hc]
  dsimp only
  rw [List.take_left]

theorem rxLine_of_line {line rest matchBuf : Bytes} {c : UInt8} (hne : line ≠ [])
    (hline : ∀ b ∈ line, isCrlf b = false) (hc : isCrlf c = true)
    (hdirect : findCmdDirectMatch cmds (line ++ c :: rest) = none)
    (hlen : matchBuf.length = w61CmdMatchBuffSize) :
    ∃ round, rxLine answers cmds (line ++ c :: rest) matchBuf line.length = .ok round ∧
      RoundOf answers cmds (line ++ c :: rest) round := by
  have hscan := rxScan_line answers hne hline hc hdirect
  have hmatchLen : (if line.length < matchBuf.length - 1 then line.length
      else matchBuf.length - 1) = (matchLine line).length := by
    rw [matchLine, List.length_take, hlen]
    split <;> omega
  obtain ⟨tail, hcopied, hlen'⟩ :=
    matchLine_copied line (c :: rest) hlen
  have hmatched : matchLine line ≠ [] := by
    obtain ⟨b, line, rfl⟩ := List.exists_cons_of_ne_nil hne
    exact List.cons_ne_nil _ _
  have hnext : (line ++ c :: rest).drop (line.length + 1) = rest := by
    rw [← List.drop_drop, List.drop_left]
    rfl
  rw [rxLine]
  dsimp only
  rw [hmatchLen, ← bind_assoc, hcopied, ok_bind, stringOf_append_nul]
  cases hfind : findCmdMatch cmds (stringOf (matchLine line)) with
  | none =>
      have hcall : lineCall cmds (matchLine line) = none := by
        rw [lineCall, hfind]
      rw [hcall] at hscan
      exact ⟨_, rfl, RoundOf.next hscan hlen'⟩
  | some cmd =>
      obtain ⟨ret, matchBuf', skipLen, hprocess, hlen'', hskip, hagain⟩ :=
        processCmd_line answers tail hmatched hfind
      dsimp only
      rw [hprocess, ok_bind]
      dsimp only
      by_cases hret : ret = -EAGAIN
      · obtain ⟨call, hcall, hanswer⟩ := hagain.mp hret
        rw [if_pos hret]
        rw [hcall] at hscan ⊢
        dsimp only at hscan
        rw [if_pos hanswer] at hscan
        refine ⟨_, rfl, RoundOf.leave hscan ?_ (hlen''.trans hlen')⟩
        simp [ModemCall.events, hanswer]
      · have hle : skipLen ≤ line.length := hskip.trans (List.length_take_le' _ _)
        have hdrop : linearBufSkip (line ++ c :: rest) skipLen =
            line.drop skipLen ++ c :: rest := List.drop_append_of_le_length hle
        have hidx : (line.drop skipLen ++ c :: rest).findIdx? isCrlf =
            some (line.drop skipLen).length :=
          findIdx?_line (fun b hb => hline b (List.mem_of_mem_drop hb)) hc
        rw [if_neg hret, hdrop, if_neg (by simp), hidx]
        refine ⟨_, rfl, ?_⟩
        have hrest : linearBufSkip (line.drop skipLen ++ c :: rest)
            ((some (line.drop skipLen).length).getD line.length + 1) =
            (line ++ c :: rest).drop (line.length + 1) := by
          rw [hnext, Option.getD_some, linearBufSkip, ← List.drop_drop, List.drop_left]
          rfl
        rw [hrest]
        refine RoundOf.next ?_ (hlen''.trans hlen')
        cases hcall : lineCall cmds (matchLine line) with
        | none =>
            rw [hcall] at hscan
            exact hscan
        | some call =>
            have hanswer : answers call ≠ -EAGAIN :=
              fun h => hret (hagain.mpr ⟨call, hcall, h⟩)
            rw [hcall] at hscan
            dsimp only at hscan
            rw [if_neg hanswer] at hscan
            simpa using hscan

theorem findCmdDirectMatch_isPrefix {rxBuf : Bytes} {cmd : ModemCmd}
    (h : findCmdDirectMatch cmds rxBuf = some cmd) : cmd.cmd <+: rxBuf := by
  have hfound := List.find?_some h
  rw [Bool.and_eq_true] at hfound
  exact List.isPrefixOf_iff_prefix.mp hfound.2

/-- A round is the scanner behind the ends of line in front. -/
theorem rxRound_scan (cmds : List ModemCmd) {data : ModemData}
    (hlen : data.matchBuf.length = w61CmdMatchBuffSize) :
    ∃ round, rxRound answers cmds data = .ok round ∧
      RoundOf answers cmds (data.rxBuf.dropWhile isCrlf) round := by
  have hfront : ∀ b bytes, data.rxBuf.dropWhile isCrlf = b :: bytes → isCrlf b = false := by
    intro b bytes h
    have hhead := List.head?_dropWhile_not isCrlf data.rxBuf
    rw [h] at hhead
    simpa using hhead
  rw [rxRound]
  dsimp only
  cases hbuf : data.rxBuf.dropWhile isCrlf with
  | nil => exact ⟨_, rfl, RoundOf.leave rfl rfl hlen⟩
  | cons b bytes =>
      have hb := hfront b bytes hbuf
      rw [if_neg (by simp)]
      cases hdirect : findCmdDirectMatch cmds (b :: bytes) with
      | some cmd =>
          have hscan := rxScan_direct answers hb hdirect
          dsimp only
          generalize hcall : ModemCall.direct cmd ((b :: bytes).drop cmd.cmd.length) = call
            at hscan ⊢
          have hevents : [call].flatMap (ModemCall.events answers) = call.events answers :=
            List.flatMap_singleton _ _
          by_cases hagain : answers call = -EAGAIN
          · have hnone : call.events answers = [] := if_pos hagain
            rw [if_pos hagain] at hscan ⊢
            exact ⟨_, rfl, RoundOf.leave hscan (hevents.trans hnone) hlen⟩
          · have hdrop : (b :: bytes).drop (answers call).toNat =
                (b :: bytes).drop (min (answers call).toNat (b :: bytes).length) := by
              rcases le_total (answers call).toNat (b :: bytes).length with hle | hle
              · rw [min_eq_left hle]
              · rw [min_eq_right hle, List.drop_length, List.drop_of_length_le hle]
            rw [if_neg hagain, ← hevents] at hscan
            rw [if_neg hagain]
            by_cases hpos : 0 < answers call
            · rw [if_pos hpos, linearBufSkip, hdrop]
              exact ⟨_, rfl, RoundOf.next hscan hlen⟩
            · have hzero : (answers call).toNat = 0 :=
                Int.toNat_of_nonpos (Int.not_lt.mp hpos)
              rw [hzero, List.drop_zero] at hdrop
              rw [hzero] at hscan
              rw [if_neg hpos]
              exact ⟨_, rfl, hdrop ▸ RoundOf.next hscan hlen⟩
      | none =>
          dsimp only
          cases hidx : (b :: bytes).findIdx? isCrlf with
          | none =>
              have hscan : rxScan answers cmds (b :: bytes) = none := by
                rw [rxScan, hb, if_neg Bool.false_ne_true, hdirect]
                dsimp only
                rw [hidx]
              rw [findcrlf, hidx]
              exact ⟨_, rfl, RoundOf.leave hscan rfl hlen⟩
          | some len =>
              obtain ⟨line, c, rest, heq, hline, hplain, hc⟩ := exists_line hidx
              have hne : line ≠ [] := by
                rintro rfl
                rw [List.nil_append] at heq
                rw [(List.cons.inj heq).1, hc] at hb
                exact absurd hb.symm Bool.false_ne_true
              rw [findcrlf, hidx, Option.getD_some, ← hline,
                if_neg (Nat.pos_iff_ne_zero.mp (List.length_pos_iff.mpr hne)), heq]
              rw [heq] at hdirect
              exact rxLine_of_line answers hne hplain hc hdirect hlen

/-- What stands in front of a buffer that has an item. -/
inductive RxFront (cmds : List ModemCmd) : Bytes → Prop
  | crlf {b : UInt8} {bytes : Bytes} (hb : isCrlf b = true) : RxFront cmds (b :: bytes)
  | direct {b : UInt8} {bytes : Bytes} {cmd : ModemCmd} (hb : isCrlf b = false)
      (hdirect : findCmdDirectMatch cmds (b :: bytes) = some cmd) : RxFront cmds (b :: bytes)
  | line {line rest : Bytes} {c : UInt8} (hne : line ≠ [])
      (hline : ∀ b ∈ line, isCrlf b = false) (hc : isCrlf c = true)
      (hdirect : findCmdDirectMatch cmds (line ++ c :: rest) = none) :
      RxFront cmds (line ++ c :: rest)

theorem rxFront_of_item {rxBuf : Bytes} {item : List ModemEvent × ℕ}
    (h : rxScan answers cmds rxBuf = some item) : RxFront cmds rxBuf := by
  cases rxBuf with
  | nil => exact absurd h.symm (Option.some_ne_none _)
  | cons b bytes =>
      cases hb : isCrlf b with
      | true => exact RxFront.crlf hb
      | false =>
          cases hdirect : findCmdDirectMatch cmds (b :: bytes) with
          | some cmd => exact RxFront.direct hb hdirect
          | none =>
              rw [rxScan, hb, if_neg Bool.false_ne_true, hdirect] at h
              dsimp only at h
              cases hidx : (b :: bytes).findIdx? isCrlf with
              | none =>
                  rw [hidx] at h
                  exact absurd h.symm (Option.some_ne_none _)
              | some len =>
                  obtain ⟨line, c, rest, heq, -, hplain, hc⟩ := exists_line hidx
                  have hne : line ≠ [] := by
                    rintro rfl
                    rw [List.nil_append] at heq
                    rw [(List.cons.inj heq).1, hc] at hb
                    exact absurd hb.symm Bool.false_ne_true
                  rw [heq] at hdirect ⊢
                  exact RxFront.line hne hplain hc hdirect

end Round

/-! ## The loop -/

section Loop

variable {answers : ModemAnswers} {cmds : List ModemCmd}

/-- What a run of the loop returns: the calls that were taken and the bytes kept. -/
def Returns (answers : ModemAnswers) (cmds : List ModemCmd) (data : ModemData)
    (es : List ModemEvent) (rest : Bytes) : Prop :=
  ∃ n calls data', processRxBuf answers cmds n data = .ok (some (calls, data')) ∧
    calls.flatMap (ModemCall.events answers) = es ∧ data'.rxBuf = rest

/-- The ends of line in front are items without events. -/
theorem drains_dropWhile {rxBuf rest : Bytes} {es : List ModemEvent}
    (h : Drains (rxScan answers cmds) (rxBuf.dropWhile isCrlf) es rest) :
    Drains (rxScan answers cmds) rxBuf es rest := by
  induction rxBuf with
  | nil => exact h
  | cons b bytes ih =>
      cases hb : isCrlf b with
      | false => rwa [List.dropWhile_cons_of_neg (by simp [hb])] at h
      | true =>
          rw [List.dropWhile_cons_of_pos hb] at h
          exact Drains.item (rxScan_crlf answers hb bytes) (ih h)

/-- The loop never leaves a buffer, and what it returns is what the scanner reads. -/
theorem processRxBuf_sound (answers : ModemAnswers) (cmds : List ModemCmd) (n : ℕ)
    {data : ModemData} (hlen : data.matchBuf.length = w61CmdMatchBuffSize) :
    ∃ result, processRxBuf answers cmds n data = .ok result ∧
      ∀ calls data', result = some (calls, data') →
        Drains (rxScan answers cmds) data.rxBuf
          (calls.flatMap (ModemCall.events answers)) data'.rxBuf ∧
        data'.matchBuf.length = w61CmdMatchBuffSize := by
  induction n generalizing data with
  | zero =>
      refine ⟨none, rfl, ?_⟩
      intro calls data' h
      exact absurd h.symm (Option.some_ne_none _)
  | succ n ih =>
      rw [processRxBuf]
      by_cases hnil : data.rxBuf.length = 0
      · refine ⟨some ([], data), if_pos hnil, ?_⟩
        rintro calls data' h
        obtain ⟨rfl, rfl⟩ := Prod.mk.inj (Option.some.inj h)
        have hwait : rxScan answers cmds data.rxBuf = none := by
          rw [List.length_eq_zero_iff.mp hnil]
          rfl
        exact ⟨Drains.stop hwait, hlen⟩
      · obtain ⟨round, hround, hof⟩ := rxRound_scan answers cmds hlen
        rw [if_neg hnil, hround, ok_bind]
        cases hof with
        | leave hscan hcalls hlen' =>
            refine ⟨_, rfl, ?_⟩
            rintro calls data' h
            obtain ⟨rfl, rfl⟩ := Prod.mk.inj (Option.some.inj h)
            rw [hcalls]
            exact ⟨drains_dropWhile (Drains.stop hscan), hlen'⟩
        | next hscan hlen' =>
            obtain ⟨result, hresult, hdrains⟩ := @ih ⟨_, _⟩ hlen'
            dsimp only
            rw [hresult, ok_bind]
            refine ⟨_, rfl, ?_⟩
            rintro calls data' h
            obtain ⟨⟨calls', data''⟩, rfl, heq⟩ := Option.map_eq_some_iff.mp h
            obtain ⟨rfl, rfl⟩ := Prod.mk.inj heq
            obtain ⟨hrest, hkept⟩ := hdrains _ _ rfl
            rw [List.flatMap_append]
            exact ⟨drains_dropWhile (Drains.item hscan hrest), hkept⟩

theorem processRxBuf_some {n : ℕ} {data data' : ModemData} {calls : List ModemCall}
    (hlen : data.matchBuf.length = w61CmdMatchBuffSize)
    (hrun : processRxBuf answers cmds n data = .ok (some (calls, data'))) :
    Drains (rxScan answers cmds) data.rxBuf (calls.flatMap (ModemCall.events answers))
      data'.rxBuf ∧ data'.matchBuf.length = w61CmdMatchBuffSize := by
  obtain ⟨result, hresult, hsound⟩ := processRxBuf_sound answers cmds n hlen
  rw [hrun] at hresult
  exact hsound calls data' (Except.ok.inj hresult).symm

/-- Ends of line in front make no difference to a loop that has bytes. -/
theorem processRxBuf_crlf {n : ℕ} {b : UInt8} {bytes matchBuf : Bytes}
    (hb : isCrlf b = true) (hne : bytes ≠ []) :
    processRxBuf answers cmds n ⟨b :: bytes, matchBuf⟩ =
      processRxBuf answers cmds n ⟨bytes, matchBuf⟩ := by
  cases n with
  | zero => rfl
  | succ n =>
      have hround : rxRound answers cmds ⟨b :: bytes, matchBuf⟩ =
          rxRound answers cmds ⟨bytes, matchBuf⟩ := by
        rw [rxRound, rxRound]
        dsimp only
        rw [List.dropWhile_cons_of_pos hb]
      have hlen : ¬ bytes.length = 0 := fun h => hne (List.length_eq_zero_iff.mp h)
      rw [processRxBuf, processRxBuf, if_neg (by simp), if_neg hlen, hround]

/-- One round over a buffer that does not begin with an end of line. -/
theorem rxRound_plain (answers : ModemAnswers) (cmds : List ModemCmd) {b : UInt8}
    (bytes : Bytes) {matchBuf : Bytes} (hb : isCrlf b = false)
    (hlen : matchBuf.length = w61CmdMatchBuffSize) :
    ∃ round, rxRound answers cmds ⟨b :: bytes, matchBuf⟩ = .ok round ∧
      RoundOf answers cmds (b :: bytes) round := by
  have h := @rxRound_scan answers cmds ⟨b :: bytes, matchBuf⟩ hlen
  rwa [List.dropWhile_cons_of_neg (by simp [hb])] at h

/-- A buffer without an item stays as it is. -/
theorem processRxBuf_waits {rxBuf matchBuf : Bytes} (h : rxScan answers cmds rxBuf = none)
    (hlen : matchBuf.length = w61CmdMatchBuffSize) (n : ℕ) :
    ∃ calls matchBuf', processRxBuf answers cmds (n + 1) ⟨rxBuf, matchBuf⟩ =
        .ok (some (calls, ⟨rxBuf, matchBuf'⟩)) ∧
      calls.flatMap (ModemCall.events answers) = [] ∧
      matchBuf'.length = w61CmdMatchBuffSize := by
  cases rxBuf with
  | nil => exact ⟨[], matchBuf, rfl, rfl, hlen⟩
  | cons b bytes =>
      have hb : isCrlf b = false := by
        by_contra hb
        rw [rxScan_crlf answers (Bool.of_not_eq_false hb)] at h
        exact absurd h (Option.some_ne_none _)
      obtain ⟨round, hround, hof⟩ := rxRound_plain answers cmds bytes hb hlen
      cases hof with
      | @leave calls matchBuf' hscan hcalls hlen' =>
          refine ⟨calls, matchBuf', ?_, hcalls, hlen'⟩
          rw [processRxBuf, if_neg (by simp), hround]
          rfl
      | next hscan hlen' =>
          rw [h] at hscan
          exact absurd hscan.symm (Option.some_ne_none _)

theorem processRxBuf_complete {rxBuf rest matchBuf : Bytes} {es : List ModemEvent}
    (h : Drains (rxScan answers cmds) rxBuf es rest)
    (hlen : matchBuf.length = w61CmdMatchBuffSize) :
    Returns answers cmds ⟨rxBuf, matchBuf⟩ es rest := by
  induction h generalizing matchBuf with
  | @stop rxBuf hstop =>
      obtain ⟨calls, matchBuf', hrun, hcalls, -⟩ := processRxBuf_waits hstop hlen 0
      exact ⟨1, calls, ⟨rxBuf, matchBuf'⟩, hrun, hcalls, rfl⟩
  | @item rxBuf rest es es' k hitem hrest ih =>
      cases rxBuf with
      | nil => exact absurd hitem.symm (Option.some_ne_none _)
      | cons b bytes =>
          cases hb : isCrlf b with
          | true =>
              rw [rxScan_crlf answers hb] at hitem
              obtain ⟨rfl, rfl⟩ := Prod.mk.inj (Option.some.inj hitem)
              rw [List.drop_succ_cons, List.drop_zero] at ih hrest
              by_cases hnil : bytes = []
              · subst hnil
                obtain ⟨rfl, rfl⟩ := hrest.unique (Drains.stop rfl)
                refine ⟨1, [], ⟨[], matchBuf⟩, ?_, rfl, rfl⟩
                simp [processRxBuf, rxRound, hb]
              · obtain ⟨n, calls, data', hrun, hcalls, hkept⟩ := ih hlen
                rw [← processRxBuf_crlf hb hnil] at hrun
                exact ⟨n, calls, data', hrun, hcalls, hkept⟩
          | false =>
              obtain ⟨round, hround, hof⟩ := rxRound_plain answers cmds bytes hb hlen
              cases hof with
              | leave hscan hcalls hlen' =>
                  rw [hscan] at hitem
                  exact absurd hitem.symm (Option.some_ne_none _)
              | @next calls matchBuf' m hscan hlen' =>
                  rw [hscan] at hitem
                  obtain ⟨rfl, rfl⟩ := Prod.mk.inj (Option.some.inj hitem)
                  obtain ⟨n, calls', data', hrun, hcalls, hkept⟩ := ih hlen'
                  refine ⟨n + 1, calls ++ calls', data', ?_, ?_, hkept⟩
                  · rw [processRxBuf, if_neg (by simp), hround, ok_bind]
                    dsimp only
                    rw [hrun]
                    rfl
                  · rw [List.flatMap_append, hcalls]

theorem returns_iff_drains {data : ModemData} {es : List ModemEvent} {rest : Bytes}
    (hlen : data.matchBuf.length = w61CmdMatchBuffSize) :
    Returns answers cmds data es rest ↔
      Drains (rxScan answers cmds) data.rxBuf es rest := by
  constructor
  · rintro ⟨n, calls, data', hrun, rfl, rfl⟩
    exact (processRxBuf_some hlen hrun).1
  · intro h
    exact processRxBuf_complete h hlen

/-- With a match buffer of its size the loop never leaves a buffer nor the array of the
parameters, and what it hands on and keeps is exactly what the scanner reads: the fields
of the lines and the bytes of direct commands, whatever the match buffer held before. -/
theorem processRxBuf_refines {data : ModemData}
    (hlen : data.matchBuf.length = w61CmdMatchBuffSize) :
    (∀ n, ∃ result, processRxBuf answers cmds n data = .ok result) ∧
      ∀ es rest, Returns answers cmds data es rest ↔
        Drains (rxScan answers cmds) data.rxBuf es rest := by
  constructor
  · intro n
    obtain ⟨result, hresult, -⟩ := processRxBuf_sound answers cmds n hlen
    exact ⟨result, hresult⟩
  · exact fun es rest => returns_iff_drains hlen

theorem processRxBuf_refines_prompt :
    (∀ n, ∃ result, processRxBuf sendDataAnswers (modemCmds sendDataCmds) n
        ⟨ascii ">Recv 5", List.replicate w61CmdMatchBuffSize 0⟩ = .ok result) ∧
      ∀ es rest, Returns sendDataAnswers (modemCmds sendDataCmds)
          ⟨ascii ">Recv 5", List.replicate w61CmdMatchBuffSize 0⟩ es rest ↔
        Drains (rxScan sendDataAnswers (modemCmds sendDataCmds)) (ascii ">Recv 5") es rest :=
  processRxBuf_refines List.length_replicate

end Loop

end RtpMulticast
