import RtpMulticast.Support.CString
import RtpMulticast.Support.Text

/-!
# The modem command handler

`modem_cmd_handler_process` collects what the modem sends in a linear buffer.  A direct
command acts on the buffer as soon as its name stands at the front.  Everything else
waits for the end of a line; the line is copied, matched against the tables, split into
parameters and given to the function of its command.
-/

namespace RtpMulticast

open ByteBuffer CStrings Text

/-! ## Commands -/

def EINVAL : ℤ := 22
def EAGAIN : ℤ := 11
def ENOMEM : ℤ := 12

/-- `CONFIG_MODEM_CMD_HANDLER_MAX_PARAM_COUNT`. -/
def modemCmdHandlerMaxParamCount : ℕ := 11

/-- `RX_BUF_SIZE`. -/
def rxBufSize : ℕ := 1520

/-- `W61_CMD_MATCH_BUFF_SIZE`. -/
def w61CmdMatchBuffSize : ℕ := 256

/-- `struct modem_cmd` without its function. -/
structure ModemCmd where
  cmd : Bytes
  argCountMin : ℕ
  argCountMax : ℕ
  delim : Bytes
  direct : Bool
  deriving DecidableEq, Repr

/-- `MODEM_CMD`. -/
def modemCmd (cmd : String) (acount : ℕ) (adelim : String) : ModemCmd where
  cmd := ascii cmd
  argCountMin := acount
  argCountMax := acount
  delim := ascii adelim
  direct := false

/-- `MODEM_CMD_ARGS_MAX`. -/
def modemCmdArgsMax (cmd : String) (acount acountmax : ℕ) (adelim : String) : ModemCmd where
  cmd := ascii cmd
  argCountMin := acount
  argCountMax := acountmax
  delim := ascii adelim
  direct := false

/-- `MODEM_CMD_DIRECT`. -/
def modemCmdDirect (cmd : String) : ModemCmd where
  cmd := ascii cmd
  argCountMin := 0
  argCountMax := 0
  delim := []
  direct := true

def responseCmdsList : List ModemCmd :=
  [modemCmd "OK" 0 "", modemCmd "ERROR" 0 ""]

def unsolCmdsList : List ModemCmd :=
  [modemCmd "ready" 0 "",
    modemCmd "+CWLAP:" 8 ",",
    modemCmdDirect "+BLE:GATTWRITE:",
    modemCmdDirect "+BLE:GATTREAD:",
    modemCmdDirect "+BLE:NOTIDATA:",
    modemCmdDirect "+MQTT:SUBRECV:",
    modemCmdArgsMax "+IPD:" 1 10 ",",
    modemCmdArgsMax "+CW:" 1 10 ", ",
    modemCmdArgsMax "+BLE:" 1 11 ",:()",
    modemCmdArgsMax "+CIP:" 1 10 ",",
    modemCmdArgsMax "+MQTT:" 1 10 ",",
    modemCmd "+PING:" 1 ""]

/-- The tables of the handler in the order of the search; `handlerCmds` is what
`modem_cmd_handler_update_cmds` installed. -/
def modemCmds (handlerCmds : List ModemCmd) : List ModemCmd :=
  responseCmdsList ++ unsolCmdsList ++ handlerCmds

/-- The commands of `W61_AT_Common_RequestSendData`. -/
def sendDataCmds : List ModemCmd :=
  [modemCmdDirect ">", modemCmd "Recv " 1 " "]

/-! ## Parameters -/

/-- The variables of `parse_params`; `stop` is `end`. -/
structure ParamScan where
  matchBuf : Bytes
  quoted : Bool
  begin : ℕ
  stop : ℕ
  count : ℕ
  argv : List ℕ
  deriving DecidableEq, Repr

/-- A parameter begins at `begin` and ends with a NUL at `stop`. -/
def ParamScan.mark (argvLen : ℕ) (p : ParamScan) : Except Fault ParamScan :=
  if p.argv.length < argvLen then do
    let matchBuf ← storeU8 p.matchBuf p.stop 0
    return { p with matchBuf := matchBuf, argv := p.argv ++ [p.begin] }
  else .error .outOfBounds

/-- The parameter ends at a delimiter; the next one begins behind it. -/
def ParamScan.delimiter (argvLen : ℕ) (p : ParamScan) : Except Fault ParamScan := do
  let p ← p.mark argvLen
  return { p with begin := p.stop + 1, count := p.count + 1 }

/-- The rest of the line is a parameter unless it is empty. -/
def ParamScan.ending (argvLen : ℕ) (p : ParamScan) : Except Fault ParamScan :=
  if p.begin < p.stop then p.mark argvLen else .ok p

/-- The loop of `parse_params` over the rest of the line. -/
def paramLoop (cmd : ModemCmd) (argvLen : ℕ) : ℕ → ParamScan → Except Fault ParamScan
  | 0, p => .ok p
  | n + 1, p => do
      let b ← loadU8 p.matchBuf p.stop
      let quoted := if b = 0x22 then !p.quoted else p.quoted
      let p := { p with quoted := quoted }
      if quoted then paramLoop cmd argvLen n { p with stop := p.stop + 1 }
      else
        let p ← if b ∈ cmd.delim then p.delimiter argvLen else .ok p
        if cmd.argCountMax ≤ p.count then return p
        else if p.argv.length = argvLen then return p
        else paramLoop cmd argvLen n { p with stop := p.stop + 1 }

/-- `parse_params`: the result, the buffer, and the places of the parameters in it. -/
def parseParams (matchBuf : Bytes) (matchLen : ℕ) (cmd : ModemCmd) (argvLen : ℕ) :
    Except Fault (ℤ × Bytes × List ℕ) :=
  if matchLen = 0 then .ok (-EINVAL, matchBuf, [])
  else do
    let cmdLen := cmd.cmd.length
    let p ← paramLoop cmd argvLen (matchLen - cmdLen)
      ⟨matchBuf, false, cmdLen, cmdLen, 0, []⟩
    let p ← p.ending argvLen
    if p.argv.length < cmd.argCountMin then return (-EINVAL, p.matchBuf, p.argv)
    else return ((p.begin : ℤ) - cmdLen, p.matchBuf, p.argv)

/-! ## Dispatch -/

/-- A call of the function of a command: on the bytes that follow its name in the
buffer, or with the parameters of a line. -/
inductive ModemCall where
  | direct (cmd : ModemCmd) (rxBuf : Bytes)
  | line (cmd : ModemCmd) (argv : List Bytes)
  deriving DecidableEq, Repr

/-- What the functions of the commands return. -/
abbrev ModemAnswers := ModemCall → ℤ

/-- The answers while data are sent: `on_cmd_tx_ready` takes the prompt, and the
functions of lines answer 0. -/
def sendDataAnswers : ModemAnswers
  | .direct cmd _ => cmd.cmd.length
  | .line _ _ => 0

/-- `is_crlf`. -/
def isCrlf (c : UInt8) : Bool := c = 0x0A ∨ c = 0x0D

/-- `findcrlf`; 0 when there is none. -/
def findcrlf (rxBuf : Bytes) : ℕ := (rxBuf.findIdx? isCrlf).getD 0

/-- `linear_buf_skip`. -/
def linearBufSkip (rxBuf : Bytes) (n : ℕ) : Bytes := rxBuf.drop n

/-- `find_cmd_match`. -/
def findCmdMatch (cmds : List ModemCmd) (matchBuf : Bytes) : Option ModemCmd :=
  cmds.find? fun c => c.cmd.isPrefixOf matchBuf

/-- `find_cmd_direct_match`. -/
def findCmdDirectMatch (cmds : List ModemCmd) (rxBuf : Bytes) : Option ModemCmd :=
  cmds.find? fun c => c.direct && c.cmd.isPrefixOf rxBuf

/-- The strings that the parameters are for the function of the command. -/
def argvStrings (matchBuf : Bytes) (argv : List ℕ) : List Bytes :=
  argv.map fun i => stringOf (matchBuf.drop i)

/-- `process_cmd`: the result, the buffer of the line, what is skipped, and the call. -/
def processCmd (answers : ModemAnswers) (cmd : ModemCmd) (matchLen : ℕ) (matchBuf : Bytes) :
    Except Fault (ℤ × Bytes × ℕ × List ModemCall) := do
  let (parsedLen, matchBuf, argv) ←
    if 0 < cmd.argCountMax then
      parseParams matchBuf matchLen cmd modemCmdHandlerMaxParamCount
    else .ok (0, matchBuf, [])
  if parsedLen < 0 then return (parsedLen, matchBuf, 0, [])
  else
    let call := .line cmd (argvStrings matchBuf argv)
    let ret := answers call
    let skipLen := if ret = -EAGAIN then 0 else cmd.cmd.length + parsedLen.toNat
    return (ret, matchBuf, skipLen, [call])

/-- `rx_buf` with its length, and `match_buf`. -/
structure ModemData where
  rxBuf : Bytes
  matchBuf : Bytes
  deriving DecidableEq, Repr

/-- One round of the loop in `cmd_handler_process_rx_buf`: the loop ends or goes on. -/
inductive RxRound where
  | leave (calls : List ModemCall) (data : ModemData)
  | next (calls : List ModemCall) (data : ModemData)
  deriving DecidableEq, Repr

/-- The end of a line is found: the line is copied and processed. -/
def rxLine (answers : ModemAnswers) (cmds : List ModemCmd) (rxBuf matchBuf : Bytes)
    (len : ℕ) : Except Fault RxRound := do
  let matchLen := if len < matchBuf.length - 1 then len else matchBuf.length - 1
  let matchBuf ← copyIn matchBuf 0 (rxBuf.take matchLen)
  let matchBuf ← storeU8 matchBuf matchLen 0
  match findCmdMatch cmds (stringOf matchBuf) with
  | none => return .next [] ⟨linearBufSkip rxBuf (len + 1), matchBuf⟩
  | some cmd =>
      let (ret, matchBuf, skipLen, calls) ← processCmd answers cmd matchLen matchBuf
      if ret = -EAGAIN then return .leave calls ⟨rxBuf, matchBuf⟩
      else
        let rxBuf := linearBufSkip rxBuf skipLen
        if rxBuf.length = 0 then return .leave calls ⟨rxBuf, matchBuf⟩
        else
          -- The offset stays when no further end is found.
          let offset := (rxBuf.findIdx? isCrlf).getD len
          return .next calls ⟨linearBufSkip rxBuf (offset + 1), matchBuf⟩

/-- The loop body of `cmd_handler_process_rx_buf`. -/
def rxRound (answers : ModemAnswers) (cmds : List ModemCmd) (data : ModemData) :
    Except Fault RxRound :=
  let rxBuf := data.rxBuf.dropWhile isCrlf
  if rxBuf.length = 0 then .ok (.leave [] ⟨rxBuf, data.matchBuf⟩)
  else match findCmdDirectMatch cmds rxBuf with
  | some cmd =>
      let call := .direct cmd (rxBuf.drop cmd.cmd.length)
      let ret := answers call
      if ret = -EAGAIN then .ok (.leave [call] ⟨rxBuf, data.matchBuf⟩)
      else if 0 < ret then
        .ok (.next [call] ⟨linearBufSkip rxBuf ret.toNat, data.matchBuf⟩)
      else .ok (.next [call] ⟨rxBuf, data.matchBuf⟩)
  | none =>
      let len := findcrlf rxBuf
      if len = 0 then .ok (.leave [] ⟨rxBuf, data.matchBuf⟩)
      else rxLine answers cmds rxBuf data.matchBuf len

/-- `cmd_handler_process_rx_buf`, as far as `n` rounds go. -/
def processRxBuf (answers : ModemAnswers) (cmds : List ModemCmd) :
    ℕ → ModemData → Except Fault (Option (List ModemCall × ModemData))
  | 0, _ => .ok none
  | n + 1, data =>
      if data.rxBuf.length = 0 then .ok (some ([], data))
      else do
        match ← rxRound answers cmds data with
        | .leave calls data => return some (calls, data)
        | .next calls data =>
            let rest ← processRxBuf answers cmds n data
            return rest.map fun r => (calls ++ r.1, r.2)

end RtpMulticast
