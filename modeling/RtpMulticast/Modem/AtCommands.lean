import RtpMulticast.Modem.RxStream
import RtpMulticast.Support.Machine

/-!
# Commands and their answers

The tasks of the application send commands to the modem, each while it holds
`sem_tx_lock`, and wait on `sem_response`.  `W61_Modem_Process_task` looks up what the
modem sends and runs the functions: `on_cmd_ok`, `on_cmd_error` and `on_cmd_recv` set
`last_error` and then give the semaphore, and other tasks may run in between.

Nothing on the wire says which command an answer belongs to.  In the model each answer
carries the number of the transmission that the modem answers; the code never sees it.
-/

namespace RtpMulticast

open ByteBuffer CStrings Text

/-- `EIO`. -/
def eio : ℤ := 5
def ETIMEDOUT : ℤ := 116

/-! ## Requests -/

/-- What a task asks for: `W61_AT_Common_SetExecute`, `W61_AT_Common_Query_Parse` with
`p_resp`, or `W61_AT_Common_RequestSendData` with `len` and `check_resp`. -/
inductive AtRequest where
  | execute
  | query (resp : Bytes)
  | sendData (len : ℕ) (checkResp : Bool)
  deriving DecidableEq, Repr

/-- The handler that `W61_AT_Common_Query_Parse` installs. -/
def queryCmd (resp : Bytes) : ModemCmd where
  cmd := resp
  argCountMin := 1
  argCountMax := modemCmdHandlerMaxParamCount
  delim := ascii ",:"
  direct := false

def AtRequest.cmds : AtRequest → List ModemCmd
  | .execute => []
  | .query resp => [queryCmd resp]
  | .sendData _ _ => sendDataCmds

/-- `modem_cmd_send_ext` waits on the semaphore unless its timeout is 0. -/
def AtRequest.waits : AtRequest → Bool
  | .sendData _ checkResp => checkResp
  | _ => true

def AtRequest.sendsData : AtRequest → Bool
  | .sendData _ _ => true
  | _ => false

/-- `data->cmds[CMD_HANDLER]`, and the command that set it. -/
structure AtHandlers where
  owner : ℕ
  cmds : List ModemCmd
  deriving DecidableEq, Repr

/-! ## Answers -/

/-- What the modem sends: a line that no prompt is in front of, or the prompt for data,
behind which it starts a new line. -/
inductive AtAnswer where
  | line (text : Bytes)
  | prompt
  deriving DecidableEq, Repr

/-- An answer to the transmission with that number. -/
structure AtReply where
  number : ℕ
  answer : AtAnswer
  deriving DecidableEq, Repr

/-- A function that the modem task found: `on_cmd_ok` or `on_cmd_error`, `on_cmd_recv`,
`on_cmd_tx_ready`, or `on_cmd_query` of the handlers of a command. -/
inductive AtCall where
  | status (code : ℤ)
  | recv (argv : List Bytes)
  | txReady
  | query (owner : ℕ) (argv : List Bytes)
  deriving DecidableEq, Repr

/-- The function of a command in the tables; unsolicited lines have no part in this. -/
def atFunction (handlers : AtHandlers) (cmd : ModemCmd) (argv : List Bytes) : Option AtCall :=
  if cmd = modemCmd "OK" 0 "" then some (.status 0)
  else if cmd = modemCmd "ERROR" 0 "" then some (.status (-eio))
  else if cmd = modemCmd "Recv " 1 " " then some (.recv argv)
  else if cmd ∈ handlers.cmds ∧ cmd.direct = false then some (.query handlers.owner argv)
  else none

/-- What the modem task finds for an answer. -/
def atCall (handlers : AtHandlers) : AtAnswer → Option AtCall
  | .prompt =>
      if (findCmdDirectMatch (modemCmds handlers.cmds) (ascii ">")).isSome then some .txReady
      else none
  | .line text =>
      match lineCall (modemCmds handlers.cmds) text with
      | some (.line cmd argv) => atFunction handlers cmd argv
      | _ => none

/-- The function gives `sem_response`. -/
def AtCall.gives : AtCall → Bool
  | .status _ | .recv _ => true
  | .txReady | .query _ _ => false

/-- The answer leads to a give of `sem_response`. -/
def hears (handlers : AtHandlers) (answer : AtAnswer) : Bool :=
  (atCall handlers answer).any AtCall.gives

/-- The error that the function sets; `rxDataLen` is `mdm->rx_data_len`. -/
def AtCall.code (rxDataLen : ℕ) : AtCall → ℤ
  | .status code => code
  | .recv [] => -eio
  | .recv (arg :: _) => if (strtol arg).1 ≠ rxDataLen then -eio else 0
  | .txReady | .query _ _ => 0

/-! ## States -/

/-- Where the holder of `sem_tx_lock` is.  The first six places are in
`modem_cmd_send_ext`, the next six in `W61_AT_Common_RequestSendData` behind it. -/
inductive AtPc where
  | locked
  | tabled
  | installed
  | ready
  | awaiting
  | awaited (reply : AtReply)
  | accepted
  | resetAgain
  | expecting
  | prompted
  | dataSent
  | received (reply : AtReply)
  | leaving (ret : ℤ)
  | unlocking (ret : ℤ)
  deriving DecidableEq, Repr

/-- The holder of the lock.  `id` is the number of the first transmission, `backlog` is
what the modem task had in hand or before it when the lock was taken, `before` the
answers outstanding when the semaphore was last reset, and `added` those to what was
sent since. -/
structure AtHolder where
  id : ℕ
  request : AtRequest
  pc : AtPc
  backlog : List AtReply
  before : List AtReply
  added : List AtReply
  deriving DecidableEq, Repr

/-- `W61_Modem_Process_task`: between two answers, with a function found, with the error
that the function is about to set, or between `modem_cmd_handler_set_error` and the
give. -/
inductive AtTask where
  | idle
  | found (reply : AtReply) (call : AtCall)
  | coded (reply : AtReply) (code : ℤ)
  | erred (reply : AtReply)
  deriving DecidableEq, Repr

/-- How a wait for the answer to a transmission ended: the reply whose function gave the
semaphore and the error that was read, or a timeout. -/
structure AtWait where
  id : ℕ
  transmission : ℕ
  handlers : AtHandlers
  rxDataLen : ℕ
  before : List AtReply
  added : List AtReply
  outcome : Option (AtReply × ℤ)
  deriving DecidableEq, Repr

/-- A call of `on_cmd_query`: the reply, the command whose handler ran, the command
whose buffer `mdm->rx_data` is, and whether that command had not returned. -/
structure AtWrite where
  reply : AtReply
  owner : ℕ
  buffer : Option ℕ
  live : Bool
  deriving DecidableEq, Repr

/-- The command handler, its callers and the modem.  `replies` are the answers to all
transmissions so far that the modem task has not looked at, `sent` counts the
transmissions, `waits` and `writes` are the history. -/
structure AtSystem where
  holder : Option AtHolder
  sent : ℕ
  handlers : AtHandlers
  lastError : ℤ
  rxData : Option ℕ
  rxDataLen : ℕ
  semResponse : Option AtReply
  semTxReady : Bool
  task : AtTask
  replies : List AtReply
  begun : List AtHolder
  waits : List AtWait
  writes : List AtWrite

/-- What `modem_cmd_handler_init` leaves behind. -/
def AtSystem.initial : AtSystem where
  holder := none
  sent := 0
  handlers := ⟨0, []⟩
  lastError := 0
  rxData := none
  rxDataLen := 0
  semResponse := none
  semTxReady := false
  task := .idle
  replies := []
  begun := []
  waits := []
  writes := []

/-- `begin` takes the lock; `go` is the next step of the holder, `transmit` its
`mdm_write` with what the modem is going to answer (nothing when the write fails), and
`expire` the timeout of its wait. -/
inductive AtAction where
  | begin (request : AtRequest)
  | go
  | transmit (script : List AtAnswer)
  | expire
  | task
  deriving DecidableEq, Repr

/-! ## Steps -/

def AtTask.replies : AtTask → List AtReply
  | .idle => []
  | .found reply _ | .coded reply _ | .erred reply => [reply]

/-- The replies whose function is going to give the semaphore. -/
def AtTask.giving : AtTask → List AtReply
  | .idle => []
  | .found reply call => if call.gives then [reply] else []
  | .coded reply _ | .erred reply => [reply]

/-- Where a command goes on when `modem_cmd_send_ext` returns `ret`. -/
def AtRequest.behindWait (request : AtRequest) (ret : ℤ) : AtPc :=
  if request.sendsData = true ∧ 0 ≤ ret then .accepted else .leaving ret

namespace AtSystem

/-- All that the modem task has in hand or before it. -/
def inflight (s : AtSystem) : List AtReply := s.task.replies ++ s.replies

/-- The replies that are going to give `sem_response`, as the tables are now. -/
def outstanding (s : AtSystem) : List AtReply :=
  s.task.giving ++ s.replies.filter fun r => hears s.handlers r.answer

/-- A task takes `sem_tx_lock`; `W61_AT_Common_Query_Parse` sets `mdm->rx_data` and
`W61_AT_Common_RequestSendData` resets `sem_tx_ready`. -/
def begin (s : AtSystem) (request : AtRequest) : Option AtSystem :=
  match s.holder with
  | some _ => none
  | none =>
      let holder : AtHolder := ⟨s.sent, request, .locked, s.inflight, [], []⟩
      some { s with
        holder := some holder
        begun := s.begun ++ [holder]
        rxData := match request with
          | .query _ => some s.sent
          | _ => s.rxData
        semTxReady := s.semTxReady && !request.sendsData }

/-- The holder of the lock goes on at `pc`. -/
def goOn (s : AtSystem) (h : AtHolder) (pc : AtPc) : AtSystem :=
  { s with holder := some { h with pc := pc } }

/-- A wait of the holder ends. -/
def endWait (s : AtSystem) (h : AtHolder) (outcome : Option (AtReply × ℤ)) (pc : AtPc) :
    AtSystem :=
  { s with
    holder := some { h with pc := pc }
    waits := s.waits ++ [⟨h.id, s.sent - 1, s.handlers, s.rxDataLen, h.before, h.added,
      outcome⟩] }

/-- `xSemaphoreTake(sem_response, 0)`. -/
def resetResponse (s : AtSystem) (h : AtHolder) (pc : AtPc) : AtSystem :=
  { s with
    holder := some { h with pc := pc, before := s.outstanding, added := [] }
    semResponse := none }

/-- `xSemaphoreTake` of the full semaphore. -/
def takeResponse (s : AtSystem) (h : AtHolder) (pc : AtReply → AtPc) : Option AtSystem :=
  match s.semResponse with
  | none => none
  | some reply => some { s with
      holder := some { h with pc := pc reply }
      semResponse := none }

def go (s : AtSystem) (h : AtHolder) : Option AtSystem :=
  match h.pc with
  | .locked => some { s.goOn h .tabled with handlers := ⟨h.id, h.request.cmds⟩ }
  | .tabled => some { s.goOn h .installed with lastError := 0 }
  | .installed =>
      if h.request.waits then some (s.resetResponse h .ready) else some (s.goOn h .ready)
  | .ready => none
  | .awaiting => s.takeResponse h .awaited
  | .awaited reply =>
      some (s.endWait h (some (reply, s.lastError)) (h.request.behindWait s.lastError))
  | .accepted => some (s.resetResponse h .resetAgain)
  | .resetAgain => some { s.goOn h .expecting with
      rxDataLen := match h.request with
        | .sendData len _ => len % 2 ^ 16
        | _ => s.rxDataLen }
  | .expecting =>
      if s.semTxReady then some { s.goOn h .prompted with semTxReady := false } else none
  | .prompted => none
  | .dataSent => s.takeResponse h .received
  | .received reply => some (s.endWait h (some (reply, s.lastError)) (.leaving s.lastError))
  | .leaving ret => some { s.goOn h (.unlocking ret) with handlers := ⟨h.id, []⟩ }
  | .unlocking _ => some { s with holder := none }

/-- `mdm_write`, and the answers that the modem is going to give. -/
def transmit (s : AtSystem) (h : AtHolder) (script : List AtAnswer) : Option AtSystem :=
  let added := script.map fun answer => ⟨s.sent, answer⟩
  let sent (pc : AtPc) : AtSystem := { s with
    holder := some { h with
      pc := pc
      added := added.filter fun r => hears s.handlers r.answer }
    sent := s.sent + 1
    replies := s.replies ++ added }
  match h.pc with
  | .ready => some (sent (if h.request.waits then .awaiting else .accepted))
  | .prompted => some (sent .dataSent)
  | _ => none

/-- A wait ends without the semaphore. -/
def expire (s : AtSystem) (h : AtHolder) : Option AtSystem :=
  let expired := s.endWait h none (.leaving (-ETIMEDOUT))
  match h.pc with
  | .awaiting | .dataSent => if s.semResponse.isNone then some expired else none
  | .expecting => if s.semTxReady then none else some expired
  | _ => none

/-- The next step of the modem task. -/
def taskStep (s : AtSystem) : Option AtSystem :=
  match s.task with
  | .idle =>
      match s.replies with
      | [] => none
      | reply :: replies =>
          match atCall s.handlers reply.answer with
          | none =>
              -- A prompt that nobody hears stays in the buffer until a line follows.
              if reply.answer = .prompt ∧ replies = [] then none
              else some { s with replies := replies }
          | some call => some { s with replies := replies, task := .found reply call }
  | .found reply call =>
      match call with
      | .status _ | .recv _ => some { s with task := .coded reply (call.code s.rxDataLen) }
      | .txReady => some { s with semTxReady := true, task := .idle }
      | .query owner _ => some { s with
          writes := s.writes ++ [⟨reply, owner, s.rxData,
            s.holder.any fun h => some h.id = s.rxData⟩]
          task := .idle }
  | .coded reply code => some { s with lastError := code, task := .erred reply }
  | .erred reply => some { s with
      semResponse := s.semResponse.or (some reply)
      task := .idle }

end AtSystem

/-- The command handler with all interleavings of its callers and the modem task. -/
def atMachine : Machine AtSystem AtAction where
  init s := s = .initial
  step s
    | .begin request => s.begin request
    | .go => s.holder.bind s.go
    | .transmit script => s.holder.bind fun h => s.transmit h script
    | .expire => s.holder.bind s.expire
    | .task => s.taskStep

/-! ## Answers in the receive buffer -/

/-- The bytes of an answer. -/
def AtAnswer.bytes : AtAnswer → Bytes
  | .line text => text ++ [0x0D, 0x0A]
  | .prompt => ascii ">"

/-- The function of what is read from the receive buffer. -/
def ModemEvent.atCall (handlers : AtHandlers) : ModemEvent → Option AtCall
  | .line cmd argv => atFunction handlers cmd argv
  | .direct cmd _ => if cmd = modemCmdDirect ">" then some .txReady else none

section Buffer

variable {handlers : AtHandlers} {text : Bytes}

theorem lineCall_line {cmds : List ModemCmd} {call : ModemCall}
    (h : lineCall cmds text = some call) : ∃ cmd argv, call = .line cmd argv := by
  rw [lineCall] at h
  split at h
  · cases h
  next cmd hfind =>
      split at h
      · cases h
        exact ⟨cmd, [], rfl⟩
      · dsimp only at h
        split at h
        · cases h
        · cases h
          exact ⟨cmd, _, rfl⟩

/-- A line in front of the receive buffer leads to the function that is found for it. -/
theorem rxScan_atLine (hs : DirectNames (modemCmds handlers.cmds)) (hne : text ≠ [])
    (hline : ∀ b ∈ text, isCrlf b = false) (hshort : text.length < w61CmdMatchBuffSize)
    (hdirect : findCmdDirectMatch (modemCmds handlers.cmds) text = none) (rest : Bytes) :
    ∃ es, rxScan sendDataAnswers (modemCmds handlers.cmds)
        ((AtAnswer.line text).bytes ++ rest) = some (es, text.length + 1) ∧
      es.filterMap (ModemEvent.atCall handlers) = (atCall handlers (.line text)).toList := by
  have hmatch : matchLine text = text := List.take_of_length_le (Nat.le_sub_one_of_lt hshort)
  have hscan := rxScan_line sendDataAnswers hne hline rfl
    (hs.findCmdDirectMatch_line (c := 0x0D) rfl hdirect (0x0A :: rest))
  rw [hmatch] at hscan
  rw [AtAnswer.bytes, List.append_assoc]
  cases hcall : lineCall (modemCmds handlers.cmds) text with
  | none =>
      rw [hcall] at hscan
      refine ⟨[], hscan, ?_⟩
      simp only [atCall, hcall]
      rfl
  | some call =>
      rw [hcall] at hscan
      obtain ⟨cmd, argv, rfl⟩ := lineCall_line hcall
      refine ⟨[.line cmd argv], hscan, ?_⟩
      simp only [atCall, hcall, List.filterMap_cons, List.filterMap_nil, ModemEvent.atCall]
      cases atFunction handlers cmd argv <;> rfl

/-- So does the prompt while data are sent. -/
theorem rxScan_atPrompt (owner : ℕ) (rest : Bytes) :
    ∃ es, rxScan sendDataAnswers (modemCmds sendDataCmds) (AtAnswer.prompt.bytes ++ rest) =
        some (es, 1) ∧
      es.filterMap (ModemEvent.atCall ⟨owner, sendDataCmds⟩) =
        (atCall ⟨owner, sendDataCmds⟩ .prompt).toList := by
  have hnames : DirectNames (modemCmds sendDataCmds) := by
    constructor <;> decide +kernel
  have hfound : findCmdDirectMatch (modemCmds sendDataCmds) (ascii ">") =
      some (modemCmdDirect ">") := by decide +kernel
  have hmore : findCmdDirectMatch (modemCmds sendDataCmds) (0x3E :: rest) =
      some (modemCmdDirect ">") := hnames.findCmdDirectMatch_append hfound rest
  have hbytes : AtAnswer.prompt.bytes ++ rest = 0x3E :: rest := rfl
  have hscan := rxScan_direct sendDataAnswers rfl hmore
  have hanswer (rxBuf : Bytes) :
      sendDataAnswers (.direct (modemCmdDirect ">") rxBuf) = 1 := rfl
  rw [hanswer, if_neg (by decide)] at hscan
  refine ⟨[.direct (modemCmdDirect ">") []], ?_, ?_⟩
  · rw [hbytes, hscan, ModemCall.events, hanswer, if_neg (by decide)]
    rfl
  · rw [atCall, hfound, List.filterMap_cons, ModemEvent.atCall, if_pos rfl]
    rfl

end Buffer

end RtpMulticast
