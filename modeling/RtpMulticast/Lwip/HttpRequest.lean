import RtpMulticast.Lwip.HttpBody
import RtpMulticast.Lwip.SecureConnection
import RtpMulticast.Support.UsageLog

/-!
# The resources of an HTTP request

`HTTP_Client_Request` and the cleanup of `HTTP_Client_task` as logs of what they
acquire and release.  The parts of the two functions take the file-level
handles of the TLS connection and configuration as they find them; here they run
one behind the other, for one request.  The answers of everything that can fail
are inputs.
-/

namespace RtpMulticast

open UsageLog

/-! ## The parts of a request -/

/-- What a request and its task acquire. -/
inductive HttpResource where
  | socket
  | config
  | connection
  | object
  | postData
  | uri
  | serverName
  deriving DecidableEq, Repr

/-- A resource of the request with a number. -/
abbrev HttpObject : Type := ℕ × HttpResource

/-- `conn_param` and `ssl_param`; a handle names the request whose object it
points to, also when that is gone. -/
structure HttpGlobals where
  connParam : Option ℕ
  sslParam : Option ℕ
  deriving DecidableEq, Repr

/-- `LWIP_IANA_PORT_HTTPS`. -/
def lwipIanaPortHttps : UInt16 := 443

/-- The arguments that decide what is acquired. -/
structure HttpCall where
  port : UInt16
  hasPostData : Bool
  hasServerName : Bool
  deriving DecidableEq, Repr

def HttpCall.https (call : HttpCall) : Bool := call.port = lwipIanaPortHttps

/-- Which of the steps in front of the TLS connection succeed. -/
structure PrepareAnswers where
  socket : Bool
  timeout : Bool
  receiveBuffer : Bool
  connect : Bool
  object : Bool
  postData : Bool
  uri : Bool
  serverName : Bool
  deriving DecidableEq, Repr

/-- How these steps end: by the return in front of the label `_err`, by a jump
to it, or with everything in place. -/
inductive PrepareEnd where
  | returned
  | err
  | ready
  deriving DecidableEq, Repr

/-- The configuration of a request, `ssl_param` when it fails. -/
def httpConfigure (r : ℕ) (configured : Bool) (globals : HttpGlobals) :
    HttpGlobals × List (Op HttpObject) :=
  if configured then
    ({ globals with sslParam := some r }, [.alloc (r, .config)])
  else ({ globals with sslParam := none }, [])

/-- Copies that are made only of arguments that are there. -/
def ifGiven (given : Bool) (ops : List (Op HttpObject)) :
    List (Op HttpObject) :=
  if given then ops else []

/-- From the socket to its connection. -/
def httpConnect (answers : PrepareAnswers) : PrepareEnd :=
  if !answers.socket then .returned
  else if !answers.timeout then .err
  else if !answers.receiveBuffer then .err
  else if !answers.connect then .err
  else .ready

/-- The object of the task and the copies of the arguments; whether all are
made. -/
def httpCopyArguments (r : ℕ) (call : HttpCall) (answers : PrepareAnswers) :
    Bool × List (Op HttpObject) :=
  let object := [.alloc (r, .object)]
  let withPostData :=
    object ++ ifGiven call.hasPostData [.alloc (r, .postData)]
  let withUri := withPostData ++ [.alloc (r, .uri)]
  let freePostData := ifGiven call.hasPostData [.free (r, .postData)]
  if !answers.object then (false, [])
  else if call.hasPostData && !answers.postData then
    (false, object ++ [.free (r, .object)])
  else if !answers.uri then
    (false, withPostData ++ freePostData ++ [.free (r, .object)])
  else if call.hasServerName && !answers.serverName then
    (false, withUri ++ [.free (r, .uri)] ++ freePostData ++
      [.free (r, .object)])
  else
    (true, withUri ++
      ifGiven call.hasServerName [.alloc (r, .serverName)])

/-- From the socket to the copy of the server name. -/
def httpPrepare (r : ℕ) (call : HttpCall) (answers : PrepareAnswers) :
    PrepareEnd × List (Op HttpObject) :=
  match httpConnect answers with
  | .returned => (.returned, [])
  | .err => (.err, [.alloc (r, .socket)])
  | .ready =>
      let copied := httpCopyArguments r call answers
      (if copied.1 then .ready else .err, .alloc (r, .socket) :: copied.2)

/-- A use of the object behind a handle. -/
def useHandle (handle : Option ℕ) (resource : HttpResource) :
    List (Op HttpObject) :=
  (handle.map fun c => .use (c, resource)).toList

/-- `ssl_destroy`; a handle that is null is passed over. -/
def sslDestroy (config connection : Option ℕ) : List (Op HttpObject) :=
  (connection.map fun c => .free (c, .connection)).toList ++
    (config.map fun c => .free (c, .config)).toList

/-- `ssl_secure_connection` on the socket of the request, with the configuration
that it is given. -/
def httpSecure (r : ℕ) (config : Option ℕ) (answers : SecureAnswers) :
    Option ℕ × List (Op HttpObject) :=
  let result := sslSecureConnection true .optional answers
  let opened := [.alloc (r, .connection)] ++ useHandle config .config
  if result.connection then (some r, opened)
  else if answers.allocated then
    (none, opened ++ List.replicate result.closes (.free (r, .socket)) ++
      [.free (r, .connection)])
  else (none, [])

/-- The copies of the arguments and the object of the task. -/
def httpFreeArguments (r : ℕ) (call : HttpCall) : List (Op HttpObject) :=
  ifGiven call.hasServerName [.free (r, .serverName)] ++
    ifGiven call.hasPostData [.free (r, .postData)] ++
    [.free (r, .uri), .free (r, .object)]

/-- The end of the TLS connection when no task was created. -/
def httpAbandon (call : HttpCall) (globals : HttpGlobals) :
    List (Op HttpObject) :=
  if call.https then
    useHandle globals.connParam .connection ++
      sslDestroy none globals.connParam
  else []

/-- The label `_err` of the request. -/
def httpErr (r : ℕ) (call : HttpCall) (globals : HttpGlobals) :
    List (Op HttpObject) :=
  if call.https then sslDestroy globals.sslParam none
  else [.free (r, .socket)]

/-- One `send`, `recv`, `mbedtls_ssl_write` or `mbedtls_ssl_read` of the
task. -/
def httpExchange (r : ℕ) (call : HttpCall) (globals : HttpGlobals) :
    List (Op HttpObject) :=
  if call.https then useHandle globals.connParam .connection
  else [.use (r, .socket)]

/-- The end of the connection of the task. -/
def httpClose (r : ℕ) (call : HttpCall) (globals : HttpGlobals) :
    List (Op HttpObject) :=
  if call.https then
    useHandle globals.connParam .connection ++
      sslDestroy globals.sslParam globals.connParam
  else [.free (r, .socket)]

/-! ## A request and its task -/

/-- The answers of everything that a call needs. -/
structure RequestAnswers where
  configured : Bool
  prepare : PrepareAnswers
  secure : SecureAnswers
  created : Bool
  deriving DecidableEq, Repr

/-- The end of a call: its result, the handles, and what was done. -/
structure RequestEnd where
  status : HttpStatus
  globals : HttpGlobals
  ops : List (Op HttpObject)

/-- From the TLS connection on. -/
def httpLaunch (r : ℕ) (call : HttpCall) (answers : RequestAnswers)
    (globals : HttpGlobals) (ops : List (Op HttpObject)) : RequestEnd :=
  let secured :=
    if call.https then httpSecure r globals.sslParam answers.secure
    else (globals.connParam, [])
  let globals := { globals with connParam := secured.1 }
  let ops := ops ++ secured.2
  if call.https && globals.connParam.isNone then
    ⟨.err, globals, ops ++ httpErr r call globals⟩
  else if answers.created then ⟨.success, globals, ops⟩
  else
    ⟨.err, globals, ops ++ httpAbandon call globals ++
      httpFreeArguments r call ++ httpErr r call globals⟩

def httpClientRequest (r : ℕ) (call : HttpCall) (answers : RequestAnswers)
    (globals : HttpGlobals) : RequestEnd :=
  let configured :=
    if call.https then httpConfigure r answers.configured globals
    else (globals, [])
  let globals := configured.1
  if call.https && globals.sslParam.isNone then
    ⟨.err, globals, configured.2 ++ httpErr r call globals⟩
  else
    let prepared := httpPrepare r call answers.prepare
    let ops := configured.2 ++ prepared.2
    match prepared.1 with
    | .returned => ⟨.err, globals, ops⟩
    | .err => ⟨.err, globals, ops ++ httpErr r call globals⟩
    | .ready => httpLaunch r call answers globals ops

/-- The task, with the number of operations on the connection until it leaves
its exchange with the server; none when it never does. -/
def httpClientTask (r : ℕ) (call : HttpCall) (exchange : Option ℕ)
    (globals : HttpGlobals) : Option (List (Op HttpObject)) :=
  exchange.map fun n =>
    (List.replicate n (httpExchange r call globals)).flatten ++
      httpClose r call globals ++ httpFreeArguments r call

/-- What a call acquired is released exactly once, by the call when it fails and
by the task it creates otherwise. -/
def Released (r : ℕ) (call : HttpCall) (exchange : Option ℕ)
    (request : RequestEnd) : Prop :=
  match request.status with
  | .err => Settled request.ops
  | .success => ∃ ops, httpClientTask r call exchange request.globals =
      some ops ∧ Settled (request.ops ++ ops)

def ReleasesAll (r : ℕ) (call : HttpCall) (answers : RequestAnswers)
    (exchange : Option ℕ) (globals : HttpGlobals) : Prop :=
  Released r call exchange (httpClientRequest r call answers globals)

/-- Over the call and the task that it creates, what the call acquired is
released exactly once. -/
theorem Released.exactly_once {r : ℕ} {call : HttpCall} {exchange : Option ℕ}
    {request : RequestEnd} (h : Released r call exchange request)
    {o : HttpObject} (ho : .alloc o ∈ request.ops) :
    ∃ done, (request.status = .err → done = []) ∧
      (request.status = .success →
        httpClientTask r call exchange request.globals = some done) ∧
      (request.ops ++ done).count (.free o) = 1 := by
  rw [Released] at h
  cases hstatus : request.status with
  | err =>
      rw [hstatus] at h
      refine ⟨[], fun _ => rfl, HttpStatus.noConfusion, ?_⟩
      rw [List.append_nil]
      exact h.count_free ho
  | success =>
      rw [hstatus] at h
      obtain ⟨done, htask, hsettled⟩ := h
      exact ⟨done, HttpStatus.noConfusion, fun _ => htask,
        hsettled.count_free (List.mem_append_left _ ho)⟩

/-! ## The steps in front of the TLS connection -/

/-- Everything succeeds that the call needs. -/
structure PrepareAnswers.Succeeds (answers : PrepareAnswers)
    (call : HttpCall) : Prop where
  socket : answers.socket = true
  timeout : answers.timeout = true
  receiveBuffer : answers.receiveBuffer = true
  connect : answers.connect = true
  object : answers.object = true
  postData : call.hasPostData = true → answers.postData = true
  uri : answers.uri = true
  serverName : call.hasServerName = true → answers.serverName = true

theorem httpConnect_of_no_socket {answers : PrepareAnswers}
    (h : answers.socket = false) : httpConnect answers = .returned := by
  simp [httpConnect, h]

/-- Behind the socket a failure is a jump to the label. -/
theorem httpConnect_of_socket {answers : PrepareAnswers}
    (h : answers.socket = true) :
    httpConnect answers =
      if answers.timeout ∧ answers.receiveBuffer ∧ answers.connect then .ready
      else .err := by
  simp only [httpConnect, h]
  cases answers.timeout
  · rfl
  · cases answers.receiveBuffer
    · rfl
    · cases answers.connect
      · rfl
      · rfl

theorem httpPrepare_ne_returned (r : ℕ) (call : HttpCall)
    {answers : PrepareAnswers} (h : answers.socket = true) :
    (httpPrepare r call answers).1 ≠ .returned := by
  rw [httpPrepare, httpConnect_of_socket h]
  split_ifs
  · simp only
    split <;> exact PrepareEnd.noConfusion
  · exact PrepareEnd.noConfusion

/-- A log of the resources of one request, given by their names. -/
theorem settled_own (r : ℕ) (ops : List (Op HttpResource))
    (h : Settled ops) : Settled (ops.map (Op.map (Prod.mk r))) :=
  h.map (Prod.mk_right_injective r)

/-- What was copied in front of a failure is released again. -/
theorem httpCopyArguments_of_failure (r : ℕ) {call : HttpCall}
    {answers : PrepareAnswers}
    (h : ¬ (answers.object = true ∧
      (call.hasPostData = true → answers.postData = true) ∧
      answers.uri = true ∧
      (call.hasServerName = true → answers.serverName = true))) :
    ∃ ops, httpCopyArguments r call answers = (false, ops) ∧ Settled ops := by
  obtain ⟨port, hasPostData, hasServerName⟩ := call
  by_cases hobject : answers.object = true
  · by_cases hpost : hasPostData = true ∧ answers.postData = false
    · refine ⟨[.alloc (r, .object), .free (r, .object)], ?_, ?_⟩
      · simp [httpCopyArguments, hobject, hpost]
      · exact settled_own r [.alloc .object, .free .object]
          ⟨by decide, by decide⟩
    · have hcopied : (hasPostData && !answers.postData) = false := by
        simpa using hpost
      by_cases huri : answers.uri = true
      · have hname : hasServerName = true ∧ answers.serverName = false := by
          by_contra hname
          apply h
          simp only at hpost ⊢
          simp_all
        simp only [httpCopyArguments, hobject, hcopied, huri, hname]
        refine ⟨_, rfl, ?_⟩
        cases hasPostData
        · exact settled_own r [.alloc .object, .alloc .uri, .free .uri,
            .free .object] ⟨by decide, by decide⟩
        · exact settled_own r [.alloc .object, .alloc .postData, .alloc .uri,
            .free .uri, .free .postData, .free .object] ⟨by decide, by decide⟩
      · simp only [httpCopyArguments, hobject, hcopied, huri]
        refine ⟨_, rfl, ?_⟩
        cases hasPostData
        · exact settled_own r [.alloc .object, .free .object]
            ⟨by decide, by decide⟩
        · exact settled_own r [.alloc .object, .alloc .postData,
            .free .postData, .free .object] ⟨by decide, by decide⟩
  · refine ⟨[], ?_, ?_⟩
    · simp [httpCopyArguments, hobject]
    · exact ⟨by decide, by decide⟩

theorem httpCopyArguments_of_success (r : ℕ) {call : HttpCall}
    {answers : PrepareAnswers}
    (h : answers.object = true ∧
      (call.hasPostData = true → answers.postData = true) ∧
      answers.uri = true ∧
      (call.hasServerName = true → answers.serverName = true)) :
    ∃ ops, httpCopyArguments r call answers = (true, ops) ∧
      Settled (ops ++ httpFreeArguments r call) ∧ frees ops = [] ∧
      (r, .object) ∈ allocs ops := by
  obtain ⟨port, hasPostData, hasServerName⟩ := call
  obtain ⟨hobject, hpost, huri, hname⟩ := h
  have hcopied : (hasPostData && !answers.postData) = false := by
    simpa using hpost
  have hnamed : (hasServerName && !answers.serverName) = false := by
    simpa using hname
  simp only [httpCopyArguments, hobject, hcopied, huri, hnamed]
  refine ⟨_, rfl, ?_, ?_, ?_⟩
  · cases hasPostData
    · cases hasServerName
      · exact settled_own r [.alloc .object, .alloc .uri, .free .uri,
          .free .object] ⟨by decide, by decide⟩
      · exact settled_own r [.alloc .object, .alloc .uri, .alloc .serverName,
          .free .serverName, .free .uri, .free .object]
          ⟨by decide, by decide⟩
    · cases hasServerName
      · exact settled_own r [.alloc .object, .alloc .postData, .alloc .uri,
          .free .postData, .free .uri, .free .object] ⟨by decide, by decide⟩
      · exact settled_own r [.alloc .object, .alloc .postData, .alloc .uri,
          .alloc .serverName, .free .serverName, .free .postData, .free .uri,
          .free .object] ⟨by decide, by decide⟩
  · cases hasPostData <;> cases hasServerName <;> rfl
  · exact List.mem_cons_self

@[simp] theorem allocs_httpFreeArguments (r : ℕ) (call : HttpCall) :
    allocs (httpFreeArguments r call) = [] := by
  obtain ⟨port, hasPostData, hasServerName⟩ := call
  cases hasPostData <;> cases hasServerName <;> rfl

theorem socket_not_mem_allocs_copy (r : ℕ) (call : HttpCall)
    (answers : PrepareAnswers) :
    (r, .socket) ∉ allocs (httpCopyArguments r call answers).2 := by
  obtain ⟨port, hasPostData, hasServerName⟩ := call
  unfold httpCopyArguments
  cases hasPostData <;> cases hasServerName <;> split_ifs <;>
    simp [ifGiven, allocs]

@[simp] theorem allocs_useHandle (handle : Option ℕ) (resource : HttpResource) :
    allocs (useHandle handle resource) = [] := by
  cases handle <;> rfl

@[simp] theorem frees_useHandle (handle : Option ℕ) (resource : HttpResource) :
    frees (useHandle handle resource) = [] := by
  cases handle <;> rfl

/-- The exchange with the server acquires and releases nothing. -/
@[simp] theorem allocs_exchanges (r : ℕ) (call : HttpCall)
    (globals : HttpGlobals) (n : ℕ) :
    allocs (List.replicate n (httpExchange r call globals)).flatten = [] := by
  apply allocs_flatten_replicate
  unfold httpExchange
  split
  · exact allocs_useHandle _ _
  · rfl

@[simp] theorem frees_exchanges (r : ℕ) (call : HttpCall)
    (globals : HttpGlobals) (n : ℕ) :
    frees (List.replicate n (httpExchange r call globals)).flatten = [] := by
  apply frees_flatten_replicate
  unfold httpExchange
  split
  · exact frees_useHandle _ _
  · rfl

/-! ## Which calls release everything -/

/-- What is left of a call is its socket. -/
structure KeepsSocket (r : ℕ) (ops : List (Op HttpObject)) : Prop where
  settled : Settled (ops ++ [.free (r, .socket)])
  socket : (r, .socket) ∈ allocs ops

theorem KeepsSocket.not_mem_frees {r : ℕ} {ops : List (Op HttpObject)}
    (h : KeepsSocket r ops) : (r, .socket) ∉ frees ops := by
  have hnodup := (h.settled.freed.nodup_iff).mpr h.settled.nodup
  rw [frees_append, List.nodup_append] at hnodup
  intro hmem
  exact hnodup.2.2 _ hmem _ (List.mem_singleton.mpr rfl) rfl

/-- A jump to the label leaves the socket; the end leaves beside it what
`httpFreeArguments` releases. -/
theorem httpPrepare_cases (r : ℕ) (call : HttpCall) (answers : PrepareAnswers) :
    (¬ answers.Succeeds call ∧
      httpPrepare r call answers = (.returned, [])) ∨
    (¬ answers.Succeeds call ∧ ∃ ops,
      httpPrepare r call answers = (.err, ops) ∧ KeepsSocket r ops) ∨
    (answers.Succeeds call ∧ ∃ ops,
      httpPrepare r call answers = (.ready, ops) ∧
        KeepsSocket r (ops ++ httpFreeArguments r call) ∧ frees ops = [] ∧
        (r, .object) ∈ allocs ops) := by
  by_cases hsocket : answers.socket = true
  · right
    have hconnect := httpConnect_of_socket hsocket
    by_cases hready : answers.timeout ∧ answers.receiveBuffer ∧ answers.connect
    · rw [if_pos hready] at hconnect
      have hnew := socket_not_mem_allocs_copy r call answers
      by_cases hcopy : answers.object = true ∧
          (call.hasPostData = true → answers.postData = true) ∧
          answers.uri = true ∧
          (call.hasServerName = true → answers.serverName = true)
      · right
        obtain ⟨ops, hops, hsettled, hfrees, hobject⟩ :=
          httpCopyArguments_of_success r hcopy
        rw [hops] at hnew
        refine ⟨⟨hsocket, hready.1, hready.2.1, hready.2.2, hcopy.1, hcopy.2.1,
          hcopy.2.2.1, hcopy.2.2.2⟩, .alloc (r, .socket) :: ops, ?_,
          ⟨?_, List.mem_cons_self⟩, hfrees, List.mem_cons_of_mem _ hobject⟩
        · simp only [httpPrepare, hconnect, hops, if_true]
        · apply hsettled.bracket
          rw [allocs_append, allocs_httpFreeArguments, List.append_nil]
          exact hnew
      · left
        obtain ⟨ops, hops, hsettled⟩ := httpCopyArguments_of_failure r hcopy
        rw [hops] at hnew
        refine ⟨?_, .alloc (r, .socket) :: ops, ?_,
          hsettled.bracket hnew, List.mem_cons_self⟩
        · intro h
          exact hcopy ⟨h.object, h.postData, h.uri, h.serverName⟩
        · simp only [httpPrepare, hconnect, hops, Bool.false_eq_true, if_false]
    · left
      rw [if_neg hready] at hconnect
      refine ⟨?_, [.alloc (r, .socket)], ?_,
        settled_own r [.alloc .socket, .free .socket] ⟨by decide, by decide⟩,
        List.mem_cons_self⟩
      · intro h
        exact hready ⟨h.timeout, h.receiveBuffer, h.connect⟩
      · simp only [httpPrepare, hconnect]
  · left
    have hconnect := httpConnect_of_no_socket
      (Bool.eq_false_of_not_eq_true hsocket)
    refine ⟨fun h => hsocket h.socket, ?_⟩
    simp only [httpPrepare, hconnect]

/-- `ssl_destroy` releases nothing else. -/
theorem not_mem_frees_sslDestroy (config connection : Option ℕ) (r : ℕ)
    {resource : HttpResource} (hconfig : resource ≠ .config)
    (hconnection : resource ≠ .connection) :
    (r, resource) ∉ frees (sslDestroy config connection) := by
  cases connection <;> cases config <;>
    simp [sslDestroy, frees, hconfig, hconnection]

/-- A connection, or nothing, or a connection that is gone together with the
socket. -/
theorem httpSecure_cases (r : ℕ) (config : Option ℕ) (answers : SecureAnswers) :
    httpSecure r config answers =
        (some r, .alloc (r, .connection) :: useHandle config .config) ∨
    httpSecure r config answers = (none, []) ∨
    httpSecure r config answers =
      (none, .alloc (r, .connection) :: useHandle config .config ++
        [.free (r, .socket), .free (r, .connection)]) := by
  by_cases hconnection :
      (sslSecureConnection true .optional answers).connection = true
  · left
    simp [httpSecure, hconnection]
  · right
    by_cases hallocated : answers.allocated = true
    · right
      have hcloses := sslSecureConnection_closes true .optional answers
      rw [if_neg hconnection, if_pos hallocated] at hcloses
      simp [httpSecure, hconnection, hallocated, hcloses]
    · left
      simp [httpSecure, hconnection, hallocated]

/-- A configured request goes on with the preparation. -/
theorem httpClientRequest_of_configured (r : ℕ) {call : HttpCall}
    (answers : RequestAnswers) {globals globals' : HttpGlobals}
    {ops : List (Op HttpObject)}
    (hconfigure : (if call.https then
      httpConfigure r answers.configured globals else (globals, [])) =
        (globals', ops))
    (hconfig : call.https = true → globals'.sslParam ≠ none) :
    httpClientRequest r call answers globals =
      match (httpPrepare r call answers.prepare).1 with
      | .returned => ⟨.err, globals',
          ops ++ (httpPrepare r call answers.prepare).2⟩
      | .err => ⟨.err, globals', ops ++
          (httpPrepare r call answers.prepare).2 ++ httpErr r call globals'⟩
      | .ready => httpLaunch r call answers globals'
          (ops ++ (httpPrepare r call answers.prepare).2) := by
  have hpasses : (call.https && globals'.sslParam.isNone) = false := by
    rw [Bool.and_eq_false_imp]
    intro hhttps
    obtain ⟨config, hsome⟩ := Option.ne_none_iff_exists'.mp (hconfig hhttps)
    rw [hsome, Option.isNone_some]
  simp only [httpClientRequest, hconfigure, hpasses, Bool.false_eq_true,
    if_false]

section Plain

variable (r : ℕ) {call : HttpCall} (hplain : call.https = false)
  (answers : RequestAnswers) (exchange : Option ℕ) (globals : HttpGlobals)
include hplain

theorem releasesAll_plain_iff :
    ReleasesAll r call answers exchange globals ↔
      (answers.prepare.Succeeds call → answers.created = true →
        exchange.isSome = true) := by
  rcases httpPrepare_cases r call answers.prepare with
    ⟨hfails, hprepare⟩ | ⟨hfails, ops, hprepare, hkeeps⟩ |
      ⟨hsucceeds, ops, hprepare, hkeeps, hfrees, hobject⟩
  · have hempty : Settled ([] : List (Op HttpObject)) := ⟨by decide, by decide⟩
    simp [ReleasesAll, Released, httpClientRequest, hplain, hprepare, hfails,
      hempty]
  · simp [ReleasesAll, Released, httpClientRequest, hplain, hprepare, hfails,
      httpErr, hkeeps.settled]
  · have hrequest : httpClientRequest r call answers globals =
        httpLaunch r call answers globals ops := by
      simp [httpClientRequest, hplain, hprepare]
    by_cases hcreated : answers.created = true
    · have hend : httpLaunch r call answers globals ops =
          ⟨.success, globals, ops⟩ := by
        simp [httpLaunch, hplain, hcreated]
      simp only [ReleasesAll, Released, hrequest, hend, hsucceeds, hcreated,
        true_imp_iff]
      constructor
      · rintro ⟨done, htask, -⟩
        obtain ⟨n, hn, -⟩ := Option.map_eq_some_iff.mp htask
        rw [hn]
        rfl
      · intro hends
        obtain ⟨n, rfl⟩ := Option.isSome_iff_exists.mp hends
        refine ⟨_, rfl, hkeeps.settled.congr ?_ ?_⟩
        · simp [httpClose, hplain, allocs]
        · simp only [httpClose, hplain, frees_append, frees_exchanges, hfrees,
            Bool.false_eq_true, if_false, List.nil_append]
          exact List.perm_append_comm
    · have hend : (httpLaunch r call answers globals ops).status = .err ∧
          (httpLaunch r call answers globals ops).ops =
            ops ++ httpFreeArguments r call ++ [.free (r, .socket)] := by
        simp [httpLaunch, hplain, hcreated, httpAbandon, httpErr]
      simp only [ReleasesAll, Released, hrequest, hend.1, hend.2,
        hkeeps.settled, true_iff]
      intro _ h
      exact absurd h hcreated

end Plain

section Https

variable (r : ℕ) {call : HttpCall} (hhttps : call.https = true)
  {answers : RequestAnswers} (exchange : Option ℕ) (globals : HttpGlobals)
include hhttps

theorem releasesAll_https_of_not (hconfigured : answers.configured = false) :
    ReleasesAll r call answers exchange globals := by
  have hempty : Settled ([] : List (Op HttpObject)) := ⟨by decide, by decide⟩
  simp [ReleasesAll, Released, httpClientRequest, hhttps, httpConfigure,
    hconfigured, httpErr, sslDestroy, hempty]

/-- With all arguments copied the object is lost when there is no connection,
and the socket when there is one. -/
theorem not_released_httpLaunch (hconfig : globals.sslParam = some r)
    {ops : List (Op HttpObject)} (hsocket : (r, .socket) ∈ allocs ops)
    (hobject : (r, .object) ∈ allocs ops) (hfrees : frees ops = [])
    (hlost : (r, .socket) ∉ frees (httpFreeArguments r call)) :
    ¬ Released r call exchange (httpLaunch r call answers globals ops) := by
  have hdestroy : ∀ config connection,
      (r, .socket) ∉ frees (sslDestroy config connection) ∧
        (r, .object) ∉ frees (sslDestroy config connection) := by
    intro config connection
    exact ⟨not_mem_frees_sslDestroy _ _ r (by decide) (by decide),
      not_mem_frees_sslDestroy _ _ r (by decide) (by decide)⟩
  rcases httpSecure_cases r (some r) answers.secure with
    hsecure | hsecure | hsecure
  · by_cases hcreated : answers.created = true
    · have hend : httpLaunch r call answers globals ops =
          ⟨.success, ⟨some r, some r⟩,
            ops ++ (.alloc (r, .connection) :: useHandle (some r) .config)⟩ := by
        simp [httpLaunch, hhttps, hconfig, hsecure, hcreated]
      rw [hend]
      rintro ⟨done, htask, hsettled⟩
      obtain ⟨n, -, rfl⟩ := Option.map_eq_some_iff.mp htask
      apply not_settled_of_lost (o := (r, .socket)) _ _ hsettled
      · simp [allocs, hsocket]
      · simp [frees, hfrees, httpClose, hhttps, hdestroy, hlost]
    · have hend : httpLaunch r call answers globals ops =
          ⟨.err, ⟨some r, some r⟩,
            ops ++ (.alloc (r, .connection) :: useHandle (some r) .config) ++
              (useHandle (some r) .connection ++ sslDestroy none (some r)) ++
              httpFreeArguments r call ++ sslDestroy (some r) none⟩ := by
        simp [httpLaunch, hhttps, hconfig, hsecure, hcreated, httpAbandon,
          httpErr]
      rw [hend]
      apply not_settled_of_lost (o := (r, .socket))
      · simp [allocs, hsocket]
      · simp [frees, hfrees, hdestroy, hlost]
  · have hend : httpLaunch r call answers globals ops =
        ⟨.err, ⟨none, some r⟩, ops ++ [] ++ sslDestroy (some r) none⟩ := by
      simp [httpLaunch, hhttps, hconfig, hsecure, httpErr]
    rw [hend]
    apply not_settled_of_lost (o := (r, .object))
    · simp [hobject]
    · simp [hfrees, hdestroy]
  · have hend : httpLaunch r call answers globals ops =
        ⟨.err, ⟨none, some r⟩,
          ops ++ (.alloc (r, .connection) :: useHandle (some r) .config ++
            [.free (r, .socket), .free (r, .connection)]) ++
          sslDestroy (some r) none⟩ := by
      simp [httpLaunch, hhttps, hconfig, hsecure, httpErr]
    rw [hend]
    apply not_settled_of_lost (o := (r, .object))
    · simp [allocs, hobject]
    · simp [frees, hfrees, hdestroy]

/-- A configured request loses its configuration, its socket or its object. -/
theorem not_releasesAll_https (hconfigured : answers.configured = true) :
    ¬ ReleasesAll r call answers exchange globals := by
  have hconfigure : (if call.https then
      httpConfigure r answers.configured globals else (globals, [])) =
        ({ globals with sslParam := some r }, [.alloc (r, .config)]) := by
    rw [if_pos hhttps, httpConfigure, if_pos hconfigured]
  rw [ReleasesAll, httpClientRequest_of_configured r answers hconfigure
    (fun _ => Option.some_ne_none r)]
  rcases httpPrepare_cases r call answers.prepare with
    ⟨-, hprepare⟩ | ⟨-, ops, hprepare, hkeeps⟩ |
      ⟨-, ops, hprepare, hkeeps, hfrees, hobject⟩
  · rw [hprepare]
    exact not_settled_of_lost (o := (r, .config)) (by simp [allocs])
      (by simp [frees])
  · rw [hprepare]
    apply not_settled_of_lost (o := (r, .socket))
    · simp [allocs, hkeeps.socket]
    · simp [frees, hkeeps.not_mem_frees, httpErr, hhttps, sslDestroy]
  · have hsocket := hkeeps.socket
    have hlost := hkeeps.not_mem_frees
    rw [allocs_append, allocs_httpFreeArguments, List.append_nil] at hsocket
    rw [frees_append, hfrees, List.nil_append] at hlost
    rw [hprepare]
    exact not_released_httpLaunch r hhttps exchange _ rfl
      (List.mem_cons_of_mem _ hsocket) (List.mem_cons_of_mem _ hobject) hfrees
      hlost

end Https

/-- When a call and its task release everything. -/
def ReleaseCondition (call : HttpCall) (answers : RequestAnswers)
    (exchange : Option ℕ) : Prop :=
  if call.https then answers.configured = false
  else answers.prepare.Succeeds call → answers.created = true →
    exchange.isSome = true

/-- The condition for an exchange that ends as `HTTP_Client_task` does behind a request that
was sent: it depends on the peer only through the wait for the header. -/
theorem releaseCondition_of_peer {call : HttpCall} {answers : RequestAnswers}
    {exchange : Option ℕ} {settings : HttpSettings} {reqType : HttpReqType} {peer : Peer}
    (hexchange : exchange.isSome = true ↔ ResponseEnds settings reqType peer) :
    ReleaseCondition call answers exchange ↔
      if call.https then answers.configured = false
      else answers.prepare.Succeeds call → answers.created = true →
        peer.ending < 0 ∨ httpClientHeadMaxRespBufferSize ≤ peer.stream.length ∨
          HasHeader peer := by
  rw [ReleaseCondition, hexchange, responseEnds_iff]

/-- Everything is released exactly once if and only if the port is not that of
HTTPS and the exchange of the task ends, or the configuration failed. -/
theorem httpClientRequest_releasesAll_iff (r : ℕ) (call : HttpCall)
    (answers : RequestAnswers) (exchange : Option ℕ) (globals : HttpGlobals) :
    ReleasesAll r call answers exchange globals ↔
      ReleaseCondition call answers exchange := by
  unfold ReleaseCondition
  by_cases hhttps : call.https = true
  · rw [if_pos hhttps]
    constructor
    · intro hreleases
      by_contra hconfigured
      exact not_releasesAll_https r hhttps exchange globals
        (Bool.eq_true_of_not_eq_false hconfigured) hreleases
    · exact releasesAll_https_of_not r hhttps exchange globals
  · rw [if_neg hhttps]
    exact releasesAll_plain_iff r (Bool.eq_false_of_not_eq_true hhttps) answers
      exchange globals

/-- All steps of a request succeed. -/
def allSucceed : RequestAnswers :=
  ⟨true, ⟨true, true, true, true, true, true, true, true⟩,
    ⟨true, true, .done, 0⟩, true⟩

/-- A request on the HTTPS port loses its socket when all steps succeed, and
its configuration when there is no socket. -/
theorem not_releasesAll_https_port :
    ¬ ReleasesAll 0 ⟨443, false, true⟩ allSucceed (some 2) ⟨none, none⟩ ∧
      ¬ ReleasesAll 0 ⟨443, false, true⟩
        { allSucceed with prepare := { allSucceed.prepare with socket := false } }
        (some 2) ⟨none, none⟩ :=
  ⟨not_releasesAll_https 0 rfl _ _ rfl, not_releasesAll_https 0 rfl _ _ rfl⟩

end RtpMulticast
