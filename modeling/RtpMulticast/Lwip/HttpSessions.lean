import RtpMulticast.Lwip.HttpRequest
import RtpMulticast.Support.Machine
import Mathlib.Logic.Function.Basic

/-!
# Concurrent HTTP requests

The machine that interleaves calls of `HTTP_Client_Request` and the tasks they
create.  A request and its task are one activity, since the call does nothing
more once the task is there.  An activity is cut where it reads or writes
`conn_param` or `ssl_param`, which all of them share: between the configuration
and the connection of one request another one may overwrite both.
-/

namespace RtpMulticast

open UsageLog

/-! ## The machine -/

/-- Where an activity stands; in `securing` the call of `ssl_secure_connection`
has read its configuration. -/
inductive HttpPc where
  | idle
  | configure
  | checkConfig
  | prepare
  | secure
  | securing (config : Option ℕ)
  | checkConnection
  | create
  | abandon
  | abandonDestroy
  | err
  | returned
  | task
  | closeNotify
  | destroy
  | ended
  /-- A handle that was null was followed. -/
  | crashed
  deriving DecidableEq, Repr

/-- An activity, with what it has done. -/
structure HttpActivity where
  pc : HttpPc
  ops : List (Op HttpObject)

structure HttpSystem where
  globals : HttpGlobals
  activity : ℕ → HttpActivity

/-- Nothing was requested yet. -/
def HttpSystem.fresh : HttpSystem := ⟨⟨none, none⟩, fun _ => ⟨.idle, []⟩⟩

/-- The answers of a step; `next` has none. -/
inductive HttpAction where
  | call
  | configure (ok : Bool)
  | prepare (answers : PrepareAnswers)
  | secured (answers : SecureAnswers)
  | create (ok : Bool)
  | exchange
  | leave
  | next
  deriving DecidableEq, Repr

/-- A step through `conn_param`, which must not be null. -/
def throughConnection (call : HttpCall) (globals : HttpGlobals)
    (activity : HttpActivity) : HttpActivity :=
  if call.https && globals.connParam.isNone then
    { activity with pc := .crashed }
  else activity

theorem throughConnection_of_connected {call : HttpCall}
    {globals : HttpGlobals} {connection : ℕ}
    (h : globals.connParam = some connection) (activity : HttpActivity) :
    throughConnection call globals activity = activity := by
  simp [throughConnection, h]

/-- A step of the activity of request `r`. -/
def httpActivityStep (r : ℕ) (call : HttpCall) (globals : HttpGlobals)
    (activity : HttpActivity) (action : HttpAction) :
    Option (HttpGlobals × HttpActivity) :=
  let ops := activity.ops
  match activity.pc, action with
  | .idle, .call =>
      some (globals, ⟨if call.https then .configure else .prepare, ops⟩)
  | .configure, .configure ok =>
      let configured := httpConfigure r ok globals
      some (configured.1, ⟨.checkConfig, ops ++ configured.2⟩)
  | .checkConfig, .next =>
      some (globals, ⟨if globals.sslParam.isNone then .err else .prepare, ops⟩)
  | .prepare, .prepare answers =>
      let prepared := httpPrepare r call answers
      some (globals, ⟨match prepared.1 with
        | .returned => .returned
        | .err => .err
        | .ready => if call.https then .secure else .create,
        ops ++ prepared.2⟩)
  | .secure, .next => some (globals, ⟨.securing globals.sslParam, ops⟩)
  | .securing config, .secured answers =>
      if answers.allocated && config.isNone then
        some (globals, ⟨.crashed, ops⟩)
      else
        let secured := httpSecure r config answers
        some ({ globals with connParam := secured.1 },
          ⟨.checkConnection, ops ++ secured.2⟩)
  | .checkConnection, .next =>
      some (globals, ⟨if globals.connParam.isNone then .err else .create, ops⟩)
  | .create, .create ok =>
      if ok then some (globals, ⟨.task, ops⟩)
      else if call.https then some (globals, ⟨.abandon, ops⟩)
      else some (globals, ⟨.err, ops ++ httpFreeArguments r call⟩)
  | .abandon, .next =>
      some (globals, throughConnection call globals
        ⟨.abandonDestroy, ops ++ useHandle globals.connParam .connection⟩)
  | .abandonDestroy, .next =>
      some (globals, ⟨.err, ops ++ sslDestroy none globals.connParam ++
        httpFreeArguments r call⟩)
  | .err, .next => some (globals, ⟨.returned, ops ++ httpErr r call globals⟩)
  | .task, .exchange =>
      some (globals, throughConnection call globals
        ⟨.task, ops ++ httpExchange r call globals⟩)
  | .task, .leave =>
      if call.https then some (globals, ⟨.closeNotify, ops⟩)
      else
        some (globals, ⟨.ended, ops ++ httpClose r call globals ++
          httpFreeArguments r call⟩)
  | .closeNotify, .next =>
      some (globals, throughConnection call globals
        ⟨.destroy, ops ++ useHandle globals.connParam .connection⟩)
  | .destroy, .next =>
      some (globals, ⟨.ended,
        ops ++ sslDestroy globals.sslParam globals.connParam ++
          httpFreeArguments r call⟩)
  | _, _ => none

/-- The interleavings of the activities, for requests with these arguments. -/
def httpMachine (calls : ℕ → HttpCall) :
    Machine HttpSystem (ℕ × HttpAction) where
  init s := s = .fresh
  step s a := do
    let (globals, activity) ←
      httpActivityStep a.1 (calls a.1) s.globals (s.activity a.1) a.2
    return ⟨globals, Function.update s.activity a.1 activity⟩

/-! ## What a step can do -/

/-- What a step of an activity can do, by the place where it stands. -/
inductive HttpMove (r : ℕ) (call : HttpCall) (globals : HttpGlobals)
    (ops : List (Op HttpObject)) :
    HttpPc → HttpAction → HttpGlobals → HttpActivity → Prop
  | call : HttpMove r call globals ops .idle .call globals
      ⟨if call.https then .configure else .prepare, ops⟩
  | configure (ok : Bool) :
      HttpMove r call globals ops .configure (.configure ok)
        (httpConfigure r ok globals).1
        ⟨.checkConfig, ops ++ (httpConfigure r ok globals).2⟩
  | configured (h : globals.sslParam ≠ none) :
      HttpMove r call globals ops .checkConfig .next globals ⟨.prepare, ops⟩
  | notConfigured (h : globals.sslParam = none) :
      HttpMove r call globals ops .checkConfig .next globals ⟨.err, ops⟩
  | noSocket (answers : PrepareAnswers)
      (h : (httpPrepare r call answers).1 = .returned) :
      HttpMove r call globals ops .prepare (.prepare answers) globals
        ⟨.returned, ops ++ (httpPrepare r call answers).2⟩
  | notPrepared (answers : PrepareAnswers)
      (h : (httpPrepare r call answers).1 = .err) :
      HttpMove r call globals ops .prepare (.prepare answers) globals
        ⟨.err, ops ++ (httpPrepare r call answers).2⟩
  | prepared (answers : PrepareAnswers)
      (h : (httpPrepare r call answers).1 = .ready) :
      HttpMove r call globals ops .prepare (.prepare answers) globals
        ⟨if call.https then .secure else .create,
          ops ++ (httpPrepare r call answers).2⟩
  | secure : HttpMove r call globals ops .secure .next globals
      ⟨.securing globals.sslParam, ops⟩
  | crash (answers : SecureAnswers) :
      HttpMove r call globals ops (.securing none) (.secured answers) globals
        ⟨.crashed, ops⟩
  | secured (config : Option ℕ) (answers : SecureAnswers) :
      HttpMove r call globals ops (.securing config) (.secured answers)
        { globals with connParam := (httpSecure r config answers).1 }
        ⟨.checkConnection, ops ++ (httpSecure r config answers).2⟩
  | connected (h : globals.connParam ≠ none) :
      HttpMove r call globals ops .checkConnection .next globals ⟨.create, ops⟩
  | notConnected (h : globals.connParam = none) :
      HttpMove r call globals ops .checkConnection .next globals ⟨.err, ops⟩
  | created :
      HttpMove r call globals ops .create (.create true) globals ⟨.task, ops⟩
  | notCreated (h : call.https = true) :
      HttpMove r call globals ops .create (.create false) globals
        ⟨.abandon, ops⟩
  | notCreatedPlain (h : call.https = false) :
      HttpMove r call globals ops .create (.create false) globals
        ⟨.err, ops ++ httpFreeArguments r call⟩
  | abandon : HttpMove r call globals ops .abandon .next globals
      (throughConnection call globals
        ⟨.abandonDestroy, ops ++ useHandle globals.connParam .connection⟩)
  | abandonDestroy : HttpMove r call globals ops .abandonDestroy .next globals
      ⟨.err, ops ++ sslDestroy none globals.connParam ++
        httpFreeArguments r call⟩
  | err : HttpMove r call globals ops .err .next globals
      ⟨.returned, ops ++ httpErr r call globals⟩
  | exchange : HttpMove r call globals ops .task .exchange globals
      (throughConnection call globals
        ⟨.task, ops ++ httpExchange r call globals⟩)
  | leave (h : call.https = true) :
      HttpMove r call globals ops .task .leave globals ⟨.closeNotify, ops⟩
  | leavePlain (h : call.https = false) :
      HttpMove r call globals ops .task .leave globals
        ⟨.ended, ops ++ httpClose r call globals ++ httpFreeArguments r call⟩
  | closeNotify : HttpMove r call globals ops .closeNotify .next globals
      (throughConnection call globals
        ⟨.destroy, ops ++ useHandle globals.connParam .connection⟩)
  | destroy : HttpMove r call globals ops .destroy .next globals
      ⟨.ended, ops ++ sslDestroy globals.sslParam globals.connParam ++
        httpFreeArguments r call⟩

theorem httpActivityStep_move {r : ℕ} {call : HttpCall}
    {globals globals' : HttpGlobals} {activity activity' : HttpActivity}
    {action : HttpAction}
    (hstep : httpActivityStep r call globals activity action =
      some (globals', activity')) :
    HttpMove r call globals activity.ops activity.pc action globals'
      activity' := by
  obtain ⟨pc, ops⟩ := activity
  cases pc with
  | idle =>
      cases action with
      | call => cases hstep; exact .call
      | _ => cases hstep
  | configure =>
      cases action with
      | configure ok => cases hstep; exact .configure ok
      | _ => cases hstep
  | checkConfig =>
      cases action with
      | next =>
          cases hconfig : globals.sslParam with
          | none =>
              simp only [httpActivityStep, hconfig, Option.isNone_none, if_true]
                at hstep
              cases hstep
              exact .notConfigured hconfig
          | some config =>
              simp only [httpActivityStep, hconfig, Option.isNone_some,
                Bool.false_eq_true, if_false] at hstep
              cases hstep
              refine .configured ?_
              rw [hconfig]
              exact Option.some_ne_none config
      | _ => cases hstep
  | prepare =>
      cases action with
      | prepare answers =>
          cases hend : (httpPrepare r call answers).1 with
          | returned =>
              simp only [httpActivityStep, hend] at hstep
              cases hstep
              exact .noSocket answers hend
          | err =>
              simp only [httpActivityStep, hend] at hstep
              cases hstep
              exact .notPrepared answers hend
          | ready =>
              simp only [httpActivityStep, hend] at hstep
              cases hstep
              exact .prepared answers hend
      | _ => cases hstep
  | secure =>
      cases action with
      | next => cases hstep; exact .secure
      | _ => cases hstep
  | securing config =>
      cases action with
      | secured answers =>
          by_cases hnull : answers.allocated && config.isNone
          · simp only [httpActivityStep, if_pos hnull] at hstep
            obtain ⟨-, hnone⟩ := Bool.and_eq_true_iff.mp hnull
            obtain rfl := Option.isNone_iff_eq_none.mp hnone
            cases hstep
            exact .crash answers
          · simp only [httpActivityStep, if_neg hnull] at hstep
            cases hstep
            exact .secured config answers
      | _ => cases hstep
  | checkConnection =>
      cases action with
      | next =>
          cases hconnection : globals.connParam with
          | none =>
              simp only [httpActivityStep, hconnection, Option.isNone_none,
                if_true] at hstep
              cases hstep
              exact .notConnected hconnection
          | some connection =>
              simp only [httpActivityStep, hconnection, Option.isNone_some,
                Bool.false_eq_true, if_false] at hstep
              cases hstep
              refine .connected ?_
              rw [hconnection]
              exact Option.some_ne_none connection
      | _ => cases hstep
  | create =>
      cases action with
      | create ok =>
          cases ok
          · by_cases hhttps : call.https = true
            · simp only [httpActivityStep, Bool.false_eq_true, if_false, hhttps,
                if_true] at hstep
              cases hstep
              exact .notCreated hhttps
            · simp only [httpActivityStep, Bool.false_eq_true, if_false,
                if_neg hhttps] at hstep
              cases hstep
              exact .notCreatedPlain (Bool.eq_false_of_not_eq_true hhttps)
          · cases hstep
            exact .created
      | _ => cases hstep
  | abandon =>
      cases action with
      | next => cases hstep; exact .abandon
      | _ => cases hstep
  | abandonDestroy =>
      cases action with
      | next => cases hstep; exact .abandonDestroy
      | _ => cases hstep
  | err =>
      cases action with
      | next => cases hstep; exact .err
      | _ => cases hstep
  | task =>
      cases action with
      | exchange => cases hstep; exact .exchange
      | leave =>
          by_cases hhttps : call.https = true
          · simp only [httpActivityStep, if_pos hhttps] at hstep
            cases hstep
            exact .leave hhttps
          · simp only [httpActivityStep, if_neg hhttps] at hstep
            cases hstep
            exact .leavePlain (Bool.eq_false_of_not_eq_true hhttps)
      | _ => cases hstep
  | closeNotify =>
      cases action with
      | next => cases hstep; exact .closeNotify
      | _ => cases hstep
  | destroy =>
      cases action with
      | next => cases hstep; exact .destroy
      | _ => cases hstep
  | returned => cases hstep
  | ended => cases hstep
  | crashed => cases hstep

/-! ## An activity alone -/

/-- The steps of one activity while no other one moves. -/
def httpActivityRun (r : ℕ) (call : HttpCall) :
    HttpGlobals × HttpActivity → List HttpAction →
      Option (HttpGlobals × HttpActivity)
  | s, [] => some s
  | s, action :: actions =>
      match httpActivityStep r call s.1 s.2 action with
      | some s' => httpActivityRun r call s' actions
      | none => none

/-- Where the activity is when the call has returned. -/
def RequestEnd.pc (request : RequestEnd) : HttpPc :=
  match request.status with
  | .err => .returned
  | .success => .task

/-- Behind the preparation, with the configuration there when it is needed. -/
theorem httpLaunch_run (r : ℕ) {call : HttpCall} (answers : RequestAnswers)
    {globals : HttpGlobals}
    (hconfig : call.https = true → globals.sslParam ≠ none)
    (ops : List (Op HttpObject)) :
    ∃ actions, httpActivityRun r call
        (globals, ⟨if call.https then .secure else .create, ops⟩) actions =
      some ((httpLaunch r call answers globals ops).globals,
        ⟨(httpLaunch r call answers globals ops).pc,
          (httpLaunch r call answers globals ops).ops⟩) := by
  by_cases hhttps : call.https = true
  · obtain ⟨c, hc⟩ := Option.ne_none_iff_exists'.mp (hconfig hhttps)
    by_cases hnone : (httpSecure r (some c) answers.secure).1 = none
    · refine ⟨[.next, .secured answers.secure, .next, .next], ?_⟩
      simp [httpActivityRun, httpActivityStep, httpLaunch, hhttps, hc, hnone,
        RequestEnd.pc]
    · obtain ⟨d, hd⟩ := Option.ne_none_iff_exists'.mp hnone
      by_cases hcreated : answers.created = true
      · refine ⟨[.next, .secured answers.secure, .next, .create true], ?_⟩
        simp [httpActivityRun, httpActivityStep, httpLaunch, hhttps, hc, hd,
          hcreated, RequestEnd.pc]
      · refine ⟨[.next, .secured answers.secure, .next, .create false, .next,
          .next, .next], ?_⟩
        simp [httpActivityRun, httpActivityStep, httpLaunch, hhttps, hc, hd,
          hcreated, RequestEnd.pc, throughConnection, httpAbandon]
  · by_cases hcreated : answers.created = true
    · refine ⟨[.create true], ?_⟩
      simp [httpActivityRun, httpActivityStep, httpLaunch, hhttps, hcreated,
        RequestEnd.pc]
    · refine ⟨[.create false, .next], ?_⟩
      simp [httpActivityRun, httpActivityStep, httpLaunch, hhttps, hcreated,
        RequestEnd.pc, httpAbandon]

theorem httpActivityRun_append (r : ℕ) (call : HttpCall)
    (s : HttpGlobals × HttpActivity) (as bs : List HttpAction) :
    httpActivityRun r call s (as ++ bs) =
      (httpActivityRun r call s as).bind (httpActivityRun r call · bs) := by
  induction as generalizing s with
  | nil => rfl
  | cons a as ih =>
      rw [List.cons_append, httpActivityRun, httpActivityRun]
      cases httpActivityStep r call s.1 s.2 a with
      | none => rfl
      | some s' => exact ih s'

/-- Alone, the steps of a request do what the function does. -/
theorem httpClientRequest_run (r : ℕ) (call : HttpCall)
    (answers : RequestAnswers) (globals : HttpGlobals) :
    ∃ actions, httpActivityRun r call (globals, ⟨.idle, []⟩) actions =
      some ((httpClientRequest r call answers globals).globals,
        ⟨(httpClientRequest r call answers globals).pc,
          (httpClientRequest r call answers globals).ops⟩) := by
  by_cases hconfigured : call.https = true ∧ answers.configured = false
  · refine ⟨[.call, .configure false, .next, .next], ?_⟩
    simp [httpActivityRun, httpActivityStep, httpClientRequest, hconfigured,
      httpConfigure, RequestEnd.pc]
  · obtain ⟨globals', ops, front, hfront, hconfig, hconfigure⟩ :
        ∃ globals' ops front, httpActivityRun r call
            (globals, ⟨.idle, []⟩) front =
              some (globals', ⟨.prepare, ops⟩) ∧
          (call.https = true → globals'.sslParam ≠ none) ∧
          (if call.https then
            httpConfigure r answers.configured globals else (globals, [])) =
              (globals', ops) := by
      by_cases hhttps : call.https = true
      · have hok : answers.configured = true :=
          Bool.eq_true_of_not_eq_false fun h => hconfigured ⟨hhttps, h⟩
        refine ⟨{ globals with sslParam := some r }, [.alloc (r, .config)],
          [.call, .configure true, .next], ?_, ?_, ?_⟩
        · simp [httpActivityRun, httpActivityStep, hhttps, httpConfigure]
        · simp
        · rw [if_pos hhttps, httpConfigure, if_pos hok]
      · refine ⟨globals, [], [.call], ?_, fun h => absurd h hhttps,
          if_neg hhttps⟩
        simp [httpActivityRun, httpActivityStep, hhttps]
    rw [httpClientRequest_of_configured r answers hconfigure hconfig]
    rcases httpPrepare_cases r call answers.prepare with
      ⟨-, hprepare⟩ | ⟨-, done, hprepare, -⟩ | ⟨-, done, hprepare, -⟩
    · refine ⟨front ++ [.prepare answers.prepare], ?_⟩
      simp [httpActivityRun_append, hfront, httpActivityRun, httpActivityStep,
        hprepare, RequestEnd.pc]
    · refine ⟨front ++ [.prepare answers.prepare, .next], ?_⟩
      simp [httpActivityRun_append, hfront, httpActivityRun, httpActivityStep,
        hprepare, RequestEnd.pc]
    · obtain ⟨rest, hrest⟩ := httpLaunch_run r answers hconfig (ops ++ done)
      refine ⟨front ++ .prepare answers.prepare :: rest, ?_⟩
      simp only [httpActivityRun_append, hfront, Option.bind_some,
        httpActivityRun, httpActivityStep, hprepare]
      exact hrest

/-- Alone, the steps of a task do what the function does, with a connection
there when it is needed. -/
theorem httpClientTask_run (r : ℕ) {call : HttpCall} {globals : HttpGlobals}
    (hconnection : call.https = true → globals.connParam ≠ none) (n : ℕ)
    (ops : List (Op HttpObject)) :
    ∃ actions done, httpClientTask r call (some n) globals = some done ∧
      httpActivityRun r call (globals, ⟨.task, ops⟩) actions =
        some (globals, ⟨.ended, ops ++ done⟩) := by
  refine ⟨List.replicate n .exchange ++ .leave ::
    (if call.https then [.next, .next] else []), _, rfl, ?_⟩
  have hthrough (activity : HttpActivity) :
      throughConnection call globals activity = activity := by
    by_cases hhttps : call.https = true
    · obtain ⟨c, hc⟩ := Option.ne_none_iff_exists'.mp (hconnection hhttps)
      exact throughConnection_of_connected hc activity
    · simp [throughConnection, hhttps]
  induction n generalizing ops with
  | zero =>
      by_cases hhttps : call.https = true
      · simp [httpActivityRun, httpActivityStep, hhttps, hthrough, httpClose]
      · simp [httpActivityRun, httpActivityStep, hhttps]
  | succ n ih =>
      rw [List.replicate_succ, List.cons_append, httpActivityRun]
      simp only [httpActivityStep, hthrough]
      rw [ih]
      simp [List.replicate_succ]

/-! ## Isolation -/

/-- The objects of the TLS connection. -/
def HttpResource.isTls : HttpResource → Bool
  | .config | .connection => true
  | .socket | .object | .postData | .uri | .serverName => false

/-- The activity is over. -/
def HttpPc.isEnd : HttpPc → Bool
  | .returned | .ended => true
  | _ => false

/-- Every activity touches its own objects only, and its TLS objects are
destroyed exactly once, at the latest when it is over. -/
structure Isolated (s : HttpSystem) : Prop where
  alive : ∀ r, (s.activity r).pc ≠ .crashed
  own : ∀ r, ∀ op ∈ (s.activity r).ops, op.object.1 = r
  atMostOnce : ∀ r resource, resource.isTls = true →
    (s.activity r).ops.count (.free (r, resource)) ≤ 1
  once : ∀ r resource, resource.isTls = true →
    (s.activity r).pc.isEnd = true →
    .alloc (r, resource) ∈ (s.activity r).ops →
      (s.activity r).ops.count (.free (r, resource)) = 1

/-- Between its configuration and its end. -/
def HttpPc.isBusy : HttpPc → Bool
  | .idle | .configure | .returned | .ended => false
  | _ => true

/-- A request on the HTTPS port is configured only while no other one is in
progress, and gets a socket. -/
def OneAtATime (calls : ℕ → HttpCall) (s : HttpSystem)
    (a : ℕ × HttpAction) : Prop :=
  (calls a.1).https = true →
    (∀ ok, a.2 = .configure ok → ∀ r, (calls r).https = true →
      (s.activity r).pc.isBusy = false) ∧
    ∀ answers, a.2 = .prepare answers → answers.socket = true

/-! ## The log of an activity -/

/-- The TLS objects among others. -/
def tlsOf (objects : List HttpObject) : List HttpResource :=
  (objects.map Prod.snd).filter HttpResource.isTls

/-- A log of request `r` alone, with the TLS objects it acquired and those it
released. -/
structure OwnLog (r : ℕ) (ops : List (Op HttpObject))
    (acquired released : List HttpResource) : Prop where
  own : ∀ op ∈ ops, op.object.1 = r
  acquired : tlsOf (allocs ops) = acquired
  released : tlsOf (frees ops) = released

theorem ownLog_nil (r : ℕ) : OwnLog r [] [] [] :=
  ⟨fun _ hop => absurd hop List.not_mem_nil, rfl, rfl⟩

theorem OwnLog.append {r : ℕ} {xs ys : List (Op HttpObject)}
    {acquired acquired' released released' : List HttpResource}
    (h : OwnLog r xs acquired released) (h' : OwnLog r ys acquired' released') :
    OwnLog r (xs ++ ys) (acquired ++ acquired') (released ++ released') := by
  refine ⟨?_, ?_, ?_⟩
  · intro op hop
    rcases List.mem_append.mp hop with hop | hop
    · exact h.own op hop
    · exact h'.own op hop
  · rw [← h.acquired, ← h'.acquired]
    simp [tlsOf]
  · rw [← h.released, ← h'.released]
    simp [tlsOf]

/-- The frees of a TLS object are counted in the list of those released. -/
theorem OwnLog.count_free {r : ℕ} {ops : List (Op HttpObject)}
    {acquired released : List HttpResource} (h : OwnLog r ops acquired released)
    {resource : HttpResource} (hresource : resource.isTls = true) :
    ops.count (.free (r, resource)) = released.count resource := by
  have hobjects :
      frees ops = ((frees ops).map Prod.snd).map (Prod.mk r) := by
    rw [List.map_map]
    refine (List.map_id _).symm.trans (List.map_congr_left ?_)
    intro o ho
    have hown : o.1 = r := h.own _ (mem_frees.mp ho)
    exact Prod.ext hown rfl
  rw [← count_frees, ← h.released, tlsOf, List.count_filter hresource]
  conv_lhs => rw [hobjects]
  exact @List.count_map_of_injective _ _ instBEqOfDecidableEq _
    instBEqOfDecidableEq _ _ _ (Prod.mk_right_injective r) _

theorem OwnLog.mem_acquired {r : ℕ} {ops : List (Op HttpObject)}
    {acquired released : List HttpResource} (h : OwnLog r ops acquired released)
    {resource : HttpResource} (hresource : resource.isTls = true)
    (halloc : .alloc (r, resource) ∈ ops) : resource ∈ acquired := by
  rw [← h.acquired, tlsOf, List.mem_filter, List.mem_map]
  exact ⟨⟨(r, resource), mem_allocs.mpr halloc, rfl⟩, hresource⟩

/-! ## The logs of the parts -/

theorem ownLog_own (r : ℕ) (ops : List (Op HttpResource)) :
    OwnLog r (ops.map (Op.map (Prod.mk r)))
      ((allocs ops).filter HttpResource.isTls)
      ((frees ops).filter HttpResource.isTls) := by
  refine ⟨?_, ?_, ?_⟩
  · intro op hop
    obtain ⟨op, -, rfl⟩ := List.mem_map.mp hop
    cases op <;> rfl
  · rw [allocs_map, tlsOf, List.map_map]
    exact congrArg _ (List.map_id _)
  · rw [frees_map, tlsOf, List.map_map]
    exact congrArg _ (List.map_id _)

/-- A log without TLS objects. -/
theorem ownLog_of_forall {r : ℕ} {ops : List (Op HttpObject)}
    (h : ∀ op ∈ ops, op.object.1 = r ∧ op.object.2.isTls = false) :
    OwnLog r ops [] [] := by
  refine ⟨fun op hop => (h op hop).1, ?_, ?_⟩
  · rw [tlsOf, List.filter_eq_nil_iff]
    intro resource hresource
    obtain ⟨o, ho, rfl⟩ := List.mem_map.mp hresource
    have htls := (h _ (mem_allocs.mp ho)).2
    rw [Op.object] at htls
    rw [htls]
    exact Bool.false_ne_true
  · rw [tlsOf, List.filter_eq_nil_iff]
    intro resource hresource
    obtain ⟨o, ho, rfl⟩ := List.mem_map.mp hresource
    have htls := (h _ (mem_frees.mp ho)).2
    rw [Op.object] at htls
    rw [htls]
    exact Bool.false_ne_true

theorem ownLog_httpFreeArguments (r : ℕ) (call : HttpCall) :
    OwnLog r (httpFreeArguments r call) [] [] := by
  apply ownLog_of_forall
  obtain ⟨port, hasPostData, hasServerName⟩ := call
  cases hasPostData <;> cases hasServerName <;>
    simp [httpFreeArguments, ifGiven, Op.object, HttpResource.isTls]

theorem ownLog_httpCopyArguments (r : ℕ) (call : HttpCall)
    (answers : PrepareAnswers) :
    OwnLog r (httpCopyArguments r call answers).2 [] [] := by
  apply ownLog_of_forall
  obtain ⟨port, hasPostData, hasServerName⟩ := call
  unfold httpCopyArguments
  cases hasPostData <;> cases hasServerName <;> split_ifs <;>
    simp [ifGiven, Op.object, HttpResource.isTls]

/-- The steps in front of the TLS connection acquire none of its objects. -/
theorem ownLog_httpPrepare (r : ℕ) (call : HttpCall)
    (answers : PrepareAnswers) :
    OwnLog r (httpPrepare r call answers).2 [] [] := by
  have hsocket : OwnLog r [.alloc (r, .socket)] [] [] :=
    ownLog_own r [.alloc .socket]
  rw [httpPrepare]
  split
  · exact ownLog_nil r
  · exact hsocket
  · exact hsocket.append (ownLog_httpCopyArguments r call answers)

/-- What `ssl_secure_connection` leaves, with the configuration of the request:
a connection, or none that is still there. -/
theorem httpSecure_own (r : ℕ) (answers : SecureAnswers) :
    ((httpSecure r (some r) answers).1 = some r ∧
      OwnLog r (httpSecure r (some r) answers).2 [.connection] []) ∨
    ((httpSecure r (some r) answers).1 = none ∧
      (OwnLog r (httpSecure r (some r) answers).2 [] [] ∨
        OwnLog r (httpSecure r (some r) answers).2 [.connection]
          [.connection])) := by
  rcases httpSecure_cases r (some r) answers with hsecure | hsecure | hsecure
  · left
    rw [hsecure]
    exact ⟨rfl, ownLog_own r [.alloc .connection, .use .config]⟩
  · right
    rw [hsecure]
    exact ⟨rfl, Or.inl (ownLog_nil r)⟩
  · right
    rw [hsecure]
    exact ⟨rfl, Or.inr (ownLog_own r [.alloc .connection, .use .config,
      .free .socket, .free .connection])⟩

theorem ownLog_useHandle (r : ℕ) (resource : HttpResource) :
    OwnLog r (useHandle (some r) resource) [] [] :=
  ownLog_own r [.use resource]

/-! ## Requests on the HTTPS port -/

/-- The configuration is there, and no connection. -/
def HoldsConfig (r : ℕ) (ops : List (Op HttpObject)) : Prop :=
  OwnLog r ops [.config] [] ∨
    OwnLog r ops [.config, .connection] [.connection]

/-- No TLS object is left. -/
def HoldsNothing (r : ℕ) (ops : List (Op HttpObject)) : Prop :=
  OwnLog r ops [] [] ∨ OwnLog r ops [.config] [.config] ∨
    OwnLog r ops [.config, .connection] [.connection, .config]

/-- What an activity on the HTTPS port has at each place. -/
def TlsStage (r : ℕ) (globals : HttpGlobals) (ops : List (Op HttpObject)) :
    HttpPc → Prop
  | .idle | .configure => OwnLog r ops [] []
  | .checkConfig =>
      globals.sslParam = some r ∧ OwnLog r ops [.config] [] ∨
        globals.sslParam = none ∧ OwnLog r ops [] []
  | .prepare | .secure =>
      globals.sslParam = some r ∧ OwnLog r ops [.config] []
  | .securing config =>
      config = some r ∧ globals.sslParam = some r ∧ OwnLog r ops [.config] []
  | .checkConnection =>
      globals.sslParam = some r ∧
        (globals.connParam = some r ∧
            OwnLog r ops [.config, .connection] [] ∨
          globals.connParam = none ∧ HoldsConfig r ops)
  | .create | .abandon | .abandonDestroy | .task | .closeNotify | .destroy =>
      globals.sslParam = some r ∧ globals.connParam = some r ∧
        OwnLog r ops [.config, .connection] []
  | .err =>
      globals.sslParam = some r ∧ HoldsConfig r ops ∨
        globals.sslParam = none ∧ OwnLog r ops [] []
  | .returned | .ended => HoldsNothing r ops
  | .crashed => False

theorem tlsStage_step {r : ℕ} {call : HttpCall} (hhttps : call.https = true)
    {globals globals' : HttpGlobals} {activity activity' : HttpActivity}
    {action : HttpAction}
    (hstep : httpActivityStep r call globals activity action =
      some (globals', activity'))
    (hsocket : ∀ answers, action = .prepare answers → answers.socket = true)
    (h : TlsStage r globals activity.ops activity.pc) :
    TlsStage r globals' activity'.ops activity'.pc := by
  obtain ⟨pc, ops⟩ := activity
  cases httpActivityStep_move hstep with
  | call =>
      simp only [hhttps, if_true]
      exact h
  | configure ok =>
      cases ok
      · exact Or.inr ⟨rfl, h.append (ownLog_nil r)⟩
      · exact Or.inl ⟨rfl, h.append (ownLog_own r [.alloc .config])⟩
  | configured hconfig =>
      rcases h with hconfigured | ⟨hnone, -⟩
      · exact hconfigured
      · exact absurd hnone hconfig
  | notConfigured hnone =>
      rcases h with ⟨hconfig, -⟩ | hnot
      · rw [hconfig] at hnone
        cases hnone
      · exact Or.inr hnot
  | noSocket answers hreturned =>
      exact absurd hreturned
        (httpPrepare_ne_returned r call (hsocket answers rfl))
  | notPrepared answers =>
      exact Or.inl ⟨h.1, Or.inl
        (h.2.append (ownLog_httpPrepare r call answers))⟩
  | prepared answers =>
      simp only [hhttps, if_true]
      exact ⟨h.1, h.2.append (ownLog_httpPrepare r call answers)⟩
  | secure => exact ⟨h.1, h⟩
  | crash answers =>
      obtain ⟨hnone, -⟩ := h
      cases hnone
  | secured config answers =>
      obtain ⟨rfl, hconfig, hlog⟩ := h
      rcases httpSecure_own r answers with
        ⟨hsome, hsecure⟩ | ⟨hnone, hsecure | hsecure⟩
      · exact ⟨hconfig, Or.inl ⟨hsome, hlog.append hsecure⟩⟩
      · exact ⟨hconfig, Or.inr ⟨hnone, Or.inl (hlog.append hsecure)⟩⟩
      · exact ⟨hconfig, Or.inr ⟨hnone, Or.inr (hlog.append hsecure)⟩⟩
  | connected hconnection =>
      obtain ⟨hconfig, hconnected | ⟨hnone, -⟩⟩ := h
      · exact ⟨hconfig, hconnected⟩
      · exact absurd hnone hconnection
  | notConnected hnone =>
      obtain ⟨hconfig, ⟨hconnection, -⟩ | ⟨-, hlog⟩⟩ := h
      · rw [hconnection] at hnone
        cases hnone
      · exact Or.inl ⟨hconfig, hlog⟩
  | created => exact h
  | notCreated => exact h
  | notCreatedPlain hplain =>
      rw [hhttps] at hplain
      cases hplain
  | abandon =>
      obtain ⟨hconfig, hconnection, hlog⟩ := h
      rw [throughConnection_of_connected hconnection, hconnection]
      exact ⟨hconfig, hconnection, hlog.append (ownLog_useHandle r _)⟩
  | abandonDestroy =>
      obtain ⟨hconfig, hconnection, hlog⟩ := h
      rw [hconnection]
      exact Or.inl ⟨hconfig, Or.inr ((hlog.append
        (ownLog_own r [.free .connection])).append
          (ownLog_httpFreeArguments r call))⟩
  | err =>
      simp only [httpErr, hhttps, if_true]
      rcases h with ⟨hconfig, hlog | hlog⟩ | ⟨hconfig, hlog⟩
      · rw [hconfig]
        exact Or.inr (Or.inl (hlog.append (ownLog_own r [.free .config])))
      · rw [hconfig]
        exact Or.inr (Or.inr (hlog.append (ownLog_own r [.free .config])))
      · rw [hconfig]
        exact Or.inl (hlog.append (ownLog_nil r))
  | exchange =>
      obtain ⟨hconfig, hconnection, hlog⟩ := h
      rw [throughConnection_of_connected hconnection, httpExchange,
        if_pos hhttps, hconnection]
      exact ⟨hconfig, hconnection, hlog.append (ownLog_useHandle r _)⟩
  | leave => exact h
  | leavePlain hplain =>
      rw [hhttps] at hplain
      cases hplain
  | closeNotify =>
      obtain ⟨hconfig, hconnection, hlog⟩ := h
      rw [throughConnection_of_connected hconnection, hconnection]
      exact ⟨hconfig, hconnection, hlog.append (ownLog_useHandle r _)⟩
  | destroy =>
      obtain ⟨hconfig, hconnection, hlog⟩ := h
      rw [hconfig, hconnection]
      exact Or.inr (Or.inr ((hlog.append
        (ownLog_own r [.free .connection, .free .config])).append
          (ownLog_httpFreeArguments r call)))

/-! ## Requests on other ports -/

/-- An activity on another port has no TLS object. -/
def PlainStage (r : ℕ) (ops : List (Op HttpObject)) : HttpPc → Prop
  | .idle | .prepare | .create | .err | .returned | .task | .ended =>
      OwnLog r ops [] []
  | _ => False

theorem plainStage_step {r : ℕ} {call : HttpCall} (hplain : call.https = false)
    {globals globals' : HttpGlobals} {activity activity' : HttpActivity}
    {action : HttpAction}
    (hstep : httpActivityStep r call globals activity action =
      some (globals', activity'))
    (h : PlainStage r activity.ops activity.pc) :
    globals' = globals ∧ PlainStage r activity'.ops activity'.pc := by
  obtain ⟨pc, ops⟩ := activity
  cases httpActivityStep_move hstep with
  | call =>
      refine ⟨rfl, ?_⟩
      simp only [hplain, Bool.false_eq_true, if_false]
      exact h
  | noSocket answers =>
      exact ⟨rfl, OwnLog.append h (ownLog_httpPrepare r call answers)⟩
  | notPrepared answers =>
      exact ⟨rfl, OwnLog.append h (ownLog_httpPrepare r call answers)⟩
  | prepared answers =>
      refine ⟨rfl, ?_⟩
      simp only [hplain, Bool.false_eq_true, if_false]
      exact OwnLog.append h (ownLog_httpPrepare r call answers)
  | created => exact ⟨rfl, h⟩
  | notCreated hhttps =>
      rw [hplain] at hhttps
      cases hhttps
  | notCreatedPlain =>
      exact ⟨rfl, OwnLog.append h (ownLog_httpFreeArguments r call)⟩
  | err =>
      refine ⟨rfl, ?_⟩
      simp only [httpErr, hplain, Bool.false_eq_true, if_false]
      exact OwnLog.append h (ownLog_own r [.free .socket])
  | exchange =>
      refine ⟨rfl, ?_⟩
      simp only [throughConnection, httpExchange, hplain, Bool.false_and,
        Bool.false_eq_true, if_false]
      exact OwnLog.append h (ownLog_own r [.use .socket])
  | leave hhttps =>
      rw [hplain] at hhttps
      cases hhttps
  | leavePlain =>
      refine ⟨rfl, ?_⟩
      simp only [httpClose, hplain, Bool.false_eq_true, if_false]
      exact (OwnLog.append h (ownLog_own r [.free .socket])).append
        (ownLog_httpFreeArguments r call)
  | _ => exact h.elim

/-! ## One request at a time -/

/-- What holds of an activity, whatever the port. -/
def HttpStage (calls : ℕ → HttpCall) (s : HttpSystem) (r : ℕ) : Prop :=
  if (calls r).https then
    TlsStage r s.globals (s.activity r).ops (s.activity r).pc
  else PlainStage r (s.activity r).ops (s.activity r).pc

/-- The stages of all activities; at most one on the HTTPS port is busy. -/
structure HttpInvariant (calls : ℕ → HttpCall) (s : HttpSystem) : Prop where
  stage : ∀ r, HttpStage calls s r
  sole : ∀ r r', (calls r).https = true → (calls r').https = true →
    (s.activity r).pc.isBusy = true → (s.activity r').pc.isBusy = true → r = r'

/-- The handles do not matter to an activity that is not busy. -/
theorem TlsStage.of_not_busy {r : ℕ} {globals : HttpGlobals}
    {ops : List (Op HttpObject)} {pc : HttpPc} (h : TlsStage r globals ops pc)
    (hidle : pc.isBusy = false) (globals' : HttpGlobals) :
    TlsStage r globals' ops pc := by
  cases pc with
  | idle => exact h
  | configure => exact h
  | returned => exact h
  | ended => exact h
  | _ => cases hidle

/-- Only its configuration makes an activity busy. -/
theorem isBusy_of_step {r : ℕ} {call : HttpCall} (hhttps : call.https = true)
    {globals globals' : HttpGlobals} {activity activity' : HttpActivity}
    {action : HttpAction}
    (hstep : httpActivityStep r call globals activity action =
      some (globals', activity')) :
    (globals' = globals ∧ activity'.pc.isBusy = false) ∨
      (∃ ok, action = .configure ok) ∨ activity.pc.isBusy = true := by
  obtain ⟨pc, ops⟩ := activity
  cases httpActivityStep_move hstep with
  | call =>
      refine Or.inl ⟨rfl, ?_⟩
      simp only [hhttps, if_true]
      rfl
  | configure ok => exact Or.inr (Or.inl ⟨ok, rfl⟩)
  | _ => exact Or.inr (Or.inr rfl)

/-- A step of another activity that leaves the handles, or happens while this
one is not busy, leaves its stage. -/
theorem HttpStage.frame {calls : ℕ → HttpCall} {s s' : HttpSystem} {r : ℕ}
    (h : HttpStage calls s r) (hactivity : s'.activity r = s.activity r)
    (hglobals : s'.globals = s.globals ∨
      ((calls r).https = true → (s.activity r).pc.isBusy = false)) :
    HttpStage calls s' r := by
  rw [HttpStage] at h ⊢
  rw [hactivity]
  by_cases hhttps : (calls r).https = true
  · rw [if_pos hhttps] at h ⊢
    rcases hglobals with hsame | hidle
    · rw [hsame]
      exact h
    · exact h.of_not_busy (hidle hhttps) s'.globals
  · rw [if_neg hhttps] at h ⊢
    exact h

section Step

variable {calls : ℕ → HttpCall} {s : HttpSystem} {r : ℕ}
  {action : HttpAction} {globals : HttpGlobals} {activity : HttpActivity}

/-- A step on the HTTPS port leaves the handles and no busy activity, or is one
of the only busy activity. -/
theorem HttpInvariant.others_idle (h : HttpInvariant calls s)
    (hhttps : (calls r).https = true) (hguard : OneAtATime calls s (r, action))
    (hstep : httpActivityStep r (calls r) s.globals (s.activity r) action =
      some (globals, activity)) :
    (globals = s.globals ∧ activity.pc.isBusy = false) ∨
      ∀ r', r' ≠ r → (calls r').https = true →
        (s.activity r').pc.isBusy = false := by
  rcases isBusy_of_step hhttps hstep with hsame | ⟨ok, haction⟩ | hbusy
  · exact Or.inl hsame
  · exact Or.inr fun r' _ hhttps' =>
      (hguard hhttps).1 ok haction r' hhttps'
  · right
    intro r' hne hhttps'
    by_contra hbusy'
    exact hne (h.sole r' r hhttps' hhttps
      (Bool.eq_true_of_not_eq_false hbusy') hbusy)

theorem HttpInvariant.step_https (h : HttpInvariant calls s)
    (hhttps : (calls r).https = true) (hguard : OneAtATime calls s (r, action))
    (hstep : httpActivityStep r (calls r) s.globals (s.activity r) action =
      some (globals, activity)) :
    HttpInvariant calls ⟨globals, Function.update s.activity r activity⟩ := by
  have hother : ∀ r', r' ≠ r →
      Function.update s.activity r activity r' = s.activity r' := fun r' hne =>
    Function.update_of_ne hne ..
  have hidle := h.others_idle hhttps hguard hstep
  constructor
  · intro r'
    by_cases hr : r' = r
    · have hstage := h.stage r
      rw [HttpStage, if_pos hhttps] at hstage
      rw [HttpStage, hr, if_pos hhttps]
      simp only [Function.update_self]
      exact tlsStage_step hhttps hstep (hguard hhttps).2 hstage
    · exact (h.stage r').frame (hother r' hr)
        (hidle.imp And.left fun hidle => hidle r' hr)
  · intro r₁ r₂ hhttps₁ hhttps₂ hbusy₁ hbusy₂
    rcases hidle with ⟨-, hnot⟩ | hidle
    · have hne : ∀ r', (Function.update s.activity r activity r').pc.isBusy =
          true → r' ≠ r := by
        rintro r' hbusy' rfl
        rw [Function.update_self, hnot] at hbusy'
        cases hbusy'
      have hne₁ := hne r₁ hbusy₁
      have hne₂ := hne r₂ hbusy₂
      simp only [hother r₁ hne₁] at hbusy₁
      simp only [hother r₂ hne₂] at hbusy₂
      exact h.sole r₁ r₂ hhttps₁ hhttps₂ hbusy₁ hbusy₂
    · have honly : ∀ r', (calls r').https = true →
          (Function.update s.activity r activity r').pc.isBusy = true →
            r' = r := by
        intro r' hhttps' hbusy'
        by_contra hne
        rw [hother r' hne, hidle r' hne hhttps'] at hbusy'
        cases hbusy'
      exact (honly r₁ hhttps₁ hbusy₁).trans (honly r₂ hhttps₂ hbusy₂).symm

theorem HttpInvariant.step_plain (h : HttpInvariant calls s)
    (hplain : (calls r).https = false)
    (hstep : httpActivityStep r (calls r) s.globals (s.activity r) action =
      some (globals, activity)) :
    HttpInvariant calls ⟨globals, Function.update s.activity r activity⟩ := by
  have hother : ∀ r', r' ≠ r →
      Function.update s.activity r activity r' = s.activity r' := fun r' hne =>
    Function.update_of_ne hne ..
  have hnot : ¬ (calls r).https = true := by
    rw [hplain]
    exact Bool.false_ne_true
  have hstage := h.stage r
  rw [HttpStage, if_neg hnot] at hstage
  obtain ⟨hsame, hnext⟩ := plainStage_step hplain hstep hstage
  constructor
  · intro r'
    by_cases hr : r' = r
    · rw [HttpStage, hr, if_neg hnot]
      simp only [Function.update_self]
      exact hnext
    · exact (h.stage r').frame (hother r' hr) (Or.inl hsame)
  · intro r₁ r₂ hhttps₁ hhttps₂ hbusy₁ hbusy₂
    have hne : ∀ r', (calls r').https = true → r' ≠ r := by
      rintro r' hhttps' rfl
      exact hnot hhttps'
    simp only [hother r₁ (hne r₁ hhttps₁)] at hbusy₁
    simp only [hother r₂ (hne r₂ hhttps₂)] at hbusy₂
    exact h.sole r₁ r₂ hhttps₁ hhttps₂ hbusy₁ hbusy₂

end Step

theorem HttpInvariant.step {calls : ℕ → HttpCall} {s s' : HttpSystem}
    {a : ℕ × HttpAction} (h : HttpInvariant calls s)
    (hguard : OneAtATime calls s a)
    (hstep : (httpMachine calls).step s a = some s') :
    HttpInvariant calls s' := by
  obtain ⟨r, action⟩ := a
  obtain ⟨⟨globals, activity⟩, hactivity, hs'⟩ :=
    Option.bind_eq_some_iff.mp hstep
  obtain rfl := Option.some.inj hs'
  by_cases hhttps : (calls r).https = true
  · exact h.step_https hhttps hguard hactivity
  · exact h.step_plain (Bool.eq_false_of_not_eq_true hhttps) hactivity

theorem httpInvariant_init (calls : ℕ → HttpCall) {s : HttpSystem}
    (hs : (httpMachine calls).init s) : HttpInvariant calls s := by
  obtain rfl := hs
  constructor
  · intro r
    rw [HttpStage]
    split
    · exact ownLog_nil r
    · exact ownLog_nil r
  · intro r r' _ _ hbusy
    cases hbusy

/-- A log that releases nothing twice, and everything when the activity is
over. -/
def TlsAccounted (r : ℕ) (activity : HttpActivity) : Prop :=
  ∃ acquired released, OwnLog r activity.ops acquired released ∧
    released.Nodup ∧
    (activity.pc.isEnd = true → ∀ resource ∈ acquired, resource ∈ released)

theorem OwnLog.accounted {r : ℕ} {pc : HttpPc} {ops : List (Op HttpObject)}
    {acquired released : List HttpResource} (h : OwnLog r ops acquired released)
    (hnodup : released.Nodup) (hpc : pc.isEnd = false) :
    TlsAccounted r ⟨pc, ops⟩ := by
  refine ⟨acquired, released, h, hnodup, ?_⟩
  intro hend
  rw [hpc] at hend
  cases hend

theorem HoldsConfig.accounted {r : ℕ} {pc : HttpPc}
    {ops : List (Op HttpObject)} (h : HoldsConfig r ops)
    (hpc : pc.isEnd = false) : TlsAccounted r ⟨pc, ops⟩ := by
  rcases h with hlog | hlog
  · exact hlog.accounted (by decide) hpc
  · exact hlog.accounted (by decide) hpc

theorem HoldsNothing.accounted {r : ℕ} {ops : List (Op HttpObject)}
    (h : HoldsNothing r ops) (pc : HttpPc) : TlsAccounted r ⟨pc, ops⟩ := by
  rcases h with hlog | hlog | hlog
  · exact ⟨_, _, hlog, by decide, fun _ => by decide⟩
  · exact ⟨_, _, hlog, by decide, fun _ => by decide⟩
  · exact ⟨_, _, hlog, by decide, fun _ => by decide⟩

theorem TlsStage.accounted {r : ℕ} {globals : HttpGlobals} {pc : HttpPc}
    {ops : List (Op HttpObject)} (h : TlsStage r globals ops pc) :
    TlsAccounted r ⟨pc, ops⟩ := by
  cases pc with
  | idle => exact OwnLog.accounted h (by decide) rfl
  | configure => exact OwnLog.accounted h (by decide) rfl
  | checkConfig =>
      rcases h with ⟨-, hlog⟩ | ⟨-, hlog⟩
      · exact hlog.accounted (by decide) rfl
      · exact hlog.accounted (by decide) rfl
  | prepare => exact h.2.accounted (by decide) rfl
  | secure => exact h.2.accounted (by decide) rfl
  | securing config => exact h.2.2.accounted (by decide) rfl
  | checkConnection =>
      rcases h with ⟨-, ⟨-, hlog⟩ | ⟨-, hlog⟩⟩
      · exact hlog.accounted (by decide) rfl
      · exact hlog.accounted rfl
  | err =>
      rcases h with ⟨-, hlog⟩ | ⟨-, hlog⟩
      · exact hlog.accounted rfl
      · exact hlog.accounted (by decide) rfl
  | returned => exact HoldsNothing.accounted h _
  | ended => exact HoldsNothing.accounted h _
  | crashed => exact h.elim
  | _ => exact h.2.2.accounted (by decide) rfl

theorem HttpStage.accounted {calls : ℕ → HttpCall} {s : HttpSystem} {r : ℕ}
    (h : HttpStage calls s r) : TlsAccounted r (s.activity r) := by
  rw [HttpStage] at h
  split at h
  · exact h.accounted
  · have hlog : OwnLog r (s.activity r).ops [] [] := by
      cases hpc : (s.activity r).pc <;> rw [hpc] at h <;>
        first | exact h | exact h.elim
    exact ⟨[], [], hlog, by decide, fun _ => by decide⟩

theorem HttpStage.alive {calls : ℕ → HttpCall} {s : HttpSystem} {r : ℕ}
    (h : HttpStage calls s r) : (s.activity r).pc ≠ .crashed := by
  intro hpc
  rw [HttpStage, hpc] at h
  split at h
  · exact h
  · exact h

theorem HttpInvariant.isolated {calls : ℕ → HttpCall} {s : HttpSystem}
    (h : HttpInvariant calls s) : Isolated s where
  alive r := (h.stage r).alive
  own r := by
    obtain ⟨acquired, released, hlog, -, -⟩ := (h.stage r).accounted
    exact hlog.own
  atMostOnce r resource hresource := by
    obtain ⟨acquired, released, hlog, hnodup, -⟩ := (h.stage r).accounted
    rw [hlog.count_free hresource]
    exact List.nodup_iff_count_le_one.mp hnodup resource
  once r resource hresource hend halloc := by
    obtain ⟨acquired, released, hlog, hnodup, hall⟩ := (h.stage r).accounted
    rw [hlog.count_free hresource]
    exact List.count_eq_one_of_mem hnodup
      (hall hend resource (hlog.mem_acquired hresource halloc))

/-- Requests that come one at a time are isolated in every run. -/
theorem httpMachine_isolated (calls : ℕ → HttpCall) {s : HttpSystem}
    (h : (httpMachine calls).ReachableVia (OneAtATime calls) s) : Isolated s :=
  (h.invariant (fun _ => httpInvariant_init calls)
    fun _ _ _ hinv hguard => hinv.step hguard).isolated

/-- The steps of a request that succeeds up to its task, behind its
configuration. -/
def launchSteps (r : ℕ) : List (ℕ × HttpAction) :=
  [(r, .next), (r, .prepare allSucceed.prepare), (r, .next),
    (r, .secured allSucceed.secure), (r, .next), (r, .create true)]

/-- The steps of a task that makes one exchange. -/
def taskSteps (r : ℕ) : List (ℕ × HttpAction) :=
  [(r, .exchange), (r, .leave), (r, .next), (r, .next)]

/-- All requests are on the HTTPS port. -/
def httpsCalls : ℕ → HttpCall := fun _ => ⟨443, false, false⟩

theorem oneAtATime_steps (r : ℕ) :
    ∀ a ∈ launchSteps r ++ taskSteps r, ∀ s, OneAtATime httpsCalls s a := by
  have hconfigure : ∀ a ∈ launchSteps r ++ taskSteps r, ∀ ok,
      a.2 ≠ .configure ok := by
    simp [launchSteps, taskSteps]
  have hsocket : ∀ a ∈ launchSteps r ++ taskSteps r, ∀ answers,
      a.2 = .prepare answers → answers.socket = true := by
    simp [launchSteps, taskSteps, allSucceed]
  intro a ha s hhttps
  exact ⟨fun ok h => absurd h (hconfigure a ha ok), hsocket a ha⟩

/-- The second configuration comes when the task of the first request is
over, although both calls have begun. -/
theorem httpMachine_isolated_in_turn :
    ∃ s, (httpMachine httpsCalls).run .fresh
        ([(0, .call), (1, .call), (0, .configure true)] ++
          (launchSteps 0 ++ taskSteps 0) ++ [(1, .configure true)]) =
          some s ∧
      Isolated s := by
  have hfresh : (httpMachine httpsCalls).ReachableVia
      (OneAtATime httpsCalls) .fresh := .init rfl
  have hcall (r : ℕ) (s : HttpSystem) : OneAtATime httpsCalls s (r, .call) :=
    fun _ => ⟨fun _ h => HttpAction.noConfusion h,
      fun _ h => HttpAction.noConfusion h⟩
  have hconfigure (r : ℕ) {s : HttpSystem}
      (hidle : ∀ r', (s.activity r').pc.isBusy = false) :
      OneAtATime httpsCalls s (r, .configure true) :=
    fun _ => ⟨fun _ _ r' _ => hidle r', fun _ h => HttpAction.noConfusion h⟩
  have hrest {s : HttpSystem} (hzero : (s.activity 0).pc.isBusy = false)
      (hone : (s.activity 1).pc.isBusy = false)
      (hothers : ∀ r, r ≠ 0 → r ≠ 1 → (s.activity r).pc.isBusy = false) :
      ∀ r, (s.activity r).pc.isBusy = false := by
    intro r
    by_cases h : r = 0
    · exact h ▸ hzero
    · by_cases h' : r = 1
      · exact h' ▸ hone
      · exact hothers r h h'
  have hcalled := hfresh.run [(0, .call), (1, .call)]
    ⟨hcall 0 _, fun s _ => ⟨hcall 1 s, fun _ _ => trivial⟩⟩ rfl
  have hconfigured := hcalled.step (hconfigure 0 (hrest rfl rfl fun r hzero hone => by
    simp only [Function.update_of_ne hone, Function.update_of_ne hzero]
    rfl)) rfl
  have hended := hconfigured.run (launchSteps 0 ++ taskSteps 0)
    (Machine.meets_of_forall (oneAtATime_steps 0) _) rfl
  have hagain := hended.step (hconfigure 1 (hrest rfl rfl fun r hzero hone => by
    simp only [Function.update_of_ne hone, Function.update_of_ne hzero]
    rfl)) rfl
  exact ⟨_, rfl, httpMachine_isolated httpsCalls hagain⟩

/-- The task of the first request destroys the connection of the second. -/
theorem not_isolated_at_the_same_time :
    ¬ ∀ s, (httpMachine httpsCalls).Reachable s → Isolated s := by
  intro h
  have hreach := Machine.reachable_of_run (M := httpMachine httpsCalls) rfl
    ([(0, .call), (0, .configure true)] ++ launchSteps 0 ++
      [(1, .call), (1, .configure true)] ++ launchSteps 1 ++ taskSteps 0)
    rfl
  have hown := (h _ hreach).own 0 (.free (1, .connection)) (by decide)
  cases hown

end RtpMulticast
