import RtpMulticast.Modem.AtCommands

/-!
# Which answer a command gets

Each wait on `sem_response` takes the first answer that was outstanding when the
semaphore was reset, and an answer to its own command only when none was.
-/

namespace RtpMulticast

open AtSystem ByteBuffer Text

/-! ## Moves -/

/-- A move of the modem task. -/
inductive TaskMove (s : AtSystem) : AtSystem → Prop
  | drop {reply : AtReply} {replies : List AtReply} (htask : s.task = .idle)
      (hreplies : s.replies = reply :: replies)
      (hcall : atCall s.handlers reply.answer = none) :
      TaskMove s { s with replies := replies }
  | find {reply : AtReply} {replies : List AtReply} {call : AtCall} (htask : s.task = .idle)
      (hreplies : s.replies = reply :: replies)
      (hcall : atCall s.handlers reply.answer = some call) :
      TaskMove s { s with replies := replies, task := .found reply call }
  | code {reply : AtReply} {call : AtCall} (htask : s.task = .found reply call)
      (hgives : call.gives = true) :
      TaskMove s { s with task := .coded reply (call.code s.rxDataLen) }
  | setError {reply : AtReply} {code : ℤ} (htask : s.task = .coded reply code) :
      TaskMove s { s with lastError := code, task := .erred reply }
  | prompt {reply : AtReply} (htask : s.task = .found reply .txReady) :
      TaskMove s { s with semTxReady := true, task := .idle }
  | query {reply : AtReply} {owner : ℕ} {argv : List Bytes}
      (htask : s.task = .found reply (.query owner argv)) :
      TaskMove s { s with
        writes := s.writes ++ [⟨reply, owner, s.rxData,
          s.holder.any fun h => some h.id = s.rxData⟩]
        task := .idle }
  | give {reply : AtReply} (htask : s.task = .erred reply) :
      TaskMove s { s with semResponse := s.semResponse.or (some reply), task := .idle }

/-- The answers to a transmission. -/
def AtSystem.answered (s : AtSystem) (script : List AtAnswer) : List AtReply :=
  script.map fun answer => ⟨s.sent, answer⟩

/-- The holder transmits and goes on at `pc`. -/
def AtSystem.transmitted (s : AtSystem) (h : AtHolder) (script : List AtAnswer) (pc : AtPc) :
    AtSystem :=
  { s with
    holder := some { h with
      pc := pc
      added := (s.answered script).filter fun r => hears s.handlers r.answer }
    sent := s.sent + 1
    replies := s.replies ++ s.answered script }

/-- A move of the holder of `sem_tx_lock`. -/
inductive HolderMove (s : AtSystem) (h : AtHolder) : AtAction → AtSystem → Prop
  | install (hpc : h.pc = .locked) : HolderMove s h .go { s.goOn h .tabled with
      handlers := ⟨h.id, h.request.cmds⟩ }
  | clear (hpc : h.pc = .tabled) :
      HolderMove s h .go { s.goOn h .installed with lastError := 0 }
  | reset (hpc : h.pc = .installed) (hwaits : h.request.waits = true) :
      HolderMove s h .go (s.resetResponse h .ready)
  | skip (hpc : h.pc = .installed) (hwaits : h.request.waits = false) :
      HolderMove s h .go (s.goOn h .ready)
  | command (script : List AtAnswer) (hpc : h.pc = .ready) (hwaits : h.request.waits = true) :
      HolderMove s h (.transmit script) (s.transmitted h script .awaiting)
  | announce (script : List AtAnswer) (hpc : h.pc = .ready)
      (hwaits : h.request.waits = false) :
      HolderMove s h (.transmit script) (s.transmitted h script .accepted)
  | take {reply : AtReply} (hpc : h.pc = .awaiting) (hsem : s.semResponse = some reply) :
      HolderMove s h .go { s.goOn h (.awaited reply) with semResponse := none }
  | read {reply : AtReply} (hpc : h.pc = .awaited reply) :
      HolderMove s h .go
        (s.endWait h (some (reply, s.lastError)) (h.request.behindWait s.lastError))
  | resetAgain (hpc : h.pc = .accepted) : HolderMove s h .go (s.resetResponse h .resetAgain)
  | setLen (hpc : h.pc = .resetAgain) : HolderMove s h .go { s.goOn h .expecting with
      rxDataLen := match h.request with
        | .sendData len _ => len % 2 ^ 16
        | _ => s.rxDataLen }
  | prompt (hpc : h.pc = .expecting) (hready : s.semTxReady = true) :
      HolderMove s h .go { s.goOn h .prompted with semTxReady := false }
  | data (script : List AtAnswer) (hpc : h.pc = .prompted) :
      HolderMove s h (.transmit script) (s.transmitted h script .dataSent)
  | takeData {reply : AtReply} (hpc : h.pc = .dataSent) (hsem : s.semResponse = some reply) :
      HolderMove s h .go { s.goOn h (.received reply) with semResponse := none }
  | readData {reply : AtReply} (hpc : h.pc = .received reply) :
      HolderMove s h .go (s.endWait h (some (reply, s.lastError)) (.leaving s.lastError))
  | unset {ret : ℤ} (hpc : h.pc = .leaving ret) :
      HolderMove s h .go { s.goOn h (.unlocking ret) with handlers := ⟨h.id, []⟩ }
  | unlock {ret : ℤ} (hpc : h.pc = .unlocking ret) :
      HolderMove s h .go { s with holder := none }
  | expire (hpc : h.pc = .awaiting ∨ h.pc = .dataSent ∨ h.pc = .expecting) :
      HolderMove s h .expire (s.endWait h none (.leaving (-ETIMEDOUT)))

section Moves

variable {s s' : AtSystem} {h : AtHolder} {a : AtAction}

theorem taskMove_of_taskStep (hstep : s.taskStep = some s') : TaskMove s s' := by
  rw [taskStep] at hstep
  split at hstep
  next htask =>
      split at hstep
      · cases hstep
      next reply replies hreplies =>
          split at hstep
          next hcall =>
              split at hstep
              · cases hstep
              · cases hstep; exact .drop htask hreplies hcall
          next call hcall => cases hstep; exact .find htask hreplies hcall
  next reply call htask =>
      split at hstep
      · cases hstep; exact .code htask rfl
      · cases hstep; exact .code htask rfl
      · cases hstep; exact .prompt htask
      · cases hstep; exact .query htask
  next reply code htask => cases hstep; exact .setError htask
  next reply htask => cases hstep; exact .give htask

theorem holderMove_of_takeResponse {pc : AtReply → AtPc}
    (hstep : s.takeResponse h pc = some s') :
    ∃ reply, s.semResponse = some reply ∧
      s' = { s.goOn h (pc reply) with semResponse := none } := by
  rw [takeResponse] at hstep
  split at hstep
  · cases hstep
  next reply hsem => cases hstep; exact ⟨reply, hsem, rfl⟩

theorem holderMove_of_go (hstep : s.go h = some s') : HolderMove s h .go s' := by
  rw [go] at hstep
  split at hstep
  next hpc => cases hstep; exact .install hpc
  next hpc => cases hstep; exact .clear hpc
  next hpc =>
      split at hstep
      next hwaits => cases hstep; exact .reset hpc hwaits
      next hwaits => cases hstep; exact .skip hpc (Bool.eq_false_iff.mpr hwaits)
  · cases hstep
  next hpc =>
      obtain ⟨reply, hsem, rfl⟩ := holderMove_of_takeResponse hstep
      exact .take hpc hsem
  next reply hpc => cases hstep; exact .read hpc
  next hpc => cases hstep; exact .resetAgain hpc
  next hpc => cases hstep; exact .setLen hpc
  next hpc =>
      split at hstep
      next hready => cases hstep; exact .prompt hpc hready
      · cases hstep
  · cases hstep
  next hpc =>
      obtain ⟨reply, hsem, rfl⟩ := holderMove_of_takeResponse hstep
      exact .takeData hpc hsem
  next reply hpc => cases hstep; exact .readData hpc
  next ret hpc => cases hstep; exact .unset hpc
  next ret hpc => cases hstep; exact .unlock hpc

theorem holderMove_of_transmit {script : List AtAnswer}
    (hstep : s.transmit h script = some s') : HolderMove s h (.transmit script) s' := by
  simp only [transmit] at hstep
  split at hstep
  next hpc =>
      by_cases hwaits : h.request.waits = true
      · rw [if_pos hwaits] at hstep
        cases hstep
        exact .command script hpc hwaits
      · rw [if_neg hwaits] at hstep
        cases hstep
        exact .announce script hpc (Bool.eq_false_iff.mpr hwaits)
  next hpc => cases hstep; exact .data script hpc
  · cases hstep

theorem holderMove_of_expire (hstep : s.expire h = some s') : HolderMove s h .expire s' := by
  simp only [AtSystem.expire] at hstep
  split at hstep
  next hpc =>
      split at hstep
      · cases hstep; exact .expire (.inl hpc)
      · cases hstep
  next hpc =>
      split at hstep
      · cases hstep; exact .expire (.inr (.inl hpc))
      · cases hstep
  next hpc =>
      split at hstep
      · cases hstep
      · cases hstep; exact .expire (.inr (.inr hpc))
  · cases hstep

/-- What a step of the machine can be. -/
inductive AtMove (s : AtSystem) : AtAction → AtSystem → Prop
  | begin (request : AtRequest) (hfree : s.holder = none) :
      AtMove s (.begin request) { s with
        holder := some ⟨s.sent, request, .locked, s.inflight, [], []⟩
        begun := s.begun ++ [⟨s.sent, request, .locked, s.inflight, [], []⟩]
        rxData := match request with
          | .query _ => some s.sent
          | _ => s.rxData
        semTxReady := s.semTxReady && !request.sendsData }
  | holder {h : AtHolder} {a : AtAction} {s' : AtSystem} (hheld : s.holder = some h)
      (hmove : HolderMove s h a s') : AtMove s a s'
  | task {s' : AtSystem} (hmove : TaskMove s s') : AtMove s .task s'

theorem atMove_of_step (hstep : atMachine.step s a = some s') : AtMove s a s' := by
  cases a with
  | begin request =>
      simp only [atMachine, AtSystem.begin] at hstep
      split at hstep
      · cases hstep
      next hfree => cases hstep; exact .begin request hfree
  | go =>
      obtain ⟨h, hheld, hgo⟩ := Option.bind_eq_some_iff.mp hstep
      exact .holder hheld (holderMove_of_go hgo)
  | transmit script =>
      obtain ⟨h, hheld, htransmit⟩ := Option.bind_eq_some_iff.mp hstep
      exact .holder hheld (holderMove_of_transmit htransmit)
  | expire =>
      obtain ⟨h, hheld, hexpire⟩ := Option.bind_eq_some_iff.mp hstep
      exact .holder hheld (holderMove_of_expire hexpire)
  | task => exact .task (taskMove_of_taskStep hstep)

end Moves

/-! ## The next answer -/

/-- The reply that a wait takes unless the semaphore is reset before. -/
def AtSystem.nextAnswer (s : AtSystem) : Option AtReply :=
  s.semResponse.or s.outstanding.head?

section NextAnswer

variable {s s' : AtSystem} {h : AtHolder} {handlers : AtHandlers} {answer : AtAnswer}
  {script : List AtAnswer} {r : AtReply}

theorem hears_of_none (hcall : atCall handlers answer = none) :
    hears handlers answer = false := by
  rw [hears, hcall]
  rfl

theorem hears_of_some {call : AtCall} (hcall : atCall handlers answer = some call) :
    hears handlers answer = call.gives := by
  rw [hears, hcall]
  rfl

theorem mem_inflight_of_outstanding (hr : r ∈ s.outstanding) : r ∈ s.inflight := by
  rcases List.mem_append.mp hr with htask | hreplies
  · refine List.mem_append_left _ ?_
    cases h : s.task with
    | idle =>
        rw [h] at htask
        cases htask
    | found reply call =>
        rw [h, AtTask.giving] at htask
        split at htask
        · exact htask
        · cases htask
    | coded reply code =>
        rw [h] at htask
        exact htask
    | erred reply =>
        rw [h] at htask
        exact htask
  · exact List.mem_append_right _ (List.mem_of_mem_filter hreplies)

theorem number_of_answered (hr : r ∈ s.answered script) : r.number = s.sent := by
  obtain ⟨answer, -, rfl⟩ := List.mem_map.mp hr
  rfl

theorem outstanding_transmitted (pc : AtPc) : (s.transmitted h script pc).outstanding =
    s.outstanding ++ (s.answered script).filter fun r => hears s.handlers r.answer := by
  simp [AtSystem.transmitted, outstanding]

theorem inflight_transmitted (pc : AtPc) :
    (s.transmitted h script pc).inflight = s.inflight ++ s.answered script := by
  simp [AtSystem.transmitted, inflight]

/-- What is outstanding stays so until it gives the semaphore. -/
theorem TaskMove.outstanding (hmove : TaskMove s s') :
    s'.outstanding = s.outstanding ∧ s'.semResponse = s.semResponse ∨
      ∃ reply, s.task = .erred reply ∧ s.outstanding = reply :: s'.outstanding ∧
        s'.semResponse = s.semResponse.or (some reply) := by
  cases hmove with
  | drop htask hreplies hcall =>
      simp [AtSystem.outstanding, htask, hreplies, AtTask.giving, hears_of_none hcall]
  | @find reply replies call htask hreplies hcall =>
      cases hgives : call.gives <;>
        simp [AtSystem.outstanding, htask, hreplies, AtTask.giving, hears_of_some hcall, hgives]
  | code htask hgives => simp [AtSystem.outstanding, htask, AtTask.giving, hgives]
  | setError htask => simp [AtSystem.outstanding, htask, AtTask.giving]
  | prompt htask => simp [AtSystem.outstanding, htask, AtTask.giving, AtCall.gives]
  | query htask => simp [AtSystem.outstanding, htask, AtTask.giving, AtCall.gives]
  | give htask =>
      exact .inr ⟨_, htask, by simp [AtSystem.outstanding, htask, AtTask.giving], rfl⟩

/-- The modem task does not change what the next answer is. -/
theorem TaskMove.nextAnswer (hmove : TaskMove s s') : s'.nextAnswer = s.nextAnswer := by
  rcases hmove.outstanding with ⟨hout, hsem⟩ | ⟨reply, -, hout, hsem⟩
  · rw [AtSystem.nextAnswer, AtSystem.nextAnswer, hout, hsem]
  · rw [AtSystem.nextAnswer, AtSystem.nextAnswer, hout, hsem, Option.or_assoc]
    rfl

theorem TaskMove.mem_inflight (hmove : TaskMove s s') (hr : r ∈ s'.inflight) :
    r ∈ s.inflight := by
  cases hmove with
  | drop htask hreplies hcall =>
      simp only [inflight, htask, hreplies, List.mem_append, List.mem_cons] at hr ⊢
      tauto
  | find htask hreplies hcall =>
      simp only [inflight, htask, hreplies, AtTask.replies, List.mem_append, List.mem_cons,
        List.not_mem_nil] at hr ⊢
      tauto
  | code htask hgives => rwa [inflight, htask]
  | setError htask => rwa [inflight, htask]
  | prompt htask => exact List.mem_append_right _ hr
  | query htask => exact List.mem_append_right _ hr
  | give htask => exact List.mem_append_right _ hr

end NextAnswer

/-! ## Waits -/

/-- The wait took the first answer that was outstanding at the reset or came to what was
sent then, and an answer to its own transmission only when nothing was outstanding. -/
def AtWait.Fair (w : AtWait) : Prop :=
  ∀ reply code, w.outcome = some (reply, code) →
    (w.before ++ w.added).head? = some reply ∧
    (reply.number = w.transmission ↔ w.before = [])

/-- `sem_response` was reset, and nothing was sent since. -/
structure Unsent (s : AtSystem) (h : AtHolder) : Prop where
  added : h.added = []
  next : s.nextAnswer = h.before.head?
  before : ∀ r ∈ h.before, r.number < s.sent

/-- What is outstanding from before the reset, and what came since. -/
structure Numbered (s : AtSystem) (h : AtHolder) : Prop where
  before : ∀ r ∈ h.before, r.number < s.sent - 1
  added : ∀ r ∈ h.added, r.number = s.sent - 1

/-- What the holder of the lock is going to get, or has got. -/
def Expected (s : AtSystem) (h : AtHolder) : Prop :=
  match h.pc with
  | .ready => h.request.waits = true → Unsent s h
  | .resetAgain | .expecting | .prompted => Unsent s h
  | .awaiting | .dataSent =>
      Numbered s h ∧ s.nextAnswer = (h.before ++ h.added).head?
  | .awaited reply | .received reply =>
      Numbered s h ∧ (h.before ++ h.added).head? = some reply
  | _ => True

/-- The invariant of all runs. -/
structure Paired (s : AtSystem) : Prop where
  numbers : ∀ r ∈ s.inflight, r.number < s.sent
  expected : ∀ h, s.holder = some h → Expected s h
  fair : ∀ w ∈ s.waits, w.Fair

section Waits

variable {s s' : AtSystem} {h : AtHolder} {a : AtAction} {script : List AtAnswer}

theorem Expected.task (hmove : TaskMove s s') (hexpected : Expected s h) : Expected s' h := by
  have hsent : s'.sent = s.sent := by cases hmove <;> rfl
  have hnext := hmove.nextAnswer
  have hunsent : Unsent s h → Unsent s' h := fun hu =>
    ⟨hu.added, hnext.trans hu.next, fun r hr => hsent ▸ hu.before r hr⟩
  have hnumbered : Numbered s h → Numbered s' h := fun hn =>
    ⟨fun r hr => hsent ▸ hn.before r hr, fun r hr => hsent ▸ hn.added r hr⟩
  rw [Expected] at hexpected ⊢
  split at hexpected
  · exact fun hwaits => hunsent (hexpected hwaits)
  · exact hunsent hexpected
  · exact hunsent hexpected
  · exact hunsent hexpected
  · exact ⟨hnumbered hexpected.1, hnext.trans hexpected.2⟩
  · exact ⟨hnumbered hexpected.1, hnext.trans hexpected.2⟩
  · exact ⟨hnumbered hexpected.1, hexpected.2⟩
  · exact ⟨hnumbered hexpected.1, hexpected.2⟩
  · trivial

/-- A reset semaphore gets the first answer that is outstanding. -/
theorem Paired.unsent (hs : Paired s) (pc : AtPc) :
    Unsent (s.resetResponse h pc) { h with pc := pc, before := s.outstanding, added := [] } where
  added := rfl
  next := rfl
  before r hr := hs.numbers r (mem_inflight_of_outstanding hr)

/-- What is sent adds its answers behind those that were outstanding. -/
theorem Unsent.transmitted (hu : Unsent s h) (script : List AtAnswer) (pc : AtPc) :
    Numbered (s.transmitted h script pc) { h with
        pc := pc
        added := (s.answered script).filter fun r => hears s.handlers r.answer } ∧
      (s.transmitted h script pc).nextAnswer = (h.before ++
        (s.answered script).filter fun r => hears s.handlers r.answer).head? := by
  refine ⟨⟨hu.before, fun r hr => number_of_answered (List.mem_of_mem_filter hr)⟩, ?_⟩
  have hnext := hu.next
  rw [AtSystem.nextAnswer, outstanding_transmitted, List.head?_append, List.head?_append,
    ← Option.or_assoc, ← hnext]
  rfl

theorem Expected.fair {reply : AtReply} {code : ℤ} (hnumbered : Numbered s h)
    (hhead : (h.before ++ h.added).head? = some reply) :
    AtWait.Fair ⟨h.id, s.sent - 1, s.handlers, s.rxDataLen, h.before, h.added,
      some (reply, code)⟩ := by
  rintro reply' code' heq
  obtain ⟨rfl, rfl⟩ := Prod.mk.inj (Option.some.inj heq)
  refine ⟨hhead, ?_⟩
  dsimp only
  cases hbefore : h.before with
  | nil =>
      rw [hbefore, List.nil_append] at hhead
      exact ⟨fun _ => rfl, fun _ => hnumbered.added _ (List.mem_of_head? hhead)⟩
  | cons r rs =>
      rw [hbefore, List.cons_append, List.head?_cons, Option.some.injEq] at hhead
      have hlt := hnumbered.before r (hbefore ▸ List.mem_cons_self)
      rw [hhead] at hlt
      exact ⟨fun heq => absurd heq hlt.ne, fun hnil => by cases hnil⟩

theorem HolderMove.numbers (hmove : HolderMove s h a s')
    (hs : ∀ r ∈ s.inflight, r.number < s.sent) : ∀ r ∈ s'.inflight, r.number < s'.sent := by
  have hsent : ∀ (script : List AtAnswer) (pc : AtPc),
      ∀ r ∈ (s.transmitted h script pc).inflight, r.number < s.sent + 1 := by
    intro script pc r hr
    rw [inflight_transmitted] at hr
    rcases List.mem_append.mp hr with hold | hnew
    · exact Nat.lt_succ_of_lt (hs r hold)
    · exact Nat.lt_succ_of_le (number_of_answered hnew).le
  cases hmove with
  | command script hpc hwaits => exact hsent script _
  | announce script hpc hwaits => exact hsent script _
  | data script hpc => exact hsent script _
  | _ => exact hs

/-- The holder after a move. -/
theorem HolderMove.expected (hmove : HolderMove s h a s') (hs : Paired s)
    (hheld : s.holder = some h) {h' : AtHolder} (hheld' : s'.holder = some h') :
    Expected s' h' := by
  have hexpected := hs.expected h hheld
  rw [Expected] at hexpected
  cases hmove with
  | reset hpc hwaits => cases hheld'; exact fun _ => hs.unsent _
  | skip hpc hwaits =>
      cases hheld'
      exact fun htrue => absurd (hwaits.symm.trans htrue) Bool.false_ne_true
  | command script hpc hwaits =>
      cases hheld'
      rw [hpc] at hexpected
      exact (hexpected hwaits).transmitted script _
  | take hpc hsem =>
      cases hheld'
      rw [hpc] at hexpected
      obtain ⟨hnumbered, hnext⟩ := hexpected
      rw [AtSystem.nextAnswer, hsem] at hnext
      exact ⟨⟨hnumbered.before, hnumbered.added⟩, hnext.symm⟩
  | read hpc =>
      cases hheld'
      by_cases hgoes : h.request.sendsData = true ∧ 0 ≤ s.lastError
      · simp only [Expected, AtRequest.behindWait, if_pos hgoes]
      · simp only [Expected, AtRequest.behindWait, if_neg hgoes]
  | resetAgain hpc => cases hheld'; exact hs.unsent _
  | setLen hpc =>
      cases hheld'
      rw [hpc] at hexpected
      exact ⟨hexpected.added, hexpected.next, hexpected.before⟩
  | prompt hpc hready =>
      cases hheld'
      rw [hpc] at hexpected
      exact ⟨hexpected.added, hexpected.next, hexpected.before⟩
  | data script hpc =>
      cases hheld'
      rw [hpc] at hexpected
      exact hexpected.transmitted script _
  | takeData hpc hsem =>
      cases hheld'
      rw [hpc] at hexpected
      obtain ⟨hnumbered, hnext⟩ := hexpected
      rw [AtSystem.nextAnswer, hsem] at hnext
      exact ⟨⟨hnumbered.before, hnumbered.added⟩, hnext.symm⟩
  | unlock hpc => cases hheld'
  | _ => cases hheld'; trivial

theorem HolderMove.fair (hmove : HolderMove s h a s') (hs : Paired s)
    (hheld : s.holder = some h) : ∀ w ∈ s'.waits, w.Fair := by
  have hexpected := hs.expected h hheld
  rw [Expected] at hexpected
  have hend : ∀ w : AtWait, w.Fair → ∀ w' ∈ s.waits ++ [w], w'.Fair := by
    intro w hw w' hw'
    rcases List.mem_append.mp hw' with hold | hnew
    · exact hs.fair w' hold
    · exact (List.mem_singleton.mp hnew) ▸ hw
  cases hmove with
  | read hpc =>
      rw [hpc] at hexpected
      exact hend _ (Expected.fair hexpected.1 hexpected.2)
  | readData hpc =>
      rw [hpc] at hexpected
      exact hend _ (Expected.fair hexpected.1 hexpected.2)
  | expire hpc => exact hend _ fun reply code heq => by cases heq
  | _ => exact hs.fair

theorem Paired.step (hs : Paired s) (hmove : AtMove s a s') : Paired s' := by
  cases hmove with
  | begin request hfree =>
      exact ⟨hs.numbers, fun h hheld => by cases hheld; trivial, hs.fair⟩
  | holder hheld hmove =>
      exact ⟨hmove.numbers hs.numbers, fun h' hheld' => hmove.expected hs hheld hheld',
        hmove.fair hs hheld⟩
  | task hmove =>
      have hkept : s'.sent = s.sent ∧ s'.holder = s.holder ∧ s'.waits = s.waits := by
        cases hmove <;> exact ⟨rfl, rfl, rfl⟩
      obtain ⟨hsent, hholder, hwaits⟩ := hkept
      refine ⟨fun r hr => hsent ▸ hs.numbers r (hmove.mem_inflight hr), fun h hheld => ?_,
        hwaits ▸ hs.fair⟩
      exact (hs.expected h (hholder ▸ hheld)).task hmove

theorem paired_of_reachable (h : atMachine.Reachable s) : Paired s := by
  have hinit : ∀ s, atMachine.init s → Paired s := by
    rintro s rfl
    exact ⟨fun r hr => absurd hr List.not_mem_nil,
      fun h hheld => absurd hheld (Option.some_ne_none h).symm,
      fun w hw => absurd hw List.not_mem_nil⟩
  exact Machine.ReachableVia.invariant hinit
    (fun s a s' hs _ hstep => hs.step (atMove_of_step hstep)) h

/-- In every run, a wait takes the first answer that was outstanding when it reset the
semaphore, or else the first to what it sent; it gets an answer to its own transmission
exactly if nothing was outstanding. -/
theorem wait_takes_first (h : atMachine.Reachable s) {w : AtWait} (hw : w ∈ s.waits)
    {reply : AtReply} {code : ℤ} (houtcome : w.outcome = some (reply, code)) :
    (w.before ++ w.added).head? = some reply ∧
      (reply.number = w.transmission ↔ w.before = []) :=
  (paired_of_reachable h).fair w hw reply code houtcome

/-- A command times out, and the next one takes its answer. -/
theorem wait_takes_first_late :
    ∃ s, atMachine.Reachable s ∧ s.waits.map AtWait.before = [[], [⟨0, .line (ascii "OK")⟩]] ∧
      ∀ w ∈ s.waits, ∀ reply code, w.outcome = some (reply, code) →
        (w.before ++ w.added).head? = some reply ∧
          (reply.number = w.transmission ↔ w.before = []) := by
  have hrun : (atMachine.run .initial [.begin .execute, .go, .go, .go,
      .transmit [.line (ascii "OK")], .expire, .go, .go, .begin .execute, .go, .go, .go,
      .transmit [.line (ascii "ERROR")], .task, .task, .task, .task, .go, .go]).map
        (fun s => s.waits.map AtWait.before) = some [[], [⟨0, .line (ascii "OK")⟩]] := by
    decide +kernel
  obtain ⟨s, hs, hbefore⟩ := Option.map_eq_some_iff.mp hrun
  have hreach := Machine.reachable_of_run rfl _ hs
  exact ⟨s, hreach, hbefore, fun w hw reply code houtcome =>
    wait_takes_first hreach hw houtcome⟩

end Waits

/-! ## Late answers -/

/-- A status line of the modem. -/
def statusLine (ok : Bool) : AtAnswer := .line (if ok then ascii "OK" else ascii "ERROR")

def statusCode (ok : Bool) : ℤ := if ok then 0 else -eio

theorem atCall_statusLine (owner : ℕ) (ok : Bool) :
    atCall ⟨owner, []⟩ (statusLine ok) = some (.status (statusCode ok)) := by
  have hok : lineCall (modemCmds []) (ascii "OK") = some (.line (modemCmd "OK" 0 "") []) := by
    decide +kernel
  have herror : lineCall (modemCmds []) (ascii "ERROR") =
      some (.line (modemCmd "ERROR" 0 "") []) := by
    decide +kernel
  have hne : modemCmd "ERROR" 0 "" ≠ modemCmd "OK" 0 "" := by decide +kernel
  cases ok with
  | true => simp [atCall, statusLine, hok, atFunction, statusCode]
  | false => simp [atCall, statusLine, herror, atFunction, statusCode, hne]

/-- The lock is free, and one answer is still to come: that to the last command. -/
structure Late (s : AtSystem) (number : ℕ) (ok : Bool) : Prop where
  free : s.holder = none
  sent : s.sent = number + 1
  task : s.task = .idle
  replies : s.replies = [⟨number, statusLine ok⟩]

/-- A command that comes then, and is answered with `ok` later. -/
def lateCommand (ok : Bool) : List AtAction :=
  [.begin .execute, .go, .go, .go, .transmit [statusLine ok], .task, .task, .task, .task, .go,
    .go, .go, .go]

theorem hears_statusLine (owner : ℕ) (ok : Bool) : hears ⟨owner, []⟩ (statusLine ok) = true := by
  rw [hears, atCall_statusLine]
  rfl

theorem Late.next {s : AtSystem} {number : ℕ} {ok : Bool} (h : Late s number ok) (ok' : Bool) :
    ∃ s', atMachine.run s (lateCommand ok') = some s' ∧ Late s' (number + 1) ok' ∧
      s'.waits.map AtWait.transmission = s.waits.map AtWait.transmission ++ [number + 1] ∧
      s'.waits.map AtWait.outcome = s.waits.map AtWait.outcome ++
        [some (⟨number, statusLine ok⟩, statusCode ok)] := by
  obtain ⟨hfree, hsent, htask, hreplies⟩ := h
  have hrun : atMachine.run s (lateCommand ok') = some { s with
      holder := none
      sent := number + 2
      handlers := ⟨number + 1, []⟩
      lastError := statusCode ok
      semResponse := none
      task := .idle
      replies := [⟨number + 1, statusLine ok'⟩]
      begun := s.begun ++
        [⟨number + 1, .execute, .locked, [⟨number, statusLine ok⟩], [], []⟩]
      waits := s.waits ++ [⟨number + 1, number + 1, ⟨number + 1, []⟩, s.rxDataLen,
        [⟨number, statusLine ok⟩], [⟨number + 1, statusLine ok'⟩],
        some (⟨number, statusLine ok⟩, statusCode ok)⟩] } := by
    simp [Machine.run, atMachine, lateCommand, AtSystem.begin, hfree, hsent, htask, hreplies,
      go, goOn, AtRequest.waits, resetResponse, transmit, taskStep, atCall_statusLine,
      hears_statusLine, AtRequest.cmds, takeResponse, endWait, AtRequest.behindWait,
      AtRequest.sendsData, inflight, outstanding, AtTask.replies, AtTask.giving, AtCall.code]
  exact ⟨_, hrun, ⟨rfl, rfl, rfl, rfl⟩, List.map_append, List.map_append⟩

/-- After one timeout, the answers stay one command behind for as long as each command
comes before the answer to the one in front of it: whatever the modem answers, each
command reports the result of its predecessor. -/
theorem one_timeout_shifts_answers (results : List Bool) (last : Bool) :
    ∃ s, atMachine.Reachable s ∧
      s.waits.map AtWait.transmission = List.range (results.length + 1) ∧
      s.waits.map AtWait.outcome = none ::
        results.mapIdx fun i ok => some (⟨i, statusLine ok⟩, statusCode ok) := by
  suffices h : ∃ s, atMachine.Reachable s ∧ Late s results.length last ∧
      s.waits.map AtWait.transmission = List.range (results.length + 1) ∧
      s.waits.map AtWait.outcome = none ::
        results.mapIdx fun i ok => some (⟨i, statusLine ok⟩, statusCode ok) by
    obtain ⟨s, hs, -, hnumbers, houtcomes⟩ := h
    exact ⟨s, hs, hnumbers, houtcomes⟩
  induction results using List.reverseRecOn generalizing last with
  | nil =>
      -- The first command times out before its answer comes.
      have hrun : atMachine.run .initial [.begin .execute, .go, .go, .go,
          .transmit [statusLine last], .expire, .go, .go] = some { AtSystem.initial with
            sent := 1
            replies := [⟨0, statusLine last⟩]
            begun := [⟨0, .execute, .locked, [], [], []⟩]
            waits := [⟨0, 0, ⟨0, []⟩, 0, [], [⟨0, statusLine last⟩], none⟩] } := by
        simp [Machine.run, atMachine, AtSystem.begin, AtSystem.initial, go, goOn,
          AtRequest.waits, resetResponse, transmit, AtSystem.expire, hears_statusLine,
          AtRequest.cmds, endWait, inflight, outstanding, AtTask.replies, AtTask.giving,
          AtRequest.sendsData]
      exact ⟨_, Machine.reachable_of_run rfl _ hrun, ⟨rfl, rfl, rfl, rfl⟩, rfl, rfl⟩
  | append_singleton results ok ih =>
      obtain ⟨s, hs, hlate, hnumbers, houtcomes⟩ := ih ok
      obtain ⟨s', hrun, hlate', hnumbers', houtcomes'⟩ := hlate.next last
      have hlen : (results ++ [ok]).length = results.length + 1 := by
        rw [List.length_append, List.length_singleton]
      refine ⟨s', Machine.ReachableVia.run hs _ (atMachine.meets_true s _) hrun,
        hlen ▸ hlate', ?_, ?_⟩
      · rw [hnumbers', hnumbers, hlen]
        exact List.range_succ.symm
      · rw [houtcomes', houtcomes, List.mapIdx_concat]
        rfl

end RtpMulticast
