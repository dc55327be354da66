import RtpMulticast.Modem.AtPairing

/-!
# Commands that get what is theirs

As long as the modem answers each transmission at most once, a command that finds no
backlog when it takes the lock leaves none behind, unless a wait of its own times out.
So in runs without timeouts each command gets its own answer and its own data.
-/

namespace RtpMulticast

open AtSystem ByteBuffer Text

/-! ## What the modem says -/

/-- At most one answer gives the semaphore, and it is the last; if `more`, something may
follow an "OK". -/
def AnsweredLast (handlers : AtHandlers) (more : Bool) : List AtAnswer → Prop
  | [] => True
  | answer :: rest =>
      (hears handlers answer = true → rest = [] ∨ more = true ∧
        atCall handlers answer = some (.status 0) ∧ ∀ a ∈ rest, hears handlers a = false) ∧
      AnsweredLast handlers more rest

instance decidableAnsweredLast (handlers : AtHandlers) (more : Bool) :
    (answers : List AtAnswer) → Decidable (AnsweredLast handlers more answers)
  | [] => isTrue trivial
  | _ :: rest =>
      have := decidableAnsweredLast handlers more rest
      inferInstanceAs (Decidable (_ ∧ _))

/-- The modem answers what a wait is about at most once, and a command whose answer is
not waited for with the prompt alone. -/
def AtHolder.WellAnswered (h : AtHolder) (handlers : AtHandlers) (script : List AtAnswer) :
    Prop :=
  if h.pc = .ready ∧ h.request.waits = false then
    ∀ answer ∈ script, hears handlers answer = false
  else AnsweredLast handlers (h.pc = .ready && h.request.sendsData) script

instance (h : AtHolder) (handlers : AtHandlers) (script : List AtAnswer) :
    Decidable (h.WellAnswered handlers script) :=
  inferInstanceAs (Decidable (
    if h.pc = .ready ∧ h.request.waits = false then
      ∀ answer ∈ script, hears handlers answer = false
    else AnsweredLast handlers (h.pc = .ready && h.request.sendsData) script))

def WellAnswered (s : AtSystem) : AtAction → Prop
  | .transmit script => ∀ h ∈ s.holder, h.WellAnswered s.handlers script
  | _ => True

instance decidableWellAnswered (s : AtSystem) : (a : AtAction) → Decidable (WellAnswered s a)
  | .transmit script =>
      inferInstanceAs (Decidable (∀ h ∈ s.holder, h.WellAnswered s.handlers script))
  | .begin _ | .go | .expire | .task => isTrue trivial

section Answers

variable {handlers : AtHandlers} {more : Bool} {answers answers' : List AtAnswer}

theorem AnsweredLast.length_filter_le (h : AnsweredLast handlers more answers) :
    (answers.filter (hears handlers)).length ≤ 1 := by
  induction answers with
  | nil => exact Nat.zero_le 1
  | cons answer answers ih =>
      by_cases hheard : hears handlers answer = true
      · have hrest : answers.filter (hears handlers) = [] := by
          rcases h.1 hheard with rfl | ⟨-, -, hquiet⟩
          · rfl
          · exact List.filter_eq_nil_iff.mpr fun a ha => by simp [hquiet a ha]
        rw [List.filter_cons_of_pos hheard, hrest]
        exact le_rfl
      · rw [List.filter_cons_of_neg hheard]
        exact ih h.2

/-- What is not heard in front makes no difference. -/
theorem AnsweredLast.behind (hquiet : ∀ a ∈ answers, hears handlers a = false)
    (h : AnsweredLast handlers more answers') :
    AnsweredLast handlers more (answers ++ answers') := by
  induction answers with
  | nil => exact h
  | cons a answers ih =>
      obtain ⟨ha, hanswers⟩ := List.forall_mem_cons.mp hquiet
      exact ⟨fun hheard => absurd (ha.symm.trans hheard) Bool.false_ne_true, ih hanswers⟩

end Answers

/-! ## Where the holder is -/

/-- What every command knows of the tables and of what it sent. -/
structure Placed (s : AtSystem) (h : AtHolder) : Prop where
  cmds : match h.pc with
    | .locked | .unlocking _ => s.handlers.cmds = []
    | _ => s.handlers = ⟨h.id, h.request.cmds⟩
  sent : match h.pc with
    | .locked | .tabled | .installed | .ready => s.sent = h.id
    | _ => h.id < s.sent ∧ (h.request.sendsData = false → s.sent = h.id + 1)
  data : match h.pc with
    | .accepted | .resetAgain | .expecting | .prompted | .dataSent | .received _ =>
        h.request.sendsData = true
    | _ => True
  rxData : ∀ resp, h.request = .query resp → s.rxData = some h.id

section Places

variable {s s' : AtSystem} {h h' : AtHolder} {a : AtAction}

theorem AtRequest.sendsData_of_not_waits {request : AtRequest}
    (hwaits : request.waits = false) : request.sendsData = true := by
  cases request with
  | sendData len checkResp => rfl
  | _ => cases hwaits

theorem Placed.task (hplaced : Placed s h) (hmove : TaskMove s s') : Placed s' h := by
  cases hmove <;> exact ⟨hplaced.cmds, hplaced.sent, hplaced.data, hplaced.rxData⟩

theorem Placed.holder (hplaced : Placed s h) (hmove : HolderMove s h a s')
    (hheld : s'.holder = some h') : Placed s' h' := by
  obtain ⟨hcmds, hsent, hdata, hrx⟩ := hplaced
  cases hmove with
  | install hpc =>
      cases hheld
      rw [hpc] at hsent
      exact ⟨rfl, hsent, trivial, hrx⟩
  | clear hpc =>
      cases hheld
      rw [hpc] at hcmds hsent
      exact ⟨hcmds, hsent, trivial, hrx⟩
  | reset hpc hwaits =>
      cases hheld
      rw [hpc] at hcmds hsent
      exact ⟨hcmds, hsent, trivial, hrx⟩
  | skip hpc hwaits =>
      cases hheld
      rw [hpc] at hcmds hsent
      exact ⟨hcmds, hsent, trivial, hrx⟩
  | command script hpc hwaits =>
      cases hheld
      rw [hpc] at hcmds hsent
      exact ⟨hcmds, ⟨Nat.lt_succ_of_le hsent.ge, fun _ => congrArg (· + 1) hsent⟩, trivial,
        hrx⟩
  | announce script hpc hwaits =>
      cases hheld
      rw [hpc] at hcmds hsent
      exact ⟨hcmds, ⟨Nat.lt_succ_of_le hsent.ge, fun _ => congrArg (· + 1) hsent⟩,
        AtRequest.sendsData_of_not_waits hwaits, hrx⟩
  | take hpc hsem =>
      cases hheld
      rw [hpc] at hcmds hsent
      exact ⟨hcmds, hsent, trivial, hrx⟩
  | read hpc =>
      cases hheld
      rw [hpc] at hcmds hsent
      by_cases hgoes : h.request.sendsData = true ∧ 0 ≤ s.lastError
      · rw [AtRequest.behindWait, if_pos hgoes]
        exact ⟨hcmds, hsent, hgoes.1, hrx⟩
      · rw [AtRequest.behindWait, if_neg hgoes]
        exact ⟨hcmds, hsent, trivial, hrx⟩
  | resetAgain hpc =>
      cases hheld
      rw [hpc] at hcmds hsent hdata
      exact ⟨hcmds, hsent, hdata, hrx⟩
  | setLen hpc =>
      cases hheld
      rw [hpc] at hcmds hsent hdata
      exact ⟨hcmds, hsent, hdata, hrx⟩
  | prompt hpc hready =>
      cases hheld
      rw [hpc] at hcmds hsent hdata
      exact ⟨hcmds, hsent, hdata, hrx⟩
  | data script hpc =>
      cases hheld
      rw [hpc] at hcmds hsent hdata
      exact ⟨hcmds, ⟨Nat.lt_succ_of_lt hsent.1,
        fun hno => absurd (hno.symm.trans hdata) Bool.false_ne_true⟩, hdata, hrx⟩
  | takeData hpc hsem =>
      cases hheld
      rw [hpc] at hcmds hsent hdata
      exact ⟨hcmds, hsent, hdata, hrx⟩
  | readData hpc =>
      cases hheld
      rw [hpc] at hcmds hsent
      exact ⟨hcmds, hsent, trivial, hrx⟩
  | unset hpc =>
      cases hheld
      rw [hpc] at hsent
      exact ⟨rfl, hsent, trivial, hrx⟩
  | unlock hpc => cases hheld
  | expire hpc =>
      cases hheld
      rcases hpc with hpc | hpc | hpc
      · rw [hpc] at hcmds hsent
        exact ⟨hcmds, hsent, trivial, hrx⟩
      · rw [hpc] at hcmds hsent
        exact ⟨hcmds, hsent, trivial, hrx⟩
      · rw [hpc] at hcmds hsent
        exact ⟨hcmds, hsent, trivial, hrx⟩

end Places

/-! ## Commands without backlog -/

/-- `last_error` is what the function of the reply set. -/
def ErrorOf (s : AtSystem) (reply : AtReply) : Prop :=
  ∃ call, atCall s.handlers reply.answer = some call ∧ call.gives = true ∧
    s.lastError = call.code s.rxDataLen

/-- What the modem task has in hand, it found in the tables as they are. -/
def TaskOwn (s : AtSystem) : Prop :=
  match s.task with
  | .idle => True
  | .found reply call => atCall s.handlers reply.answer = some call
  | .coded reply code => ∃ call, atCall s.handlers reply.answer = some call ∧
      call.gives = true ∧ code = call.code s.rxDataLen
  | .erred reply => ErrorOf s reply

/-- A wait with one answer at most, which `given` is when the semaphore was given. -/
structure Waiting (s : AtSystem) (h : AtHolder) (more : Bool) (given : Option AtReply) :
    Prop where
  before : h.before = []
  account : given.toList ++ s.outstanding = h.added
  short : h.added.length ≤ 1
  last : AnsweredLast s.handlers more (s.inflight.map AtReply.answer)
  rest : ∀ r, given = some r → ErrorOf s r ∧
    (s.inflight = [] ∨ more = true ∧ atCall s.handlers r.answer = some (.status 0))

/-- A command that began without backlog, at each of its places. -/
def OwnAt (s : AtSystem) (h : AtHolder) : Prop :=
  match h.pc with
  | .locked | .tabled | .installed | .leaving _ | .unlocking _ => s.inflight = []
  | .ready => s.inflight = [] ∧
      (h.request.waits = true → s.semResponse = none ∧ h.before = [])
  | .awaiting => Waiting s h h.request.sendsData s.semResponse
  | .awaited reply =>
      s.semResponse = none ∧ Waiting s h h.request.sendsData (some reply)
  | .accepted => s.outstanding = []
  | .resetAgain | .expecting | .prompted =>
      s.outstanding = [] ∧ s.semResponse = none ∧ h.before = []
  | .dataSent => Waiting s h false s.semResponse
  | .received reply => s.semResponse = none ∧ Waiting s h false (some reply)

/-- A command that began without backlog and did not time out. -/
structure Own (s : AtSystem) (h : AtHolder) : Prop where
  task : TaskOwn s
  place : OwnAt s h
  numbers : ∀ r ∈ s.inflight, h.id ≤ r.number

section Own

variable {s s' : AtSystem} {h h' : AtHolder} {a : AtAction} {more : Bool}
  {given : Option AtReply}

theorem task_eq_idle (hempty : s.inflight = []) : s.task = .idle := by
  have htask := (List.append_eq_nil_iff.mp hempty).1
  cases h : s.task with
  | idle => rfl
  | _ => simp [h, AtTask.replies] at htask

theorem taskOwn_of_idle (hidle : s.task = .idle) : TaskOwn s := by
  rw [TaskOwn, hidle]
  trivial

theorem outstanding_eq_nil (hempty : s.inflight = []) : s.outstanding = [] :=
  List.eq_nil_iff_forall_not_mem.mpr fun _ hr =>
    List.not_mem_nil (hempty ▸ mem_inflight_of_outstanding hr)

theorem TaskMove.inflight_ne_nil (hmove : TaskMove s s') : s.inflight ≠ [] := by
  cases hmove with
  | drop htask hreplies hcall => simp [inflight, hreplies]
  | find htask hreplies hcall => simp [inflight, hreplies]
  | code htask hgives => simp [inflight, htask, AtTask.replies]
  | setError htask => simp [inflight, htask, AtTask.replies]
  | prompt htask => simp [inflight, htask, AtTask.replies]
  | query htask => simp [inflight, htask, AtTask.replies]
  | give htask => simp [inflight, htask, AtTask.replies]

/-- What is in hand and does not give the semaphore is not heard. -/
theorem quiet_of_outstanding (htask : TaskOwn s) (hout : s.outstanding = []) :
    ∀ a ∈ s.inflight.map AtReply.answer, hears s.handlers a = false := by
  obtain ⟨hgiving, hfilter⟩ := List.append_eq_nil_iff.mp hout
  rw [inflight, List.map_append]
  intro a ha
  rcases List.mem_append.mp ha with ha | ha
  · cases h : s.task with
    | idle =>
        rw [h] at ha
        cases ha
    | found reply call =>
        rw [h, AtTask.replies, List.map_singleton, List.mem_singleton] at ha
        rw [TaskOwn, h] at htask
        rw [ha, hears_of_some htask]
        cases hgives : call.gives with
        | false => rfl
        | true => simp [h, AtTask.giving, hgives] at hgiving
    | coded reply code =>
        rw [h] at hgiving
        cases hgiving
    | erred reply =>
        rw [h] at hgiving
        cases hgiving
  · obtain ⟨r, hr, rfl⟩ := List.mem_map.mp ha
    exact Bool.eq_false_iff.mpr (List.filter_eq_nil_iff.mp hfilter r hr)

/-- Between answers, the length of the data can change. -/
theorem taskOwn_of_quiet (htask : TaskOwn s) (hout : s.outstanding = [])
    (hsame : s'.task = s.task) (hhandlers : s'.handlers = s.handlers) : TaskOwn s' := by
  rw [TaskOwn] at htask ⊢
  rw [hsame, hhandlers]
  cases h : s.task with
  | idle => trivial
  | found reply call =>
      rw [h] at htask
      exact htask
  | coded reply code =>
      rw [outstanding, h] at hout
      cases hout
  | erred reply =>
      rw [outstanding, h] at hout
      cases hout

theorem TaskMove.task_own (hmove : TaskMove s s') (htask : TaskOwn s) : TaskOwn s' := by
  cases hmove with
  | drop hidle hreplies hcall => exact taskOwn_of_idle hidle
  | find hidle hreplies hcall => exact hcall
  | code hfound hgives =>
      rw [TaskOwn, hfound] at htask
      exact ⟨_, htask, hgives, rfl⟩
  | setError hcoded =>
      rw [TaskOwn, hcoded] at htask
      exact htask
  | _ => trivial

/-- The semaphore stays as it is when nothing is outstanding. -/
theorem TaskMove.quiet (hmove : TaskMove s s') (hout : s.outstanding = []) :
    s'.outstanding = [] ∧ s'.semResponse = s.semResponse := by
  rcases hmove.outstanding with ⟨hout', hsem⟩ | ⟨reply, -, hcons, -⟩
  · exact ⟨hout'.trans hout, hsem⟩
  · exact absurd (hcons.symm.trans hout) (List.cons_ne_nil _ _)

/-- So does the error. -/
theorem TaskMove.errorOf (hmove : TaskMove s s') (hout : s.outstanding = []) {reply : AtReply}
    (herror : ErrorOf s reply) : ErrorOf s' reply := by
  cases hmove with
  | setError hcoded =>
      rw [AtSystem.outstanding, hcoded] at hout
      cases hout
  | _ => exact herror

theorem TaskMove.handlers (hmove : TaskMove s s') : s'.handlers = s.handlers := by
  cases hmove <;> rfl

theorem TaskMove.inflight (hmove : TaskMove s s') :
    s'.inflight = s.inflight ∨ ∃ reply, s.inflight = reply :: s'.inflight := by
  cases hmove with
  | @drop reply replies hidle hreplies hcall =>
      exact .inr ⟨reply, by simp [AtSystem.inflight, hidle, hreplies, AtTask.replies]⟩
  | find hidle hreplies hcall =>
      exact .inl (by simp [AtSystem.inflight, hidle, hreplies, AtTask.replies])
  | code hfound hgives =>
      exact .inl (by simp [AtSystem.inflight, hfound, AtTask.replies])
  | setError hcoded =>
      exact .inl (by simp [AtSystem.inflight, hcoded, AtTask.replies])
  | @prompt reply hfound =>
      exact .inr ⟨reply, by simp [AtSystem.inflight, hfound, AtTask.replies]⟩
  | @query reply owner argv hfound =>
      exact .inr ⟨reply, by simp [AtSystem.inflight, hfound, AtTask.replies]⟩
  | @give reply herred =>
      exact .inr ⟨reply, by simp [AtSystem.inflight, herred, AtTask.replies]⟩

theorem TaskMove.last (hmove : TaskMove s s')
    (hlast : AnsweredLast s.handlers more (s.inflight.map AtReply.answer)) :
    AnsweredLast s'.handlers more (s'.inflight.map AtReply.answer) := by
  rw [hmove.handlers]
  rcases hmove.inflight with heq | ⟨reply, heq⟩
  · rwa [heq]
  · rw [heq, List.map_cons] at hlast
    exact hlast.2

theorem Waiting.outstanding_nil {r : AtReply} (hw : Waiting s h more (some r)) :
    s.outstanding = [] := by
  have hshort := hw.short
  rw [← hw.account, Option.toList_some, List.singleton_append, List.length_cons] at hshort
  exact List.length_eq_zero_iff.mp (by omega)

/-- A wait is not touched as long as nothing is given. -/
theorem Waiting.keep (hw : Waiting s h more given) (hmove : TaskMove s s')
    (hout : s'.outstanding = s.outstanding) : Waiting s' h more given where
  before := hw.before
  account := by rw [hout, hw.account]
  short := hw.short
  last := hmove.last hw.last
  rest r hr := by
    obtain ⟨herror, hrest⟩ := hw.rest r hr
    subst hr
    refine ⟨hmove.errorOf hw.outstanding_nil herror, .inr ?_⟩
    rw [hmove.handlers]
    exact hrest.resolve_left hmove.inflight_ne_nil

theorem Waiting.task (hw : Waiting s h more s.semResponse) (htask : TaskOwn s)
    (hmove : TaskMove s s') : Waiting s' h more s'.semResponse := by
  rcases hmove.outstanding with ⟨hout, hsem⟩ | ⟨reply, herred, hout, hsem⟩
  · rw [hsem]
    exact hw.keep hmove hout
  · have haccount := hw.account
    have hshort := hw.short
    rw [hout] at haccount
    have hlen : s.semResponse.toList.length + (s'.outstanding.length + 1) ≤ 1 := by
      rwa [← haccount, List.length_append, List.length_cons] at hshort
    have hempty : s'.outstanding = [] := List.length_eq_zero_iff.mp (by omega)
    have hnone : s.semResponse = none :=
      Option.toList_eq_nil_iff.mp (List.length_eq_zero_iff.mp (by omega))
    rw [hnone, hempty, Option.toList_none, List.nil_append] at haccount
    rw [hsem, hnone, Option.none_or]
    rw [TaskOwn, herred] at htask
    obtain ⟨call, hcall, hgives, herror⟩ := htask
    have hlast := hw.last
    have hlast' := hmove.last hlast
    cases hmove with
    | give herred' =>
        rw [herred, AtTask.erred.injEq] at herred'
        subst herred'
        refine ⟨hw.before, by rw [hempty]; exact haccount, hw.short, hlast', ?_⟩
        rintro r hr
        obtain rfl := Option.some.inj hr
        refine ⟨⟨call, hcall, hgives, herror⟩, ?_⟩
        rw [AtSystem.inflight, herred, AtTask.replies, List.singleton_append, List.map_cons]
          at hlast
        rcases hlast.1 ((hears_of_some hcall).trans hgives) with hnil | ⟨hmore, hok, -⟩
        · exact .inl (List.map_eq_nil_iff.mp hnil)
        · exact .inr ⟨hmore, hok⟩
    | drop hidle _ _ => exact absurd (herred.symm.trans hidle) (by simp)
    | find hidle _ _ => exact absurd (herred.symm.trans hidle) (by simp)
    | code hfound _ => exact absurd (herred.symm.trans hfound) (by simp)
    | setError hcoded => exact absurd (herred.symm.trans hcoded) (by simp)
    | prompt hfound => exact absurd (herred.symm.trans hfound) (by simp)
    | query hfound => exact absurd (herred.symm.trans hfound) (by simp)

/-- The modem task keeps what a command without backlog relies on. -/
theorem Own.task_move (hown : Own s h) (hmove : TaskMove s s') : Own s' h := by
  refine ⟨hmove.task_own hown.task, ?_, fun r hr => hown.numbers r (hmove.mem_inflight hr)⟩
  have hplace := hown.place
  rw [OwnAt] at hplace ⊢
  split at hplace
  · exact absurd hplace hmove.inflight_ne_nil
  · exact absurd hplace hmove.inflight_ne_nil
  · exact absurd hplace hmove.inflight_ne_nil
  · exact absurd hplace hmove.inflight_ne_nil
  · exact absurd hplace hmove.inflight_ne_nil
  · exact absurd hplace.1 hmove.inflight_ne_nil
  · exact hplace.task hown.task hmove
  · obtain ⟨hsem, hw⟩ := hplace
    obtain ⟨hout, hsem'⟩ := hmove.quiet hw.outstanding_nil
    exact ⟨hsem'.trans hsem, hw.keep hmove (hout.trans hw.outstanding_nil.symm)⟩
  · exact (hmove.quiet hplace).1
  · obtain ⟨hout, hsem, hbefore⟩ := hplace
    exact ⟨(hmove.quiet hout).1, (hmove.quiet hout).2.trans hsem, hbefore⟩
  · obtain ⟨hout, hsem, hbefore⟩ := hplace
    exact ⟨(hmove.quiet hout).1, (hmove.quiet hout).2.trans hsem, hbefore⟩
  · obtain ⟨hout, hsem, hbefore⟩ := hplace
    exact ⟨(hmove.quiet hout).1, (hmove.quiet hout).2.trans hsem, hbefore⟩
  · exact hplace.task hown.task hmove
  · obtain ⟨hsem, hw⟩ := hplace
    obtain ⟨hout, hsem'⟩ := hmove.quiet hw.outstanding_nil
    exact ⟨hsem'.trans hsem, hw.keep hmove (hout.trans hw.outstanding_nil.symm)⟩

/-! ### Moves of the command itself -/

theorem own_of_empty (hempty : s.inflight = []) (hplace : OwnAt s h) : Own s h :=
  ⟨taskOwn_of_idle (task_eq_idle hempty), hplace,
    fun _ hr => absurd (hempty ▸ hr) List.not_mem_nil⟩

theorem Placed.id_le_sent (hplaced : Placed s h) : h.id ≤ s.sent := by
  have hsent := hplaced.sent
  split at hsent
  · exact hsent.ge
  · exact hsent.ge
  · exact hsent.ge
  · exact hsent.ge
  · exact hsent.1.le

/-- What is sent is answered at most once behind what is not heard. -/
theorem waiting_transmitted (htask : TaskOwn s) (hbefore : h.before = [])
    (hsem : s.semResponse = none) (hout : s.outstanding = []) {script : List AtAnswer}
    (hscript : AnsweredLast s.handlers more script) (pc : AtPc) :
    Waiting (s.transmitted h script pc) { h with
      pc := pc
      added := (s.answered script).filter fun r => hears s.handlers r.answer } more
      (s.transmitted h script pc).semResponse where
  before := hbefore
  account := by
    rw [outstanding_transmitted, hout]
    change s.semResponse.toList ++ _ = _
    rw [hsem]
    rfl
  short := by
    have hlen := hscript.length_filter_le
    have hmap : (s.answered script).map AtReply.answer = script := by
      rw [answered, List.map_map]
      exact List.map_id script
    have hfilter : (script.filter (hears s.handlers)).length =
        ((s.answered script).filter fun r => hears s.handlers r.answer).length := by
      rw [← hmap, List.filter_map, List.length_map, hmap]
      rfl
    exact hfilter ▸ hlen
  last := by
    have hmap : (s.answered script).map AtReply.answer = script := by
      rw [answered, List.map_map]
      exact List.map_id script
    rw [inflight_transmitted, List.map_append, hmap]
    exact AnsweredLast.behind (quiet_of_outstanding htask hout) hscript
  rest _ hr := absurd (hsem.symm.trans hr) (Option.some_ne_none _).symm

theorem Own.numbers_transmitted (hown : Own s h) (hplaced : Placed s h)
    (script : List AtAnswer) (pc : AtPc) :
    ∀ r ∈ (s.transmitted h script pc).inflight, h.id ≤ r.number := by
  rw [inflight_transmitted]
  intro r hr
  rcases List.mem_append.mp hr with hold | hnew
  · exact hown.numbers r hold
  · exact hplaced.id_le_sent.trans (number_of_answered hnew).ge

/-- A command without backlog goes on, or ends and leaves none. -/
theorem Own.holder_move (hown : Own s h) (hplaced : Placed s h)
    (hheld : s.holder = some h) (hmove : HolderMove s h a s') (hanswered : WellAnswered s a)
    (hexpire : a ≠ .expire) :
    (∃ h', s'.holder = some h' ∧ h'.id = h.id ∧ h'.backlog = h.backlog ∧ Own s' h') ∨
      s'.holder = none ∧ s'.inflight = [] := by
  have hplace := hown.place
  rw [OwnAt] at hplace
  cases hmove with
  | install hpc =>
      rw [hpc] at hplace
      exact .inl ⟨_, rfl, rfl, rfl, own_of_empty hplace hplace⟩
  | clear hpc =>
      rw [hpc] at hplace
      exact .inl ⟨_, rfl, rfl, rfl, own_of_empty hplace hplace⟩
  | reset hpc hwaits =>
      rw [hpc] at hplace
      exact .inl ⟨_, rfl, rfl, rfl,
        own_of_empty hplace ⟨hplace, fun _ => ⟨rfl, outstanding_eq_nil hplace⟩⟩⟩
  | skip hpc hwaits =>
      rw [hpc] at hplace
      refine .inl ⟨_, rfl, rfl, rfl, own_of_empty hplace ⟨hplace, fun htrue => ?_⟩⟩
      exact absurd (hwaits.symm.trans htrue) Bool.false_ne_true
  | command script hpc hwaits =>
      rw [hpc] at hplace
      obtain ⟨hempty, hready⟩ := hplace
      obtain ⟨hsem, hbefore⟩ := hready hwaits
      have hscript := hanswered h hheld
      have hno : ¬ (h.pc = .ready ∧ h.request.waits = false) := fun hno =>
        absurd (hno.2.symm.trans hwaits) Bool.false_ne_true
      rw [AtHolder.WellAnswered, if_neg hno, hpc] at hscript
      exact .inl ⟨_, rfl, rfl, rfl, hown.task,
        waiting_transmitted hown.task hbefore hsem (outstanding_eq_nil hempty) hscript _,
        hown.numbers_transmitted hplaced script _⟩
  | announce script hpc hwaits =>
      rw [hpc] at hplace
      have hscript := hanswered h hheld
      rw [AtHolder.WellAnswered, if_pos ⟨hpc, hwaits⟩] at hscript
      refine .inl ⟨_, rfl, rfl, rfl, hown.task, ?_, hown.numbers_transmitted hplaced script _⟩
      rw [OwnAt]
      dsimp only
      rw [outstanding_transmitted, outstanding_eq_nil hplace.1, List.nil_append]
      refine List.filter_eq_nil_iff.mpr fun r hr => ?_
      obtain ⟨answer, hanswer, rfl⟩ := List.mem_map.mp hr
      exact Bool.eq_false_iff.mp (hscript answer hanswer)
  | take hpc hsem =>
      rw [hpc, hsem] at hplace
      exact .inl ⟨_, rfl, rfl, rfl, hown.task,
        ⟨rfl, hplace.before, hplace.account, hplace.short, hplace.last, hplace.rest⟩,
        hown.numbers⟩
  | @read reply hpc =>
      rw [hpc] at hplace
      obtain ⟨hsem, hw⟩ := hplace
      refine .inl ⟨_, rfl, rfl, rfl, hown.task, ?_, hown.numbers⟩
      by_cases hgoes : h.request.sendsData = true ∧ 0 ≤ s.lastError
      · simp only [OwnAt, AtRequest.behindWait, if_pos hgoes]
        exact hw.outstanding_nil
      · simp only [OwnAt, AtRequest.behindWait, if_neg hgoes]
        obtain ⟨⟨call, hcall, -, herror⟩, hrest⟩ := hw.rest reply rfl
        refine hrest.resolve_right fun hmore => hgoes ⟨hmore.1, ?_⟩
        obtain rfl := Option.some.inj (hcall.symm.trans hmore.2)
        exact herror.ge
  | resetAgain hpc =>
      rw [hpc] at hplace
      exact .inl ⟨_, rfl, rfl, rfl, hown.task, ⟨hplace, rfl, hplace⟩, hown.numbers⟩
  | setLen hpc =>
      rw [hpc] at hplace
      exact .inl ⟨_, rfl, rfl, rfl, taskOwn_of_quiet hown.task hplace.1 rfl rfl, hplace,
        hown.numbers⟩
  | prompt hpc hready =>
      rw [hpc] at hplace
      exact .inl ⟨_, rfl, rfl, rfl, hown.task, hplace, hown.numbers⟩
  | data script hpc =>
      rw [hpc] at hplace
      obtain ⟨hout, hsem, hbefore⟩ := hplace
      have hscript := hanswered h hheld
      have hno : ¬ (h.pc = .ready ∧ h.request.waits = false) := fun hno =>
        AtPc.noConfusion (hpc.symm.trans hno.1)
      rw [AtHolder.WellAnswered, if_neg hno, hpc] at hscript
      exact .inl ⟨_, rfl, rfl, rfl, hown.task,
        waiting_transmitted hown.task hbefore hsem hout hscript _,
        hown.numbers_transmitted hplaced script _⟩
  | takeData hpc hsem =>
      rw [hpc, hsem] at hplace
      exact .inl ⟨_, rfl, rfl, rfl, hown.task,
        ⟨rfl, hplace.before, hplace.account, hplace.short, hplace.last, hplace.rest⟩,
        hown.numbers⟩
  | @readData reply hpc =>
      rw [hpc] at hplace
      refine .inl ⟨_, rfl, rfl, rfl, hown.task, ?_, hown.numbers⟩
      exact (hplace.2.rest reply rfl).2.resolve_right fun hmore =>
        Bool.false_ne_true hmore.1
  | unset hpc =>
      rw [hpc] at hplace
      exact .inl ⟨_, rfl, rfl, rfl, own_of_empty hplace hplace⟩
  | unlock hpc =>
      rw [hpc] at hplace
      exact .inr ⟨rfl, hplace⟩
  | expire hpc => exact absurd rfl hexpire

end Own

/-! ## Runs -/

/-- The command timed out, or began with a backlog. -/
def Excused (s : AtSystem) (id : ℕ) : Prop :=
  (∃ w ∈ s.waits, w.id = id ∧ w.outcome = none) ∨
    ∃ h ∈ s.begun, h.id = id ∧ h.backlog ≠ []

/-- `on_cmd_query` ran on a line for the command that is waiting, and on its buffer. -/
def AtWrite.Own (w : AtWrite) : Prop :=
  w.reply.number = w.owner ∧ w.buffer = some w.owner ∧ w.live = true

/-- The invariant of runs in which the modem answers at most once. -/
structure Sessions (s : AtSystem) : Prop where
  paired : Paired s
  placed : ∀ h, s.holder = some h → Placed s h
  free : s.holder = none → s.handlers.cmds = []
  begun : ∀ h, s.holder = some h → ∃ b ∈ s.begun, b.id = h.id ∧ b.backlog = h.backlog
  own : ∀ h, s.holder = some h → Own s h ∨ Excused s h.id
  found : ∀ reply owner argv, s.task = .found reply (.query owner argv) →
    (∃ h, s.holder = some h ∧ h.id = owner) ∨ Excused s owner
  writes : ∀ w ∈ s.writes, w.Own ∨ Excused s w.owner

section Runs

variable {s s' : AtSystem} {h : AtHolder} {a : AtAction} {handlers : AtHandlers}
  {reply : AtReply} {owner : ℕ} {argv : List Bytes} {answer : AtAnswer}

/-- A data line is found in the handlers of a command only. -/
theorem query_of_atCall (hcall : atCall handlers answer = some (.query owner argv)) :
    owner = handlers.owner ∧ ∃ cmd ∈ handlers.cmds, cmd.direct = false ∧
      cmd ≠ modemCmd "Recv " 1 " " := by
  cases answer with
  | prompt =>
      rw [atCall] at hcall
      split at hcall
      · cases hcall
      · cases hcall
  | line text =>
      simp only [atCall] at hcall
      split at hcall
      next cmd argv' hline =>
          simp only [atFunction] at hcall
          split at hcall
          · cases hcall
          split at hcall
          · cases hcall
          split at hcall
          · cases hcall
          next hrecv =>
              split at hcall
              next hmem =>
                  cases hcall
                  exact ⟨rfl, cmd, hmem.1, hmem.2, hrecv⟩
              · cases hcall
      · cases hcall

theorem Placed.query (hplaced : Placed s h)
    (hcall : atCall s.handlers answer = some (.query owner argv)) :
    owner = h.id ∧ ∃ resp, h.request = .query resp := by
  obtain ⟨rfl, cmd, hmem, hdirect, hrecv⟩ := query_of_atCall hcall
  have hcmds := hplaced.cmds
  have hhandlers : s.handlers = ⟨h.id, h.request.cmds⟩ := by
    split at hcmds
    · rw [hcmds] at hmem
      cases hmem
    · rw [hcmds] at hmem
      cases hmem
    · exact hcmds
  refine ⟨congrArg AtHandlers.owner hhandlers, ?_⟩
  rw [hhandlers] at hmem
  cases hrequest : h.request with
  | execute =>
      rw [hrequest] at hmem
      cases hmem
  | query resp => exact ⟨resp, rfl⟩
  | sendData len checkResp =>
      rw [hrequest] at hmem
      simp only [AtRequest.cmds, sendDataCmds, List.mem_cons, List.not_mem_nil, or_false]
        at hmem
      rcases hmem with rfl | rfl
      · cases hdirect
      · exact absurd rfl hrecv

theorem Excused.mono {id : ℕ} (h : Excused s id) (hwaits : s.waits ⊆ s'.waits)
    (hbegun : s.begun ⊆ s'.begun) : Excused s' id := by
  rcases h with ⟨w, hw, hid, hnone⟩ | ⟨b, hb, hid, hbacklog⟩
  · exact .inl ⟨w, hwaits hw, hid, hnone⟩
  · exact .inr ⟨b, hbegun hb, hid, hbacklog⟩

theorem HolderMove.grows (hmove : HolderMove s h a s') :
    s.waits ⊆ s'.waits ∧ s'.begun = s.begun ∧ s'.task = s.task ∧ s'.writes = s.writes := by
  cases hmove with
  | read hpc => exact ⟨List.subset_append_left _ _, rfl, rfl, rfl⟩
  | readData hpc => exact ⟨List.subset_append_left _ _, rfl, rfl, rfl⟩
  | expire hpc => exact ⟨List.subset_append_left _ _, rfl, rfl, rfl⟩
  | _ => exact ⟨List.Subset.refl _, rfl, rfl, rfl⟩

theorem HolderMove.same (hmove : HolderMove s h a s') {h' : AtHolder}
    (hheld : s'.holder = some h') : h'.id = h.id ∧ h'.backlog = h.backlog := by
  cases hmove with
  | unlock hpc => cases hheld
  | _ => cases hheld; exact ⟨rfl, rfl⟩

/-- Only the end of a command frees the lock. -/
theorem HolderMove.freed (hmove : HolderMove s h a s') (hplaced : Placed s h)
    (hheld : s'.holder = none) : s'.handlers.cmds = [] := by
  cases hmove with
  | unlock hpc =>
      have hcmds := hplaced.cmds
      rwa [hpc] at hcmds
  | _ => cases hheld

theorem AtMove.excused (hmove : AtMove s a s') {id : ℕ} (h : Excused s id) :
    Excused s' id := by
  have hgrows : s.waits ⊆ s'.waits ∧ s.begun ⊆ s'.begun := by
    cases hmove with
    | begin request hfree => exact ⟨List.Subset.refl _, List.subset_append_left _ _⟩
    | holder hheld hmove =>
        obtain ⟨hwaits, hbegun, -⟩ := hmove.grows
        exact ⟨hwaits, hbegun ▸ List.Subset.refl _⟩
    | task hmove => cases hmove <;> exact ⟨List.Subset.refl _, List.Subset.refl _⟩
  rcases h with ⟨w, hw, hid, hnone⟩ | ⟨b, hb, hid, hbacklog⟩
  · exact .inl ⟨w, hgrows.1 hw, hid, hnone⟩
  · exact .inr ⟨b, hgrows.2 hb, hid, hbacklog⟩

theorem Sessions.begin_step (hs : Sessions s) {request : AtRequest}
    (hmove : AtMove s (.begin request) s') : Sessions s' := by
  have hpaired := hs.paired.step hmove
  have hexcused : ∀ {id : ℕ}, Excused s id → Excused s' id := fun h => hmove.excused h
  cases hmove with
  | holder hheld hmove => cases hmove
  | begin request hfree =>
      refine ⟨hpaired, ?_, fun hnone => absurd hnone (Option.some_ne_none _), ?_, ?_, ?_, ?_⟩
      · intro h hheld
        cases hheld
        refine ⟨hs.free hfree, rfl, trivial, fun resp hrequest => ?_⟩
        dsimp only at hrequest ⊢
        rw [hrequest]
      · intro h hheld
        cases hheld
        exact ⟨_, List.mem_append_right _ (List.mem_singleton_self _), rfl, rfl⟩
      · intro h hheld
        cases hheld
        by_cases hempty : s.inflight = []
        · exact .inl (own_of_empty hempty hempty)
        · exact .inr (.inr
            ⟨_, List.mem_append_right _ (List.mem_singleton_self _), rfl, hempty⟩)
      · intro reply owner argv htask
        rcases hs.found reply owner argv htask with ⟨h, hheld, -⟩ | h
        · exact absurd (hheld.symm.trans hfree) (Option.some_ne_none _)
        · exact .inr (hexcused h)
      · exact fun w hw => (hs.writes w hw).imp_right hexcused

theorem Sessions.holder_step (hs : Sessions s) (hheld : s.holder = some h)
    (hmove : HolderMove s h a s') (hanswered : WellAnswered s a) : Sessions s' := by
  have hstep := AtMove.holder hheld hmove
  obtain ⟨hwaits, hbegun, htask, hwrites⟩ := hmove.grows
  have hplaced := hs.placed h hheld
  have hown : Excused s' h.id ∨
      (∃ h', s'.holder = some h' ∧ h'.id = h.id ∧ h'.backlog = h.backlog ∧ Own s' h') ∨
        s'.holder = none ∧ s'.inflight = [] := by
    rcases hs.own h hheld with hown | hexcused
    · by_cases hexpire : a = .expire
      · subst hexpire
        cases hmove with
        | expire hpc =>
            exact .inl (.inl ⟨_, List.mem_append_right _ (List.mem_singleton_self _), rfl, rfl⟩)
      · exact .inr (hown.holder_move hplaced hheld hmove hanswered hexpire)
    · exact .inl (hstep.excused hexcused)
  refine ⟨hs.paired.step hstep, fun h' hheld' => hplaced.holder hmove hheld',
    hmove.freed hplaced, ?_, ?_, ?_, ?_⟩
  · intro h' hheld'
    obtain ⟨b, hb, hid, hbacklog⟩ := hs.begun h hheld
    obtain ⟨hid', hbacklog'⟩ := hmove.same hheld'
    exact ⟨b, hbegun ▸ hb, hid.trans hid'.symm, hbacklog.trans hbacklog'.symm⟩
  · intro h' hheld'
    rcases hown with hexcused | ⟨h'', hheld'', -, -, hown⟩ | ⟨hnone, -⟩
    · exact .inr ((hmove.same hheld').1 ▸ hexcused)
    · obtain rfl := Option.some.inj (hheld''.symm.trans hheld')
      exact .inl hown
    · exact absurd (hheld'.symm.trans hnone) (Option.some_ne_none _)
  · intro reply owner argv hfound
    rw [htask] at hfound
    rcases hs.found reply owner argv hfound with ⟨h₁, hheld₁, hid⟩ | hexcused
    · obtain rfl := Option.some.inj (hheld.symm.trans hheld₁)
      rcases hown with hexcused | ⟨h', hheld', hid', -⟩ | ⟨-, hempty⟩
      · exact .inr (hid ▸ hexcused)
      · exact .inl ⟨h', hheld', hid'.trans hid⟩
      · -- The command cannot end while its line is in hand.
        have hidle := task_eq_idle hempty
        rw [htask, hfound] at hidle
        cases hidle
    · exact .inr (hstep.excused hexcused)
  · rw [hwrites]
    exact fun w hw => (hs.writes w hw).imp_right hstep.excused

theorem Sessions.task_step (hs : Sessions s) (hmove : TaskMove s s') : Sessions s' := by
  have hstep := AtMove.task hmove
  have hpaired := hs.paired.step hstep
  have hholder : s'.holder = s.holder := by cases hmove <;> rfl
  have hbegun : s'.begun = s.begun := by cases hmove <;> rfl
  refine ⟨hpaired, ?_, ?_, ?_, ?_, ?_, ?_⟩
  · intro h hheld
    exact (hs.placed h (hholder ▸ hheld)).task hmove
  · rw [hholder, hmove.handlers]
    exact hs.free
  · rw [hholder, hbegun]
    exact hs.begun
  · intro h hheld
    exact (hs.own h (hholder ▸ hheld)).imp (fun hown => hown.task_move hmove) hstep.excused
  · intro reply owner argv hfound
    cases hmove with
    | @find r replies call htask hreplies hcall =>
        obtain ⟨rfl, rfl⟩ := AtTask.found.inj hfound
        cases hheld : s.holder with
        | none =>
            obtain ⟨-, cmd, hmem, -⟩ := query_of_atCall hcall
            rw [hs.free hheld] at hmem
            cases hmem
        | some h =>
            exact .inl ⟨h, rfl, ((hs.placed h hheld).query hcall).1.symm⟩
    | drop htask hreplies hcall => exact absurd (htask.symm.trans hfound) (by simp)
    | _ => cases hfound
  · intro w hw
    cases hmove with
    | @query reply owner argv htask =>
        rcases List.mem_append.mp hw with hold | hnew
        · exact (hs.writes w hold).imp_right hstep.excused
        · obtain rfl := List.mem_singleton.mp hnew
          rcases hs.found reply owner argv htask with ⟨h, hheld, rfl⟩ | hexcused
          · refine (hs.own h hheld).imp (fun hown => ?_) hstep.excused
            have hplaced := hs.placed h hheld
            have hcall := hown.task
            rw [TaskOwn, htask] at hcall
            obtain ⟨-, resp, hrequest⟩ := hplaced.query hcall
            have hinflight : reply ∈ s.inflight := by simp [inflight, htask, AtTask.replies]
            have hge := hown.numbers reply hinflight
            have hlt := hs.paired.numbers reply hinflight
            have hsent : s.sent ≤ h.id + 1 := by
              have hsent := hplaced.sent
              split at hsent
              · omega
              · omega
              · omega
              · omega
              · exact (hsent.2 (by rw [hrequest]; rfl)).le
            have hrx := hplaced.rxData resp hrequest
            refine ⟨by dsimp only; omega, hrx, ?_⟩
            dsimp only
            rw [hheld, hrx]
            simp
          · exact .inr (hstep.excused hexcused)
    | _ => exact (hs.writes w hw).imp_right hstep.excused

theorem sessions_of_reachable (h : atMachine.ReachableVia WellAnswered s) : Sessions s := by
  have hinit : ∀ s, atMachine.init s → Sessions s := by
    rintro s rfl
    refine ⟨paired_of_reachable (.init rfl), ?_, fun _ => rfl, ?_, ?_, ?_, ?_⟩
    · exact fun h hheld => by cases hheld
    · exact fun h hheld => by cases hheld
    · exact fun h hheld => by cases hheld
    · exact fun reply owner argv htask => by cases htask
    · exact fun w hw => by cases hw
  refine Machine.ReachableVia.invariant hinit (fun s a s' hs hanswered hstep => ?_) h
  have hmove := atMove_of_step hstep
  cases hmove with
  | begin request hfree => exact hs.begin_step (.begin request hfree)
  | holder hheld hmove => exact hs.holder_step hheld hmove hanswered
  | task hmove => exact hs.task_step hmove

/-- As long as the modem answers each transmission at most once, `on_cmd_query` copies to
the buffer of a command in progress, and only lines that answer this command, unless
the command timed out or found a backlog when it took the lock. -/
theorem data_reaches_its_command (h : atMachine.ReachableVia WellAnswered s) {w : AtWrite}
    (hw : w ∈ s.writes) :
    (w.reply.number = w.owner ∧ w.buffer = some w.owner ∧ w.live = true) ∨
      (∃ t ∈ s.waits, t.id = w.owner ∧ t.outcome = none) ∨
      ∃ b ∈ s.begun, b.id = w.owner ∧ b.backlog ≠ [] :=
  (sessions_of_reachable h).writes w hw

/-- A query times out while its line is in hand, and the line is copied to a buffer of a
command that has returned. -/
theorem data_reaches_its_command_late :
    ∃ s, atMachine.ReachableVia WellAnswered s ∧
      s.writes = [⟨⟨0, .line (ascii "+CWSTATE:1")⟩, 0, some 0, false⟩] ∧
      ∀ w ∈ s.writes,
        (w.reply.number = w.owner ∧ w.buffer = some w.owner ∧ w.live = true) ∨
        (∃ t ∈ s.waits, t.id = w.owner ∧ t.outcome = none) ∨
        ∃ b ∈ s.begun, b.id = w.owner ∧ b.backlog ≠ [] := by
  let actions : List AtAction := [.begin (.query (ascii "+CWSTATE:")), .go, .go, .go,
    .transmit [.line (ascii "+CWSTATE:1"), .line (ascii "OK")], .task, .expire, .go, .go,
    .task]
  have hmeets : atMachine.Meets WellAnswered .initial actions := by decide +kernel
  have hrun : (atMachine.run .initial actions).map AtSystem.writes =
      some [⟨⟨0, .line (ascii "+CWSTATE:1")⟩, 0, some 0, false⟩] := by decide +kernel
  obtain ⟨s, hs, hwrites⟩ := Option.map_eq_some_iff.mp hrun
  have hreach : atMachine.ReachableVia WellAnswered s :=
    Machine.ReachableVia.run (.init rfl) actions hmeets hs
  exact ⟨s, hreach, hwrites, fun w hw => data_reaches_its_command hreach hw⟩

/-! ### Runs without timeouts -/

/-- The wait took the one answer to its transmission, and read the error of that. -/
def AtWait.Own (w : AtWait) : Prop :=
  w.before = [] ∧ ∃ reply call, w.added = [reply] ∧ reply.number = w.transmission ∧
    atCall w.handlers reply.answer = some call ∧
    w.outcome = some (reply, call.code w.rxDataLen)

/-- The modem answers at most once, and no wait times out. -/
def InTime (s : AtSystem) (a : AtAction) : Prop := WellAnswered s a ∧ a ≠ .expire

instance (s : AtSystem) (a : AtAction) : Decidable (InTime s a) :=
  inferInstanceAs (Decidable (WellAnswered s a ∧ a ≠ .expire))

/-- No command leaves anything behind. -/
structure InStep (s : AtSystem) : Prop where
  free : s.holder = none → s.inflight = []
  own : ∀ h, s.holder = some h → Own s h
  begun : ∀ b ∈ s.begun, b.backlog = []
  waits : ∀ w ∈ s.waits, w.Own

theorem Waiting.wait_own (hw : Waiting s h more (some reply)) (hnumbered : Numbered s h) :
    AtWait.Own ⟨h.id, s.sent - 1, s.handlers, s.rxDataLen, h.before, h.added,
      some (reply, s.lastError)⟩ := by
  have hadded : h.added = [reply] := by
    rw [← hw.account, hw.outstanding_nil]
    rfl
  obtain ⟨⟨call, hcall, -, herror⟩, -⟩ := hw.rest reply rfl
  refine ⟨hw.before, reply, call, hadded, ?_, hcall, by rw [herror]⟩
  exact hnumbered.added reply (hadded ▸ List.mem_singleton_self reply)

theorem HolderMove.waits_own (hmove : HolderMove s h a s') (hown : Own s h)
    (hexpected : Expected s h) (hwaits : ∀ w ∈ s.waits, w.Own) (hexpire : a ≠ .expire) :
    ∀ w ∈ s'.waits, w.Own := by
  have hend : ∀ w : AtWait, w.Own → ∀ w' ∈ s.waits ++ [w], w'.Own := by
    intro w hw w' hw'
    rcases List.mem_append.mp hw' with hold | hnew
    · exact hwaits w' hold
    · exact (List.mem_singleton.mp hnew) ▸ hw
  have hplace := hown.place
  rw [OwnAt] at hplace
  rw [Expected] at hexpected
  cases hmove with
  | read hpc =>
      rw [hpc] at hplace hexpected
      exact hend _ (hplace.2.wait_own hexpected.1)
  | readData hpc =>
      rw [hpc] at hplace hexpected
      exact hend _ (hplace.2.wait_own hexpected.1)
  | expire hpc => exact absurd rfl hexpire
  | _ => exact hwaits

theorem InStep.step (hs : InStep s) (hsessions : Sessions s) (hintime : InTime s a)
    (hmove : AtMove s a s') : InStep s' := by
  cases hmove with
  | begin request hfree =>
      have hempty := hs.free hfree
      refine ⟨fun hnone => absurd hnone (Option.some_ne_none _), ?_, ?_, hs.waits⟩
      · intro h hheld
        cases hheld
        exact own_of_empty hempty hempty
      · intro b hb
        rcases List.mem_append.mp hb with hold | hnew
        · exact hs.begun b hold
        · obtain rfl := List.mem_singleton.mp hnew
          exact hempty
  | @holder h _ _ hheld hmove =>
      have hown := hs.own h hheld
      have hnext := hown.holder_move (hsessions.placed h hheld) hheld hmove hintime.1 hintime.2
      obtain ⟨-, hbegun, -⟩ := hmove.grows
      refine ⟨fun hnone => ?_, fun h' hheld' => ?_, hbegun ▸ hs.begun, ?_⟩
      · rcases hnext with ⟨h', hheld', -⟩ | ⟨-, hempty⟩
        · exact absurd (hheld'.symm.trans hnone) (Option.some_ne_none _)
        · exact hempty
      · rcases hnext with ⟨h'', hheld'', -, -, hown'⟩ | ⟨hnone, -⟩
        · obtain rfl := Option.some.inj (hheld''.symm.trans hheld')
          exact hown'
        · exact absurd (hheld'.symm.trans hnone) (Option.some_ne_none _)
      · exact hmove.waits_own hown (hsessions.paired.expected h hheld) hs.waits hintime.2
  | task hmove =>
      have hholder : s'.holder = s.holder := by cases hmove <;> rfl
      have hbegun : s'.begun = s.begun := by cases hmove <;> rfl
      have hwaits : s'.waits = s.waits := by cases hmove <;> rfl
      refine ⟨fun hnone => ?_, fun h hheld => ?_, hbegun ▸ hs.begun, hwaits ▸ hs.waits⟩
      · exact absurd (hs.free (hholder ▸ hnone)) hmove.inflight_ne_nil
      · exact (hs.own h (hholder ▸ hheld)).task_move hmove

end Runs

end RtpMulticast
