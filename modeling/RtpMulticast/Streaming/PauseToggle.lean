import RtpMulticast.Streaming.StreamTask

/-!
# Pause and resume requests

`APP_RTP_Stream_TogglePause` leaves its request in one of two flags, and the
camera task polls the pause flag before the resume flag.  Two requests that are
pending together are therefore applied in the order of the poll, whatever the
order of the calls.

The outcome of a state is the value that `_camera_stream_paused` will have when
the camera task has applied everything pending.  No step of the camera task
changes it, and a call of the toggle function sets it to what was asked for
exactly when its request is not followed by an older one.
-/

namespace RtpMulticast

/-! ## The outcome of the pending requests -/

/-- The last request that a poll meets decides. -/
def pollOutcome (resumeFirst pause resume current : Bool) : Bool :=
  if resumeFirst then pause || (!resume && current)
  else !resume && (pause || current)

namespace CameraPc

/-- The poll meets the resume flag before the pause flag. -/
def resumeFirst : CameraPc → Bool
  | .check _ .testResume | .check _ .clearResume => true
  | .check .loopTop .stopRequests | .check .loopTop .markPaused => true
  | .check .frameReady .stopRequests | .check .frameReady .markPaused => true
  | _ => false

/-- The camera task has cleared a request flag and not yet written
`_camera_stream_paused`. -/
def applying : CameraPc → Bool
  | .check _ .stopRequests | .check _ .markPaused => true
  | .check _ .forceIntra | .check _ .markRunning => true
  | _ => false

/-- `_camera_stream_paused` behind the request being applied. -/
def applied (paused : Bool) : CameraPc → Bool
  | .check _ .stopRequests | .check _ .markPaused => true
  | .check _ .forceIntra | .check _ .markRunning => false
  | _ => paused

end CameraPc

/-- `_camera_stream_paused` once the camera task has applied all requests. -/
def requestOutcome (m : StreamMemory) (pc : CameraPc) : Bool :=
  pollOutcome pc.resumeFirst m.pauseRequest m.resumeRequest
    (pc.applied m.cameraStreamPaused)

/-- The flag that a poll has seen stays up until the camera task clears it. -/
def SeenFlag (m : StreamMemory) : CameraPc → Prop
  | .check _ .clearPause => m.pauseRequest = true
  | .check _ .clearResume => m.resumeRequest = true
  | _ => True

/-! ## The camera task -/

/-- The two request flags and the pause flag of the camera. -/
structure SameRequests (m m' : StreamMemory) : Prop where
  pause : m'.pauseRequest = m.pauseRequest
  resume : m'.resumeRequest = m.resumeRequest
  paused : m'.cameraStreamPaused = m.cameraStreamPaused

/-- Nothing was seen or cleared, and the next poll starts with the pause
flag. -/
structure CameraPc.BetweenPolls (pc : CameraPc) : Prop where
  resumeFirst : pc.resumeFirst = false
  applied : ∀ paused, pc.applied paused = paused
  seen : ∀ m, SeenFlag m pc

section Camera

variable {fps : UInt32} {m : StreamMemory} {produced : ℕ} {a : StreamAction}
  {pc : CameraPc} {r : StreamMemory × CameraPc}

theorem CameraPc.betweenPolls (hcheck : ∀ point stage, pc ≠ .check point stage) :
    pc.BetweenPolls := by
  cases pc with
  | check point stage => exact absurd rfl (hcheck point stage)
  | _ => exact ⟨rfl, fun _ => rfl, fun _ => trivial⟩

theorem testPause_betweenPolls (point : CheckPoint) :
    (CameraPc.check point .testPause).BetweenPolls :=
  ⟨rfl, fun _ => rfl, fun _ => trivial⟩

theorem afterResume_betweenPolls (point : CheckPoint) :
    point.afterResume.BetweenPolls := by
  apply CameraPc.betweenPolls
  intro point' stage
  cases point <;> rintro ⟨⟩

theorem CameraPc.BetweenPolls.outcome (h : pc.BetweenPolls) :
    requestOutcome m pc =
      pollOutcome false m.pauseRequest m.resumeRequest m.cameraStreamPaused := by
  rw [requestOutcome, h.resumeFirst, h.applied]

/-- Outside the polls the camera task leaves the requests alone. -/
theorem CameraMoves.sameRequests (h : CameraMoves fps m produced a pc r)
    (hcheck : ∀ point stage, pc ≠ .check point stage) :
    SameRequests m r.1 ∧ r.2.BetweenPolls := by
  have htop : CameraPc.top.BetweenPolls := testPause_betweenPolls .loopTop
  have hsame : SameRequests m m := ⟨rfl, rfl, rfl⟩
  cases h with
  | check point stage => exact absurd rfl (hcheck point stage)
  | waitFrame => exact ⟨hsame, testPause_betweenPolls _⟩
  | readRequest => exact ⟨hsame, testPause_betweenPolls _⟩
  | pausedCheck =>
      refine ⟨hsame, ?_⟩
      dsimp only
      split
      · exact htop
      · exact CameraPc.betweenPolls (by rintro _ _ ⟨⟩)
  | pausedAgain requested =>
      refine ⟨hsame, ?_⟩
      dsimp only
      split
      · exact htop
      · split
        · exact CameraPc.betweenPolls (by rintro _ _ ⟨⟩)
        · exact htop
  | process =>
      unfold processStep
      split
      · exact ⟨hsame, htop⟩
      · split
        · exact ⟨hsame, htop⟩
        · exact ⟨hsame, CameraPc.betweenPolls (by rintro _ _ ⟨⟩)⟩
      · split
        · exact ⟨hsame, htop⟩
        · exact ⟨⟨rfl, rfl, rfl⟩, CameraPc.betweenPolls (by rintro _ _ ⟨⟩)⟩
  | started address result tick =>
      cases result with
      | none => exact ⟨hsame, htop⟩
      | some size =>
          exact ⟨⟨rfl, rfl, rfl⟩, CameraPc.betweenPolls (by rintro _ _ ⟨⟩)⟩
  | encoded address intra number result tick =>
      cases result with
      | frameReady size =>
          simp only [encodedStep]
          split
          · exact ⟨⟨rfl, rfl, rfl⟩, htop⟩
          · exact ⟨hsame, CameraPc.betweenPolls (by rintro _ _ ⟨⟩)⟩
      | fuseError => exact ⟨⟨rfl, rfl, rfl⟩, htop⟩
      | otherError => exact ⟨⟨rfl, rfl, rfl⟩, htop⟩
  | queueing frame =>
      unfold queueStep
      split
      · exact ⟨⟨rfl, rfl, rfl⟩, CameraPc.betweenPolls (by rintro _ _ ⟨⟩)⟩
      · exact ⟨hsame, htop⟩
  | adding encSize content =>
      exact ⟨⟨rfl, rfl, rfl⟩, CameraPc.betweenPolls (by rintro _ _ ⟨⟩)⟩
  | loading content =>
      exact ⟨hsame, CameraPc.betweenPolls (by rintro _ _ ⟨⟩)⟩
  | storing offset content =>
      cases content with
      | header => exact ⟨⟨rfl, rfl, rfl⟩, htop⟩
      | picture intra number => exact ⟨⟨rfl, rfl, rfl⟩, htop⟩

/-- A poll applies requests; it does not change what comes out. -/
theorem checkStep_outcome (point : CheckPoint) (stage : CheckStage)
    (hseen : SeenFlag m (.check point stage)) :
    let r := checkStep m point stage
    SeenFlag r.1 r.2 ∧
      requestOutcome r.1 r.2 = requestOutcome m (.check point stage) := by
  have hafter := afterResume_betweenPolls point
  cases stage with
  | testPause =>
      by_cases hpause : m.pauseRequest = true
      · simp [checkStep, hpause, SeenFlag, requestOutcome,
          CameraPc.resumeFirst, CameraPc.applied]
      · simp [checkStep, hpause, SeenFlag, requestOutcome, pollOutcome,
          CameraPc.resumeFirst, CameraPc.applied]
  | clearPause =>
      have hpause : m.pauseRequest = true := hseen
      cases point <;>
        simp [checkStep, hpause, SeenFlag, requestOutcome, pollOutcome,
          CameraPc.resumeFirst, CameraPc.applied]
  | testResume =>
      by_cases hresume : m.resumeRequest = true
      · simp [checkStep, hresume, SeenFlag, requestOutcome,
          CameraPc.resumeFirst, CameraPc.applied]
      · have hgoto : checkStep m point .testResume = (m, point.afterResume) := by
          simp [checkStep, hresume]
        simp only [hgoto]
        refine ⟨hafter.seen m, ?_⟩
        rw [hafter.outcome]
        simp [requestOutcome, pollOutcome, hresume, CameraPc.resumeFirst,
          CameraPc.applied]
  | clearResume =>
      have hresume : m.resumeRequest = true := hseen
      simp [checkStep, hresume, SeenFlag, requestOutcome, pollOutcome,
        CameraPc.resumeFirst, CameraPc.applied]
  | setRequest => exact ⟨hafter.seen _, hafter.outcome⟩
  | markPaused => cases point <;> exact ⟨trivial, rfl⟩
  | stopRequests => cases point <;> exact ⟨trivial, rfl⟩
  | _ => exact ⟨trivial, rfl⟩

/-- No step of the camera task changes the outcome. -/
theorem CameraMoves.outcome (h : CameraMoves fps m produced a pc r)
    (hseen : SeenFlag m pc) :
    SeenFlag r.1 r.2 ∧ requestOutcome r.1 r.2 = requestOutcome m pc := by
  by_cases hcheck : ∃ point stage, pc = .check point stage
  · obtain ⟨point, stage, rfl⟩ := hcheck
    cases h
    exact checkStep_outcome point stage hseen
  · have hcheck : ∀ point stage, pc ≠ .check point stage :=
      fun point stage heq => hcheck ⟨point, stage, heq⟩
    obtain ⟨hsame, hbetween⟩ := h.sameRequests hcheck
    refine ⟨hbetween.seen _, ?_⟩
    rw [hbetween.outcome, (CameraPc.betweenPolls hcheck).outcome, hsame.pause,
      hsame.resume, hsame.paused]

end Camera

/-! ## The requests -/

namespace Streaming

/-- No call of the toggle function is in progress, and the camera task has
consumed and applied the requests. -/
structure Settled (s : Streaming) : Prop where
  toggle : s.toggle = .idle
  pause : s.mem.pauseRequest = false
  resume : s.mem.resumeRequest = false
  camera : s.camera.applying = false

theorem Settled.outcome {s : Streaming} (h : s.Settled) :
    requestOutcome s.mem s.camera = s.mem.cameraStreamPaused := by
  have happlied : s.camera.applied s.mem.cameraStreamPaused =
      s.mem.cameraStreamPaused := by
    have hcamera := h.camera
    revert hcamera
    unfold CameraPc.applying CameraPc.applied
    split <;> simp
  simp [requestOutcome, pollOutcome, h.pause, h.resume, happlied]

/-- The request that the next step of the toggle function sets is polled behind
the pending one of the other kind. -/
def RequestIsLast (s : Streaming) : Prop :=
  match s.toggle with
  | .idle =>
      s.mem.rtpStreamPaused = true → s.mem.pauseRequest = true →
        s.camera.resumeFirst = false
  | .pausing => s.mem.resumeRequest = true → s.camera.resumeFirst = true
  | .resuming => True

/-- Every request is polled behind the requests before it. -/
def RequestsInOrder (s : Streaming) : StreamAction → Prop
  | .toggle => s.RequestIsLast
  | _ => True

/-- The outcome is what the last finished call asked for, and a call in
progress asks for the opposite.  A call that resumes has left its request when
the pause flag of the stream is still up; a call that pauses has not. -/
def OutcomeWanted (s : Streaming) : Prop :=
  match s.toggle with
  | .idle => requestOutcome s.mem s.camera = s.mem.rtpStreamPaused
  | .pausing | .resuming =>
      requestOutcome s.mem s.camera = false ∧ s.mem.rtpStreamPaused = true

end Streaming

open Streaming

variable {fps : UInt32} {s s' : Streaming} {a : StreamAction}

/-- A call of the toggle function keeps to the order if and only if its request
is the last to be polled. -/
theorem toggleStep_outcomeWanted_iff (h : s.OutcomeWanted) :
    (toggleStep s).OutcomeWanted ↔ s.RequestIsLast := by
  cases htoggle : s.toggle with
  | idle =>
      simp only [OutcomeWanted, htoggle] at h
      cases hpaused : s.mem.rtpStreamPaused with
      | true =>
          -- The resume flag goes up behind a pause flag that may be up.
          simp [OutcomeWanted, RequestIsLast, toggleStep, htoggle, hpaused,
            requestOutcome, pollOutcome]
      | false =>
          rw [hpaused] at h
          have hlast : s.RequestIsLast := by
            simp [RequestIsLast, htoggle, hpaused]
          have hwanted : (toggleStep s).OutcomeWanted := by
            simp only [toggleStep, OutcomeWanted, htoggle, hpaused]
            exact ⟨h, rfl⟩
          exact iff_of_true hwanted hlast
  | pausing =>
      simp only [OutcomeWanted, htoggle] at h
      simp [OutcomeWanted, RequestIsLast, toggleStep, htoggle, h.2,
        requestOutcome, pollOutcome]
      cases s.camera.resumeFirst <;> simp
  | resuming =>
      simp only [OutcomeWanted, htoggle] at h
      have hlast : s.RequestIsLast := by
        simp [RequestIsLast, htoggle]
      have hwanted : (toggleStep s).OutcomeWanted := by
        simp only [toggleStep, OutcomeWanted, htoggle]
        exact h.1
      exact iff_of_true hwanted hlast

/-- The toggle function only raises request flags. -/
theorem toggleStep_seenFlag (h : SeenFlag s.mem s.camera) :
    SeenFlag (toggleStep s).mem (toggleStep s).camera := by
  have hcamera : (toggleStep s).camera = s.camera := by
    unfold toggleStep
    repeat' split
    all_goals rfl
  have hpause : s.mem.pauseRequest = true →
      (toggleStep s).mem.pauseRequest = true := by
    unfold toggleStep
    repeat' split
    all_goals simp
  have hresume : s.mem.resumeRequest = true →
      (toggleStep s).mem.resumeRequest = true := by
    unfold toggleStep
    repeat' split
    all_goals simp
  rw [hcamera]
  revert h
  unfold SeenFlag
  split
  · exact hpause
  · exact hresume
  · exact fun _ => trivial

theorem Streaming.OutcomeWanted.congr (h : s.OutcomeWanted)
    (houtcome : requestOutcome s'.mem s'.camera = requestOutcome s.mem s.camera)
    (hpaused : s'.mem.rtpStreamPaused = s.mem.rtpStreamPaused)
    (htoggle : s'.toggle = s.toggle) : s'.OutcomeWanted := by
  unfold OutcomeWanted
  rw [houtcome, hpaused, htoggle]
  exact h

/-- The stream task writes no request and no pause flag. -/
structure SamePause (s s' : Streaming) : Prop where
  requests : SameRequests s.mem s'.mem
  rtpPaused : s'.mem.rtpStreamPaused = s.mem.rtpStreamPaused
  camera : s'.camera = s.camera
  toggle : s'.toggle = s.toggle

theorem streamStep_samePause (now : UInt32) :
    SamePause s (streamStep fps s now) := by
  have hsame : ∀ t : Streaming, t.mem = s.mem → t.camera = s.camera →
      t.toggle = s.toggle → SamePause s t := by
    intro t hmem hcamera htoggle
    exact ⟨by rw [hmem]; exact ⟨rfl, rfl, rfl⟩, by rw [hmem], hcamera, htoggle⟩
  cases hpc : s.stream with
  | starting | flushFree | freeing | requestSet =>
      simp only [streamStep, hpc]
      exact ⟨⟨rfl, rfl, rfl⟩, rfl, rfl, rfl⟩
  | flushReset | resetting =>
      obtain ⟨offset, hoffset⟩ := resetOffset_eq s.mem
      simp only [streamStep, hpc, hoffset]
      exact ⟨⟨rfl, rfl, rfl⟩, rfl, rfl, rfl⟩
  | _ =>
      simp only [streamStep, hpc]
      repeat' split
      all_goals exact hsame _ rfl rfl rfl

/-- Only the toggle function changes the outcome and the pause flag of the
stream. -/
theorem streamingMachine_outcome (hseen : SeenFlag s.mem s.camera)
    (hstep : (streamingMachine fps).step s a = some s') (ha : a ≠ .toggle) :
    SeenFlag s'.mem s'.camera ∧
      requestOutcome s'.mem s'.camera = requestOutcome s.mem s.camera ∧
      s'.mem.rtpStreamPaused = s.mem.rtpStreamPaused ∧
      s'.toggle = s.toggle := by
  rcases streamingMachine_step_cases hstep with
    ⟨r, hmoves, rfl⟩ | ⟨now, -, rfl⟩ | ⟨rfl, -⟩
  · obtain ⟨hseen', houtcome⟩ := hmoves.outcome hseen
    exact ⟨hseen', houtcome, hmoves.rtpPaused, rfl⟩
  · obtain ⟨hsame, hpaused, hcamera, htoggle⟩ :=
      @streamStep_samePause fps s now
    refine ⟨?_, ?_, hpaused, htoggle⟩
    · rw [hcamera]
      revert hseen
      unfold SeenFlag
      rw [hsame.pause, hsame.resume]
      exact id
    · rw [hcamera, requestOutcome, hsame.pause, hsame.resume, hsame.paused]
      rfl
  · exact absurd rfl ha

/-- The camera task applies the requests with the outcome that the last call
asked for. -/
theorem streamingMachine_outcomeWanted
    (h : (streamingMachine fps).ReachableVia RequestsInOrder s) :
    SeenFlag s.mem s.camera ∧ s.OutcomeWanted := by
  have hinit : ∀ s, (streamingMachine fps).init s →
      SeenFlag s.mem s.camera ∧ s.OutcomeWanted := by
    rintro s ⟨hmem, hcamera, -, htoggle, -⟩
    simp only [OutcomeWanted, hmem, hcamera, htoggle]
    exact ⟨trivial, rfl⟩
  have hstep : ∀ s a s', SeenFlag s.mem s.camera ∧ s.OutcomeWanted →
      RequestsInOrder s a → (streamingMachine fps).step s a = some s' →
        SeenFlag s'.mem s'.camera ∧ s'.OutcomeWanted := by
    rintro s a s' ⟨hseen, hwanted⟩ hguard hstep
    by_cases ha : a = .toggle
    · subst ha
      cases hstep
      exact ⟨toggleStep_seenFlag hseen,
        (toggleStep_outcomeWanted_iff hwanted).mpr hguard⟩
    · obtain ⟨hseen', houtcome, hpaused, htoggle⟩ :=
        streamingMachine_outcome hseen hstep ha
      exact ⟨hseen', hwanted.congr houtcome hpaused htoggle⟩
  exact Machine.ReachableVia.invariant hinit hstep h

/-- In a run whose requests are polled in their order the last one wins. -/
theorem streamingMachine_lastRequestWins
    (h : (streamingMachine fps).ReachableVia RequestsInOrder s)
    (hsettled : s.Settled) :
    s.mem.cameraStreamPaused = s.mem.rtpStreamPaused := by
  obtain ⟨-, hwanted⟩ := streamingMachine_outcomeWanted h
  simp only [OutcomeWanted, hsettled.toggle] at hwanted
  rw [← hsettled.outcome]
  exact hwanted

/-- A request that was polled too early stays lost: without another call the
camera task does not come to the state that was asked for. -/
theorem streamingMachine_request_lost {actions : List StreamAction}
    (hseen : SeenFlag s.mem s.camera)
    (hlost : requestOutcome s.mem s.camera ≠ s.mem.rtpStreamPaused)
    (hno : StreamAction.toggle ∉ actions)
    (hrun : (streamingMachine fps).run s actions = some s')
    (hsettled : s'.Settled) :
    s'.mem.cameraStreamPaused ≠ s'.mem.rtpStreamPaused := by
  induction actions generalizing s with
  | nil =>
      cases hrun
      rw [← hsettled.outcome]
      exact hlost
  | cons a actions ih =>
      simp only [Machine.run] at hrun
      split at hrun
      · next t hstep =>
          obtain ⟨hseen', houtcome, hpaused, -⟩ :=
            streamingMachine_outcome hseen hstep (List.ne_of_not_mem_cons hno).symm
          refine ih hseen' ?_ (List.not_mem_of_not_mem_cons hno) hrun
          rw [houtcome, hpaused]
          exact hlost
      · cases hrun

/-! ## Runs -/

instance decidableRequestsInOrder (s : Streaming) (a : StreamAction) :
    Decidable (RequestsInOrder s a) :=
  match a with
  | .toggle =>
      match h : s.toggle with
      | .idle =>
          decidable_of_iff (s.mem.rtpStreamPaused = true →
            s.mem.pauseRequest = true → s.camera.resumeFirst = false)
            (by simp only [RequestsInOrder, RequestIsLast, h])
      | .pausing =>
          decidable_of_iff (s.mem.resumeRequest = true →
            s.camera.resumeFirst = true)
            (by simp only [RequestsInOrder, RequestIsLast, h])
      | .resuming =>
          isTrue (by simp only [RequestsInOrder, RequestIsLast, h])
  | .camera | .started _ _ | .encoded _ _ | .stream _ => isTrue trivial

/-- A call of the toggle function. -/
def toggleCall : List StreamAction := [.toggle, .toggle]

/-- The camera task polls, applies a pause and polls on. -/
def applyPause : List StreamAction := List.replicate 5 .camera

/-- The camera task waits for a frame, polls and applies a resume. -/
def applyResume : List StreamAction := List.replicate 8 .camera

/-- The stream is paused and resumed, and the camera task applies one request
before the other is made. -/
theorem streamingMachine_lastRequestWins_resumed :
    ∃ s : Streaming, s.Settled ∧ s.mem.rtpStreamPaused = false ∧
      s.mem.cameraStreamPaused = s.mem.rtpStreamPaused := by
  have hrun : (((streamingMachine cameraFps).run newStreaming
      (toggleCall ++ applyPause ++ toggleCall ++ applyResume)).map
      fun s => (s.toggle, s.mem.pauseRequest, s.mem.resumeRequest,
        s.camera.applying, s.mem.rtpStreamPaused)) =
      some (.idle, false, false, false, false) := by
    decide +kernel
  have hmeets : (streamingMachine cameraFps).Meets RequestsInOrder newStreaming
      (toggleCall ++ applyPause ++ toggleCall ++ applyResume) := by
    decide +kernel
  obtain ⟨s, hs, hend⟩ := Option.map_eq_some_iff.mp hrun
  simp only [Prod.mk.injEq] at hend
  obtain ⟨htoggle, hpause, hresume, happlying, hrtp⟩ := hend
  have hsettled : s.Settled := ⟨htoggle, hpause, hresume, happlying⟩
  have hreachable : (streamingMachine cameraFps).ReachableVia RequestsInOrder s :=
    (Machine.ReachableVia.init (newStreaming_init cameraFps)).run _ hmeets hs
  exact ⟨s, hsettled, hrtp, streamingMachine_lastRequestWins hreachable hsettled⟩

/-- The stream is paused.  Then it is resumed and paused again before the next
poll, which applies the pause first: the camera task goes on encoding. -/
theorem streamingMachine_not_lastRequestWins :
    ∃ s, (streamingMachine cameraFps).Reachable s ∧ s.Settled ∧
      s.mem.rtpStreamPaused = true ∧ s.mem.cameraStreamPaused = false := by
  have hrun : (((streamingMachine cameraFps).run newStreaming
      (toggleCall ++ applyPause ++ [.camera] ++ toggleCall ++ toggleCall ++
        applyPause ++ applyResume)).map
      fun s => (s.toggle, s.mem.pauseRequest, s.mem.resumeRequest,
        s.camera.applying, s.mem.rtpStreamPaused, s.mem.cameraStreamPaused)) =
      some (.idle, false, false, false, true, false) := by
    decide +kernel
  obtain ⟨s, hs, hend⟩ := Option.map_eq_some_iff.mp hrun
  simp only [Prod.mk.injEq] at hend
  obtain ⟨htoggle, hpause, hresume, happlying, hrtp, hcamera⟩ := hend
  exact ⟨s, Machine.reachable_of_run (newStreaming_init cameraFps) _ hs,
    ⟨htoggle, hpause, hresume, happlying⟩, hrtp, hcamera⟩

end RtpMulticast
