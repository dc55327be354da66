import RtpMulticast.Support.Machine
import RtpMulticast.Streaming.CameraTask

/-!
# The stream task and the system

The loop of `w6x_h264_rtp_stream` with the queue functions it calls, the calls
of `APP_RTP_Stream_TogglePause`, and the machine that interleaves both with the
camera task.  Tick counts and encoder results are chosen by the actions.  The
machine also records the calls of `w6x_rtp_sender_session_send_h264`.
-/

namespace RtpMulticast

/-! ## Program counters -/

/-- Where the loop goes on after `camera_encode_flush`. -/
inductive FlushNext where
  | splash (now : UInt32)
  | loopTop
  deriving DecidableEq, Repr

inductive StreamPc where
  | starting
  | loopTop
  | paused
  | flushTest (next : FlushNext)
  | flushFree (next : FlushNext)
  | flushReset (next : FlushNext)
  | splash (now : UInt32)
  | splashSent (now : UInt32)
  | waiting
  | peeked (frame : EncodedFrame)
  | handing (frame : EncodedFrame)
  | sending (frame : EncodedFrame)
  | freeing
  | resetting
  | requestTest
  | requestSet
  deriving DecidableEq, Repr

/-- Progress of `APP_RTP_Stream_TogglePause`. -/
inductive TogglePc where
  | idle
  | pausing
  | resuming
  deriving DecidableEq, Repr

/-- The tasks with their variables.  `produced` counts the pictures given to
the encoder, and `sends` lists the calls of the sender, the latest first. -/
structure Streaming where
  mem : StreamMemory
  camera : CameraPc
  stream : StreamPc
  toggle : TogglePc
  timestamp : UInt32
  lastSplashTick : UInt32
  produced : ℕ
  sends : List FrameCall
  deriving DecidableEq, Repr

namespace Streaming

/-! ## Queue functions -/

/-- `xQueueReceive` in `camera_encode_free` -/
def receive (m : StreamMemory) : StreamMemory :=
  { m with busyBufferQueue := m.busyBufferQueue.tail }

/-- The critical section of `camera_encode_free`. -/
def resetOffset (m : StreamMemory) : StreamMemory :=
  if m.busyBufferQueue.length = 0 then { m with encoderStreamOffset := 0 }
  else m

/-- The critical section writes the offset only. -/
theorem resetOffset_eq (m : StreamMemory) :
    ∃ offset, resetOffset m = { m with encoderStreamOffset := offset } := by
  unfold resetOffset
  split
  · exact ⟨0, rfl⟩
  · exact ⟨m.encoderStreamOffset, rfl⟩

/-! ## The stream loop -/

/-- `timestamp = ((uint64_t)ticks * camera.sensor.fps) / configTICK_RATE_HZ` -/
def frameTimestamp (fps ticks : UInt32) : UInt32 :=
  ((ticks.toUInt64 * fps.toUInt64) / configTickRateHz.toUInt64).toUInt32

/-- `90000U / 5U` -/
def splashIncrement : UInt32 := 90000 / 5

def frameCall (content : Option Content) (timestamp ticks : UInt32) : FrameCall :=
  ⟨content, timestamp, ticks, ntpMsw ticks, ntpLsw ticks⟩

def goto (s : Streaming) (pc : StreamPc) : Streaming :=
  { s with stream := pc }

/-- A step of the stream task; `now` is the tick count it may read.  Peeking
into an empty queue times out. -/
def streamStep (fps : UInt32) (s : Streaming) (now : UInt32) : Streaming :=
  match s.stream with
  | .starting =>
      { s with mem := { s.mem with encodeRequest := true }, stream := .loopTop }
  | .loopTop => s.goto (if s.mem.rtpStreamPaused then .paused else .waiting)
  | .paused => s.goto (.flushTest (.splash now))
  | .flushTest next =>
      if s.mem.busyBufferQueue.length > 0 then s.goto (.flushFree next)
      else
        match next with
        | .splash start => s.goto (.splash start)
        | .loopTop => s.goto .loopTop
  | .flushFree next =>
      { s with mem := receive s.mem, stream := .flushReset next }
  | .flushReset next =>
      { s with mem := resetOffset s.mem, stream := .flushTest next }
  | .splash start =>
      if start - s.lastSplashTick ≥ pdMsToTicks 200 then
        { s with
          sends := frameCall none s.timestamp start :: s.sends
          stream := .splashSent start }
      else s.goto .loopTop
  | .splashSent start =>
      { s with
        timestamp := s.timestamp + splashIncrement
        lastSplashTick := start
        stream := .loopTop }
  | .waiting =>
      match s.mem.busyBufferQueue.head? with
      | some frame =>
          s.goto (if frame.encSize > 0 then .peeked frame else .loopTop)
      | none => s.goto .loopTop
  | .peeked frame =>
      s.goto (if s.mem.rtpStreamPaused then .flushTest .loopTop
        else .handing frame)
  | .handing frame =>
      { s with
        sends := frameCall (some frame.content) s.timestamp frame.timestamp ::
          s.sends
        stream := .sending frame }
  | .sending frame =>
      { s with
        timestamp := frameTimestamp fps frame.timestamp
        stream := .freeing }
  | .freeing => { s with mem := receive s.mem, stream := .resetting }
  | .resetting => { s with mem := resetOffset s.mem, stream := .requestTest }
  | .requestTest =>
      s.goto (if s.mem.rtpStreamPaused then .loopTop else .requestSet)
  | .requestSet =>
      { s with mem := { s.mem with encodeRequest := true }, stream := .loopTop }

/-! ## Pause and resume -/

/-- A step of `APP_RTP_Stream_TogglePause`, or the start of a call. -/
def toggleStep (s : Streaming) : Streaming :=
  match s.toggle with
  | .idle =>
      if s.mem.rtpStreamPaused then
        { s with mem := { s.mem with resumeRequest := true }, toggle := .resuming }
      else
        { s with
          mem := { s.mem with rtpStreamPaused := true }
          toggle := .pausing }
  | .pausing =>
      { s with mem := { s.mem with pauseRequest := true }, toggle := .idle }
  | .resuming =>
      { s with mem := { s.mem with rtpStreamPaused := false }, toggle := .idle }

/-! ## The machine -/

/-- The number of pictures given to the encoder goes up when the camera task
calls it. -/
def countPicture (produced : ℕ) : CameraPc → ℕ
  | .encoding _ _ _ => produced + 1
  | _ => produced

/-- The camera task has moved. -/
def withCamera (s : Streaming) (r : StreamMemory × CameraPc) : Streaming :=
  { s with
    mem := r.1
    camera := r.2
    produced := countPicture s.produced r.2 }

end Streaming

inductive StreamAction where
  | camera
  | started (result : Option ℕ) (tick : UInt32)
  | encoded (result : EncodeResult) (tick : UInt32)
  | stream (now : UInt32)
  | toggle
  deriving DecidableEq, Repr

open Streaming

/-- All interleavings of the camera task, the stream task and the pause and
resume requests. -/
def streamingMachine (fps : UInt32) : Machine Streaming StreamAction where
  init s :=
    s.mem = ⟨[], 0, ⟨.initialized, 0, false⟩, false, false, false, false,
      false⟩ ∧
    s.camera = .top ∧ s.stream = .starting ∧ s.toggle = .idle ∧
    s.lastSplashTick = 0 ∧ s.produced = 0 ∧ s.sends = []
  step s
    | .camera =>
        (cameraStep fps s.mem s.produced s.camera).map s.withCamera
    | .started result tick =>
        match s.camera with
        | .starting address =>
            some (s.withCamera (startedStep s.mem address tick result))
        | _ => none
    | .encoded result tick =>
        match s.camera with
        | .encoding address intra number =>
            some (s.withCamera
              (encodedStep s.mem address intra number tick result))
        | _ => none
    | .stream now => some (streamStep fps s now)
    | .toggle => some (toggleStep s)

/-! ## What a step is -/

section Steps

variable {fps : UInt32} {s s' : Streaming} {a : StreamAction}

/-- The steps of the camera task by the place it is at, with the action that
makes them. -/
inductive CameraMoves (fps : UInt32) (m : StreamMemory) (produced : ℕ) :
    StreamAction → CameraPc → StreamMemory × CameraPc → Prop
  | check (point : CheckPoint) (stage : CheckStage) :
      CameraMoves fps m produced .camera (.check point stage)
        (checkStep m point stage)
  | waitFrame :
      CameraMoves fps m produced .camera .waitFrame
        (m, .check .frameReady .testPause)
  | pausedCheck :
      CameraMoves fps m produced .camera .pausedCheck
        (m, if m.cameraStreamPaused then .top else .readRequest)
  | readRequest :
      CameraMoves fps m produced .camera .readRequest
        (m, .check (.requestRead m.encodeRequest) .testPause)
  | pausedAgain (requested : Bool) :
      CameraMoves fps m produced .camera (.pausedAgain requested)
        (m, if m.cameraStreamPaused then .top
          else if requested then .process else .top)
  | process :
      CameraMoves fps m produced .camera .process (processStep fps m produced)
  | started (address : ℕ) (result : Option ℕ) (tick : UInt32) :
      CameraMoves fps m produced (.started result tick) (.starting address)
        (startedStep m address tick result)
  | encoded (address : ℕ) (intra : Bool) (number : ℕ) (result : EncodeResult)
      (tick : UInt32) :
      CameraMoves fps m produced (.encoded result tick)
        (.encoding address intra number)
        (encodedStep m address intra number tick result)
  | queueing (frame : EncodedFrame) :
      CameraMoves fps m produced .camera (.queueing frame) (queueStep m frame)
  | adding (encSize : ℕ) (content : Content) :
      CameraMoves fps m produced .camera (.adding encSize content)
        ({ m with encoderStreamOffset := m.encoderStreamOffset + encSize },
          .loading content)
  | loading (content : Content) :
      CameraMoves fps m produced .camera (.loading content)
        (m, .storing m.encoderStreamOffset content)
  | storing (offset : ℕ) (content : Content) :
      CameraMoves fps m produced .camera (.storing offset content)
        (storeStep m offset content, .top)

theorem cameraStep_moves {m : StreamMemory} {produced : ℕ} {pc : CameraPc}
    {r : StreamMemory × CameraPc} (h : cameraStep fps m produced pc = some r) :
    CameraMoves fps m produced .camera pc r := by
  cases pc <;> cases h <;> constructor

/-- Either the camera task moves and leaves the stream loop alone, or the
stream task moves, or a pause or resume request does. -/
theorem streamingMachine_step_cases
    (h : (streamingMachine fps).step s a = some s') :
    (∃ r, CameraMoves fps s.mem s.produced a s.camera r ∧
        s' = s.withCamera r) ∨
      (∃ now, a = .stream now ∧ s' = streamStep fps s now) ∨
      (a = .toggle ∧ s' = toggleStep s) := by
  cases a with
  | camera =>
      obtain ⟨r, hr, rfl⟩ := Option.map_eq_some_iff.mp h
      exact Or.inl ⟨r, cameraStep_moves hr, rfl⟩
  | started result tick =>
      simp only [streamingMachine] at h
      split at h
      · next address hpc =>
          cases h
          refine Or.inl ⟨_, ?_, rfl⟩
          rw [hpc]
          exact .started address result tick
      · cases h
  | encoded result tick =>
      simp only [streamingMachine] at h
      split at h
      · next address intra number hpc =>
          cases h
          refine Or.inl ⟨_, ?_, rfl⟩
          rw [hpc]
          exact .encoded address intra number result tick
      · cases h
  | stream now =>
      cases h
      exact Or.inr (Or.inl ⟨now, rfl, rfl⟩)
  | toggle =>
      cases h
      exact Or.inr (Or.inr ⟨rfl, rfl⟩)

/-- A pause or resume request writes the three request variables only; it
clears the pause flag at the end of a resume request. -/
theorem toggleStep_cases :
    ∃ rtp pause resume toggle,
      toggleStep s =
        { s with
          mem := { s.mem with
            rtpStreamPaused := rtp
            pauseRequest := pause
            resumeRequest := resume }
          toggle := toggle } ∧
      (rtp = false →
        s.mem.rtpStreamPaused = false ∨ s.toggle = .resuming) := by
  unfold toggleStep
  split
  · split
    · exact ⟨_, _, _, _, rfl, Or.inl⟩
    · refine ⟨true, _, _, _, rfl, ?_⟩
      intro h
      cases h
  · exact ⟨_, _, _, _, rfl, Or.inl⟩
  · next htoggle => exact ⟨_, _, _, _, rfl, fun _ => Or.inr htoggle⟩

section CameraMoves

variable {m : StreamMemory} {produced : ℕ} {pc : CameraPc}
  {r : StreamMemory × CameraPc}

/-- The camera task only ever appends to the queue. -/
theorem CameraMoves.queue (h : CameraMoves fps m produced a pc r) :
    r.1.busyBufferQueue = m.busyBufferQueue ∨
      ∃ frame, pc = .queueing frame ∧
        m.busyBufferQueue.length < encoderFrameQueueSize ∧
        r.1.busyBufferQueue = m.busyBufferQueue ++ [frame] := by
  cases h with
  | check point stage =>
      exact Or.inl (checkStep_sameBuffer m point stage).queue
  | process => exact Or.inl (processStep_sameBuffer fps m produced).queue
  | started address result tick =>
      exact Or.inl (startedStep_sameBuffer m address tick result).queue
  | encoded address intra number result tick =>
      exact Or.inl
        (encodedStep_sameBuffer m address intra number tick result).queue
  | queueing frame =>
      unfold queueStep
      split
      · next hroom => exact Or.inr ⟨frame, rfl, hroom, rfl⟩
      · exact Or.inl rfl
  | storing offset content => exact Or.inl (storeStep_queue m offset content)
  | _ => exact Or.inl rfl

/-- The pause flag of the stream belongs to the other tasks. -/
theorem CameraMoves.rtpPaused (h : CameraMoves fps m produced a pc r) :
    r.1.rtpStreamPaused = m.rtpStreamPaused := by
  cases h with
  | check point stage => exact (checkStep_sameBuffer m point stage).rtpPaused
  | process => exact (processStep_sameBuffer fps m produced).rtpPaused
  | started address result tick =>
      exact (startedStep_sameBuffer m address tick result).rtpPaused
  | encoded address intra number result tick =>
      exact (encodedStep_sameBuffer m address intra number tick
        result).rtpPaused
  | queueing frame =>
      unfold queueStep
      split <;> rfl
  | storing offset content => cases content <;> rfl
  | _ => rfl

end CameraMoves

/-- The frame the stream task has taken from the head of the queue without
removing it. -/
def StreamPc.held : StreamPc → Option EncodedFrame
  | .peeked frame | .handing frame | .sending frame => some frame
  | _ => none

theorem streamStep_held {now : UInt32} {frame : EncodedFrame}
    (h : ∀ frame, s.stream.held = some frame →
      s.mem.busyBufferQueue.head? = some frame)
    (hheld : (streamStep fps s now).stream.held = some frame) :
    (streamStep fps s now).mem.busyBufferQueue.head? = some frame := by
  cases hpc : s.stream with
  | waiting =>
      simp only [streamStep, hpc] at hheld ⊢
      split at hheld
      · next head hhead =>
          simp only [goto] at hheld
          split at hheld
          · cases hheld
            exact hhead
          · cases hheld
      · cases hheld
  | peeked held =>
      simp only [streamStep, hpc, goto] at hheld ⊢
      split at hheld
      · cases hheld
      · cases hheld
        apply h
        rw [hpc]
        rfl
  | handing held =>
      simp only [streamStep, hpc] at hheld ⊢
      cases hheld
      apply h
      rw [hpc]
      rfl
  | _ =>
      -- Every other step leaves the hand empty.
      revert hheld
      simp only [streamStep, hpc, goto]
      repeat' split
      all_goals rintro ⟨⟩

theorem streamStep_freeing {now : UInt32}
    (hhead : ∀ frame, s.stream.held = some frame →
      s.mem.busyBufferQueue.head? = some frame)
    (hfreeing : (streamStep fps s now).stream = .freeing) :
    (streamStep fps s now).mem.busyBufferQueue ≠ [] := by
  cases hpc : s.stream with
  | sending frame =>
      simp only [streamStep, hpc]
      have hqueue := hhead frame (by rw [hpc]; rfl)
      intro hnil
      rw [hnil] at hqueue
      cases hqueue
  | _ =>
      revert hfreeing
      simp only [streamStep, hpc, goto]
      repeat' split
      all_goals rintro ⟨⟩

/-- The frame in the hand of the stream task is the head of the queue, and one
is there to be removed behind its call. -/
theorem streamingMachine_held {guard : Streaming → StreamAction → Prop}
    (h : (streamingMachine fps).ReachableVia guard s) :
    (∀ frame, s.stream.held = some frame →
      s.mem.busyBufferQueue.head? = some frame) ∧
      (s.stream = .freeing → s.mem.busyBufferQueue ≠ []) := by
  have hinit : ∀ s, (streamingMachine fps).init s →
      (∀ frame, s.stream.held = some frame →
        s.mem.busyBufferQueue.head? = some frame) ∧
        (s.stream = .freeing → s.mem.busyBufferQueue ≠ []) := by
    rintro s ⟨-, -, hstream, -⟩
    rw [hstream]
    constructor
    · rintro frame ⟨⟩
    · rintro ⟨⟩
  have hstep : ∀ s a s',
      ((∀ frame, s.stream.held = some frame →
        s.mem.busyBufferQueue.head? = some frame) ∧
        (s.stream = .freeing → s.mem.busyBufferQueue ≠ [])) → guard s a →
      (streamingMachine fps).step s a = some s' →
        (∀ frame, s'.stream.held = some frame →
          s'.mem.busyBufferQueue.head? = some frame) ∧
          (s'.stream = .freeing → s'.mem.busyBufferQueue ≠ []) := by
    rintro s a s' ⟨hheld, hfreeing⟩ _ hstep
    rcases streamingMachine_step_cases hstep with
      ⟨r, hmoves, rfl⟩ | ⟨now, -, rfl⟩ | ⟨-, rfl⟩
    · change (∀ frame, s.stream.held = some frame →
        r.1.busyBufferQueue.head? = some frame) ∧
        (s.stream = .freeing → r.1.busyBufferQueue ≠ [])
      rcases hmoves.queue with hsame | ⟨new, -, -, happend⟩
      · rw [hsame]
        exact ⟨hheld, hfreeing⟩
      · rw [happend]
        constructor
        · intro frame hframe
          rw [List.head?_append, hheld frame hframe]
          rfl
        · intro _
          simp
    · exact ⟨fun frame => streamStep_held hheld, streamStep_freeing hheld⟩
    · obtain ⟨rtp, pause, resume, toggle, heq, -⟩ := toggleStep_cases (s := s)
      rw [heq]
      exact ⟨hheld, hfreeing⟩
  exact Machine.ReachableVia.invariant hinit hstep h

end Steps

/-! ## Pieces of runs -/

/-- The system before the first step, with timestamp 0. -/
def newStreaming : Streaming where
  mem := ⟨[], 0, ⟨.initialized, 0, false⟩, false, false, false, false, false⟩
  camera := .top
  stream := .starting
  toggle := .idle
  timestamp := 0
  lastSplashTick := 0
  produced := 0
  sends := []

theorem newStreaming_init (fps : UInt32) :
    (streamingMachine fps).init newStreaming :=
  ⟨rfl, rfl, rfl, rfl, rfl, rfl, rfl⟩

/-- The camera task from the top of its loop to the encoder. -/
def toEncoder : List StreamAction := List.replicate 11 .camera

/-- The camera task queues what the encoder wrote. -/
def queueFrame : List StreamAction := List.replicate 4 .camera

/-- The camera task starts the encoder, which writes a header. -/
def startEncoder (size : ℕ) (tick : UInt32) : List StreamAction :=
  toEncoder ++ .started (some size) tick :: queueFrame

/-- The camera task encodes a picture. -/
def encodePicture (size : ℕ) (tick : UInt32) : List StreamAction :=
  toEncoder ++ .encoded (.frameReady size) tick :: queueFrame

/-- The stream task from the top of its loop to the next call of the sender. -/
def handFrame : List StreamAction := List.replicate 4 (.stream 0)

/-- The stream task behind a call of the sender, back to the top. -/
def freeFrame : List StreamAction := List.replicate 5 (.stream 0)

end RtpMulticast
