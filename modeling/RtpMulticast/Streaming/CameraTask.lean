import RtpMulticast.Streaming.Definitions

/-!
# The camera task

The loop of `camera_app` and the encoder functions it calls, one step for each
access to a variable that other tasks write.  The three places where the loop
polls the pause and resume requests run the same code and differ only in where
the loop goes on.
-/

namespace RtpMulticast

/-! ## Polling the requests -/

/-- The three places where the loop polls: at its top, after a camera frame,
and after reading the encode request. -/
inductive CheckPoint where
  | loopTop
  | frameReady
  | requestRead (requested : Bool)
  deriving DecidableEq, Repr

/-- Progress through the polling code, `_camera_do_pause` and
`_camera_do_resume`. -/
inductive CheckStage where
  | testPause
  | clearPause
  | stopRequests
  | markPaused
  | testResume
  | clearResume
  | forceIntra
  | markRunning
  | clearRequest
  | setRequest
  deriving DecidableEq, Repr

inductive CameraPc where
  | check (point : CheckPoint) (stage : CheckStage)
  | waitFrame
  | pausedCheck
  | readRequest
  | pausedAgain (requested : Bool)
  | process
  | starting (address : ℕ)
  | encoding (address : ℕ) (intra : Bool) (number : ℕ)
  | queueing (frame : EncodedFrame)
  | adding (encSize : ℕ) (content : Content)
  | loading (content : Content)
  | storing (offset : ℕ) (content : Content)
  deriving DecidableEq, Repr

/-- The frame about to be queued. -/
def CameraPc.queued : CameraPc → Option EncodedFrame
  | .queueing frame => some frame
  | _ => none

/-- The top of the loop. -/
def CameraPc.top : CameraPc := .check .loopTop .testPause

/-- Where the loop goes on after a pause was applied. -/
def CheckPoint.afterPause : CheckPoint → CameraPc
  | .loopTop => .check .loopTop .testResume
  | .frameReady => .check .frameReady .testResume
  | .requestRead _ => .top

/-- Where the loop goes on after the resume request. -/
def CheckPoint.afterResume : CheckPoint → CameraPc
  | .loopTop => .waitFrame
  | .frameReady => .pausedCheck
  | .requestRead requested => .pausedAgain requested

/-- One access of the polling code. -/
def checkStep (m : StreamMemory) (point : CheckPoint) :
    CheckStage → StreamMemory × CameraPc
  | .testPause =>
      (m, if m.pauseRequest then .check point .clearPause
        else .check point .testResume)
  | .clearPause => ({ m with pauseRequest := false }, .check point .stopRequests)
  | .stopRequests =>
      ({ m with encodeRequest := false }, .check point .markPaused)
  | .markPaused => ({ m with cameraStreamPaused := true }, point.afterPause)
  | .testResume =>
      (m, if m.resumeRequest then .check point .clearResume
        else point.afterResume)
  | .clearResume => ({ m with resumeRequest := false }, .check point .forceIntra)
  | .forceIntra =>
      ({ m with encoder := { m.encoder with forced := true } },
        .check point .markRunning)
  | .markRunning =>
      ({ m with cameraStreamPaused := false }, .check point .clearRequest)
  | .clearRequest =>
      ({ m with encodeRequest := false }, .check point .setRequest)
  | .setRequest => ({ m with encodeRequest := true }, point.afterResume)

/-! ## Encoding -/

/-- Results of `H264EncStrmEncode`. -/
inductive EncodeResult where
  | frameReady (streamSize : ℕ)
  | fuseError
  | otherError
  deriving DecidableEq, Repr

/-- Whether the next picture will be an intra picture:
`forced | ((frame % fps) == 0)`. -/
def Encoder.nextIntra (fps : UInt32) (e : Encoder) : Bool :=
  e.forced || e.frame % fps == 0

/-- `_encoder_process_frame` and `_encoder_start` up to the call of the
encoder, which gets picture `number`. -/
def processStep (fps : UInt32) (m : StreamMemory) (number : ℕ) :
    StreamMemory × CameraPc :=
  match m.encoder.state with
  | .reset => (m, .top)
  | .initialized =>
      match getNextFrameBuffer m.encoderStreamOffset with
      | none => (m, .top)
      | some (address, _) => (m, .starting address)
  | .started =>
      match getNextFrameBuffer m.encoderStreamOffset with
      | none => (m, .top)
      | some (address, _) =>
          ({ m with encoder := { m.encoder with forced := false } },
            .encoding address (m.encoder.nextIntra fps) number)

/-- `_encoder_start` behind `H264EncStrmStart`, which fails or writes a header
of some size. -/
def startedStep (m : StreamMemory) (address : ℕ) (timestamp : UInt32) :
    Option ℕ → StreamMemory × CameraPc
  | none => (m, .top)
  | some size =>
      ({ m with encoder := { m.encoder with state := .started } },
        .queueing ⟨address, encoderH264Size - address, size, timestamp,
          .header⟩)

/-- `_encoder_process_frame` behind `H264EncStrmEncode`. -/
def encodedStep (m : StreamMemory) (address : ℕ) (intra : Bool) (number : ℕ)
    (timestamp : UInt32) : EncodeResult → StreamMemory × CameraPc
  | .frameReady size =>
      if size = 0 then
        ({ m with encoder := { m.encoder with forced := true } }, .top)
      else
        (m, .queueing ⟨address, encoderH264Size - address, size, timestamp,
          .picture intra number⟩)
  | .fuseError =>
      ({ m with encoder := { m.encoder with frame := m.encoder.frame + 1 } },
        .top)
  | .otherError =>
      ({ m with encoder := { m.encoder with forced := true } }, .top)

/-- `xQueueSend` in `_encoder_queue_frame`; a full queue drops the frame. -/
def queueStep (m : StreamMemory) (frame : EncodedFrame) :
    StreamMemory × CameraPc :=
  if m.busyBufferQueue.length < encoderFrameQueueSize then
    ({ m with busyBufferQueue := m.busyBufferQueue ++ [frame] },
      .adding frame.encSize frame.content)
  else (m, .top)

/-- The end of `_encoder_queue_frame` and of its caller: the aligned offset is
written, and behind a picture the frame index goes up. -/
def storeStep (m : StreamMemory) (offset : ℕ) : Content → StreamMemory
  | .header => { m with encoderStreamOffset := align32 offset }
  | .picture _ _ =>
      { m with
        encoderStreamOffset := align32 offset
        encoder := { m.encoder with frame := m.encoder.frame + 1 } }

/-! ## Steps -/

/-- A step of the camera task outside the encoder; `number` is the number of
the next picture. -/
def cameraStep (fps : UInt32) (m : StreamMemory) (number : ℕ) :
    CameraPc → Option (StreamMemory × CameraPc)
  | .check point stage => some (checkStep m point stage)
  | .waitFrame => some (m, .check .frameReady .testPause)
  | .pausedCheck =>
      some (m, if m.cameraStreamPaused then .top else .readRequest)
  | .readRequest =>
      some (m, .check (.requestRead m.encodeRequest) .testPause)
  | .pausedAgain requested =>
      some (m, if m.cameraStreamPaused then .top
        else if requested then .process else .top)
  | .process => some (processStep fps m number)
  | .starting _ => none
  | .encoding _ _ _ => none
  | .queueing frame => some (queueStep m frame)
  | .adding encSize content =>
      some ({ m with encoderStreamOffset := m.encoderStreamOffset + encSize },
        .loading content)
  | .loading content => some (m, .storing m.encoderStreamOffset content)
  | .storing offset content => some (storeStep m offset content, .top)

/-! ## What the steps leave alone -/

/-- The frame queue, the offset and the pause flag of the stream. -/
structure SameBuffer (m m' : StreamMemory) : Prop where
  queue : m'.busyBufferQueue = m.busyBufferQueue
  offset : m'.encoderStreamOffset = m.encoderStreamOffset
  rtpPaused : m'.rtpStreamPaused = m.rtpStreamPaused

section SameBuffer

variable (fps : UInt32) (m : StreamMemory)

theorem checkStep_sameBuffer (point : CheckPoint) (stage : CheckStage) :
    SameBuffer m (checkStep m point stage).1 := by
  cases stage <;> exact ⟨rfl, rfl, rfl⟩

theorem processStep_sameBuffer (number : ℕ) :
    SameBuffer m (processStep fps m number).1 := by
  unfold processStep
  split
  · exact ⟨rfl, rfl, rfl⟩
  · split <;> exact ⟨rfl, rfl, rfl⟩
  · split <;> exact ⟨rfl, rfl, rfl⟩

theorem startedStep_sameBuffer (address : ℕ) (tick : UInt32)
    (result : Option ℕ) :
    SameBuffer m (startedStep m address tick result).1 := by
  cases result <;> exact ⟨rfl, rfl, rfl⟩

theorem encodedStep_sameBuffer (address : ℕ) (intra : Bool) (number : ℕ)
    (tick : UInt32) (result : EncodeResult) :
    SameBuffer m (encodedStep m address intra number tick result).1 := by
  cases result with
  | frameReady size =>
      simp only [encodedStep]
      split <;> exact ⟨rfl, rfl, rfl⟩
  | fuseError => exact ⟨rfl, rfl, rfl⟩
  | otherError => exact ⟨rfl, rfl, rfl⟩

theorem storeStep_queue (offset : ℕ) (content : Content) :
    (storeStep m offset content).busyBufferQueue = m.busyBufferQueue := by
  cases content <;> rfl

theorem storeStep_offset (offset : ℕ) (content : Content) :
    (storeStep m offset content).encoderStreamOffset = align32 offset := by
  cases content <;> rfl

end SameBuffer

end RtpMulticast
