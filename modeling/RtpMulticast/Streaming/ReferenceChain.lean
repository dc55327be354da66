import RtpMulticast.Streaming.StreamTask

/-!
# Reference chain of the transmitted pictures

A predicted picture builds on the picture of the encoder's call before it, so
the receiver must get that picture immediately before it.  A picture is lost
when the queue is full, when the encoder is reset, and when the stream task
flushes the queue; the next picture then has to be an intra picture.

The camera task knows of a loss only when it raises `forced` itself.  The runs
below are those in which every other loss is harmless: the next picture is
bound to be an intra picture anyway, or the flush falls into a pause that the
camera task has gone through before it ends.
-/

namespace RtpMulticast

open Streaming

/-! ## Decodable streams -/

/-- `c` can be decoded directly behind `prev`. -/
def Content.DecodableAfter (c : Content) (prev : Option Content) : Prop :=
  match c with
  | .header => True
  | .picture true _ => True
  | .picture false number =>
      ∃ intra before, prev = some (.picture intra before) ∧
        number = before + 1

/-- Each predicted picture comes directly behind the picture of the call before
its own; the latest picture is the first in the list. -/
def DecodableLine : List Content → Prop
  | [] => True
  | c :: earlier => c.DecodableAfter earlier.head? ∧ DecodableLine earlier

theorem DecodableLine.of_append {later earlier : List Content}
    (h : DecodableLine (later ++ earlier)) : DecodableLine earlier := by
  induction later with
  | nil => exact h
  | cons c later ih =>
      have hrest := ih h.2
      exact hrest

namespace Streaming

/-- The camera frames handed to the sender, the latest first. -/
def handed (s : Streaming) : List Content :=
  s.sends.filterMap FrameCall.content

/-- The queued frames that are not handed over yet; the one the stream task has
handed over is removed later. -/
def waitingFrames (s : Streaming) : List EncodedFrame :=
  match s.stream with
  | .sending _ | .freeing => s.mem.busyBufferQueue.tail
  | _ => s.mem.busyBufferQueue

end Streaming

/-- What the camera task has from the encoder and not queued yet. -/
def CameraPc.inFlight : CameraPc → List Content
  | .encoding _ intra number => [.picture intra number]
  | .queueing frame => [frame.content]
  | _ => []

namespace Streaming

/-- All frames from the encoder to the sender, the latest first. -/
def line (s : Streaming) : List Content :=
  s.camera.inFlight ++
    ((s.waitingFrames.map EncodedFrame.content).reverse ++ s.handed)

end Streaming

/-! ## Harmless losses -/

/-- The stream task is about to drop the head of the queue in a flush. -/
def StreamPc.Flushes : StreamPc → Bool
  | .flushFree _ => true
  | _ => false

/-- While the stream is not paused, a frame is dropped or an encoder reset only
when the next picture is an intra picture anyway.  A pause ends only when the
camera task has gone through it and the queue is empty, and a flush removes
frames only during the pause. -/
def LosesSafely (fps : UInt32) (s : Streaming) : StreamAction → Prop
  | .camera =>
      s.mem.rtpStreamPaused = false → ∀ frame ∈ s.camera.queued,
        encoderFrameQueueSize ≤ s.mem.busyBufferQueue.length →
          s.mem.encoder.nextIntra fps = true
  | .encoded .fuseError _ =>
      s.mem.rtpStreamPaused = false →
        Encoder.nextIntra fps
          { s.mem.encoder with frame := s.mem.encoder.frame + 1 } = true
  | .stream _ => s.stream.Flushes = true → s.mem.rtpStreamPaused = true
  | .toggle =>
      s.toggle = .resuming →
        s.mem.cameraStreamPaused = true ∧ s.mem.busyBufferQueue = []
  | _ => True

instance (fps : UInt32) (s : Streaming) :
    (a : StreamAction) → Decidable (LosesSafely fps s a)
  | .camera =>
      inferInstanceAs (Decidable (s.mem.rtpStreamPaused = false →
        ∀ frame ∈ s.camera.queued,
          encoderFrameQueueSize ≤ s.mem.busyBufferQueue.length →
            s.mem.encoder.nextIntra fps = true))
  | .encoded .fuseError _ =>
      inferInstanceAs (Decidable (s.mem.rtpStreamPaused = false →
        Encoder.nextIntra fps
          { s.mem.encoder with frame := s.mem.encoder.frame + 1 } = true))
  | .stream _ =>
      inferInstanceAs (Decidable (s.stream.Flushes = true →
        s.mem.rtpStreamPaused = true))
  | .toggle =>
      inferInstanceAs (Decidable (s.toggle = .resuming →
        s.mem.cameraStreamPaused = true ∧ s.mem.busyBufferQueue = []))
  | .started _ _ => isTrue trivial
  | .encoded (.frameReady _) _ => isTrue trivial
  | .encoded .otherError _ => isTrue trivial

/-! ## The invariant -/

/-- The camera task is between its last look at the pause flag and the end of
its work on a frame. -/
def CameraPc.Works : CameraPc → Prop
  | .process | .starting _ | .encoding _ _ _ | .queueing _ | .adding _ _
  | .loading _ | .storing _ _ => True
  | _ => False

/-- The camera task works on a picture that the encoder has got. -/
def CameraPc.WorksOnPicture : CameraPc → Prop
  | .encoding _ _ _ => True
  | .queueing frame => frame.content ≠ .header
  | .adding _ content | .loading content | .storing _ content =>
      content ≠ .header
  | _ => False

theorem CameraPc.WorksOnPicture.works {pc : CameraPc}
    (h : pc.WorksOnPicture) : pc.Works := by
  cases pc <;> first | exact h.elim | exact trivial

/-- The latest frame is the latest picture given to the encoder. -/
def Newest (line : List Content) (produced : ℕ) : Prop :=
  ∃ intra number, line.head? = some (.picture intra number) ∧
    produced = number + 1

/-- The next picture continues the line: the camera path is paused, an intra
picture comes next, or nothing is lost. -/
def Continues (fps : UInt32) (m : StreamMemory) (line : List Content)
    (produced : ℕ) : Prop :=
  m.cameraStreamPaused = true ∨ m.encoder.nextIntra fps = true ∨
    Newest line produced

/-- What the camera task knows of the encoder. -/
structure CameraOk (m : StreamMemory) (pc : CameraPc) : Prop where
  unstarted : m.encoder.state ≠ .started → m.encoder.frame = 0
  started : pc.WorksOnPicture → m.encoder.state = .started
  opening : ∀ address, pc = .starting address → m.encoder.state ≠ .started
  working : pc.Works → m.cameraStreamPaused = false
  running : ∀ point, pc = .check point .markRunning →
    m.encoder.forced = true

/-- The line while the stream is not paused. -/
structure LineOk (fps : UInt32) (m : StreamMemory) (pc : CameraPc)
    (line : List Content) (produced : ℕ) : Prop where
  decodable : DecodableLine line
  continues : Continues fps m line produced
  newest : pc.WorksOnPicture → Newest line produced

structure ChainInv (fps : UInt32) (s : Streaming) : Prop where
  handed : DecodableLine s.handed
  handing : ∀ frame, s.stream = .handing frame →
    DecodableLine (frame.content :: s.handed)
  camera : CameraOk s.mem s.camera
  line : s.mem.rtpStreamPaused = false →
    LineOk fps s.mem s.camera s.line s.produced

/-! ## Steps of the camera task -/

section Camera

variable {fps : UInt32} {m m' : StreamMemory} {pc : CameraPc}

theorem CameraPc.inFlight_of_not_works (h : ¬ pc.Works) :
    pc.inFlight = [] := by
  cases pc <;> first | rfl | exact absurd trivial h

theorem countPicture_of_not_works (h : ¬ pc.Works) (produced : ℕ) :
    countPicture produced pc = produced := by
  cases pc <;> first | rfl | exact absurd trivial h

theorem CameraPc.not_works_top : ¬ CameraPc.top.Works := id

theorem CheckPoint.not_works_afterPause (point : CheckPoint) :
    ¬ point.afterPause.Works := by
  cases point <;> exact id

theorem CheckPoint.not_works_afterResume (point : CheckPoint) :
    ¬ point.afterResume.Works := by
  cases point <;> exact id

theorem checkStep_not_works (point : CheckPoint) (stage : CheckStage) :
    ¬ (checkStep m point stage).2.Works := by
  cases stage with
  | testPause =>
      simp only [checkStep]
      split <;> exact id
  | testResume =>
      simp only [checkStep]
      split
      · exact id
      · exact point.not_works_afterResume
  | markPaused => exact point.not_works_afterPause
  | setRequest => exact point.not_works_afterResume
  | _ => exact id

theorem nextIntra_of_forced {e : Encoder} (h : e.forced = true) :
    e.nextIntra fps = true := by
  rw [Encoder.nextIntra, h, Bool.true_or]

theorem nextIntra_of_first {e : Encoder} (h : e.frame = 0) :
    e.nextIntra fps = true := by
  rw [Encoder.nextIntra, h, UInt32.zero_mod]
  exact Bool.or_true _

/-! ### The encoder -/

/-- Back at a place outside the work on a frame. -/
theorem CameraOk.leave (h : CameraOk m pc) {pc' : CameraPc}
    (hworks : ¬ pc'.Works) (hpc' : ∀ point, pc' ≠ .check point .markRunning)
    (hstate : m'.encoder.state = m.encoder.state)
    (hframe : m.encoder.state ≠ .started →
      m'.encoder.frame = m.encoder.frame) : CameraOk m' pc' where
  unstarted hne := by
    rw [hstate] at hne
    rw [hframe hne]
    exact h.unstarted hne
  started hpicture := absurd hpicture.works hworks
  opening := by
    rintro address rfl
    exact absurd trivial hworks
  working hpc := absurd hpc hworks
  running point hpc := absurd hpc (hpc' point)

/-- The work on a frame ends. -/
theorem CameraOk.toTop (h : CameraOk m pc)
    (hstate : m'.encoder.state = m.encoder.state)
    (hframe : m.encoder.state ≠ .started →
      m'.encoder.frame = m.encoder.frame) : CameraOk m' .top := by
  refine h.leave CameraPc.not_works_top ?_ hstate hframe
  rintro point ⟨⟩

/-- The work on a frame goes on. -/
theorem CameraOk.work {pc' : CameraPc} (hworks : pc'.Works)
    (hopening : ∀ address, pc' ≠ .starting address)
    (hunstarted : m.encoder.state ≠ .started → m.encoder.frame = 0)
    (hstarted : pc'.WorksOnPicture → m.encoder.state = .started)
    (hpaused : m.cameraStreamPaused = false) : CameraOk m pc' where
  unstarted := hunstarted
  started := hstarted
  opening address hpc := absurd hpc (hopening address)
  working _ := hpaused
  running := by
    rintro point rfl
    exact hworks.elim

theorem CheckPoint.afterPause_ne (point point' : CheckPoint) :
    point.afterPause ≠ .check point' .markRunning := by
  cases point <;> rintro ⟨⟩

theorem CheckPoint.afterResume_ne (point point' : CheckPoint) :
    point.afterResume ≠ .check point' .markRunning := by
  cases point <;> rintro ⟨⟩

theorem checkStep_cameraOk {point : CheckPoint} {stage : CheckStage}
    (h : CameraOk m (.check point stage)) :
    CameraOk (checkStep m point stage).1 (checkStep m point stage).2 := by
  have hworks := checkStep_not_works (m := m) point stage
  cases stage with
  | testPause =>
      refine h.leave hworks ?_ rfl fun _ => rfl
      simp only [checkStep]
      split <;> rintro point' ⟨⟩
  | testResume =>
      refine h.leave hworks ?_ rfl fun _ => rfl
      intro point'
      simp only [checkStep]
      split
      · rintro ⟨⟩
      · exact point.afterResume_ne point'
  | markPaused => exact h.leave hworks point.afterPause_ne rfl fun _ => rfl
  | setRequest => exact h.leave hworks point.afterResume_ne rfl fun _ => rfl
  | forceIntra =>
      exact
        { unstarted := h.unstarted
          started := False.elim
          opening := by rintro address ⟨⟩
          working := False.elim
          running := fun _ _ => rfl }
  | _ =>
      refine h.leave hworks ?_ rfl fun _ => rfl
      rintro point' ⟨⟩

theorem processStep_cameraOk {number : ℕ} (h : CameraOk m .process) :
    CameraOk (processStep fps m number).1 (processStep fps m number).2 := by
  have hpaused := h.working trivial
  have htop : CameraOk m .top := h.toTop rfl fun _ => rfl
  unfold processStep
  split
  · exact htop
  · next hstate =>
      split
      · exact htop
      · refine ⟨h.unstarted, False.elim, ?_, fun _ => hpaused, ?_⟩
        · intro _ _
          rw [hstate]
          rintro ⟨⟩
        · rintro point ⟨⟩
  · next hstate =>
      split
      · exact htop
      · apply CameraOk.work
        · exact trivial
        · rintro address ⟨⟩
        · exact h.unstarted
        · exact fun _ => hstate
        · exact hpaused

theorem startedStep_cameraOk {address : ℕ} {tick : UInt32}
    {result : Option ℕ} (h : CameraOk m (.starting address)) :
    CameraOk (startedStep m address tick result).1
      (startedStep m address tick result).2 := by
  cases result with
  | none => exact h.toTop rfl fun _ => rfl
  | some size =>
      apply CameraOk.work
      · exact trivial
      · rintro address ⟨⟩
      · exact fun hne => absurd rfl hne
      · exact fun _ => rfl
      · exact h.working trivial

theorem encodedStep_cameraOk {address number : ℕ} {intra : Bool}
    {tick : UInt32} {result : EncodeResult}
    (h : CameraOk m (.encoding address intra number)) :
    CameraOk (encodedStep m address intra number tick result).1
      (encodedStep m address intra number tick result).2 := by
  have hstate := h.started trivial
  cases result with
  | frameReady size =>
      simp only [encodedStep]
      split
      · exact h.toTop rfl fun _ => rfl
      · apply CameraOk.work
        · exact trivial
        · rintro address ⟨⟩
        · exact h.unstarted
        · exact fun _ => hstate
        · exact h.working trivial
  | fuseError => exact h.toTop rfl fun hne => absurd hstate hne
  | otherError => exact h.toTop rfl fun _ => rfl

theorem queueStep_cameraOk {frame : EncodedFrame}
    (h : CameraOk m (.queueing frame)) :
    CameraOk (queueStep m frame).1 (queueStep m frame).2 := by
  unfold queueStep
  split
  · apply CameraOk.work
    · exact trivial
    · rintro address ⟨⟩
    · exact h.unstarted
    · exact h.started
    · exact h.working trivial
  · exact h.toTop rfl fun _ => rfl

theorem storeStep_cameraOk {offset : ℕ} {content : Content}
    (h : CameraOk m (.storing offset content)) :
    CameraOk (storeStep m offset content) .top := by
  cases content with
  | header => exact h.toTop rfl fun _ => rfl
  | picture intra number =>
      have hstate := h.started (by rintro ⟨⟩)
      exact h.toTop rfl fun hne => absurd hstate hne

/-- The second look at the pause flag. -/
theorem pausedAgain_cameraOk {requested : Bool}
    (h : CameraOk m (.pausedAgain requested)) :
    CameraOk m (if m.cameraStreamPaused then .top
      else if requested then .process else .top) := by
  have htop : CameraOk m .top := h.toTop rfl fun _ => rfl
  split
  · exact htop
  · next hrunning =>
      split
      · apply CameraOk.work
        · exact trivial
        · rintro address ⟨⟩
        · exact h.unstarted
        · exact False.elim
        · exact eq_false_of_ne_true hrunning
      · exact htop

theorem CameraMoves.cameraOk {a : StreamAction} {produced : ℕ}
    {r : StreamMemory × CameraPc} (h : CameraMoves fps m produced a pc r)
    (hcamera : CameraOk m pc) : CameraOk r.1 r.2 := by
  cases h with
  | check point stage => exact checkStep_cameraOk hcamera
  | pausedCheck =>
      refine hcamera.leave ?_ ?_ rfl fun _ => rfl
      · dsimp only
        split <;> exact id
      · dsimp only
        split <;> rintro point ⟨⟩
  | pausedAgain requested => exact pausedAgain_cameraOk hcamera
  | process => exact processStep_cameraOk hcamera
  | started address result tick => exact startedStep_cameraOk hcamera
  | encoded address intra number result tick =>
      exact encodedStep_cameraOk hcamera
  | queueing frame => exact queueStep_cameraOk hcamera
  | storing offset content => exact storeStep_cameraOk hcamera
  | _ =>
      -- The writes of the offset, and waiting.
      exact
        { unstarted := hcamera.unstarted
          started := hcamera.started
          opening := by rintro address ⟨⟩
          working := hcamera.working
          running := by rintro point ⟨⟩ }

/-! ### The line -/

/-- Back at a place outside the work on a frame. -/
theorem LineOk.leave {line : List Content} {produced : ℕ} {pc' : CameraPc}
    (hworks : ¬ pc'.Works) (hline : DecodableLine line)
    (hcontinues : Continues fps m line produced) :
    LineOk fps m pc' (pc'.inFlight ++ line) (countPicture produced pc') := by
  rw [CameraPc.inFlight_of_not_works hworks,
    countPicture_of_not_works hworks, List.nil_append]
  exact ⟨hline, hcontinues, fun hpicture => absurd hpicture.works hworks⟩

theorem checkStep_lineOk {point : CheckPoint} {stage : CheckStage}
    {line : List Content} {produced : ℕ}
    (hcamera : CameraOk m (.check point stage))
    (h : LineOk fps m (.check point stage) line produced) :
    LineOk fps (checkStep m point stage).1 (checkStep m point stage).2
      ((checkStep m point stage).2.inFlight ++ line)
      (countPicture produced (checkStep m point stage).2) := by
  refine LineOk.leave (checkStep_not_works point stage) h.decodable ?_
  cases stage with
  | markPaused => exact Or.inl rfl
  | forceIntra => exact Or.inr (Or.inl (nextIntra_of_forced rfl))
  | markRunning =>
      have hforced := hcamera.running point rfl
      exact Or.inr (Or.inl (nextIntra_of_forced hforced))
  | _ => exact h.continues

/-- A picture that goes to the encoder continues the line. -/
theorem processStep_lineOk {line : List Content} {produced : ℕ}
    (hcamera : CameraOk m .process)
    (h : LineOk fps m .process line produced) :
    LineOk fps (processStep fps m produced).1 (processStep fps m produced).2
      ((processStep fps m produced).2.inFlight ++ line)
      (countPicture produced (processStep fps m produced).2) := by
  have htop : LineOk fps m .top (CameraPc.top.inFlight ++ line)
      (countPicture produced .top) :=
    LineOk.leave CameraPc.not_works_top h.decodable h.continues
  unfold processStep
  split
  · exact htop
  · split
    · exact htop
    · exact ⟨h.decodable, h.continues, False.elim⟩
  · split
    · exact htop
    · have hnewest : Newest
          (.picture (m.encoder.nextIntra fps) produced :: line)
          (produced + 1) := ⟨_, _, rfl, rfl⟩
      refine ⟨⟨?_, h.decodable⟩, Or.inr (Or.inr hnewest), fun _ => hnewest⟩
      cases hintra : m.encoder.nextIntra fps with
      | true => exact trivial
      | false =>
          rcases h.continues with hpaused | hnext | ⟨intra, number, hhead, heq⟩
          · rw [hcamera.working trivial] at hpaused
            cases hpaused
          · rw [hintra] at hnext
            cases hnext
          · exact ⟨intra, number, hhead, heq⟩

theorem startedStep_lineOk {line : List Content} {produced address : ℕ}
    {tick : UInt32} {result : Option ℕ}
    (hcamera : CameraOk m (.starting address))
    (h : LineOk fps m (.starting address) line produced) :
    LineOk fps (startedStep m address tick result).1
      (startedStep m address tick result).2
      ((startedStep m address tick result).2.inFlight ++ line)
      (countPicture produced (startedStep m address tick result).2) := by
  cases result with
  | none =>
      exact LineOk.leave CameraPc.not_works_top h.decodable h.continues
  | some size =>
      have hfirst := hcamera.unstarted (hcamera.opening address rfl)
      refine ⟨⟨trivial, h.decodable⟩, ?_, fun hpicture => absurd rfl hpicture⟩
      exact Or.inr (Or.inl (nextIntra_of_first hfirst))

theorem encodedStep_lineOk {line : List Content}
    {produced address number : ℕ} {intra : Bool} {tick : UInt32}
    {result : EncodeResult}
    (hreset : result = .fuseError → Encoder.nextIntra fps
      { m.encoder with frame := m.encoder.frame + 1 } = true)
    (h : LineOk fps m (.encoding address intra number)
      (.picture intra number :: line) produced) :
    LineOk fps (encodedStep m address intra number tick result).1
      (encodedStep m address intra number tick result).2
      ((encodedStep m address intra number tick result).2.inFlight ++ line)
      (countPicture produced
        (encodedStep m address intra number tick result).2) := by
  have hforced : ∀ e : Encoder, e.forced = true → ∀ m : StreamMemory,
      m.encoder = e → Continues fps m line produced := by
    rintro e he m rfl
    exact Or.inr (Or.inl (nextIntra_of_forced he))
  cases result with
  | frameReady size =>
      simp only [encodedStep]
      split
      · exact LineOk.leave CameraPc.not_works_top h.decodable.2
          (hforced _ rfl _ rfl)
      · exact ⟨h.decodable, h.continues, fun _ => h.newest trivial⟩
  | fuseError =>
      exact LineOk.leave CameraPc.not_works_top h.decodable.2
        (Or.inr (Or.inl (hreset rfl)))
  | otherError =>
      exact LineOk.leave CameraPc.not_works_top h.decodable.2
        (hforced _ rfl _ rfl)

theorem storeStep_lineOk {line : List Content} {produced offset : ℕ}
    {content : Content}
    (h : LineOk fps m (.storing offset content) line produced) :
    LineOk fps (storeStep m offset content) .top line produced := by
  refine ⟨h.decodable, ?_, False.elim⟩
  cases content with
  | header => exact h.continues
  | picture intra number => exact Or.inr (Or.inr (h.newest (by rintro ⟨⟩)))

/-- What the camera task puts into the queue leaves the line as it is; what it
loses is replaced by an intra picture. -/
theorem CameraMoves.lineOk {a : StreamAction} {produced : ℕ}
    {r : StreamMemory × CameraPc} {rest : List Content}
    (h : CameraMoves fps m produced a pc r)
    (hdrop : a = .camera → ∀ frame ∈ pc.queued,
      encoderFrameQueueSize ≤ m.busyBufferQueue.length →
        m.encoder.nextIntra fps = true)
    (hreset : ∀ tick, a = .encoded .fuseError tick →
      Encoder.nextIntra fps
        { m.encoder with frame := m.encoder.frame + 1 } = true)
    (hcamera : CameraOk m pc)
    (hline : LineOk fps m pc (pc.inFlight ++ rest) produced) :
    ∃ queued : List EncodedFrame,
      r.1.busyBufferQueue = m.busyBufferQueue ++ queued ∧
      LineOk fps r.1 r.2
        (r.2.inFlight ++
          ((queued.map EncodedFrame.content).reverse ++ rest))
        (countPicture produced r.2) := by
  have hkeep : r.1.busyBufferQueue = m.busyBufferQueue →
      LineOk fps r.1 r.2 (r.2.inFlight ++ rest) (countPicture produced r.2) →
      ∃ queued : List EncodedFrame,
        r.1.busyBufferQueue = m.busyBufferQueue ++ queued ∧
        LineOk fps r.1 r.2
          (r.2.inFlight ++
            ((queued.map EncodedFrame.content).reverse ++ rest))
          (countPicture produced r.2) := by
    intro hqueue hline
    exact ⟨[], by rw [hqueue, List.append_nil], hline⟩
  have htop : LineOk fps m pc rest produced →
      LineOk fps m .top (CameraPc.top.inFlight ++ rest)
        (countPicture produced .top) := by
    intro hline
    exact LineOk.leave CameraPc.not_works_top hline.decodable hline.continues
  cases h with
  | check point stage =>
      exact hkeep (checkStep_sameBuffer m point stage).queue
        (checkStep_lineOk hcamera hline)
  | pausedCheck =>
      refine hkeep rfl (LineOk.leave ?_ hline.decodable hline.continues)
      dsimp only
      split <;> exact id
  | pausedAgain requested =>
      refine hkeep rfl ?_
      dsimp only
      split
      · exact htop hline
      · split
        · exact ⟨hline.decodable, hline.continues, False.elim⟩
        · exact htop hline
  | process =>
      exact hkeep (processStep_sameBuffer fps m produced).queue
        (processStep_lineOk hcamera hline)
  | started address result tick =>
      exact hkeep (startedStep_sameBuffer m address tick result).queue
        (startedStep_lineOk hcamera hline)
  | encoded address intra number result tick =>
      refine hkeep
        (encodedStep_sameBuffer m address intra number tick result).queue
        (encodedStep_lineOk ?_ hline)
      rintro rfl
      exact hreset tick rfl
  | queueing frame =>
      simp only [queueStep]
      split
      · exact ⟨[frame], rfl, hline.decodable, hline.continues, hline.newest⟩
      · next hroom =>
          have hintra := hdrop rfl frame rfl (not_lt.mp hroom)
          refine ⟨[], (List.append_nil _).symm, ?_⟩
          exact LineOk.leave CameraPc.not_works_top hline.decodable.2
            (Or.inr (Or.inl hintra))
  | storing offset content =>
      exact hkeep (storeStep_queue m offset content) (storeStep_lineOk hline)
  | _ => exact hkeep rfl ⟨hline.decodable, hline.continues, hline.newest⟩

end Camera

/-! ## Steps of the system -/

section System

variable {fps : UInt32} {s s' : Streaming} {a : StreamAction}

theorem CameraOk.congr {m m' : StreamMemory} {pc : CameraPc}
    (h : CameraOk m pc) (hencoder : m'.encoder = m.encoder)
    (hpaused : m'.cameraStreamPaused = m.cameraStreamPaused) :
    CameraOk m' pc where
  unstarted := by
    rw [hencoder]
    exact h.unstarted
  started := by
    rw [hencoder]
    exact h.started
  opening := by
    rw [hencoder]
    exact h.opening
  working := by
    rw [hpaused]
    exact h.working
  running := by
    rw [hencoder]
    exact h.running

theorem LineOk.congr {m m' : StreamMemory} {pc : CameraPc}
    {line : List Content} {produced : ℕ} (h : LineOk fps m pc line produced)
    (hencoder : m'.encoder = m.encoder)
    (hpaused : m'.cameraStreamPaused = m.cameraStreamPaused) :
    LineOk fps m' pc line produced where
  decodable := h.decodable
  continues := by
    unfold Continues
    rw [hencoder, hpaused]
    exact h.continues
  newest := h.newest

/-- Frames are queued behind those that wait. -/
theorem waitingFrames_append {m : StreamMemory} {queued : List EncodedFrame}
    {pc : CameraPc} {produced : ℕ}
    (hheld : ∀ frame, s.stream.held = some frame →
      s.mem.busyBufferQueue.head? = some frame)
    (hfreeing : s.stream = .freeing → s.mem.busyBufferQueue ≠ [])
    (hqueue : m.busyBufferQueue = s.mem.busyBufferQueue ++ queued) :
    waitingFrames { s with mem := m, camera := pc, produced := produced } =
      s.waitingFrames ++ queued := by
  unfold waitingFrames
  cases hpc : s.stream with
  | sending frame =>
      have hhead := hheld frame (by rw [hpc]; rfl)
      have hne : s.mem.busyBufferQueue ≠ [] := by
        intro hnil
        rw [hnil] at hhead
        cases hhead
      simp only [hqueue]
      exact List.tail_append_of_ne_nil hne
  | freeing =>
      simp only [hqueue]
      exact List.tail_append_of_ne_nil (hfreeing hpc)
  | _ => exact hqueue

theorem ChainInv.camera_step {r : StreamMemory × CameraPc}
    (h : ChainInv fps s)
    (hmoves : CameraMoves fps s.mem s.produced a s.camera r)
    (hguard : LosesSafely fps s a)
    (hheld : ∀ frame, s.stream.held = some frame →
      s.mem.busyBufferQueue.head? = some frame)
    (hfreeing : s.stream = .freeing → s.mem.busyBufferQueue ≠ []) :
    ChainInv fps (s.withCamera r) where
  handed := h.handed
  handing := h.handing
  camera := hmoves.cameraOk h.camera
  line hrtp := by
    have hrtp' : s.mem.rtpStreamPaused = false :=
      hmoves.rtpPaused.symm.trans hrtp
    obtain ⟨queued, hqueue, hline⟩ := hmoves.lineOk
      (by rintro rfl; exact hguard hrtp')
      (by rintro tick rfl; exact hguard hrtp') h.camera (h.line hrtp')
    have hwaiting : (s.withCamera r).waitingFrames =
        s.waitingFrames ++ queued :=
      waitingFrames_append hheld hfreeing hqueue
    rw [Streaming.line, hwaiting, List.map_append, List.reverse_append,
      List.append_assoc]
    exact hline

/-- A step of the stream task that neither hands a frame over nor takes one
from the waiting ones. -/
theorem ChainInv.quiet (h : ChainInv fps s) (hhanded : s'.handed = s.handed)
    (hhanding : ∀ frame, s'.stream = .handing frame →
      s.stream = .handing frame)
    (hcamera : s'.camera = s.camera) (hproduced : s'.produced = s.produced)
    (hencoder : s'.mem.encoder = s.mem.encoder)
    (hpaused : s'.mem.cameraStreamPaused = s.mem.cameraStreamPaused)
    (hrtp : s'.mem.rtpStreamPaused = false →
      s.mem.rtpStreamPaused = false ∧ s'.waitingFrames = s.waitingFrames) :
    ChainInv fps s' where
  handed := by
    rw [hhanded]
    exact h.handed
  handing frame hpc := by
    rw [hhanded]
    exact h.handing frame (hhanding frame hpc)
  camera := by
    rw [hcamera]
    exact h.camera.congr hencoder hpaused
  line hrunning := by
    obtain ⟨hrtp', hwaiting⟩ := hrtp hrunning
    rw [Streaming.line, hcamera, hwaiting, hhanded, hproduced]
    exact (h.line hrtp').congr hencoder hpaused

/-- A step of the stream task that leaves the waiting frames alone. -/
theorem ChainInv.advance (h : ChainInv fps s) (hhanded : s'.handed = s.handed)
    (hhanding : ∀ frame, s'.stream ≠ .handing frame)
    (hcamera : s'.camera = s.camera) (hproduced : s'.produced = s.produced)
    (hencoder : s'.mem.encoder = s.mem.encoder)
    (hpaused : s'.mem.cameraStreamPaused = s.mem.cameraStreamPaused)
    (hrtp : s'.mem.rtpStreamPaused = s.mem.rtpStreamPaused)
    (hwaiting : s'.waitingFrames = s.waitingFrames) : ChainInv fps s' := by
  refine h.quiet hhanded ?_ hcamera hproduced hencoder hpaused ?_
  · intro frame hpc
    exact absurd hpc (hhanding frame)
  · intro hrunning
    exact ⟨hrtp.symm.trans hrunning, hwaiting⟩

/-- The head of the queue can be decoded behind what was handed over. -/
theorem ChainInv.head (h : ChainInv fps s)
    (hrtp : s.mem.rtpStreamPaused = false) {frame : EncodedFrame}
    (hhead : s.waitingFrames.head? = some frame) :
    DecodableLine (frame.content :: s.handed) := by
  have hline := (h.line hrtp).decodable
  obtain ⟨rest, hrest⟩ := List.head?_eq_some_iff.mp hhead
  rw [Streaming.line, hrest, List.map_cons, List.reverse_cons,
    List.append_assoc] at hline
  exact hline.of_append.of_append

theorem ChainInv.stream_step (h : ChainInv fps s) {now : UInt32}
    (hguard : LosesSafely fps s (.stream now))
    (hheld : ∀ frame, s.stream.held = some frame →
      s.mem.busyBufferQueue.head? = some frame) :
    ChainInv fps (streamStep fps s now) := by
  cases hpc : s.stream with
  | flushFree next =>
      have hpaused : s.mem.rtpStreamPaused = true := hguard (by rw [hpc]; rfl)
      simp only [streamStep, hpc]
      refine h.quiet rfl ?_ rfl rfl rfl rfl ?_
      · rintro frame ⟨⟩
      · intro hrunning
        exact absurd (hpaused.symm.trans hrunning) (by decide)
  | peeked frame =>
      have hhead := hheld frame (by rw [hpc]; rfl)
      simp only [streamStep, hpc]
      split
      · refine h.advance rfl ?_ rfl rfl rfl rfl rfl ?_
        · rintro frame ⟨⟩
        · simp only [waitingFrames, goto, hpc]
      · next hrunning =>
          rw [Bool.not_eq_true] at hrunning
          have hwaiting : s.waitingFrames.head? = some frame := by
            simp only [waitingFrames, hpc]
            exact hhead
          refine ⟨h.handed, ?_, h.camera, ?_⟩
          · rintro frame' ⟨⟩
            exact h.head hrunning hwaiting
          · intro _
            have hline := h.line hrunning
            simp only [Streaming.line, waitingFrames, hpc] at hline
            exact hline
  | handing frame =>
      have hhead := hheld frame (by rw [hpc]; rfl)
      obtain ⟨rest, hrest⟩ := List.head?_eq_some_iff.mp hhead
      simp only [streamStep, hpc]
      refine ⟨h.handing frame hpc, ?_, h.camera, ?_⟩
      · rintro frame' ⟨⟩
      · intro hrunning
        have hline := h.line hrunning
        simp only [Streaming.line, waitingFrames, hpc, hrest, List.map_cons,
          List.reverse_cons, List.append_assoc] at hline
        simp only [Streaming.line, waitingFrames, hrest]
        exact hline
  | splash start =>
      simp only [streamStep, hpc]
      split
      · refine h.advance rfl ?_ rfl rfl rfl rfl rfl ?_
        · rintro frame ⟨⟩
        · simp only [waitingFrames, hpc]
      · refine h.advance rfl ?_ rfl rfl rfl rfl rfl ?_
        · rintro frame ⟨⟩
        · simp only [waitingFrames, goto, hpc]
  | flushReset next =>
      obtain ⟨offset, hreset⟩ := resetOffset_eq s.mem
      simp only [streamStep, hpc, hreset]
      refine h.advance rfl ?_ rfl rfl rfl rfl rfl ?_
      · rintro frame ⟨⟩
      · simp only [waitingFrames, hpc]
  | resetting =>
      obtain ⟨offset, hreset⟩ := resetOffset_eq s.mem
      simp only [streamStep, hpc, hreset]
      refine h.advance rfl ?_ rfl rfl rfl rfl rfl ?_
      · rintro frame ⟨⟩
      · simp only [waitingFrames, hpc]
  | _ =>
      simp only [streamStep, hpc]
      repeat' split
      all_goals
        refine h.advance rfl ?_ rfl rfl rfl rfl rfl ?_
        · rintro frame ⟨⟩
        · simp only [waitingFrames, goto, receive, hpc]

theorem ChainInv.toggle_step (h : ChainInv fps s)
    (hguard : LosesSafely fps s .toggle) : ChainInv fps (toggleStep s) := by
  unfold toggleStep
  split
  · split
    · exact h.quiet rfl (fun _ => id) rfl rfl rfl rfl fun hrtp => ⟨hrtp, rfl⟩
    · refine h.quiet rfl (fun _ => id) rfl rfl rfl rfl ?_
      rintro ⟨⟩
  · exact h.quiet rfl (fun _ => id) rfl rfl rfl rfl fun hrtp => ⟨hrtp, rfl⟩
  · next htoggle =>
      -- The camera task has gone through the pause: the line starts again.
      obtain ⟨hpaused, hempty⟩ := hguard htoggle
      have hidle : ¬ s.camera.Works := by
        intro hworks
        rw [h.camera.working hworks] at hpaused
        cases hpaused
      refine ⟨h.handed, h.handing, h.camera.congr rfl rfl, ?_⟩
      intro _
      have hwaiting : s.waitingFrames = [] := by
        unfold waitingFrames
        rw [hempty]
        split <;> rfl
      have hline : s.line = s.handed := by
        rw [Streaming.line, CameraPc.inFlight_of_not_works hidle, hwaiting]
        rfl
      change LineOk fps _ s.camera s.line s.produced
      rw [hline]
      exact ⟨h.handed, Or.inl hpaused,
        fun hpicture => absurd hpicture.works hidle⟩

end System

/-! ## Runs -/

theorem streamingMachine_chainInv {fps : UInt32} {s : Streaming}
    (h : (streamingMachine fps).ReachableVia (LosesSafely fps) s) :
    ChainInv fps s := by
  have hinit : ∀ s, (streamingMachine fps).init s → ChainInv fps s := by
    rintro s ⟨hmem, hcamera, hstream, -, -, -, hsends⟩
    have hhanded : s.handed = [] := by
      rw [handed, hsends]
      rfl
    have hline : s.line = [] := by
      rw [Streaming.line, waitingFrames, hstream, hmem, hcamera, hhanded]
      rfl
    refine ⟨?_, ?_, ?_, ?_⟩
    · rw [hhanded]
      exact trivial
    · intro frame hpc
      rw [hstream] at hpc
      cases hpc
    · rw [hmem, hcamera]
      refine ⟨fun _ => rfl, False.elim, ?_, False.elim, ?_⟩
      · rintro address ⟨⟩
      · rintro point ⟨⟩
    · intro _
      rw [hline, hmem, hcamera]
      exact ⟨trivial, Or.inr (Or.inl (nextIntra_of_first rfl)), False.elim⟩
  have hstep : ∀ s a s',
      (streamingMachine fps).ReachableVia (LosesSafely fps) s →
      ChainInv fps s → LosesSafely fps s a →
      (streamingMachine fps).step s a = some s' → ChainInv fps s' := by
    intro s a s' hreach hs hguard hstep
    obtain ⟨hheld, hfreeing⟩ := streamingMachine_held hreach
    rcases streamingMachine_step_cases hstep with
      ⟨r, hmoves, rfl⟩ | ⟨now, rfl, rfl⟩ | ⟨rfl, rfl⟩
    · exact hs.camera_step hmoves hguard hheld hfreeing
    · exact hs.stream_step hguard hheld
    · exact hs.toggle_step hguard
  exact Machine.ReachableVia.strengthen hinit hstep h

/-- In every run of harmless losses each predicted picture handed to the sender
comes directly behind the picture of the encoder's call before it. -/
theorem streamingMachine_decodable {fps : UInt32} {s : Streaming}
    (h : (streamingMachine fps).ReachableVia (LosesSafely fps) s) :
    DecodableLine s.handed :=
  (streamingMachine_chainInv h).handed

/-- A pause that the camera task goes through: picture 1 is flushed, and the
stream goes on with an intra picture. -/
def pauseRun : List StreamAction :=
  .stream 0 :: startEncoder 20 0 ++ encodePicture 900 0 ++
    (List.replicate 2 (handFrame ++ freeFrame)).flatten ++
    encodePicture 900 0 ++ [.toggle, .toggle] ++
    List.replicate 7 (.stream 0) ++ List.replicate 9 .camera ++
    [.toggle, .toggle] ++ List.replicate 16 .camera ++
    .encoded (.frameReady 900) 0 :: queueFrame ++ handFrame

theorem streamingMachine_decodable_pause :
    ∃ s : Streaming,
      s.handed = [.picture true 2, .picture true 0, .header] ∧
        DecodableLine s.handed := by
  have hrun : ((streamingMachine cameraFps).run newStreaming pauseRun).map
      handed = some [.picture true 2, .picture true 0, .header] := by
    decide +kernel
  have hmeets : (streamingMachine cameraFps).Meets (LosesSafely cameraFps)
      newStreaming pauseRun := by
    decide +kernel
  obtain ⟨s, hs, hend⟩ := Option.map_eq_some_iff.mp hrun
  have hreach : (streamingMachine cameraFps).ReachableVia
      (LosesSafely cameraFps) s :=
    (Machine.ReachableVia.init (newStreaming_init _)).run _ hmeets hs
  exact ⟨s, hend, streamingMachine_decodable hreach⟩

/-- The queue is full when picture 4 is ready: the picture is dropped, and
picture 5, which builds on it, is sent behind picture 3. -/
theorem streamingMachine_not_decodable :
    ∃ s, (streamingMachine cameraFps).Reachable s ∧
      ¬ DecodableLine s.handed := by
  have hrun : ((streamingMachine cameraFps).run newStreaming
      (.stream 0 :: startEncoder 20 0 ++
        (List.replicate 4 (encodePicture 900 0)).flatten ++ toEncoder ++
        [.encoded (.frameReady 900) 0, .camera] ++ handFrame ++ freeFrame ++
        encodePicture 900 0 ++
        (List.replicate 5 (handFrame ++ freeFrame)).flatten)).map handed =
      some [.picture false 5, .picture false 3, .picture false 2,
        .picture false 1, .picture true 0, .header] := by
    decide +kernel
  obtain ⟨s, hs, hend⟩ := Option.map_eq_some_iff.mp hrun
  refine ⟨s, Machine.reachable_of_run (newStreaming_init _) _ hs, ?_⟩
  rw [hend]
  rintro ⟨⟨intra, number, hprev, heq⟩, -⟩
  cases hprev
  cases heq

end RtpMulticast
