import RtpMulticast.Support.BumpQueue
import RtpMulticast.Streaming.StreamTask

/-!
# Regions of the encoder output buffer

The frame queue, the shared offset and the position of the camera task between
its accesses to them are a bump allocator behind a queue: the camera task
produces, and each removal by the stream task consumes.  Every step of the
system is a step of that allocator or leaves it where it is.

Hence the queued frames and the room of the encoder are disjoint in every run
in which a frame is queued only while the offset still is where the frame
starts.  A reset of the offset under a frame that is being encoded makes the
next frame overwrite it.
-/

namespace RtpMulticast

open Streaming BumpQueue

/-! ## The system as a bump allocator -/

/-- The bytes of the encoder output in `_encoder_stream`. -/
def EncodedFrame.region (frame : EncodedFrame) : Region :=
  ⟨frame.data, frame.encSize⟩

def CameraPc.phase : CameraPc → Phase
  | .starting address | .encoding address _ _ => .writing address
  | .queueing frame => .writing frame.data
  | .adding encSize _ => .placed encSize
  | .loading _ => .added
  | .storing offset _ => .aligning offset
  | _ => .idle

def bumpState (m : StreamMemory) (pc : CameraPc) : BumpQueue.State where
  queue := m.busyBufferQueue.map EncodedFrame.region
  offset := m.encoderStreamOffset
  phase := pc.phase

/-- The camera task queues a frame only while the offset is where the frame
starts. -/
def QueuesFresh (s : Streaming) (a : StreamAction) : Prop :=
  a = .camera → ∀ frame ∈ s.camera.queued,
    s.mem.busyBufferQueue.length < encoderFrameQueueSize →
      s.mem.encoderStreamOffset = frame.data

instance (s : Streaming) (a : StreamAction) : Decidable (QueuesFresh s a) :=
  inferInstanceAs (Decidable (a = .camera → ∀ frame ∈ s.camera.queued,
    s.mem.busyBufferQueue.length < encoderFrameQueueSize →
      s.mem.encoderStreamOffset = frame.data))

/-- At most one fresh step of the allocator leads from `t` to `t'`. -/
def Follows (t t' : BumpQueue.State) : Prop :=
  t' = t ∨ ∃ b, Fresh t b ∧ (machine align32).step t b = some t'

section Simulation

variable {fps : UInt32} {s : Streaming} {a : StreamAction}

theorem bumpState_eq {m m' : StreamMemory} {pc pc' : CameraPc}
    (hsame : SameBuffer m m') (hphase : pc'.phase = pc.phase) :
    bumpState m' pc' = bumpState m pc := by
  rw [bumpState, bumpState, hsame.queue, hsame.offset, hphase]

/-- The camera task gives up the room it has taken. -/
theorem follows_discard {m m' : StreamMemory} {pc pc' : CameraPc} {start : ℕ}
    (hsame : SameBuffer m m') (hpc : pc.phase = .writing start)
    (hpc' : pc'.phase = .idle) :
    Follows (bumpState m pc) (bumpState m' pc') := by
  refine Or.inr ⟨.discard, trivial, ?_⟩
  simp only [machine, bumpState, hpc, hpc', hsame.queue, hsame.offset]

theorem afterPause_phase (point : CheckPoint) :
    point.afterPause.phase = .idle := by
  cases point <;> rfl

theorem afterResume_phase (point : CheckPoint) :
    point.afterResume.phase = .idle := by
  cases point <;> rfl

theorem checkStep_phase (m : StreamMemory) (point : CheckPoint)
    (stage : CheckStage) : (checkStep m point stage).2.phase = .idle := by
  cases stage with
  | testPause =>
      simp only [checkStep]
      split <;> rfl
  | testResume =>
      simp only [checkStep]
      split
      · rfl
      · exact afterResume_phase point
  | markPaused => exact afterPause_phase point
  | setRequest => exact afterResume_phase point
  | _ => rfl

/-- A buffer for the next frame starts at the offset. -/
theorem getNextFrameBuffer_address {offset address size : ℕ}
    (h : getNextFrameBuffer offset = some (address, size)) : address = offset := by
  unfold getNextFrameBuffer at h
  split at h
  · cases h
  · cases h
    rfl

/-- Up to the call of the encoder: the room behind the offset is taken. -/
theorem processStep_follows (m : StreamMemory) (number : ℕ) :
    Follows (bumpState m .process)
      (bumpState (processStep fps m number).1
        (processStep fps m number).2) := by
  unfold processStep
  split
  · exact Or.inl rfl
  · split
    · exact Or.inl rfl
    · next address _ hroom =>
        rw [getNextFrameBuffer_address hroom]
        exact Or.inr ⟨.take, trivial, rfl⟩
  · split
    · exact Or.inl rfl
    · next address _ hroom =>
        rw [getNextFrameBuffer_address hroom]
        exact Or.inr ⟨.take, trivial, rfl⟩

theorem queueStep_follows {m : StreamMemory} {frame : EncodedFrame}
    (hfresh : m.busyBufferQueue.length < encoderFrameQueueSize →
      m.encoderStreamOffset = frame.data) :
    Follows (bumpState m (.queueing frame))
      (bumpState (queueStep m frame).1 (queueStep m frame).2) := by
  unfold queueStep
  split
  · next hroom =>
      refine Or.inr ⟨.place frame.encSize, ?_, ?_⟩
      · rintro start ⟨⟩
        exact hfresh hroom
      · simp [machine, bumpState, CameraPc.phase, EncodedFrame.region]
  · exact follows_discard ⟨rfl, rfl, rfl⟩ rfl rfl

/-- Each step of the camera task is a step of the producer. -/
theorem CameraMoves.follows {m : StreamMemory} {produced : ℕ} {pc : CameraPc}
    {r : StreamMemory × CameraPc} (h : CameraMoves fps m produced a pc r)
    (hfresh : a = .camera → ∀ frame ∈ pc.queued,
      m.busyBufferQueue.length < encoderFrameQueueSize →
        m.encoderStreamOffset = frame.data) :
    Follows (bumpState m pc) (bumpState r.1 r.2) := by
  cases h with
  | check point stage =>
      exact Or.inl (bumpState_eq (checkStep_sameBuffer m point stage)
        (checkStep_phase m point stage))
  | pausedCheck =>
      refine Or.inl (bumpState_eq ⟨rfl, rfl, rfl⟩ ?_)
      split <;> rfl
  | pausedAgain requested =>
      refine Or.inl (bumpState_eq ⟨rfl, rfl, rfl⟩ ?_)
      split
      · rfl
      · split <;> rfl
  | process => exact processStep_follows m produced
  | started address result tick =>
      have hsame := startedStep_sameBuffer m address tick result
      cases result with
      | none => exact follows_discard hsame rfl rfl
      | some size => exact Or.inl (bumpState_eq hsame rfl)
  | encoded address intra number result tick =>
      have hsame := encodedStep_sameBuffer m address intra number tick result
      cases result with
      | frameReady size =>
          simp only [encodedStep] at hsame ⊢
          split at hsame
          · next hzero =>
              rw [if_pos hzero]
              exact follows_discard hsame rfl rfl
          · next hzero =>
              rw [if_neg hzero]
              exact Or.inl (bumpState_eq hsame rfl)
      | fuseError => exact follows_discard hsame rfl rfl
      | otherError => exact follows_discard hsame rfl rfl
  | queueing frame => exact queueStep_follows (hfresh rfl frame rfl)
  | adding encSize content => exact Or.inr ⟨.add, trivial, rfl⟩
  | loading content => exact Or.inr ⟨.load, trivial, rfl⟩
  | storing offset content =>
      refine Or.inr ⟨.store, trivial, ?_⟩
      simp only [machine, bumpState, storeStep_queue, storeStep_offset]
      rfl
  | _ => exact Or.inl rfl

theorem receive_follows (m : StreamMemory) (pc : CameraPc) :
    Follows (bumpState m pc) (bumpState (receive m) pc) := by
  refine Or.inr ⟨.pop, trivial, ?_⟩
  simp only [machine, bumpState, receive, List.map_tail]

theorem resetOffset_follows (m : StreamMemory) (pc : CameraPc) :
    Follows (bumpState m pc) (bumpState (resetOffset m) pc) := by
  unfold resetOffset
  split
  · next hempty =>
      rw [List.length_eq_zero_iff] at hempty
      refine Or.inr ⟨.reset, trivial, ?_⟩
      simp only [machine, bumpState, hempty, List.map_nil, if_true]
  · exact Or.inl rfl

/-- Each step of the stream task is a step of the consumer. -/
theorem streamStep_follows (now : UInt32) :
    Follows (bumpState s.mem s.camera)
      (bumpState (streamStep fps s now).mem
        (streamStep fps s now).camera) := by
  cases hpc : s.stream with
  | flushFree next =>
      simp only [streamStep, hpc]
      exact receive_follows s.mem s.camera
  | flushReset next =>
      simp only [streamStep, hpc]
      exact resetOffset_follows s.mem s.camera
  | freeing =>
      simp only [streamStep, hpc]
      exact receive_follows s.mem s.camera
  | resetting =>
      simp only [streamStep, hpc]
      exact resetOffset_follows s.mem s.camera
  | _ =>
      left
      simp only [streamStep, hpc]
      repeat' split
      all_goals rfl

/-- Runs that queue fresh frames only are runs of the allocator. -/
theorem streamingMachine_simulates
    (h : (streamingMachine fps).ReachableVia QueuesFresh s) :
    (machine align32).ReachableVia Fresh (bumpState s.mem s.camera) := by
  have hinit : ∀ s, (streamingMachine fps).init s →
      (machine align32).init (bumpState s.mem s.camera) := by
    rintro s ⟨hmem, hcamera, -⟩
    rw [hmem, hcamera]
    exact ⟨rfl, rfl, rfl⟩
  have hstep : ∀ s a s', (streamingMachine fps).ReachableVia QueuesFresh s →
      QueuesFresh s a → (streamingMachine fps).step s a = some s' →
        Follows (bumpState s.mem s.camera) (bumpState s'.mem s'.camera) := by
    intro s a s' _ hfresh hstep
    rcases streamingMachine_step_cases hstep with
      ⟨r, hmoves, rfl⟩ | ⟨now, -, rfl⟩ | ⟨-, rfl⟩
    · exact hmoves.follows hfresh
    · exact streamStep_follows now
    · obtain ⟨rtp, pause, resume, toggle, heq, -⟩ := toggleStep_cases (s := s)
      rw [heq]
      exact Or.inl rfl
  exact Machine.ReachableVia.simulate hinit hstep h

end Simulation

/-! ## Disjoint regions -/

/-- The position the encoder writes from, or has written from up to the
queueing of its frame. -/
def CameraPc.writesFrom : CameraPc → Option ℕ
  | .starting address | .encoding address _ _ => some address
  | .queueing frame => some frame.data
  | _ => none

/-- The queued frames, among them the one the stream task is sending, and the
room of the encoder have no byte in common. -/
structure RegionsDisjoint (s : Streaming) : Prop where
  frames : s.mem.busyBufferQueue.Pairwise fun f f' =>
    Disjoint f.region.bytes f'.region.bytes
  room : ∀ address, s.camera.writesFrom = some address →
    ∀ frame ∈ s.mem.busyBufferQueue,
      Disjoint frame.region.bytes (Set.Ico address encoderH264Size)
  sending : ∀ frame, s.stream.held = some frame →
    frame ∈ s.mem.busyBufferQueue

theorem CameraPc.phase_of_writesFrom {pc : CameraPc} {address : ℕ}
    (h : pc.writesFrom = some address) : pc.phase = .writing address := by
  cases pc <;> cases h <;> rfl

/-- In every run that queues a frame only while the offset is where the frame
starts, the regions in use are disjoint. -/
theorem streamingMachine_regionsDisjoint {fps : UInt32} {s : Streaming}
    (h : (streamingMachine fps).ReachableVia QueuesFresh s) :
    RegionsDisjoint s := by
  have hbump := streamingMachine_simulates h
  refine ⟨?_, ?_, ?_⟩
  · have hqueue := machine_queue_disjoint le_align32 hbump
    rw [bumpState, List.pairwise_map] at hqueue
    exact hqueue
  · intro address haddress frame hframe
    have hroom := machine_room_disjoint le_align32 hbump
      (CameraPc.phase_of_writesFrom haddress)
      (List.mem_map_of_mem (f := EncodedFrame.region) hframe)
    exact hroom.mono_right Set.Ico_subset_Ici_self
  · intro frame hheld
    exact List.mem_of_head? ((streamingMachine_held h).1 frame hheld)

/-- The header is queued, the first picture is being encoded behind it. -/
def secondFrameRun : List StreamAction :=
  .stream 0 :: startEncoder 32 0 ++ toEncoder

theorem streamingMachine_regionsDisjoint_second :
    ∃ s, s.mem.busyBufferQueue = [⟨0, encoderH264Size, 32, 0, .header⟩] ∧
      s.camera = .encoding 32 true 0 ∧ RegionsDisjoint s := by
  have hrun : ((streamingMachine cameraFps).run newStreaming
      secondFrameRun).map (fun s => (s.mem.busyBufferQueue, s.camera)) =
      some ([⟨0, encoderH264Size, 32, 0, .header⟩], .encoding 32 true 0) := by
    decide +kernel
  have hmeets : (streamingMachine cameraFps).Meets QueuesFresh newStreaming
      secondFrameRun := by
    decide +kernel
  obtain ⟨s, hs, hend⟩ := Option.map_eq_some_iff.mp hrun
  rw [Prod.mk.injEq] at hend
  have hreach : (streamingMachine cameraFps).ReachableVia QueuesFresh s :=
    (Machine.ReachableVia.init (newStreaming_init _)).run _ hmeets hs
  exact ⟨s, hend.1, hend.2, streamingMachine_regionsDisjoint hreach⟩

/-- The header is sent and removed while the first picture is being encoded:
the offset starts again at 0, and the second picture is written over the first
one, which waits in the queue. -/
theorem streamingMachine_not_regionsDisjoint :
    ∃ s, (streamingMachine cameraFps).Reachable s ∧ ¬ RegionsDisjoint s := by
  have hrun : ((streamingMachine cameraFps).run newStreaming
      (secondFrameRun ++ handFrame ++ List.replicate 3 (.stream 0) ++
        .encoded (.frameReady 100) 33 :: queueFrame ++ toEncoder)).map
      (fun s => (s.mem.busyBufferQueue, s.camera)) =
      some ([⟨32, encoderH264Size - 32, 100, 33, .picture true 0⟩],
        .encoding 128 false 1) := by
    decide +kernel
  obtain ⟨s, hs, hend⟩ := Option.map_eq_some_iff.mp hrun
  rw [Prod.mk.injEq] at hend
  obtain ⟨hqueue, hcamera⟩ := hend
  refine ⟨s, Machine.reachable_of_run (newStreaming_init _) _ hs, ?_⟩
  intro hdisjoint
  have hroom := hdisjoint.room 128 (by rw [hcamera]; rfl)
    ⟨32, encoderH264Size - 32, 100, 33, .picture true 0⟩
    (by rw [hqueue]; simp)
  rw [Set.disjoint_left] at hroom
  exact hroom (a := 128) ⟨by decide, by decide⟩ ⟨by decide, by decide⟩

end RtpMulticast
