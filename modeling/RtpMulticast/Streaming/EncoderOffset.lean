import RtpMulticast.Streaming.Regions

/-!
# The encoder offset stays in the buffer

The offset into `_encoder_stream` is read, added to and aligned by the camera
task in separate steps, and the stream task may set it to 0 between any two of
them.  What survives such a reset is an upper bound: while the camera task
holds a position the offset is at most that position, and the frame written
there ends inside the buffer.  The buffer ends at a multiple of 32, so aligning
an offset inside it stays inside.
-/

namespace RtpMulticast

open Streaming

/-! ## The bound on the encoder -/

/-- A stream size given by the encoder is at most the `outBufSize` it was
called with. -/
def FitsOutBuf (pc : CameraPc) (streamSize : ℕ) : Prop :=
  ∀ address ∈ pc.writesFrom, streamSize ≤ encoderH264Size - address

instance (pc : CameraPc) (streamSize : ℕ) :
    Decidable (FitsOutBuf pc streamSize) :=
  inferInstanceAs (Decidable (∀ address ∈ pc.writesFrom, _))

/-- The encoder reports no more than its output buffer holds. -/
def EncoderFits (s : Streaming) : StreamAction → Prop
  | .started (some streamSize) _ => FitsOutBuf s.camera streamSize
  | .encoded (.frameReady streamSize) _ => FitsOutBuf s.camera streamSize
  | _ => True

instance (s : Streaming) (a : StreamAction) : Decidable (EncoderFits s a) := by
  unfold EncoderFits
  split <;> infer_instance

/-! ## The invariant -/

/-- A frame that starts at an aligned position and ends inside the buffer. -/
structure EncodedFrame.Inside (frame : EncodedFrame) : Prop where
  aligned : 32 ∣ frame.data
  fits : frame.data + frame.encSize ≤ encoderH264Size

/-- An aligned position inside the buffer. -/
structure PositionInside (address : ℕ) : Prop where
  aligned : 32 ∣ address
  inside : address ≤ encoderH264Size

/-- What is known of the offset at each place of the camera task. -/
def CameraPc.Within (offset : ℕ) : CameraPc → Prop
  | .starting address | .encoding address _ _ =>
      PositionInside address ∧ offset ≤ address ∧ 32 ∣ offset
  | .queueing frame => frame.Inside ∧ offset ≤ frame.data ∧ 32 ∣ offset
  | .adding encSize _ => offset + encSize ≤ encoderH264Size
  | .loading _ => True
  | .storing loaded _ => loaded ≤ encoderH264Size
  | _ => 32 ∣ offset

/-- The offset, the queued frames and the place of the camera task. -/
structure OffsetInv (m : StreamMemory) (pc : CameraPc) : Prop where
  offset_le : m.encoderStreamOffset ≤ encoderH264Size
  frames : ∀ frame ∈ m.busyBufferQueue, frame.Inside
  within : pc.Within m.encoderStreamOffset

/-- The start of the buffer is good at every place. -/
theorem CameraPc.Within.reset {pc : CameraPc} {offset : ℕ}
    (h : pc.Within offset) : pc.Within 0 := by
  cases pc with
  | starting address => exact ⟨h.1, Nat.zero_le _, Nat.dvd_zero 32⟩
  | encoding address intra number =>
      exact ⟨h.1, Nat.zero_le _, Nat.dvd_zero 32⟩
  | queueing frame => exact ⟨h.1, Nat.zero_le _, Nat.dvd_zero 32⟩
  | adding encSize content =>
      simp only [CameraPc.Within] at h ⊢
      omega
  | loading content => trivial
  | storing loaded content => exact h
  | _ => exact Nat.dvd_zero 32

theorem dvd_align32 (offset : ℕ) : 32 ∣ align32 offset :=
  Nat.dvd_mul_left 32 _

/-- The end of the buffer is aligned, so aligning does not pass it. -/
theorem align32_le {offset : ℕ} (h : offset ≤ encoderH264Size) :
    align32 offset ≤ encoderH264Size := by
  unfold align32
  unfold encoderH264Size at h ⊢
  omega

/-! ## Steps of the camera task -/

section Camera

variable {fps : UInt32} {s : Streaming} {a : StreamAction}

theorem OffsetInv.congr {m m' : StreamMemory} {pc pc' : CameraPc}
    (h : OffsetInv m pc) (hsame : SameBuffer m m')
    (hwithin : pc'.Within m.encoderStreamOffset) : OffsetInv m' pc' := by
  refine ⟨?_, ?_, ?_⟩
  · rw [hsame.offset]
    exact h.offset_le
  · rw [hsame.queue]
    exact h.frames
  · rw [hsame.offset]
    exact hwithin

/-- Places without a position ask for an aligned offset only. -/
theorem CameraPc.within_of_idle {pc : CameraPc} {offset : ℕ}
    (hidle : pc.phase = .idle) (hoffset : 32 ∣ offset) : pc.Within offset := by
  cases pc with
  | starting _ | encoding _ _ _ | queueing _ | adding _ _ | loading _
  | storing _ _ => simp [CameraPc.phase] at hidle
  | _ => exact hoffset

/-- Up to the call of the encoder: it gets the position of the offset. -/
theorem processStep_offsetInv {m : StreamMemory} (number : ℕ)
    (h : OffsetInv m .process) :
    OffsetInv (processStep fps m number).1 (processStep fps m number).2 := by
  have hsame := processStep_sameBuffer fps m number
  have haligned : 32 ∣ m.encoderStreamOffset := h.within
  have hposition : PositionInside m.encoderStreamOffset :=
    ⟨haligned, h.offset_le⟩
  refine h.congr hsame ?_
  unfold processStep
  split
  · exact haligned
  · split
    · exact haligned
    · next address _ hroom =>
        rw [getNextFrameBuffer_address hroom]
        exact ⟨hposition, le_rfl, haligned⟩
  · split
    · exact haligned
    · next address _ hroom =>
        rw [getNextFrameBuffer_address hroom]
        exact ⟨hposition, le_rfl, haligned⟩

/-- A frame of at most `outBufSize` bytes ends inside the buffer. -/
theorem PositionInside.frame {address size maxSize : ℕ} {timestamp : UInt32}
    {content : Content} (h : PositionInside address)
    (hfits : size ≤ encoderH264Size - address) :
    EncodedFrame.Inside ⟨address, maxSize, size, timestamp, content⟩ := by
  refine ⟨h.aligned, ?_⟩
  have hinside := h.inside
  simp only
  omega

theorem startedStep_offsetInv {m : StreamMemory} {address : ℕ} (tick : UInt32)
    {result : Option ℕ} (h : OffsetInv m (.starting address))
    (hfits : ∀ size ∈ result, size ≤ encoderH264Size - address) :
    OffsetInv (startedStep m address tick result).1
      (startedStep m address tick result).2 := by
  have hsame := startedStep_sameBuffer m address tick result
  obtain ⟨hposition, hle, haligned⟩ := h.within
  refine h.congr hsame ?_
  cases result with
  | none => exact haligned
  | some size => exact ⟨hposition.frame (hfits size rfl), hle, haligned⟩

theorem encodedStep_offsetInv {m : StreamMemory} {address number : ℕ}
    {intra : Bool} (tick : UInt32) {result : EncodeResult}
    (h : OffsetInv m (.encoding address intra number))
    (hfits : ∀ size, result = .frameReady size →
      size ≤ encoderH264Size - address) :
    OffsetInv (encodedStep m address intra number tick result).1
      (encodedStep m address intra number tick result).2 := by
  have hsame := encodedStep_sameBuffer m address intra number tick result
  obtain ⟨hposition, hle, haligned⟩ := h.within
  refine h.congr hsame ?_
  cases result with
  | frameReady size =>
      simp only [encodedStep]
      split
      · exact haligned
      · exact ⟨hposition.frame (hfits size rfl), hle, haligned⟩
  | fuseError => exact haligned
  | otherError => exact haligned

theorem queueStep_offsetInv {m : StreamMemory} {frame : EncodedFrame}
    (h : OffsetInv m (.queueing frame)) :
    OffsetInv (queueStep m frame).1 (queueStep m frame).2 := by
  obtain ⟨hframe, hle, haligned⟩ := h.within
  have hfits := hframe.fits
  unfold queueStep
  split
  · refine ⟨h.offset_le, ?_, ?_⟩
    · intro queued hqueued
      rcases List.mem_append.mp hqueued with hold | hnew
      · exact h.frames queued hold
      · rw [List.mem_singleton.mp hnew]
        exact hframe
    · simp only [CameraPc.Within]
      omega
  · exact ⟨h.offset_le, h.frames, haligned⟩

theorem storeStep_offsetInv {m : StreamMemory} {loaded : ℕ} {content : Content}
    (h : OffsetInv m (.storing loaded content)) :
    OffsetInv (storeStep m loaded content) .top := by
  have hloaded : loaded ≤ encoderH264Size := h.within
  refine ⟨?_, ?_, ?_⟩
  · rw [storeStep_offset]
    exact align32_le hloaded
  · rw [storeStep_queue]
    exact h.frames
  · rw [storeStep_offset]
    exact dvd_align32 loaded

/-- Each step of the camera task keeps the invariant. -/
theorem CameraMoves.offsetInv {m : StreamMemory} {produced : ℕ} {pc : CameraPc}
    {r : StreamMemory × CameraPc} (hmoves : CameraMoves fps m produced a pc r)
    (hcamera : s.camera = pc) (hfits : EncoderFits s a)
    (h : OffsetInv m pc) : OffsetInv r.1 r.2 := by
  cases hmoves with
  | check point stage =>
      exact h.congr (checkStep_sameBuffer m point stage)
        (CameraPc.within_of_idle (checkStep_phase m point stage) h.within)
  | waitFrame => exact ⟨h.offset_le, h.frames, h.within⟩
  | pausedCheck =>
      refine ⟨h.offset_le, h.frames, CameraPc.within_of_idle ?_ h.within⟩
      split <;> rfl
  | readRequest => exact ⟨h.offset_le, h.frames, h.within⟩
  | pausedAgain requested =>
      refine ⟨h.offset_le, h.frames, CameraPc.within_of_idle ?_ h.within⟩
      split
      · rfl
      · split <;> rfl
  | process => exact processStep_offsetInv produced h
  | started address result tick =>
      apply startedStep_offsetInv tick h
      intro size hsize
      rw [Option.mem_def.mp hsize] at hfits
      apply hfits
      rw [hcamera]
      rfl
  | encoded address intra number result tick =>
      apply encodedStep_offsetInv tick h
      intro size hsize
      rw [hsize] at hfits
      apply hfits
      rw [hcamera]
      rfl
  | queueing frame => exact queueStep_offsetInv h
  | adding encSize content => exact ⟨h.within, h.frames, trivial⟩
  | loading content => exact ⟨h.offset_le, h.frames, h.offset_le⟩
  | storing loaded content => exact storeStep_offsetInv h

end Camera

/-! ## Steps of the stream task -/

section Stream

variable {fps : UInt32} {s : Streaming}

theorem OffsetInv.receive {m : StreamMemory} {pc : CameraPc}
    (h : OffsetInv m pc) : OffsetInv (receive m) pc :=
  ⟨h.offset_le, fun frame hframe => h.frames frame (List.mem_of_mem_tail hframe),
    h.within⟩

theorem OffsetInv.resetOffset {m : StreamMemory} {pc : CameraPc}
    (h : OffsetInv m pc) : OffsetInv (resetOffset m) pc := by
  unfold Streaming.resetOffset
  split
  · exact ⟨Nat.zero_le _, h.frames, h.within.reset⟩
  · exact h

theorem streamStep_offsetInv (now : UInt32) (h : OffsetInv s.mem s.camera) :
    OffsetInv (streamStep fps s now).mem (streamStep fps s now).camera := by
  cases hpc : s.stream with
  | flushFree next =>
      simp only [streamStep, hpc]
      exact h.receive
  | flushReset next =>
      simp only [streamStep, hpc]
      exact h.resetOffset
  | freeing =>
      simp only [streamStep, hpc]
      exact h.receive
  | resetting =>
      simp only [streamStep, hpc]
      exact h.resetOffset
  | _ =>
      -- Every other step leaves the queue and the offset alone.
      simp only [streamStep, hpc]
      repeat' split
      all_goals exact ⟨h.offset_le, h.frames, h.within⟩

end Stream

/-! ## Runs -/

/-- The offset, the position given to the encoder and the queued frames lie in
the buffer, the positions at multiples of 32. -/
structure OffsetInBuffer (s : Streaming) : Prop where
  offset_le : s.mem.encoderStreamOffset ≤ encoderH264Size
  given : ∀ address, s.camera.writesFrom = some address →
    32 ∣ address ∧ address ≤ encoderH264Size
  queued : ∀ frame ∈ s.mem.busyBufferQueue,
    32 ∣ frame.data ∧ frame.data + frame.encSize ≤ encoderH264Size

theorem CameraPc.Within.position {pc : CameraPc} {offset address : ℕ}
    (h : pc.Within offset) (haddress : pc.writesFrom = some address) :
    32 ∣ address ∧ address ≤ encoderH264Size := by
  cases pc with
  | starting start =>
      cases haddress
      exact ⟨h.1.aligned, h.1.inside⟩
  | encoding start intra number =>
      cases haddress
      exact ⟨h.1.aligned, h.1.inside⟩
  | queueing frame =>
      cases haddress
      exact ⟨h.1.aligned, (Nat.le_add_right _ _).trans h.1.fits⟩
  | _ => cases haddress

theorem streamingMachine_offsetInv {fps : UInt32} {s : Streaming}
    (h : (streamingMachine fps).ReachableVia EncoderFits s) :
    OffsetInv s.mem s.camera := by
  have hinit : ∀ s, (streamingMachine fps).init s →
      OffsetInv s.mem s.camera := by
    rintro s ⟨hmem, hcamera, -⟩
    rw [hmem, hcamera]
    refine ⟨Nat.zero_le _, ?_, Nat.dvd_zero 32⟩
    intro frame hframe
    cases hframe
  have hstep : ∀ s a s', OffsetInv s.mem s.camera → EncoderFits s a →
      (streamingMachine fps).step s a = some s' →
        OffsetInv s'.mem s'.camera := by
    intro s a s' hinv hfits hstep
    rcases streamingMachine_step_cases hstep with
      ⟨r, hmoves, rfl⟩ | ⟨now, -, rfl⟩ | ⟨-, rfl⟩
    · exact hmoves.offsetInv rfl hfits hinv
    · exact streamStep_offsetInv now hinv
    · obtain ⟨rtp, pause, resume, toggle, heq, -⟩ := toggleStep_cases (s := s)
      rw [heq]
      exact ⟨hinv.offset_le, hinv.frames, hinv.within⟩
  exact h.invariant hinit hstep

/-- In every run whose encoder respects the size of its output buffer, the
offset and all frames stay in the buffer, at positions aligned to 32 bytes. -/
theorem streamingMachine_offsetInBuffer {fps : UInt32} {s : Streaming}
    (h : (streamingMachine fps).ReachableVia EncoderFits s) :
    OffsetInBuffer s := by
  have hinv := streamingMachine_offsetInv h
  refine ⟨hinv.offset_le, ?_, ?_⟩
  · intro address haddress
    exact hinv.within.position haddress
  · intro frame hframe
    exact ⟨(hinv.frames frame hframe).aligned, (hinv.frames frame hframe).fits⟩

/-- The header is removed while the first picture is being encoded at position
32; the picture is queued there and the next position is 128. -/
theorem streamingMachine_offsetInBuffer_reset :
    ∃ s, s.mem.busyBufferQueue =
        [⟨32, encoderH264Size - 32, 100, 33, .picture true 0⟩] ∧
      s.camera = .encoding 128 false 1 ∧ OffsetInBuffer s := by
  have hrun : ((streamingMachine cameraFps).run newStreaming
      (secondFrameRun ++ handFrame ++ List.replicate 3 (.stream 0) ++
        .encoded (.frameReady 100) 33 :: queueFrame ++ toEncoder)).map
      (fun s => (s.mem.busyBufferQueue, s.camera)) =
      some ([⟨32, encoderH264Size - 32, 100, 33, .picture true 0⟩],
        .encoding 128 false 1) := by
    decide +kernel
  have hmeets : (streamingMachine cameraFps).Meets EncoderFits newStreaming
      (secondFrameRun ++ handFrame ++ List.replicate 3 (.stream 0) ++
        .encoded (.frameReady 100) 33 :: queueFrame ++ toEncoder) := by
    decide +kernel
  obtain ⟨s, hs, hend⟩ := Option.map_eq_some_iff.mp hrun
  rw [Prod.mk.injEq] at hend
  have hreach : (streamingMachine cameraFps).ReachableVia EncoderFits s :=
    (Machine.ReachableVia.init (newStreaming_init _)).run _ hmeets hs
  exact ⟨s, hend.1, hend.2, streamingMachine_offsetInBuffer hreach⟩

end RtpMulticast
