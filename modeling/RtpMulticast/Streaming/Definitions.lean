import Mathlib.Data.Nat.Basic

/-!
# Data of the camera and stream tasks

Constants of `camera_app.c` and `rtp_stream_app.c`, the descriptors that pass
through the frame queue, and the variables the two tasks share.
-/

namespace RtpMulticast

/-! ## Constants -/

def cameraFps : UInt32 := 30
def encoderH264Size : ℕ := 512 * 1024
def encoderFrameQueueSize : ℕ := 5
def configTickRateHz : UInt32 := 1000

/-- `pdMS_TO_TICKS` -/
def pdMsToTicks (ms : UInt32) : UInt32 := ms * configTickRateHz / 1000

/-! ## Frames -/

/-- What the encoder wrote: the header of the stream, or the picture of one
call of `H264EncStrmEncode`, counted from 0. -/
inductive Content where
  | header
  | picture (intra : Bool) (number : ℕ)
  deriving DecidableEq, Repr

/-- `encoded_frame_t`; `data` is a position in `_encoder_stream`, and `content`
stands for the bytes there. -/
structure EncodedFrame where
  data : ℕ
  maxSize : ℕ
  encSize : ℕ
  timestamp : UInt32
  content : Content
  deriving DecidableEq, Repr

/-- A call of `w6x_rtp_sender_session_send_h264`: a camera frame, or the splash
frame when `content` is `none`.  `ticks` is the tick count that the NTP pair
was computed from. -/
structure FrameCall where
  content : Option Content
  timestamp : UInt32
  ticks : UInt32
  ntpMsw : UInt32
  ntpLsw : UInt32
  deriving DecidableEq, Repr

/-- `msw = ticks / configTICK_RATE_HZ` -/
def ntpMsw (ticks : UInt32) : UInt32 := ticks / configTickRateHz

/-- `lsw = ((uint64_t)ticks << 32U) / configTICK_RATE_HZ` -/
def ntpLsw (ticks : UInt32) : UInt32 :=
  ((ticks.toUInt64 <<< 32) / configTickRateHz.toUInt64).toUInt32

/-! ## Shared variables -/

inductive EncoderState where
  | reset
  | initialized
  | started
  deriving DecidableEq, Repr

/-- The fields of `_encoder` that steer it. -/
structure Encoder where
  state : EncoderState
  frame : UInt32
  forced : Bool
  deriving DecidableEq, Repr

/-- The variables of `camera_app.c` behind the calls of the stream task, the
encode request bit of `_event`, and the pause flag of the context. -/
structure StreamMemory where
  busyBufferQueue : List EncodedFrame
  encoderStreamOffset : ℕ
  encoder : Encoder
  encodeRequest : Bool
  pauseRequest : Bool
  resumeRequest : Bool
  cameraStreamPaused : Bool
  rtpStreamPaused : Bool
  deriving DecidableEq, Repr

/-- `_get_next_frame_buffer`: the position and the room behind it. -/
def getNextFrameBuffer (offset : ℕ) : Option (ℕ × ℕ) :=
  if offset > encoderH264Size then none
  else some (offset, encoderH264Size - offset)

/-- The next multiple of 32. -/
def align32 (offset : ℕ) : ℕ := (offset + 31) / 32 * 32

theorem le_align32 (offset : ℕ) : offset ≤ align32 offset := by
  have hdiv := Nat.div_add_mod (offset + 31) 32
  have hmod := Nat.mod_lt (offset + 31) (show 0 < 32 by decide)
  rw [align32]
  omega

end RtpMulticast
