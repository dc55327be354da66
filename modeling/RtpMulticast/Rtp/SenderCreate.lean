import RtpMulticast.Rtp.Sending

/-!
# Creation of a sender

`w6x_rtp_sender_create` keeps the length of the name in eight bits, checks that
it is not zero and copies so many bytes into an array of `RTP_CNAME_MAX_SIZE`
bytes.  Names of at most that size are stored whole and fit into every report;
longer ones are cut at 256 bytes or written beyond the array.
-/

namespace RtpMulticast

open ByteBuffer

/-! ## Surroundings -/

/-- A NUL-terminated string. -/
structure CString where
  bytes : Bytes
  nul_notMem : (0 : UInt8) ∉ bytes

def CString.strlen (s : CString) : ℕ := s.bytes.length

/-- The bytes from the pointer on. -/
def CString.memory (s : CString) : Bytes := s.bytes ++ [0]

/-- Answers of the network stack to the calls made for one socket. -/
structure SocketAnswers where
  socketCreate : Int
  setoptTos : Int
  setoptRcvTimeout : Int
  setoptSndTimeout : Int
  socketBind : Int

def rtpPortBind : Bool := false
def rtcpPortBind : Bool := true
def rtpErrorSocket : Int := -5

/-- The socket number, or a negative value. -/
def w6xSocketUdpCreate (bind : Bool) (answers : SocketAnswers) : Int :=
  if answers.socketCreate < 0 then rtpErrorSocket
  else if answers.setoptTos ≠ 0 then rtpErrorSocket
  else if answers.setoptRcvTimeout + answers.setoptSndTimeout ≠ 0 then
    rtpErrorSocket
  else if bind = true ∧ answers.socketBind ≠ 0 then rtpErrorSocket
  else answers.socketCreate

/-- The socket fields have 16 bits. -/
def toInt16 (x : Int) : Int := x.bmod 65536

/-- Answers to the calls of one creation: which RTOS objects there were, and
the sockets. -/
structure CreateAnswers where
  xEventGroupCreate : Bool
  xSemaphoreCreateMutex : Bool
  xTaskCreate : Bool
  rtp : SocketAnswers
  rtcp : SocketAnswers

def portCheckEven (port : UInt16) : Bool := port ≠ 0 ∧ port % 2 = 0

/-! ## Creation -/

/-- The name array after the copy of `size` bytes into the cleared sender. -/
def storeCname (cname : CString) (size : UInt8) : Except Fault Bytes := do
  let name ← copyOut cname.memory 0 size.toNat
  copyIn (List.replicate rtpCnameMaxSize 0) 0 name

theorem length_storeCname {cname : CString} {size : UInt8} {field : Bytes}
    (h : storeCname cname size = .ok field) :
    field.length = rtpCnameMaxSize := by
  obtain ⟨name, -, hcopy⟩ := bind_eq_ok.mp h
  rw [copyIn] at hcopy
  split at hcopy
  · next hfit =>
      cases hcopy
      simp only [List.length_append, List.length_take, List.length_drop,
        List.length_replicate] at hfit ⊢
      omega
  · cases hcopy

theorem rtpPayloadMaxSize_pos : 0 < rtpPayloadMaxSize := by decide

/-- The sender with the fields that creation sets last. -/
def newSender (rtpSocket rtcpSocket : Int) (size : UInt8) (field : Bytes)
    (hfield : field.length = rtpCnameMaxSize) : Sender where
  id := rtpSenderId
  cname := field.take size.toNat
  session := []
  rtpSocket := rtpSocket
  rtcpSocket := rtcpSocket
  rtpPayloadMaxSize := rtpPayloadMaxSize
  rtcpRrCb := false
  rtcpSdesCb := false
  cname_le := (List.length_take_le' _ _).trans hfield.le
  payload_pos := rtpPayloadMaxSize_pos
  payload_le := le_rfl

/-- `senderId` is the id field before the call and absent for a null pointer,
`cname` is absent for a null pointer. -/
def w6xRtpSenderCreate (answers : CreateAnswers) (senderId : Option UInt32)
    (cname : Option CString) (port : UInt16) :
    Except Fault (RtpStatus × Option Sender) :=
  match senderId, cname with
  | some senderId, some cname =>
      let cnameSize := UInt8.ofNat cname.strlen
      let rtpSocket := toInt16 (w6xSocketUdpCreate rtpPortBind answers.rtp)
      let rtcpSocket := toInt16 (w6xSocketUdpCreate rtcpPortBind answers.rtcp)
      if senderId = rtpSenderId ∨ cnameSize = 0 ∨ portCheckEven port = false then
        .ok (.errorParameters, none)
      else if answers.xEventGroupCreate = false then .ok (.errorRtos, none)
      else if answers.xSemaphoreCreateMutex = false then .ok (.errorRtos, none)
      else if answers.xTaskCreate = false then .ok (.errorRtos, none)
      else if rtpSocket < 0 then .ok (.errorSocket, none)
      else if rtcpSocket < 0 then .ok (.errorSocket, none)
      else
        match hstore : storeCname cname cnameSize with
        | .error fault => .error fault
        | .ok field =>
            .ok (.ok, some (newSender rtpSocket rtcpSocket cnameSize field
              (length_storeCname hstore)))
  | _, _ => .ok (.errorPtr, none)

/-- Every check and every call of the creation succeeds. -/
structure CreateAccepted (answers : CreateAnswers) (senderId : Option UInt32)
    (cname : CString) (port : UInt16) : Prop where
  sender : ∃ id, senderId = some id ∧ id ≠ rtpSenderId
  size : UInt8.ofNat cname.strlen ≠ 0
  port : portCheckEven port = true
  event : answers.xEventGroupCreate = true
  mutex : answers.xSemaphoreCreateMutex = true
  task : answers.xTaskCreate = true
  rtp : 0 ≤ toInt16 (w6xSocketUdpCreate rtpPortBind answers.rtp)
  rtcp : 0 ≤ toInt16 (w6xSocketUdpCreate rtcpPortBind answers.rtcp)

/-! ## What the name promises -/

/-- Both parts of a report on `session` fit into the RTCP packet. -/
def ReportFits (sender : Sender) (session : Session) : Prop :=
  ∃ sr head packet size,
    w6xRtcpAppendPacketSr session (List.replicate rtcpPacketSize 0) 0 =
        .ok (.ok, sr, head) ∧
      w6xRtcpAppendPacketSdes sender session sr head = .ok (.ok, packet, size)

/-- A creation that succeeds writes inside the name array, stores the whole
name with its length, and leaves room for every report. -/
def CnameFits (cname : Option CString) :
    Except Fault (RtpStatus × Option Sender) → Prop
  | .error _ => False
  | .ok (.ok, some sender) =>
      (∃ name, cname = some name ∧ sender.cname = name.bytes ∧
        sender.cnameSize.toNat = name.strlen) ∧
        ∀ session, ReportFits sender session
  | .ok _ => True

theorem reportFits (sender : Sender) (session : Session) :
    ReportFits sender session := by
  have hm := u32Align_cname_le sender
  have hsr := w6xRtcpAppendPacketSr_eq session [] (m := 72) (by omega)
  have hsdes := w6xRtcpAppendPacketSdes_eq sender session
    (rtcpSrBytes session) hm
  exact ⟨_, _, _, _, hsr, hsdes⟩

theorem storeCname_of_le {cname : CString} {size : UInt8}
    (hsize : size.toNat ≤ cname.strlen) (hle : size.toNat ≤ rtpCnameMaxSize) :
    ∃ rest, storeCname cname size =
      .ok (cname.bytes.take size.toNat ++ rest) := by
  have hlen : (cname.bytes.take size.toNat).length = size.toNat :=
    List.length_take_of_le hsize
  have hname : copyOut cname.memory 0 size.toNat =
      .ok (cname.bytes.take size.toNat) := by
    rw [copyOut_of_le _ _ _ (by
      simp only [CString.memory, CString.strlen, List.length_append] at hsize ⊢
      omega), List.drop_zero, CString.memory, List.take_append_of_le_length hsize]
  have hcopy := copyIn_replicate [] (cname.bytes.take size.toNat)
    (m := rtpCnameMaxSize) (by omega)
  refine ⟨List.replicate (rtpCnameMaxSize - size.toNat) 0, ?_⟩
  rw [storeCname, hname, ok_bind]
  rw [hlen] at hcopy
  exact hcopy

theorem storeCname_of_lt {cname : CString} {size : UInt8}
    (hsize : size.toNat ≤ cname.strlen) (hlt : rtpCnameMaxSize < size.toNat) :
    storeCname cname size = .error .outOfBounds := by
  have hfit : 0 + size.toNat ≤ cname.memory.length := by
    simp only [CString.memory, CString.strlen, List.length_append] at hsize ⊢
    omega
  rw [storeCname, copyOut_of_le _ _ _ hfit, ok_bind, copyIn, if_neg]
  simp only [List.length_take, List.length_drop, List.length_replicate]
  omega

section Create

variable {answers : CreateAnswers} {senderId : Option UInt32} {cname : CString}
  {port : UInt16}

theorem w6xRtpSenderCreate_stored
    (h : CreateAccepted answers senderId cname port) {field : Bytes}
    (hstore : storeCname cname (UInt8.ofNat cname.strlen) = .ok field) :
    w6xRtpSenderCreate answers senderId (some cname) port =
      .ok (.ok, some (newSender
        (toInt16 (w6xSocketUdpCreate rtpPortBind answers.rtp))
        (toInt16 (w6xSocketUdpCreate rtcpPortBind answers.rtcp))
        (UInt8.ofNat cname.strlen) field (length_storeCname hstore))) := by
  obtain ⟨id, rfl, hid⟩ := h.sender
  simp only [w6xRtpSenderCreate, hid, h.size, h.port, h.event, h.mutex, h.task,
    not_lt.mpr h.rtp, not_lt.mpr h.rtcp, Bool.true_eq_false, or_false, if_false]
  split
  · next heq =>
      rw [hstore] at heq
      cases heq
  · next heq =>
      rw [hstore] at heq
      cases heq
      rfl

theorem w6xRtpSenderCreate_fault
    (h : CreateAccepted answers senderId cname port) {fault : Fault}
    (hstore : storeCname cname (UInt8.ofNat cname.strlen) = .error fault) :
    w6xRtpSenderCreate answers senderId (some cname) port =
      .error fault := by
  obtain ⟨id, rfl, hid⟩ := h.sender
  simp only [w6xRtpSenderCreate, hid, h.size, h.port, h.event, h.mutex, h.task,
    not_lt.mpr h.rtp, not_lt.mpr h.rtcp, Bool.true_eq_false, or_false, if_false]
  split
  · next heq =>
      rw [hstore] at heq
      cases heq
      rfl
  · next heq =>
      rw [hstore] at heq
      cases heq

/-- A creation that is refused says so before it touches the name array. -/
theorem w6xRtpSenderCreate_refused
    (h : ¬ CreateAccepted answers senderId cname port) :
    ∃ status, status ≠ .ok ∧
      w6xRtpSenderCreate answers senderId (some cname) port =
        .ok (status, none) := by
  cases senderId with
  | none => exact ⟨.errorPtr, by decide, rfl⟩
  | some id =>
      simp only [w6xRtpSenderCreate]
      split
      · exact ⟨.errorParameters, by decide, rfl⟩
      · next hargs =>
          simp only [not_or, Bool.not_eq_false] at hargs
          obtain ⟨hid, hsize, hport⟩ := hargs
          split
          · exact ⟨.errorRtos, by decide, rfl⟩
          · next hevent =>
              split
              · exact ⟨.errorRtos, by decide, rfl⟩
              · next hmutex =>
                  split
                  · exact ⟨.errorRtos, by decide, rfl⟩
                  · next htask =>
                      split
                      · exact ⟨.errorSocket, by decide, rfl⟩
                      · next hrtp =>
                          split
                          · exact ⟨.errorSocket, by decide, rfl⟩
                          · next hrtcp =>
                              exact absurd ⟨⟨id, rfl, hid⟩, hsize, hport,
                                by simpa using hevent, by simpa using hmutex,
                                by simpa using htask, not_lt.mp hrtp,
                                not_lt.mp hrtcp⟩ h

theorem toNat_ofNat_strlen_le (cname : CString) :
    (UInt8.ofNat cname.strlen).toNat ≤ cname.strlen := by
  rw [UInt8.toNat_ofNat']
  exact Nat.mod_le _ _

/-- A creation that succeeds stores the first bytes of the name, so many as
its length leaves modulo 256. -/
theorem w6xRtpSenderCreate_cname
    (h : CreateAccepted answers senderId cname port)
    (hle : cname.strlen % 256 ≤ rtpCnameMaxSize) :
    ∃ sender, w6xRtpSenderCreate answers senderId (some cname) port =
        .ok (.ok, some sender) ∧
      sender.cname = cname.bytes.take (cname.strlen % 256) := by
  have hsize := toNat_ofNat_strlen_le cname
  have hmod : (UInt8.ofNat cname.strlen).toNat = cname.strlen % 256 :=
    UInt8.toNat_ofNat'
  obtain ⟨rest, hstore⟩ := storeCname_of_le hsize (hmod.trans_le hle)
  refine ⟨_, w6xRtpSenderCreate_stored h hstore, ?_⟩
  rw [newSender, ← hmod]
  exact List.take_left' (List.length_take_of_le hsize)

theorem w6xRtpSenderCreate_overflow
    (h : CreateAccepted answers senderId cname port)
    (hlt : rtpCnameMaxSize < cname.strlen % 256) :
    w6xRtpSenderCreate answers senderId (some cname) port =
      .error .outOfBounds := by
  have hsize := toNat_ofNat_strlen_le cname
  have hmod : (UInt8.ofNat cname.strlen).toNat = cname.strlen % 256 :=
    UInt8.toNat_ofNat'
  exact w6xRtpSenderCreate_fault h (storeCname_of_lt hsize (hlt.trans_eq hmod.symm))

/-- The name fits exactly when it has at most `rtpCnameMaxSize` bytes, or when
the creation is refused anyway. -/
theorem w6xRtpSenderCreate_cnameFits_iff (answers : CreateAnswers)
    (senderId : Option UInt32) (cname : CString) (port : UInt16) :
    CnameFits (some cname)
        (w6xRtpSenderCreate answers senderId (some cname) port) ↔
      (CreateAccepted answers senderId cname port →
        cname.strlen ≤ rtpCnameMaxSize) := by
  by_cases haccepted : CreateAccepted answers senderId cname port
  · constructor
    · intro hfits _
      by_cases hle : cname.strlen % 256 ≤ rtpCnameMaxSize
      · obtain ⟨sender, hcreate, hcname⟩ :=
          w6xRtpSenderCreate_cname haccepted hle
        rw [hcreate] at hfits
        obtain ⟨⟨name, hname, hbytes, -⟩, -⟩ := hfits
        cases hname
        -- The whole name is stored, so it is no longer than the array.
        have hlen := sender.cname_le
        rw [hbytes] at hlen
        exact hlen
      · rw [w6xRtpSenderCreate_overflow haccepted (not_le.mp hle)] at hfits
        exact absurd hfits id
    · intro hle
      have hstrlen := hle haccepted
      have hmod : cname.strlen % 256 = cname.strlen := by
        simp only [rtpCnameMaxSize] at hstrlen
        omega
      obtain ⟨sender, hcreate, hcname⟩ :=
        w6xRtpSenderCreate_cname haccepted (hmod.trans_le hstrlen)
      rw [hmod, CString.strlen, List.take_length] at hcname
      rw [hcreate]
      refine ⟨⟨cname, rfl, hcname, ?_⟩, fun session => reportFits sender session⟩
      rw [Sender.toNat_cnameSize, hcname, CString.strlen]
  · obtain ⟨status, hstatus, hcreate⟩ := w6xRtpSenderCreate_refused haccepted
    rw [hcreate]
    constructor
    · intro _ h
      exact absurd h haccepted
    · intro _
      cases status with
      | ok => exact absurd rfl hstatus
      | errorPtr => trivial
      | errorRtos => trivial
      | errorParameters => trivial
      | errorPacket => trivial
      | errorSocket => trivial
      | errorNotFound => trivial

end Create

/-! ## A name of one byte too many -/

def overlongName : CString where
  bytes := List.replicate 33 0x61
  nul_notMem := by decide

/-- Everything that creation asks for is there. -/
def createAnswersOk : CreateAnswers where
  xEventGroupCreate := true
  xSemaphoreCreateMutex := true
  xTaskCreate := true
  rtp := ⟨0, 0, 0, 0, 0⟩
  rtcp := ⟨1, 0, 0, 0, 0⟩

theorem overlongName_accepted :
    CreateAccepted createAnswersOk (some 0) overlongName 5004 where
  sender := ⟨0, rfl, by decide⟩
  size := by decide
  port := by decide
  event := rfl
  mutex := rfl
  task := rfl
  rtp := by decide
  rtcp := by decide

/-- The copy leaves the name array. -/
theorem overlongName_overflows :
    w6xRtpSenderCreate createAnswersOk (some 0) (some overlongName) 5004 =
        .error .outOfBounds ∧
      ¬ CnameFits (some overlongName)
        (w6xRtpSenderCreate createAnswersOk (some 0) (some overlongName)
          5004) := by
  have hcreate :=
    w6xRtpSenderCreate_overflow overlongName_accepted (by decide)
  refine ⟨hcreate, ?_⟩
  rw [hcreate]
  exact id

end RtpMulticast
