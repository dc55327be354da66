import RtpMulticast.Support.LinkedList
import RtpMulticast.Rtp.Definitions

/-!
# The session list under sequential calls

`w6x_rtp_sender_session_create`, `w6x_rtp_sender_session_delete` and
`w6x_rtp_sender_delete`, called one after the other with any arguments on any
number of senders.  The functions follow the pointers of the objects; what they
keep up is a list of sessions for each sender, in the order of creation.
-/

namespace RtpMulticast

open LinkedList ByteBuffer

/-! ## Objects -/

/-- A session object with its pointers; senders and sessions are numbered. -/
structure SessionObject where
  data : Session
  sender : Option ℕ
  next : Option ℕ
  deriving DecidableEq, Repr

/-- The parts of a sender object that the three functions use; `mutex` says
whether the mutex exists. -/
structure SenderObject where
  id : UInt32
  session : Option ℕ
  mutex : Bool
  deriving DecidableEq, Repr

/-- `memset(session, 0, sizeof(w6x_rtp_session_t))` -/
def clearedSession : SessionObject where
  data := ⟨0, 0, 0, 0, 0, 0, 0, 0, 0, 0, 0, ⟨0, 0⟩, ⟨0, 0⟩⟩
  sender := none
  next := none

structure SessionHeap where
  senders : ℕ → SenderObject
  sessions : ℕ → SessionObject

/-- What a call must not do: go through a null pointer, use a mutex that does
not exist, or walk along a list without end. -/
inductive CallFault where
  | nullPointer
  | deletedMutex
  | endless
  deriving DecidableEq, Repr

namespace SessionHeap

/-- The links between the sessions. -/
def next (s : SessionHeap) : ℕ → Option ℕ :=
  fun x => (s.sessions x).next

def setSession (s : SessionHeap) (x : ℕ) (session : SessionObject) :
    SessionHeap :=
  { s with sessions := Function.update s.sessions x session }

def setSender (s : SessionHeap) (a : ℕ) (sender : SenderObject) : SessionHeap :=
  { s with senders := Function.update s.senders a sender }

def setNext (s : SessionHeap) (x : ℕ) (next : Option ℕ) : SessionHeap :=
  s.setSession x { s.sessions x with next := next }

def setHead (s : SessionHeap) (a : ℕ) (session : Option ℕ) : SessionHeap :=
  s.setSender a { s.senders a with session := session }

/-- `xSemaphoreTake(sender->mutex, portMAX_DELAY)`; no other task holds it. -/
def take (s : SessionHeap) (a : ℕ) : Except CallFault Unit :=
  if (s.senders a).mutex then .ok () else .error .deletedMutex

/-- The last session from `tail` on. -/
def lastSession (s : SessionHeap) : ℕ → ℕ → Except CallFault ℕ
  | 0, _ => .error .endless
  | fuel + 1, tail =>
      match s.next tail with
      | some tail' => s.lastSession fuel tail'
      | none => .ok tail

/-- Unlink `session` from the list behind `prev`. -/
def unlinkSession (s : SessionHeap) (session : ℕ) :
    ℕ → ℕ → Except CallFault SessionHeap
  | 0, _ => .error .endless
  | fuel + 1, prev =>
      match s.next prev with
      | none => .ok s
      | some this =>
          if this = session then .ok (s.setNext prev (s.next this))
          else s.unlinkSession session fuel this

/-- Link session `x` to sender `a`, at the end of its list. -/
def link (s : SessionHeap) (fuel a x : ℕ) : Except CallFault SessionHeap :=
  match (s.senders a).session with
  | some head => do
      let tail ← s.lastSession fuel head
      return s.setNext tail (some x)
  | none => .ok (s.setHead a (some x))

/-- Unlink session `x` from sender `a`. -/
def unlink (s : SessionHeap) (fuel a x : ℕ) : Except CallFault SessionHeap :=
  if (s.senders a).session = some x then .ok (s.setHead a (s.next x))
  else
    match (s.senders a).session with
    | some prev => s.unlinkSession x fuel prev
    | none => .error .nullPointer

end SessionHeap

/-! ## The functions -/

/-- Arguments of `w6x_rtp_sender_session_create` besides the pointers, and the
two random numbers it draws. -/
structure SessionArgs where
  payloadType : UInt16
  rtpPort : UInt16
  rtcpPort : UInt16
  ip : UInt32
  ssrc : UInt32
  sequenceNumber : UInt16
  deriving DecidableEq, Repr

/-- The session after it was cleared and given its peers. -/
def SessionArgs.configured (args : SessionArgs) : SessionObject :=
  { clearedSession with data := { clearedSession.data with
    clientRtp := ⟨args.rtpPort, args.ip⟩
    clientRtcp := ⟨args.rtcpPort, args.ip⟩ } }

/-- The session after the last assignments of its creation. -/
def SessionArgs.started (args : SessionArgs) (a : ℕ)
    (session : SessionObject) : SessionObject :=
  { session with
    sender := some a
    data := { session.data with
      id := rtpSessionId
      payloadType := args.payloadType.toUInt8
      ssrc := args.ssrc
      sequenceNumber := args.sequenceNumber } }

/-- `fuel` bounds the walks along the list; pointers are absent when null. -/
def w6xRtpSenderSessionCreate (fuel : ℕ) (sender session : Option ℕ)
    (args : SessionArgs) (s : SessionHeap) :
    Except CallFault (RtpStatus × SessionHeap) :=
  match sender, session with
  | some a, some x =>
      if (s.senders a).id ≠ rtpSenderId ∨
          (s.sessions x).data.id = rtpSessionId ∨
          rtpPayloadMaxType < args.payloadType ∨ args.ip = 0 ∨
          args.rtpPort = 0 ∨ args.rtcpPort = 0 then
        .ok (.errorParameters, s)
      else do
        let s := s.setSession x args.configured
        s.take a
        let s ← s.link fuel a x
        return (.ok, s.setSession x (args.started a (s.sessions x)))
  | _, _ => .ok (.errorPtr, s)

def w6xRtpSenderSessionDelete (fuel : ℕ) (session : Option ℕ)
    (s : SessionHeap) : Except CallFault (RtpStatus × SessionHeap) :=
  match session with
  | none => .ok (.errorPtr, s)
  | some x =>
      match (s.sessions x).sender with
      | none => .ok (.errorPtr, s)
      | some a =>
          if (s.sessions x).data.id ≠ rtpSessionId then
            .ok (.errorParameters, s)
          else do
            let s := s.setSession x { s.sessions x with
              data := { (s.sessions x).data with id := 0 } }
            s.take a
            let s ← s.unlink fuel a x
            return (.ok, s.setSession x { s.sessions x with sender := none })

def w6xRtpSenderDelete (sender : Option ℕ) (s : SessionHeap) :
    Except CallFault (RtpStatus × SessionHeap) :=
  match sender with
  | none => .ok (.errorPtr, s)
  | some a =>
      if (s.senders a).id ≠ rtpSenderId then .ok (.errorParameters, s)
      else do
        s.take a
        if (s.senders a).session ≠ none then
          return (.errorParameters, s)
        -- The cleanup deletes the mutex.
        return (.ok, s.setSender a { s.senders a with id := 0, mutex := false })

/-! ## Runs -/

inductive SessionCall where
  | create (sender session : Option ℕ) (args : SessionArgs)
  | delete (session : Option ℕ)
  | senderDelete (sender : Option ℕ)
  deriving DecidableEq, Repr

def SessionCall.run (fuel : ℕ) (s : SessionHeap) :
    SessionCall → Except CallFault (RtpStatus × SessionHeap)
  | .create sender session args =>
      w6xRtpSenderSessionCreate fuel sender session args s
  | .delete session => w6xRtpSenderSessionDelete fuel session s
  | .senderDelete sender => w6xRtpSenderDelete sender s

/-- One call between the heaps before and after it. -/
structure SessionRecord where
  call : SessionCall
  before : SessionHeap
  status : RtpStatus
  after : SessionHeap

/-- The calls one after the other. -/
def runSessionCalls (fuel : ℕ) :
    List SessionCall → SessionHeap → Except CallFault (List SessionRecord)
  | [], _ => .ok []
  | call :: calls, s => do
      let (status, s') ← call.run fuel s
      let records ← runSessionCalls fuel calls s'
      return ⟨call, s, status, s'⟩ :: records

/-! ## The lists that the calls ask for -/

/-- A call that succeeds appends its session, erases it, or changes nothing. -/
def SessionCall.effect (lists : ℕ → List ℕ) (status : RtpStatus) :
    SessionCall → ℕ → List ℕ
  | .create (some a) (some x) _ =>
      if status = .ok then Function.update lists a (lists a ++ [x]) else lists
  | .delete (some x) =>
      if status = .ok then fun a => (lists a).erase x else lists
  | _ => lists

/-! ## Walks -/

namespace SessionHeap

variable {s : SessionHeap} {lists : ℕ → List ℕ} {L A B : List ℕ}
  {p : Option ℕ} {a x head tail : ℕ}

@[simp] theorem setSession_next (session : SessionObject) :
    (s.setSession x session).next =
      Function.update s.next x session.next := by
  funext y
  by_cases hy : y = x
  · simp [next, setSession, hy]
  · simp [next, setSession, hy]

@[simp] theorem setNext_next (v : Option ℕ) :
    (s.setNext x v).next = Function.update s.next x v :=
  setSession_next _

/-- A walk along a list that is not longer than the fuel ends at its last
session. -/
theorem lastSession_of_chain {fuel : ℕ} (h : Chain s.next (some head) L)
    (hfuel : L.length ≤ fuel) :
    ∃ tail, s.lastSession fuel head = .ok tail ∧ tail ∈ L ∧
      s.next tail = none := by
  induction fuel generalizing head L with
  | zero =>
      rw [List.length_eq_zero_iff.mp (Nat.le_zero.mp hfuel)] at h
      cases h
  | succ fuel ih =>
      cases L with
      | nil => cases h
      | cons y L =>
          obtain ⟨hhead, hrest⟩ := h
          cases hhead
          cases hnext : s.next head with
          | none =>
              exact ⟨head, by simp [lastSession, hnext], List.mem_cons_self,
                hnext⟩
          | some head' =>
              rw [hnext] at hrest
              obtain ⟨tail, hlast, hmem, hend⟩ :=
                ih hrest (by simpa using hfuel)
              exact ⟨tail, by simp [lastSession, hnext, hlast],
                List.mem_cons_of_mem _ hmem, hend⟩

/-- The walk for a session behind the first one finds its predecessor. -/
theorem unlinkSession_of_chain {fuel : ℕ}
    (h : Chain s.next (some head) (head :: L)) (hx : x ∈ L)
    (hfuel : L.length ≤ fuel) :
    ∃ A prev B, head :: L = A ++ prev :: x :: B ∧
      s.unlinkSession x fuel head = .ok (s.setNext prev (s.next x)) := by
  induction fuel generalizing head L with
  | zero =>
      rw [List.length_eq_zero_iff.mp (Nat.le_zero.mp hfuel)] at hx
      cases hx
  | succ fuel ih =>
      cases L with
      | nil => cases hx
      | cons y L =>
          have hnext : s.next head = some y := h.2.1
          have hrest : Chain s.next (some y) (y :: L) := ⟨rfl, h.2.2⟩
          by_cases hy : y = x
          · subst hy
            exact ⟨[], head, L, rfl, by simp [unlinkSession, hnext]⟩
          · have hmem : x ∈ L := by
              rcases List.mem_cons.mp hx with rfl | hmem
              · exact absurd rfl hy
              · exact hmem
            obtain ⟨A, prev, B, hsplit, hwalk⟩ :=
              ih hrest hmem (by simpa using hfuel)
            refine ⟨head :: A, prev, B, ?_, ?_⟩
            · rw [hsplit, List.cons_append]
            · simp [unlinkSession, hnext, hy, hwalk]

/-! ## What the objects say about the lists -/

/-- The pointers form the lists, back pointers and ids mark their members, and
only a sender that is initialised has any. -/
structure Holds (s : SessionHeap) (lists : ℕ → List ℕ) : Prop where
  chain : ∀ a, Chain s.next (s.senders a).session (lists a)
  nodup : ∀ a, (lists a).Nodup
  member : ∀ a x, x ∈ lists a ↔ (s.sessions x).sender = some a
  live : ∀ x, (s.sessions x).data.id = rtpSessionId ↔
    (s.sessions x).sender ≠ none
  owner : ∀ a, lists a ≠ [] → (s.senders a).id = rtpSenderId
  mutex : ∀ a, (s.senders a).id = rtpSenderId → (s.senders a).mutex = true

/-- Ids, back pointers and mutexes are the same. -/
structure SameMarks (s s' : SessionHeap) : Prop where
  data : ∀ x, (s'.sessions x).data = (s.sessions x).data
  sender : ∀ x, (s'.sessions x).sender = (s.sessions x).sender
  id : ∀ a, (s'.senders a).id = (s.senders a).id
  mutex : ∀ a, (s'.senders a).mutex = (s.senders a).mutex

theorem sameMarks_setNext (v : Option ℕ) : SameMarks s (s.setNext x v) := by
  constructor
  · intro y
    by_cases hy : y = x
    · simp [setNext, setSession, hy]
    · simp [setNext, setSession, hy]
  · intro y
    by_cases hy : y = x
    · simp [setNext, setSession, hy]
    · simp [setNext, setSession, hy]
  · intro a
    rfl
  · intro a
    rfl

theorem sameMarks_setHead (v : Option ℕ) : SameMarks s (s.setHead a v) := by
  constructor
  · intro y
    rfl
  · intro y
    rfl
  · intro b
    by_cases hb : b = a
    · simp [setHead, setSender, hb]
    · simp [setHead, setSender, hb]
  · intro b
    by_cases hb : b = a
    · simp [setHead, setSender, hb]
    · simp [setHead, setSender, hb]

@[simp] theorem setHead_session_self (v : Option ℕ) :
    ((s.setHead a v).senders a).session = v := by
  simp [setHead, setSender]

theorem setHead_session_of_ne (v : Option ℕ) {b : ℕ} (hb : b ≠ a) :
    ((s.setHead a v).senders b).session = (s.senders b).session := by
  simp [setHead, setSender, hb]

/-- Linking a session that is in no list appends it. -/
theorem link_ok {fuel : ℕ}
    (hchain : ∀ b, Chain s.next (s.senders b).session (lists b))
    (hnodup : ∀ b, (lists b).Nodup)
    (hdisjoint : ∀ b y, y ∈ lists a → y ∈ lists b → b = a)
    (hx : ∀ b, x ∉ lists b) (hend : s.next x = none)
    (hfuel : (lists a).length ≤ fuel) :
    ∃ s', s.link fuel a x = .ok s' ∧ SameMarks s s' ∧
      ∀ b, Chain s'.next (s'.senders b).session
        (Function.update lists a (lists a ++ [x]) b) := by
  have ha := hchain a
  cases hhead : (s.senders a).session with
  | none =>
      rw [hhead] at ha
      have hnil := ha.eq_nil_iff.mpr rfl
      refine ⟨s.setHead a (some x), by simp [link, hhead],
        sameMarks_setHead _, ?_⟩
      intro b
      by_cases hb : b = a
      · subst hb
        rw [setHead_session_self, Function.update_self, hnil]
        exact ⟨rfl, hend⟩
      · rw [setHead_session_of_ne _ hb, Function.update_of_ne hb]
        exact hchain b
  | some head =>
      rw [hhead] at ha
      obtain ⟨tail, hlast, hmem, hnext⟩ := lastSession_of_chain ha hfuel
      refine ⟨s.setNext tail (some x), by simp [link, hhead, hlast],
        sameMarks_setNext _, ?_⟩
      intro b
      rw [setNext_next]
      by_cases hb : b = a
      · subst hb
        rw [Function.update_self]
        change Chain _ (s.senders b).session _
        rw [hhead]
        exact ha.append (hnodup b) hmem hnext (hx b) hend
      · rw [Function.update_of_ne hb]
        exact (hchain b).update_of_notMem fun htail =>
          hb (hdisjoint b tail hmem htail)

/-- Unlinking a member erases it. -/
theorem unlink_ok {fuel : ℕ}
    (hchain : ∀ b, Chain s.next (s.senders b).session (lists b))
    (hnodup : ∀ b, (lists b).Nodup)
    (hdisjoint : ∀ b y, y ∈ lists a → y ∈ lists b → b = a)
    (hx : x ∈ lists a) (hfuel : (lists a).length ≤ fuel) :
    ∃ s', s.unlink fuel a x = .ok s' ∧ SameMarks s s' ∧
      ∀ b, Chain s'.next (s'.senders b).session ((lists b).erase x) := by
  have ha := hchain a
  have hother : ∀ b, b ≠ a → (lists b).erase x = lists b := by
    intro b hb
    exact List.erase_of_not_mem fun hmem => hb (hdisjoint b x hx hmem)
  by_cases hfirst : (s.senders a).session = some x
  · refine ⟨s.setHead a (s.next x), by simp [unlink, hfirst],
      sameMarks_setHead _, ?_⟩
    intro b
    by_cases hb : b = a
    · subst hb
      rw [setHead_session_self]
      rw [hfirst] at ha
      cases hL : lists b with
      | nil =>
          rw [hL] at hx
          cases hx
      | cons y L =>
          rw [hL] at ha
          obtain ⟨hy, hrest⟩ := ha
          cases hy
          rw [List.erase_cons_head]
          exact hrest
    · rw [setHead_session_of_ne _ hb, hother b hb]
      exact hchain b
  · cases hhead : (s.senders a).session with
    | none =>
        rw [hhead] at ha
        rw [ha.eq_nil_iff.mpr rfl] at hx
        cases hx
    | some head =>
        rw [hhead] at ha hfirst
        cases hL : lists a with
        | nil =>
            rw [hL] at hx
            cases hx
        | cons y L =>
            have hlen := hfuel
            rw [hL] at ha hx hlen
            have hy : head = y := by
              have hhead' := ha.1
              simpa using hhead'
            subst hy
            have hmem : x ∈ L := by
              rcases List.mem_cons.mp hx with rfl | hmem
              · exact absurd rfl hfirst
              · exact hmem
            obtain ⟨A, prev, B, hsplit, hwalk⟩ := unlinkSession_of_chain ha hmem
              ((Nat.le_succ _).trans hlen)
            refine ⟨s.setNext prev (s.next x),
              by simpa [unlink, hhead, hfirst] using hwalk,
              sameMarks_setNext _, ?_⟩
            intro b
            rw [setNext_next]
            by_cases hb : b = a
            · subst hb
              change Chain _ (s.senders b).session _
              have hnd := hnodup b
              rw [hL, hsplit] at hnd
              rw [hhead, hL, hsplit]
              rw [hsplit] at ha
              exact ha.unlink hnd
            · have hprev : prev ∈ lists a := by
                rw [hL, hsplit]
                simp
              rw [hother b hb]
              exact (hchain b).update_of_notMem fun hmem' =>
                hb (hdisjoint b prev hprev hmem')

theorem Holds.disjoint (h : s.Holds lists) {b y : ℕ} (ha : y ∈ lists a)
    (hb : y ∈ lists b) : b = a := by
  rw [h.member] at ha hb
  rw [ha] at hb
  exact (Option.some.inj hb).symm

theorem Holds.notMem (h : s.Holds lists)
    (hdead : (s.sessions x).data.id ≠ rtpSessionId) (b : ℕ) : x ∉ lists b := by
  intro hmem
  have hsender := (h.member b x).mp hmem
  exact hdead ((h.live x).mpr (by simp [hsender]))

@[simp] theorem setSession_self (session : SessionObject) :
    (s.setSession x session).sessions x = session := by
  simp [setSession]

theorem setSession_of_ne (session : SessionObject) {y : ℕ} (hy : y ≠ x) :
    (s.setSession x session).sessions y = s.sessions y := by
  simp [setSession, hy]

/-- One session changes its place; all others and the senders keep their
marks. -/
theorem Holds.change (h : s.Holds lists) {s' : SessionHeap} {lists' : ℕ → List ℕ}
    (hchain : ∀ b, Chain s'.next (s'.senders b).session (lists' b))
    (hnodup : ∀ b, (lists' b).Nodup)
    (hid : ∀ b, (s'.senders b).id = (s.senders b).id)
    (hmutex : ∀ b, (s'.senders b).mutex = (s.senders b).mutex)
    (hother : ∀ y, y ≠ x → (s'.sessions y).sender = (s.sessions y).sender ∧
      (s'.sessions y).data = (s.sessions y).data)
    (hmember : ∀ b y, y ≠ x → (y ∈ lists' b ↔ y ∈ lists b))
    (hself : ∀ b, x ∈ lists' b ↔ (s'.sessions x).sender = some b)
    (hlive : (s'.sessions x).data.id = rtpSessionId ↔
      (s'.sessions x).sender ≠ none)
    (howner : ∀ b, lists' b ≠ [] → (s.senders b).id = rtpSenderId) :
    s'.Holds lists' := by
  refine ⟨hchain, hnodup, ?_, ?_, ?_, ?_⟩
  · intro b y
    by_cases hy : y = x
    · rw [hy]
      exact hself b
    · rw [hmember b y hy, (hother y hy).1]
      exact h.member b y
  · intro y
    by_cases hy : y = x
    · rw [hy]
      exact hlive
    · rw [(hother y hy).1, (hother y hy).2]
      exact h.live y
  · intro b hne
    rw [hid]
    exact howner b hne
  · intro b hid'
    rw [hid] at hid'
    rw [hmutex]
    exact h.mutex b hid'

/-- A created session is appended to the list of its sender. -/
theorem Holds.create_ok {fuel : ℕ} (h : s.Holds lists) {args : SessionArgs}
    (hid : (s.senders a).id = rtpSenderId)
    (hdead : (s.sessions x).data.id ≠ rtpSessionId)
    (htype : ¬ rtpPayloadMaxType < args.payloadType) (hip : args.ip ≠ 0)
    (hrtp : args.rtpPort ≠ 0) (hrtcp : args.rtcpPort ≠ 0)
    (hfuel : (lists a).length ≤ fuel) :
    ∃ s', w6xRtpSenderSessionCreate fuel (some a) (some x) args s =
        .ok (.ok, s') ∧
      s'.Holds (Function.update lists a (lists a ++ [x])) := by
  have hx := h.notMem hdead
  let cleared := s.setSession x args.configured
  have hchain : ∀ b, Chain cleared.next (cleared.senders b).session
      (lists b) := by
    intro b
    rw [setSession_next]
    exact (h.chain b).update_of_notMem (hx b)
  have hend : cleared.next x = none := by
    rw [setSession_next, Function.update_self]
    rfl
  obtain ⟨linked, hlink, hsame, hlinked⟩ := link_ok hchain h.nodup
    (fun b y ha hb => h.disjoint ha hb) hx hend hfuel
  have htake : cleared.take a = .ok () := if_pos (h.mutex a hid)
  refine ⟨linked.setSession x (args.started a (linked.sessions x)), ?_, ?_⟩
  · simp only [w6xRtpSenderSessionCreate, hid, hdead, htype, hip, hrtp, hrtcp,
      ne_eq, not_true_eq_false, or_self, if_false]
    change (cleared.take a >>= _) = _
    rw [htake]
    change (cleared.link fuel a x >>= _) = _
    rw [hlink]
    rfl
  · refine h.change (x := x) ?_ ?_ hsame.id hsame.mutex ?_ ?_ ?_ ?_ ?_
    · intro b
      rw [setSession_next]
      change Chain (Function.update linked.next x (linked.next x)) _ _
      rw [Function.update_eq_self]
      exact hlinked b
    · intro b
      by_cases hb : b = a
      · subst hb
        rw [Function.update_self]
        exact List.nodup_append.mpr ⟨h.nodup b, List.nodup_singleton x, by
          intro y hy z hz
          rw [List.mem_singleton.mp hz]
          rintro rfl
          exact hx b hy⟩
      · rw [Function.update_of_ne hb]
        exact h.nodup b
    · intro y hy
      rw [setSession_of_ne _ hy, hsame.sender, hsame.data, setSession_of_ne _ hy]
      exact ⟨rfl, rfl⟩
    · intro b y hy
      by_cases hb : b = a
      · subst hb
        simp [hy]
      · simp [hb]
    · intro b
      by_cases hb : b = a
      · subst hb
        simp [SessionArgs.started]
      · simp [SessionArgs.started, hb, hx b, Ne.symm hb]
    · simp [SessionArgs.started]
    · intro b hne
      by_cases hb : b = a
      · rw [hb]
        exact hid
      · rw [Function.update_of_ne hb] at hne
        exact h.owner b hne

/-- A deleted session is erased from the list of its sender. -/
theorem Holds.delete_ok {fuel : ℕ} (h : s.Holds lists)
    (hlive : (s.sessions x).data.id = rtpSessionId)
    (hsender : (s.sessions x).sender = some a)
    (hfuel : (lists a).length ≤ fuel) :
    ∃ s', w6xRtpSenderSessionDelete fuel (some x) s = .ok (.ok, s') ∧
      s'.Holds fun b => (lists b).erase x := by
  have hx : x ∈ lists a := (h.member a x).mpr hsender
  have hid : (s.senders a).id = rtpSenderId :=
    h.owner a (List.ne_nil_of_mem hx)
  let unnamed := s.setSession x { s.sessions x with
    data := { (s.sessions x).data with id := 0 } }
  have hnext : unnamed.next = s.next := by
    rw [setSession_next]
    exact Function.update_eq_self x s.next
  have hchain : ∀ b, Chain unnamed.next (unnamed.senders b).session
      (lists b) := by
    intro b
    rw [hnext]
    exact h.chain b
  obtain ⟨unlinked, hunlink, hsame, hunlinked⟩ := unlink_ok hchain h.nodup
    (fun b y ha hb => h.disjoint ha hb) hx hfuel
  have htake : unnamed.take a = .ok () := if_pos (h.mutex a hid)
  refine ⟨unlinked.setSession x { unlinked.sessions x with sender := none },
    ?_, ?_⟩
  · simp only [w6xRtpSenderSessionDelete]
    split
    · next heq =>
        rw [hsender] at heq
        cases heq
    · next b heq =>
        rw [hsender] at heq
        cases heq
        rw [if_neg (not_not_intro hlive)]
        change (unnamed.take a >>= _) = _
        rw [htake]
        change (unnamed.unlink fuel a x >>= _) = _
        rw [hunlink]
        rfl
  · refine h.change (x := x) ?_ (fun b => (h.nodup b).erase x) hsame.id
      hsame.mutex ?_ ?_ ?_ ?_ ?_
    · intro b
      rw [setSession_next]
      change Chain (Function.update unlinked.next x (unlinked.next x)) _ _
      rw [Function.update_eq_self]
      exact hunlinked b
    · intro y hy
      rw [setSession_of_ne _ hy, hsame.sender, hsame.data, setSession_of_ne _ hy]
      exact ⟨rfl, rfl⟩
    · intro b y hy
      rw [(h.nodup b).mem_erase_iff]
      simp [hy]
    · intro b
      rw [(h.nodup b).mem_erase_iff]
      simp
    · have hzero : ¬ (0 : UInt32) = rtpSessionId := by decide
      simp [hsame.data, unnamed, hzero]
    · intro b hne
      refine h.owner b fun hnil => hne ?_
      rw [hnil]
      rfl

theorem Holds.senderDelete_ok (h : s.Holds lists)
    (hid : (s.senders a).id = rtpSenderId) (hnil : lists a = []) :
    ∃ s', w6xRtpSenderDelete (some a) s = .ok (.ok, s') ∧ s'.Holds lists := by
  have hhead : (s.senders a).session = none :=
    (h.chain a).eq_nil_iff.mp hnil
  have htake : s.take a = .ok () := if_pos (h.mutex a hid)
  refine ⟨s.setSender a { s.senders a with id := 0, mutex := false }, ?_, ?_⟩
  · simp only [w6xRtpSenderDelete, hid, htake, hhead, ne_eq,
      not_true_eq_false, if_false]
    rfl
  · have hzero : (0 : UInt32) ≠ rtpSenderId := by decide
    refine ⟨?_, h.nodup, h.member, h.live, ?_, ?_⟩
    · intro b
      have hsame : ((s.setSender a { s.senders a with
          id := 0, mutex := false }).senders b).session =
            (s.senders b).session := by
        by_cases hb : b = a
        · simp [setSender, hb]
        · simp [setSender, hb]
      rw [hsame]
      exact h.chain b
    · intro b hne
      by_cases hb : b = a
      · subst hb
        exact absurd hnil hne
      · simpa [setSender, hb] using h.owner b hne
    · intro b hid'
      by_cases hb : b = a
      · subst hb
        simp [setSender, hzero] at hid'
      · simpa [setSender, hb] using h.mutex b (by simpa [setSender, hb] using hid')

end SessionHeap

/-! ## Calls and runs -/

/-- The arguments that creation accepts. -/
structure SessionArgs.Valid (args : SessionArgs) : Prop where
  payloadType : args.payloadType ≤ rtpPayloadMaxType
  ip : args.ip ≠ 0
  rtpPort : args.rtpPort ≠ 0
  rtcpPort : args.rtcpPort ≠ 0

/-- Which calls succeed: creation of a session that is in no list on an
initialised sender, deletion of a session that is in a list, deletion of an
initialised sender whose list is empty. -/
def SessionCall.Succeeds (s : SessionHeap) (lists : ℕ → List ℕ) :
    SessionCall → Prop
  | .create sender session args =>
      ∃ a x, sender = some a ∧ session = some x ∧
        (s.senders a).id = rtpSenderId ∧ (∀ b, x ∉ lists b) ∧ args.Valid
  | .delete session => ∃ a x, session = some x ∧ x ∈ lists a
  | .senderDelete sender =>
      ∃ a, sender = some a ∧ (s.senders a).id = rtpSenderId ∧ lists a = []

section Runs

variable {s : SessionHeap} {lists : ℕ → List ℕ} {fuel : ℕ}

/-- What a call between two heaps does to lists that the first one holds. -/
structure SessionCall.Sound (call : SessionCall) (lists : ℕ → List ℕ)
    (s : SessionHeap) (status : RtpStatus) (s' : SessionHeap) : Prop where
  holds : s'.Holds (call.effect lists status)
  succeeds : status = .ok ↔ call.Succeeds s lists
  unchanged : status ≠ .ok → s' = s

theorem SessionCall.effect_of_ne {call : SessionCall} {status : RtpStatus}
    (h : status ≠ .ok) : call.effect lists status = lists := by
  cases call with
  | create sender session args =>
      cases sender <;> cases session <;> simp [SessionCall.effect, h]
  | delete session => cases session <;> simp [SessionCall.effect, h]
  | senderDelete sender => rfl

/-- A call that is refused. -/
theorem SessionCall.Sound.refused {call : SessionCall} {status : RtpStatus}
    (h : s.Holds lists) (hstatus : status ≠ .ok)
    (hnot : ¬ call.Succeeds s lists) : call.Sound lists s status s := by
  refine ⟨?_, ?_, fun _ => rfl⟩
  · rw [SessionCall.effect_of_ne hstatus]
    exact h
  · exact ⟨fun hok => absurd hok hstatus, fun hs => absurd hs hnot⟩

theorem SessionCall.run_sound (h : s.Holds lists)
    (hfuel : ∀ a, (lists a).length ≤ fuel) (call : SessionCall) :
    ∃ status s', call.run fuel s = .ok (status, s') ∧
      call.Sound lists s status s' := by
  cases call with
  | create sender session args =>
      cases sender with
      | none =>
          refine ⟨.errorPtr, s, rfl, .refused h (by decide) ?_⟩
          rintro ⟨_, _, ha, -⟩
          cases ha
      | some a =>
          cases session with
          | none =>
              refine ⟨.errorPtr, s, rfl, .refused h (by decide) ?_⟩
              rintro ⟨_, _, -, hx, -⟩
              cases hx
          | some x =>
              by_cases hbad : (s.senders a).id ≠ rtpSenderId ∨
                  (s.sessions x).data.id = rtpSessionId ∨
                  rtpPayloadMaxType < args.payloadType ∨ args.ip = 0 ∨
                  args.rtpPort = 0 ∨ args.rtcpPort = 0
              · refine ⟨.errorParameters, s, if_pos hbad,
                  .refused h (by decide) ?_⟩
                rintro ⟨_, _, ha, hx, hid, hfree, hvalid⟩
                cases ha
                cases hx
                rcases hbad with hid' | hlive | htype | hip | hrtp | hrtcp
                · exact hid' hid
                · obtain ⟨b, hb⟩ := Option.ne_none_iff_exists'.mp
                    ((h.live x).mp hlive)
                  exact hfree b ((h.member b x).mpr hb)
                · exact absurd hvalid.payloadType (UInt16.not_le.mpr htype)
                · exact hvalid.ip hip
                · exact hvalid.rtpPort hrtp
                · exact hvalid.rtcpPort hrtcp
              · simp only [not_or, not_not] at hbad
                obtain ⟨hid, hdead, htype, hip, hrtp, hrtcp⟩ := hbad
                obtain ⟨s', hrun, hholds⟩ := h.create_ok hid hdead htype hip
                  hrtp hrtcp (hfuel a)
                exact ⟨.ok, s', hrun, hholds,
                  ⟨fun _ => ⟨a, x, rfl, rfl, hid, h.notMem hdead,
                    UInt16.not_lt.mp htype, hip, hrtp, hrtcp⟩, fun _ => rfl⟩,
                  fun hne => absurd rfl hne⟩
  | delete session =>
      cases session with
      | none =>
          refine ⟨.errorPtr, s, rfl, .refused h (by decide) ?_⟩
          rintro ⟨_, _, hx, -⟩
          cases hx
      | some x =>
          cases hsender : (s.sessions x).sender with
          | none =>
              refine ⟨.errorPtr, s, ?_, .refused h (by decide) ?_⟩
              · simp [SessionCall.run, w6xRtpSenderSessionDelete, hsender]
              · rintro ⟨a, _, hx, hmem⟩
                cases hx
                rw [h.member, hsender] at hmem
                cases hmem
          | some a =>
              have hlive : (s.sessions x).data.id = rtpSessionId :=
                (h.live x).mpr (by simp [hsender])
              obtain ⟨s', hrun, hholds⟩ := h.delete_ok hlive hsender (hfuel a)
              exact ⟨.ok, s', hrun, hholds,
                ⟨fun _ => ⟨a, x, rfl, (h.member a x).mpr hsender⟩,
                  fun _ => rfl⟩, fun hne => absurd rfl hne⟩
  | senderDelete sender =>
      cases sender with
      | none =>
          refine ⟨.errorPtr, s, rfl, .refused h (by decide) ?_⟩
          rintro ⟨_, ha, -⟩
          cases ha
      | some a =>
          by_cases hid : (s.senders a).id = rtpSenderId
          · by_cases hnil : lists a = []
            · obtain ⟨s', hrun, hholds⟩ := h.senderDelete_ok hid hnil
              exact ⟨.ok, s', hrun, hholds,
                ⟨fun _ => ⟨a, rfl, hid, hnil⟩, fun _ => rfl⟩,
                fun hne => absurd rfl hne⟩
            · have hhead : (s.senders a).session ≠ none := fun hhead =>
                hnil ((h.chain a).eq_nil_iff.mpr hhead)
              have htake : s.take a = .ok () := if_pos (h.mutex a hid)
              refine ⟨.errorParameters, s, ?_, .refused h (by decide) ?_⟩
              · simp only [SessionCall.run, w6xRtpSenderDelete, hid, htake,
                  hhead, ne_eq, not_true_eq_false, not_false_eq_true, if_false,
                  if_true]
                rfl
              · rintro ⟨_, ha, -, hempty⟩
                cases ha
                exact hnil hempty
          · refine ⟨.errorParameters, s, if_pos hid, .refused h (by decide) ?_⟩
            rintro ⟨_, ha, hid', -⟩
            cases ha
            exact hid hid'

/-- The lists after some calls that started from `lists`. -/
def listsAfter (lists : ℕ → List ℕ) (records : List SessionRecord) :
    ℕ → List ℕ :=
  records.foldl (fun lists record => record.call.effect lists record.status)
    lists

theorem SessionCall.length_effect_le (call : SessionCall)
    (status : RtpStatus) (a : ℕ) :
    (call.effect lists status a).length ≤ (lists a).length + 1 := by
  by_cases hstatus : status = .ok
  · match call with
    | .create none session _ => exact Nat.le_succ _
    | .create (some _) none _ => exact Nat.le_succ _
    | .create (some b) (some x) _ =>
        simp only [SessionCall.effect, hstatus, if_true]
        by_cases ha : a = b
        · simp [ha]
        · simp [ha]
    | .delete none => exact Nat.le_succ _
    | .delete (some x) =>
        simp only [SessionCall.effect, hstatus, if_true]
        exact List.length_erase_le.trans (Nat.le_succ _)
    | .senderDelete _ => exact Nat.le_succ _
  · rw [SessionCall.effect_of_ne hstatus]
    exact Nat.le_succ _

theorem runSessionCalls_sound (calls : List SessionCall)
    (h : s.Holds lists)
    (hfuel : ∀ a, (lists a).length + calls.length ≤ fuel) :
    ∃ records, runSessionCalls fuel calls s = .ok records ∧
      records.map SessionRecord.call = calls ∧
      ∀ earlier record later, records = earlier ++ record :: later →
        record.call.Sound (listsAfter lists earlier) record.before
          record.status record.after := by
  induction calls generalizing s lists with
  | nil =>
      refine ⟨[], rfl, rfl, ?_⟩
      intro earlier record later heq
      simp at heq
  | cons call calls ih =>
      have hroom : ∀ a, (lists a).length ≤ fuel := fun a =>
        (Nat.le_add_right _ _).trans (hfuel a)
      obtain ⟨status, s', hcall, hsound⟩ := call.run_sound h hroom
      have hfuel' : ∀ a,
          (call.effect lists status a).length + calls.length ≤ fuel := by
        intro a
        have hlen : (call.effect lists status a).length ≤
            (lists a).length + 1 := call.length_effect_le status a
        have hfuel' := hfuel a
        rw [List.length_cons] at hfuel'
        omega
      obtain ⟨records, hrun, hcalls, hrest⟩ := ih hsound.holds hfuel'
      refine ⟨⟨call, s, status, s'⟩ :: records, ?_, ?_, ?_⟩
      · simp only [runSessionCalls, hcall, hrun, ok_bind, pure_eq_ok]
      · rw [List.map_cons, hcalls]
      · intro earlier record later heq
        cases earlier with
        | nil =>
            rw [List.nil_append, List.cons.injEq] at heq
            obtain ⟨rfl, -⟩ := heq
            exact hsound
        | cons first earlier =>
            rw [List.cons_append, List.cons.injEq] at heq
            obtain ⟨rfl, heq⟩ := heq
            exact hrest earlier record later heq

end Runs

/-- Senders with the given ids, those that are initialised with an empty list,
and sessions that were never used. -/
def startHeap (ids : ℕ → UInt32) : SessionHeap where
  senders a := ⟨ids a, none, ids a == rtpSenderId⟩
  sessions _ := clearedSession

theorem startHeap_holds (ids : ℕ → UInt32) :
    (startHeap ids).Holds fun _ => [] := by
  refine ⟨fun _ => rfl, fun _ => List.nodup_nil, ?_, ?_, ?_, ?_⟩
  · intro a x
    simp [startHeap, clearedSession]
  · intro x
    have hzero : (0 : UInt32) ≠ rtpSessionId := by decide
    simp [startHeap, clearedSession, hzero]
  · intro a hne
    exact absurd rfl hne
  · intro a hid
    simpa [startHeap] using hid

/-- Over every run of calls the pointers of a sender form the list of the
sessions created on it and not yet deleted, in the order of their creation.  No
call faults, a call succeeds exactly when it should, and one that does not
leaves every object as it was. -/
theorem runSessionCalls_lists (ids : ℕ → UInt32) (calls : List SessionCall)
    (fuel : ℕ) :
    ∃ records,
      runSessionCalls (calls.length + fuel) calls (startHeap ids) =
        .ok records ∧
      records.map SessionRecord.call = calls ∧
      ∀ earlier record later, records = earlier ++ record :: later →
        record.call.Sound (listsAfter (fun _ => []) earlier) record.before
          record.status record.after := by
  apply runSessionCalls_sound calls (startHeap_holds ids)
  intro a
  rw [List.length_nil]
  omega

end RtpMulticast
