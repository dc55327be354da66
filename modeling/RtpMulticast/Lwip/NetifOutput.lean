import RtpMulticast.Support.ByteBuffer
import Mathlib.Data.List.Basic

/-!
# Sending a packet

`net_if_output` gets a packet of lwIP as a chain of pbufs and hands every pbuf
of it to `W6X_Netif_output`, which the driver sends as a frame of its own.
-/

namespace RtpMulticast

open ByteBuffer

/-- Link numbers, `NETIF_STA` and `NETIF_AP`; those of the driver are the same. -/
inductive NetifId where
  | sta
  | ap
  deriving DecidableEq, Repr

/-- `SPI_MSG_CTRL_TRAFFIC_NETWORK_STA` and `SPI_MSG_CTRL_TRAFFIC_NETWORK_AP`. -/
def NetifId.traffic : NetifId → UInt8
  | .sta => 1
  | .ap => 2

/-- The results of `err_t` that this code returns. -/
inductive ErrT where
  | ok
  | mem
  | buf
  | inprogress
  | val
  deriving DecidableEq, Repr

/-- One message for the driver, with its traffic type. -/
structure NetifFrame where
  traffic : UInt8
  payload : Bytes
  deriving DecidableEq, Repr

/-- The `switch` over a negative result of the driver. -/
def errOfWrite (ret : Int) : ErrT :=
  if ret = -1 then .buf
  else if ret = -2 then .val
  else if ret = -3 then .mem
  else if ret = -4 then .buf
  else if ret = -5 then .inprogress
  else .val

/-- The status, and the frames handed to the driver. -/
structure NetifOutputResult where
  status : ErrT
  frames : List NetifFrame
  deriving DecidableEq, Repr

/-- The loop over the pbufs `q` that are left; `write n` is the answer of the
driver to the write number `n`. -/
def netIfOutputLoop (traffic : UInt8) (write : ℕ → Int) :
    ℕ → ErrT → List Bytes → NetifOutputResult
  | _, status, [] => ⟨status, []⟩
  | n, status, q :: rest =>
      let status' := if write n < 0 then errOfWrite (write n) else status
      let result := netIfOutputLoop traffic write (n + 1) status' rest
      ⟨result.status, ⟨traffic, q⟩ :: result.frames⟩

/-- The link whose interface is `netIf`, the station first. -/
def netifLink (netifUsrList : NetifId → Option ℕ) (netIf : Option ℕ) :
    Option NetifId :=
  if netIf = netifUsrList .sta then some .sta
  else if netIf = netifUsrList .ap then some .ap
  else none

def netIfOutput (netifUsrList : NetifId → Option ℕ) (netIf : Option ℕ)
    (pBuf : List Bytes) (write : ℕ → Int) : NetifOutputResult :=
  match netifLink netifUsrList netIf with
  | none => ⟨.ok, []⟩
  | some link => netIfOutputLoop link.traffic write 0 .ok pBuf

section Loop

variable {traffic : UInt8} {write : ℕ → Int}

theorem errOfWrite_ne_ok (ret : Int) : errOfWrite ret ≠ .ok := by
  unfold errOfWrite
  split_ifs <;> decide

/-- Every pbuf becomes a frame, whatever the driver answers. -/
theorem netIfOutputLoop_frames (n : ℕ) (status : ErrT) (pBuf : List Bytes) :
    (netIfOutputLoop traffic write n status pBuf).frames =
      pBuf.map fun q => ⟨traffic, q⟩ := by
  induction pBuf generalizing n status with
  | nil => rfl
  | cons q rest ih =>
      simp only [netIfOutputLoop, List.map_cons, ih]

/-- An error stays: later writes only replace it by theirs. -/
theorem netIfOutputLoop_status_ne_ok {n : ℕ} {status : ErrT} {pBuf : List Bytes}
    (h : status ≠ .ok ∨ ∃ k < pBuf.length, write (n + k) < 0) :
    (netIfOutputLoop traffic write n status pBuf).status ≠ .ok := by
  induction pBuf generalizing n status with
  | nil =>
      rcases h with h | ⟨k, hk, -⟩
      · exact h
      · exact absurd hk (Nat.not_lt_zero k)
  | cons q rest ih =>
      simp only [netIfOutputLoop]
      apply ih
      by_cases hwrite : write n < 0
      · rw [if_pos hwrite]
        exact Or.inl (errOfWrite_ne_ok _)
      · rw [if_neg hwrite]
        refine h.imp_right ?_
        rintro ⟨k, hk, hneg⟩
        cases k with
        | zero => exact absurd hneg hwrite
        | succ k =>
            refine ⟨k, Nat.lt_of_succ_lt_succ hk, ?_⟩
            rwa [Nat.add_assoc, Nat.add_comm 1 k]

end Loop

section Output

variable {netifUsrList : NetifId → Option ℕ} {netIf : Option ℕ} {link : NetifId}

theorem netIfOutput_frames (hlink : netifLink netifUsrList netIf = some link)
    (pBuf : List Bytes) (write : ℕ → Int) :
    (netIfOutput netifUsrList netIf pBuf write).frames =
      pBuf.map fun q => ⟨link.traffic, q⟩ := by
  unfold netIfOutput
  rw [hlink]
  exact netIfOutputLoop_frames _ _ _

/-- A failed write is reported. -/
theorem netIfOutput_status_ne_ok (hlink : netifLink netifUsrList netIf = some link)
    {pBuf : List Bytes} {write : ℕ → Int}
    (hfail : ∃ n < pBuf.length, write n < 0) :
    (netIfOutput netifUsrList netIf pBuf write).status ≠ .ok := by
  unfold netIfOutput
  rw [hlink]
  refine netIfOutputLoop_status_ne_ok (Or.inr ?_)
  simpa using hfail

/-- What lwIP expects of its `linkoutput`: the packet goes out as one frame when
the driver accepts all writes, and a write that fails is reported. -/
def SendsOneFrame (netifUsrList : NetifId → Option ℕ) (netIf : Option ℕ)
    (link : NetifId) (pBuf : List Bytes) : Prop :=
  (∀ write : ℕ → Int, (∀ n, 0 ≤ write n) →
    (netIfOutput netifUsrList netIf pBuf write).frames =
      [⟨link.traffic, pBuf.flatten⟩]) ∧
  ∀ write : ℕ → Int, (∃ n < pBuf.length, write n < 0) →
    (netIfOutput netifUsrList netIf pBuf write).status ≠ .ok

/-- The packet goes out as one frame exactly when it is one pbuf. -/
theorem sendsOneFrame_iff (hlink : netifLink netifUsrList netIf = some link)
    (pBuf : List Bytes) :
    SendsOneFrame netifUsrList netIf link pBuf ↔ pBuf.length = 1 := by
  constructor
  · rintro ⟨hframes, -⟩
    have h := hframes (fun _ => 0) fun _ => Int.le_refl 0
    rw [netIfOutput_frames hlink] at h
    simpa using congrArg List.length h
  · intro hlen
    obtain ⟨q, rfl⟩ := List.length_eq_one_iff.mp hlen
    refine ⟨fun write _ => ?_, fun write hfail => netIfOutput_status_ne_ok hlink hfail⟩
    rw [netIfOutput_frames hlink]
    simp

end Output

/-- Two interfaces in `netif_usr_list`. -/
def twoNetifs : NetifId → Option ℕ
  | .sta => some 1
  | .ap => some 2

theorem sendsOneFrame_ap : SendsOneFrame twoNetifs (some 2) .ap [[10, 11, 12]] :=
  (sendsOneFrame_iff (by decide) _).mpr rfl

/-- A header and its data in two pbufs leave as two frames. -/
theorem header_and_data_split :
    ¬ SendsOneFrame twoNetifs (some 1) .sta [[10, 11], [12]] := by
  rintro ⟨hframes, -⟩
  have h := hframes (fun _ => 0) fun _ => Int.le_refl 0
  exact absurd h (by decide)

end RtpMulticast
