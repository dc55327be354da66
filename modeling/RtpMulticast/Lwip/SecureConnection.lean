import Mathlib.Data.Nat.Basic

/-!
# TLS connections

`ssl_secure_connection` of `altls_mbedtls.c` over the answers of the functions
it calls.  On success the connection belongs to the caller; the common exit of
the failures closes the socket that the caller passed in.
-/

namespace RtpMulticast

/-- `authmode` of the configuration. -/
inductive SslAuthmode where
  | none
  | optional
  | required
  deriving DecidableEq, Repr

/-- How the loop around `mbedtls_ssl_handshake` ends; `certificate` stands for
the two errors about the certificate of the peer. -/
inductive HandshakeEnd where
  | done
  | certificate
  | failed
  deriving DecidableEq, Repr

/-- Answers of `pvPortMalloc`, `mbedtls_ssl_setup`, `mbedtls_ssl_handshake` and
`mbedtls_ssl_get_verify_result`. -/
structure SecureAnswers where
  allocated : Bool
  setup : Bool
  handshake : HandshakeEnd
  verifyFlags : UInt32
  deriving DecidableEq, Repr

/-- Whether a connection is returned, and how often the socket was closed. -/
structure SecureResult where
  connection : Bool
  closes : ℕ
  deriving DecidableEq, Repr

/-- The label `_err`. -/
def sslSecureConnectionErr : SecureResult := ⟨false, 1⟩

/-- The check of the peer certificate in client mode. -/
def sslVerifyPeer (authmode : SslAuthmode) (verifyFlags : UInt32) :
    SecureResult :=
  if verifyFlags ≠ 0 ∧ authmode = .required then sslSecureConnectionErr
  else ⟨true, 0⟩

def sslSecureConnection (isClient : Bool) (authmode : SslAuthmode)
    (answers : SecureAnswers) : SecureResult :=
  if !answers.allocated then ⟨false, 0⟩
  else if !answers.setup then sslSecureConnectionErr
  else
    match answers.handshake with
    | .failed => sslSecureConnectionErr
    | .certificate =>
        if isClient then sslVerifyPeer authmode answers.verifyFlags
        else sslSecureConnectionErr
    | .done =>
        if isClient then sslVerifyPeer authmode answers.verifyFlags
        else ⟨true, 0⟩

/-- A connection is returned with the socket open; without one the socket is
closed unless there was no memory. -/
theorem sslSecureConnection_closes (isClient : Bool) (authmode : SslAuthmode)
    (answers : SecureAnswers) :
    (sslSecureConnection isClient authmode answers).closes =
      if (sslSecureConnection isClient authmode answers).connection then 0
      else if answers.allocated then 1 else 0 := by
  have hverify : (sslVerifyPeer authmode answers.verifyFlags).closes =
      if (sslVerifyPeer authmode answers.verifyFlags).connection then 0
      else 1 := by
    unfold sslVerifyPeer sslSecureConnectionErr
    split <;> rfl
  unfold sslSecureConnection
  by_cases hallocated : answers.allocated = true
  · by_cases hsetup : answers.setup = true
    · simp only [hallocated, hsetup, Bool.not_true, Bool.false_eq_true, if_false,
        if_true]
      cases answers.handshake <;> cases isClient <;> first | exact hverify | rfl
    · simp [hallocated, hsetup, sslSecureConnectionErr]
  · simp [hallocated]

end RtpMulticast
