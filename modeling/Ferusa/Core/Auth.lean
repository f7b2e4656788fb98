import Ferusa.Core.Types

/-!
# Requests, responses and messages

What the two programs say to each other: the approval request and
response with their freshness window, the messages of the pairing
handshake, and the one message type of the wire.
-/

/-- How far a signed timestamp may be from the clock, either way. -/
def authTimestampMaxSkewMs : Nat := 5 * 60 * 1000

/-- Why a timestamp is refused. -/
inductive AuthTimestampError where
  | tooOld (timestampMs nowMs maxSkewMs : Nat)
  | tooFarInFuture (timestampMs nowMs maxSkewMs : Nat)
  deriving DecidableEq, Repr

/-- The text of a refused timestamp. -/
def AuthTimestampError.toString : AuthTimestampError → String
  | tooOld timestampMs nowMs maxSkewMs =>
    s!"auth timestamp {timestampMs} is older than {maxSkewMs}ms from {nowMs}"
  | tooFarInFuture timestampMs nowMs maxSkewMs =>
    s!"auth timestamp {timestampMs} is more than {maxSkewMs}ms after {nowMs}"

/-- **A timestamp is fresh** when it is within the skew of the clock,
either way. -/
def validateAuthTimestamp (timestampMs nowMs : Nat) :
    Except AuthTimestampError Unit :=
  if nowMs - timestampMs > authTimestampMaxSkewMs then
    .error (.tooOld timestampMs nowMs authTimestampMaxSkewMs)
  else if timestampMs - nowMs > authTimestampMaxSkewMs then
    .error (.tooFarInFuture timestampMs nowMs authTimestampMaxSkewMs)
  else .ok ()

/-- Sent by the CLI to the phone. -/
structure AuthRequest where
  pairingId : Uuid
  requestId : Uuid
  correlationCode : Nat
  action : VaultAction
  entryTitle : Option String
  unlockShareRequested : Bool
  timestamp : Nat
  deriving DecidableEq

/-- Sent by the phone to the CLI. -/
structure AuthResponse where
  pairingId : Uuid
  requestId : Uuid
  correlationCode : Nat
  action : VaultAction
  approved : Bool
  unlockShare : Option Bytes32
  timestamp : Nat
  signature : Bytes
  deriving DecidableEq

/-- Both timestamps of an exchange are fresh. -/
def validateAuthExchangeTimestamps (req : AuthRequest) (resp : AuthResponse)
    (nowMs : Nat) : Except AuthTimestampError Unit := do
  validateAuthTimestamp req.timestamp nowMs
  validateAuthTimestamp resp.timestamp nowMs

/-- Sent by the phone to the CLI when a pairing starts. -/
structure PairingHello where
  pairingId : Uuid
  approvalPublicKeyDer : Bytes
  phoneShare : Bytes32
  verificationCode : Nat
  deriving DecidableEq

/-- **Every message on the wire is one of these.** -/
inductive FerusaMessage where
  | ping
  | pong (pathInfo : Option String)
  | request (req : AuthRequest)
  | response (resp : AuthResponse)
  | pairingHello (hello : PairingHello)
  | pairingPrepared (pairingId : Uuid)
  | pairingReady (pairingId : Uuid) (signature : Bytes)
  | pairingCommit (pairingId : Uuid)
  | pairingCommitAck (pairingId : Uuid)
  | pairingActivate (pairingId : Uuid)
  | pairingActivateAck (pairingId : Uuid)
  deriving DecidableEq

/-- **Freshness, in one line**: the timestamp and the clock are within
the skew of each other. -/
theorem validateAuthTimestamp_eq_ok_iff {timestampMs nowMs : Nat} :
    validateAuthTimestamp timestampMs nowMs = .ok () ↔
      nowMs ≤ timestampMs + authTimestampMaxSkewMs ∧
        timestampMs ≤ nowMs + authTimestampMaxSkewMs := by
  unfold validateAuthTimestamp
  split
  · simp
    omega
  · split
    · simp
      omega
    · simp
      omega
