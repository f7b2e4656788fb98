import Mathlib.Tactic.Tauto
import Ferusa.Core.Payload

/-!
# Approval on the desktop

How the desktop asks the phone for an approval and what it accepts as
an answer: the request it issues, and the checks a response has to pass
before the share it carries is used.
-/

namespace Desktop

/-- What `pairing.json` records of the paired phone. -/
structure PairingData where
  pairingId : Uuid
  phoneNodeId : Bytes32
  approvalPublicKeyDer : Bytes
  createdAtMs : Nat
  deriving DecidableEq

/-- All the ways a 2FA request can fail. -/
inductive TwofaError where
  | signatureMismatch
  | pairingGenerationMismatch
  | unknownRequest
  | actionMismatch
  | correlationCodeMismatch
  | denied
  | missingUnlockShare
  | timestampSkew
  deriving DecidableEq, Repr

/-- The text of a failed 2FA request. -/
def TwofaError.toString : TwofaError → String
  | signatureMismatch => "signature mismatch — response may be forged or replayed"
  | pairingGenerationMismatch =>
    "pairing generation mismatch — request or response is stale"
  | unknownRequest => "unknown request_id in response"
  | actionMismatch => "action mismatch — response action differs from request"
  | correlationCodeMismatch =>
    "correlation code mismatch — response code differs from request"
  | denied => "request was denied by the phone"
  | missingUnlockShare => "approved response did not include required phone unlock share"
  | timestampSkew => "auth timestamp outside the accepted freshness window"

/-- What an accepted approval hands to its caller. -/
structure ApprovalResult where
  unlockShare : Option Bytes32
  deriving DecidableEq

/-- A check that fails with an error. -/
def require (check : Prop) [Decidable check] (error : TwofaError) : Except TwofaError Unit :=
  if check then .ok () else .error error

@[simp] theorem require_eq_ok {check : Prop} [Decidable check] {error : TwofaError} :
    require check error = .ok () ↔ check := by
  unfold require
  split <;> simp_all

/-- `ensure_pairing_generation`. -/
def ensurePairingGeneration (activePairingId requestPairingId responsePairingId : Uuid) :
    Except TwofaError Unit :=
  require (requestPairingId = activePairingId ∧ responsePairingId = activePairingId)
    .pairingGenerationMismatch

/-- `validate_auth_exchange`, with the clock at `nowMs`. -/
def validateAuthExchange (req : AuthRequest) (resp : AuthResponse) (nowMs : Nat) :
    Except TwofaError Unit :=
  (validateAuthExchangeTimestamps req resp nowMs).mapError fun _ => .timestampSkew

/-- The request that `request_approval_over_endpoint` issues. -/
def issueRequest (pairing : PairingData) (requestId : Uuid) (correlationCode : Nat)
    (action : VaultAction) (entryTitle : Option String) (unlockShareRequested : Bool)
    (timestamp : Nat) : AuthRequest :=
  { pairingId := pairing.pairingId, requestId, correlationCode, action, entryTitle,
    unlockShareRequested, timestamp }

variable [Crypto]

/-- **`validate_response`**, with the clock at `nowMs`. -/
def validateResponse (req : AuthRequest) (pairing : PairingData) (resp : AuthResponse)
    (nowMs : Nat) : Except TwofaError Unit := do
  ensurePairingGeneration pairing.pairingId req.pairingId resp.pairingId
  require (resp.requestId = req.requestId) .unknownRequest
  require (verifyApprovalSignature pairing.approvalPublicKeyDer req resp) .signatureMismatch
  validateAuthExchange req resp nowMs
  require (resp.correlationCode = req.correlationCode) .correlationCodeMismatch
  require (resp.action = req.action) .actionMismatch
  require resp.approved .denied

/-- The end of `request_approval_over_endpoint`: the response is
validated and its share handed on. -/
def acceptResponse (req : AuthRequest) (pairing : PairingData) (resp : AuthResponse)
    (nowMs : Nat) : Except TwofaError ApprovalResult := do
  validateResponse req pairing resp nowMs
  pure { unlockShare := resp.unlockShare }

omit [Crypto] in
/-- An error that is rewritten stays one. -/
theorem mapError_eq_ok_iff {α ε δ : Type} {g : ε → δ} {y : Except ε α} {a : α} :
    y.mapError g = .ok a ↔ y = .ok a := by
  cases y with
  | ok b =>
    show Except.ok b = Except.ok a ↔ _
    rw [Except.ok.injEq, Except.ok.injEq]
  | error e => exact ⟨nofun, nofun⟩

omit [Crypto] in
/-- A check, then the rest. -/
theorem bind_eq_ok {α : Type} {x : Except TwofaError Unit} {y : Except TwofaError α} {a : α} :
    (x >>= fun _ => y) = .ok a ↔ x = .ok () ∧ y = .ok a := by
  cases x with
  | error e => exact ⟨nofun, fun h => nomatch h.1⟩
  | ok a => exact ⟨fun h => ⟨rfl, h⟩, fun h => h.2⟩

omit [Crypto] in
/-- An exchange is fresh when both its timestamps are. -/
theorem validateAuthExchange_eq_ok_iff {req : AuthRequest} {resp : AuthResponse} {nowMs : Nat} :
    validateAuthExchange req resp nowMs = .ok () ↔
      validateAuthTimestamp req.timestamp nowMs = .ok () ∧
        validateAuthTimestamp resp.timestamp nowMs = .ok () := by
  unfold validateAuthExchange validateAuthExchangeTimestamps
  cases h : validateAuthTimestamp req.timestamp nowMs with
  | error e => exact ⟨nofun, fun h => nomatch h.1⟩
  | ok a =>
    show (validateAuthTimestamp resp.timestamp nowMs).mapError _ = _ ↔ _
    cases h' : validateAuthTimestamp resp.timestamp nowMs with
    | error e => exact ⟨nofun, fun h => nomatch h.2⟩
    | ok a => exact ⟨fun _ => ⟨rfl, rfl⟩, fun _ => rfl⟩

/-- **What a response passes, in one line.** -/
theorem validateResponse_eq_ok_iff {req : AuthRequest} {pairing : PairingData}
    {resp : AuthResponse} {nowMs : Nat} :
    validateResponse req pairing resp nowMs = .ok () ↔
      req.pairingId = pairing.pairingId ∧ resp.pairingId = pairing.pairingId ∧
      resp.requestId = req.requestId ∧
      verifyApprovalSignature pairing.approvalPublicKeyDer req resp = true ∧
      validateAuthTimestamp req.timestamp nowMs = .ok () ∧
      validateAuthTimestamp resp.timestamp nowMs = .ok () ∧
      resp.correlationCode = req.correlationCode ∧ resp.action = req.action ∧
      resp.approved = true := by
  unfold validateResponse ensurePairingGeneration
  rw [bind_eq_ok, bind_eq_ok, bind_eq_ok, bind_eq_ok, bind_eq_ok, bind_eq_ok]
  rw [validateAuthExchange_eq_ok_iff, require_eq_ok, require_eq_ok, require_eq_ok,
    require_eq_ok, require_eq_ok, require_eq_ok]
  tauto

end Desktop
