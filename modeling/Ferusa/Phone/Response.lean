import Ferusa.Core.Payload

/-!
# Responses of the phone

The response the phone builds to a request, and the two uses it makes of
an approval key: signing a response, and signing the text that shows
that it holds the key.
-/

namespace Phone

/-- The share of a response: the phone's, when the request asks for it
and is approved. -/
def responseShare (approved unlockShareRequested : Bool) (unlockShare : Option Bytes32) :
    Except Anyhow (Option Bytes32) :=
  match approved, unlockShareRequested, unlockShare with
  | true, true, some share => .ok (some share)
  | true, true, none => .error ["approved unlock response missing phone share"]
  | _, _, _ => .ok none

/-- **`build_response_for_signing`.** -/
def buildResponseForSigning (req : AuthRequest) (approved : Bool)
    (unlockShare : Option Bytes32) (timestamp : Nat) : Except Anyhow AuthResponse :=
  (responseShare approved req.unlockShareRequested unlockShare).map fun share =>
    { pairingId := req.pairingId, requestId := req.requestId,
      correlationCode := req.correlationCode, action := req.action, approved,
      unlockShare := share, timestamp, signature := [] }

/-- What a caller of `send_signed_response` answers. The end of
`approve_request` approves; `deny_request`, `deny_pending_request`, the
PIN cooldowns and the refusal of a second request deny. -/
inductive Answer where
  | approve
  | deny
  deriving DecidableEq

/-- The `approved` argument. -/
def Answer.approved : Answer → Bool
  | approve => true
  | deny => false

/-- The `unlock_share` argument: `approve_request` passes the phone's
share when the request asks for it, a denial passes none. -/
def Answer.unlockShare (phoneShare : Bytes32) (req : AuthRequest) : Answer → Option Bytes32
  | approve => if req.unlockShareRequested then some phoneShare else none
  | deny => none

/-- **A run of `send_signed_response`** that signed. -/
structure Signing where
  request : AuthRequest
  answer : Answer
  timestamp : Nat
  signature : Bytes
  deriving DecidableEq

/-- The response it builds. -/
def Signing.unsigned (phoneShare : Bytes32) (s : Signing) : Except Anyhow AuthResponse :=
  buildResponseForSigning s.request s.answer.approved
    (s.answer.unlockShare phoneShare s.request) s.timestamp

/-- The response it sends. -/
def Signing.response (phoneShare : Bytes32) (s : Signing) : Except Anyhow AuthResponse :=
  (s.unsigned phoneShare).map fun resp => { resp with signature := s.signature }

/-- The uses of an approval key. -/
inductive KeyUse where
  | response (s : Signing)
  | ready (pairingId : Uuid) (signature : Bytes)
  deriving DecidableEq

/-- **What a use signs**: the text and the signature. -/
def KeyUse.signed (phoneShare : Bytes32) : KeyUse → Except Anyhow (String × Bytes)
  | response s => (s.unsigned phoneShare).map fun resp =>
    (canonicalApprovalPayload s.request resp, s.signature)
  | ready pairingId signature => .ok (canonicalPairingReadyPayload pairingId, signature)

/-! ## What a built response is -/

theorem responseShare_denied (unlockShareRequested : Bool) (unlockShare : Option Bytes32) :
    responseShare false unlockShareRequested unlockShare = .ok none := by
  cases unlockShareRequested <;> rfl

/-- The share of an approval, where it is not missing. -/
theorem responseShare_approved {unlockShareRequested : Bool} {unlockShare share : Option Bytes32}
    (h : responseShare true unlockShareRequested unlockShare = .ok share) :
    share = if unlockShareRequested then unlockShare else none := by
  cases unlockShareRequested with
  | false => exact (Except.ok.inj h).symm
  | true =>
    cases unlockShare with
    | none => cases h
    | some s => exact (Except.ok.inj h).symm

/-- **A built response repeats its request.** -/
theorem buildResponseForSigning_eq_ok {req : AuthRequest} {approved : Bool}
    {unlockShare : Option Bytes32} {timestamp : Nat} {resp : AuthResponse}
    (h : buildResponseForSigning req approved unlockShare timestamp = .ok resp) :
    ∃ share, responseShare approved req.unlockShareRequested unlockShare = .ok share ∧
      resp = { pairingId := req.pairingId, requestId := req.requestId,
               correlationCode := req.correlationCode, action := req.action, approved,
               unlockShare := share, timestamp, signature := [] } := by
  unfold buildResponseForSigning at h
  cases hs : responseShare approved req.unlockShareRequested unlockShare with
  | error e =>
    rw [hs] at h
    cases h
  | ok share =>
    rw [hs] at h
    exact ⟨share, rfl, (Except.ok.inj h).symm⟩

/-- **A denial never carries a share**, whatever share is passed. -/
theorem buildResponseForSigning_denied {req : AuthRequest} {unlockShare : Option Bytes32}
    {timestamp : Nat} {resp : AuthResponse}
    (h : buildResponseForSigning req false unlockShare timestamp = .ok resp) :
    resp.unlockShare = none := by
  obtain ⟨share, hshare, rfl⟩ := buildResponseForSigning_eq_ok h
  rw [responseShare_denied] at hshare
  exact (Except.ok.inj hshare).symm

/-- A sent response is the built one with its signature. -/
theorem Signing.response_eq_ok {phoneShare : Bytes32} {s : Signing} {resp : AuthResponse}
    (h : s.response phoneShare = .ok resp) :
    s.unsigned phoneShare = .ok { resp with signature := [] } ∧
      resp.signature = s.signature := by
  unfold Signing.response at h
  cases hu : s.unsigned phoneShare with
  | error e =>
    rw [hu] at h
    cases h
  | ok built =>
    rw [hu] at h
    obtain ⟨share, -, hb⟩ := buildResponseForSigning_eq_ok hu
    have hresp : { built with signature := s.signature } = resp := Except.ok.inj h
    rw [← hresp, hb]
    exact ⟨rfl, rfl⟩

end Phone
