import Ferusa.Desktop.Twofa
import Ferusa.Phone.Response

/-!
# The approval exchange is exact

The desktop accepts a response if and only if the phone built and signed
it for exactly the request the desktop issued, approving it, and both
timestamps are fresh. Whatever the network delivers in its place – a
response to another request, an altered one, one the phone never
built – is refused.

The approval key is used as the phone uses it, and a signature verifies
under the key of the pairing exactly when the key produced it
(`Unforgeable`).
-/

namespace Joint

open Desktop Phone

variable [Crypto]

/-- **Signatures of the key cannot be forged and verify what was
signed**: those that verify are those of the given uses. -/
def Unforgeable (publicKeyDer : Bytes) (phoneShare : Bytes32) (uses : List KeyUse) : Prop :=
  ∀ text signature, Crypto.verifyEcdsa publicKeyDer text signature = true ↔
    ∃ use ∈ uses, use.signed phoneShare = .ok (text, signature)

/-- The response is one the phone built and signed over the request,
approving it. -/
def SignedApproval (phoneShare : Bytes32) (uses : List KeyUse) (req : AuthRequest)
    (resp : AuthResponse) : Prop :=
  ∃ s, KeyUse.response s ∈ uses ∧ s.request = req ∧ s.answer.approved = true ∧
    s.response phoneShare = .ok resp

/-- A timestamp within the skew of the clock. -/
def WithinSkew (timestamp nowMs : Nat) : Prop :=
  nowMs ≤ timestamp + authTimestampMaxSkewMs ∧ timestamp ≤ nowMs + authTimestampMaxSkewMs

variable {publicKeyDer : Bytes} {phoneShare : Bytes32} {uses : List KeyUse}

/-- **A verified response was signed for the request**: the payload
determines what the phone signed. -/
theorem verifyApprovalSignature_iff (h : Unforgeable publicKeyDer phoneShare uses)
    (req : AuthRequest) (resp : AuthResponse) :
    verifyApprovalSignature publicKeyDer req resp = true ↔
      ∃ s, KeyUse.response s ∈ uses ∧ s.request = req ∧ s.response phoneShare = .ok resp := by
  unfold verifyApprovalSignature
  rw [h]
  constructor
  · rintro ⟨use, hmem, hsigned⟩
    cases use with
    | ready id sig =>
      have htext : canonicalPairingReadyPayload id = canonicalApprovalPayload req resp :=
        congrArg Prod.fst (Except.ok.inj hsigned)
      exact absurd htext.symm (canonicalApprovalPayload_ne_pairingReady req resp id)
    | response s =>
      cases hu : s.unsigned phoneShare with
      | error e =>
        rw [KeyUse.signed, hu] at hsigned
        cases hsigned
      | ok built =>
        rw [KeyUse.signed, hu] at hsigned
        obtain ⟨htext, hsig⟩ := Prod.mk.inj (Except.ok.inj hsigned)
        obtain ⟨hreq, hbuilt⟩ := canonicalApprovalPayload_inj htext
        refine ⟨s, hmem, hreq, ?_⟩
        rw [Signing.response, hu]
        obtain ⟨share, -, rfl⟩ := buildResponseForSigning_eq_ok hu
        cases resp
        simp_all [AuthResponse.unsigned, Except.map]
  · rintro ⟨s, hmem, hreq, hresp⟩
    refine ⟨_, hmem, ?_⟩
    obtain ⟨hu, hsig⟩ := Signing.response_eq_ok hresp
    rw [KeyUse.signed, hu, ← hreq, hsig]
    rfl

omit [Crypto] in
/-- What a sent response repeats of its request. -/
theorem response_repeats {s : Signing} {resp : AuthResponse}
    (h : s.response phoneShare = .ok resp) :
    resp.pairingId = s.request.pairingId ∧ resp.requestId = s.request.requestId ∧
      resp.correlationCode = s.request.correlationCode ∧ resp.action = s.request.action ∧
      resp.approved = s.answer.approved := by
  obtain ⟨share, -, hbuilt⟩ := buildResponseForSigning_eq_ok (Signing.response_eq_ok h).1
  cases resp
  cases hbuilt
  exact ⟨rfl, rfl, rfl, rfl, rfl⟩

omit [Crypto] in
/-- The share of a sent approval is the phone's, when it is asked for. -/
theorem approval_share {s : Signing} {resp : AuthResponse} (happroved : s.answer.approved = true)
    (h : s.response phoneShare = .ok resp) :
    resp.unlockShare = if s.request.unlockShareRequested then some phoneShare else none := by
  obtain ⟨share, hshare, hbuilt⟩ :=
    buildResponseForSigning_eq_ok (Signing.response_eq_ok h).1
  have hresp : resp.unlockShare = share := by
    cases resp
    cases hbuilt
    rfl
  rw [happroved] at hshare
  rw [hresp, responseShare_approved hshare]
  cases ha : s.answer with
  | deny =>
    rw [ha] at happroved
    cases happroved
  | approve => cases hq : s.request.unlockShareRequested <;> simp [Answer.unlockShare, hq]

omit [Crypto] in
/-- A denial that is sent carries no share. -/
theorem denial_share {s : Signing} {resp : AuthResponse} (hdenied : s.answer.approved = false)
    (h : s.response phoneShare = .ok resp) : resp.unlockShare = none := by
  have hu := (Signing.response_eq_ok h).1
  rw [Signing.unsigned, hdenied] at hu
  have hshare := buildResponseForSigning_denied hu
  exact hshare

/-- **An accepted response was signed for the request**, and every fresh
one that was is accepted. -/
theorem validateResponse_iff {pairing : PairingData}
    (h : Unforgeable pairing.approvalPublicKeyDer phoneShare uses) {req : AuthRequest}
    (hissued : req.pairingId = pairing.pairingId) (resp : AuthResponse) (nowMs : Nat) :
    validateResponse req pairing resp nowMs = .ok () ↔
      SignedApproval phoneShare uses req resp ∧ WithinSkew req.timestamp nowMs ∧
        WithinSkew resp.timestamp nowMs := by
  rw [validateResponse_eq_ok_iff, verifyApprovalSignature_iff h, validateAuthTimestamp_eq_ok_iff,
    validateAuthTimestamp_eq_ok_iff]
  constructor
  · rintro ⟨-, -, -, ⟨s, hmem, hreq, hresp⟩, htq, htr, -, -, happroved⟩
    have hsame := (response_repeats hresp).2.2.2.2
    exact ⟨⟨s, hmem, hreq, hsame ▸ happroved, hresp⟩, htq, htr⟩
  · rintro ⟨⟨s, hmem, hreq, happroved, hresp⟩, htq, htr⟩
    obtain ⟨hpairing, hid, hcode, haction, hsame⟩ := response_repeats hresp
    rw [hreq] at hpairing hid hcode haction
    exact ⟨hissued, hpairing.trans hissued, hid, ⟨s, hmem, hreq, hresp⟩, htq, htr, hcode, haction,
      hsame.trans happroved⟩

/-- **The approval exchange is exact.** For every request the desktop
issues and every response it is given: the response is accepted if and
only if the phone built and signed it for that request, approving it,
and both timestamps are within the skew of the clock; an accepted
response hands on the phone's share when the request asks for it and
none otherwise; and a denial carries none, neither one the phone signs
nor any that could be built. -/
theorem approval_exchange_exact (pairing : PairingData) (phoneShare : Bytes32)
    (uses : List KeyUse)
    (hkey : Unforgeable pairing.approvalPublicKeyDer phoneShare uses) (requestId : Uuid)
    (correlationCode : Nat) (action : VaultAction) (entryTitle : Option String)
    (unlockShareRequested : Bool) (timestamp : Nat) :
    let req := issueRequest pairing requestId correlationCode action entryTitle
      unlockShareRequested timestamp
    (∀ resp nowMs, validateResponse req pairing resp nowMs = .ok () ↔
      SignedApproval phoneShare uses req resp ∧ WithinSkew req.timestamp nowMs ∧
        WithinSkew resp.timestamp nowMs) ∧
    (∀ resp nowMs result, acceptResponse req pairing resp nowMs = .ok result →
      result.unlockShare = if unlockShareRequested then some phoneShare else none) ∧
    (∀ (s : Signing) (resp : AuthResponse), s.answer.approved = false →
      s.response phoneShare = .ok resp → resp.unlockShare = none) ∧
    (∀ (asked : AuthRequest) (unlockShare : Option Bytes32) (nowMs : Nat) (resp : AuthResponse),
      buildResponseForSigning asked false unlockShare nowMs = .ok resp →
      resp.unlockShare = none) := by
  intro req
  have hvalid := validateResponse_iff hkey (show req.pairingId = pairing.pairingId from rfl)
  refine ⟨hvalid, ?_, ?_, ?_⟩
  · intro resp nowMs result haccept
    unfold acceptResponse at haccept
    cases hv : validateResponse req pairing resp nowMs with
    | error e =>
      rw [hv] at haccept
      cases haccept
    | ok u =>
      rw [hv] at haccept
      cases haccept
      obtain ⟨s, -, hreq, happroved, hresp⟩ := ((hvalid resp nowMs).1 hv).1
      have hshare := approval_share happroved hresp
      rw [hreq] at hshare
      exact hshare
  · exact fun s resp hdenied hresp => denial_share hdenied hresp
  · exact fun asked unlockShare nowMs resp hbuilt => buildResponseForSigning_denied hbuilt

/-! ## An exchange -/

/-- A key that verifies exactly what it signed in the given uses. -/
@[reducible] def Crypto.ofUses (publicKeyDer : Bytes) (phoneShare : Bytes32)
    (uses : List KeyUse) : Crypto :=
  { Crypto.plain with
    verifyEcdsa := fun key text signature => key == publicKeyDer &&
      uses.any fun use => match use.signed phoneShare with
        | .ok signed => signed == (text, signature)
        | .error _ => false }

omit [Crypto] in
/-- Such a key is one no signature of which is forged. -/
theorem unforgeable_ofUses (publicKeyDer : Bytes) (phoneShare : Bytes32) (uses : List KeyUse) :
    @Unforgeable (Crypto.ofUses publicKeyDer phoneShare uses) publicKeyDer phoneShare uses := by
  intro text signature
  show (_ && List.any _ _) = true ↔ _
  rw [Bool.and_eq_true, List.any_eq_true]
  refine ⟨fun ⟨_, use, hmem, h⟩ => ⟨use, hmem, ?_⟩, fun ⟨use, hmem, h⟩ => ⟨?_, use, hmem, ?_⟩⟩
  · split at h
    · rename_i hsigned
      rw [hsigned, eq_of_beq h]
    · cases h
  · exact beq_self_eq_true _
  · rw [h]
    exact beq_self_eq_true _

/-- The pairing of the exchange below. -/
def examplePairing : PairingData :=
  { pairingId := 1, phoneNodeId := Vector.replicate 32 2, approvalPublicKeyDer := [48],
    createdAtMs := 0 }

/-- An approval of an unlock request. -/
def exampleSigning : Signing :=
  { request := issueRequest examplePairing 3 4 .unlock none true 1000, answer := .approve,
    timestamp := 2000, signature := [5] }

/-- What the phone sends for it. -/
def exampleResponse : AuthResponse :=
  { pairingId := 1, requestId := 3, correlationCode := 4, action := .unlock, approved := true,
    unlockShare := some (Vector.replicate 32 7), timestamp := 2000, signature := [5] }

/-- The key that signed it, and nothing else. -/
@[reducible] def exampleCrypto : Crypto :=
  Crypto.ofUses [48] (Vector.replicate 32 7) [.response exampleSigning]

omit [Crypto] in
/-- The exchange is accepted, and hands on the share. -/
theorem approval_exchange_exact_unlock :
    @validateResponse exampleCrypto exampleSigning.request examplePairing exampleResponse 2500 =
        .ok () ∧
      (∀ result, @acceptResponse exampleCrypto exampleSigning.request examplePairing
        exampleResponse 2500 = .ok result →
        result.unlockShare = some (Vector.replicate 32 7)) := by
  have hexact := @approval_exchange_exact exampleCrypto examplePairing (Vector.replicate 32 7)
    [.response exampleSigning] (unforgeable_ofUses _ _ _) 3 4 .unlock none true 1000
  refine ⟨(hexact.1 exampleResponse 2500).2 ⟨⟨exampleSigning, ?_, rfl, rfl, rfl⟩, ?_, ?_⟩,
    fun result h => hexact.2.1 exampleResponse 2500 result h⟩
  · exact List.mem_singleton.2 rfl
  · show _ ∧ _
    decide
  · show _ ∧ _
    decide

end Joint
