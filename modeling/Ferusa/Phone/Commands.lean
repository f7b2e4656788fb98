import Ferusa.Core.Program
import Ferusa.Phone.Serve

/-!
# The commands of the app

What the user does on the phone: pairing it with a desktop and replacing
that pairing, unlocking and locking the session, and answering the
request that waits. Each command is a program of its own; any number of
them run at once, next to the connections that are served and the tasks
that wait for something to expire.
-/

namespace Phone

open AppProg

variable [Crypto]

/-! ## The session -/

/-- The secrets of the active pairing, or the error they cannot be loaded
with. -/
def loadSessionSecrets : AppProg PairingGeneration := do
  let r ← storage loadSecrets
  match r with
  | .ok stored => pure stored
  | .error e =>
    let error ← handleSignedResponseError (mapApprovalKeyError "get" e)
    .fail error

/-- **`biometric_unlock`.** -/
def biometricUnlock : AppProg Unit := do
  let generation ← AppState.authenticationGeneration
  refreshApprovalKeyAuth "Unlock" generation
  let stored ← loadSessionSecrets
  let generation ← AppState.completeUnlock generation stored.intoStateSecrets
  put (.spawn (.sessionExpiry generation))
  put (.write .isSetup true)

omit [Crypto] in
/-- `lock`. -/
def lock : AppProg Unit := do
  let approvalAlias ← currentAuthenticatedApprovalAlias
  takeAndDenyPending approvalAlias
  AppState.lock

omit [Crypto] in
/-- `set_app_foreground`. -/
def setAppForeground (foreground : Bool) : AppProg Unit := do
  AppState.setForeground foreground
  if foreground then pure () else expireSession

/-- `check_setup`. -/
def checkSetup : AppProg Bool := do
  let r ← storage isSetupInStore
  let stored ← mapErr (keystoreError "get") r
  (if stored then put (.write .isSetup true) else pure ())
  pure stored

/-! ## Pairing -/

omit [Crypto] in
/-- `format_pairing_code`. -/
def formatPairingCode (code : Fin 10000) : String :=
  String.ofList ([1000, 100, 10, 1].map fun d => Nat.digitChar (code.val / d % 10))

omit [Crypto] in
/-- `setup_pairing_code`. -/
def setupPairingCode : AppProg String := do
  let code ← ask .randomPairingCode
  put (.write .setupPairingCode (some code.val))
  pure (formatPairingCode code)

omit [Crypto] in
/-- `consume_setup_pairing_code`. -/
def consumeSetupPairingCode : AppProg Nat := do
  let code ← put (.take .setupPairingCode)
  match code.1 with
  | some code => pure code
  | none => .fail (.setupInput "pairing verification code was not generated by the backend")

/-- `SetupPayload`, with the bytes that `cli_node_id_hex` decodes to. -/
structure SetupPayload where
  pin4 : String
  pin6 : String
  cliNodeId : Except String Bytes

omit [Crypto] in
/-- `validate_pin`, and the error it is reported with. -/
def checkPin (pin : String) (expectedLen : Nat) : Except AppError Unit :=
  (validatePin pin expectedLen).mapError fun e => .pin "validate" (Anyhow.toString e)

omit [Crypto] in
/-- The node of a desktop. -/
def checkNodeId (bytes : Except String Bytes) : Except AppError Bytes32 :=
  match bytes with
  | .error e => .error (.core (.pairing "invalid_node_id" e))
  | .ok bytes =>
    if h : bytes.length = 32 then .ok ⟨bytes.toArray, h⟩
    else .error (.core (.pairing "invalid_node_id" s!"expected 32 bytes, got {bytes.length}"))

omit [Crypto] in
/-- What `setup_complete` checks of its input. -/
def checkSetupPayload (payload : SetupPayload) : Except AppError Bytes32 := do
  checkPin payload.pin4 4
  checkPin payload.pin6 6
  checkNodeId payload.cliNodeId

/-- What `setup_complete` asks for where there is a pairing already: an
authorization to replace it, which is used up. -/
def requireReplacementAuthorization : AppProg Unit := do
  let r ← storage isSetupInStore
  let persistedSetup ← mapErr (keystoreError "get") r
  let stateSetup ← put (.read .isSetup)
  (if persistedSetup then put (.write .isSetup true) else pure ())
  if persistedSetup ∨ stateSetup.1 then
    let authorized ← consumePairingReplacementAuthorization
    if authorized then pure () else .fail .pairingReplacementAuthorization
  else pure ()

omit [Crypto] in
/-- `hash_pin_bounded`, and the error it is reported with. -/
def hashSetupPin (pin : String) : AppProg String := do
  let r ← hashPinBounded pin
  mapErr (fun e => .pin "hash" (Anyhow.toString e)) r

omit [Crypto] in
/-- The endpoint, if it is bound. -/
def acquireEndpoint : AppProg Unit := do
  let endpoint ← put (.read .endpoint)
  if endpoint.1 then pure ()
  else .fail (.core (.internal "iroh endpoint not ready after setup start"))

omit [Crypto] in
/-- What is staged is given up, before the handshake starts. -/
def abandonPairing {α : Type} (pairingId : Uuid) (error : AppError) : AppProg α := do
  let _ ← storage (abortUnstartedPairing pairingId)
  .fail error

/-- The pairing that is to be stored and shown to the desktop. -/
structure StagedPairing where
  pairingId : Uuid
  approvalPublicKeyDer : Bytes
  phoneShare : Bytes32
  cliNodeId : Bytes32

/-- **The staging of a pairing**: its id, its approval key, its share and
its record. -/
def stagePairing (pin4Hash pin6Hash : String) (cliNodeId : Bytes32) :
    AppProg StagedPairing := do
  let pairingId ← put .newUuid
  let begun ← storage (beginPendingPairing pairingId)
  mapErr (keystoreError "set") begun
  let generated ← keystore (generateApprovalKey (approvalKeyAlias pairingId))
  match generated with
  | .error e => abandonPairing pairingId (keystoreError "generate" e)
  | .ok approvalPublicKeyDer =>
    let phoneShare ← ask .randomShare
    let stored ← storage (storePendingPairingGeneration pairingId (approvalKeyAlias pairingId)
      approvalPublicKeyDer phoneShare pin4Hash pin6Hash cliNodeId)
    match stored with
    | .error e => abandonPairing pairingId (keystoreError "set" e)
    | .ok () => pure { pairingId, approvalPublicKeyDer, phoneShare, cliNodeId }

/-- The signature that shows that the approval key is there. -/
def signReady (staged : StagedPairing) : AppProg Bytes := do
  let authenticated ← (ensureApprovalKeyAuth "Approve").attempt
  match authenticated with
  | .error e => abandonPairing staged.pairingId e
  | .ok () =>
    let signed ← keystore (signApproval (approvalKeyAlias staged.pairingId)
      (canonicalPairingReadyPayload staged.pairingId))
    match signed with
    | .error e =>
      let error ← handleSignedResponseError (mapApprovalSignError e)
      abandonPairing staged.pairingId error
    | .ok signature =>
      if verifyPairingReadySignature staged.approvalPublicKeyDer staged.pairingId signature then
        pure signature
      else
        abandonPairing staged.pairingId
          (.keystore "sign" "approval key does not match generated public key")

/-! ## The pairing stream -/

/-- A program that talks to a peer, failing as `peer.rs` does. -/
abbrev PeerProg (α : Type) := Prog AppCmd.Reply Anyhow α

namespace PeerProg

omit [Crypto] in
/-- What is asked of the outside, under the context its error gets. -/
def request {α : Type} (message : String) (c : OutsideCmd) (h : c.Reply = Except String α) :
    PeerProg α := do
  let r ← Prog.perform (AppCmd.ask c)
  match cast h r with
  | .ok a => pure a
  | .error e => .fail [message, e]

omit [Crypto] in
/-- A program of the store under its lock. -/
def storage {α : Type} (message : String) (p : StoreProg α) : PeerProg α :=
  Prog.context message ((StoreProg.withStorageGuard p).hoist AppCmd.store fun _ r => r)

omit [Crypto] in
/-- The next message has to be this one. -/
def expect (stream : Stream) (name : String) (expected : FerusaMessage) : PeerProg Unit := do
  let message ← request s!"read {name}" (.readMessage stream) rfl
  if message = expected then pure ()
  else Prog.bail s!"unexpected pairing {name} message"

end PeerProg

open PeerProg in
/-- **`AppPeer::pair_with_cli`**, the steps it is given being the commit
and the activation of the pairing. -/
def pairWithCli (staged : StagedPairing) (readySignature : Bytes) (verificationCode : Nat) :
    PeerProg Unit := do
  let number ← request "connect to CLI for pairing" (.connect staged.cliNodeId) rfl
  let conn : Connection := { number, remoteId := staged.cliNodeId }
  let stream ← request "open bidi stream" (.openBi conn) rfl
  request "send pairing hello" (.send stream (.pairingHello
    { pairingId := staged.pairingId, approvalPublicKeyDer := staged.approvalPublicKeyDer,
      phoneShare := staged.phoneShare, verificationCode })) rfl
  expect stream "prepared" (.pairingPrepared staged.pairingId)
  request "send pairing ready" (.send stream (.pairingReady staged.pairingId readySignature)) rfl
  expect stream "commit" (.pairingCommit staged.pairingId)
  PeerProg.storage "record committed pairing" (commitPendingGeneration staged.pairingId)
  request "send pairing commit acknowledgement"
    (.send stream (.pairingCommitAck staged.pairingId)) rfl
  expect stream "activate" (.pairingActivate staged.pairingId)
  let _ ← PeerProg.storage "activate committed pairing" (activateGeneration staged.pairingId)
  request "send pairing activate acknowledgement"
    (.send stream (.pairingActivateAck staged.pairingId)) rfl
  request "finish pairing send" (.finish stream) rfl
  request "read CLI pairing completion" (.awaitEnd stream) rfl
  Prog.perform (AppCmd.ask (.close conn "pairing complete"))

/-- **`setup_complete`.** What is staged is kept once the handshake has
started: the desktop may have to resume it. -/
def setupComplete (payload : SetupPayload) : AppProg Unit := do
  requireReplacementAuthorization
  let cliNodeId ← Prog.ofExcept (checkSetupPayload payload)
  let pairingCode ← consumeSetupPairingCode
  let pin4Hash ← hashSetupPin payload.pin4
  let pin6Hash ← hashSetupPin payload.pin6
  acquireEndpoint
  let staged ← stagePairing pin4Hash pin6Hash cliNodeId
  let readySignature ← signReady staged
  let paired ← (pairWithCli staged readySignature pairingCode).attempt
  mapErr (fun e => .core (.network "connect" (Anyhow.toString e))) paired
  let stored ← loadSessionSecrets
  put (.write .secrets (some stored.intoStateSecrets))
  put (.write .isSetup true)
  AppState.lock

/-! ## Replacing the pairing -/

omit [Crypto] in
/-- The number of digits, in the texts of `authorize_pairing_replacement`. -/
def digitsName (kind : PinKind) : String := s!"{expectedPinLen kind}-digit"

omit [Crypto] in
/-- One PIN of the pairing that is to be replaced. -/
def verifyReplacementPin (kind : PinKind) (pin pinHash : String) : AppProg Unit := do
  let outcome ← verifyPinWithCooldown kind pin pinHash
  match outcome with
  | .verified => pure ()
  | .incorrect =>
    .fail (.pin "incorrect" s!"{digitsName kind} pairing replacement PIN verification failed")
  | .cooldownStarted retryAfterMs =>
    expireSession
    .fail (.pinCooldown retryAfterMs
      s!"{digitsName kind} pairing replacement PIN verification failed")
  | .cooldownActive retryAfterMs =>
    .fail (.pinCooldown retryAfterMs
      s!"{digitsName kind} pairing replacement PIN cooldown active")

/-- **`authorize_pairing_replacement`.** -/
def authorizePairingReplacement (pin4 pin6 : String) : AppProg Unit := do
  let generation ← AppState.beginPairingReplacement
  Prog.ofExcept (checkPin pin4 4)
  Prog.ofExcept (checkPin pin6 6)
  refreshApprovalKeyAuth "Replace pairing" generation.1
  let stored ← loadSessionSecrets
  verifyReplacementPin .fourDigit pin4 stored.pin4Hash
  verifyReplacementPin .sixDigit pin6 stored.pin6Hash
  AppState.completePairingReplacement generation

/-! ## Answering the request -/

section

omit [Crypto]

/-- What `approve_request` checks of the request that waits. -/
def checkPending (requestId : String) (pending : Option PendingRequest) (now : Nat) :
    Except AppError PendingRequest :=
  match pending with
  | none => .error (.pendingRequest "missing")
  | some pending =>
    if Uuid.toString pending.request.requestId ≠ requestId then
      .error (.pendingRequest "mismatch")
    else if ¬ pending.identity.isCurrent pending.identity now then
      .error (.pendingRequest "mismatch")
    else .ok pending

/-- The secrets of the session, where it is not locked. -/
def unlockedSecrets : AppProg AppSecrets := do
  let secrets ← put (.read .secrets)
  match secrets.1 with
  | some secrets => pure secrets
  | none => .fail (.pendingRequest "locked")

/-- The response to a request that was taken out. Where the approval key
has to be authenticated, the request is put back. -/
def answerOrRestore (pending : PendingRequest) (approvalAlias : ApprovalAlias)
    (approved : Bool) (unlockShare : Option Bytes32) : AppProg Unit := do
  let r ← (sendSignedResponse pending.send approvalAlias pending.request approved
    unlockShare).attempt
  match r with
  | .ok () => pure ()
  | .error e =>
    let error ← handleSignedResponseError e
    (if error.isApprovalKeyAuthRequired then restorePendingAfterSignError pending else pure ())
    .fail error

/-- The denial that a cooldown of the PIN leads to. -/
def denyForCooldown (identity : PendingIdentity) (approvalAlias : ApprovalAlias)
    (error : AppError) : AppProg Unit := do
  ensureApprovalKeyAuth "Deny"
  let pending ← takeVerifiedPending identity
  answerOrRestore pending approvalAlias false none
  AppState.lock
  emitSessionExpired
  .fail error

/-- The share of the phone, where the request asks for it. -/
def copyUnlockShare (pending : PendingRequest) : AppProg (Option Bytes32) := do
  if pending.request.unlockShareRequested then
    let secrets ← put (.read .secrets)
    match secrets.1 with
    | some secrets => pure (some secrets.phoneShare)
    | none =>
      ask (.close pending.conn "app locked before approval")
      .fail (.pendingRequest "locked")
  else pure none

/-- **The approval**, once the PIN was verified. -/
def approveVerified (identity : PendingIdentity) (approvalAlias : ApprovalAlias) :
    AppProg Unit := do
  ensureApprovalKeyAuth "Approve"
  let pending ← takeVerifiedPending identity
  let foreground ← put .isForeground
  if ¬ foreground then
    ask (.close pending.conn "app moved to background")
    AppState.lock
    .fail .sessionExpired
  else
    let unlockShare ← copyUnlockShare pending
    let now ← put .now
    if ¬ pending.identity.isCurrent identity now then
      ask (.close pending.conn "pending request expired")
      .fail (.pendingRequest "mismatch")
    else answerOrRestore pending approvalAlias true unlockShare

/-- `{:?}` of the kind of a PIN. -/
def PinKind.debug : PinKind → String
  | fourDigit => "FourDigit"
  | sixDigit => "SixDigit"

/-- **`approve_request`.** -/
def approveRequest (requestId pin : String) : AppProg Unit := do
  ensureActiveSession
  let slot ← put (.slot .peek)
  let pending ← Prog.ofExcept (checkPending requestId slot.1 slot.2)
  let kind := pinKindForAction pending.request.action
  let secrets ← unlockedSecrets
  Prog.ofExcept (checkPin pin (expectedPinLen kind))
  let outcome ← verifyPinWithCooldown kind pin (secrets.pinHash kind)
  match outcome with
  | .cooldownActive retryAfterMs =>
    denyForCooldown pending.identity secrets.approvalKeyAlias
      (.pinCooldown retryAfterMs s!"{kind.debug} PIN cooldown active")
  | .incorrect => .fail (.pin "incorrect" "PIN verification returned false")
  | .cooldownStarted retryAfterMs =>
    denyForCooldown pending.identity secrets.approvalKeyAlias
      (.pinCooldown retryAfterMs "PIN cooldown started")
  | .verified => approveVerified pending.identity secrets.approvalKeyAlias

/-- The denial of a request that was taken out. Where the approval key has
to be authenticated, the request is put back. -/
def denyOwned (pending : PendingRequest) (approvalAlias : ApprovalAlias) : AppProg Unit := do
  let r ← (sendSignedResponse pending.send approvalAlias pending.request false none).attempt
  match r with
  | .ok () => pure ()
  | .error e =>
    let error ← handleSignedResponseError e
    (if error.isApprovalKeyAuthRequired then put (.slot (.put pending)) else pure ())
    .fail error

/-- **`deny_request`.** -/
def denyRequest (requestId : String) : AppProg Unit := do
  ensureActiveSession
  let secrets ← unlockedSecrets
  ensureApprovalKeyAuth "Deny"
  let taken ← put (.slot .take)
  match taken with
  | none => .fail (.pendingRequest "missing")
  | some pending =>
    if Uuid.toString pending.request.requestId ≠ requestId then
      put (.slot (.put pending))
      .fail (.pendingRequest "mismatch")
    else
      let foreground ← put .isForeground
      if ¬ foreground then
        ask (.close pending.conn "app moved to background")
        AppState.lock
        .fail .sessionExpired
      else denyOwned pending secrets.approvalKeyAlias

/-- `pending_request`: the request that is shown. -/
def pendingRequest : AppProg (Option AuthRequest) := do
  let slot ← put (.slot .peek)
  pure (slot.1.map PendingRequest.request)

end

end Phone
