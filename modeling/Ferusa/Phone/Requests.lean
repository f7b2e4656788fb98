import Mathlib.Data.List.Infix
import Ferusa.Phone.Pin
import Ferusa.Phone.Response

/-!
# What is done with the pending request

The helpers the commands and the connection handler share: signing and
sending a response, denying the request that waits, ending the session,
and taking the request out of its slot once a PIN was verified for it.
The two tasks that wait for something to expire are here as well.
-/

namespace Phone

open AppProg

/-! ## What is still current -/

/-- `pairing_replacement_authorization_is_current`. -/
def pairingReplacementAuthorizationIsCurrent (now createdAt : Nat) : Bool :=
  now - createdAt ≤ pairingReplacementAuthorizationTtl

/-- `approval_key_auth_is_current`. -/
def approvalKeyAuthIsCurrent (now authenticatedAt : Nat) : Bool :=
  now - authenticatedAt ≤ approvalKeyAuthTtl

/-- `auth_session_is_current`. -/
def authSessionIsCurrent (now unlockedAt : Nat) : Bool :=
  now - unlockedAt ≤ authSessionTtl

/-- `current_approval_alias`. -/
def currentApprovalAlias : AppProg (Option ApprovalAlias) := do
  let secrets ← put (.read .secrets)
  pure (secrets.1.map AppSecrets.approvalKeyAlias)

/-- Whether the approval key was authenticated lately. -/
def approvalKeyAuthenticated : AppProg Bool := do
  let authenticatedAt ← put (.read .approvalKeyAuthenticatedAt)
  pure (authenticatedAt.1.any (approvalKeyAuthIsCurrent authenticatedAt.2))

/-- `current_authenticated_approval_alias`. -/
def currentAuthenticatedApprovalAlias : AppProg (Option ApprovalAlias) := do
  if ← approvalKeyAuthenticated then currentApprovalAlias else pure none

/-- `clear_approval_key_authenticated`. -/
def clearApprovalKeyAuthenticated : AppProg Unit :=
  put (.write .approvalKeyAuthenticatedAt none)

/-- `consume_pairing_replacement_authorization`: it is gone afterwards,
whether it was current or not. -/
def consumePairingReplacementAuthorization : AppProg Bool := do
  let authorizedAt ← put (.take .pairingReplacementAuthorizedAt)
  pure (authorizedAt.1.any (pairingReplacementAuthorizationIsCurrent authorizedAt.2))

/-! ## The approval key -/

/-- `require_biometric`, on Android. -/
def requireBiometric (reason : String) : AppProg Unit := do
  let r ← ask (.biometric s!"{reason} ferusa vault")
  mapErr AppError.biometric r

/-- `refresh_approval_key_auth`. -/
def refreshApprovalKeyAuth (reason : String) (generation : Nat) : AppProg Unit := do
  requireBiometric reason
  AppState.markApprovalKeyAuthenticated generation

/-- `ensure_approval_key_auth`. -/
def ensureApprovalKeyAuth (reason : String) : AppProg Unit := do
  if ← approvalKeyAuthenticated then pure ()
  else
    let generation ← AppState.authenticationGeneration
    refreshApprovalKeyAuth reason generation

/-- `str::contains`. -/
def containsText (details pattern : String) : Bool :=
  pattern.toList <:+: details.toList

/-- `approval_key_auth_error_details`. -/
def approvalKeyAuthErrorDetails (details : String) : Bool :=
  containsText details "approval key authentication required or expired" ||
    containsText details "UserNotAuthenticatedException"

/-- `map_approval_key_error`. -/
def mapApprovalKeyError (operation : String) (error : Anyhow) : AppError :=
  let details := Anyhow.toString error
  if approvalKeyAuthErrorDetails details then .approvalKeyAuthRequired details
  else .keystore operation details

/-- `map_approval_sign_error`. -/
def mapApprovalSignError : Anyhow → AppError := mapApprovalKeyError "sign"

/-- Whether an error asks for the approval key to be authenticated. -/
def AppError.isApprovalKeyAuthRequired : AppError → Bool
  | approvalKeyAuthRequired _ => true
  | _ => false

/-- `handle_signed_response_error`. -/
def handleSignedResponseError (error : AppError) : AppProg AppError := do
  (if error.isApprovalKeyAuthRequired then clearApprovalKeyAuthenticated else pure ())
  pure error

/-! ## Responses -/

/-- `AppPeer::send_response`, and the error it is reported with. -/
def sendResponse (stream : Stream) (resp : AuthResponse) : AppProg Unit := do
  let sent ← ask (.send stream (.response resp))
  mapErr (fun _ => .core (.network "stream_write" "send response")) sent
  let finished ← ask (.finish stream)
  mapErr (fun _ => .core (.network "stream_write" "finish response")) finished

/-- **`send_signed_response`.** -/
def sendSignedResponse (stream : Stream) (keyAlias : ApprovalAlias) (req : AuthRequest)
    (approved : Bool) (unlockShare : Option Bytes32) : AppProg Unit := do
  let timestamp ← put .currentTimeMs
  let resp ← mapErr .anyhowCompat (buildResponseForSigning req approved unlockShare timestamp)
  let r ← keystore (signApproval keyAlias (canonicalApprovalPayload req resp))
  let signature ← mapErr mapApprovalSignError r
  sendResponse stream { resp with signature }

/-- `deny_pending_request`: where no denial can be sent, the connection is
closed. -/
def denyPendingRequest (pending : PendingRequest) (approvalAlias : Option ApprovalAlias) :
    AppProg Unit := do
  match approvalAlias with
  | some keyAlias =>
    let r ← (sendSignedResponse pending.send keyAlias pending.request false none).attempt
    match r with
    | .ok () => pure ()
    | .error _ => ask (.close pending.conn "pending request cancelled")
  | none => ask (.close pending.conn "pending request cancelled")

/-- What is done with a request that was taken out, if one was. -/
def denyTaken (approvalAlias : Option ApprovalAlias) : Option PendingRequest → AppProg Unit
  | some pending => denyPendingRequest pending approvalAlias
  | none => pure ()

/-- `take_and_deny_pending`. -/
def takeAndDenyPending (approvalAlias : Option ApprovalAlias) : AppProg Unit := do
  let taken ← put (.slot .take)
  denyTaken approvalAlias taken

/-- `take_and_deny_expired_pending`. -/
def takeAndDenyExpiredPending (approvalAlias : Option ApprovalAlias)
    (expected : PendingIdentity) : AppProg Unit := do
  let taken ← put (.slot (.takeExpired expected))
  denyTaken approvalAlias taken

/-! ## The session -/

/-- `emit_session_expired`. -/
def emitSessionExpired : AppProg Unit := do
  let _ ← ask (.emit "ferusa://session-expired")
  pure ()

/-- **`expire_session`.** -/
def expireSession : AppProg Unit := do
  let approvalAlias ← currentAuthenticatedApprovalAlias
  takeAndDenyPending approvalAlias
  AppState.lock
  emitSessionExpired

/-- Whether the session was unlocked lately, and is. -/
def sessionIsActive : AppProg Bool := do
  let unlockedAt ← put (.read .unlockedAt)
  if unlockedAt.1.any (authSessionIsCurrent unlockedAt.2) then
    let secrets ← put (.read .secrets)
    pure secrets.1.isSome
  else pure false

/-- `ensure_active_session`. -/
def ensureActiveSession : AppProg Unit := do
  let foreground ← put .isForeground
  let active ← (if foreground then sessionIsActive else pure false)
  if active then pure ()
  else do
    expireSession
    .fail .sessionExpired

/-! ## Taking the request a PIN was verified for -/

/-- **`take_verified_pending`.** -/
def takeVerifiedPending (expected : PendingIdentity) : AppProg PendingRequest :=
  AppState.withGeneration do
    let generation ← put .generation
    if generation ≠ expected.sessionGeneration then .fail .sessionExpired
    else
      let foreground ← put .isForeground
      if ¬ foreground then .fail .sessionExpired
      else
        let unlockedAt ← put (.read .unlockedAt)
        if ¬ unlockedAt.1.any (authSessionIsCurrent unlockedAt.2) then .fail .sessionExpired
        else
          let r ← put (.slot (.takeVerified expected))
          mapErr .pendingRequest r

/-- `restore_pending_after_sign_error`. -/
def restorePendingAfterSignError (pending : PendingRequest) : AppProg Unit :=
  AppState.withGeneration do
    let generation ← put .generation
    if generation ≠ pending.identity.sessionGeneration then pure ()
    else
      let foreground ← put .isForeground
      if ¬ foreground then pure ()
      else
        let now ← put .now
        if ¬ pending.identity.isCurrent pending.identity now then pure ()
        else
          let _ ← put (.slot (.restore pending))
          pure ()

/-! ## The tasks -/

/-- `tokio::time::sleep`. -/
def sleep (duration : Nat) : AppProg Unit := do
  let now ← put .now
  put (.sleepUntil (now + duration))

/-- What `schedule_pending_expiry` spawns. -/
def pendingExpiryTask (identity : PendingIdentity) : AppProg Unit := do
  sleep pendingRequestTtl
  let approvalAlias ← currentAuthenticatedApprovalAlias
  takeAndDenyExpiredPending approvalAlias identity

/-- What `schedule_session_expiry` spawns. -/
def sessionExpiryTask (generation : Nat) : AppProg Unit := do
  sleep authSessionTtl
  let current ← AppState.withGeneration (put .generation)
  let unlockedAt ← put (.read .unlockedAt)
  let expired := unlockedAt.1.any fun unlocked => !authSessionIsCurrent unlockedAt.2 unlocked
  if current = generation ∧ expired then expireSession else pure ()

/-- What a spawned task runs. -/
def Task.program : Task → AppProg Unit
  | pendingExpiry identity => pendingExpiryTask identity
  | sessionExpiry generation => sessionExpiryTask generation

end Phone
