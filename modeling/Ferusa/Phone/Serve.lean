import Ferusa.Phone.Requests

/-!
# The connection handler

`serve_connection`: the streams of one inbound connection are served in
turn. A connection starts unauthenticated, with a deadline; a ping, a
pairing message and a request authenticate it when their own check of
the peer passes. Each message is judged by its own check again, however
the connection was authenticated.

What a timeout cancels only reads, so it is run to its end here, and
whether the time ran out is asked after it. A program is a finite tree:
of a connection, any number of streams is served, given at the start.
-/

namespace Phone

open AppProg

/-- `UNAUTHENTICATED_INBOUND_IDLE_TIMEOUT`. -/
def unauthenticatedInboundIdleTimeout : Nat := seconds 3

/-- What is known of a connection between two of its streams. -/
inductive Served where
  | stop
  | next (authenticated : Bool)
  deriving DecidableEq

/-- Close the connection and leave the loop. -/
def closeAndStop (conn : Connection) (reason : String) : AppProg Served := do
  ask (.close conn reason)
  pure .stop

/-! ## The checks of the peer -/

/-- `is_authorized_auth_peer`. -/
def isAuthorizedAuthPeer (conn : Connection) : AppProg Bool := do
  let isSetup ← put (.read .isSetup)
  if ¬ isSetup.1 then pure false
  else
    let secrets ← put (.read .secrets)
    pure (secrets.1.any fun secrets => conn.remoteId = secrets.cliNodeId)

/-- `is_authorized_pairing_recovery_peer`. -/
def isAuthorizedPairingRecoveryPeer (conn : Connection) (pairingId : Uuid) : AppProg Bool := do
  let r ← storage (pairingGenerationCliNodeId pairingId)
  match r with
  | .ok (some cliNodeId) => pure (conn.remoteId = cliNodeId)
  | _ => pure false

/-- Whether there is time left: `remaining_unauthenticated_timeout`, where
the connection is not authenticated. -/
def hasTime (authenticated : Bool) (deadline : Nat) : AppProg Bool := do
  if authenticated then pure true
  else
    let now ← put .now
    pure (now < deadline)

/-- A check of the peer, under a timeout. -/
def authorize (authenticated : Bool) (deadline : Nat) (check : AppProg Bool) :
    AppProg Bool := do
  if ← hasTime authenticated deadline then
    let passed ← check
    let late ← ask .timedOut
    pure (passed && !late)
  else pure false

/-- `send_pong`, and `send_pairing_recovery_ack`. -/
def sendFrame (stream : Stream) (message : FerusaMessage) : AppProg (Except String Unit) := do
  let sent ← ask (.send stream message)
  match sent with
  | .ok () => ask (.finish stream)
  | .error e => pure (.error e)

/-! ## The messages -/

section

variable (conn : Connection) (deadline : Nat) (authenticated : Bool) (stream : Stream)

/-- A `Ping`. -/
def servePing : AppProg Served := do
  let pairedPeer ← (if authenticated then pure true
    else authorize false deadline (isAuthorizedAuthPeer conn))
  let time ← hasTime pairedPeer deadline
  if ¬ time then closeAndStop conn "authentication deadline"
  else
    let sent ← sendFrame stream (.pong none)
    match sent with
    | .error _ => closeAndStop conn "pong failed"
    | .ok () =>
      if pairedPeer then pure (.next true)
      else closeAndStop conn "unauthenticated ping complete"

/-- A `PairingCommit`. -/
def servePairingCommit [Crypto] (pairingId : Uuid) : AppProg Served := do
  let authorized ← authorize authenticated deadline
    (isAuthorizedPairingRecoveryPeer conn pairingId)
  if ¬ authorized then closeAndStop conn "unauthorized pairing recovery"
  else
    let r ← storage (commitPendingGeneration pairingId)
    match r with
    | .error _ => pure (.next true)
    | .ok () =>
      let _ ← sendFrame stream (.pairingCommitAck pairingId)
      pure (.next true)

/-- What follows an activation. -/
def announceActivation (pairingId : Uuid) : AppProg Unit := do
  AppState.lock
  put (.write .isSetup true)
  let _ ← ask (.emit "ferusa://setup-changed")
  let _ ← sendFrame stream (.pairingActivateAck pairingId)
  pure ()

/-- A `PairingActivate`. -/
def servePairingActivate [Crypto] (pairingId : Uuid) : AppProg Served := do
  let authorized ← authorize authenticated deadline
    (isAuthorizedPairingRecoveryPeer conn pairingId)
  if ¬ authorized then closeAndStop conn "unauthorized pairing recovery"
  else
    let r ← storage (activateGeneration pairingId)
    match r with
    | .error _ => pure (.next true)
    | .ok _ =>
      announceActivation stream pairingId
      pure (.next true)

/-- **The admission of a request**, under the lock of the session
generation. -/
def admitRequest (req : AuthRequest) : AppProg (Option (PendingIdentity × Admission)) :=
  AppState.withGeneration do
    let foreground ← put .isForeground
    if ¬ foreground then
      ask (.close conn "expired auth session")
      pure none
    else
      let instanceId ← put .newUuid
      let sessionGeneration ← put .generation
      let createdAt ← put .now
      let identity : PendingIdentity :=
        { requestId := req.requestId, instanceId, sessionGeneration, createdAt }
      let admission ← put (.slot (.enter { request := req, send := stream, conn, identity }))
      pure (some (identity, admission))

/-- What follows the admission of a request: the user is told of it. -/
def announceRequest (approvalAlias : ApprovalAlias) (identity : PendingIdentity) :
    AppProg Unit := do
  put (.spawn (.pendingExpiry identity))
  let emitted ← ask (.emit "ferusa://auth-request")
  match emitted with
  | .ok () => pure ()
  | .error _ =>
    let hidden ← put (.slot (.takeInstance identity))
    denyTaken (some approvalAlias) hidden

/-- The denial of a request that was not admitted. -/
def denyRefused (approvalAlias : ApprovalAlias) (req : AuthRequest)
    (keyAuthenticated : Bool) : AppProg Unit := do
  if keyAuthenticated then
    let _ ← (sendSignedResponse stream approvalAlias req false none).attempt
    pure ()
  else pure ()

/-- A `Request` of a peer that may send some, with a fresh timestamp, in a
session that is active. -/
def serveAuthorizedRequest (req : AuthRequest) : AppProg Served := do
  let stored ← put (.read .secrets)
  match stored.1 with
  | none => closeAndStop conn "locked during auth request"
  | some secrets =>
    let keyAuthenticated ← approvalKeyAuthenticated
    if secrets.pairingId ≠ req.pairingId then closeAndStop conn "stale pairing generation"
    else
      let admitted ← admitRequest conn stream req
      match admitted with
      | none => pure .stop
      | some (identity, .stored) =>
        announceRequest secrets.approvalKeyAlias identity
        pure (.next true)
      | some (_, _) =>
        denyRefused stream secrets.approvalKeyAlias req keyAuthenticated
        pure (.next true)

/-- **A `Request`.** -/
def serveRequest (req : AuthRequest) : AppProg Served := do
  let authorized ← authorize authenticated deadline (isAuthorizedAuthPeer conn)
  if ¬ authorized then closeAndStop conn "unauthorized auth request"
  else
    let nowMs ← put .currentTimeMs
    match validateAuthTimestamp req.timestamp nowMs with
    | .error _ => closeAndStop conn "stale auth timestamp"
    | .ok () =>
      let active ← ensureActiveSession.attempt
      match active with
      | .error _ => closeAndStop conn "expired auth session"
      | .ok () => serveAuthorizedRequest conn stream req

/-- Anything else, and what cannot be read. -/
def serveOther (reason : String) : AppProg Served := do
  if authenticated then pure (.next true)
  else closeAndStop conn reason

/-- **One message**, or what could not be decoded. -/
def serveMessage [Crypto] : Except String FerusaMessage → AppProg Served
  | .ok .ping => servePing conn deadline authenticated stream
  | .ok (.pairingCommit pairingId) =>
    servePairingCommit conn deadline authenticated stream pairingId
  | .ok (.pairingActivate pairingId) =>
    servePairingActivate conn deadline authenticated stream pairingId
  | .ok (.request req) => serveRequest conn deadline authenticated stream req
  | .ok _ => serveOther conn authenticated "unexpected unauthenticated message"
  | .error _ => serveOther conn authenticated "malformed unauthenticated message"

end

/-! ## The loop -/

/-- The next stream of a connection. -/
def serveStream [Crypto] (conn : Connection) (deadline : Nat) (authenticated : Bool) :
    AppProg Served := do
  let time ← hasTime authenticated deadline
  if ¬ time then closeAndStop conn "authentication deadline"
  else
    let accepted ← ask (.acceptBi conn)
    match accepted with
    | .failed _ => pure .stop
    | .timedOut => closeAndStop conn "idle connection"
    | .ok stream =>
      let time ← hasTime authenticated deadline
      if ¬ time then closeAndStop conn "authentication deadline"
      else
        let data ← ask (.readToEnd stream)
        match data with
        | .failed _ => serveOther conn authenticated "invalid unauthenticated frame"
        | .timedOut => closeAndStop conn "frame read timeout"
        | .ok message => serveMessage conn deadline authenticated stream message

/-- The loop, for so many streams. -/
def serveStreams [Crypto] (conn : Connection) (deadline : Nat) : Nat → Bool → AppProg Unit
  | 0, _ => pure ()
  | streams + 1, authenticated => do
    match ← serveStream conn deadline authenticated with
    | .stop => pure ()
    | .next authenticated => serveStreams conn deadline streams authenticated

/-- **`serve_connection`**, for so many streams. -/
def serveConnection [Crypto] (conn : Connection) (streams : Nat) : AppProg Unit := do
  let now ← put .now
  serveStreams conn (now + unauthenticatedInboundIdleTimeout) streams false

end Phone
