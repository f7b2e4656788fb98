import Ferusa.Desktop.Paths

/-!
# The session of the desktop

One process of the command line keeps at most one unlocked session: the
vault in the clear, the keys it was opened with and the pairing that
opened it. Unlocking recovers an unfinished pairing, asks for the
password and for the phone's share, and decrypts; saving encrypts under
the keys of the session.

Programs here make system calls, read and replace the session, and talk
to what is outside – the user, the clock, the source of randomness, the
phone. Each connection carries whole messages. A request to the phone
takes whichever connection there is, so the persistent one is not part
of the session here.
-/

namespace Desktop

/-- A request that waits for its response. -/
structure PendingRequest where
  correlationCode : Nat
  action : VaultAction
  deriving DecidableEq

/-- **The session of one process.** -/
structure SessionState where
  vault : Vault
  localSecret : LocalSecret
  vaultKey : VaultKey
  phoneShare : Bytes32
  vaultSalt : Salt
  pairing : Option PairingData
  pendingRequests : List (Uuid × PendingRequest)
  /-- Whether there is an endpoint to reach the phone from. -/
  endpoint : Bool
  deriving DecidableEq

/-- Whether unlocking found the session open. -/
inductive UnlockStatus where
  | alreadyUnlocked
  | newlyUnlocked
  deriving DecidableEq

/-- Why a connection was closed. -/
inductive ConnectionError where
  | applicationClosed (code : Nat) (reason : String)
  | other (text : String)
  deriving DecidableEq

/-- A connection, by number. -/
abbrev Conn := Nat

/-! ## What is outside -/

/-- What a program asks of the outside. -/
inductive EnvCmd where
  | promptPassword
  | readLine
  | promptPasswordField
  | copyPassword (password : String)
  | newSalt
  | newUuid
  | correlationCode
  | newSecretKey
  | nowMs
  | bindEndpoint
  | sendAuthRequest (node : Bytes32) (req : AuthRequest)
  | acceptPhone
  | connectPhone (node : Bytes32)
  | send (conn : Conn) (message : FerusaMessage)
  | receive (conn : Conn)
  | finish (conn : Conn)
  | closed (conn : Conn)
  deriving DecidableEq

/-- What the outside answers. -/
abbrev EnvCmd.Reply : EnvCmd → Type
  | promptPassword => Except String String
  | readLine => Except String String
  | promptPasswordField => Except String String
  | copyPassword _ => Except String Unit
  | newSalt => Salt
  | newUuid => Uuid
  | correlationCode => Nat
  | newSecretKey => Bytes
  | nowMs => Nat
  | bindEndpoint => Except String Unit
  | sendAuthRequest _ _ => Except String AuthResponse
  | acceptPhone => Except String (Conn × Bytes32)
  | connectPhone _ => Except String Conn
  | send _ _ => Except String Unit
  | receive _ => Except String FerusaMessage
  | finish _ => Except String Unit
  | closed _ => Except String ConnectionError

/-- **The commands of a desktop program.** -/
inductive DeskCmd where
  | file (c : FileCmd)
  | env (c : EnvCmd)
  | getSession
  | setSession (session : Option SessionState)

/-- What a command is answered with. -/
abbrev DeskCmd.Reply : DeskCmd → Type
  | file c => c.Reply
  | env c => c.Reply
  | getSession => Option SessionState
  | setSession _ => Unit

/-- **The desktop**: the data directory and the session. -/
structure Desk where
  files : Files
  session : Option SessionState

/-- How a command is answered: a system call in some way, a question to
the outside by an answer to whatever was asked. -/
structure DeskChoice where
  file : FileChoice
  answer : (c : EnvCmd) → c.Reply

/-- **What a command does**; nothing when it cannot be answered so. -/
def Desk.exec : (c : DeskCmd) → DeskChoice → Desk → Option (c.Reply × Desk)
  | .file c, o, s => (Files.exec c o.file s.files).map fun x => (x.1, { s with files := x.2 })
  | .env c, o, s => some (o.answer c, s)
  | .getSession, _, s => some (s.session, s)
  | .setSession session, _, s => some ((), { s with session })

/-- A program of the desktop. -/
abbrev DeskProg (α : Type) := Prog DeskCmd.Reply Anyhow α

namespace DeskProg

/-- A program on the data directory. -/
def files {α : Type} (p : FileProg α) : DeskProg α :=
  p.hoist DeskCmd.file fun _ r => r

/-- Ask the outside. -/
def ask (c : EnvCmd) : DeskProg c.Reply :=
  Prog.perform (DeskCmd.env c)

/-- The answer of the outside, under the context its caller adds. -/
def answer {α : Type} (message : String) : Except String α → DeskProg α
  | .ok a => .ret a
  | .error e => .fail [message, e]

/-- Ask for a password, under the context the caller adds. -/
def promptPassword (message : String) : DeskProg String := do
  let r ← ask .promptPassword
  answer message r

/-- Read a line. -/
def readLine (message : String) : DeskProg String := do
  let r ← ask .readLine
  answer message r

/-- The session, which has to be open. -/
def session : DeskProg SessionState := do
  let s : Option SessionState ← Prog.perform DeskCmd.getSession
  Prog.okOr "session not unlocked" s

/-- Replace the session. -/
def setSession (s : Option SessionState) : DeskProg Unit :=
  Prog.perform (DeskCmd.setSession s)

end DeskProg

open DeskProg

/-- `lock_session`. -/
def lockSession : DeskProg Unit :=
  setSession none

/-! ## Approval -/

/-- The key of the endpoint is read, or made up and kept. -/
def loadPeerKey : DeskProg Unit := do
  if ← files (pathExists .peerId) then
    files ((restrictPrivateFile .peerId).context "restrict peer.id permissions")
    let contents ← files (readFile "read peer.id" .peerId)
    match contents with
    | .bytes raw =>
      Prog.ensure (raw.length = 32) s!"peer.id is corrupt (expected 32 bytes, got {raw.length})"
    | _ => Prog.bail "peer.id is corrupt"
  else
    let key ← ask .newSecretKey
    files ((writePrivateFile .peerId (.bytes key)).context "write peer.id")

/-- `CliPeer::init`. -/
def initPeer : DeskProg Unit := do
  loadPeerKey
  let r ← ask .bindEndpoint
  answer "bind iroh endpoint" r

variable [Crypto]

/-- A check that failed, as an error. -/
def TwofaError.intoAnyhow (e : TwofaError) : Anyhow := [e.toString]

/-- **`request_approval_over_endpoint`.** -/
def requestApprovalOverEndpoint (pairing : PairingData) (action : VaultAction)
    (entryTitle : Option String) (unlockShareRequested : Bool) : DeskProg ApprovalResult := do
  let requestId ← ask .newUuid
  let correlationCode ← ask .correlationCode
  let timestamp ← ask .nowMs
  let req := issueRequest pairing requestId correlationCode action entryTitle
    unlockShareRequested timestamp
  let r ← ask (.sendAuthRequest pairing.phoneNodeId req)
  let resp ← answer "iroh send_auth_request" r
  let now ← ask .nowMs
  Prog.ofExcept ((acceptResponse req pairing resp now).mapError TwofaError.intoAnyhow)

/-- `request_unlock_share`. -/
def requestUnlockShare (pairing : PairingData) (action : VaultAction)
    (entryTitle : Option String) : DeskProg Bytes32 := do
  let result ← requestApprovalOverEndpoint pairing action entryTitle true
  match result.unlockShare with
  | some share => pure share
  | none => .fail TwofaError.missingUnlockShare.intoAnyhow

/-- The checks `request_approval_for_session` makes on a response whose
request was pending. -/
def validatePendingResponse (req : AuthRequest) (pairing : PairingData) (resp : AuthResponse)
    (pending : PendingRequest) (nowMs : Nat) : Except TwofaError ApprovalResult := do
  require (verifyApprovalSignature pairing.approvalPublicKeyDer req resp) .signatureMismatch
  validateAuthExchange req resp nowMs
  require (resp.correlationCode = pending.correlationCode) .correlationCodeMismatch
  require (resp.action = pending.action) .actionMismatch
  require resp.approved .denied
  pure { unlockShare := resp.unlockShare }

/-- The pending requests without one. -/
def SessionState.forget (s : SessionState) (requestId : Uuid) : SessionState :=
  { s with pendingRequests := s.pendingRequests.filter fun x => x.1 ≠ requestId }

/-- The request of `request_approval_for_session`, sent and answered. -/
def exchangeForSession (req : AuthRequest) : DeskProg ApprovalResult := do
  let s ← session
  let pairing ← Prog.okOr "session missing pairing data" s.pairing
  Prog.ensure (s.endpoint = true) "real 2FA endpoint unavailable"
  let r ← ask (.sendAuthRequest pairing.phoneNodeId req)
  let resp ← answer "iroh send_auth_request" r
  Prog.ofExcept ((ensurePairingGeneration pairing.pairingId req.pairingId
    resp.pairingId).mapError TwofaError.intoAnyhow)
  let s ← session
  match s.pendingRequests.lookup resp.requestId with
  | none => .fail TwofaError.unknownRequest.intoAnyhow
  | some pending => do
    setSession (some (s.forget resp.requestId))
    let now ← ask .nowMs
    Prog.ofExcept ((validatePendingResponse req pairing resp pending now).mapError
      TwofaError.intoAnyhow)

/-- Forget a request, if the session is still open. -/
def cleanPendingRequest (requestId : Uuid) : DeskProg Unit := do
  let s : Option SessionState ← Prog.perform DeskCmd.getSession
  match s with
  | some s => setSession (some (s.forget requestId))
  | none => pure ()

/-- **`request_approval_for_session`.** -/
def requestApprovalForSession (action : VaultAction) (entryTitle : Option String)
    (unlockShareRequested : Bool) : DeskProg ApprovalResult := do
  let requestId ← ask .newUuid
  let correlationCode ← ask .correlationCode
  let timestamp ← ask .nowMs
  let s ← session
  let pairing ← Prog.okOr "session missing pairing data" s.pairing
  let req := issueRequest pairing requestId correlationCode action entryTitle
    unlockShareRequested timestamp
  let s ← session
  setSession (some { s with
    pendingRequests := (requestId, { correlationCode, action }) :: s.pendingRequests })
  let result ← (exchangeForSession req).attempt
  cleanPendingRequest requestId
  Prog.ofExcept result

/-- `twofa::dispatch::request_approval`. -/
def requestApproval (action : VaultAction) (entryTitle : Option String) : DeskProg Unit := do
  let status ← files pairingStatus
  match status with
  | .ready => do
    let _ ← requestApprovalForSession action entryTitle false
    pure ()
  | status => Prog.bail s!"2FA required but unavailable: {status.toString}"

/-! ## Saving -/

/-- `VAULT_BLOB_OVERHEAD_BYTES`: header and authentication tag. -/
def vaultBlobOverheadBytes : Nat := 48 + 16

/-- `MAX_VAULT_ENCRYPTED_BYTES`. -/
def maxVaultEncryptedBytes : Nat := maxVaultPlaintextBytes + vaultBlobOverheadBytes

/-- The length of a blob on disk. -/
def encryptedLength (blob : EncryptedBlob) : Nat :=
  Crypto.vaultJsonLength blob.plaintext + vaultBlobOverheadBytes

/-- `load_vault_blob`. -/
def loadVaultBlob : FileProg EncryptedBlob := do
  let contents ← readFile "open vault.enc" .vaultEnc
  match contents with
  | .vault blob => do
    Prog.ensure (encryptedLength blob ≤ maxVaultEncryptedBytes)
      s!"vault.enc exceeds the {maxVaultEncryptedBytes}-byte encrypted size limit"
    pure blob
  | _ => Prog.bail "parse vault.enc"

/-- A vault of a size that may be kept, as `Vault::validate` finds it. -/
def validateVaultSize (vault : Vault) (message : String) : Except Anyhow Unit :=
  if Crypto.vaultJsonLength vault > maxVaultPlaintextBytes then .error [message] else .ok ()

/-- `decrypt_vault_blob`. -/
def decryptVaultBlob (blob : EncryptedBlob) (vaultKey : VaultKey) : Except Anyhow Vault := do
  let vault ← decryptVault vaultKey blob
  validateVaultSize vault
    s!"decrypted vault exceeds the {maxVaultPlaintextBytes / (1024 * 1024)} MiB size limit"
  vault.validate.mapError fun e => [e]
  pure vault

/-- `save_vault_snapshot`: what is written where. -/
def sealVault (vault : Vault) (vaultKey : VaultKey) (vaultSalt : Salt) :
    Except Anyhow EncryptedBlob := do
  vault.validate.mapError fun e => [e]
  validateVaultSize vault
    s!"serialized vault exceeds the {maxVaultPlaintextBytes / (1024 * 1024)} MiB size limit"
  pure (encryptVault vaultKey vaultSalt vault)

/-- `save_vault_with_key_to`. -/
def saveVaultWithKeyTo (f : FileName) (vault : Vault) (vaultKey : VaultKey) (vaultSalt : Salt) :
    DeskProg Unit := do
  let blob ← Prog.ofExcept (sealVault vault vaultKey vaultSalt)
  files ((writePrivateFile f (.vault blob)).context "write vault.enc")

/-- **`save_vault_candidate`.** -/
def saveVaultCandidate (vault : Vault) : DeskProg Unit := do
  let s ← session
  saveVaultWithKeyTo .vaultEnc vault s.vaultKey s.vaultSalt
  let s ← session
  setSession (some { s with vault })

end Desktop
