import Ferusa.Desktop.Pair

/-!
# The commands of the desktop

Unlocking, and the commands that work on an unlocked vault: listing and
reading it, changing its entries, changing the password, and pairing
with a phone for the first time or again. What a command prints is left
out, and so is the clipboard configuration that `cmd_init` offers last.
-/

namespace Desktop

open DeskProg

/-- `MIN_MASTER_PASSWORD_CHARS`. -/
def minMasterPasswordChars : Nat := 12

/-- `COMMON_MASTER_PASSWORDS`. -/
def commonMasterPasswords : List String :=
  ["password", "password1", "password123", "passwordpassword", "passw0rd", "12345678",
    "123456789", "qwerty", "qwerty123", "letmein", "welcome", "admin", "iloveyou", "monkey",
    "dragon", "football", "baseball", "abc123"]

/-- `validate_master_password`. -/
def validateMasterPassword (password : String) : Except Anyhow Unit :=
  if password.length < minMasterPasswordChars then
    .error [s!"master password must be at least {minMasterPasswordChars} characters"]
  else if password.toLower ∈ commonMasterPasswords then
    .error ["master password is too common; choose a unique passphrase"]
  else .ok ()

/-- Ask twice for a new master password. -/
def promptNewPassword (first confirm mismatch : String) : DeskProg String := do
  let pw1 ← promptPassword first
  Prog.ofExcept (validateMasterPassword pw1)
  let pw2 ← promptPassword confirm
  Prog.ensure (pw1 = pw2) mismatch
  pure pw1

variable [Crypto]

/-! ## Unlocking -/

/-- The session that unlocking opens. -/
def openSession (blob : EncryptedBlob) (vault : Vault) (localSecret : LocalSecret)
    (phoneShare : Bytes32) (pairing : PairingData) : SessionState :=
  { vault, localSecret, vaultKey := combineVaultKey localSecret phoneShare, phoneShare,
    vaultSalt := blob.salt, pairing := some pairing, pendingRequests := [], endpoint := true }

/-- Open a vault that is paired: the password and the phone share give
the key, and the session is opened when the vault decrypts. -/
def unlockPaired (action : VaultAction) (entryTitle : Option String) : DeskProg Unit := do
  let password ← promptPassword "failed to read password"
  let blob ← files loadVaultBlob
  let localSecret := deriveKeys password blob.salt
  let status ← files pairingStatus
  match status with
  | .ready => do
    initPeer
    let pairing ← files (readPairingData.context "read pairing data")
    let phoneShare ← requestUnlockShare pairing action entryTitle
    let vault ← Prog.ofExcept (decryptVaultBlob blob (combineVaultKey localSecret phoneShare))
    setSession (some (openSession blob vault localSecret phoneShare pairing))
  | status => Prog.bail s!"2FA required before vault decryption: {status.toString}"

/-- **`ensure_unlocked_for`.** -/
def ensureUnlockedFor (action : VaultAction) (entryTitle : Option String) :
    DeskProg UnlockStatus := do
  let s : Option SessionState ← Prog.perform DeskCmd.getSession
  match s with
  | some _ => pure .alreadyUnlocked
  | none => do
    files (ensureDataDir.context "secure data dir")
    files (acquireVaultLock.context "lock vault")
    reconcilePairingTransaction.context "recover pairing transaction"
    files ensureNotDev2faStubVault
    let present ← files (pathExists .vaultEnc)
    Prog.ensure (present = true) "vault not initialised — run `ferusa init` first"
    unlockPaired action entryTitle
    pure .newlyUnlocked

/-- Unlock, and ask for approval of the action itself if the session was
open already. -/
def approvedAction (status : UnlockStatus) (action : VaultAction) (entryTitle : Option String) :
    DeskProg Unit :=
  match status with
  | .alreadyUnlocked => requestApproval action entryTitle
  | .newlyUnlocked => pure ()

/-! ## Reading and changing entries -/

/-- Whether a vault has an entry of a title. -/
def Vault.hasTitle (vault : Vault) (title : String) : Bool :=
  vault.entries.any fun e => eqIgnoreAsciiCase e.title title

/-- The entry of a title. -/
def Vault.find (vault : Vault) (title : String) : Option Entry :=
  vault.entries.find? fun e => eqIgnoreAsciiCase e.title title

/-- The session has an entry of the title. -/
def requireEntry (title : String) : DeskProg Unit := do
  let s ← session
  Prog.ensure (Vault.hasTitle s.vault title = true) s!"no entry found with title \"{title}\""

/-- `cmd_list`. -/
def cmdList : DeskProg Unit := do
  let status ← ensureUnlockedFor .list none
  approvedAction status .list none
  let _ ← session
  pure ()

/-- `cmd_get`. -/
def cmdGet (title : String) : DeskProg Unit := do
  let status ← ensureUnlockedFor .read (some title)
  requireEntry title
  approvedAction status .read (some title)
  let s ← session
  let entry ← Prog.okOr "entry vanished after approval" (Vault.find s.vault title)
  let r ← ask (.copyPassword entry.password)
  answer "copy password" r

/-- `prompt_optional`. -/
def promptOptional : DeskProg (Option String) := do
  let buf ← readLine "read line"
  let val := trim buf
  pure (if val.isEmpty then none else some val)

/-- The tags in a comma-separated line. -/
def parseTags (raw : String) : List String :=
  ((raw.splitOn ",").map trim).filter fun t => !t.isEmpty

/-- `cmd_add`. -/
def cmdAdd (title : String) : DeskProg Unit := do
  let status ← ensureUnlockedFor .create (some title)
  let title := trim title
  Prog.ensure (title.isEmpty = false) "title is required"
  let s ← session
  Prog.ensure (Vault.hasTitle s.vault title = false)
    s!"entry \"{title}\" already exists — use `ferusa edit` to update it"
  approvedAction status .create (some title)
  let username ← promptOptional
  let r ← ask .promptPasswordField
  let password ← answer "prompt password" r
  let url ← promptOptional
  let notes ← promptOptional
  let tagsRaw ← promptOptional
  let now ← ask .nowMs
  let id ← ask .newUuid
  let entry : Entry :=
    { id, title, username, password, url, notes,
      tags := (tagsRaw.map parseTags).getD [], createdAt := now, updatedAt := now }
  let s ← session
  saveVaultCandidate { s.vault with entries := s.vault.entries ++ [entry] }

/-- `prompt_with_default`. -/
def promptWithDefault (default : String) : DeskProg String := do
  let buf ← readLine "read line"
  let trimmed := trim buf
  pure (if trimmed.isEmpty then default else trimmed)

/-- `prompt_optional_with_default`. -/
def promptOptionalWithDefault (default : Option String) : DeskProg (Option String) := do
  let buf ← readLine "read line"
  let trimmed := trim buf
  pure (if trimmed.isEmpty then default else if trimmed = "-" then none else some trimmed)

/-- The password field of `cmd_edit`: kept, generated or typed. -/
def promptPasswordChange : DeskProg (Option String) := do
  let choice ← readLine "read line"
  let choice := (trim choice).toLower
  if choice = "g" then
    let r ← ask .promptPasswordField
    let password ← answer "prompt password" r
    pure (some password)
  else if choice = "t" then
    let typed ← promptPassword "read password"
    Prog.ensure (typed ≠ "-") "password cannot be cleared"
    pure (if typed.isEmpty then none else some typed)
  else pure none

/-- The first entry of a title, changed. -/
def updateFirst (title : String) (f : Entry → Entry) : List Entry → List Entry
  | [] => []
  | e :: l => if eqIgnoreAsciiCase e.title title then f e :: l else e :: updateFirst title f l

/-- `cmd_edit`. -/
def cmdEdit (title : String) : DeskProg Unit := do
  let status ← ensureUnlockedFor .update (some title)
  requireEntry title
  approvedAction status .update (some title)
  let s ← session
  let e ← Prog.okOr "entry vanished after approval" (Vault.find s.vault title)
  let newTitle ← promptWithDefault e.title
  let newUsername ← promptOptionalWithDefault e.username
  let newPassword ← promptPasswordChange
  let newUrl ← promptOptionalWithDefault e.url
  let newNotes ← promptOptionalWithDefault e.notes
  let tagsRaw ← promptWithDefault (", ".intercalate e.tags)
  let newTags := if tagsRaw = "-" ∨ tagsRaw.isEmpty then [] else (tagsRaw.splitOn ",").map trim
  let now ← ask .nowMs
  let s ← session
  Prog.ensure ((s.vault.entries.any fun e => !eqIgnoreAsciiCase e.title title &&
    eqIgnoreAsciiCase e.title newTitle) = false)
    s!"entry \"{newTitle}\" already exists — choose a different title"
  let s ← session
  Prog.ensure (Vault.hasTitle s.vault title = true) "entry vanished"
  saveVaultCandidate { s.vault with entries := updateFirst title (fun e =>
    { e with title := newTitle, username := newUsername,
             password := newPassword.getD e.password, url := newUrl, notes := newNotes,
             tags := newTags, updatedAt := now }) s.vault.entries }

/-- `cmd_remove`. -/
def cmdRemove (title : String) : DeskProg Unit := do
  let status ← ensureUnlockedFor .delete (some title)
  requireEntry title
  let answer ← readLine "read line"
  if (trim answer).toLower = "y" ∨ (trim answer).toLower = "yes" then
    approvedAction status .delete (some title)
    let s ← session
    Prog.ensure (Vault.hasTitle s.vault title = true) "entry vanished before removal"
    saveVaultCandidate { s.vault with
      entries := s.vault.entries.filter fun e => !eqIgnoreAsciiCase e.title title }
  else pure ()

/-! ## Changing the password -/

/-- `remove_legacy_vault_salt`. -/
def removeLegacyVaultSalt : FileProg Unit := do
  let r : Except IoError Unit ← Prog.perform (FileCmd.remove .vaultSalt)
  match r with
  | .ok () => pure ()
  | .error .notFound => pure ()
  | .error .isADirectory => pure ()
  | .error e => .fail [s!"remove {FileName.vaultSalt.name}", e.toString]

/-- **`rotate_vault`.** After a failed write the session is locked: the
new vault may be in place already. -/
def rotateVault (localSecret : LocalSecret) (newSalt : Salt) : DeskProg Unit := do
  let s ← session
  let newVaultKey := combineVaultKey localSecret s.phoneShare
  let r ← (files (writePrivateFile .vaultEnc
    (.vault (encryptVault newVaultKey newSalt s.vault)))).attempt
  match r with
  | .error e => do
    setSession none
    .fail ("write vault.enc: password change outcome uncertain; session locked, unlock again to verify the password" :: e)
  | .ok () => do
    setSession (some { s with localSecret, vaultKey := newVaultKey, vaultSalt := newSalt })
    let _ ← (files removeLegacyVaultSalt).attempt
    pure ()

/-- `cmd_passwd`. -/
def cmdPasswd : DeskProg Unit := do
  let status ← ensureUnlockedFor .passwd none
  approvedAction status .passwd none
  let password ← promptNewPassword "read new password" "confirm new password"
    "passwords do not match"
  let newSalt ← ask .newSalt
  rotateVault (deriveKeys password newSalt) newSalt
  lockSession

/-! ## Pairing -/

/-- The approval that replacing a pairing needs. -/
def approveReplacement (status : UnlockStatus) : DeskProg Unit := do
  let pairing ← files pairingStatus
  let present ← files hasPairingFiles
  match pairingGate pairing present with
  | .replaceRequiresApproval => approvedAction status .pair none
  | .newPairing => pure ()
  | .invalidExistingPairing =>
    Prog.bail s!"refusing to overwrite pairing data: {pairing.toString}"

/-- The steps of `cmd_pair` under `persist_result`. -/
def persistPairing (conn : Conn) (s : SessionState) (newVaultKey : VaultKey)
    (pairing : PairingData) : DeskProg Unit := do
  (saveVaultWithKeyTo .pendingVaultEnc s.vault newVaultKey s.vaultSalt).context
    "save pending vault with new phone share"
  files (writePendingPairingData pairing)
  confirmPairingReady conn pairing
  commitAndActivatePairing conn pairing.pairingId

/-- What `cmd_pair` and `cmd_init` do about an error: a recorded
transaction is kept for recovery, pending files without one are
removed. -/
def abandonPairing (retained cleared : String) (keep : DeskProg Unit) (e : Anyhow) :
    DeskProg Unit := do
  if ← files (pathExists .pairingTransactionState) then
    keep
    .fail (retained :: e)
  else
    files (clearPendingPairing.context cleared)
    .fail e

/-- **`cmd_pair`.** -/
def cmdPair : DeskProg Unit := do
  files ensureDataDir
  let status ← ensureUnlockedFor .pair none
  approveReplacement status
  let s ← session
  Prog.ensure (s.endpoint = true) "real 2FA endpoint unavailable"
  let exchange ← beginPairWithPhone
  let s ← session
  let newVaultKey := combineVaultKey s.localSecret exchange.secrets.phoneShare
  let createdAtMs ← ask .nowMs
  let pairing : PairingData :=
    { pairingId := exchange.secrets.pairingId, phoneNodeId := exchange.secrets.phoneNodeId,
      approvalPublicKeyDer := exchange.secrets.approvalPublicKeyDer, createdAtMs }
  let r ← (persistPairing exchange.conn s newVaultKey pairing).attempt
  match r with
  | .error e =>
    abandonPairing "pairing transaction retained for automatic recovery"
      "clear aborted pending pairing" lockSession e
  | .ok () => do
    let s ← session
    setSession (some { s with vaultKey := newVaultKey, pairing := some pairing,
                              phoneShare := exchange.secrets.phoneShare })

/-- The steps of `cmd_init` under `persist_result`. -/
def persistInit (exchange : PairingExchange) (localSecret : LocalSecret) (salt : Salt) :
    DeskProg Unit := do
  let vaultKey := combineVaultKey localSecret exchange.secrets.phoneShare
  files ((writePrivateFile .pendingVaultEnc
    (.vault (encryptVault vaultKey salt Vault.default))).context "write pending vault.enc")
  files ((writePrivateFile .vaultSalt (.bytes salt.toList)).context "write legacy vault.salt")
  let createdAtMs ← ask .nowMs
  let pairing : PairingData :=
    { pairingId := exchange.secrets.pairingId, phoneNodeId := exchange.secrets.phoneNodeId,
      approvalPublicKeyDer := exchange.secrets.approvalPublicKeyDer, createdAtMs }
  files (writePendingPairingData pairing)
  confirmPairingReady exchange.conn pairing
  commitAndActivatePairing exchange.conn pairing.pairingId

/-- **`cmd_init`**, up to where it asks for the clipboard command. -/
def cmdInit : DeskProg Unit := do
  files ensureDataDir
  files (acquireVaultLock.context "lock vault")
  reconcilePairingTransaction.context "recover pairing transaction"
  files ensureNotDev2faStubVault
  let present ← files (pathExists .vaultEnc)
  Prog.ensure (present = false) "vault already exists"
  let password ← promptNewPassword "read password" "read password confirm"
    "passwords do not match"
  let salt ← ask .newSalt
  initPeer
  let exchange ← beginPairWithPhone
  let r ← (persistInit exchange (deriveKeys password salt) salt).attempt
  match r with
  | .error e =>
    abandonPairing "init transaction retained for automatic recovery"
      "clear aborted init pairing" (pure ()) e
  | .ok () => pure ()

end Desktop
