import Ferusa.Core.Program
import Ferusa.Desktop.Files

/-!
# Programs on the data directory

The functions of `paths.rs`, as programs over the system calls. A file
is put in place by `writePrivateFile` alone: written to a temporary
file, synced, renamed, and the directory synced. A pairing transaction
lives in three files next to the two it replaces: the new vault and the
new pairing wait under pending names, and `pairing_txn.json` says how
far the replacement has got.
-/

namespace Desktop

/-- A program over the system calls. -/
abbrev FileProg (α : Type) := Prog FileCmd.Reply Anyhow α

/-- The result of a system call, under the context its caller adds. -/
def fallible {C : Type} {R : C → Type} {α : Type} (message : String) :
    Except IoError α → Prog R Anyhow α
  | .ok a => .ret a
  | .error e => .fail [message, e.toString]

/-- `Path::exists`. -/
def pathExists (f : FileName) : FileProg Bool :=
  Prog.perform (FileCmd.exists f)

/-- `std::fs::read`. -/
def readFile (message : String) (f : FileName) : FileProg Content := do
  let r ← Prog.perform (.read f)
  fallible message r

/-- `fsync_parent`. -/
def fsyncParent : FileProg Unit := do
  let r ← Prog.perform .syncParent
  fallible "sync parent dir" r

/-- A system call that leaves every name as it is. -/
def quietCall (message : String) (c : QuietCmd) : FileProg Unit := do
  let r ← Prog.perform (.quiet c)
  fallible message r

/-- `ensure_private_dir`, on the data directory. -/
def ensureDataDir : FileProg Unit := quietCall "create data dir" .ensureDataDir

/-- `acquire_vault_lock`. -/
def acquireVaultLock : FileProg Unit := quietCall "lock file" .lockVault

/-- `restrict_private_file`. -/
def restrictPrivateFile (f : FileName) : FileProg Unit := quietCall "chmod 0600" (.restrict f)

/-- `OpenOptions::create_new`. -/
def createTemp (f : FileName) : FileProg Temp := do
  let r ← Prog.perform (.create f)
  fallible "create private temp file" r

/-- `std::fs::rename`, of a temporary file. -/
def renameTemp (t : Temp) (f : FileName) : FileProg Unit := do
  let r ← Prog.perform (.renameTemp t f)
  fallible "rename" r

/-- `std::fs::rename`. -/
def renameFile (message : String) (f g : FileName) : FileProg Unit := do
  let r ← Prog.perform (.rename f g)
  fallible message r

/-- The closure of `write_private_file`, once the temporary file is
there. -/
def writeTemp (t : Temp) (f : FileName) (contents : Content) : FileProg Unit := do
  quietCall "write private temp file" (.writeAll t contents)
  quietCall "sync private temp file" (.syncAll t)
  quietCall "chmod 0600" (.restrictTemp t)
  renameTemp t f
  fsyncParent

/-- **`write_private_file`.** -/
def writePrivateFile (f : FileName) (contents : Content) : FileProg Unit := do
  let t ← createTemp f
  let r ← (writeTemp t f contents).attempt
  match r with
  | .ok () => pure ()
  | .error e => do
    let _ ← (quietCall "remove" (.removeTemp t)).attempt
    .fail e

/-- `copy_private_file`. -/
def copyPrivateFile (source target : FileName) : FileProg Unit := do
  let contents ← readFile s!"read private file {source.name}" source
  (writePrivateFile target contents).context s!"copy {source.name} -> {target.name}"

/-- Remove a file, if it is there, and sync the directory: the body of
the loops of `clear_pending_pairing` and
`clear_rollback_pairing_files`. -/
def removeIfPresent (message : String) (f : FileName) : FileProg Unit := do
  let r : Except IoError Unit ← Prog.perform (FileCmd.remove f)
  match r with
  | .ok () => fsyncParent
  | .error .notFound => pure ()
  | .error e => .fail [s!"{message} {f.name}", e.toString]

/-- `clear_pending_pairing`. -/
def clearPendingPairing : FileProg Unit :=
  Prog.each [.pendingPairingState, .pendingVaultEnc, .pairingTransactionState,
    .rollbackPairingState, .rollbackVaultEnc] (removeIfPresent "remove pending file")

/-- `clear_rollback_pairing_files`. -/
def clearRollbackPairingFiles : FileProg Unit :=
  Prog.each [.rollbackPairingState, .rollbackVaultEnc] (removeIfPresent "remove rollback file")

/-! ## The pairing -/

/-- `PairingReadError`. -/
inductive PairingReadError where
  | phone (reason : String)
  | state (reason : String)
  deriving DecidableEq

/-- `PairingReadError::into_anyhow`. -/
def PairingReadError.intoAnyhow : PairingReadError → Anyhow
  | phone reason => [s!"invalid phone id: {reason}"]
  | state reason => [s!"invalid pairing state: {reason}"]

/-- `parse_pairing_file`, of a file whose fields are decoded. -/
def parsePairingFile (file : PairingFile) : Except PairingReadError PairingData :=
  if file.version ≠ 3 then .error (.state s!"unsupported version {file.version}")
  else if file.data.approvalPublicKeyDer.isEmpty then
    .error (.state "empty approval public key")
  else .ok file.data

/-- A pairing file that parses is of the version there is. -/
theorem parsePairingFile_eq_ok {file : PairingFile} {data : PairingData}
    (h : parsePairingFile file = .ok data) : file = { version := 3, data } := by
  unfold parsePairingFile at h
  split at h
  · cases h
  · next hversion =>
    split at h
    · cases h
    · obtain rfl : file.data = data := Except.ok.inj h
      cases file
      simp_all

/-- The pairing file in some contents. -/
def Content.asPairing : Content → Except String PairingFile
  | .pairing file => .ok file
  | _ => .error "expected a pairing"

/-- The transaction file in some contents. -/
def Content.asTransaction : Content → Except String PairingTxnFile
  | .transaction file => .ok file
  | _ => .error "expected a pairing transaction"

/-- The pairing in what was read of `pairing.json`. -/
def parseReadState : Except IoError Content → Except PairingReadError PairingData
  | .error e => .error (.state e.toString)
  | .ok contents =>
    match contents.asPairing with
    | .error e => .error (.state e)
    | .ok file => parsePairingFile file

/-- `read_pairing_data_from_state`. -/
def readPairingDataFromState : FileProg (Except PairingReadError PairingData) := do
  let r ← Prog.perform (FileCmd.read .pairingState)
  pure (parseReadState r)

/-- `read_pairing_data`. -/
def readPairingData : FileProg PairingData := do
  if ← pathExists .pairingState then
    let r ← readPairingDataFromState
    Prog.ofExcept (r.mapError PairingReadError.intoAnyhow)
  else Prog.bail "not paired with a phone"

/-- `read_pending_pairing_data`. -/
def readPendingPairingData : FileProg PairingData := do
  let contents ← readFile "read pending_pairing.json" .pendingPairingState
  match contents.asPairing with
  | .error e => .fail ["parse pending_pairing.json", e]
  | .ok file => Prog.ofExcept ((parsePairingFile file).mapError PairingReadError.intoAnyhow)

/-- `write_pending_pairing_data`. -/
def writePendingPairingData (data : PairingData) : FileProg Unit :=
  (writePrivateFile .pendingPairingState (.pairing { version := 3, data })).context
    "write pending_pairing.json"

/-- `PairingStatus`. -/
inductive PairingStatus where
  | ready
  | pending
  | missingPhoneId
  | invalidPhoneId (reason : String)
  | invalidPairing (reason : String)
  deriving DecidableEq

/-- The text of a status. -/
def PairingStatus.toString : PairingStatus → String
  | ready => "paired"
  | pending => "pairing transaction pending"
  | missingPhoneId => "not paired with a phone"
  | invalidPhoneId reason => s!"pairing data invalid (phone.id: {reason})"
  | invalidPairing reason => s!"pairing data invalid: {reason}"

/-- The status a pairing that was read stands for. -/
def PairingStatus.ofRead : Except PairingReadError PairingData → PairingStatus
  | .ok _ => .ready
  | .error (.phone reason) => .invalidPhoneId reason
  | .error (.state reason) => .invalidPairing reason

/-- `pairing_status`. -/
def pairingStatus : FileProg PairingStatus := do
  if ← pathExists .pendingPairingState then pure .pending
  else if ← pathExists .pairingTransactionState then pure .pending
  else if ← pathExists .pairingState then
    let r ← readPairingDataFromState
    pure (.ofRead r)
  else if ← pathExists .phoneId then
    pure (.invalidPairing "legacy HMAC pairing files are unsupported; re-pair this dev vault")
  else if ← pathExists .hmacKey then
    pure (.invalidPairing "legacy HMAC pairing files are unsupported; re-pair this dev vault")
  else pure .missingPhoneId

/-- `has_pairing_files`. -/
def hasPairingFiles : FileProg Bool := do
  if ← pathExists .pairingState then pure true
  else if ← pathExists .pendingPairingState then pure true
  else if ← pathExists .pairingTransactionState then pure true
  else if ← pathExists .phoneId then pure true
  else pathExists .hmacKey

/-- `ensure_not_dev_2fa_stub_vault`. -/
def ensureNotDev2faStubVault : FileProg Unit := do
  if ← pathExists .dev2faStubMarker then
    Prog.bail "dev 2FA stub vault is not production-compatible; recreate the vault with real phone pairing"
  else pure ()

/-! ## The transaction -/

/-- `write_pairing_transaction`. -/
def writePairingTransaction (file : PairingTxnFile) : FileProg Unit :=
  (writePrivateFile .pairingTransactionState (.transaction file)).context "write pairing_txn.json"

/-- `read_pairing_transaction`. -/
def readPairingTransaction : FileProg PairingTxnFile := do
  let contents ← readFile "read pairing_txn.json" .pairingTransactionState
  match contents.asTransaction with
  | .error e => .fail ["parse pairing_txn.json", e]
  | .ok file => do
    Prog.ensure (file.version = 2) s!"unsupported pairing transaction version {file.version}"
    pure file

/-- Keep a copy of a file that is there. -/
def captureRollback (message : String) (present : Bool) (source target : FileName) :
    FileProg Unit :=
  if present then (copyPrivateFile source target).context message else pure ()

/-- `write_pairing_transaction_prepared`. -/
def writePairingTransactionPrepared (pairingId : Uuid) : FileProg Unit := do
  let present ← pathExists .pairingTransactionState
  Prog.ensure (present = false) "pairing transaction already exists"
  clearRollbackPairingFiles
  let hadLiveVault ← pathExists .vaultEnc
  let hadLivePairing ← pathExists .pairingState
  captureRollback "capture rollback vault" hadLiveVault .vaultEnc .rollbackVaultEnc
  captureRollback "capture rollback pairing" hadLivePairing .pairingState .rollbackPairingState
  writePairingTransaction
    { version := 2, phase := .prepared, pairingId, hadLiveVault, hadLivePairing }

/-- `advance_pairing_transaction`. -/
def advancePairingTransaction (phase : PairingTxnPhase) (pairingId : Uuid) : FileProg Unit := do
  let file ← readPairingTransaction
  Prog.ensure (file.pairingId = pairingId) "pairing transaction id mismatch"
  writePairingTransaction { file with phase }

/-- `write_pairing_transaction_phone_committed`. -/
def writePairingTransactionPhoneCommitted (pairingId : Uuid) : FileProg Unit :=
  advancePairingTransaction .phoneCommitted pairingId

/-- `write_pairing_transaction_locally_activated`. -/
def writePairingTransactionLocallyActivated (pairingId : Uuid) : FileProg Unit :=
  advancePairingTransaction .locallyActivated pairingId

/-- `write_pairing_transaction_fully_activated`. -/
def writePairingTransactionFullyActivated (pairingId : Uuid) : FileProg Unit :=
  advancePairingTransaction .fullyActivated pairingId

/-- A rollback copy is there when there was something to copy. -/
def requireRollback (message : String) (had : Bool) (f : FileName) : FileProg Unit :=
  if had then do
    let present ← pathExists f
    Prog.ensure (present = true) message
  else pure ()

/-- Rename a pending file over the live one. When it is not there the
live one has to be. -/
def promote (failed missing : String) (pending target : FileName) : FileProg Unit := do
  if ← pathExists pending then
    renameFile failed pending target
    fsyncParent
  else
    let present ← pathExists target
    Prog.ensure (present = true) missing

/-- **`promote_pending_pairing`.** -/
def promotePendingPairing : FileProg Unit := do
  let txn ← readPairingTransaction
  Prog.ensure (txn.phase = .phoneCommitted)
    "phone commit acknowledgement required before local activation"
  requireRollback "rollback vault missing before local activation" txn.hadLiveVault
    .rollbackVaultEnc
  requireRollback "rollback pairing missing before local activation" txn.hadLivePairing
    .rollbackPairingState
  promote "promote pending vault" "pending and live vault missing during local activation"
    .pendingVaultEnc .vaultEnc
  promote "promote pending pairing" "pending and live pairing missing during local activation"
    .pendingPairingState .pairingState

/-- Whether a pending or rollback file is there. -/
def hasStaleFiles : FileProg Bool := do
  if ← pathExists .pendingPairingState then pure true
  else if ← pathExists .pendingVaultEnc then pure true
  else if ← pathExists .rollbackPairingState then pure true
  else pathExists .rollbackVaultEnc

/-- **`recover_pairing_transaction`.** -/
def recoverPairingTransaction : FileProg Unit := do
  if ← pathExists .pairingTransactionState then
    let txn ← readPairingTransaction
    match txn.phase with
    | .prepared => pure ()
    | .locallyActivated => pure ()
    | .phoneCommitted => do
      promotePendingPairing.context "finish pairing transaction promotion"
      (writePairingTransactionLocallyActivated txn.pairingId).context
        "mark pairing transaction locally activated"
    | .fullyActivated =>
      clearPendingPairing.context "clear fully activated pairing transaction"
  else if ← hasStaleFiles then
    clearPendingPairing.context "clear stale untracked pending pairing"
  else pure ()

end Desktop
