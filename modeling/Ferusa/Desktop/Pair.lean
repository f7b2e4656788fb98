import Ferusa.Desktop.Session

/-!
# Pairing with a phone

The desktop side of a pairing. The phone connects and offers a
generation; the user compares the code; the new vault and pairing are
written under their pending names; the phone shows that it holds the
approval key; and then the transaction is recorded, committed on the
phone, promoted here, activated on the phone and forgotten, one durable
step after the other. Whatever interrupts this,
`reconcilePairingTransaction` goes on from the recorded phase.
-/

namespace Desktop

open DeskProg

/-- `PairingGate`. -/
inductive PairingGate where
  | newPairing
  | replaceRequiresApproval
  | invalidExistingPairing
  deriving DecidableEq

/-- `pairing_gate`. -/
def pairingGate (status : PairingStatus) (hasPairingFiles : Bool) : PairingGate :=
  match status with
  | .ready => .replaceRequiresApproval
  | .missingPhoneId => if hasPairingFiles then .invalidExistingPairing else .newPairing
  | _ => .invalidExistingPairing

/-- What the phone hands over in a pairing. -/
structure PairingSecrets where
  pairingId : Uuid
  phoneNodeId : Bytes32
  approvalPublicKeyDer : Bytes
  phoneShare : Bytes32
  deriving DecidableEq

/-- The secrets, and the connection they came over. -/
structure PairingExchange where
  secrets : PairingSecrets
  conn : Conn
  deriving DecidableEq

/-- `pairing_confirmation_accepted`. -/
def pairingConfirmationAccepted (answer : String) : Bool :=
  eqIgnoreAsciiCase (trim answer) "y"

/-- `require_pairing_code_confirmation`. -/
def requirePairingCodeConfirmation : DeskProg Unit := do
  let answer ← readLine "read pairing confirmation"
  Prog.ensure (pairingConfirmationAccepted answer = true) "pairing verification cancelled"

/-- Send a message, under the context the caller adds. -/
def sendMessage (message : String) (conn : Conn) (m : FerusaMessage) : DeskProg Unit := do
  let r ← ask (.send conn m)
  answer message r

/-- `read_ferusa_message`. -/
def readFerusaMessage (message : String) (conn : Conn) : DeskProg FerusaMessage := do
  let r ← ask (.receive conn)
  answer message r

/-- **`begin_pair_with_phone`.** -/
def beginPairWithPhone : DeskProg PairingExchange := do
  let r ← ask .acceptPhone
  let (conn, phoneNodeId) ← answer "timed out waiting for phone (120s)" r
  let message ← readFerusaMessage "read PairingHello" conn
  match message with
  | .pairingHello hello => do
    requirePairingCodeConfirmation
    pure { secrets := { pairingId := hello.pairingId, phoneNodeId,
                        approvalPublicKeyDer := hello.approvalPublicKeyDer,
                        phoneShare := hello.phoneShare },
           conn }
  | _ => Prog.bail "phone sent non-pairing hello"

variable [Crypto]

/-- **`confirm_pairing_ready`**: the phone signs with the approval key
of the pairing. -/
def confirmPairingReady (conn : Conn) (pairing : PairingData) : DeskProg Unit := do
  sendMessage "failed to send pairing prepared acknowledgement" conn
    (.pairingPrepared pairing.pairingId)
  let message ← readFerusaMessage "read phone activation" conn
  match message with
  | .pairingReady pairingId signature => do
    Prog.ensure (pairingId = pairing.pairingId) "pairing ready id mismatch"
    Prog.ensure (verifyPairingReadySignature pairing.approvalPublicKeyDer pairing.pairingId
      signature = true) "phone ready signature verification failed"
  | _ => Prog.bail "phone sent non-ready message"

omit [Crypto]

/-- `send_pairing_transition`. -/
def sendPairingTransition (conn : Conn) (request expected : FerusaMessage) (step : String) :
    DeskProg Unit := do
  sendMessage s!"send {step}" conn request
  let response ← readFerusaMessage s!"timed out waiting for {step} acknowledgement" conn
  Prog.ensure (response = expected) s!"unexpected {step} acknowledgement"

/-- `PAIRING_COMPLETE_CLOSE_CODE`. -/
def pairingCompleteCloseCode : Nat := 0

/-- `PAIRING_COMPLETE_CLOSE_REASON`. -/
def pairingCompleteCloseReason : String := "pairing complete"

/-- `is_pairing_complete_close`. -/
def isPairingCompleteClose (closeReason : ConnectionError) : Bool :=
  closeReason == .applicationClosed pairingCompleteCloseCode pairingCompleteCloseReason

/-- The phone closes the connection when it has nothing more to do. -/
def awaitPairingCompletion (conn : Conn) : DeskProg Unit := do
  let r ← ask (.finish conn)
  answer "finish pairing send" r
  let r ← ask (.closed conn)
  let closeReason ← answer "timed out waiting for phone pairing completion" r
  Prog.ensure (isPairingCompleteClose closeReason = true) "unexpected phone pairing completion"

/-- **`commit_and_activate_pairing`.** -/
def commitAndActivatePairing (conn : Conn) (pairingId : Uuid) : DeskProg Unit := do
  files ((writePairingTransactionPrepared pairingId).context "write prepared pairing transaction")
  sendPairingTransition conn (.pairingCommit pairingId) (.pairingCommitAck pairingId)
    "pairing commit"
  files ((writePairingTransactionPhoneCommitted pairingId).context
    "mark phone committed pairing")
  files (recoverPairingTransaction.context "activate phone-committed local pairing")
  sendPairingTransition conn (.pairingActivate pairingId) (.pairingActivateAck pairingId)
    "pairing activation"
  awaitPairingCompletion conn
  files ((writePairingTransactionFullyActivated pairingId).context "mark fully activated pairing")
  files (recoverPairingTransaction.context "clean fully activated pairing transaction")

/-! ## Recovery -/

/-- The pairing of the transaction under way: pending, or in place. -/
def readRecoveryPairing : FileProg PairingData := do
  if ← pathExists .pendingPairingState then readPendingPairingData else readPairingData

/-- **`send_recovery_transition`.** -/
def sendRecoveryTransition (request expected : FerusaMessage) : DeskProg Unit := do
  let pairing ← files readRecoveryPairing
  initPeer
  let r ← ask (.connectPhone pairing.phoneNodeId)
  let conn ← answer "connect to phone for pairing recovery" r
  sendMessage "send recovery request" conn request
  let r ← ask (.finish conn)
  answer "finish recovery request" r
  let response ← readFerusaMessage "timed out waiting for recovery acknowledgement" conn
  Prog.ensure (response = expected) "unexpected pairing recovery acknowledgement"

/-- What one round of recovery does before the local recovery. -/
def recoveryRound (txn : PairingTxnFile) : DeskProg Unit :=
  match txn.phase with
  | .prepared => do
    (sendRecoveryTransition (.pairingCommit txn.pairingId)
      (.pairingCommitAck txn.pairingId)).context "resume phone commit"
    files (writePairingTransactionPhoneCommitted txn.pairingId)
  | .phoneCommitted => pure ()
  | .locallyActivated => do
    (sendRecoveryTransition (.pairingActivate txn.pairingId)
      (.pairingActivateAck txn.pairingId)).context "resume phone activation"
    files (writePairingTransactionFullyActivated txn.pairingId)
  | .fullyActivated => pure ()

/-- What a loop fails with that has not ended after the given number of
rounds. -/
def outOfRounds : Anyhow := ["reconcile_pairing_transaction did not end"]

/-- The loop of `reconcile_pairing_transaction`, cut off after a number
of rounds. -/
def reconcileLoop : Nat → DeskProg Unit
  | 0 => .fail outOfRounds
  | rounds + 1 => do
    if ← files (pathExists .pairingTransactionState) then
      let txn ← files readPairingTransaction
      recoveryRound txn
      files recoverPairingTransaction
      reconcileLoop rounds
    else pure ()

/-- **`reconcile_pairing_transaction`.** Its loop ends by itself in
fewer rounds than these. -/
def reconcilePairingTransaction : DeskProg Unit := do
  files (recoverPairingTransaction.context "recover local pairing transaction")
  reconcileLoop 4

end Desktop
