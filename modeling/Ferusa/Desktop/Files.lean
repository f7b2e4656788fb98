import Mathlib.Logic.Function.Basic
import Ferusa.Lib.Prog
import Ferusa.Lib.Volume
import Ferusa.Desktop.Twofa

/-!
# The data directory

The files the desktop keeps, and the system calls it makes on them.
Names appear and disappear by renaming and removing; what is renamed
into place was written to a temporary file first. Every call may fail,
and a call that fails has changed nothing: what may be lost without a
failure is the effect of a rename or a removal whose directory was not
synced before the machine stops (`Ferusa.Lib.Volume`).

File contents are held decoded – the hexadecimal fields of
`pairing.json` as the bytes they stand for – and a name stands for its
path in the data directory.
-/

namespace Desktop

/-- The files of the data directory. -/
inductive FileName where
  | vaultEnc
  | vaultSalt
  | peerId
  | phoneId
  | hmacKey
  | pairingState
  | pendingPairingState
  | pairingTransactionState
  | pendingVaultEnc
  | rollbackVaultEnc
  | rollbackPairingState
  | dev2faStubMarker
  deriving DecidableEq, Repr

/-- The name in the data directory. -/
def FileName.name : FileName → String
  | vaultEnc => "vault.enc"
  | vaultSalt => "vault.salt"
  | peerId => "peer.id"
  | phoneId => "phone.id"
  | hmacKey => "hmac.key"
  | pairingState => "pairing.json"
  | pendingPairingState => "pending_pairing.json"
  | pairingTransactionState => "pairing_txn.json"
  | pendingVaultEnc => "pending_vault.enc"
  | rollbackVaultEnc => "rollback_vault.enc"
  | rollbackPairingState => "rollback_pairing.json"
  | dev2faStubMarker => "dev-2fa-stub.json"

/-- The contents of `pairing.json`. -/
structure PairingFile where
  version : Nat
  data : PairingData
  deriving DecidableEq

/-- How far a pairing has got. -/
inductive PairingTxnPhase where
  | prepared
  | phoneCommitted
  | locallyActivated
  | fullyActivated
  deriving DecidableEq, Repr

/-- The place of a phase in their order. -/
def PairingTxnPhase.index : PairingTxnPhase → Nat
  | prepared => 0
  | phoneCommitted => 1
  | locallyActivated => 2
  | fullyActivated => 3

/-- **The contents of `pairing_txn.json`.** -/
structure PairingTxnFile where
  version : Nat
  phase : PairingTxnPhase
  pairingId : Uuid
  hadLiveVault : Bool
  hadLivePairing : Bool
  deriving DecidableEq

/-- What a file contains. A file that reached its place before its
contents were synced may contain anything: it is torn. -/
inductive Content where
  | vault (blob : EncryptedBlob)
  | pairing (file : PairingFile)
  | transaction (file : PairingTxnFile)
  | bytes (bytes : Bytes)
  | torn
  deriving DecidableEq

/-- The data directory: what each name contains. -/
abbrev Directory := FileName → Option Content

/-- A change of the directory. -/
inductive Change where
  | put (f : FileName) (contents : Content)
  | move (f g : FileName)
  | drop (f : FileName)
  deriving DecidableEq

namespace Directory

/-- The directory with a file put in place. -/
def put (v : Directory) (f : FileName) (contents : Content) : Directory :=
  Function.update v f (some contents)

/-- The directory without a file. -/
def drop (v : Directory) (f : FileName) : Directory :=
  Function.update v f none

/-- The directory with a file renamed. -/
def move (v : Directory) (f g : FileName) : Directory :=
  match v f with
  | some contents => (v.drop f).put g contents
  | none => v

/-- What a change does. -/
def apply : Change → Directory → Directory
  | .put f contents, v => v.put f contents
  | .move f g, v => v.move f g
  | .drop f, v => v.drop f

variable (v : Directory) (f g : FileName) (contents : Content)

@[simp, grind =] theorem put_apply :
    v.put f contents g = if g = f then some contents else v g := by
  rw [put, Function.update_apply]

@[simp, grind =] theorem drop_apply : v.drop f g = if g = f then none else v g := by
  rw [drop, Function.update_apply]

variable {v f contents} in
theorem move_eq (h : v f = some contents) : v.move f g = (v.drop f).put g contents := by
  rw [move, h]

end Directory

/-! ## System calls -/

/-- A temporary file: the name it is written for, and the number that
makes its own name unique. -/
structure Temp where
  file : FileName
  nonce : Nat
  deriving DecidableEq

/-- What is in a temporary file, and whether it was synced. -/
structure TempFile where
  contents : Option Content
  synced : Bool

/-- What a temporary file leaves when it is renamed into place. -/
def TempFile.placed (t : TempFile) : Content :=
  if t.synced then t.contents.getD .torn else .torn

/-- An error of a system call. -/
inductive IoError where
  | notFound
  | isADirectory
  | other (text : String)
  deriving DecidableEq

/-- The text of an error. -/
def IoError.toString : IoError → String
  | notFound => "No such file or directory"
  | isADirectory => "Is a directory"
  | other text => text

/-- The system calls that leave every name as it is and return
nothing. -/
inductive QuietCmd where
  | ensureDataDir
  | lockVault
  | writeAll (t : Temp) (contents : Content)
  | syncAll (t : Temp)
  | restrictTemp (t : Temp)
  | restrict (f : FileName)
  | removeTemp (t : Temp)

/-- **The system calls on the data directory.** -/
inductive FileCmd where
  | quiet (c : QuietCmd)
  | exists (f : FileName)
  | read (f : FileName)
  | create (f : FileName)
  | renameTemp (t : Temp) (f : FileName)
  | rename (f g : FileName)
  | remove (f : FileName)
  | syncParent

/-- What a system call returns. `Path::exists` does not fail. -/
abbrev FileCmd.Reply : FileCmd → Type
  | .exists _ => Bool
  | read _ => Except IoError Content
  | create _ => Except IoError Temp
  | quiet _ => Except IoError Unit
  | renameTemp _ _ => Except IoError Unit
  | rename _ _ => Except IoError Unit
  | remove _ => Except IoError Unit
  | syncParent => Except IoError Unit

/-- **The data directory with its temporary files.** -/
structure Files where
  volume : Volume Directory Change
  temps : Temp → Option TempFile

/-- How a system call ends: as it should – with a fresh number where it
makes up a name – or with an error. -/
inductive FileChoice where
  | ok (nonce : Nat)
  | fail (e : IoError)

namespace Files

/-- What is seen under the names. -/
def named (s : Files) : Directory := s.volume.live

/-- The files after a change. -/
def change (s : Files) (c : Change) : Files :=
  { s with volume := s.volume.change Directory.apply c }

/-- The files once the directory is synced. -/
def sync (s : Files) : Files :=
  { s with volume := s.volume.sync Directory.apply }

/-- The files with a temporary file in the given state. -/
def setTemp (s : Files) (t : Temp) (file : Option TempFile) : Files :=
  { s with temps := Function.update s.temps t file }

/-- The files after a call that leaves the names alone. -/
def quiet (s : Files) : QuietCmd → Files
  | .writeAll t contents => s.setTemp t (some ⟨some contents, false⟩)
  | .syncAll t => s.setTemp t ((s.temps t).map fun file => { file with synced := true })
  | .removeTemp t => s.setTemp t none
  | .ensureDataDir => s
  | .lockVault => s
  | .restrictTemp _ => s
  | .restrict _ => s

/-- **What a system call does**; nothing when it cannot end so. -/
def exec : (c : FileCmd) → FileChoice → Files → Option (c.Reply × Files)
  | .quiet c, .ok _, s => some (.ok (), s.quiet c)
  | .exists f, .ok _, s => some ((s.named f).isSome, s)
  | .read f, .ok _, s =>
    match s.named f with
    | some contents => some (.ok contents, s)
    | none => some (.error .notFound, s)
  | .create f, .ok nonce, s =>
    match s.temps ⟨f, nonce⟩ with
    | some _ => none
    | none => some (.ok ⟨f, nonce⟩, s.setTemp ⟨f, nonce⟩ (some ⟨none, false⟩))
  | .renameTemp t f, .ok _, s =>
    match s.temps t with
    | some file => some (.ok (), (s.setTemp t none).change (.put f file.placed))
    | none => some (.error .notFound, s)
  | .rename f g, .ok _, s =>
    if (s.named f).isSome then some (.ok (), s.change (.move f g))
    else some (.error .notFound, s)
  | .remove f, .ok _, s =>
    if (s.named f).isSome then some (.ok (), s.change (.drop f))
    else some (.error .notFound, s)
  | .syncParent, .ok _, s => some (.ok (), s.sync)
  | .exists _, .fail _, _ => none
  | .remove _, .fail .notFound, _ => none
  | .quiet _, .fail e, s => some (.error e, s)
  | .read _, .fail e, s => some (.error e, s)
  | .create _, .fail e, s => some (.error e, s)
  | .renameTemp _ _, .fail e, s => some (.error e, s)
  | .rename _ _, .fail e, s => some (.error e, s)
  | .remove _, .fail e, s => some (.error e, s)
  | .syncParent, .fail e, s => some (.error e, s)

/-- **A stop of the machine**: what was not synced may be lost, and no
temporary file is looked at again. -/
def Stop (s s' : Files) : Prop :=
  Volume.Stop Directory.apply s.volume s'.volume

variable (s : Files) (t : Temp) (file : Option TempFile) (c : Change)

@[simp, grind =] theorem change_named : (s.change c).named = Directory.apply c s.named := rfl
@[simp, grind =] theorem change_temps : (s.change c).temps = s.temps := rfl
@[simp, grind =] theorem sync_named : s.sync.named = s.named := rfl
@[simp, grind =] theorem sync_temps : s.sync.temps = s.temps := rfl
@[simp, grind =] theorem setTemp_named : (s.setTemp t file).named = s.named := rfl
@[simp, grind =] theorem setTemp_volume : (s.setTemp t file).volume = s.volume := rfl

@[simp] theorem quiet_volume (c : QuietCmd) : (s.quiet c).volume = s.volume := by
  cases c <;> rfl

@[simp, grind =] theorem setTemp_temps (u : Temp) :
    (s.setTemp t file).temps u = if u = t then file else s.temps u :=
  Function.update_apply ..

end Files

end Desktop
