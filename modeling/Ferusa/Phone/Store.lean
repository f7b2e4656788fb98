import Mathlib.Logic.Function.Basic
import Ferusa.Lib.Prog
import Ferusa.Core.Crypto

/-!
# The phone store

What the phone keeps in the Android keystore: one record per pairing
generation with its approval key, five pointers saying which generation
is what, and the PIN attempt counters. The store has no transactions.
It answers one command at a time, each of which may fail – and a save
or a deletion that fails may have been applied all the same.

The functions below are programs over those commands, one for each
function of `storage.rs`, under its name. What they guarantee is the
subject of `Ferusa.Phone.StoreStep`.
-/

namespace Phone

/-- The five pointers of the store. -/
inductive Pointer where
  | active
  | staging
  | pending
  | committed
  | retiring
  deriving DecidableEq, Repr

/-- The key a pointer is stored under. -/
def Pointer.name : Pointer → String
  | active => "active_pairing_generation"
  | staging => "staging_pairing_generation"
  | pending => "pending_pairing_generation"
  | committed => "committed_pairing_generation"
  | retiring => "retiring_pairing_generation"

/-- The two PINs. -/
inductive PinKind where
  | fourDigit
  | sixDigit
  deriving DecidableEq, Repr

/-- The persisted attempt counter of a PIN. -/
structure PinAttemptState where
  failedAttempts : Nat := 0
  cooldownLevel : Nat := 0
  cooldownUntilMs : Option Nat := none
  cooldownStartedElapsedMs : Option Nat := none
  cooldownBootCount : Option Nat := none
  cooldownDurationMs : Option Nat := none
  deriving DecidableEq, Repr

/-- `pin_attempt_key`. -/
def PinKind.attemptKey : PinKind → String
  | fourDigit => "pin4_attempt_state"
  | sixDigit => "pin6_attempt_state"

def pairingGenerationVersion : Nat := 1

/-- **The record of one pairing generation.** -/
structure PairingGeneration where
  version : Nat
  pairingId : Uuid
  approvalPublicKeyDer : Bytes
  phoneShare : Bytes32
  pin4Hash : String
  pin6Hash : String
  cliNodeId : Bytes32
  deriving DecidableEq

/-- The alias of an approval key: `ferusa_approval_` and the pairing
id. -/
structure ApprovalAlias where
  pairingId : Uuid
  deriving DecidableEq

/-- `approval_key_alias`. -/
def approvalKeyAlias (pairingId : Uuid) : ApprovalAlias := ⟨pairingId⟩

/-- **The keys of the store**: the pointers, the records, the attempt
counters. -/
inductive Key where
  | pointer (p : Pointer)
  | generation (id : Uuid)
  | pinAttempts (kind : PinKind)
  deriving DecidableEq

/-- What is stored under a key. -/
abbrev Key.Val : Key → Type
  | pointer _ => Uuid
  | generation _ => PairingGeneration
  | pinAttempts _ => PinAttemptState

/-- What is stored: at most one value under each key. -/
abbrev Secrets := (k : Key) → Option k.Val

namespace Secrets

/-- The generation a pointer names. -/
def ptr (v : Secrets) (p : Pointer) : Option Uuid := v (.pointer p)

/-- The record of a generation. -/
def gen (v : Secrets) (id : Uuid) : Option PairingGeneration := v (.generation id)

/-- What is stored after a save. -/
def put (v : Secrets) (k : Key) (value : k.Val) : Secrets :=
  Function.update v k (some value)

/-- What is stored after a deletion. -/
def remove (v : Secrets) (k : Key) : Secrets := Function.update v k none

variable (v : Secrets) (p q : Pointer) (id id' : Uuid) (kind : PinKind)

@[simp, grind =] theorem ptr_put_pointer :
    (v.put (.pointer p) id).ptr q = if q = p then some id else v.ptr q := by
  by_cases h : q = p
  · subst h
    simp [ptr, put]
  · simp [ptr, put, h]

@[simp, grind =] theorem ptr_put_generation (g : PairingGeneration) :
    (v.put (.generation id) g).ptr q = v.ptr q := by
  simp [ptr, put]

@[simp, grind =] theorem ptr_put_pinAttempts (a : PinAttemptState) :
    (v.put (.pinAttempts kind) a).ptr q = v.ptr q := by
  simp [ptr, put]

@[simp, grind =] theorem ptr_remove_pointer :
    (v.remove (.pointer p)).ptr q = if q = p then none else v.ptr q := by
  by_cases h : q = p
  · subst h
    simp [ptr, remove]
  · simp [ptr, remove, h]

@[simp, grind =] theorem ptr_remove_generation : (v.remove (.generation id)).ptr q = v.ptr q := by
  simp [ptr, remove]

@[simp, grind =] theorem ptr_remove_pinAttempts :
    (v.remove (.pinAttempts kind)).ptr q = v.ptr q := by
  simp [ptr, remove]

@[simp, grind =] theorem gen_put_pointer : (v.put (.pointer p) id).gen id' = v.gen id' := by
  simp [gen, put]

@[simp, grind =] theorem gen_put_generation (g : PairingGeneration) :
    (v.put (.generation id) g).gen id' = if id' = id then some g else v.gen id' := by
  by_cases h : id' = id
  · subst h
    simp [gen, put]
  · simp [gen, put, h]

@[simp, grind =] theorem gen_put_pinAttempts (a : PinAttemptState) :
    (v.put (.pinAttempts kind) a).gen id' = v.gen id' := by
  simp [gen, put]

@[simp, grind =] theorem gen_remove_pointer : (v.remove (.pointer p)).gen id' = v.gen id' := by
  simp [gen, remove]

@[simp, grind =] theorem gen_remove_generation :
    (v.remove (.generation id)).gen id' = if id' = id then none else v.gen id' := by
  by_cases h : id' = id
  · subst h
    simp [gen, remove]
  · simp [gen, remove, h]

@[simp, grind =] theorem gen_remove_pinAttempts :
    (v.remove (.pinAttempts kind)).gen id' = v.gen id' := by
  simp [gen, remove]

end Secrets

/-! ## Commands -/

/-- **The commands of the store**: the storage lock, `PairingStore`, and
the approval keys. -/
inductive StoreCmd where
  | acquireGuard
  | releaseGuard
  | save (k : Key) (value : k.Val)
  | get (k : Key)
  | delete (k : Key)
  | sign (keyAlias : ApprovalAlias) (payload : String)
  | generateApprovalKey (keyAlias : ApprovalAlias)
  | deleteApprovalKey (keyAlias : ApprovalAlias)

/-- What a command of the store is answered with. -/
abbrev StoreCmd.Reply : StoreCmd → Type
  | acquireGuard => Unit
  | releaseGuard => Unit
  | save _ _ => Except String Unit
  | get k => Except String (Option k.Val)
  | delete _ => Except String Unit
  | sign _ _ => Except String Bytes
  | generateApprovalKey _ => Except String Bytes
  | deleteApprovalKey _ => Except String Unit

/-- **The store**: what is stored, the approval keys with their public
halves, and which thread holds `STORAGE_LOCK`. -/
structure Store where
  secrets : Secrets
  keys : ApprovalAlias → Option Bytes
  guard : Option Nat

/-- How the keystore answers one command: it does what is asked, with
the bytes it makes up where it makes up any; it fails; or it fails
having done what was asked. -/
inductive StoreChoice where
  | ok (bytes : Bytes)
  | fail (error : String)
  | failApplied (bytes : Bytes) (error : String)

namespace Store

/-- The store with a value saved under a key. -/
def save (s : Store) (k : Key) (value : k.Val) : Store :=
  { s with secrets := s.secrets.put k value }

/-- The store with nothing under a key. -/
def delete (s : Store) (k : Key) : Store :=
  { s with secrets := s.secrets.remove k }

/-- The store with a key pair under an alias. -/
def putKey (s : Store) (keyAlias : ApprovalAlias) (publicKeyDer : Bytes) : Store :=
  { s with keys := Function.update s.keys keyAlias (some publicKeyDer) }

/-- The store without the key pair of an alias. -/
def deleteKey (s : Store) (keyAlias : ApprovalAlias) : Store :=
  { s with keys := Function.update s.keys keyAlias none }

section
variable (s : Store) (k : Key) (value : k.Val) (keyAlias : ApprovalAlias) (der : Bytes)

@[simp, grind =] theorem save_secrets : (s.save k value).secrets = s.secrets.put k value := rfl
@[simp, grind =] theorem save_keys : (s.save k value).keys = s.keys := rfl
@[simp, grind =] theorem save_guard : (s.save k value).guard = s.guard := rfl
@[simp, grind =] theorem delete_secrets : (s.delete k).secrets = s.secrets.remove k := rfl
@[simp, grind =] theorem delete_keys : (s.delete k).keys = s.keys := rfl
@[simp, grind =] theorem delete_guard : (s.delete k).guard = s.guard := rfl
@[simp, grind =] theorem putKey_secrets : (s.putKey keyAlias der).secrets = s.secrets := rfl
@[simp, grind =] theorem putKey_guard : (s.putKey keyAlias der).guard = s.guard := rfl
@[simp, grind =] theorem deleteKey_secrets : (s.deleteKey keyAlias).secrets = s.secrets := rfl
@[simp, grind =] theorem deleteKey_guard : (s.deleteKey keyAlias).guard = s.guard := rfl

@[simp, grind =] theorem putKey_keys (other : ApprovalAlias) :
    (s.putKey keyAlias der).keys other =
      if other = keyAlias then some der else s.keys other := by
  simp [putKey, Function.update_apply]

@[simp, grind =] theorem deleteKey_keys (other : ApprovalAlias) :
    (s.deleteKey keyAlias).keys other =
      if other = keyAlias then none else s.keys other := by
  simp [deleteKey, Function.update_apply]

end

/-- **What a command does**, put by thread `t` and answered as the choice
says; nothing when the command cannot be answered so – the lock is
taken, or there is no key to sign with. -/
def exec (t : Nat) : (c : StoreCmd) → StoreChoice → Store → Option (c.Reply × Store)
  | .acquireGuard, .ok _, s =>
    if s.guard = none then some ((), { s with guard := some t }) else none
  | .releaseGuard, .ok _, s =>
    if s.guard = some t then some ((), { s with guard := none }) else none
  | .save k value, .ok _, s => some (.ok (), s.save k value)
  | .save _ _, .fail e, s => some (.error e, s)
  | .save k value, .failApplied _ e, s => some (.error e, s.save k value)
  | .get k, .ok _, s => some (.ok (s.secrets k), s)
  | .get _, .fail e, s => some (.error e, s)
  | .delete k, .ok _, s => some (.ok (), s.delete k)
  | .delete _, .fail e, s => some (.error e, s)
  | .delete k, .failApplied _ e, s => some (.error e, s.delete k)
  | .sign keyAlias _, .ok b, s =>
    if (s.keys keyAlias).isSome then some (.ok b, s) else none
  | .sign _ _, .fail e, s => some (.error e, s)
  | .generateApprovalKey keyAlias, .ok b, s => some (.ok b, s.putKey keyAlias b)
  | .generateApprovalKey _, .fail e, s => some (.error e, s)
  | .generateApprovalKey keyAlias, .failApplied b e, s => some (.error e, s.putKey keyAlias b)
  | .deleteApprovalKey keyAlias, .ok _, s => some (.ok (), s.deleteKey keyAlias)
  | .deleteApprovalKey _, .fail e, s => some (.error e, s)
  | .deleteApprovalKey keyAlias, .failApplied _ e, s => some (.error e, s.deleteKey keyAlias)
  | _, _, _ => none

/-- The lock is taken when it is free. -/
theorem exec_acquireGuard {t : Nat} {o : StoreChoice} {s s' : Store} {r : Unit}
    (h : exec t .acquireGuard o s = some (r, s')) :
    s.guard = none ∧ s' = { s with guard := some t } := by
  cases o with
  | ok b =>
    simp only [exec] at h
    split at h
    · next hg => exact ⟨hg, by simpa using h.symm⟩
    · simp at h
  | _ => simp [exec] at h

/-- The lock is released by the thread that holds it. -/
theorem exec_releaseGuard {t : Nat} {o : StoreChoice} {s s' : Store} {r : Unit}
    (h : exec t .releaseGuard o s = some (r, s')) :
    s.guard = some t ∧ s' = { s with guard := none } := by
  cases o with
  | ok b =>
    simp only [exec] at h
    split at h
    · next hg => exact ⟨hg, by simpa using h.symm⟩
    · simp at h
  | _ => simp [exec] at h

/-- The empty store. -/
def empty : Store :=
  { secrets := fun _ => none, keys := fun _ => none, guard := none }

end Store

/-! ## Programs -/

/-- A program over the store. -/
abbrev StoreProg (α : Type) := Prog StoreCmd.Reply Anyhow α

namespace StoreProg

/-- `bail!`. -/
def bail {α : Type} (message : String) : StoreProg α := .fail [message]

/-- `Context::context`, on the result of a program. -/
def context {α : Type} (message : String) (p : StoreProg α) : StoreProg α :=
  p.mapError (message :: ·)

/-- The reply of a command that may fail, under the context its wrapper
adds. -/
def fallible {α : Type} (message : String) : Except String α → StoreProg α
  | .ok a => .ret a
  | .error e => .fail [message, e]

/-- **Hold `STORAGE_LOCK`** for the time of a program, whichever way it
ends. -/
def withStorageGuard {α : Type} (p : StoreProg α) : StoreProg α := do
  Prog.perform StoreCmd.acquireGuard
  let r ← p.attempt
  Prog.perform StoreCmd.releaseGuard
  Prog.ofExcept r

end StoreProg

open StoreProg

/-- `save_entry`. -/
def saveEntry (k : Key) (value : k.Val) : StoreProg Unit := do
  let r ← Prog.perform (.save k value)
  fallible "set Android Keystore secret" r

/-- `get_entry`. -/
def getEntry (k : Key) : StoreProg (Option k.Val) := do
  let r ← Prog.perform (.get k)
  fallible "get Android Keystore secret" r

/-- `delete_entry`. -/
def deleteEntry (k : Key) : StoreProg Unit := do
  let r ← Prog.perform (.delete k)
  fallible "delete Android Keystore secret" r

/-- `delete_approval_key`. -/
def deleteApprovalKey (keyAlias : ApprovalAlias) : StoreProg Unit := do
  let r ← Prog.perform (.deleteApprovalKey keyAlias)
  fallible "delete Android approval key" r

/-- `AppPairingStore::sign`, and `sign_approval_blocking`. -/
def signApproval (keyAlias : ApprovalAlias) (payload : String) : StoreProg Bytes := do
  let r ← Prog.perform (.sign keyAlias payload)
  fallible "sign approval" r

/-- `generate_approval_key_blocking`. -/
def generateApprovalKey (keyAlias : ApprovalAlias) : StoreProg Bytes := do
  let r ← Prog.perform (.generateApprovalKey keyAlias)
  fallible "generate approval key" r

/-- `load_generation_id`. -/
def loadGenerationId (p : Pointer) : StoreProg (Option Uuid) :=
  context s!"load {p.name}" (getEntry (.pointer p))

/-- `save_generation_id`. -/
def saveGenerationId (p : Pointer) (pairingId : Uuid) : StoreProg Unit :=
  context s!"save {p.name}" (saveEntry (.pointer p) pairingId)

/-- `delete_entry_if_present`: the deletion is attempted, its failure
ignored. -/
def deleteEntryIfPresent (k : Key) : StoreProg Unit := do
  let _ ← (deleteEntry k).attempt
  pure ()

/-- `push_unique_generation`. -/
def pushUniqueGeneration (ids : List Uuid) (pairingId : Uuid) : List Uuid :=
  if pairingId ∈ ids then ids else ids ++ [pairingId]

variable [Crypto]

/-- `validate_pin_hash`. -/
def validatePinHash (hash name : String) : Except Anyhow Unit :=
  match Crypto.parsePasswordHash hash with
  | .error e => .error [s!"parse {name}: {e}"]
  | .ok parsed =>
    if parsed.algorithm ≠ "argon2id" then .error [s!"{name} must use argon2id"]
    else if parsed.salt.isNone || parsed.hash.isNone then
      .error [s!"{name} must contain a salt and hash output"]
    else .ok ()

/-- `validate_generation_metadata`. -/
def validateGenerationMetadata (generation : PairingGeneration) :
    Except Anyhow Unit := do
  if generation.version ≠ pairingGenerationVersion then
    .error [s!"unsupported pairing generation version {generation.version}"]
  if generation.approvalPublicKeyDer.isEmpty then
    .error ["approval_public_key_der empty"]
  validatePinHash generation.pin4Hash "pin4_hash"
  validatePinHash generation.pin6Hash "pin6_hash"

/-- `validate_generation_key_binding`: the approval key signs a probe
that verifies under the stored public key. -/
def validateGenerationKeyBinding (generation : PairingGeneration) :
    StoreProg Unit := do
  Prog.ofExcept (validateGenerationMetadata generation)
  let signature ← context "probe pairing approval key"
    (signApproval (approvalKeyAlias generation.pairingId)
      (canonicalPairingReadyPayload generation.pairingId))
  if verifyPairingReadySignature generation.approvalPublicKeyDer
      generation.pairingId signature then pure ()
  else bail "approval key does not match stored public key"

omit [Crypto] in
/-- `store_generation`. -/
def storeGeneration (generation : PairingGeneration) : StoreProg Unit :=
  context s!"save generation {Uuid.toString generation.pairingId}"
    (saveEntry (.generation generation.pairingId) generation)

omit [Crypto] in
/-- `load_generation`. -/
def loadGeneration (pairingId : Uuid) : StoreProg PairingGeneration := do
  let stored ← context s!"load generation {Uuid.toString pairingId}"
    (getEntry (.generation pairingId))
  match stored with
  | none => bail s!"pairing generation {Uuid.toString pairingId} not in store"
  | some generation =>
    if generation.pairingId ≠ pairingId then bail "pairing generation id mismatch"
    else pure generation

/-- `load_metadata_validated_generation`. -/
def loadMetadataValidatedGeneration (pairingId : Uuid) :
    StoreProg PairingGeneration := do
  let generation ← loadGeneration pairingId
  Prog.ofExcept (validateGenerationMetadata generation)
  pure generation

/-- `load_key_bound_generation`. -/
def loadKeyBoundGeneration (pairingId : Uuid) : StoreProg PairingGeneration := do
  let generation ← loadMetadataValidatedGeneration pairingId
  validateGenerationKeyBinding generation
  pure generation

omit [Crypto] in
/-- `remove_generation`: the approval key first, the record second. -/
def removeGeneration (pairingId : Uuid) : StoreProg Unit := do
  context s!"delete approval key for generation {Uuid.toString pairingId}"
    (deleteApprovalKey (approvalKeyAlias pairingId))
  context s!"delete generation {Uuid.toString pairingId}"
    (deleteEntry (.generation pairingId))

omit [Crypto] in
/-- `cleanup_retiring_generation`. -/
def cleanupRetiringGeneration : StoreProg Unit := do
  match ← loadGenerationId .retiring with
  | none => pure ()
  | some retiring =>
    let active ← loadGenerationId .active
    if active = some retiring then
      bail "refusing to delete active pairing generation"
    else
      removeGeneration retiring
      context "clear retiring pairing generation" (deleteEntry (.pointer .retiring))

omit [Crypto] in
/-- `cleanup_activation_metadata`. -/
def cleanupActivationMetadata (pairingId : Uuid) : StoreProg Unit := do
  Prog.each [.staging, .pending, .committed] fun p => do
    let stored ← loadGenerationId p
    if stored = some pairingId then
      context s!"finalize activation by clearing {p.name}" (deleteEntry (.pointer p))
    else pure ()
  let _ ← cleanupRetiringGeneration.attempt
  pure ()

omit [Crypto] in
/-- `finalize_active_activation`. -/
def finalizeActiveActivation : StoreProg Unit := do
  let active ← loadGenerationId .active
  let committed ← loadGenerationId .committed
  match active, committed with
  | some active, some committed =>
    if active = committed then cleanupActivationMetadata active else pure ()
  | _, _ => pure ()

omit [Crypto] in
/-- `clear_uncommitted_pending`. -/
def clearUncommittedPending : StoreProg Unit := do
  finalizeActiveActivation
  let committed ← loadGenerationId .committed
  if committed.isSome then bail "refusing to clear committed pending pairing"
  else
    let active ← loadGenerationId .active
    let candidates ← Prog.fold [Pointer.staging, .pending] [] fun candidates p => do
      match ← loadGenerationId p with
      | some pairingId => pure (pushUniqueGeneration candidates pairingId)
      | none => pure candidates
    Prog.each candidates fun pairingId =>
      if some pairingId ≠ active then removeGeneration pairingId else pure ()
    Prog.each [Pointer.staging, .pending] fun p =>
      context s!"clear {p.name}" (deleteEntry (.pointer p))

omit [Crypto] in
/-- `begin_pending_pairing`. Once published, the desktop may have
durably prepared the pending generation, so it is not discarded here. -/
def beginPendingPairing (pairingId : Uuid) : StoreProg Unit := do
  finalizeActiveActivation
  let pending ← loadGenerationId .pending
  if pending.isSome then
    bail "pairing is pending; resume the original desktop transaction before retrying setup"
  else
    clearUncommittedPending
    saveGenerationId .staging pairingId

/-- `store_pending_pairing_generation`. -/
def storePendingPairingGeneration (pairingId : Uuid) (approvalAlias : ApprovalAlias)
    (approvalPublicKeyDer : Bytes) (phoneShare : Bytes32) (pin4Hash pin6Hash : String)
    (cliNodeId : Bytes32) : StoreProg Unit := do
  let staging ← loadGenerationId .staging
  if staging ≠ some pairingId then bail "staging pairing generation mismatch"
  else if approvalAlias ≠ approvalKeyAlias pairingId then
    bail "approval key alias does not match pairing generation"
  else
    let generation : PairingGeneration :=
      { version := pairingGenerationVersion, pairingId, approvalPublicKeyDer,
        phoneShare, pin4Hash, pin6Hash, cliNodeId }
    Prog.ofExcept (validateGenerationMetadata generation)
    storeGeneration generation
    let _ ← context "validate stored pending generation"
      (loadMetadataValidatedGeneration pairingId)
    saveGenerationId .pending pairingId

/-- `commit_pending_generation`. -/
def commitPendingGeneration (pairingId : Uuid) : StoreProg Unit := do
  let active ← loadGenerationId .active
  if active = some pairingId then
    let _ ← context "validate active generation"
      (loadMetadataValidatedGeneration pairingId)
    finalizeActiveActivation
  else
    let committed ← loadGenerationId .committed
    if committed = some pairingId then
      let _ ← context "validate committed generation"
        (loadMetadataValidatedGeneration pairingId)
      pure ()
    else
      let pending ← loadGenerationId .pending
      if pending ≠ some pairingId then
        bail "pending pairing id mismatch while marking committed"
      else
        let _ ← context "validate pending generation"
          (loadMetadataValidatedGeneration pairingId)
        saveGenerationId .committed pairingId

omit [Crypto] in
/-- `abort_unstarted_pairing`. -/
def abortUnstartedPairing (pairingId : Uuid) : StoreProg Unit := do
  Prog.each [Pointer.staging, .pending] fun p => do
    match ← loadGenerationId p with
    | some stored =>
      if stored ≠ pairingId then
        bail "refusing to clear a different pairing generation"
      else pure ()
    | none => pure ()
  clearUncommittedPending

omit [Crypto] in
/-- The part of `activate_generation` that marks the old generation as
retiring, an older one being cleaned first. -/
def retireActive : Option Uuid → StoreProg Unit
  | none => pure ()
  | some oldActive => do
    let retiring ← loadGenerationId .retiring
    (if retiring.any (· ≠ oldActive) then
      context "clean older retired generation before activation"
        cleanupRetiringGeneration
    else pure ())
    saveGenerationId .retiring oldActive

omit [Crypto] in
/-- The part of `activate_generation` that retires the old generation
and flips the active pointer. -/
def flipActive (committed : Uuid) : StoreProg Unit := do
  let oldActive ← loadGenerationId .active
  if oldActive = some committed then pure ()
  else
    retireActive oldActive
    context "activate pairing generation" (saveGenerationId .active committed)
    Prog.each [PinKind.fourDigit, .sixDigit] fun kind =>
      deleteEntryIfPresent (.pinAttempts kind)

/-- `activate_generation`. -/
def activateGeneration (pairingId : Uuid) : StoreProg PairingGeneration := do
  let active ← loadGenerationId .active
  if active = some pairingId then
    let generation ← context "validate active generation"
      (loadMetadataValidatedGeneration pairingId)
    finalizeActiveActivation
    pure generation
  else
    let pending ← loadGenerationId .pending
    match pending with
    | none => bail "pending pairing generation not in store"
    | some pending =>
      let committed ← loadGenerationId .committed
      match committed with
      | none => bail "committed pairing generation not in store"
      | some committed =>
        if pending ≠ committed ∨ committed ≠ pairingId then
          bail "pending and committed pairing generations do not match"
        else
          let generation ← context "validate committed generation"
            (loadMetadataValidatedGeneration committed)
          flipActive committed
          cleanupActivationMetadata committed
          pure generation

omit [Crypto] in
/-- `pairing_generation_cli_node_id`, under the lock. -/
def pairingGenerationCliNodeId (pairingId : Uuid) : StoreProg (Option Bytes32) := do
  finalizeActiveActivation
  let referenced ← Prog.fold [Pointer.active, .pending, .committed] []
    fun ids p => do
      let stored ← loadGenerationId p
      pure (ids ++ stored.toList)
  if pairingId ∈ referenced then
    let generation ← loadGeneration pairingId
    pure (some generation.cliNodeId)
  else pure none

/-- `load_secrets`, under the lock. -/
def loadSecrets : StoreProg PairingGeneration := do
  let _ ← cleanupRetiringGeneration.attempt
  match ← loadGenerationId .active with
  | none => bail "active pairing generation not in store"
  | some pairingId =>
    context "validate active generation" (loadKeyBoundGeneration pairingId)

/-- `is_setup_in_store`. -/
def isSetupInStore : StoreProg Bool := do
  finalizeActiveActivation
  let _ ← cleanupRetiringGeneration.attempt
  match ← loadGenerationId .active with
  | some pairingId =>
    let _ ← context "validate active generation"
      (loadMetadataValidatedGeneration pairingId)
    pure true
  | none => pure false

end Phone
