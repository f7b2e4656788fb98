import Ferusa.Core.Payload
import Ferusa.Phone.Store

/-!
# The running app

What one process of the phone app holds in memory, next to the store: the
secrets of the unlocked pairing and the times and counters of
`state.rs`, each behind a lock of its own, the slot of the one pending
request, and the ids of the requests that were admitted lately. Its
tasks run side by side, and reach all of this through the commands
below.

A lock that is held while something else is awaited has two commands,
one to take it and one to give it back: the one of the session
generation, the gates of the PIN attempts, and the only permit for
Argon2. What is done under a lock without awaiting anything is one
command. `App.exec` is what a command does; time, reboots and the
process itself go their own way (`App.Env`, `App.boot`).

Instants and durations are in nanoseconds, a `u64` is a natural number
with its overflow written out.
-/

namespace Phone

/-- `Duration::from_secs`. -/
def seconds (n : Nat) : Nat := n * 10 ^ 9

/-- `u64::MAX`. -/
def u64Max : Nat := 2 ^ 64 - 1

/-- `u64::saturating_add`. -/
def saturatingAdd (a b : Nat) : Nat := min (a + b) u64Max

/-- `u64::wrapping_add`, which is what `fetch_add` does. -/
def wrappingAdd (a b : Nat) : Nat := (a + b) % 2 ^ 64

def authSessionTtl : Nat := seconds (10 * 60)
def pairingReplacementAuthorizationTtl : Nat := authSessionTtl
def approvalKeyAuthTtl : Nat := seconds 120
def pendingRequestTtl : Nat := seconds 65
def maxRecentRequestIds : Nat := 4096

/-! ## What is kept in memory -/

/-- `state::Secrets`: **the secrets of the pairing** that was unlocked. -/
structure AppSecrets where
  pairingId : Uuid
  approvalKeyAlias : ApprovalAlias
  approvalPublicKeyDer : Bytes
  phoneShare : Bytes32
  pin4Hash : String
  pin6Hash : String
  cliNodeId : Bytes32
  deriving DecidableEq

/-- `into_stored_secrets`, then `into_state_secrets`. -/
def PairingGeneration.intoStateSecrets (generation : PairingGeneration) : AppSecrets :=
  { pairingId := generation.pairingId
    approvalKeyAlias := approvalKeyAlias generation.pairingId
    approvalPublicKeyDer := generation.approvalPublicKeyDer
    phoneShare := generation.phoneShare
    pin4Hash := generation.pin4Hash
    pin6Hash := generation.pin6Hash
    cliNodeId := generation.cliNodeId }

/-- The hash of a PIN. -/
def AppSecrets.pinHash (secrets : AppSecrets) : PinKind → String
  | .fourDigit => secrets.pin4Hash
  | .sixDigit => secrets.pin6Hash

/-- The fields of `AppState` that sit behind a lock of their own. -/
inductive Cell where
  | secrets
  | isSetup
  | endpoint
  | pairingReplacementAuthorizedAt
  | unlockedAt
  | approvalKeyAuthenticatedAt
  | setupPairingCode
  deriving DecidableEq, Repr

/-- What a field holds. Of the endpoint, whether there is one. -/
abbrev Cell.Val : Cell → Type
  | secrets => Option AppSecrets
  | isSetup => Bool
  | endpoint => Bool
  | pairingReplacementAuthorizedAt => Option Nat
  | unlockedAt => Option Nat
  | approvalKeyAuthenticatedAt => Option Nat
  | setupPairingCode => Option Nat

/-- What a field holds at the start, and after `Option::take`. -/
def Cell.initial : (c : Cell) → c.Val
  | secrets => none
  | isSetup => false
  | endpoint => false
  | pairingReplacementAuthorizedAt => none
  | unlockedAt => none
  | approvalKeyAuthenticatedAt => none
  | setupPairingCode => none

/-- What the fields hold. -/
abbrev Cells := (c : Cell) → c.Val

/-- A connection, and the node at its other end. -/
structure Connection where
  number : Nat
  remoteId : Bytes32
  deriving DecidableEq

/-- A stream of a connection, by number. -/
abbrev Stream := Nat

/-- `PendingIdentity`: the instance of a request, from its admission on. -/
structure PendingIdentity where
  requestId : Uuid
  instanceId : Uuid
  sessionGeneration : Nat
  createdAt : Nat
  deriving DecidableEq

/-- `PendingIdentity::is_current`. -/
def PendingIdentity.isCurrent (identity expected : PendingIdentity) (now : Nat) : Bool :=
  identity = expected ∧ now - identity.createdAt < pendingRequestTtl

/-- `pending_request_is_expired`. -/
def pendingRequestIsExpired (pendingIdentity expectedIdentity : PendingIdentity)
    (now : Nat) : Bool :=
  pendingIdentity = expectedIdentity ∧ pendingRequestTtl ≤ now - pendingIdentity.createdAt

/-- **A request that waits for its answer**, with the stream to answer
on. -/
structure PendingRequest where
  request : AuthRequest
  send : Stream
  conn : Connection
  identity : PendingIdentity
  deriving DecidableEq

/-- `remember_request_id`: whether the id is new, and what is remembered
after. What is too old is forgotten, nothing else is. -/
def rememberRequestId (recent : List (Uuid × Nat)) (requestId : Uuid) (now : Nat) :
    Bool × List (Uuid × Nat) :=
  let recent := recent.filter fun x => now - x.2 < authSessionTtl
  if requestId ∈ recent.map Prod.fst ∨ maxRecentRequestIds ≤ recent.length then (false, recent)
  else (true, (requestId, now) :: recent)

/-- The tasks that are spawned to wait for something to expire. -/
inductive Task where
  | pendingExpiry (identity : PendingIdentity)
  | sessionExpiry (generation : Nat)
  deriving DecidableEq

/-- The longest time that `SystemClock.elapsedRealtime` tells, a long. -/
def elapsedRealtimeMax : Nat := 2 ^ 63 - 1

/-- `ClockSnapshot`: the count of the reboots, and the time since the last
one. -/
structure ClockSnapshot where
  bootCount : Nat
  elapsedRealtimeMs : Nat
  isLong : elapsedRealtimeMs ≤ elapsedRealtimeMax
  deriving DecidableEq

/-- **One clock is not before another**: the phone was rebooted in between,
or the time since the reboot has not gone back. -/
def ClockSnapshot.Before (c c' : ClockSnapshot) : Prop :=
  c.bootCount < c'.bootCount ∨
    c.bootCount = c'.bootCount ∧ c.elapsedRealtimeMs ≤ c'.elapsedRealtimeMs

theorem ClockSnapshot.Before.refl (c : ClockSnapshot) : c.Before c := .inr ⟨rfl, Nat.le_refl _⟩

theorem ClockSnapshot.Before.trans {c c' c'' : ClockSnapshot} (h : c.Before c')
    (h' : c'.Before c'') : c.Before c'' := by
  unfold ClockSnapshot.Before at *
  omega

/-! ## Commands -/

/-- What is done to the slot of the pending request, under its lock. -/
inductive SlotOp where
  /-- Look at it, and at the clock. -/
  | peek
  | take
  /-- The end of `take_verified_pending`. -/
  | takeVerified (expected : PendingIdentity)
  | takeExpired (expected : PendingIdentity)
  | takeInstance (identity : PendingIdentity)
  | put (pending : PendingRequest)
  /-- The end of `restore_pending_after_sign_error`. -/
  | restore (pending : PendingRequest)
  /-- The admission of a request, its id being remembered. -/
  | enter (pending : PendingRequest)
  deriving DecidableEq

/-- What becomes of a request that came in. -/
inductive Admission where
  | stored
  | busy (existingRequestId : Uuid)
  | reusedId
  deriving DecidableEq

/-- What is answered to what is done to the slot. -/
abbrev SlotOp.Reply : SlotOp → Type
  | peek => Option PendingRequest × Nat
  | take => Option PendingRequest
  | takeVerified _ => Except String PendingRequest
  | takeExpired _ => Option PendingRequest
  | takeInstance _ => Option PendingRequest
  | put _ => Unit
  | restore _ => Bool
  | enter _ => Admission

/-- The slot and the ids that were admitted lately. -/
structure Pending where
  slot : Option PendingRequest
  recent : List (Uuid × Nat)
  deriving DecidableEq

/-- **What is done to the slot** at a given time. -/
def SlotOp.apply (now : Nat) : (o : SlotOp) → Pending → o.Reply × Pending
  | .peek, p => ((p.slot, now), p)
  | .take, p => (p.slot, { p with slot := none })
  | .takeVerified expected, p =>
    match p.slot with
    | none => (.error "missing", p)
    | some current =>
      if current.request.requestId ≠ expected.requestId ∨
          ¬ current.identity.isCurrent expected now then (.error "mismatch", p)
      else (.ok current, { p with slot := none })
  | .takeExpired expected, p =>
    if p.slot.any fun current => pendingRequestIsExpired current.identity expected now then
      (p.slot, { p with slot := none })
    else (none, p)
  | .takeInstance identity, p =>
    if p.slot.any fun current => current.identity = identity then
      (p.slot, { p with slot := none })
    else (none, p)
  | .put pending, p => ((), { p with slot := some pending })
  | .restore pending, p =>
    if p.slot.isNone then (true, { p with slot := some pending }) else (false, p)
  | .enter pending, p =>
    match p.slot with
    | some existing => (.busy existing.request.requestId, p)
    | none =>
      let (isNew, recent) :=
        rememberRequestId p.recent pending.request.requestId pending.identity.createdAt
      if isNew then (.stored, { slot := some pending, recent })
      else (.reusedId, { p with recent })

/-- **What the app asks of its outside**: the user, the network, the
window. Whether the time given for something ran out is asked after
it. -/
inductive OutsideCmd where
  | biometric (title : String)
  | randomPairingCode
  | randomShare
  | acceptBi (conn : Connection)
  | readToEnd (stream : Stream)
  | timedOut
  | send (stream : Stream) (message : FerusaMessage)
  | finish (stream : Stream)
  | close (conn : Connection) (reason : String)
  | connect (node : Bytes32)
  | openBi (conn : Connection)
  | readMessage (stream : Stream)
  | awaitEnd (stream : Stream)
  | emit (event : String)
  deriving DecidableEq

/-- How waiting for a stream or a frame ends. -/
inductive Waited (α : Type) where
  | ok (a : α)
  | failed (error : String)
  | timedOut

/-- What the outside answers. A frame that cannot be decoded is answered
with the error of the decoder, a connection that was asked for with its
number: the transport sees to it that it is one to that node. -/
abbrev OutsideCmd.Reply : OutsideCmd → Type
  | biometric _ => Except String Unit
  | randomPairingCode => Fin 10000
  | randomShare => Bytes32
  | acceptBi _ => Waited Stream
  | readToEnd _ => Waited (Except String FerusaMessage)
  | timedOut => Bool
  | send _ _ => Except String Unit
  | finish _ => Except String Unit
  | close _ _ => Unit
  | connect _ => Except String Nat
  | openBi _ => Except String Stream
  | readMessage _ => Except String FerusaMessage
  | awaitEnd _ => Except String Unit
  | emit _ => Except String Unit

/-- **The commands of the app.** -/
inductive AppCmd where
  | store (c : StoreCmd)
  | lockGeneration
  | unlockGeneration
  /-- Reading the generation under its lock. -/
  | generation
  /-- Adding one to the generation under its lock. -/
  | bumpGeneration
  | isForeground
  | storeForeground (foreground : Bool)
  /-- `fetch_add(1) + 1` on the replacement generation. -/
  | bumpReplacement
  | replacement
  /-- What a field holds, and the clock. -/
  | read (c : Cell)
  | write (c : Cell) (value : c.Val)
  /-- What a field held, and the clock; nothing is left in it. -/
  | take (c : Cell)
  | slot (o : SlotOp)
  | lockGate (kind : PinKind)
  | unlockGate (kind : PinKind)
  | acquireArgon2
  | releaseArgon2
  | hashPin (pin : String)
  | verifyPin (pin hash : String)
  | now
  | currentTimeMs
  | clockSnapshot
  | sleepUntil (instant : Nat)
  | newUuid
  | spawn (task : Task)
  | ask (c : OutsideCmd)

/-- What a command is answered with. -/
abbrev AppCmd.Reply : AppCmd → Type
  | store c => c.Reply
  | lockGeneration => Unit
  | unlockGeneration => Unit
  | generation => Nat
  | bumpGeneration => Nat
  | isForeground => Bool
  | storeForeground _ => Unit
  | bumpReplacement => Nat
  | replacement => Nat
  | read c => c.Val × Nat
  | write _ _ => Unit
  | take c => c.Val × Nat
  | slot o => o.Reply
  | lockGate _ => Unit
  | unlockGate _ => Unit
  | acquireArgon2 => Unit
  | releaseArgon2 => Unit
  | hashPin _ => Except Anyhow String
  | verifyPin _ _ => Except Anyhow Bool
  | now => Nat
  | currentTimeMs => Nat
  | clockSnapshot => Except String ClockSnapshot
  | sleepUntil _ => Unit
  | newUuid => Uuid
  | spawn _ => Unit
  | ask c => c.Reply

/-- **A process and what it stands on**: the store, what it has in
memory, who holds its locks, the clocks, the ids made so far and the
tasks that were spawned and have not started. -/
structure App where
  store : Store
  cells : Cells
  generation : Nat
  generationGuard : Option Nat
  foreground : Bool
  replacement : Nat
  pending : Pending
  gates : PinKind → Option Nat
  argon2 : Option Nat
  now : Nat
  /-- The wall clock at instant zero. -/
  epoch : Nat
  clock : ClockSnapshot
  usedUuids : List Uuid
  spawned : List Task

namespace App

/-- A process that was just started over a store. -/
def boot (s : Store) (now epoch : Nat) (clock : ClockSnapshot) (usedUuids : List Uuid) : App :=
  { store := { s with guard := none }, cells := Cell.initial, generation := 0
    generationGuard := none, foreground := false, replacement := 0, pending := ⟨none, []⟩
    gates := fun _ => none, argon2 := none, now, epoch, clock, usedUuids, spawned := [] }

/-- The app with another value in a field. -/
def withCell (s : App) (c : Cell) (value : c.Val) : App :=
  { s with cells := Function.update s.cells c value }

/-- `current_time_ms`: the wall clock in milliseconds. -/
def wallMs (s : App) : Nat := (s.now + s.epoch) / 10 ^ 6

end App

/-! ## The PINs -/

/-- `hash_pin` with the salt it draws. -/
def hashPin [Crypto] (pin : String) (salt : Bytes) : Except Anyhow String :=
  if pin.isEmpty then .error ["PIN must not be empty"]
  else (Crypto.hashPassword pin salt).mapError fun e => [s!"hash_password: {e}"]

/-- `verify_pin`. -/
def verifyPin [Crypto] (pin hash : String) : Except Anyhow Bool :=
  match Crypto.parsePasswordHash hash with
  | .error e => .error [s!"parse hash: {e}"]
  | .ok parsed => .ok (Crypto.verifyPassword pin parsed)

/-! ## What the commands do -/

/-- What is left open by the state when a command is answered. -/
abbrev AppCmd.Choice : AppCmd → Type
  | store _ => StoreChoice
  | hashPin _ => Bytes
  | clockSnapshot => Option String
  | newUuid => Uuid
  | ask c => c.Reply
  | _ => Unit

namespace App

variable [Crypto]

/-- **What a command does**, put by thread `t` and answered as the choice
says; nothing when it cannot be answered so – the lock is taken, the
instant has not come, the id is not new. -/
def exec (t : Nat) : (c : AppCmd) → c.Choice → App → Option (c.Reply × App)
  | .store c, o, s => (Store.exec t c o s.store).map fun x => (x.1, { s with store := x.2 })
  | .lockGeneration, _, s =>
    if s.generationGuard = none then some ((), { s with generationGuard := some t }) else none
  | .unlockGeneration, _, s =>
    if s.generationGuard = some t then some ((), { s with generationGuard := none }) else none
  | .generation, _, s =>
    if s.generationGuard = some t then some (s.generation, s) else none
  | .bumpGeneration, _, s =>
    if s.generationGuard = some t then
      some (saturatingAdd s.generation 1, { s with generation := saturatingAdd s.generation 1 })
    else none
  | .isForeground, _, s => some (s.foreground, s)
  | .storeForeground foreground, _, s => some ((), { s with foreground })
  | .bumpReplacement, _, s =>
    some (wrappingAdd s.replacement 1, { s with replacement := wrappingAdd s.replacement 1 })
  | .replacement, _, s => some (s.replacement, s)
  | .read c, _, s => some ((s.cells c, s.now), s)
  | .write c value, _, s => some ((), s.withCell c value)
  | .take c, _, s => some ((s.cells c, s.now), s.withCell c c.initial)
  | .slot o, _, s =>
    some ((o.apply s.now s.pending).1, { s with pending := (o.apply s.now s.pending).2 })
  | .lockGate kind, _, s =>
    if s.gates kind = none then
      some ((), { s with gates := Function.update s.gates kind (some t) })
    else none
  | .unlockGate kind, _, s =>
    if s.gates kind = some t then
      some ((), { s with gates := Function.update s.gates kind none })
    else none
  | .acquireArgon2, _, s =>
    if s.argon2 = none then some ((), { s with argon2 := some t }) else none
  | .releaseArgon2, _, s =>
    if s.argon2 = some t then some ((), { s with argon2 := none }) else none
  | .hashPin pin, salt, s => some (Phone.hashPin pin salt, s)
  | .verifyPin pin hash, _, s => some (Phone.verifyPin pin hash, s)
  | .now, _, s => some (s.now, s)
  | .currentTimeMs, _, s => some (s.wallMs, s)
  | .clockSnapshot, none, s => some (.ok s.clock, s)
  | .clockSnapshot, some e, s => some (.error e, s)
  | .sleepUntil instant, _, s => if instant ≤ s.now then some ((), s) else none
  | .newUuid, id, s =>
    if id ∈ s.usedUuids then none else some (id, { s with usedUuids := id :: s.usedUuids })
  | .spawn task, _, s => some ((), { s with spawned := task :: s.spawned })
  | .ask _, r, s => some (r, s)

/-- What a command may be answered with. -/
def Exec (t : Nat) (c : AppCmd) (s : App) (r : c.Reply) (s' : App) : Prop :=
  ∃ o, exec t c o s = some (r, s')

section

variable {t : Nat} {s s' : App}

/-- What a command does that can always be answered, in one way. -/
theorem exec_of_eq {c : AppCmd} {r₀ r : c.Reply} {s₀ : App} (o : c.Choice)
    (h : ∀ o, exec t c o s = some (r₀, s₀)) : Exec t c s r s' ↔ r = r₀ ∧ s' = s₀ := by
  refine ⟨fun ⟨o, ho⟩ => ?_, fun ⟨hr, hs⟩ => ⟨o, by rw [h, hr, hs]⟩⟩
  rw [h] at ho
  exact ⟨(Prod.mk.inj (Option.some.inj ho)).1.symm, (Prod.mk.inj (Option.some.inj ho)).2.symm⟩

/-- What a command does that can be answered under a condition. -/
theorem exec_of_ite {c : AppCmd} {r₀ r : c.Reply} {s₀ : App} {p : Prop} [Decidable p]
    (o : c.Choice) (h : ∀ o, exec t c o s = if p then some (r₀, s₀) else none) :
    Exec t c s r s' ↔ p ∧ r = r₀ ∧ s' = s₀ := by
  by_cases hp : p
  · rw [exec_of_eq o fun o => (h o).trans (if_pos hp)]
    exact ⟨fun h => ⟨hp, h⟩, fun h => h.2⟩
  · refine ⟨fun ⟨o, ho⟩ => ?_, fun h => absurd h.1 hp⟩
    rw [h, if_neg hp] at ho
    cases ho

theorem exec_store {c : StoreCmd} {r : c.Reply} : Exec t (.store c) s r s' ↔
    ∃ o st, Store.exec t c o s.store = some (r, st) ∧ s' = { s with store := st } := by
  show (∃ o, (Store.exec t c o s.store).map (fun x => (x.1, { s with store := x.2 })) =
    some (r, s')) ↔ _
  simp [eq_comm]

@[simp] theorem exec_lockGeneration {r : Unit} : Exec t .lockGeneration s r s' ↔
    s.generationGuard = none ∧ s' = { s with generationGuard := some t } := by
  rw [exec_of_ite () fun _ => rfl]
  simp

@[simp] theorem exec_unlockGeneration {r : Unit} : Exec t .unlockGeneration s r s' ↔
    s.generationGuard = some t ∧ s' = { s with generationGuard := none } := by
  rw [exec_of_ite () fun _ => rfl]
  simp

@[simp] theorem exec_generation {r : Nat} : Exec t .generation s r s' ↔
    s.generationGuard = some t ∧ r = s.generation ∧ s' = s :=
  exec_of_ite () fun _ => rfl

@[simp] theorem exec_bumpGeneration {r : Nat} : Exec t .bumpGeneration s r s' ↔
    s.generationGuard = some t ∧ r = saturatingAdd s.generation 1 ∧
      s' = { s with generation := saturatingAdd s.generation 1 } :=
  exec_of_ite () fun _ => rfl

@[simp] theorem exec_isForeground {r : Bool} :
    Exec t .isForeground s r s' ↔ r = s.foreground ∧ s' = s :=
  exec_of_eq () fun _ => rfl

@[simp] theorem exec_storeForeground {foreground : Bool} {r : Unit} :
    Exec t (.storeForeground foreground) s r s' ↔ s' = { s with foreground } := by
  rw [exec_of_eq () fun _ => rfl]
  simp

@[simp] theorem exec_bumpReplacement {r : Nat} : Exec t .bumpReplacement s r s' ↔
    r = wrappingAdd s.replacement 1 ∧
      s' = { s with replacement := wrappingAdd s.replacement 1 } :=
  exec_of_eq () fun _ => rfl

@[simp] theorem exec_replacement {r : Nat} :
    Exec t .replacement s r s' ↔ r = s.replacement ∧ s' = s :=
  exec_of_eq () fun _ => rfl

@[simp] theorem exec_read {c : Cell} {r : c.Val × Nat} :
    Exec t (.read c) s r s' ↔ r = (s.cells c, s.now) ∧ s' = s :=
  exec_of_eq () fun _ => rfl

@[simp] theorem exec_write {c : Cell} {value : c.Val} {r : Unit} :
    Exec t (.write c value) s r s' ↔ s' = s.withCell c value := by
  rw [exec_of_eq () fun _ => rfl]
  simp

@[simp] theorem exec_take {c : Cell} {r : c.Val × Nat} :
    Exec t (.take c) s r s' ↔ r = (s.cells c, s.now) ∧ s' = s.withCell c c.initial :=
  exec_of_eq () fun _ => rfl

@[simp] theorem exec_slot {o : SlotOp} {r : o.Reply} : Exec t (.slot o) s r s' ↔
    r = (o.apply s.now s.pending).1 ∧ s' = { s with pending := (o.apply s.now s.pending).2 } :=
  exec_of_eq () fun _ => rfl

@[simp] theorem exec_lockGate {kind : PinKind} {r : Unit} : Exec t (.lockGate kind) s r s' ↔
    s.gates kind = none ∧ s' = { s with gates := Function.update s.gates kind (some t) } := by
  rw [exec_of_ite () fun _ => rfl]
  simp

@[simp] theorem exec_unlockGate {kind : PinKind} {r : Unit} : Exec t (.unlockGate kind) s r s' ↔
    s.gates kind = some t ∧ s' = { s with gates := Function.update s.gates kind none } := by
  rw [exec_of_ite () fun _ => rfl]
  simp

@[simp] theorem exec_acquireArgon2 {r : Unit} : Exec t .acquireArgon2 s r s' ↔
    s.argon2 = none ∧ s' = { s with argon2 := some t } := by
  rw [exec_of_ite () fun _ => rfl]
  simp

@[simp] theorem exec_releaseArgon2 {r : Unit} : Exec t .releaseArgon2 s r s' ↔
    s.argon2 = some t ∧ s' = { s with argon2 := none } := by
  rw [exec_of_ite () fun _ => rfl]
  simp

@[simp] theorem exec_hashPin {pin : String} {r : Except Anyhow String} :
    Exec t (.hashPin pin) s r s' ↔ (∃ salt, r = Phone.hashPin pin salt) ∧ s' = s := by
  refine ⟨fun ⟨salt, h⟩ => ?_, ?_⟩
  · obtain ⟨hr, hs⟩ := Prod.mk.inj (Option.some.inj h)
    exact ⟨⟨salt, hr.symm⟩, hs.symm⟩
  · rintro ⟨⟨salt, rfl⟩, rfl⟩
    exact ⟨salt, rfl⟩

@[simp] theorem exec_verifyPin {pin hash : String} {r : Except Anyhow Bool} :
    Exec t (.verifyPin pin hash) s r s' ↔ r = Phone.verifyPin pin hash ∧ s' = s :=
  exec_of_eq () fun _ => rfl

@[simp] theorem exec_now {r : Nat} : Exec t .now s r s' ↔ r = s.now ∧ s' = s :=
  exec_of_eq () fun _ => rfl

@[simp] theorem exec_currentTimeMs {r : Nat} :
    Exec t .currentTimeMs s r s' ↔ r = s.wallMs ∧ s' = s :=
  exec_of_eq () fun _ => rfl

@[simp] theorem exec_clockSnapshot {r : Except String ClockSnapshot} :
    Exec t .clockSnapshot s r s' ↔ (r = .ok s.clock ∨ ∃ e, r = .error e) ∧ s' = s := by
  refine ⟨fun ⟨o, h⟩ => ?_, ?_⟩
  · cases o with
    | none =>
      obtain ⟨hr, hs⟩ := Prod.mk.inj (Option.some.inj h)
      exact ⟨.inl hr.symm, hs.symm⟩
    | some e =>
      obtain ⟨hr, hs⟩ := Prod.mk.inj (Option.some.inj h)
      exact ⟨.inr ⟨e, hr.symm⟩, hs.symm⟩
  · rintro ⟨rfl | ⟨e, rfl⟩, rfl⟩
    · exact ⟨none, rfl⟩
    · exact ⟨some e, rfl⟩

@[simp] theorem exec_sleepUntil {instant : Nat} {r : Unit} :
    Exec t (.sleepUntil instant) s r s' ↔ instant ≤ s.now ∧ s' = s := by
  rw [exec_of_ite () fun _ => rfl]
  simp

@[simp] theorem exec_newUuid {id : Uuid} : Exec t .newUuid s id s' ↔
    id ∉ s.usedUuids ∧ s' = { s with usedUuids := id :: s.usedUuids } := by
  refine ⟨fun ⟨o, h⟩ => ?_, fun ⟨hg, h⟩ => ⟨id, ?_⟩⟩
  · replace h : (if o ∈ s.usedUuids then none
      else some (o, { s with usedUuids := o :: s.usedUuids })) = some (id, s') := h
    split at h
    · cases h
    · next hid =>
      obtain ⟨rfl, rfl⟩ := Prod.mk.inj (Option.some.inj h)
      exact ⟨hid, rfl⟩
  · show (if id ∈ s.usedUuids then none
      else some (id, { s with usedUuids := id :: s.usedUuids })) = some (id, s')
    rw [if_neg hg, h]

@[simp] theorem exec_spawn {task : Task} {r : Unit} :
    Exec t (.spawn task) s r s' ↔ s' = { s with spawned := task :: s.spawned } := by
  rw [exec_of_eq () fun _ => rfl]
  simp

@[simp] theorem exec_ask {c : OutsideCmd} {r : c.Reply} : Exec t (.ask c) s r s' ↔ s' = s := by
  refine ⟨fun ⟨_, h⟩ => ?_, fun h => ⟨r, by rw [h]; rfl⟩⟩
  exact (Prod.mk.inj (Option.some.inj h)).2.symm

/-- **What a command leaves alone of the session**: all but the field it is
there for. -/
structure Framed (c : AppCmd) (s s' : App) : Prop where
  guard : c ≠ .lockGeneration → c ≠ .unlockGeneration →
    s'.generationGuard = s.generationGuard
  generation : c ≠ .bumpGeneration → s'.generation = s.generation
  foreground : (∀ foreground, c ≠ .storeForeground foreground) → s'.foreground = s.foreground
  replacement : c ≠ .bumpReplacement → s'.replacement = s.replacement
  cells : ∀ cell, (∀ value, c ≠ .write cell value) → c ≠ .take cell →
    s'.cells cell = s.cells cell

omit [Crypto] in
/-- A command that changes nothing of the session. -/
theorem Framed.of_eq {c : AppCmd} (h₁ : s'.generationGuard = s.generationGuard)
    (h₂ : s'.generation = s.generation) (h₃ : s'.foreground = s.foreground)
    (h₄ : s'.replacement = s.replacement) (h₅ : s'.cells = s.cells) : Framed c s s' :=
  ⟨fun _ _ => h₁, fun _ => h₂, fun _ => h₃, fun _ => h₄, fun cell _ _ => by rw [h₅]⟩

omit [Crypto] in
theorem withCell_cells (s : App) (c c' : Cell) (value : c.Val) (h : c' ≠ c) :
    (s.withCell c value).cells c' = s.cells c' :=
  Function.update_of_ne h _ _

omit [Crypto] in
@[simp] theorem withCell_cells_self (s : App) (c : Cell) (value : c.Val) :
    (s.withCell c value).cells c = value :=
  Function.update_self _ _ _

theorem Exec.framed {c : AppCmd} {r : c.Reply} (h : Exec t c s r s') : Framed c s s' := by
  cases c with
  | lockGeneration =>
    obtain ⟨-, rfl⟩ := exec_lockGeneration.mp h
    exact ⟨fun h => absurd rfl h, fun _ => rfl, fun _ => rfl, fun _ => rfl, fun _ _ _ => rfl⟩
  | unlockGeneration =>
    obtain ⟨-, rfl⟩ := exec_unlockGeneration.mp h
    exact ⟨fun _ h => absurd rfl h, fun _ => rfl, fun _ => rfl, fun _ => rfl, fun _ _ _ => rfl⟩
  | bumpGeneration =>
    obtain ⟨-, -, rfl⟩ := exec_bumpGeneration.mp h
    exact ⟨fun _ _ => rfl, fun h => absurd rfl h, fun _ => rfl, fun _ => rfl, fun _ _ _ => rfl⟩
  | storeForeground foreground =>
    obtain rfl := exec_storeForeground.mp h
    exact ⟨fun _ _ => rfl, fun _ => rfl, fun h => absurd rfl (h foreground), fun _ => rfl,
      fun _ _ _ => rfl⟩
  | bumpReplacement =>
    obtain ⟨-, rfl⟩ := exec_bumpReplacement.mp h
    exact ⟨fun _ _ => rfl, fun _ => rfl, fun _ => rfl, fun h => absurd rfl h, fun _ _ _ => rfl⟩
  | write c value =>
    obtain rfl := exec_write.mp h
    refine ⟨fun _ _ => rfl, fun _ => rfl, fun _ => rfl, fun _ => rfl, fun cell hc _ =>
      withCell_cells _ _ _ _ ?_⟩
    rintro rfl
    exact hc value rfl
  | take c =>
    obtain ⟨-, rfl⟩ := exec_take.mp h
    refine ⟨fun _ _ => rfl, fun _ => rfl, fun _ => rfl, fun _ => rfl, fun cell _ hc =>
      withCell_cells _ _ _ _ ?_⟩
    rintro rfl
    exact hc rfl
  | store c =>
    obtain ⟨o, st, -, rfl⟩ := exec_store.mp h
    exact .of_eq rfl rfl rfl rfl rfl
  | generation =>
    obtain ⟨-, -, rfl⟩ := exec_generation.mp h
    exact .of_eq rfl rfl rfl rfl rfl
  | lockGate =>
    obtain ⟨-, rfl⟩ := exec_lockGate.mp h
    exact .of_eq rfl rfl rfl rfl rfl
  | unlockGate =>
    obtain ⟨-, rfl⟩ := exec_unlockGate.mp h
    exact .of_eq rfl rfl rfl rfl rfl
  | acquireArgon2 =>
    obtain ⟨-, rfl⟩ := exec_acquireArgon2.mp h
    exact .of_eq rfl rfl rfl rfl rfl
  | releaseArgon2 =>
    obtain ⟨-, rfl⟩ := exec_releaseArgon2.mp h
    exact .of_eq rfl rfl rfl rfl rfl
  | sleepUntil =>
    obtain ⟨-, rfl⟩ := exec_sleepUntil.mp h
    exact .of_eq rfl rfl rfl rfl rfl
  | newUuid =>
    obtain ⟨-, rfl⟩ := exec_newUuid.mp h
    exact .of_eq rfl rfl rfl rfl rfl
  | clockSnapshot =>
    obtain ⟨-, rfl⟩ := exec_clockSnapshot.mp h
    exact .of_eq rfl rfl rfl rfl rfl
  | ask =>
    obtain rfl := exec_ask.mp h
    exact .of_eq rfl rfl rfl rfl rfl
  | _ =>
    obtain ⟨o, h⟩ := h
    obtain ⟨-, rfl⟩ := Prod.mk.inj (Option.some.inj h)
    exact .of_eq rfl rfl rfl rfl rfl

/-- **What a command leaves alone of the rest**: all but the field it is
there for, and the clocks. -/
structure Aside (c : AppCmd) (s s' : App) : Prop where
  store : (∀ c', c ≠ .store c') → s'.store = s.store
  pending : (∀ o, c ≠ .slot o) → s'.pending = s.pending
  gates : (∀ kind, c ≠ .lockGate kind ∧ c ≠ .unlockGate kind) → s'.gates = s.gates
  usedUuids : c ≠ .newUuid → s'.usedUuids = s.usedUuids
  spawned : (∀ task, c ≠ .spawn task) → s'.spawned = s.spawned
  now : s'.now = s.now
  epoch : s'.epoch = s.epoch
  clock : s'.clock = s.clock

omit [Crypto] in
/-- A command that changes nothing of it. -/
theorem Aside.of_eq {c : AppCmd} (h₁ : s'.store = s.store) (h₂ : s'.pending = s.pending)
    (h₃ : s'.gates = s.gates) (h₄ : s'.usedUuids = s.usedUuids) (h₅ : s'.spawned = s.spawned)
    (h₆ : s'.now = s.now) (h₇ : s'.epoch = s.epoch) (h₈ : s'.clock = s.clock) : Aside c s s' :=
  ⟨fun _ => h₁, fun _ => h₂, fun _ => h₃, fun _ => h₄, fun _ => h₅, h₆, h₇, h₈⟩

theorem Exec.aside {c : AppCmd} {r : c.Reply} (h : Exec t c s r s') : Aside c s s' := by
  cases c with
  | store c =>
    obtain ⟨o, st, -, rfl⟩ := exec_store.mp h
    exact ⟨fun h => absurd rfl (h c), fun _ => rfl, fun _ => rfl, fun _ => rfl, fun _ => rfl,
      rfl, rfl, rfl⟩
  | slot o =>
    obtain ⟨-, rfl⟩ := exec_slot.mp h
    exact ⟨fun _ => rfl, fun h => absurd rfl (h o), fun _ => rfl, fun _ => rfl, fun _ => rfl,
      rfl, rfl, rfl⟩
  | lockGate kind =>
    obtain ⟨-, rfl⟩ := exec_lockGate.mp h
    exact ⟨fun _ => rfl, fun _ => rfl, fun h => absurd rfl (h kind).1, fun _ => rfl,
      fun _ => rfl, rfl, rfl, rfl⟩
  | unlockGate kind =>
    obtain ⟨-, rfl⟩ := exec_unlockGate.mp h
    exact ⟨fun _ => rfl, fun _ => rfl, fun h => absurd rfl (h kind).2, fun _ => rfl,
      fun _ => rfl, rfl, rfl, rfl⟩
  | newUuid =>
    obtain ⟨-, rfl⟩ := exec_newUuid.mp h
    exact ⟨fun _ => rfl, fun _ => rfl, fun _ => rfl, fun h => absurd rfl h, fun _ => rfl,
      rfl, rfl, rfl⟩
  | spawn task =>
    obtain rfl := exec_spawn.mp h
    exact ⟨fun _ => rfl, fun _ => rfl, fun _ => rfl, fun _ => rfl, fun h => absurd rfl (h task),
      rfl, rfl, rfl⟩
  | lockGeneration =>
    obtain ⟨-, rfl⟩ := exec_lockGeneration.mp h
    exact .of_eq rfl rfl rfl rfl rfl rfl rfl rfl
  | unlockGeneration =>
    obtain ⟨-, rfl⟩ := exec_unlockGeneration.mp h
    exact .of_eq rfl rfl rfl rfl rfl rfl rfl rfl
  | bumpGeneration =>
    obtain ⟨-, -, rfl⟩ := exec_bumpGeneration.mp h
    exact .of_eq rfl rfl rfl rfl rfl rfl rfl rfl
  | generation =>
    obtain ⟨-, -, rfl⟩ := exec_generation.mp h
    exact .of_eq rfl rfl rfl rfl rfl rfl rfl rfl
  | acquireArgon2 =>
    obtain ⟨-, rfl⟩ := exec_acquireArgon2.mp h
    exact .of_eq rfl rfl rfl rfl rfl rfl rfl rfl
  | releaseArgon2 =>
    obtain ⟨-, rfl⟩ := exec_releaseArgon2.mp h
    exact .of_eq rfl rfl rfl rfl rfl rfl rfl rfl
  | sleepUntil =>
    obtain ⟨-, rfl⟩ := exec_sleepUntil.mp h
    exact .of_eq rfl rfl rfl rfl rfl rfl rfl rfl
  | clockSnapshot =>
    obtain ⟨-, rfl⟩ := exec_clockSnapshot.mp h
    exact .of_eq rfl rfl rfl rfl rfl rfl rfl rfl
  | ask =>
    obtain rfl := exec_ask.mp h
    exact .of_eq rfl rfl rfl rfl rfl rfl rfl rfl
  | _ =>
    obtain ⟨o, h⟩ := h
    obtain ⟨-, rfl⟩ := Prod.mk.inj (Option.some.inj h)
    exact .of_eq rfl rfl rfl rfl rfl rfl rfl rfl

end

/-- **Time passes**, the wall clock is set, the phone reboots. -/
inductive Env : App → App → Prop
  | tick {s : App} {now : Nat} (h : s.now ≤ now) : Env s { s with now }
  | setClock {s : App} {epoch : Nat} : Env s { s with epoch }
  | elapse {s : App} {clock : ClockSnapshot} (h : s.clock.Before clock) : Env s { s with clock }
  /-- The endpoint is bound. -/
  | bind {s : App} : Env s (s.withCell .endpoint true)

/-- **The process dies** and is started again, at some later time. -/
def Crash (s s' : App) : Prop :=
  ∃ now epoch clock, s' = boot s.store now epoch clock s.usedUuids ∧ s.clock.Before clock

end App

/-! ## Programs -/

/-- `FerusaError`, as far as the app meets it. -/
inductive CoreError where
  | pairing (kind details : String)
  | network (operation details : String)
  | internal (details : String)
  deriving DecidableEq

/-- `AppError`. -/
inductive AppError where
  | core (error : CoreError)
  | keystore (operation details : String)
  | biometric (details : String)
  | approvalKeyAuthRequired (details : String)
  | setupInput (details : String)
  | pairingReplacementAuthorization
  | pendingRequest (kind : String)
  | sessionExpired
  | pin (operation details : String)
  | pinCooldown (retryAfterMs : Nat) (details : String)
  | anyhowCompat (error : Anyhow)
  deriving DecidableEq

/-- A program of the app. -/
abbrev AppProg (α : Type) := Prog AppCmd.Reply AppError α

namespace AppProg

/-- One command. -/
abbrev put (c : AppCmd) : AppProg c.Reply := Prog.perform c

/-- What is asked of the outside. -/
abbrev ask (c : OutsideCmd) : AppProg c.Reply := Prog.perform (AppCmd.ask c)

/-- A program of the store, its outcome caught. -/
def keystore {α : Type} (p : StoreProg α) : AppProg (Except Anyhow α) :=
  (p.hoist AppCmd.store fun _ r => r).attempt

/-- A program of the store under its lock, its outcome caught: the
`_blocking` functions of `storage.rs`. -/
def storage {α : Type} (p : StoreProg α) : AppProg (Except Anyhow α) :=
  keystore (StoreProg.withStorageGuard p)

/-- `Result::map_err`, on an outcome that was caught. -/
def mapErr {ε α : Type} (f : ε → AppError) : Except ε α → AppProg α
  | .ok a => .ret a
  | .error e => .fail (f e)

/-- A failure of the keystore. -/
def keystoreError (operation : String) (e : Anyhow) : AppError :=
  .keystore operation (Anyhow.toString e)

end AppProg

end Phone
