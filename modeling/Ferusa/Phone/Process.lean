import Ferusa.Phone.Commands
import Ferusa.Phone.Play

/-!
# The app as a system of threads

Every command of the user, every connection that is served and every
task that was spawned is a thread. They take turns at any command they
put. In between time passes, and the process may die and be started
again (`appThreads`).

What a part of a program has to do with is told by the commands it may
put (`AppCmd.part`).
-/

namespace Phone

/-- **What a thread runs.** -/
inductive AppOp where
  | setupPairingCode
  | setupComplete (payload : SetupPayload)
  | checkSetup
  | authorizePairingReplacement (pin4 pin6 : String)
  | cancelPairingReplacement
  | biometricUnlock
  | lock
  | setAppForeground (foreground : Bool)
  | pendingRequest
  | approveRequest (requestId pin : String)
  | denyRequest (requestId : String)
  | serve (conn : Connection) (streams : Nat)
  | task (t : Task)

/-- A program whose value is dropped. -/
def AppProg.dropValue {α : Type} (p : AppProg α) : AppProg Unit := do
  let _ ← p
  pure ()

/-- The program of a thread. -/
def AppOp.program [Crypto] : AppOp → AppProg Unit
  | setupPairingCode => Phone.setupPairingCode.dropValue
  | setupComplete payload => Phone.setupComplete payload
  | checkSetup => Phone.checkSetup.dropValue
  | authorizePairingReplacement pin4 pin6 => Phone.authorizePairingReplacement pin4 pin6
  | cancelPairingReplacement => AppState.cancelPairingReplacement
  | biometricUnlock => Phone.biometricUnlock
  | lock => Phone.lock
  | setAppForeground foreground => Phone.setAppForeground foreground
  | pendingRequest => Phone.pendingRequest.dropValue
  | approveRequest requestId pin => Phone.approveRequest requestId pin
  | denyRequest requestId => Phone.denyRequest requestId
  | serve conn streams => serveConnection conn streams
  | task t => t.program

/-- What starting a thread does to the state: a task is started once for
each time it was spawned. -/
def AppOp.Starts : AppOp → App → App → Prop
  | task t, s, s' => t ∈ s.spawned ∧ s' = { s with spawned := s.spawned.erase t }
  | _, s, s' => s' = s

/-- **A start changes nothing** but what is spawned. -/
theorem AppOp.Starts.spawned {op : AppOp} {s s' : App} (h : op.Starts s s') :
    ∃ spawned, s' = { s with spawned } := by
  cases op with
  | task task => exact ⟨_, h.2⟩
  | _ => exact ⟨s.spawned, h⟩

/-- **What is asked of the surroundings**: of what passes by itself, and of
the deaths of the process. -/
structure Setting where
  env : App → App → Prop
  crash : App → App → Prop

/-- Nothing is asked. -/
def Setting.any : Setting := ⟨fun _ _ => True, fun _ _ => True⟩

section

variable [Crypto]

/-- **The threads of the app**, in a setting. -/
def appThreads (Z : Setting) : Threads AppCmd.Reply AppOp App AppError Unit where
  program := AppOp.program
  exec := App.Exec
  start w op s' := op.Starts w.state s'
  env s s' := App.Env s s' ∧ Z.env s s'
  crash s s' := App.Crash s s' ∧ Z.crash s s'

end

/-- Its logs. -/
abbrev AppLog := Log AppCmd.Reply AppOp App AppError Unit

/-! ## What a command has to do with -/

/-- The parts of the state and of the outside. -/
inductive Part where
  | store
  | sign
  | guard
  | session
  | foreground
  | unlock
  | authorization
  | cell
  | replacement
  | slot
  | admission
  | putBack
  | gate
  | hash
  | clock
  | uuid
  | spawn
  | ask
  | approve
  deriving DecidableEq

/-- **The part a command has to do with.** What stores or takes the time
of the unlock is of the session. What stores secrets or an authorization to
replace the pairing, what puts a request into the slot, as new or once more,
and what sends an approval stand alone. -/
def AppCmd.part : AppCmd → Part
  | store (.sign _ _) => .sign
  | store _ => .store
  | lockGeneration => .guard
  | unlockGeneration => .guard
  | generation => .guard
  | isForeground => .guard
  | bumpGeneration => .session
  | storeForeground _ => .foreground
  | write .unlockedAt _ => .session
  | write .secrets (some _) => .unlock
  | take .unlockedAt => .session
  | write .pairingReplacementAuthorizedAt (some _) => .authorization
  | take .pairingReplacementAuthorizedAt => .authorization
  | write _ _ => .cell
  | take _ => .cell
  | read _ => .cell
  | bumpReplacement => .replacement
  | replacement => .replacement
  | slot (.enter _) => .admission
  | slot (.put _) => .putBack
  | slot (.restore _) => .putBack
  | slot _ => .slot
  | lockGate _ => .gate
  | unlockGate _ => .gate
  | verifyPin _ _ => .gate
  | clockSnapshot => .gate
  | acquireArgon2 => .hash
  | releaseArgon2 => .hash
  | hashPin _ => .hash
  | now => .clock
  | currentTimeMs => .clock
  | sleepUntil _ => .clock
  | newUuid => .uuid
  | spawn _ => .spawn
  | ask (.send _ (.response resp)) => bif resp.approved then .approve else .ask
  | ask _ => .ask

/-- A command that has to do with one of these parts. -/
def Within (parts : List Part) (c : AppCmd) : Prop := c.part ∈ parts

theorem Within.mono {parts parts' : List Part} (h : parts ⊆ parts') (c : AppCmd)
    (hc : Within parts c) : Within parts' c :=
  h hc

/-! ## Runs that are played -/

/-- What starting a thread makes of the state, if it may start. -/
def AppOp.begin : AppOp → App → Option App
  | task t, s => if t ∈ s.spawned then some { s with spawned := s.spawned.erase t } else none
  | _, s => some s

theorem AppOp.starts_of_begin {op : AppOp} {s s' : App} (h : op.begin s = some s') :
    op.Starts s s' := by
  cases op with
  | task t =>
    have h : (if t ∈ s.spawned then some { s with spawned := s.spawned.erase t } else none) =
        some s' := h
    split at h
    · next ht => exact ⟨ht, (Option.some.inj h).symm⟩
    · cases h
  | _ => exact (Option.some.inj h).symm

section
variable [Crypto] {Z : Setting}

/-- What is played follows the commands, -/
theorem App.exec_of_answer : ∀ {t : Nat} {c : AppCmd} {o : Answers} {s : App} {r : c.Reply}
    {s' : App}, App.exec t c (o c s) s = some (r, s') → (appThreads Z).exec t c s r s' :=
  fun h => ⟨_, h⟩

/-- and the ways an operation starts. -/
theorem AppOp.start_of_begin : ∀ {_ : Nat} {w : AppLog} {op : AppOp} {s' : App},
    op.begin w.state = some s' → (appThreads Z).start w op s' :=
  AppOp.starts_of_begin

theorem EnvMove.env_of_apply : ∀ {x : EnvMove} {s s' : App}, some (x.apply s) = some s' →
    (appThreads .any).env s s' := by
  rintro x s _ h
  obtain rfl := Option.some.inj h
  exact ⟨x.env s, trivial⟩

end

/-- How the app is played, where nothing is asked of its surroundings. -/
def appPlayer [Crypto] : Player (appThreads .any) Answers EnvMove where
  answer t c o s := App.exec t c (o c s) s
  exec := @App.exec_of_answer _ .any
  begin _ w op := op.begin w.state
  start := @AppOp.start_of_begin _ .any
  outside x s := some (x.apply s)
  env := @EnvMove.env_of_apply _

end Phone
