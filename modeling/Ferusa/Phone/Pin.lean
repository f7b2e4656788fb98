import Ferusa.Phone.AppState

/-!
# The PINs

What a PIN may be, how its failed attempts are counted, and how one is
verified. Three failures start a cooldown that is longer each time. It
is measured on the clock that counts from the last reboot and cannot be
set, and starts again when the phone was rebooted.

The check for a cooldown, the verification and the recording of its
result are done behind a gate, one submission of a kind at a time.
-/

namespace Phone

def pinFailuresBeforeCooldown : Nat := 3
def pinCooldownBaseMs : Nat := 30 * 1000
def pinCooldownMaxMs : Nat := 30 * 60 * 1000

/-- `pin_kind_for_action`. -/
def pinKindForAction : VaultAction → PinKind
  | .unlock => .fourDigit
  | .list => .fourDigit
  | .read => .fourDigit
  | _ => .sixDigit

/-- `expected_pin_len`. -/
def expectedPinLen : PinKind → Nat
  | .fourDigit => 4
  | .sixDigit => 6

/-- The neighbours in a list. -/
def neighbours {α : Type} (l : List α) : List (α × α) := l.zip l.tail

/-- `is_trivial_pin`, of a PIN whose characters are digits. -/
def isTrivialPin (pin : String) : Bool :=
  let pairs := neighbours (pin.toList.map Char.toNat)
  pairs.all (fun x => x.1 = x.2) || pairs.all (fun x => x.2 = x.1 + 1) ||
    pairs.all (fun x => x.2 + 1 = x.1) ||
    ["1212", "1122", "2580", "121212", "112233", "258025"].contains pin

/-- `validate_pin`. -/
def validatePin (pin : String) (expectedLen : Nat) : Except Anyhow Unit :=
  if byteLength pin ≠ expectedLen then .error [s!"PIN must be exactly {expectedLen} digits"]
  else if ¬ pin.toList.all Char.isDigit then .error ["PIN must contain only digits 0-9"]
  else if isTrivialPin pin then
    .error ["choose a PIN that is not common, repeated, or sequential"]
  else .ok ()

/-! ## The cooldown -/

/-- `cooldown_duration_ms`. The multiplier is a `u32` shifted to the left,
or its maximum where it cannot be shifted so far. -/
def cooldownDurationMs (level : Nat) : Nat :=
  if level = 0 then 0
  else
    let multiplier := if level - 1 < 32 then 2 ^ (level - 1) else 2 ^ 32 - 1
    min (pinCooldownBaseMs * multiplier) pinCooldownMaxMs

/-- The duration of the cooldown that is recorded. An older version
recorded the end of it instead. -/
def recordedDurationMs (state : PinAttemptState) : Option Nat :=
  state.cooldownDurationMs.or
    (state.cooldownUntilMs.map fun _ => cooldownDurationMs state.cooldownLevel)

/-- **`active_cooldown_remaining_ms`**: what is left of a cooldown, and the
state it leaves. A cooldown that was not started since the last reboot
is started now. -/
def activeCooldownRemainingMs (state : PinAttemptState) (clock : ClockSnapshot) :
    PinAttemptState × Option Nat :=
  match recordedDurationMs state with
  | none => (state, none)
  | some durationMs =>
    match state.cooldownStartedElapsedMs with
    | some started =>
      if state.cooldownBootCount ≠ some clock.bootCount then restart durationMs
      else
        let remaining := saturatingAdd started durationMs - clock.elapsedRealtimeMs
        if remaining = 0 then
          ({ state with cooldownStartedElapsedMs := none, cooldownBootCount := none,
                        cooldownDurationMs := none, cooldownUntilMs := none }, none)
        else (state, some remaining)
    | none => restart durationMs
where
  restart (durationMs : Nat) : PinAttemptState × Option Nat :=
    ({ state with cooldownBootCount := some clock.bootCount,
                  cooldownStartedElapsedMs := some clock.elapsedRealtimeMs,
                  cooldownDurationMs := some durationMs, cooldownUntilMs := none },
      some durationMs)

/-- `u8::saturating_add(1)`. -/
def saturatingSuccU8 (n : Nat) : Nat := min (n + 1) 255

/-- **`record_pin_failure_state`**: the third failure starts a cooldown. -/
def recordPinFailureState (state : PinAttemptState) (clock : ClockSnapshot) :
    PinAttemptState × Option Nat :=
  let failedAttempts := saturatingSuccU8 state.failedAttempts
  if failedAttempts < pinFailuresBeforeCooldown then ({ state with failedAttempts }, none)
  else
    let cooldownLevel := max (saturatingSuccU8 state.cooldownLevel) 1
    let durationMs := cooldownDurationMs cooldownLevel
    ({ failedAttempts := 0, cooldownLevel, cooldownUntilMs := none
       cooldownStartedElapsedMs := some clock.elapsedRealtimeMs
       cooldownBootCount := some clock.bootCount
       cooldownDurationMs := some durationMs }, some durationMs)

/-- `PinAttemptStateWrite`, with the state to save. -/
inductive PinAttemptStateWrite where
  | save (state : PinAttemptState)
  | clear

/-- `load_pin_attempt_state_entry`. -/
def loadPinAttemptStateEntry (kind : PinKind) : StoreProg PinAttemptState := do
  let stored ← getEntry (.pinAttempts kind)
  match stored with
  | none => pure {}
  | some state => pure state

/-- `save_pin_attempt_state_entry`. -/
def savePinAttemptStateEntry (kind : PinKind) (state : PinAttemptState) : StoreProg Unit :=
  StoreProg.context s!"save {kind.attemptKey}" (saveEntry (.pinAttempts kind) state)

/-- `clear_pin_attempt_state_entry`. -/
def clearPinAttemptStateEntry (kind : PinKind) : StoreProg Unit :=
  StoreProg.context s!"delete {kind.attemptKey}" (deleteEntry (.pinAttempts kind))

/-- `update_pin_attempt_state_with`, under the lock of the store. -/
def updatePinAttemptState {α : Type} (kind : PinKind)
    (update : PinAttemptState → PinAttemptStateWrite × α) : StoreProg α := do
  let state ← loadPinAttemptStateEntry kind
  let (write, result) := update state
  match write with
  | .save state => savePinAttemptStateEntry kind state
  | .clear => clearPinAttemptStateEntry kind
  pure result

/-! ## Verification -/

open AppProg

/-- `PinVerificationOutcome`. -/
inductive PinVerificationOutcome where
  | verified
  | incorrect
  | cooldownStarted (retryAfterMs : Nat)
  | cooldownActive (retryAfterMs : Nat)
  deriving DecidableEq

/-- `run_argon2_job`: one job at a time. -/
def runArgon2Job {α : Type} (job : AppProg α) : AppProg α := do
  put .acquireArgon2
  let r ← job
  put .releaseArgon2
  pure r

/-- `hash_pin_bounded`. -/
def hashPinBounded (pin : String) : AppProg (Except Anyhow String) :=
  runArgon2Job (put (.hashPin pin))

/-- `clock_snapshot`, and the error it is reported with. -/
def readMonotonicClock : AppProg ClockSnapshot := do
  let clock ← put .clockSnapshot
  mapErr (fun e => .keystore "get" s!"read monotonic clock: {e}") clock

/-- Hold the gate of a PIN for the time of a program. -/
def withPinAttemptGate {α : Type} (kind : PinKind) (p : AppProg α) : AppProg α := do
  put (.lockGate kind)
  let r ← p.attempt
  put (.unlockGate kind)
  Prog.ofExcept r

/-- Whether a cooldown is active, which is recorded. -/
def checkCooldown (kind : PinKind) : AppProg (Option Nat) := do
  let clock ← readMonotonicClock
  let r ← storage (updatePinAttemptState kind fun state =>
    let (state, retryAfterMs) := activeCooldownRemainingMs state clock
    (.save state, retryAfterMs))
  mapErr (keystoreError "set") r

/-- A failure is recorded. -/
def recordFailure (kind : PinKind) : AppProg (Option Nat) := do
  let clock ← readMonotonicClock
  let r ← storage (updatePinAttemptState kind fun state =>
    let (state, retryAfterMs) := recordPinFailureState state clock
    (.save state, retryAfterMs))
  mapErr (keystoreError "set") r

/-- What follows the check for a cooldown. -/
def verifyAndRecord (kind : PinKind) (pin pinHash : String) :
    AppProg PinVerificationOutcome := do
  let r ← runArgon2Job (put (.verifyPin pin pinHash))
  let pinOk ← mapErr (fun e => .pin "verify" (Anyhow.toString e)) r
  if pinOk then
    let r ← storage (updatePinAttemptState kind fun _ => (.clear, ()))
    mapErr (keystoreError "delete") r
    pure .verified
  else
    match ← recordFailure kind with
    | some retryAfterMs => pure (.cooldownStarted retryAfterMs)
    | none => pure .incorrect

/-- **`verify_pin_with_cooldown`.** -/
def verifyPinWithCooldown (kind : PinKind) (pin pinHash : String) :
    AppProg PinVerificationOutcome :=
  withPinAttemptGate kind do
    match ← checkCooldown kind with
    | some retryAfterMs => pure (.cooldownActive retryAfterMs)
    | none => verifyAndRecord kind pin pinHash

end Phone
