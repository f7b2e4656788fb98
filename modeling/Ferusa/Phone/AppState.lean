import Ferusa.Phone.App

/-!
# The state of the session

The operations of `AppState`. Whatever is started – an unlock, the
authentication of the approval key, the replacement of the pairing –
first reads the session generation, and is let through at its end only
if the generation is still the same and the app in the foreground.
Locking and going to the background add one to the generation, and so
does an unlock that succeeds.

Every operation holds the lock of the generation from its start to its
end, whichever way it ends.
-/

namespace Phone

namespace AppState

open AppProg

/-- **Hold the lock of the session generation** for the time of a
program. -/
def withGeneration {α : Type} (p : AppProg α) : AppProg α := do
  put .lockGeneration
  let r ← p.attempt
  put .unlockGeneration
  Prog.ofExcept r

/-- `clear_session`. The displayed code of an initial enrollment stays
valid. -/
def clearSession : AppProg Unit := do
  let _ ← put .bumpGeneration
  put (.write .secrets none)
  put (.write .pairingReplacementAuthorizedAt none)
  put (.write .unlockedAt none)
  put (.write .approvalKeyAuthenticatedAt none)
  let setup ← put (.read .isSetup)
  if setup.1 then put (.write .setupPairingCode none) else pure ()

/-- `set_foreground`. -/
def setForeground (foreground : Bool) : AppProg Unit :=
  withGeneration do
    put (.storeForeground foreground)
    if foreground then pure () else clearSession

/-- `lock`. -/
def lock : AppProg Unit := withGeneration clearSession

/-- `check_authentication_generation`. -/
def checkAuthenticationGeneration (expected current : Nat) : AppProg Unit :=
  if expected ≠ current then .fail .sessionExpired
  else do
    let foreground ← put .isForeground
    if foreground then pure () else .fail .sessionExpired

/-- `authentication_generation`: the token of what is started now. -/
def authenticationGeneration : AppProg Nat :=
  withGeneration do
    let generation ← put .generation
    checkAuthenticationGeneration generation generation
    pure generation

/-- The current instant is stored in a field. It is read first. -/
def writeNow (c : Cell) (value : Nat → c.Val) : AppProg Unit := do
  let now ← put .now
  put (.write c (value now))

/-- `mark_approval_key_authenticated`. -/
def markApprovalKeyAuthenticated (expected : Nat) : AppProg Unit :=
  withGeneration do
    let generation ← put .generation
    checkAuthenticationGeneration expected generation
    writeNow .approvalKeyAuthenticatedAt some

/-- `complete_unlock`. -/
def completeUnlock (expected : Nat) (secrets : AppSecrets) : AppProg Nat :=
  withGeneration do
    let generation ← put .generation
    checkAuthenticationGeneration expected generation
    put (.write .secrets (some secrets))
    writeNow .unlockedAt some
    put .bumpGeneration

/-- `begin_pairing_replacement`. -/
def beginPairingReplacement : AppProg (Nat × Nat) :=
  withGeneration do
    let generation ← put .generation
    checkAuthenticationGeneration generation generation
    put (.write .pairingReplacementAuthorizedAt none)
    let replacement ← put .bumpReplacement
    pure (generation, replacement)

/-- `complete_pairing_replacement`. -/
def completePairingReplacement (expected : Nat × Nat) : AppProg Unit :=
  withGeneration do
    let generation ← put .generation
    checkAuthenticationGeneration expected.1 generation
    let replacement ← put .replacement
    if replacement ≠ expected.2 then .fail .sessionExpired
    else writeNow .pairingReplacementAuthorizedAt some

/-- `cancel_pairing_replacement`. -/
def cancelPairingReplacement : AppProg Unit :=
  withGeneration do
    let _ ← put .bumpReplacement
    put (.write .pairingReplacementAuthorizedAt none)
    put (.write .setupPairingCode none)

end AppState

end Phone
