import Ferusa.Lib.Threads
import Ferusa.Phone.App

/-!
# Playing the app

The acts of the app are its commands with their replies and the states
around them. What answers the commands of the app in a listed run: a function that
gives each command its choice, and a default one in which everything
goes well. Statements about runs are played with it at fixed inputs.
-/

namespace Phone

/-- The acts of the app. -/
abbrev AppAct := Act AppCmd.Reply App

/-- What a command is answered with, by the state it is put in. -/
abbrev Answers := (c : AppCmd) → App → c.Choice

/-- An outside that does what it is asked. Over the network it has nothing
to say. -/
def OutsideCmd.willing : (c : OutsideCmd) → c.Reply
  | biometric _ => .ok ()
  | randomPairingCode => 0
  | randomShare => Vector.replicate 32 0
  | acceptBi _ => .failed "closed"
  | readToEnd _ => .failed "closed"
  | timedOut => false
  | send _ _ => .ok ()
  | finish _ => .ok ()
  | close _ _ => ()
  | connect _ => .ok 0
  | openBi _ => .ok 0
  | readMessage _ => .error "closed"
  | awaitEnd _ => .ok ()
  | emit _ => .ok ()

/-- **Everything goes well**: the keystore works, and an id is the next
one. -/
def willing : Answers
  | .store _, _ => .ok [7]
  | .hashPin _, _ => []
  | .clockSnapshot, _ => none
  | .newUuid, s => BitVec.ofNat 128 (s.usedUuids.length + 1)
  | .ask c, _ => c.willing
  | .lockGeneration, _ => ()
  | .unlockGeneration, _ => ()
  | .generation, _ => ()
  | .bumpGeneration, _ => ()
  | .isForeground, _ => ()
  | .storeForeground _, _ => ()
  | .bumpReplacement, _ => ()
  | .replacement, _ => ()
  | .read _, _ => ()
  | .write _ _, _ => ()
  | .take _, _ => ()
  | .slot _, _ => ()
  | .lockGate _, _ => ()
  | .unlockGate _, _ => ()
  | .acquireArgon2, _ => ()
  | .releaseArgon2, _ => ()
  | .verifyPin _ _, _ => ()
  | .now, _ => ()
  | .currentTimeMs, _ => ()
  | .sleepUntil _, _ => ()
  | .spawn _, _ => ()

/-- A move of time, of the clocks, or the binding of the endpoint. -/
inductive EnvMove where
  | tick (duration : Nat)
  | setClock (epoch : Nat)
  | elapse (durationMs : Nat)
  | reboot
  | bind

/-- What it does. -/
def EnvMove.apply : EnvMove → App → App
  | tick duration, s => { s with now := s.now + duration }
  | setClock epoch, s => { s with epoch }
  | elapse durationMs, s =>
    { s with clock := ⟨s.clock.bootCount,
        min (s.clock.elapsedRealtimeMs + durationMs) elapsedRealtimeMax, Nat.min_le_right _ _⟩ }
  | reboot, s => { s with clock := ⟨s.clock.bootCount + 1, 0, Nat.zero_le _⟩ }
  | bind, s => s.withCell .endpoint true

theorem EnvMove.env (x : EnvMove) (s : App) : App.Env s (x.apply s) := by
  cases x with
  | tick duration => exact .tick (Nat.le_add_right _ _)
  | setClock epoch => exact .setClock
  | elapse durationMs =>
    exact .elapse (.inr ⟨rfl, le_min (Nat.le_add_right _ _) s.clock.isLong⟩)
  | reboot => exact .elapse (.inl (Nat.lt_succ_self _))
  | bind => exact .bind

end Phone
