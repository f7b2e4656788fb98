import Ferusa.Phone.Process

/-!
# The parts of the programs

For each program of the app, what it has to do with: the parts of the
commands it may put, whatever the replies. What a program does not
touch it leaves alone, and a statement about one part passes over the
programs of the others.
-/

namespace Phone

open Prog AppProg

/-- Every command of the program has to do with one of these parts. -/
abbrev Stays {α ε : Type} (parts : List Part) (p : Prog AppCmd.Reply ε α) : Prop :=
  p.Only (Within parts)

section

variable {α β ε δ : Type} {parts parts' : List Part}

theorem Stays.mono {p : Prog AppCmd.Reply ε α} (hp : Stays parts p)
    (h : parts.all parts'.contains = true) : Stays parts' p := by
  refine Only.mono hp (Within.mono fun part hpart => ?_)
  exact List.contains_iff_mem.mp (List.all_eq_true.mp h part hpart)

/-- What has to do with no part of a list. -/
theorem part_notMem {c : AppCmd} (h : parts.contains c.part = false) : c.part ∉ parts :=
  fun hmem => Bool.false_ne_true (h.symm.trans (List.contains_iff_mem.mpr hmem))

/-- **A program of some parts keeps outside the others.** -/
theorem Stays.outside {p : Prog AppCmd.Reply ε α} (hp : Stays parts p)
    (h : parts.all (fun x => x ∉ parts') = true) : p.Only fun c => c.part ∉ parts' := by
  refine Only.mono hp fun c hc => ?_
  have hpart := List.all_eq_true.mp h _ hc
  exact of_decide_eq_true (p := c.part ∉ parts') hpart

theorem stays_put {c : AppCmd} (h : parts.contains c.part = true) :
    Stays parts (Prog.perform c : Prog AppCmd.Reply ε _) :=
  Only.perform (List.contains_iff_mem.mp h)

/-- Whatever is asked of the outside. -/
theorem stays_ask (c : OutsideCmd) :
    Stays [.ask, .approve] (Prog.perform (.ask c) : Prog AppCmd.Reply ε _) := by
  refine Only.perform ?_
  show (AppCmd.ask c).part ∈ _
  cases c with
  | send stream message =>
    cases message with
    | response resp =>
      show (bif resp.approved then Part.approve else .ask) ∈ _
      cases resp.approved <;> exact List.contains_iff_mem.mp rfl
    | _ => exact List.contains_iff_mem.mp rfl
  | _ => exact List.contains_iff_mem.mp rfl

theorem stays_mapErr {f : ε → AppError} {x : Except ε α} : Stays [] (mapErr f x) := by
  cases x <;> trivial

theorem stays_keystore {p : StoreProg α} : Stays [.store, .sign] (keystore p) := by
  refine Only.attempt (Only.hoist (Only.of_forall fun c => ?_))
  cases c <;> exact List.contains_iff_mem.mp rfl

theorem stays_storage {p : StoreProg α} : Stays [.store, .sign] (storage p) := stays_keystore

theorem stays_signApproval (keyAlias : ApprovalAlias) (payload : String) :
    Stays [.sign] (keystore (signApproval keyAlias payload)) := by
  refine Only.attempt (Only.hoist (Only.bind (Only.perform (List.mem_singleton_self Part.sign))
    fun r => ?_))
  cases r <;> trivial

end

/-! ## The operations of the session -/

namespace AppState

variable {α : Type} {parts : List Part}

theorem withGeneration_stays {p : AppProg α} (hp : Stays parts p) :
    Stays (.guard :: parts) (withGeneration p) := by
  have hg : ∀ c, c = AppCmd.lockGeneration ∨ c = .unlockGeneration →
      Within (.guard :: parts) c := by
    rintro c (rfl | rfl) <;> exact List.mem_cons_self
  refine Only.bind (Only.perform (hg _ (.inl rfl))) fun _ => ?_
  refine Only.bind (Only.attempt
    (Only.mono hp (Within.mono (List.subset_cons_self _ _)))) fun r => ?_
  exact Only.bind (Only.perform (hg _ (.inr rfl))) fun _ => Only.ofExcept

theorem clearSession_stays : Stays [.session, .cell] clearSession := by
  refine Only.bind (stays_put rfl) fun _ => Only.bind (stays_put rfl) fun _ =>
    Only.bind (stays_put rfl) fun _ =>
    Only.bind (stays_put rfl) fun _ => Only.bind (stays_put rfl) fun _ =>
      Only.bind (stays_put rfl) fun setup => ?_
  exact Only.ite (stays_put rfl) Only.pure

theorem withGeneration_mem {p : AppProg α} (hg : parts.contains Part.guard = true)
    (hp : Stays parts p) : Stays parts (withGeneration p) :=
  Only.mono (withGeneration_stays hp)
    (Within.mono (List.cons_subset.mpr ⟨List.contains_iff_mem.mp hg, List.Subset.refl _⟩))

theorem setForeground_stays (foreground : Bool) :
    Stays [.guard, .session, .foreground, .cell] (setForeground foreground) := by
  refine withGeneration_mem rfl (Only.bind (stays_put rfl) fun _ => ?_)
  exact Only.ite Only.pure ((clearSession_stays.mono rfl))

theorem lock_stays : Stays [.guard, .session, .cell] lock :=
  withGeneration_mem rfl (clearSession_stays.mono rfl)

theorem checkAuthenticationGeneration_stays (expected current : Nat) :
    Stays [.guard] (checkAuthenticationGeneration expected current) :=
  Only.ite Only.fail (Only.bind (stays_put rfl) fun _ => Only.ite Only.pure Only.fail)

theorem authenticationGeneration_stays : Stays [.guard] authenticationGeneration :=
  withGeneration_mem rfl (Only.bind (stays_put rfl) fun _ =>
    Only.bind (checkAuthenticationGeneration_stays _ _) fun _ => Only.pure)

theorem markApprovalKeyAuthenticated_stays (expected : Nat) :
    Stays [.guard, .clock, .cell] (markApprovalKeyAuthenticated expected) :=
  withGeneration_mem rfl (Only.bind (stays_put rfl) fun _ =>
    Only.bind ((checkAuthenticationGeneration_stays _ _).mono rfl) fun _ =>
      Only.bind (stays_put rfl) fun _ => stays_put rfl)

theorem completeUnlock_stays (expected : Nat) (secrets : AppSecrets) :
    Stays [.guard, .session, .unlock, .clock, .cell] (completeUnlock expected secrets) :=
  withGeneration_mem rfl (Only.bind (stays_put rfl) fun _ =>
    Only.bind ((checkAuthenticationGeneration_stays _ _).mono rfl) fun _ =>
      Only.bind (stays_put rfl) fun _ =>
      Only.bind (Only.bind (stays_put rfl) fun _ => stays_put rfl) fun _ => stays_put rfl)

theorem beginPairingReplacement_stays :
    Stays [.guard, .cell, .replacement] beginPairingReplacement :=
  withGeneration_mem rfl (Only.bind (stays_put rfl) fun _ =>
    Only.bind ((checkAuthenticationGeneration_stays _ _).mono rfl) fun _ =>
      Only.bind (stays_put rfl) fun _ =>
      Only.bind (stays_put rfl) fun _ => Only.pure)

theorem cancelPairingReplacement_stays :
    Stays [.guard, .cell, .replacement] cancelPairingReplacement :=
  withGeneration_mem rfl (Only.bind (stays_put rfl) fun _ => Only.bind (stays_put rfl) fun _ =>
    (stays_put rfl))

theorem completePairingReplacement_stays (expected : Nat × Nat) :
    Stays [.guard, .replacement, .clock, .authorization]
      (completePairingReplacement expected) :=
  withGeneration_mem rfl (Only.bind (stays_put rfl) fun _ =>
    Only.bind ((checkAuthenticationGeneration_stays _ _).mono rfl) fun _ =>
      Only.bind (stays_put rfl) fun _ =>
      Only.ite Only.fail (Only.bind (stays_put rfl) fun _ => stays_put rfl))

end AppState

/-! ## The helpers -/

theorem approvalKeyAuthenticated_stays : Stays [.cell] approvalKeyAuthenticated :=
  Only.bind (stays_put rfl) fun _ => Only.pure

theorem currentAuthenticatedApprovalAlias_stays :
    Stays [.cell] currentAuthenticatedApprovalAlias :=
  Only.bind approvalKeyAuthenticated_stays fun _ =>
    Only.ite (Only.bind (stays_put rfl) fun _ => Only.pure) Only.pure

theorem requireBiometric_stays (reason : String) : Stays [.ask] (requireBiometric reason) :=
  Only.bind (stays_put rfl) fun _ => (stays_mapErr.mono rfl)

theorem refreshApprovalKeyAuth_stays (reason : String) (generation : Nat) :
    Stays [.guard, .clock, .cell, .ask] (refreshApprovalKeyAuth reason generation) :=
  Only.bind ((requireBiometric_stays reason).mono rfl) fun _ =>
    ((AppState.markApprovalKeyAuthenticated_stays generation).mono rfl)

theorem ensureApprovalKeyAuth_stays (reason : String) :
    Stays [.guard, .clock, .cell, .ask] (ensureApprovalKeyAuth reason) :=
  Only.bind (approvalKeyAuthenticated_stays.mono rfl) fun _ => Only.ite Only.pure
    (Only.bind (AppState.authenticationGeneration_stays.mono rfl) fun generation =>
      refreshApprovalKeyAuth_stays reason generation)

theorem handleSignedResponseError_stays (error : AppError) :
    Stays [.cell] (handleSignedResponseError error) :=
  Only.bind (Only.ite (stays_put rfl) Only.pure) fun _ => Only.pure

theorem sendResponse_stays (stream : Stream) (resp : AuthResponse) :
    Stays [.ask, .approve] (sendResponse stream resp) := by
  exact Only.bind (stays_ask _) fun _ => Only.bind (stays_mapErr.mono rfl) fun _ =>
    Only.bind (stays_put rfl) fun _ => (stays_mapErr.mono rfl)

/-- A denial is no approval. -/
theorem sendDenial_stays (stream : Stream) {resp : AuthResponse} (h : resp.approved = false) :
    Stays [.ask] (sendResponse stream resp) := by
  refine Only.bind (Only.perform ?_) fun _ => Only.bind (stays_mapErr.mono rfl) fun _ =>
    Only.bind (stays_put rfl) fun _ => (stays_mapErr.mono rfl)
  show (bif resp.approved then Part.approve else .ask) ∈ _
  rw [h]
  exact List.mem_singleton_self _

/-- Going on with what has not failed. -/
theorem only_mapErr_bind {P : AppCmd → Prop} {ε α β : Type} {g : ε → AppError} {x : Except ε α}
    {f : α → AppProg β} (h : ∀ a, x = .ok a → (f a).Only P) : (mapErr g x >>= f).Only P := by
  cases x with
  | ok a => exact h a rfl
  | error e => exact Only.fail

theorem sendSignedResponse_stays (stream : Stream) (keyAlias : ApprovalAlias)
    (req : AuthRequest) (approved : Bool) (unlockShare : Option Bytes32) :
    Stays [.clock, .sign, .ask, .approve]
      (sendSignedResponse stream keyAlias req approved unlockShare) :=
  Only.bind (stays_put rfl) fun _ => Only.bind (stays_mapErr.mono rfl) fun _ =>
    Only.bind ((stays_signApproval _ _).mono rfl) fun _ =>
      Only.bind (stays_mapErr.mono rfl) fun _ =>
      ((sendResponse_stays _ _).mono rfl)

/-- **A signed denial** is no approval. -/
theorem sendSignedDenial_stays (stream : Stream) (keyAlias : ApprovalAlias)
    (req : AuthRequest) (unlockShare : Option Bytes32) :
    Stays [.clock, .sign, .ask] (sendSignedResponse stream keyAlias req false unlockShare) := by
  refine Only.bind (stays_put rfl) fun timestamp => only_mapErr_bind fun resp hb => ?_
  obtain ⟨share, -, hresp⟩ := buildResponseForSigning_eq_ok hb
  refine Only.bind ((stays_signApproval _ _).mono rfl) fun _ =>
    Only.bind (stays_mapErr.mono rfl) fun signature => (sendDenial_stays stream ?_).mono rfl
  rw [hresp]

theorem denyPendingRequest_stays (pending : PendingRequest)
    (approvalAlias : Option ApprovalAlias) :
    Stays [.clock, .sign, .ask] (denyPendingRequest pending approvalAlias) := by
  unfold denyPendingRequest
  cases approvalAlias with
  | none => exact stays_put rfl
  | some keyAlias =>
    refine Only.bind (Only.attempt (sendSignedDenial_stays _ _ _ _)) fun r => ?_
    cases r with
    | ok u => exact Only.pure
    | error e => exact stays_put rfl

theorem denyTaken_stays (approvalAlias : Option ApprovalAlias) (taken : Option PendingRequest) :
    Stays [.clock, .sign, .ask] (denyTaken approvalAlias taken) := by
  cases taken with
  | none => exact Only.pure
  | some pending => exact denyPendingRequest_stays pending approvalAlias

theorem takeAndDenyPending_stays (approvalAlias : Option ApprovalAlias) :
    Stays [.slot, .clock, .sign, .ask] (takeAndDenyPending approvalAlias) :=
  Only.bind (stays_put rfl) fun taken => ((denyTaken_stays approvalAlias taken).mono rfl)

theorem takeAndDenyExpiredPending_stays (approvalAlias : Option ApprovalAlias)
    (expected : PendingIdentity) :
    Stays [.slot, .clock, .sign, .ask] (takeAndDenyExpiredPending approvalAlias expected) :=
  Only.bind (stays_put rfl) fun taken => ((denyTaken_stays approvalAlias taken).mono rfl)

/-- What ends a session has to do with. -/
def endsSession : List Part := [.guard, .session, .cell, .slot, .clock, .sign, .ask]

theorem expireSession_stays : Stays endsSession expireSession :=
  Only.bind (currentAuthenticatedApprovalAlias_stays.mono rfl) fun approvalAlias =>
    Only.bind ((takeAndDenyPending_stays approvalAlias).mono rfl) fun _ =>
      Only.bind (AppState.lock_stays.mono rfl) fun _ =>
        Only.bind (stays_put rfl) fun _ => Only.pure

theorem sessionIsActive_stays : Stays [.cell] sessionIsActive :=
  Only.bind (stays_put rfl) fun _ => Only.ite (Only.bind (stays_put rfl) fun _ =>
    Only.pure) Only.pure

theorem ensureActiveSession_stays : Stays endsSession ensureActiveSession :=
  Only.bind (stays_put rfl) fun _ => Only.bind
    (Only.ite (sessionIsActive_stays.mono rfl) Only.pure)
    fun _ => Only.ite Only.pure (Only.bind expireSession_stays fun _ => Only.fail)

theorem takeVerifiedPending_stays (expected : PendingIdentity) :
    Stays [.guard, .cell, .slot] (takeVerifiedPending expected) :=
  AppState.withGeneration_mem rfl (Only.bind (stays_put rfl) fun _ => Only.ite Only.fail
    (Only.bind (stays_put rfl) fun _ => Only.ite Only.fail (Only.bind (stays_put rfl) fun _ =>
      Only.ite Only.fail (Only.bind (stays_put rfl) fun _ => (stays_mapErr.mono rfl)))))

theorem restorePendingAfterSignError_stays (pending : PendingRequest) :
    Stays [.guard, .clock, .putBack] (restorePendingAfterSignError pending) :=
  AppState.withGeneration_mem rfl (Only.bind (stays_put rfl) fun _ => Only.ite Only.pure
    (Only.bind (stays_put rfl) fun _ => Only.ite Only.pure (Only.bind (stays_put rfl) fun _ =>
      Only.ite Only.pure (Only.bind (stays_put rfl) fun _ => Only.pure))))

theorem sleep_stays (duration : Nat) : Stays [.clock] (sleep duration) :=
  Only.bind (stays_put rfl) fun _ => stays_put rfl

theorem Task.program_stays (t : Task) : Stays endsSession t.program := by
  cases t with
  | pendingExpiry identity =>
    exact Only.bind ((sleep_stays _).mono rfl) fun _ =>
      Only.bind (currentAuthenticatedApprovalAlias_stays.mono rfl) fun approvalAlias =>
        ((takeAndDenyExpiredPending_stays approvalAlias identity).mono rfl)
  | sessionExpiry generation =>
    exact Only.bind ((sleep_stays _).mono rfl) fun _ =>
      Only.bind (AppState.withGeneration_mem rfl (stays_put rfl)) fun _ =>
        Only.bind (stays_put rfl) fun _ => Only.ite expireSession_stays Only.pure

/-! ## PINs -/

variable {α : Type}

theorem runArgon2Job_stays (parts : List Part) {job : AppProg α} (hjob : Stays parts job) :
    Stays (.hash :: parts) (runArgon2Job job) := by
  have hh : ∀ c, c = AppCmd.acquireArgon2 ∨ c = .releaseArgon2 → Within (.hash :: parts) c := by
    rintro c (rfl | rfl) <;> exact List.mem_cons_self
  refine Only.bind (Only.perform (hh _ (.inl rfl))) fun _ => ?_
  refine Only.bind (Only.mono hjob (Within.mono (List.subset_cons_self _ _))) fun r => ?_
  exact Only.bind (Only.perform (hh _ (.inr rfl))) fun _ => Only.pure

theorem hashSetupPin_stays (pin : String) : Stays [.hash] (hashSetupPin pin) :=
  Only.bind ((runArgon2Job_stays [.hash] (stays_put rfl)).mono rfl) fun _ =>
    (stays_mapErr.mono rfl)

/-- What the verification of a PIN has to do with. -/
def verifies : List Part := [.gate, .hash, .store, .sign]

theorem readMonotonicClock_stays : Stays [.gate] readMonotonicClock :=
  Only.bind (stays_put rfl) fun _ => (stays_mapErr.mono rfl)

theorem checkCooldown_stays (kind : PinKind) : Stays verifies (checkCooldown kind) :=
  Only.bind (readMonotonicClock_stays.mono rfl) fun _ =>
    Only.bind (stays_storage.mono rfl) fun _ =>
    (stays_mapErr.mono rfl)

theorem recordFailure_stays (kind : PinKind) : Stays verifies (recordFailure kind) :=
  Only.bind (readMonotonicClock_stays.mono rfl) fun _ =>
    Only.bind (stays_storage.mono rfl) fun _ =>
    (stays_mapErr.mono rfl)

theorem verifyAndRecord_stays (kind : PinKind) (pin pinHash : String) :
    Stays verifies (verifyAndRecord kind pin pinHash) := by
  refine Only.bind ((runArgon2Job_stays [.gate] (stays_put rfl)).mono rfl) fun r => ?_
  refine Only.bind (stays_mapErr.mono rfl) fun pinOk => Only.ite ?_ ?_
  · exact Only.bind (stays_storage.mono rfl) fun _ => Only.bind (stays_mapErr.mono rfl) fun _ =>
    Only.pure
  · refine Only.bind (recordFailure_stays kind) fun retryAfterMs => ?_
    cases retryAfterMs <;> exact Only.pure

theorem verifyPinWithCooldown_stays (kind : PinKind) (pin pinHash : String) :
    Stays verifies (verifyPinWithCooldown kind pin pinHash) := by
  refine Only.bind (stays_put rfl) fun _ => Only.bind (Only.attempt ?_) fun _ =>
    Only.bind (stays_put rfl) fun _ => Only.ofExcept
  refine Only.bind (checkCooldown_stays kind) fun retryAfterMs => ?_
  cases retryAfterMs with
  | none => exact verifyAndRecord_stays kind pin pinHash
  | some retryAfterMs => exact Only.pure

/-! ## The connection handler -/

theorem closeAndStop_stays (conn : Connection) (reason : String) :
    Stays [.ask] (closeAndStop conn reason) :=
  Only.bind (stays_put rfl) fun _ => Only.pure

theorem isAuthorizedAuthPeer_stays (conn : Connection) :
    Stays [.cell] (isAuthorizedAuthPeer conn) :=
  Only.bind (stays_put rfl) fun _ => Only.ite Only.pure (Only.bind (stays_put rfl) fun _ =>
    Only.pure)

theorem hasTime_stays (authenticated : Bool) (deadline : Nat) :
    Stays [.clock] (hasTime authenticated deadline) :=
  Only.ite Only.pure (Only.bind (stays_put rfl) fun _ => Only.pure)

theorem sendFrame_stays (stream : Stream) {message : FerusaMessage}
    (h : (AppCmd.ask (.send stream message)).part = .ask) :
    Stays [.ask] (sendFrame stream message) := by
  refine Only.bind (Only.perform (List.mem_singleton.mpr h)) fun sent => ?_
  cases sent with
  | ok u => exact stays_put rfl
  | error e => exact Only.pure

section

variable (conn : Connection) (deadline : Nat) (authenticated : Bool) (stream : Stream)

theorem servePing_stays :
    Stays [.clock, .cell, .ask] (servePing conn deadline authenticated stream) := by
  refine Only.bind (Only.ite Only.pure ?_) fun pairedPeer =>
    Only.bind ((hasTime_stays _ _).mono rfl) fun _ =>
      Only.ite ((closeAndStop_stays _ _).mono rfl) ?_
  · exact Only.bind ((hasTime_stays _ _).mono rfl) fun _ => Only.ite
      (Only.bind ((isAuthorizedAuthPeer_stays conn).mono rfl) fun _ =>
        Only.bind (stays_put rfl) fun _ => Only.pure) Only.pure
  · refine Only.bind ((sendFrame_stays _ rfl).mono rfl) fun sent => ?_
    cases sent with
    | error e => exact ((closeAndStop_stays _ _).mono rfl)
    | ok u => exact Only.ite Only.pure ((closeAndStop_stays _ _).mono rfl)

theorem announceActivation_stays (pairingId : Uuid) :
    Stays [.guard, .session, .cell, .ask] (announceActivation stream pairingId) :=
  Only.bind (AppState.lock_stays.mono rfl) fun _ => Only.bind (stays_put rfl) fun _ =>
    Only.bind (stays_put rfl) fun _ => Only.bind ((sendFrame_stays _ rfl).mono rfl) fun _ =>
      Only.pure

theorem serveOther_stays (reason : String) :
    Stays [.ask] (serveOther conn authenticated reason) :=
  Only.ite Only.pure (closeAndStop_stays _ _)

theorem admitRequest_stays (req : AuthRequest) :
    Stays [.guard, .uuid, .clock, .admission, .ask] (admitRequest conn stream req) :=
  AppState.withGeneration_mem rfl (Only.bind (stays_put rfl) fun _ => Only.ite
    (Only.bind (stays_put rfl) fun _ => Only.pure) (Only.bind (stays_put rfl) fun _ =>
      Only.bind (stays_put rfl) fun _ => Only.bind (stays_put rfl) fun _ =>
        Only.bind (stays_put rfl) fun _ =>
        Only.pure))

theorem announceRequest_stays (approvalAlias : ApprovalAlias) (identity : PendingIdentity) :
    Stays [.spawn, .slot, .clock, .sign, .ask] (announceRequest approvalAlias identity) := by
  refine Only.bind (stays_put rfl) fun _ => Only.bind (stays_put rfl) fun emitted => ?_
  cases emitted with
  | ok u => exact Only.pure
  | error e => exact Only.bind (stays_put rfl) fun hidden => ((denyTaken_stays _ _).mono rfl)

theorem denyRefused_stays (approvalAlias : ApprovalAlias) (req : AuthRequest)
    (keyAuthenticated : Bool) :
    Stays [.clock, .sign, .ask] (denyRefused stream approvalAlias req keyAuthenticated) :=
  Only.ite (Only.bind (Only.attempt (sendSignedDenial_stays _ _ _ _)) fun _ => Only.pure)
    Only.pure

/-- What the handling of a request has to do with. -/
def handlesRequest : List Part :=
  [.guard, .session, .cell, .slot, .admission, .clock, .sign, .ask, .uuid, .spawn]

theorem serveAuthorizedRequest_stays (req : AuthRequest) :
    Stays handlesRequest (serveAuthorizedRequest conn stream req) := by
  refine Only.bind (stays_put rfl) fun stored => ?_
  cases stored.1 with
  | none => exact ((closeAndStop_stays _ _).mono rfl)
  | some secrets =>
    refine Only.bind (approvalKeyAuthenticated_stays.mono rfl) fun _ =>
      Only.ite ((closeAndStop_stays _ _).mono rfl) ?_
    refine Only.bind ((admitRequest_stays conn stream req).mono rfl) fun admitted => ?_
    match admitted with
    | none => exact Only.pure
    | some (identity, .stored) =>
      exact Only.bind ((announceRequest_stays _ _).mono rfl) fun _ => Only.pure
    | some (_, .busy _) => exact Only.bind ((denyRefused_stays _ _ _ _).mono rfl) fun _ =>
      Only.pure
    | some (_, .reusedId) => exact Only.bind ((denyRefused_stays _ _ _ _).mono rfl) fun _ =>
      Only.pure

theorem serveRequest_stays (req : AuthRequest) :
    Stays handlesRequest (serveRequest conn deadline authenticated stream req) := by
  refine Only.bind (Only.bind ((hasTime_stays _ _).mono rfl) fun _ => Only.ite
    (Only.bind ((isAuthorizedAuthPeer_stays conn).mono rfl) fun _ =>
      Only.bind (stays_put rfl) fun _ => Only.pure) Only.pure) fun _ =>
    Only.ite ((closeAndStop_stays _ _).mono rfl) (Only.bind (stays_put rfl) fun nowMs => ?_)
  cases validateAuthTimestamp req.timestamp nowMs with
  | error e => exact ((closeAndStop_stays _ _).mono rfl)
  | ok u =>
    refine Only.bind (Only.attempt (ensureActiveSession_stays.mono rfl)) fun active => ?_
    cases active with
    | error e => exact ((closeAndStop_stays _ _).mono rfl)
    | ok u => exact serveAuthorizedRequest_stays conn stream req

end

/-! ## The commands -/

theorem lock_stays : Stays endsSession lock :=
  Only.bind (currentAuthenticatedApprovalAlias_stays.mono rfl) fun approvalAlias =>
    Only.bind ((takeAndDenyPending_stays approvalAlias).mono rfl) fun _ =>
      (AppState.lock_stays.mono rfl)

theorem setAppForeground_stays (foreground : Bool) :
    Stays (.foreground :: endsSession) (setAppForeground foreground) :=
  Only.bind ((AppState.setForeground_stays foreground).mono rfl) fun _ =>
    Only.ite Only.pure (expireSession_stays.mono rfl)

theorem setupPairingCode_stays : Stays [.ask, .cell] setupPairingCode :=
  Only.bind (stays_put rfl) fun _ => Only.bind (stays_put rfl) fun _ => Only.pure

theorem consumeSetupPairingCode_stays : Stays [.cell] consumeSetupPairingCode := by
  refine Only.bind (stays_put rfl) fun code => ?_
  cases code.1 with
  | none => exact Only.fail
  | some code => exact Only.pure

theorem acquireEndpoint_stays : Stays [.cell] acquireEndpoint :=
  Only.bind (stays_put rfl) fun _ => Only.ite Only.pure Only.fail

theorem unlockedSecrets_stays : Stays [.cell] unlockedSecrets := by
  refine Only.bind (stays_put rfl) fun secrets => ?_
  cases secrets.1 with
  | none => exact Only.fail
  | some secrets => exact Only.pure

theorem copyUnlockShare_stays (pending : PendingRequest) :
    Stays [.cell, .ask] (copyUnlockShare pending) := by
  refine Only.ite (Only.bind (stays_put rfl) fun secrets => ?_) Only.pure
  cases secrets.1 with
  | none => exact Only.bind (stays_put rfl) fun _ => Only.fail
  | some secrets => exact Only.pure

theorem answerOrRestore_stays (pending : PendingRequest) (approvalAlias : ApprovalAlias)
    (approved : Bool) (unlockShare : Option Bytes32) {parts : List Part}
    (h : Stays parts (sendSignedResponse pending.send approvalAlias pending.request approved
      unlockShare)) :
    Stays ([.guard, .cell, .putBack, .clock] ++ parts)
      (answerOrRestore pending approvalAlias approved unlockShare) := by
  have hmem : ∀ {α : Type} {p : AppProg α}, Stays [.guard, .cell, .putBack, .clock] p →
      Stays ([.guard, .cell, .putBack, .clock] ++ parts) p :=
    fun hp => Only.mono hp (Within.mono (List.subset_append_left _ _))
  refine Only.bind (Only.attempt (Only.mono h (Within.mono (List.subset_append_right _ _))))
    fun r => ?_
  cases r with
  | ok u => exact Only.pure
  | error e =>
    exact Only.bind (hmem ((handleSignedResponseError_stays e).mono rfl)) fun _ =>
      Only.bind (Only.ite (hmem ((restorePendingAfterSignError_stays pending).mono rfl))
        Only.pure) fun _ => Only.fail

theorem denyForCooldown_stays (identity : PendingIdentity) (approvalAlias : ApprovalAlias)
    (error : AppError) :
    Stays (.putBack :: endsSession) (denyForCooldown identity approvalAlias error) :=
  Only.bind ((ensureApprovalKeyAuth_stays _).mono rfl) fun _ =>
    Only.bind ((takeVerifiedPending_stays identity).mono rfl) fun pending =>
      Only.bind ((answerOrRestore_stays pending approvalAlias false none
        (sendSignedDenial_stays _ _ _ _)).mono rfl) fun _ =>
        Only.bind (AppState.lock_stays.mono rfl) fun _ =>
          Only.bind (Only.bind (stays_put rfl) fun _ => Only.pure) fun _ => Only.fail

theorem approveVerified_stays (identity : PendingIdentity) (approvalAlias : ApprovalAlias) :
    Stays (.putBack :: .approve :: endsSession) (approveVerified identity approvalAlias) := by
  refine Only.bind ((ensureApprovalKeyAuth_stays _).mono rfl) fun _ =>
    Only.bind ((takeVerifiedPending_stays identity).mono rfl) fun pending =>
      Only.bind (stays_put rfl) fun _ => Only.ite ?_ ?_
  · exact Only.bind (stays_put rfl) fun _ => Only.bind (AppState.lock_stays.mono rfl) fun _ =>
    Only.fail
  · refine Only.bind ((copyUnlockShare_stays pending).mono rfl) fun unlockShare =>
      Only.bind (stays_put rfl) fun _ => Only.ite ?_ ?_
    · exact Only.bind (stays_put rfl) fun _ => Only.fail
    · exact ((answerOrRestore_stays pending approvalAlias true unlockShare
        (sendSignedResponse_stays _ _ _ _ _)).mono rfl)

theorem denyOwned_stays (pending : PendingRequest) (approvalAlias : ApprovalAlias) :
    Stays [.cell, .putBack, .clock, .sign, .ask] (denyOwned pending approvalAlias) := by
  refine Only.bind (Only.attempt ((sendSignedDenial_stays _ _ _ _).mono rfl)) fun r => ?_
  cases r with
  | ok u => exact Only.pure
  | error e =>
    exact Only.bind ((handleSignedResponseError_stays e).mono rfl) fun _ =>
      Only.bind (Only.ite (stays_put rfl) Only.pure) fun _ => Only.fail

theorem denyRequest_stays (requestId : String) :
    Stays (.putBack :: endsSession) (denyRequest requestId) := by
  refine Only.bind (ensureActiveSession_stays.mono rfl) fun _ =>
    Only.bind (unlockedSecrets_stays.mono rfl)
    fun secrets => Only.bind ((ensureApprovalKeyAuth_stays _).mono rfl) fun _ =>
      Only.bind (stays_put rfl) fun taken => ?_
  cases taken with
  | none => exact Only.fail
  | some pending =>
    refine Only.ite (Only.bind (stays_put rfl) fun _ => Only.fail)
      (Only.bind (stays_put rfl) fun _ =>
      Only.ite ?_ ((denyOwned_stays pending secrets.approvalKeyAlias).mono rfl))
    exact Only.bind (stays_put rfl) fun _ => Only.bind (AppState.lock_stays.mono rfl) fun _ =>
      Only.fail

theorem pendingRequest_stays : Stays [.slot] pendingRequest :=
  Only.bind (stays_put rfl) fun _ => Only.pure

/-! ## Pairing, and the rest -/

/-- What a pairing has to do with, until its secrets are stored. -/
def pairs : List Part :=
  [.store, .sign, .guard, .session, .authorization, .cell, .replacement, .slot, .gate, .hash,
    .clock, .uuid, .spawn, .ask]

/-- All of it but the slot of the requests. -/
def exchanges : List Part := pairs.erase .slot

/-- All there is to do but to store secrets. -/
def storesNoSecrets : List Part := [.admission, .foreground, .putBack, .approve] ++ pairs

section

variable {α : Type}

theorem requireReplacementAuthorization_stays [Crypto] :
    Stays exchanges requireReplacementAuthorization := by
  refine Only.bind (stays_storage.mono rfl) fun r => ?_
  refine Only.bind (stays_mapErr.mono rfl) fun persisted => ?_
  refine Only.bind (stays_put rfl) fun stateSetup => ?_
  refine Only.bind (Only.ite (stays_put rfl) Only.pure) fun _ => ?_
  refine Only.ite (Only.bind ?_ fun _ => Only.ite Only.pure Only.fail) Only.pure
  exact Only.bind (stays_put rfl) fun _ => Only.pure

theorem abandonPairing_stays (pairingId : Uuid) (error : AppError) :
    Stays exchanges (abandonPairing pairingId error : AppProg α) :=
  Only.bind (stays_storage.mono rfl) fun _ => Only.fail

theorem stagePairing_stays [Crypto] (pin4Hash pin6Hash : String) (cliNodeId : Bytes32) :
    Stays exchanges (stagePairing pin4Hash pin6Hash cliNodeId) := by
  refine Only.bind (stays_put rfl) fun pairingId => ?_
  refine Only.bind (stays_storage.mono rfl) fun begun => ?_
  refine Only.bind (stays_mapErr.mono rfl) fun _ => ?_
  refine Only.bind (stays_keystore.mono rfl) fun generated => ?_
  cases generated with
  | error e => exact abandonPairing_stays pairingId _
  | ok der =>
    refine Only.bind (stays_put rfl) fun share => ?_
    refine Only.bind (stays_storage.mono rfl) fun stored => ?_
    cases stored with
    | error e => exact abandonPairing_stays pairingId _
    | ok u => exact Only.pure

theorem signReady_stays [Crypto] (staged : StagedPairing) :
    Stays exchanges (signReady staged) := by
  refine Only.bind (Only.attempt ((ensureApprovalKeyAuth_stays _).mono rfl))
    fun authenticated => ?_
  cases authenticated with
  | error e => exact abandonPairing_stays _ e
  | ok u =>
    refine Only.bind ((stays_signApproval _ _).mono rfl) fun signed => ?_
    cases signed with
    | error e =>
      exact Only.bind ((handleSignedResponseError_stays _).mono rfl)
        fun error => abandonPairing_stays _ error
    | ok signature => exact Only.ite Only.pure (abandonPairing_stays _ _)

theorem request_stays {message : String} {c : OutsideCmd} {h : c.Reply = Except String α}
    (hc : (AppCmd.ask c).part = .ask) : Stays exchanges (PeerProg.request message c h) := by
  refine Only.bind (Only.perform (show _ ∈ exchanges from hc ▸ List.contains_iff_mem.mp rfl))
    fun r => ?_
  cases cast h r with
  | ok a => exact Only.pure
  | error e => exact Only.fail

theorem expect_stays {stream : Stream} {name : String} {expected : FerusaMessage} :
    Stays exchanges (PeerProg.expect stream name expected) :=
  Only.bind (request_stays rfl) fun _ => Only.ite Only.pure Only.fail

theorem peerStorage_stays {message : String} {p : StoreProg α} :
    Stays exchanges (PeerProg.storage message p) := by
  refine Only.mapError (Only.hoist (Only.of_forall fun c => ?_))
  cases c <;> exact List.contains_iff_mem.mp rfl

theorem pairWithCli_stays [Crypto] (staged : StagedPairing) (readySignature : Bytes)
    (verificationCode : Nat) :
    Stays exchanges (pairWithCli staged readySignature verificationCode) := by
  refine Only.bind (request_stays rfl) fun number => Only.bind (request_stays rfl) fun stream => ?_
  refine Only.bind (request_stays rfl) fun _ => Only.bind expect_stays fun _ => ?_
  refine Only.bind (request_stays rfl) fun _ => Only.bind expect_stays fun _ => ?_
  refine Only.bind peerStorage_stays fun _ => Only.bind (request_stays rfl) fun _ => ?_
  refine Only.bind expect_stays fun _ => Only.bind peerStorage_stays fun _ => ?_
  refine Only.bind (request_stays rfl) fun _ => Only.bind (request_stays rfl) fun _ => ?_
  exact Only.bind (request_stays rfl) fun _ => stays_put rfl

theorem loadSessionSecrets_stays [Crypto] : Stays exchanges loadSessionSecrets := by
  refine Only.bind (stays_storage.mono rfl) fun r => ?_
  cases r with
  | ok stored => exact Only.pure
  | error e =>
    exact Only.bind ((handleSignedResponseError_stays _).mono rfl) fun _ => Only.fail

theorem checkSetup_stays [Crypto] : Stays exchanges checkSetup := by
  refine Only.bind (stays_storage.mono rfl) fun r => ?_
  exact Only.bind (stays_mapErr.mono rfl) fun _ =>
    Only.bind (Only.ite (stays_put rfl) Only.pure) fun _ => Only.pure

theorem verifyReplacementPin_stays [Crypto] (kind : PinKind) (pin pinHash : String) :
    Stays pairs (verifyReplacementPin kind pin pinHash) := by
  refine Only.bind ((verifyPinWithCooldown_stays kind pin pinHash).mono rfl) fun outcome => ?_
  cases outcome with
  | verified => exact Only.pure
  | incorrect => exact Only.fail
  | cooldownStarted ms => exact Only.bind (expireSession_stays.mono rfl) fun _ => Only.fail
  | cooldownActive ms => exact Only.fail

theorem authorizePairingReplacement_stays [Crypto] (pin4 pin6 : String) :
    Stays pairs (authorizePairingReplacement pin4 pin6) := by
  refine Only.bind (AppState.beginPairingReplacement_stays.mono rfl) fun generation => ?_
  refine Only.bind Only.ofExcept fun _ => Only.bind Only.ofExcept fun _ => ?_
  refine Only.bind ((refreshApprovalKeyAuth_stays _ _).mono rfl) fun _ => ?_
  refine Only.bind (loadSessionSecrets_stays.mono rfl) fun stored => ?_
  refine Only.bind (verifyReplacementPin_stays _ _ _) fun _ => ?_
  refine Only.bind (verifyReplacementPin_stays _ _ _) fun _ => ?_
  exact (AppState.completePairingReplacement_stays generation).mono rfl

theorem setupComplete_stays [Crypto] (payload : SetupPayload) :
    Stays (.unlock :: exchanges) (setupComplete payload) := by
  refine Only.bind (requireReplacementAuthorization_stays.mono rfl) fun _ => ?_
  refine Only.bind Only.ofExcept fun cliNodeId => ?_
  refine Only.bind (consumeSetupPairingCode_stays.mono rfl) fun pairingCode => ?_
  refine Only.bind ((hashSetupPin_stays _).mono rfl) fun pin4Hash => ?_
  refine Only.bind ((hashSetupPin_stays _).mono rfl) fun pin6Hash => ?_
  refine Only.bind (acquireEndpoint_stays.mono rfl) fun _ => ?_
  refine Only.bind ((stagePairing_stays _ _ _).mono rfl) fun staged => ?_
  refine Only.bind ((signReady_stays staged).mono rfl) fun readySignature => ?_
  refine Only.bind (Only.attempt (Stays.mono (pairWithCli_stays _ _ _) rfl)) fun paired => ?_
  refine Only.bind (stays_mapErr.mono rfl) fun _ => ?_
  refine Only.bind (loadSessionSecrets_stays.mono rfl) fun stored => ?_
  exact Only.bind (stays_put rfl) fun _ => Only.bind (stays_put rfl) fun _ =>
    AppState.lock_stays.mono rfl

theorem biometricUnlock_stays [Crypto] : Stays (.unlock :: exchanges) biometricUnlock := by
  refine Only.bind (AppState.authenticationGeneration_stays.mono rfl) fun generation => ?_
  refine Only.bind ((refreshApprovalKeyAuth_stays _ _).mono rfl) fun _ => ?_
  refine Only.bind (loadSessionSecrets_stays.mono rfl) fun stored => ?_
  refine Only.bind ((AppState.completeUnlock_stays _ _).mono rfl) fun _ => ?_
  exact Only.bind (stays_put rfl) fun _ => stays_put rfl

theorem approveRequest_stays [Crypto] (requestId pin : String) :
    Stays (.putBack :: .approve :: pairs) (approveRequest requestId pin) := by
  refine Only.bind (ensureActiveSession_stays.mono rfl) fun _ => ?_
  refine Only.bind (stays_put rfl) fun slot => Only.bind Only.ofExcept fun pending => ?_
  refine Only.bind (unlockedSecrets_stays.mono rfl) fun secrets => ?_
  refine Only.bind Only.ofExcept fun _ => ?_
  refine Only.bind ((verifyPinWithCooldown_stays _ _ _).mono rfl) fun outcome => ?_
  cases outcome with
  | verified => exact (approveVerified_stays _ _).mono rfl
  | incorrect => exact Only.fail
  | cooldownStarted ms => exact (denyForCooldown_stays _ _ _).mono rfl
  | cooldownActive ms => exact (denyForCooldown_stays _ _ _).mono rfl

/-- All there is to do but to admit a request. -/
def admitsNothing : List Part := [.unlock, .foreground, .putBack, .approve] ++ pairs

/-- **Whatever is not a connection** admits nothing. -/
theorem AppOp.program_stays [Crypto] {op : AppOp} (h : ∀ conn streams, op ≠ .serve conn streams) :
    Stays admitsNothing op.program := by
  cases op with
  | setupComplete payload => exact (setupComplete_stays payload).mono rfl
  | biometricUnlock => exact biometricUnlock_stays.mono rfl
  | approveRequest requestId pin => exact (approveRequest_stays requestId pin).mono rfl
  | setupPairingCode =>
    exact Only.bind (setupPairingCode_stays.mono rfl) fun _ => Only.pure
  | checkSetup => exact Only.bind (checkSetup_stays.mono rfl) fun _ => Only.pure
  | authorizePairingReplacement pin4 pin6 =>
    exact (authorizePairingReplacement_stays pin4 pin6).mono rfl
  | cancelPairingReplacement => exact AppState.cancelPairingReplacement_stays.mono rfl
  | lock => exact lock_stays.mono rfl
  | setAppForeground foreground => exact (setAppForeground_stays foreground).mono rfl
  | pendingRequest => exact Only.bind (pendingRequest_stays.mono rfl) fun _ => Only.pure
  | denyRequest requestId => exact (denyRequest_stays requestId).mono rfl
  | serve conn streams => exact absurd rfl (h conn streams)
  | task task => exact task.program_stays.mono rfl

/-! ### Connections -/

variable (conn : Connection) (deadline : Nat) (authenticated : Bool) (stream : Stream)

theorem authorizeRecovery_stays (pairingId : Uuid) :
    Stays exchanges (authorize authenticated deadline
      (isAuthorizedPairingRecoveryPeer conn pairingId)) := by
  refine Only.bind ((hasTime_stays _ _).mono rfl) fun _ => Only.ite ?_ Only.pure
  refine Only.bind ?_ fun _ => Only.bind (stays_put rfl) fun _ => Only.pure
  refine Only.bind (stays_storage.mono rfl) fun r => ?_
  split
  · exact Only.pure
  · exact Only.pure

theorem servePairingCommit_stays [Crypto] (pairingId : Uuid) :
    Stays exchanges (servePairingCommit conn deadline authenticated stream pairingId) := by
  refine Only.bind (authorizeRecovery_stays _ _ _ _) fun _ =>
    Only.ite ((closeAndStop_stays _ _).mono rfl) ?_
  refine Only.bind (stays_storage.mono rfl) fun r => ?_
  cases r with
  | error e => exact Only.pure
  | ok u => exact Only.bind ((sendFrame_stays _ rfl).mono rfl) fun _ => Only.pure

theorem servePairingActivate_stays [Crypto] (pairingId : Uuid) :
    Stays exchanges
      (servePairingActivate conn deadline authenticated stream pairingId) := by
  refine Only.bind (authorizeRecovery_stays _ _ _ _) fun _ =>
    Only.ite ((closeAndStop_stays _ _).mono rfl) ?_
  refine Only.bind (stays_storage.mono rfl) fun r => ?_
  cases r with
  | error e => exact Only.pure
  | ok g => exact Only.bind ((announceActivation_stays _ _).mono rfl) fun _ => Only.pure

theorem serveMessage_stays [Crypto] (message : Except String FerusaMessage) :
    Stays storesNoSecrets (serveMessage conn deadline authenticated stream message) := by
  unfold serveMessage
  split
  · exact (servePing_stays _ _ _ _).mono rfl
  · exact (servePairingCommit_stays _ _ _ _ _).mono rfl
  · exact (servePairingActivate_stays _ _ _ _ _).mono rfl
  · exact (serveRequest_stays _ _ _ _ _).mono rfl
  · exact (serveOther_stays _ _ _).mono rfl
  · exact (serveOther_stays _ _ _).mono rfl

theorem serveStream_stays [Crypto] :
    Stays storesNoSecrets (serveStream conn deadline authenticated) := by
  have hclose : ∀ reason, Stays storesNoSecrets (closeAndStop conn reason) :=
    fun reason => (closeAndStop_stays _ _).mono rfl
  refine Only.bind ((hasTime_stays _ _).mono rfl) fun _ => Only.ite (hclose _) ?_
  refine Only.bind (stays_put rfl) fun accepted => ?_
  cases accepted with
  | failed e => exact Only.pure
  | timedOut => exact hclose _
  | ok stream =>
    refine Only.bind ((hasTime_stays _ _).mono rfl) fun _ => Only.ite (hclose _) ?_
    refine Only.bind (stays_put rfl) fun data => ?_
    cases data with
    | failed e => exact (serveOther_stays _ _ _).mono rfl
    | timedOut => exact hclose _
    | ok message => exact serveMessage_stays _ _ _ _ _

theorem serveStreams_stays [Crypto] (streams : Nat) :
    Stays storesNoSecrets (serveStreams conn deadline streams authenticated) := by
  induction streams generalizing authenticated with
  | zero => exact Only.pure
  | succ streams ih =>
    refine Only.bind (serveStream_stays conn deadline authenticated) fun served => ?_
    cases served with
    | stop => exact Only.pure
    | next authenticated => exact ih authenticated

end

end Phone
