import Ferusa.Phone.Parts
import Ferusa.Phone.TrackingSpec

/-!
# No key material without a pointer

Any number of setups, commands and connections work on the store, each
under its lock, and approval keys are generated beside it. A setup that
generates its key while its generation is still the staged one, and not
being discarded, leaves nothing behind that no pointer names. A setup
that was overtaken – the next one has discarded what it had staged –
generates its key all the same, and nobody deletes it: its own abort
refuses, for what is staged is no longer its own.
-/

namespace Phone

open Discipline AppProg

/-! ## The discipline of the store -/

/-- What a thread has swept after one more act of its own. -/
def AppAct.sweeps : AppAct → List Uuid → List Uuid
  | ⟨_, .store c, r, _, _⟩, swept => c.sweeps r swept
  | ⟨_, _, _, _, _⟩, swept => swept

/-- **What a thread has swept** since it last took the lock of the store. -/
def sweptBy (l : List AppAct) : List Uuid := l.foldr AppAct.sweeps []

theorem AppAct.sweeps_other {t : Nat} {c : AppCmd} {r : c.Reply} {s s' : App} {l : List AppAct}
    (hc : ∀ c', c ≠ .store c') : sweptBy (⟨t, c, r, s, s'⟩ :: l) = sweptBy l := by
  cases c with
  | store c' => exact absurd rfl (hc c')
  | _ => rfl

/-- The store as an operation of a thread sees it. -/
def tracking (l : List AppAct) (s : App) : Tracking := ⟨s.store, sweptBy l⟩

/-- **What a thread may do to the store.** -/
def trackMay (t : Nat) (l : List AppAct) (e : AppAct) : Prop :=
  (∃ c, e.command = .store c) → TrackStep t (tracking l e.before) (tracking (e :: l) e.after)

variable [Crypto] {Z : Setting}

/-- **The discipline of the store.** -/
def trackDiscipline (Z : Setting) : Discipline (appThreads Z) where
  may t _ l e := trackMay t l e
  ends _ _ _ _ := True
  rely t s s' := s.store.guard = some t →
    s'.store.guard = some t ∧ s'.store.secrets = s.store.secrets
  rely_refl _ _ h := ⟨h, rfl⟩
  rely_trans h₁ h₂ h := ⟨(h₂ (h₁ h).1).1, (h₂ (h₁ h).1).2.trans (h₁ h).2⟩

/-- The store as an act leaves it. -/
theorem exec_tracking {t : Nat} {c : StoreCmd} {r : c.Reply} {s s' : App} {l : List AppAct}
    (h : App.Exec t (.store c) s r s') : (trackLogic t).exec c (tracking l s) r
      (tracking (⟨t, .store c, r, s, s'⟩ :: l) s') := by
  obtain ⟨o, st, ho, rfl⟩ := App.exec_store.mp h
  exact ⟨⟨o, ho⟩, rfl⟩

/-! ## The programs keep it -/

/-- **A program of the store** that tracks what it stores follows the
discipline. -/
theorem hoist_follows {ε α : Type} {p : Prog StoreCmd.Reply ε α}
    (h : ∀ t, (trackLogic t).Triple (fun _ => True) p (fun _ _ => True) fun _ _ => True) :
    (trackDiscipline Z).Follows (p.hoist AppCmd.store fun _ r => r) := by
  intro t op l
  have hl : Keeps.Since (fun e : AppAct => ∃ c, True ∧ e.command = .store c) l l :=
    ⟨[], rfl, by simp⟩
  refine (Keeps.hoist (L := trackLogic t) tracking (P := fun _ => True) (fun _ => trivial) ?_
    exec_tracking (fun _ _ _ _ hg _ => hg) hl (Prog.Only.of_forall fun _ => trivial)
    fun s _ => h t _ trivial trivial).mono fun _ _ _ => trivial
  intro l s s' hr hg
  obtain ⟨hg', hs⟩ := hr hg
  exact ⟨hg', hs, rfl⟩

theorem storage_follows {α : Type} {p : StoreProg α}
    (h : ∀ t v, Tracks t (Knows t v []) p fun _ => Holds t) :
    (trackDiscipline Z).Follows (storage p) :=
  Follows.attempt (hoist_follows fun t => withStorageGuard_tracks (h t))

/-- **What has nothing to do with the store** may run at any time, and so may
a signature. -/
theorem follows_of_stays {ε α : Type} {parts : List Part} {p : Prog AppCmd.Reply ε α}
    (hp : Stays parts p) (h : Part.store ∉ parts) : (trackDiscipline Z).Follows p := by
  refine Follows.only hp fun t op l c r s s' hc hx => ?_
  rintro ⟨c, rfl⟩
  cases c with
  | sign keyAlias payload =>
    obtain ⟨o, st, ho, rfl⟩ := App.exec_store.mp hx
    obtain rfl := exec_sign_same ho
    exact .same
  | _ => exact absurd hc h

/-- **The generation of an approval key** takes no lock. -/
theorem generateApprovalKey_follows (keyAlias : ApprovalAlias) :
    (trackDiscipline Z).Follows (keystore (generateApprovalKey keyAlias)) := by
  refine Follows.attempt (hoist_follows fun t => ?_)
  have hst := Logic.Stable.const (trackLogic t) True
  refine Logic.Triple.perform_bind (M := fun _ _ => True) hst ?_ fun r => ?_
  · rintro ⟨s, d⟩ r ⟨s', d'⟩ - - ⟨⟨o, ho⟩, hd⟩
    have hd : d' = d := hd
    subst hd
    refine ⟨?_, trivial⟩
    rcases exec_generateApprovalKey_cases ho with hs | ⟨der, hs⟩
    · rw [show s' = s from hs]
      exact .same
    · rw [show s' = s.putKey keyAlias der from hs]
      exact .generate
  · cases r with
    | ok a => exact Logic.Triple.ret hst fun _ _ _ => trivial
    | error e => exact Logic.Triple.fail hst fun _ _ _ => trivial

/-! ### Setting up -/

theorem requireReplacementAuthorization_follows :
    (trackDiscipline Z).Follows requireReplacementAuthorization := by
  refine Follows.bind (storage_follows fun t v => isSetupInStore_tracks) fun r => ?_
  refine follows_of_stays (show Stays [.cell, .authorization] _ from ?_) (by decide)
  refine Prog.Only.bind (stays_mapErr.mono rfl) fun persisted => ?_
  refine Prog.Only.bind (stays_put rfl) fun stateSetup => ?_
  refine Prog.Only.bind (Prog.Only.ite (stays_put rfl) Prog.Only.pure) fun _ => ?_
  refine Prog.Only.ite (Prog.Only.bind ?_ fun _ => Prog.Only.ite Prog.Only.pure Prog.Only.fail)
    Prog.Only.pure
  exact Prog.Only.bind (stays_put rfl) fun _ => Prog.Only.pure

theorem abandonPairing_follows {α : Type} (pairingId : Uuid) (error : AppError) :
    (trackDiscipline Z).Follows (abandonPairing pairingId error : AppProg α) :=
  Follows.bind (storage_follows fun _ _ => abortUnstartedPairing_tracks pairingId)
    fun _ => Follows.fail

theorem stagePairing_follows (pin4Hash pin6Hash : String) (cliNodeId : Bytes32) :
    (trackDiscipline Z).Follows (stagePairing pin4Hash pin6Hash cliNodeId) := by
  have hput : ∀ (c : AppCmd), c.part ≠ .store →
      (trackDiscipline Z).Follows (put c) := fun c hc =>
    follows_of_stays (show Stays [c.part] _ from Prog.Only.perform (List.mem_singleton_self _))
      (fun h => hc (List.mem_singleton.mp h).symm)
  refine Follows.bind (hput _ nofun) fun pairingId => ?_
  refine Follows.bind (storage_follows fun _ _ => beginPendingPairing_tracks pairingId) fun r => ?_
  refine Follows.bind (follows_of_stays stays_mapErr (by decide)) fun _ => ?_
  refine Follows.bind (generateApprovalKey_follows _) fun generated => ?_
  cases generated with
  | error e => exact abandonPairing_follows pairingId _
  | ok der =>
    refine Follows.bind (hput _ nofun) fun share => ?_
    refine Follows.bind (storage_follows fun _ _ =>
      storePendingPairingGeneration_tracks pairingId _ der share _ _ _) fun stored => ?_
    cases stored with
    | error e => exact abandonPairing_follows pairingId _
    | ok u => exact Follows.pure

theorem signReady_follows (staged : StagedPairing) :
    (trackDiscipline Z).Follows (signReady staged) := by
  refine Follows.bind (Follows.attempt (follows_of_stays (ensureApprovalKeyAuth_stays _)
    (by decide))) fun authenticated => ?_
  cases authenticated with
  | error e => exact abandonPairing_follows _ e
  | ok u =>
    refine Follows.bind (follows_of_stays (stays_signApproval _ _) (by decide)) fun signed => ?_
    cases signed with
    | error e =>
      exact Follows.bind (follows_of_stays (handleSignedResponseError_stays _) (by decide))
        fun error => abandonPairing_follows _ error
    | ok signature => exact Follows.ite Follows.pure (abandonPairing_follows _ _)

theorem request_follows {α : Type} {message : String} {c : OutsideCmd}
    {h : c.Reply = Except String α} :
    (trackDiscipline Z).Follows (PeerProg.request message c h) := by
  refine follows_of_stays (show Stays [.ask, .approve] _ from
    Prog.Only.bind (stays_ask c) fun r => ?_) (by decide)
  cases cast h r with
  | ok a => exact Prog.Only.pure
  | error e => exact Prog.Only.fail

theorem peerStorage_follows {α : Type} {message : String} {p : StoreProg α}
    (h : ∀ t v, Tracks t (Knows t v []) p fun _ => Holds t) :
    (trackDiscipline Z).Follows (PeerProg.storage message p) :=
  Follows.mapError (hoist_follows fun t => withStorageGuard_tracks (h t))

theorem expect_follows {stream : Stream} {name : String} {expected : FerusaMessage} :
    (trackDiscipline Z).Follows (PeerProg.expect stream name expected) :=
  Follows.bind request_follows fun _ => Follows.ite Follows.pure Follows.fail

theorem pairWithCli_follows (staged : StagedPairing) (readySignature : Bytes)
    (verificationCode : Nat) :
    (trackDiscipline Z).Follows (pairWithCli staged readySignature verificationCode) := by
  refine Follows.bind request_follows fun number => ?_
  refine Follows.bind request_follows fun stream => ?_
  refine Follows.bind request_follows fun _ => Follows.bind expect_follows fun _ => ?_
  refine Follows.bind request_follows fun _ => Follows.bind expect_follows fun _ => ?_
  refine Follows.bind (peerStorage_follows fun _ _ => commitPendingGeneration_tracks _) fun _ => ?_
  refine Follows.bind request_follows fun _ => Follows.bind expect_follows fun _ => ?_
  refine Follows.bind (peerStorage_follows fun _ _ => activateGeneration_tracks _) fun _ => ?_
  refine Follows.bind request_follows fun _ => Follows.bind request_follows fun _ => ?_
  refine Follows.bind request_follows fun _ => ?_
  exact follows_of_stays (show Stays [.ask] _ from stays_put rfl) (by decide)

theorem loadSessionSecrets_follows : (trackDiscipline Z).Follows loadSessionSecrets := by
  refine Follows.bind (storage_follows fun _ _ => loadSecrets_tracks) fun r => ?_
  cases r with
  | ok stored => exact Follows.pure
  | error e =>
    exact Follows.bind (follows_of_stays (handleSignedResponseError_stays _) (by decide))
      fun _ => Follows.fail

theorem setupComplete_follows (payload : SetupPayload) :
    (trackDiscipline Z).Follows (setupComplete payload) := by
  refine Follows.bind requireReplacementAuthorization_follows fun _ => ?_
  refine Follows.bind Follows.ofExcept fun cliNodeId => ?_
  refine Follows.bind (follows_of_stays consumeSetupPairingCode_stays (by decide)) fun code => ?_
  refine Follows.bind (follows_of_stays (hashSetupPin_stays _) (by decide)) fun pin4Hash => ?_
  refine Follows.bind (follows_of_stays (hashSetupPin_stays _) (by decide)) fun pin6Hash => ?_
  refine Follows.bind (follows_of_stays acquireEndpoint_stays (by decide)) fun _ => ?_
  refine Follows.bind (stagePairing_follows _ _ _) fun staged => ?_
  refine Follows.bind (signReady_follows staged) fun readySignature => ?_
  refine Follows.bind (Follows.attempt (pairWithCli_follows _ _ _)) fun paired => ?_
  refine Follows.bind (follows_of_stays stays_mapErr (by decide)) fun _ => ?_
  refine Follows.bind loadSessionSecrets_follows fun stored => ?_
  refine follows_of_stays (show Stays [.guard, .session, .unlock, .cell] _ from ?_) (by decide)
  exact Prog.Only.bind (stays_put rfl) fun _ => Prog.Only.bind (stays_put rfl) fun _ =>
    AppState.lock_stays.mono rfl

/-! ### The other commands -/

theorem biometricUnlock_follows : (trackDiscipline Z).Follows biometricUnlock := by
  refine Follows.bind (follows_of_stays AppState.authenticationGeneration_stays (by decide))
    fun generation => ?_
  refine Follows.bind (follows_of_stays (refreshApprovalKeyAuth_stays _ generation) (by decide))
    fun _ => ?_
  refine Follows.bind loadSessionSecrets_follows fun stored => ?_
  refine follows_of_stays (show Stays [.guard, .session, .unlock, .clock, .cell, .spawn] _ from ?_)
    (by decide)
  exact Prog.Only.bind ((AppState.completeUnlock_stays _ _).mono rfl) fun _ =>
    Prog.Only.bind (stays_put rfl) fun _ => stays_put rfl

theorem checkSetup_follows : (trackDiscipline Z).Follows checkSetup := by
  refine Follows.bind (storage_follows fun _ _ => isSetupInStore_tracks) fun r => ?_
  refine follows_of_stays (show Stays [.cell] _ from ?_) (by decide)
  exact Prog.Only.bind (stays_mapErr.mono rfl) fun _ =>
    Prog.Only.bind (Prog.Only.ite (stays_put rfl) Prog.Only.pure) fun _ => Prog.Only.pure

/-- An update of an attempt counter. -/
theorem updateAttempts_follows {α : Type} (kind : PinKind)
    (update : PinAttemptState → PinAttemptStateWrite × α) :
    (trackDiscipline Z).Follows (storage (updatePinAttemptState kind update)) :=
  storage_follows fun _ _ => updatePinAttemptState_tracks kind update

theorem checkCooldown_follows (kind : PinKind) :
    (trackDiscipline Z).Follows (checkCooldown kind) :=
  Follows.bind (follows_of_stays readMonotonicClock_stays (by decide)) fun _ =>
    Follows.bind (updateAttempts_follows kind _) fun _ =>
      follows_of_stays stays_mapErr (by decide)

theorem recordFailure_follows (kind : PinKind) :
    (trackDiscipline Z).Follows (recordFailure kind) :=
  Follows.bind (follows_of_stays readMonotonicClock_stays (by decide)) fun _ =>
    Follows.bind (updateAttempts_follows kind _) fun _ =>
      follows_of_stays stays_mapErr (by decide)

theorem verifyAndRecord_follows (kind : PinKind) (pin pinHash : String) :
    (trackDiscipline Z).Follows (verifyAndRecord kind pin pinHash) := by
  refine Follows.bind (follows_of_stays (runArgon2Job_stays [.gate] (stays_put rfl)) (by decide))
    fun r => ?_
  refine Follows.bind (follows_of_stays stays_mapErr (by decide)) fun pinOk => Follows.ite ?_ ?_
  · exact Follows.bind (updateAttempts_follows kind _) fun _ =>
      Follows.bind (follows_of_stays stays_mapErr (by decide)) fun _ => Follows.pure
  · refine Follows.bind (recordFailure_follows kind) fun retryAfterMs => ?_
    cases retryAfterMs with
    | none => exact Follows.pure
    | some ms => exact Follows.pure

theorem verifyPinWithCooldown_follows (kind : PinKind) (pin pinHash : String) :
    (trackDiscipline Z).Follows (verifyPinWithCooldown kind pin pinHash) := by
  have hgate : ∀ c : AppCmd, c.part = .gate → (trackDiscipline Z).Follows (put c) :=
    fun c hc => follows_of_stays
      (show Stays [.gate] _ from Prog.Only.perform (List.mem_singleton.mpr hc)) (by decide)
  refine Follows.bind (hgate _ rfl) fun _ => Follows.bind (Follows.attempt ?_) fun _ =>
    Follows.bind (hgate _ rfl) fun _ => Follows.ofExcept
  refine Follows.bind (checkCooldown_follows kind) fun retryAfterMs => ?_
  cases retryAfterMs with
  | none => exact verifyAndRecord_follows kind pin pinHash
  | some ms => exact Follows.pure

theorem verifyReplacementPin_follows (kind : PinKind) (pin pinHash : String) :
    (trackDiscipline Z).Follows (verifyReplacementPin kind pin pinHash) := by
  refine Follows.bind (verifyPinWithCooldown_follows kind pin pinHash) fun outcome => ?_
  cases outcome with
  | verified => exact Follows.pure
  | incorrect => exact Follows.fail
  | cooldownStarted ms =>
    exact Follows.bind (follows_of_stays expireSession_stays (by decide)) fun _ => Follows.fail
  | cooldownActive ms => exact Follows.fail

theorem authorizePairingReplacement_follows (pin4 pin6 : String) :
    (trackDiscipline Z).Follows (authorizePairingReplacement pin4 pin6) := by
  refine Follows.bind (follows_of_stays AppState.beginPairingReplacement_stays (by decide))
    fun generation => ?_
  refine Follows.bind Follows.ofExcept fun _ => Follows.bind Follows.ofExcept fun _ => ?_
  refine Follows.bind (follows_of_stays (refreshApprovalKeyAuth_stays _ _) (by decide))
    fun _ => ?_
  refine Follows.bind loadSessionSecrets_follows fun stored => ?_
  refine Follows.bind (verifyReplacementPin_follows _ _ _) fun _ => ?_
  refine Follows.bind (verifyReplacementPin_follows _ _ _) fun _ => ?_
  exact follows_of_stays (AppState.completePairingReplacement_stays generation) (by decide)

theorem approveRequest_follows (requestId pin : String) :
    (trackDiscipline Z).Follows (approveRequest requestId pin) := by
  refine Follows.bind (follows_of_stays ensureActiveSession_stays (by decide)) fun _ => ?_
  refine Follows.bind (follows_of_stays (show Stays [.slot] _ from stays_put rfl) (by decide))
    fun slot => ?_
  refine Follows.bind Follows.ofExcept fun pending => ?_
  refine Follows.bind (follows_of_stays unlockedSecrets_stays (by decide)) fun secrets => ?_
  refine Follows.bind Follows.ofExcept fun _ => ?_
  refine Follows.bind (verifyPinWithCooldown_follows _ _ _) fun outcome => ?_
  cases outcome with
  | verified => exact follows_of_stays (approveVerified_stays _ _) (by decide)
  | incorrect => exact Follows.fail
  | cooldownStarted ms => exact follows_of_stays (denyForCooldown_stays _ _ _) (by decide)
  | cooldownActive ms => exact follows_of_stays (denyForCooldown_stays _ _ _) (by decide)

/-! ### Connections -/

section

variable (conn : Connection) (deadline : Nat) (authenticated : Bool) (stream : Stream)

theorem authorizeRecovery_follows (pairingId : Uuid) :
    (trackDiscipline Z).Follows (authorize authenticated deadline
      (isAuthorizedPairingRecoveryPeer conn pairingId)) := by
  refine Follows.bind (follows_of_stays (hasTime_stays _ _) (by decide)) fun _ =>
    Follows.ite ?_ Follows.pure
  refine Follows.bind ?_ fun _ => Follows.bind
    (follows_of_stays (show Stays [.ask] _ from stays_put rfl) (by decide)) fun _ => Follows.pure
  refine Follows.bind (storage_follows fun _ _ => pairingGenerationCliNodeId_tracks pairingId)
    fun r => ?_
  split
  · exact Follows.pure
  · exact Follows.pure

theorem servePairingCommit_follows (pairingId : Uuid) :
    (trackDiscipline Z).Follows
      (servePairingCommit conn deadline authenticated stream pairingId) := by
  refine Follows.bind (authorizeRecovery_follows conn deadline authenticated pairingId)
    fun _ => Follows.ite (follows_of_stays (closeAndStop_stays _ _) (by decide)) ?_
  refine Follows.bind (storage_follows fun _ _ => commitPendingGeneration_tracks pairingId)
    fun r => ?_
  cases r with
  | error e => exact Follows.pure
  | ok u =>
    exact Follows.bind (follows_of_stays (sendFrame_stays _ rfl) (by decide)) fun _ => Follows.pure

theorem servePairingActivate_follows (pairingId : Uuid) :
    (trackDiscipline Z).Follows
      (servePairingActivate conn deadline authenticated stream pairingId) := by
  refine Follows.bind (authorizeRecovery_follows conn deadline authenticated pairingId)
    fun _ => Follows.ite (follows_of_stays (closeAndStop_stays _ _) (by decide)) ?_
  refine Follows.bind (storage_follows fun _ _ => activateGeneration_tracks pairingId)
    fun r => ?_
  cases r with
  | error e => exact Follows.pure
  | ok g =>
    exact Follows.bind (follows_of_stays (announceActivation_stays _ _) (by decide))
      fun _ => Follows.pure

theorem serveMessage_follows (message : Except String FerusaMessage) :
    (trackDiscipline Z).Follows
      (serveMessage conn deadline authenticated stream message) := by
  unfold serveMessage
  split
  · exact follows_of_stays (servePing_stays _ _ _ _) (by decide)
  · exact servePairingCommit_follows _ _ _ _ _
  · exact servePairingActivate_follows _ _ _ _ _
  · exact follows_of_stays (serveRequest_stays _ _ _ _ _) (by decide)
  · exact follows_of_stays (serveOther_stays _ _ _) (by decide)
  · exact follows_of_stays (serveOther_stays _ _ _) (by decide)

theorem serveStream_follows :
    (trackDiscipline Z).Follows (serveStream conn deadline authenticated) := by
  have hask : ∀ c : OutsideCmd, (trackDiscipline Z).Follows (ask c) := fun c =>
    follows_of_stays (stays_ask c) (by decide)
  have hclose : ∀ reason, (trackDiscipline Z).Follows (closeAndStop conn reason) :=
    fun reason => follows_of_stays (closeAndStop_stays _ _) (by decide)
  have htime : (trackDiscipline Z).Follows (hasTime authenticated deadline) :=
    follows_of_stays (hasTime_stays _ _) (by decide)
  refine Follows.bind htime fun _ => Follows.ite (hclose _) ?_
  refine Follows.bind (hask _) fun accepted => ?_
  cases accepted with
  | failed e => exact Follows.pure
  | timedOut => exact hclose _
  | ok stream =>
    refine Follows.bind htime fun _ => Follows.ite (hclose _) ?_
    refine Follows.bind (hask _) fun data => ?_
    cases data with
    | failed e => exact follows_of_stays (serveOther_stays _ _ _) (by decide)
    | timedOut => exact hclose _
    | ok message => exact serveMessage_follows _ _ _ _ _

theorem serveStreams_follows (streams : Nat) (authenticated : Bool) :
    (trackDiscipline Z).Follows (serveStreams conn deadline streams authenticated) := by
  induction streams generalizing authenticated with
  | zero => exact Follows.pure
  | succ streams ih =>
    refine Follows.bind (serveStream_follows conn deadline authenticated) fun served => ?_
    cases served with
    | stop => exact Follows.pure
    | next authenticated => exact ih authenticated

end

/-- **Every program of the app keeps the discipline.** -/
theorem AppOp.program_follows (op : AppOp) : (trackDiscipline Z).Follows op.program := by
  cases op with
  | setupPairingCode =>
    exact Follows.bind (follows_of_stays setupPairingCode_stays (by decide)) fun _ => Follows.pure
  | setupComplete payload => exact setupComplete_follows payload
  | checkSetup => exact Follows.bind checkSetup_follows fun _ => Follows.pure
  | authorizePairingReplacement pin4 pin6 => exact authorizePairingReplacement_follows pin4 pin6
  | cancelPairingReplacement =>
    exact follows_of_stays AppState.cancelPairingReplacement_stays (by decide)
  | biometricUnlock => exact biometricUnlock_follows
  | lock => exact follows_of_stays lock_stays (by decide)
  | setAppForeground foreground =>
    exact follows_of_stays (setAppForeground_stays foreground) (by decide)
  | pendingRequest =>
    exact Follows.bind (follows_of_stays pendingRequest_stays (by decide)) fun _ => Follows.pure
  | approveRequest requestId pin => exact approveRequest_follows requestId pin
  | denyRequest requestId => exact follows_of_stays (denyRequest_stays requestId) (by decide)
  | serve conn streams =>
    exact Follows.bind (follows_of_stays (show Stays [.clock] _ from stays_put rfl) (by decide))
      fun now => serveStreams_follows conn _ streams false
  | task t => exact follows_of_stays t.program_stays (by decide)

/-- **The discipline is valid**: nobody else touches what is stored while a
thread holds the lock. -/
theorem trackDiscipline_valid (Z : Setting) : (trackDiscipline Z).Valid where
  keeps t op := AppOp.program_follows op t op []
  put {t u op l c r s s'} hne hx hm hg := by
    by_cases hc : ∃ c', c = .store c'
    · have hstep : TrackStep t (tracking l s) (tracking (⟨t, c, r, s, s'⟩ :: l) s') := hm hc
      have hnot : s.store.guard ≠ some t := fun h => hne (Option.some.inj (h.symm.trans hg))
      obtain ⟨hs, hguard | ⟨hnone, -, -⟩⟩ := hstep.other hnot
      · exact ⟨hguard.trans hg, hs⟩
      · cases hnone.symm.trans hg
    · rw [hx.aside.store fun c' h => hc ⟨c', h⟩]
      exact ⟨hg, rfl⟩
  start {w op s' u} h hg := by
    obtain ⟨spawned, rfl⟩ := AppOp.Starts.spawned h
    exact ⟨hg, rfl⟩
  env {s s' u} h hg := by
    have hs : s'.store = s.store := by cases h.1 <;> rfl
    rw [hs]
    exact ⟨hg, rfl⟩

/-! ## What a whole run keeps -/

/-- **The key of a generation came into being** with the act. -/
def NewKey (id : Uuid) (e : AppAct) : Prop :=
  e.before.store.keys (approvalKeyAlias id) = none ∧
    e.after.store.keys (approvalKeyAlias id) ≠ none

/-- **No key comes too late**: whenever the approval key of a generation comes
into being, the generation is staged, and whoever holds the lock of the
store has not swept it. -/
def Timely (w : AppLog) : Prop :=
  ∀ e earlier, w.Happened e earlier → ∀ id, NewKey id e →
    e.before.store.secrets.ptr .staging = some id ∧
    ∀ u, e.before.store.guard = some u → id ∉ sweptBy (earlier.filter fun e' => e'.thread = u)

omit [Crypto] in
theorem Timely.of_put {w : AppLog} {t : Nat} {c : AppCmd} {r : c.Reply} {s' : App}
    (h : Timely (w.put t c r s')) : Timely w :=
  fun e earlier ⟨later, he⟩ => h e earlier ⟨⟨t, c, r, w.state, s'⟩ :: later, by simp [he]⟩

/-- **What is known of every run** in which no key comes too late. -/
structure TrackInv (w : AppLog) : Prop where
  pointed : Pointed w.state.store
  swept : ∀ u, w.state.store.guard = some u → ∀ id ∈ sweptBy (w.own u),
    w.state.store.keys (approvalKeyAlias id) = none

omit [Crypto] in
/-- What leaves the store and the acts alone. -/
theorem TrackInv.same {w w' : AppLog} (h : TrackInv w) (hs : w'.state.store = w.state.store)
    (ha : w'.acts = w.acts) : TrackInv w' := by
  refine ⟨hs ▸ h.pointed, fun u hu id hid => ?_⟩
  rw [hs] at hu ⊢
  refine h.swept u hu id ?_
  unfold Log.own at hid ⊢
  rwa [ha] at hid

/-- **Every move keeps it.** -/
theorem TrackInv.move {w w' : AppLog} (h : TrackInv w) (htimely : Timely w')
    (hm : (trackDiscipline Z).Move w w') : TrackInv w' := by
  cases hm with
  | @put t op c r s' hop hrun hx hm =>
    by_cases hc : ∃ c', c = .store c'
    · have hstep : TrackStep t (tracking (w.own t) w.state)
          (tracking (⟨t, c, r, w.state, s'⟩ :: w.own t) s') := hm hc
      -- what is new was staged, and is not swept
      have hnew := htimely ⟨t, c, r, w.state, s'⟩ w.acts ⟨[], rfl⟩
      refine ⟨h.pointed.step hstep (fun hg => h.swept t hg) fun z hz hz' => (hnew z ⟨hz, hz'⟩).1,
        fun u hu id hid => ?_⟩
      by_contra hkey
      -- a key that is there again is a new one
      have hgone : w.state.store.guard = some u → id ∈ sweptBy (w.own u) → False := by
        intro hg hmem
        exact (hnew id ⟨h.swept u hg id hmem, hkey⟩).2 u hg hmem
      rcases hstep.guard hu with hg | ⟨rfl, hnil⟩
      · by_cases hut : t = u
        · subst hut
          rw [Log.own_put_self] at hid
          rcases hstep.swept hid with hmem | hnone
          · exact hgone hg hmem
          · exact hkey hnone
        · rw [Log.own_put_of_ne _ _ _ _ hut] at hid
          exact hgone hg hid
      · rw [Log.own_put_self] at hid
        have hid : id ∈ (tracking (⟨u, c, r, w.state, s'⟩ :: w.own u) s').swept := hid
        rw [hnil] at hid
        cases hid
    · have hstore : s'.store = w.state.store := hx.aside.store fun c' h => hc ⟨c', h⟩
      refine ⟨hstore ▸ h.pointed, fun u hu id hid => ?_⟩
      have hu : s'.store.guard = some u := hu
      show s'.store.keys (approvalKeyAlias id) = none
      rw [hstore] at hu ⊢
      refine h.swept u hu id ?_
      by_cases hut : t = u
      · subst hut
        rw [Log.own_put_self, AppAct.sweeps_other fun c' h => hc ⟨c', h⟩] at hid
        exact hid
      · rwa [Log.own_put_of_ne _ _ _ _ hut] at hid
  | finish => exact h.same rfl rfl
  | @start t op s' ht hown hend hs =>
    obtain ⟨spawned, rfl⟩ := AppOp.Starts.spawned hs
    exact h.same rfl rfl
  | @env s' he =>
    refine h.same ?_ rfl
    show s'.store = w.state.store
    cases he.1 <;> rfl
  | @crash s' hcrash =>
    obtain ⟨⟨now, epoch, clock, rfl, -⟩, -⟩ := hcrash
    exact ⟨⟨h.pointed.named, h.pointed.pending, h.pointed.committed⟩, fun u hu => by cases hu⟩

theorem Timely.of_move {w w' : AppLog} (h : Timely w') (hm : (trackDiscipline Z).Move w w') :
    Timely w := by
  cases hm with
  | put => exact h.of_put
  | finish => exact h
  | start => exact h
  | env => exact h
  | crash => exact h

/-- **Whatever is stored is named by a pointer**, in every run in which no key
comes too late. -/
theorem material_named {now epoch : Nat} {clock : ClockSnapshot} {usedUuids : List Uuid}
    {p : (appThreads .any).Running}
    (hp : (appThreads .any).Reaches (App.boot Store.empty now epoch clock usedUuids) p)
    (ht : Timely p.state) (id : Uuid) (hid : p.state.state.store.Has id) :
    Named p.state.state.store.secrets id := by
  have hinv : Timely p.state → TrackInv p.state := by
    refine (trackDiscipline_valid .any).invariant (I := fun w => Timely w → TrackInv w)
      (fun _ => ⟨⟨?_, ?_, ?_⟩, ?_⟩) (fun h hm ht => (h (ht.of_move hm)).move ht hm) hp
    · rintro id (hgen | hkey)
      · exact absurd rfl hgen
      · exact absurd rfl hkey
    · exact fun id h => by cases h
    · exact fun id h => by cases h
    · exact fun u h => by cases h
  exact (hinv ht).pointed.named id hid

/-! ## What is orphaned -/

/-- The threads that have made an id. -/
def makers (id : Uuid) (acts : List AppAct) : List Nat :=
  acts.filterMap fun e =>
    match e with
    | ⟨t, .newUuid, made, _, _⟩ => if made = id then some t else none
    | _ => none

/-- A setup that has made the id of the generation still runs. -/
def InProgress (w : AppLog) (id : Uuid) : Prop :=
  ∃ t ∈ makers id w.acts, (∃ payload, w.ops t = some (.setupComplete payload)) ∧
    w.ended t = none

/-- **Nothing is orphaned**: all that is stored is named by a pointer, or of a
setup that still runs. -/
def Tracked (w : AppLog) : Prop :=
  ∀ id, w.state.store.Has id → Named w.state.store.secrets id ∨ InProgress w id

/-- **No key material is orphaned**, if no key comes too late. In every run of
all commands, connections and tasks of the app, from the installation on,
whose keys are generated in time, every record and every approval key is of
a generation that a pointer names. -/
theorem material_tracked {now epoch : Nat} {clock : ClockSnapshot} {usedUuids : List Uuid}
    {p : (appThreads .any).Running}
    (hp : (appThreads .any).Reaches (App.boot Store.empty now epoch clock usedUuids) p)
    (ht : Timely p.state) : Tracked p.state :=
  fun id hid => .inl (material_named hp ht id hid)

/-! ## A setup that is overtaken -/

/-- A setup on the phone. -/
def somePayload : SetupPayload :=
  { pin4 := "7394", pin6 := "739418", cliNodeId := .ok (List.replicate 32 0) }

/-- A code is shown and a setup runs for so many steps, from thread `n` on. -/
def setupRuns (n steps : Nat) : List (Play AppOp Answers EnvMove) :=
  [.start 0 .setupPairingCode, .run n willing 20,
    .start 0 (.setupComplete somePayload), .run (n + 1) willing steps]

/-- A setup has begun, a second one begins and is staged instead, and the
first one goes on to its end. -/
def overtaken : List (Play AppOp Answers EnvMove) :=
  [.outside .bind] ++ setupRuns 0 30 ++ setupRuns 2 40 ++ [.run 1 willing 200]

/-- The phone as it was installed. -/
def installed : App := App.boot Store.empty 0 0 ⟨0, 0, Nat.zero_le _⟩ []

/-- A listed run of the phone as it was installed. -/
def playInstalled (l : List (Play AppOp Answers EnvMove)) : Option (appThreads .any).Running :=
  appPlayer.play l (Pool.idle (Log.empty installed))

/-- Whether a pointer names the generation. -/
def namedBy (v : Secrets) (id : Uuid) : Bool :=
  [Pointer.staging, .pending, .committed, .active, .retiring].any fun p => v.ptr p = some id

omit [Crypto] in
theorem named_iff {v : Secrets} {id : Uuid} : Named v id ↔ namedBy v id = true := by
  unfold Named namedBy
  simp only [List.any_eq_true, decide_eq_true_eq]
  refine ⟨fun ⟨p, hp⟩ => ⟨p, ?_, hp⟩, fun ⟨p, _, hp⟩ => ⟨p, hp⟩⟩
  cases p <;> simp

omit [Crypto] in
/-- **An overtaken setup orphans its key**: the generation of the first setup
is named by no pointer, its setup has ended, and its key is there. -/
theorem overtaken_orphans : ∃ p : (@appThreads Crypto.plain .any).Running,
    (@appThreads Crypto.plain .any).Reaches installed p ∧ ¬ Tracked p.state := by
  have hresult : (@playInstalled Crypto.plain overtaken).map (fun p =>
      (p.state.state.store.keys (approvalKeyAlias 1),
        namedBy p.state.state.store.secrets 1, makers 1 p.state.acts,
        (p.state.ended 1).isSome)) = some (some [7], false, [1], true) := by decide +kernel
  obtain ⟨p, hp, hresult⟩ := Option.map_eq_some_iff.mp hresult
  obtain ⟨hkey, hnamed, hmakers, hended⟩ : p.state.state.store.keys (approvalKeyAlias 1) =
      some [7] ∧ namedBy p.state.state.store.secrets 1 = false ∧
      makers 1 p.state.acts = [1] ∧ (p.state.ended 1).isSome = true := by simpa using hresult
  refine ⟨p, Player.play_sound hp, fun h => ?_⟩
  rcases h 1 (.inr (by rw [hkey]; nofun)) with h | ⟨t, ht, -, hrun⟩
  · rw [named_iff, hnamed] at h
    cases h
  · rw [hmakers] at ht
    obtain rfl := List.mem_singleton.mp ht
    rw [hrun] at hended
    cases hended

/-- Whether each key that is generated is of what is staged, nothing being
swept. -/
def inTime : List AppAct → Bool
  | [] => true
  | e :: earlier =>
    (match e.command with
      | .store (.generateApprovalKey keyAlias) =>
        e.before.store.secrets.ptr .staging = some keyAlias.pairingId ∧
          e.before.store.guard = none
      | _ => true) && inTime earlier

/-- A key comes into being by being generated. -/
theorem NewKey.generated {t : Nat} {c : AppCmd} {r : c.Reply} {s s' : App} {id : Uuid}
    (h : NewKey id ⟨t, c, r, s, s'⟩) (hx : App.Exec t c s r s') :
    c = .store (.generateApprovalKey (approvalKeyAlias id)) := by
  obtain ⟨hold, hnew⟩ := h
  by_cases hc : ∃ c', c = .store c'
  · obtain ⟨c', rfl⟩ := hc
    obtain ⟨o, st, ho, rfl⟩ := App.exec_store.mp hx
    rw [generates_of_exec ho hold hnew]
  · have hstore : s'.store = s.store := hx.aside.store fun c' h => hc ⟨c', h⟩
    exact absurd ((congrArg (fun st => st.keys (approvalKeyAlias id)) hstore).trans hold) hnew

theorem timely_of_inTime {w : AppLog} (hw : (trackDiscipline Z).Followed w)
    (h : inTime w.acts = true) : Timely w := by
  intro e earlier he id hnew
  obtain ⟨op, -, hx, -⟩ := hw e earlier he
  obtain ⟨t, c, r, s, s'⟩ := e
  obtain rfl := hnew.generated hx
  obtain ⟨later, hacts⟩ := he
  have hchecked : ∀ later, inTime (later ++ ⟨t, _, r, s, s'⟩ :: earlier) = true →
      s.store.secrets.ptr .staging = some id ∧ s.store.guard = none := by
    intro later
    induction later with
    | nil =>
      intro h
      exact of_decide_eq_true (Bool.and_eq_true_iff.mp h).1
    | cons e later ih => exact fun h => ih (Bool.and_eq_true_iff.mp h).2
  obtain ⟨hstaged, hfree⟩ := hchecked later (hacts ▸ h)
  refine ⟨hstaged, fun u hu => ?_⟩
  cases hfree.symm.trans hu

/-- The app after the process has died, and was started again. -/
def revived (p : (appThreads .any).Running) : (appThreads .any).Running :=
  let s := p.state.state
  ⟨p.state.crash (App.boot s.store s.now s.epoch s.clock s.usedUuids), fun _ => none, p.next⟩

theorem revived_step (p : (appThreads .any).Running) :
    Pool.Step (appThreads .any).system p (revived p) := by
  have hthreads : (fun _ => none) = fun t => (p.threads t).filter fun _ => !true := by
    funext t
    cases p.threads t <;> rfl
  unfold revived
  rw [hthreads]
  exact .crash ⟨fun _ => rfl, _, ⟨⟨_, _, _, rfl, .refl _⟩, trivial⟩, rfl⟩

/-- The approval keys cannot be deleted. -/
def keeping : Answers
  | .store (.deleteApprovalKey _), _ => .fail "busy"
  | c, s => willing c s

/-- A setup has begun, a second one begins and is stored instead; the process dies,
and a third setup cannot discard what the second one has left. -/
def interrupted : Option (appThreads .any).Running :=
  (playInstalled ([.outside .bind] ++ setupRuns 0 30 ++ setupRuns 2 40)).bind fun p =>
    appPlayer.play [.outside .bind, .start 0 .setupPairingCode, .run 4 willing 20,
      .start 0 (.setupComplete somePayload), .run 5 keeping 200] (revived p)

theorem interrupted_reaches {p : (appThreads .any).Running} (h : interrupted = some p) :
    (appThreads .any).Reaches installed p := by
  obtain ⟨q, hq, h⟩ := Option.bind_eq_some_iff.mp h
  exact ((Player.play_sound hq).tail (revived_step q)).trans (Player.play_sound h)

/-- Whether a thread was killed, and another one has failed. -/
def killedAndFailed (w : AppLog) (t u : Nat) : Bool :=
  match w.ended t, w.ended u with
  | some .killed, some (.done (.error _)) => true
  | _, _ => false

omit [Crypto] in
/-- What the second setup has stored is named. -/
theorem material_tracked_interrupted : ∃ p : (@appThreads Crypto.plain .any).Running,
    killedAndFailed p.state 1 5 = true ∧ p.state.state.store.Has 2 ∧ Tracked p.state := by
  have hresult : (@interrupted Crypto.plain).map (fun p =>
      (killedAndFailed p.state 1 5, p.state.state.store.keys (approvalKeyAlias 2),
        inTime p.state.acts)) = some (true, some [7], true) := by decide +kernel
  obtain ⟨p, hp, hresult⟩ := Option.map_eq_some_iff.mp hresult
  obtain ⟨hended, hresult⟩ := Prod.mk.inj hresult
  obtain ⟨hkey, htime⟩ := Prod.mk.inj hresult
  have hreach := @interrupted_reaches Crypto.plain _ hp
  refine ⟨p, hended, .inr (by rw [hkey]; nofun), @material_tracked Crypto.plain _ _ _ _ _ hreach ?_⟩
  exact @timely_of_inTime Crypto.plain .any _
    ((@trackDiscipline_valid Crypto.plain .any).followed hreach) htime

end Phone
