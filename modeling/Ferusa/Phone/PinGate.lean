import Ferusa.Phone.Parts

/-!
# The gate of a PIN

The failed attempts of a PIN are counted under its stored counter, behind its
gate. No other program takes the gate or saves the counter; an activation
deletes it. Behind the gate a thread goes through phases (`Phase`): it looks
for a cooldown, checks the PIN, records the failure. What it saves and when it
may check is told by the phase, which is told by what it has done
(`gateDiscipline`).
-/

namespace Phone

open Prog AppProg

/-! ## What leaves the counters alone -/

/-- A command of the store that saves no counter. -/
def Apart : StoreCmd → Prop
  | .save (.pinAttempts _) _ => False
  | _ => True

section

variable {α : Type}

theorem apart_fallible {message : String} {x : Except String α} :
    (StoreProg.fallible message x).Only Apart := by
  cases x <;> trivial

theorem apart_getEntry (k : Key) : (getEntry k).Only Apart :=
  Only.bind (Only.perform trivial) fun _ => apart_fallible

theorem apart_deleteEntry (k : Key) : (deleteEntry k).Only Apart :=
  Only.bind (Only.perform trivial) fun _ => apart_fallible

theorem apart_loadGenerationId (p : Pointer) : (loadGenerationId p).Only Apart :=
  Only.mapError (apart_getEntry _)

theorem apart_saveGenerationId (p : Pointer) (id : Uuid) : (saveGenerationId p id).Only Apart :=
  Only.mapError (Only.bind (Only.perform trivial) fun _ => apart_fallible)

theorem apart_signApproval (keyAlias : ApprovalAlias) (payload : String) :
    (signApproval keyAlias payload).Only Apart :=
  Only.bind (Only.perform trivial) fun _ => apart_fallible

theorem apart_generateApprovalKey (keyAlias : ApprovalAlias) :
    (generateApprovalKey keyAlias).Only Apart :=
  Only.bind (Only.perform trivial) fun _ => apart_fallible

theorem apart_removeGeneration (id : Uuid) : (removeGeneration id).Only Apart :=
  Only.bind (Only.mapError (Only.bind (Only.perform trivial) fun _ => apart_fallible)) fun _ =>
    Only.mapError (apart_deleteEntry _)

theorem apart_cleanupRetiringGeneration : cleanupRetiringGeneration.Only Apart := by
  refine Only.bind (apart_loadGenerationId _) fun retiring => ?_
  cases retiring with
  | none => trivial
  | some retiring =>
    refine Only.bind (apart_loadGenerationId _) fun _ => Only.ite trivial ?_
    exact Only.bind (apart_removeGeneration _) fun _ => Only.mapError (apart_deleteEntry _)

theorem apart_cleanupActivationMetadata (id : Uuid) :
    (cleanupActivationMetadata id).Only Apart := by
  refine Only.bind (Only.each fun p => ?_) fun _ =>
    Only.bind (Only.attempt apart_cleanupRetiringGeneration) fun _ => trivial
  exact Only.bind (apart_loadGenerationId p) fun _ =>
    Only.ite (Only.mapError (apart_deleteEntry _)) trivial

theorem apart_finalizeActiveActivation : finalizeActiveActivation.Only Apart := by
  refine Only.bind (apart_loadGenerationId _) fun active =>
    Only.bind (apart_loadGenerationId _) fun committed => ?_
  cases active with
  | none => trivial
  | some active =>
    cases committed with
    | none => trivial
    | some committed => exact Only.ite (apart_cleanupActivationMetadata _) trivial

theorem apart_clearUncommittedPending : clearUncommittedPending.Only Apart := by
  refine Only.bind apart_finalizeActiveActivation fun _ =>
    Only.bind (apart_loadGenerationId _) fun _ => Only.ite trivial ?_
  refine Only.bind (apart_loadGenerationId _) fun _ => Only.bind (Only.fold fun _ p => ?_) fun _ =>
    Only.bind (Only.each fun _ => Only.ite (apart_removeGeneration _) trivial) fun _ =>
      Only.each fun _ => Only.mapError (apart_deleteEntry _)
  refine Only.bind (apart_loadGenerationId p) fun stored => ?_
  cases stored <;> trivial

theorem apart_beginPendingPairing (id : Uuid) : (beginPendingPairing id).Only Apart :=
  Only.bind apart_finalizeActiveActivation fun _ => Only.bind (apart_loadGenerationId _) fun _ =>
    Only.ite trivial (Only.bind apart_clearUncommittedPending fun _ => apart_saveGenerationId _ _)

theorem apart_loadGeneration (id : Uuid) : (loadGeneration id).Only Apart := by
  refine Only.bind (Only.mapError (apart_getEntry _)) fun stored => ?_
  cases stored with
  | none => trivial
  | some generation => exact Only.ite trivial trivial

theorem apart_abortUnstartedPairing (id : Uuid) : (abortUnstartedPairing id).Only Apart := by
  refine Only.bind (Only.each fun p => ?_) fun _ => apart_clearUncommittedPending
  refine Only.bind (apart_loadGenerationId p) fun stored => ?_
  cases stored with
  | none => trivial
  | some stored => exact Only.ite trivial trivial

theorem apart_retireActive (oldActive : Option Uuid) : (retireActive oldActive).Only Apart := by
  cases oldActive with
  | none => trivial
  | some oldActive =>
    exact Only.bind (apart_loadGenerationId _) fun _ =>
      Only.bind (Only.ite (Only.mapError apart_cleanupRetiringGeneration) trivial) fun _ =>
        apart_saveGenerationId _ _

theorem apart_flipActive (committed : Uuid) : (flipActive committed).Only Apart := by
  refine Only.bind (apart_loadGenerationId _) fun _ => Only.ite trivial ?_
  refine Only.bind (apart_retireActive _) fun _ =>
    Only.bind (Only.mapError (apart_saveGenerationId _ _)) fun _ => Only.each fun kind => ?_
  exact Only.bind (Only.attempt (apart_deleteEntry _)) fun _ => trivial

theorem apart_pairingGenerationCliNodeId (id : Uuid) :
    (pairingGenerationCliNodeId id).Only Apart := by
  refine Only.bind apart_finalizeActiveActivation fun _ => Only.bind (Only.fold fun _ p => ?_)
    fun _ => Only.ite (Only.bind (apart_loadGeneration _) fun _ => trivial) trivial
  exact Only.bind (apart_loadGenerationId p) fun _ => trivial

variable [Crypto]

theorem apart_loadMetadataValidatedGeneration (id : Uuid) :
    (loadMetadataValidatedGeneration id).Only Apart :=
  Only.bind (apart_loadGeneration id) fun _ => Only.bind Only.ofExcept fun _ => trivial

theorem apart_storePendingPairingGeneration (id : Uuid) (approvalAlias : ApprovalAlias)
    (der : Bytes) (share : Bytes32) (pin4Hash pin6Hash : String) (cliNodeId : Bytes32) :
    (storePendingPairingGeneration id approvalAlias der share pin4Hash pin6Hash
      cliNodeId).Only Apart := by
  refine Only.bind (apart_loadGenerationId _) fun _ => Only.ite trivial (Only.ite trivial ?_)
  refine Only.bind Only.ofExcept fun _ => Only.bind ?_ fun _ => Only.bind
    (Only.mapError (apart_loadMetadataValidatedGeneration _)) fun _ => apart_saveGenerationId _ _
  exact Only.mapError (Only.bind (Only.perform trivial) fun _ => apart_fallible)

theorem apart_commitPendingGeneration (id : Uuid) : (commitPendingGeneration id).Only Apart := by
  have hload : ∀ message : String, (StoreProg.context message
      (loadMetadataValidatedGeneration id)).Only Apart :=
    fun _ => Only.mapError (apart_loadMetadataValidatedGeneration _)
  refine Only.bind (apart_loadGenerationId _) fun _ => Only.ite
    (Only.bind (hload _) fun _ => apart_finalizeActiveActivation) ?_
  refine Only.bind (apart_loadGenerationId _) fun _ => Only.ite
    (Only.bind (hload _) fun _ => trivial) ?_
  exact Only.bind (apart_loadGenerationId _) fun _ => Only.ite trivial
    (Only.bind (hload _) fun _ => apart_saveGenerationId _ _)

theorem apart_activateGeneration (id : Uuid) : (activateGeneration id).Only Apart := by
  have hload : ∀ (message : String) (id : Uuid), (StoreProg.context message
      (loadMetadataValidatedGeneration id)).Only Apart :=
    fun _ _ => Only.mapError (apart_loadMetadataValidatedGeneration _)
  refine Only.bind (apart_loadGenerationId _) fun _ => Only.ite
    (Only.bind (hload _ _) fun _ => Only.bind apart_finalizeActiveActivation fun _ => trivial) ?_
  refine Only.bind (apart_loadGenerationId _) fun pending => ?_
  cases pending with
  | none => trivial
  | some pending =>
    refine Only.bind (apart_loadGenerationId _) fun committed => ?_
    cases committed with
    | none => trivial
    | some committed =>
      exact Only.ite trivial (Only.bind (hload _ _) fun _ => Only.bind (apart_flipActive _)
        fun _ => Only.bind (apart_cleanupActivationMetadata _) fun _ => trivial)

theorem apart_loadSecrets : loadSecrets.Only Apart := by
  refine Only.bind (Only.attempt apart_cleanupRetiringGeneration) fun _ =>
    Only.bind (apart_loadGenerationId _) fun active => ?_
  cases active with
  | none => trivial
  | some active =>
    refine Only.mapError (Only.bind (apart_loadMetadataValidatedGeneration _) fun _ =>
      Only.bind ?_ fun _ => trivial)
    exact Only.bind Only.ofExcept fun _ => Only.bind (Only.mapError (apart_signApproval _ _))
      fun _ => Only.ite trivial trivial

theorem apart_isSetupInStore : isSetupInStore.Only Apart := by
  refine Only.bind apart_finalizeActiveActivation fun _ =>
    Only.bind (Only.attempt apart_cleanupRetiringGeneration) fun _ =>
      Only.bind (apart_loadGenerationId _) fun active => ?_
  cases active with
  | none => trivial
  | some active =>
    exact Only.bind (Only.mapError (apart_loadMetadataValidatedGeneration _)) fun _ => trivial

end

/-! ## What leaves the PINs alone -/

/-- **A command that has nothing to do with a PIN**: neither with a gate nor with
a check, nor with saving a counter. -/
def Calm : AppCmd → Prop
  | .lockGate _ => False
  | .unlockGate _ => False
  | .verifyPin _ _ => False
  | .store (.save (.pinAttempts _) _) => False
  | _ => True

section

variable {α ε : Type}

/-- What has to do neither with the store nor with a gate. -/
theorem calm_of_stays {parts : List Part} {p : Prog AppCmd.Reply ε α} (hp : Stays parts p)
    (hg : parts.contains .gate = false) (hs : parts.contains .store = false) :
    p.Only Calm := by
  have hgate : Part.gate ∉ parts := fun h =>
    Bool.false_ne_true (hg.symm.trans (List.contains_iff_mem.mpr h))
  have hstore : Part.store ∉ parts := fun h =>
    Bool.false_ne_true (hs.symm.trans (List.contains_iff_mem.mpr h))
  refine Only.mono hp fun c hc => ?_
  unfold Calm
  split
  · exact hgate hc
  · exact hgate hc
  · exact hgate hc
  · exact hstore hc
  · trivial

theorem calm_hoist {p : Prog StoreCmd.Reply ε α} (hp : p.Only Apart) :
    (p.hoist AppCmd.store fun _ r => r : Prog AppCmd.Reply ε α).Only Calm := by
  refine Only.hoist (Only.mono hp fun c hc => ?_)
  unfold Calm
  split
  · next heq => cases heq
  · next heq => cases heq
  · next heq => cases heq
  · next heq =>
    obtain rfl := AppCmd.store.inj heq
    exact hc.elim
  · trivial

theorem apart_withStorageGuard {p : StoreProg α} (hp : p.Only Apart) :
    (StoreProg.withStorageGuard p).Only Apart :=
  Only.bind (Only.perform trivial) fun _ => Only.bind (Only.attempt hp) fun _ =>
    Only.bind (Only.perform trivial) fun _ => Only.ofExcept

theorem calm_storage {p : StoreProg α} (hp : p.Only Apart) :
    (storage p).Only Calm :=
  Only.attempt (calm_hoist (apart_withStorageGuard hp))

theorem calm_mapErr {f : ε → AppError} {x : Except ε α} : (mapErr f x).Only Calm :=
  calm_of_stays stays_mapErr rfl rfl

theorem calm_peerStorage {message : String} {p : StoreProg α} (hp : p.Only Apart) :
    (PeerProg.storage message p).Only Calm :=
  Only.mapError (calm_hoist (apart_withStorageGuard hp))

theorem calm_request {message : String} {c : OutsideCmd} {h : c.Reply = Except String α} :
    (PeerProg.request message c h).Only Calm := by
  refine Only.bind (Only.perform trivial) fun r => ?_
  cases cast h r <;> trivial

theorem calm_expect {stream : Stream} {name : String} {expected : FerusaMessage} :
    (PeerProg.expect stream name expected).Only Calm :=
  Only.bind calm_request fun _ => Only.ite trivial trivial

theorem calm_abandonPairing (id : Uuid) (error : AppError) :
    (abandonPairing id error : AppProg α).Only Calm :=
  Only.bind (calm_storage (apart_abortUnstartedPairing id)) fun _ => trivial

variable [Crypto]

theorem calm_loadSessionSecrets : loadSessionSecrets.Only Calm := by
  refine Only.bind (calm_storage apart_loadSecrets) fun r => ?_
  cases r with
  | ok stored => trivial
  | error e =>
    exact Only.bind (calm_of_stays (handleSignedResponseError_stays _) rfl rfl)
      fun _ => trivial

theorem calm_checkSetup : checkSetup.Only Calm :=
  Only.bind (calm_storage apart_isSetupInStore) fun _ => Only.bind calm_mapErr fun _ =>
    Only.bind (Only.ite (Only.perform trivial) trivial) fun _ => trivial

theorem calm_requireReplacementAuthorization :
    requireReplacementAuthorization.Only Calm := by
  refine Only.bind (calm_storage apart_isSetupInStore) fun _ => Only.bind calm_mapErr
    fun _ => Only.bind (Only.perform trivial) fun _ =>
      Only.bind (Only.ite (Only.perform trivial) trivial) fun _ => Only.ite ?_ trivial
  exact Only.bind (Only.bind (Only.perform trivial) fun _ => trivial) fun _ =>
    Only.ite trivial trivial

theorem calm_stagePairing (pin4Hash pin6Hash : String) (cliNodeId : Bytes32) :
    (stagePairing pin4Hash pin6Hash cliNodeId).Only Calm := by
  refine Only.bind (Only.perform trivial) fun id =>
    Only.bind (calm_storage (apart_beginPendingPairing id)) fun _ =>
      Only.bind calm_mapErr fun _ =>
        Only.bind (Only.attempt (calm_hoist (apart_generateApprovalKey _))) fun generated => ?_
  cases generated with
  | error e => exact calm_abandonPairing _ _
  | ok der =>
    refine Only.bind (Only.perform trivial) fun share => Only.bind
      (calm_storage (apart_storePendingPairingGeneration _ _ _ _ _ _ _)) fun stored => ?_
    cases stored with
    | error e => exact calm_abandonPairing _ _
    | ok u => trivial

theorem calm_signReady (staged : StagedPairing) : (signReady staged).Only Calm := by
  refine Only.bind (Only.attempt (calm_of_stays (ensureApprovalKeyAuth_stays _) rfl rfl))
    fun authenticated => ?_
  cases authenticated with
  | error e => exact calm_abandonPairing _ e
  | ok u =>
    refine Only.bind (calm_of_stays (stays_signApproval _ _) rfl rfl) fun signed => ?_
    cases signed with
    | error e =>
      exact Only.bind (calm_of_stays (handleSignedResponseError_stays _) rfl rfl)
        fun error => calm_abandonPairing _ error
    | ok signature => exact Only.ite trivial (calm_abandonPairing _ _)

theorem calm_pairWithCli (staged : StagedPairing) (readySignature : Bytes) (code : Nat) :
    (pairWithCli staged readySignature code).Only Calm := by
  refine Only.bind calm_request fun _ => Only.bind calm_request fun _ =>
    Only.bind calm_request fun _ => Only.bind calm_expect fun _ => ?_
  refine Only.bind calm_request fun _ => Only.bind calm_expect fun _ =>
    Only.bind (calm_peerStorage (apart_commitPendingGeneration _)) fun _ => ?_
  refine Only.bind calm_request fun _ => Only.bind calm_expect fun _ =>
    Only.bind (calm_peerStorage (apart_activateGeneration _)) fun _ => ?_
  exact Only.bind calm_request fun _ => Only.bind calm_request fun _ =>
    Only.bind calm_request fun _ => Only.perform trivial

theorem calm_setupComplete (payload : SetupPayload) :
    (setupComplete payload).Only Calm := by
  refine Only.bind calm_requireReplacementAuthorization fun _ => Only.bind Only.ofExcept
    fun _ => Only.bind (calm_of_stays consumeSetupPairingCode_stays rfl rfl) fun _ => ?_
  refine Only.bind (calm_of_stays (hashSetupPin_stays _) rfl rfl) fun _ =>
    Only.bind (calm_of_stays (hashSetupPin_stays _) rfl rfl) fun _ =>
      Only.bind (calm_of_stays acquireEndpoint_stays rfl rfl) fun _ => ?_
  refine Only.bind (calm_stagePairing _ _ _) fun staged =>
    Only.bind (calm_signReady staged) fun _ =>
      Only.bind (Only.attempt (calm_pairWithCli _ _ _)) fun _ =>
        Only.bind calm_mapErr fun _ => Only.bind calm_loadSessionSecrets fun _ => ?_
  exact Only.bind (Only.perform trivial) fun _ => Only.bind (Only.perform trivial) fun _ =>
    calm_of_stays AppState.lock_stays rfl rfl

theorem calm_biometricUnlock : biometricUnlock.Only Calm := by
  refine Only.bind (calm_of_stays AppState.authenticationGeneration_stays rfl rfl) fun _ =>
    Only.bind (calm_of_stays (refreshApprovalKeyAuth_stays _ _) rfl rfl) fun _ =>
      Only.bind calm_loadSessionSecrets fun _ => ?_
  exact Only.bind (calm_of_stays (AppState.completeUnlock_stays _ _) rfl rfl) fun _ =>
    Only.bind (Only.perform trivial) fun _ => Only.perform trivial

/-! ### Connections -/

section

variable (conn : Connection) (deadline : Nat) (authenticated : Bool) (stream : Stream)

omit [Crypto] in
theorem calm_authorizeRecovery (id : Uuid) :
    (authorize authenticated deadline (isAuthorizedPairingRecoveryPeer conn id)).Only
      Calm := by
  refine Only.bind (calm_of_stays (hasTime_stays _ _) rfl rfl) fun _ => Only.ite ?_ trivial
  refine Only.bind (Only.bind (calm_storage (apart_pairingGenerationCliNodeId id)) fun r => ?_)
    fun _ => Only.bind (Only.perform trivial) fun _ => trivial
  split
  · trivial
  · trivial

theorem calm_servePairingCommit (id : Uuid) :
    (servePairingCommit conn deadline authenticated stream id).Only Calm := by
  refine Only.bind (calm_authorizeRecovery _ _ _ _) fun _ =>
    Only.ite (calm_of_stays (closeAndStop_stays _ _) rfl rfl) ?_
  refine Only.bind (calm_storage (apart_commitPendingGeneration id)) fun r => ?_
  cases r with
  | error e => trivial
  | ok u =>
    exact Only.bind (calm_of_stays (sendFrame_stays _ rfl) rfl rfl) fun _ => trivial

theorem calm_servePairingActivate (id : Uuid) :
    (servePairingActivate conn deadline authenticated stream id).Only Calm := by
  refine Only.bind (calm_authorizeRecovery _ _ _ _) fun _ =>
    Only.ite (calm_of_stays (closeAndStop_stays _ _) rfl rfl) ?_
  refine Only.bind (calm_storage (apart_activateGeneration id)) fun r => ?_
  cases r with
  | error e => trivial
  | ok u =>
    exact Only.bind (calm_of_stays (announceActivation_stays _ _) rfl rfl) fun _ => trivial

theorem calm_serveMessage (message : Except String FerusaMessage) :
    (serveMessage conn deadline authenticated stream message).Only Calm := by
  unfold serveMessage
  split
  · exact calm_of_stays (servePing_stays _ _ _ _) rfl rfl
  · exact calm_servePairingCommit _ _ _ _ _
  · exact calm_servePairingActivate _ _ _ _ _
  · exact calm_of_stays (serveRequest_stays _ _ _ _ _) rfl rfl
  · exact calm_of_stays (serveOther_stays _ _ _) rfl rfl
  · exact calm_of_stays (serveOther_stays _ _ _) rfl rfl

theorem calm_serveStream :
    (serveStream conn deadline authenticated).Only Calm := by
  have hclose : ∀ reason, (closeAndStop conn reason).Only Calm :=
    fun reason => calm_of_stays (closeAndStop_stays _ _) rfl rfl
  have htime : (hasTime authenticated deadline).Only Calm :=
    calm_of_stays (hasTime_stays authenticated deadline) rfl rfl
  refine Only.bind htime fun _ => Only.ite (hclose _) (Only.bind (Only.perform trivial)
    fun accepted => ?_)
  cases accepted with
  | failed e => trivial
  | timedOut => exact hclose _
  | ok stream =>
    refine Only.bind htime fun _ => Only.ite (hclose _) (Only.bind (Only.perform trivial)
      fun data => ?_)
    cases data with
    | failed e => exact calm_of_stays (serveOther_stays _ _ _) rfl rfl
    | timedOut => exact hclose _
    | ok message => exact calm_serveMessage _ _ _ _ _

theorem calm_serveStreams (streams : Nat) :
    (serveStreams conn deadline streams authenticated).Only Calm := by
  induction streams generalizing authenticated with
  | zero => trivial
  | succ streams ih =>
    refine Only.bind (calm_serveStream conn deadline authenticated) fun served => ?_
    cases served with
    | stop => trivial
    | next authenticated => exact ih authenticated

end

end

/-! ## The phases of a verification -/

/-- **How far the verification of a PIN has got**, behind its gate. -/
inductive Phase where
  | outside
  | entered
  | clocked (clock : ClockSnapshot)
  | loaded (clock : ClockSnapshot) (state : PinAttemptState)
  /-- No cooldown is active: the PIN may be checked. -/
  | free
  | failed
  | clockedFailure (clock : ClockSnapshot)
  | loadedFailure (clock : ClockSnapshot) (state : PinAttemptState)
  /-- The failure could not be recorded. -/
  | lost
  | settled

namespace Phase

/-- A failed check is not recorded yet. -/
def Midway : Phase → Prop
  | failed => True
  | clockedFailure _ => True
  | loadedFailure _ _ => True
  | _ => False

/-- What may be saved. -/
def Saves (v : PinAttemptState) : Phase → Prop
  | loaded clock state => v = (activeCooldownRemainingMs state clock).1
  | loadedFailure clock state => v = (recordPinFailureState state clock).1
  | _ => False

/-- The clock was read. -/
def read (r : Except String ClockSnapshot) : Phase → Phase
  | entered =>
    match r with
    | .ok clock => clocked clock
    | .error _ => entered
  | failed =>
    match r with
    | .ok clock => clockedFailure clock
    | .error _ => lost
  | ph => ph

/-- The counter was loaded. -/
def load (r : Except String (Option PinAttemptState)) : Phase → Phase
  | clocked clock =>
    match r with
    | .ok stored => loaded clock (stored.getD {})
    | .error _ => clocked clock
  | clockedFailure clock =>
    match r with
    | .ok stored => loadedFailure clock (stored.getD {})
    | .error _ => lost
  | ph => ph

/-- The counter was saved. -/
def save (r : Except String Unit) : Phase → Phase
  | loaded clock state =>
    match r with
    | .ok () => if (activeCooldownRemainingMs state clock).2 = none then free else settled
    | .error _ => settled
  | loadedFailure _ _ =>
    match r with
    | .ok () => settled
    | .error _ => lost
  | ph => ph

/-- A PIN was checked. -/
def check (r : Except Anyhow Bool) : Phase → Phase
  | free =>
    match r with
    | .ok false => failed
    | _ => settled
  | ph => ph

/-- **The phase after an act of the thread.** -/
def next (kind : PinKind) (ph : Phase) : AppAct → Phase
  | ⟨_, .lockGate k, _, _, _⟩ => if k = kind then entered else ph
  | ⟨_, .unlockGate k, _, _, _⟩ => if k = kind then outside else ph
  | ⟨_, .clockSnapshot, r, _, _⟩ => ph.read r
  | ⟨_, .store (.get (.pinAttempts k)), r, _, _⟩ => if k = kind then ph.load r else ph
  | ⟨_, .store (.save (.pinAttempts k) _), r, _, _⟩ => if k = kind then ph.save r else ph
  | ⟨_, .verifyPin _ _, r, _, _⟩ => ph.check r
  | _ => ph

/-- **What a thread may do in a phase.** -/
def May (kind : PinKind) (ph : Phase) : AppAct → Prop
  | ⟨_, .lockGate k, _, _, _⟩ => k = kind → ph = outside
  | ⟨_, .unlockGate k, _, _, _⟩ => k = kind → ¬ ph.Midway
  | ⟨_, .store (.save (.pinAttempts k) v), _, _, _⟩ => k = kind → ph.Saves v
  | ⟨_, .clockSnapshot, _, _, _⟩ => ph = outside ∨ ph = entered ∨ ph = failed
  | ⟨_, .verifyPin _ _, _, _, _⟩ => ph = outside ∨ ph = free
  | _ => True

end Phase

section

variable {kind : PinKind} {t : Nat}

/-- Only the gate leads in and out. -/
theorem Phase.next_outside {ph : Phase} {c : AppCmd} {r : c.Reply} {s s' : App}
    (hlock : c ≠ .lockGate kind) (hunlock : c ≠ .unlockGate kind) :
    ph.next kind ⟨t, c, r, s, s'⟩ = .outside ↔ ph = .outside := by
  have hread : ∀ r, ph.read r = .outside ↔ ph = .outside := by
    intro r
    cases ph <;> cases r <;> simp [Phase.read]
  have hload : ∀ r, ph.load r = .outside ↔ ph = .outside := by
    intro r
    cases ph <;> cases r <;> simp [Phase.load]
  have hsave : ∀ r, ph.save r = .outside ↔ ph = .outside := by
    intro r
    unfold Phase.save
    split
    · split
      · split <;> simp
      · simp
    · split <;> simp
    · exact Iff.rfl
  have hcheck : ∀ r, ph.check r = .outside ↔ ph = .outside := by
    intro r
    unfold Phase.check
    split
    · split <;> simp
    · exact Iff.rfl
  cases c with
  | lockGate k =>
    show (if k = kind then _ else _) = _ ↔ _
    rw [if_neg fun hk => hlock (congrArg _ hk)]
  | unlockGate k =>
    show (if k = kind then _ else _) = _ ↔ _
    rw [if_neg fun hk => hunlock (congrArg _ hk)]
  | clockSnapshot => exact hread r
  | verifyPin pin hash => exact hcheck r
  | store c =>
    cases c with
    | save key v =>
      cases key with
      | pinAttempts k =>
        show (if k = kind then ph.save r else ph) = _ ↔ _
        split
        · exact hsave r
        · exact Iff.rfl
      | _ => exact Iff.rfl
    | get key =>
      cases key with
      | pinAttempts k =>
        show (if k = kind then ph.load r else ph) = _ ↔ _
        split
        · exact hload r
        · exact Iff.rfl
      | _ => exact Iff.rfl
    | _ => exact Iff.rfl
  | _ => exact Iff.rfl

end

/-- **A command that neither takes nor leaves the gate of the PIN**, nor saves
its counter. -/
def Foreign (kind : PinKind) : AppCmd → Prop
  | .lockGate k => k ≠ kind
  | .unlockGate k => k ≠ kind
  | .store (.save (.pinAttempts k) _) => k ≠ kind
  | _ => True

theorem Calm.foreign {kind : PinKind} {c : AppCmd} (h : Calm c) : Foreign kind c := by
  unfold Calm at h
  unfold Foreign
  split at h
  · exact h.elim
  · exact h.elim
  · exact h.elim
  · exact h.elim
  · next hlock hunlock hverify hsave =>
    split
    · exact (hlock _ rfl).elim
    · exact (hunlock _ rfl).elim
    · exact (hsave _ _ rfl).elim
    · trivial

/-- **What the verification of a PIN puts** behind its gate. -/
inductive Behind (kind : PinKind) (pin hash : String) : AppCmd → Prop
  | clockSnapshot : Behind kind pin hash .clockSnapshot
  | acquireArgon2 : Behind kind pin hash .acquireArgon2
  | releaseArgon2 : Behind kind pin hash .releaseArgon2
  | verifyPin : Behind kind pin hash (.verifyPin pin hash)
  | store {c : StoreCmd} (h : ∀ k v, c = .save k v → k = .pinAttempts kind) :
    Behind kind pin hash (.store c)

theorem Behind.foreign {kind kind' : PinKind} {pin hash : String} (hk : kind' ≠ kind) {c : AppCmd}
    (h : Behind kind' pin hash c) : Foreign kind c := by
  cases h with
  | @store c h =>
    unfold Foreign
    split
    · next heq => cases heq
    · next heq => cases heq
    · next heq =>
      obtain rfl := AppCmd.store.inj heq
      rw [Key.pinAttempts.inj (h _ _ rfl)]
      exact hk
    · trivial
  | _ => trivial

/-- The phase of a thread that has done so much. -/
def phaseOf (kind : PinKind) (l : List AppAct) : Phase := l.foldr (fun e ph => ph.next kind e) .outside

section

variable [Crypto] {Z : Setting} {kind : PinKind} {t : Nat} {op : AppOp} {l : List AppAct}
  {α ε : Type}

/-- **The discipline of the gate of a PIN.** -/
def gateDiscipline (Z : Setting) (kind : PinKind) : Discipline (appThreads Z) where
  may _ _ l e := (phaseOf kind l).May kind e
  ends _ _ l _ := phaseOf kind l = .outside
  rely _ _ _ := True
  rely_refl _ _ := trivial
  rely_trans _ _ := trivial

omit [Crypto] in
/-- Outside the gate, what is foreign to it may be done. -/
theorem Phase.outside_foreign {c : AppCmd} (hc : Foreign kind c) (r : c.Reply) (s s' : App) :
    Phase.outside.May kind ⟨t, c, r, s, s'⟩ ∧
      Phase.outside.next kind ⟨t, c, r, s, s'⟩ = .outside := by
  cases c with
  | lockGate k => exact ⟨fun _ => rfl, if_neg hc⟩
  | unlockGate k => exact ⟨fun _ h => h, if_neg hc⟩
  | clockSnapshot => exact ⟨.inl rfl, rfl⟩
  | verifyPin pin hash => exact ⟨.inl rfl, rfl⟩
  | store c =>
    cases c with
    | save key v =>
      cases key with
      | pinAttempts k => exact ⟨fun h => absurd h hc, if_neg hc⟩
      | _ => exact ⟨trivial, rfl⟩
    | get key =>
      cases key with
      | pinAttempts k =>
        refine ⟨trivial, ?_⟩
        show (if k = kind then Phase.outside else .outside) = _
        rw [ite_self]
      | _ => exact ⟨trivial, rfl⟩
    | _ => exact ⟨trivial, rfl⟩
  | _ => exact ⟨trivial, rfl⟩

open Discipline

/-- **What is foreign to the gate** keeps its discipline, outside of it. -/
theorem keeps_foreign {p : Prog AppCmd.Reply ε α} (hp : p.Only (Foreign kind))
    (hl : phaseOf kind l = .outside) :
    (gateDiscipline Z kind).Keeps t op l p fun _ l' => phaseOf kind l' = .outside := by
  induction p generalizing l with
  | ret a => exact Keeps.ret hl
  | fail e => exact Keeps.fail hl
  | call c k ih =>
    refine Keeps.call fun r s s' _ _ => ?_
    obtain ⟨hmay, hnext⟩ := Phase.outside_foreign (t := t) hp.1 r s s'
    refine ⟨?_, ih r (hp.2 r) ?_⟩
    · show (phaseOf kind l).May kind _
      rw [hl]
      exact hmay
    · show (phaseOf kind l).next kind _ = _
      rw [hl]
      exact hnext

/-! ## The verification -/

/-- A command that leaves the phase, whatever it is. -/
theorem keeps_quiet {c : AppCmd} {k : c.Reply → Prog AppCmd.Reply ε α}
    {Q : Except ε α → List AppAct → Prop}
    (hmay : ∀ ph r s s', Phase.May kind ph ⟨t, c, r, s, s'⟩)
    (hnext : ∀ ph r s s', Phase.next kind ph ⟨t, c, r, s, s'⟩ = ph)
    (hk : ∀ r l', phaseOf kind l' = phaseOf kind l →
      (gateDiscipline Z kind).Keeps t op l' (k r) Q) :
    (gateDiscipline Z kind).Keeps t op l (.call c k) Q :=
  Keeps.call fun r s s' _ _ => ⟨hmay _ r s s', hk r _ (hnext _ r s s')⟩

/-- What an update of the counter makes of a phase, by its outcome. -/
structure Updated (kind : PinKind) (ph : Phase) (result : PinAttemptState → α)
    (x : Except Anyhow α) (l' : List AppAct) : Prop where
  ok : ∀ a, x = .ok a → ∃ stored : Option PinAttemptState, a = result (stored.getD {}) ∧
    phaseOf kind l' = (ph.load (.ok stored)).save (.ok ())
  error : ∀ e, x = .error e → (∃ e, phaseOf kind l' = ph.load (.error e)) ∨
    ∃ (stored : Option PinAttemptState) (e : String),
      phaseOf kind l' = (ph.load (.ok stored)).save (.error e)

/-- **A counter is loaded, updated and saved** under the lock of the store. -/
theorem keeps_update {ph : Phase} (hl : phaseOf kind l = ph)
    (update : PinAttemptState → PinAttemptState × α)
    (hsaves : ∀ stored : Option PinAttemptState,
      (ph.load (.ok stored)).Saves (update (stored.getD {})).1) :
    (gateDiscipline Z kind).Keeps t op l
      (storage (updatePinAttemptState kind fun state => (.save (update state).1, (update state).2)))
      fun x l' => ∃ y, x = .ok y ∧ Updated kind ph (fun state => (update state).2) y l' := by
  refine keeps_quiet (fun _ _ _ _ => trivial) (fun _ _ _ _ => rfl) fun _ l₁ h₁ => ?_
  have h₁ : phaseOf kind l₁ = ph := h₁.trans hl
  refine Keeps.call fun r s s' _ _ => ⟨trivial, ?_⟩
  have h₂ : ∀ r s s', phaseOf kind (⟨t, .store (.get (.pinAttempts kind)), r, s, s'⟩ :: l₁) =
      ph.load r := by
    intro r s s'
    show (if kind = kind then (phaseOf kind l₁).load r else _) = _
    rw [if_pos rfl, h₁]
  cases r with
  | error e =>
    refine keeps_quiet (fun _ _ _ _ => trivial) (fun _ _ _ _ => rfl) fun _ l₃ h₃ => ?_
    refine Keeps.ret ⟨_, rfl, ⟨fun a ha => ?_, fun _ _ => .inl ⟨e, h₃.trans (h₂ _ _ _)⟩⟩⟩
    cases ha
  | ok stored =>
    have hload := h₂ (.ok stored) s s'
    -- what is saved is what the phase allows
    have hupdate : ∀ st : PinAttemptState, (ph.load (.ok stored)).Saves (update st).1 →
        (stored.getD {} = st) → (gateDiscipline Z kind).Keeps t op
          (⟨t, .store (.get (.pinAttempts kind)), .ok stored, s, s'⟩ :: l₁)
          (keystore (do
            let r ← Prog.attempt (do
              savePinAttemptStateEntry kind (update st).1
              pure (update st).2)
            Prog.perform StoreCmd.releaseGuard
            Prog.ofExcept r) : AppProg (Except Anyhow α))
          fun x l' => ∃ y, x = .ok y ∧
            Updated kind ph (fun state => (update state).2) y l' := by
      intro st hst heq
      refine Keeps.call fun r' u u' _ _ => ⟨?_, ?_⟩
      · show kind = kind → (phaseOf kind (_ :: l₁)).Saves _
        rw [hload]
        exact fun _ => hst
      · have hsave : phaseOf kind (⟨t, .store (.save (.pinAttempts kind) (update st).1), r', u, u'⟩
            :: ⟨t, .store (.get (.pinAttempts kind)), .ok stored, s, s'⟩ :: l₁) =
            (ph.load (.ok stored)).save r' := by
          show (if kind = kind then Phase.save r' (phaseOf kind (_ :: l₁)) else _) = _
          rw [if_pos rfl, hload]
        cases r' with
        | ok u =>
          refine keeps_quiet (fun _ _ _ _ => trivial) (fun _ _ _ _ => rfl) fun _ l₃ h₃ => ?_
          refine Keeps.ret ⟨_, rfl, ⟨fun a ha => ⟨stored, ?_, h₃.trans hsave⟩, fun _ he => ?_⟩⟩
          · rw [heq]
            exact (Except.ok.inj ha).symm
          · cases he
        | error e =>
          refine keeps_quiet (fun _ _ _ _ => trivial) (fun _ _ _ _ => rfl) fun _ l₃ h₃ => ?_
          refine Keeps.ret ⟨_, rfl, ⟨fun a ha => ?_, fun _ _ =>
            .inr ⟨stored, e, h₃.trans hsave⟩⟩⟩
          cases ha
    cases stored with
    | none => exact hupdate {} (hsaves none) rfl
    | some st => exact hupdate st (hsaves (some st)) rfl

/-- **The look for a cooldown** frees the check where there is none. -/
theorem keeps_checkCooldown (hl : phaseOf kind l = .entered) :
    (gateDiscipline Z kind).Keeps t op l (checkCooldown kind) fun x l' =>
      ¬ (phaseOf kind l').Midway ∧ (x = .ok none → phaseOf kind l' = .free) := by
  refine Keeps.call fun r s s' _ _ => ⟨.inr (.inl hl), ?_⟩
  have hread : phaseOf kind (⟨t, .clockSnapshot, r, s, s'⟩ :: l) = Phase.entered.read r := by
    show (phaseOf kind l).read r = _
    rw [hl]
  cases r with
  | error e =>
    refine Keeps.fail ⟨?_, fun h => by cases h⟩
    rw [hread]
    exact fun h => h
  | ok clock =>
    show (gateDiscipline Z kind).Keeps t op _ (storage (updatePinAttemptState kind fun state =>
      (.save (activeCooldownRemainingMs state clock).1, (activeCooldownRemainingMs state clock).2)) >>=
        fun r => mapErr (keystoreError "set") r) _
    refine Keeps.bind (keeps_update hread (fun state => activeCooldownRemainingMs state clock)
      fun stored => rfl) ?_ ?_
    · rintro y l' ⟨x, hx, hu⟩
      obtain rfl := Except.ok.inj hx
      cases y with
      | ok retry =>
        obtain ⟨stored, rfl, hphase⟩ := hu.ok retry rfl
        have hphase : phaseOf kind l' =
            if (activeCooldownRemainingMs (stored.getD {}) clock).2 = none then .free
            else .settled := hphase
        refine Keeps.ret ⟨?_, fun h => ?_⟩
        · rw [hphase]
          split
          · exact fun h => h
          · exact fun h => h
        · rw [hphase, if_pos (Except.ok.inj h)]
      | error e =>
        refine Keeps.fail ⟨?_, fun h => by cases h⟩
        obtain ⟨e, h⟩ | ⟨stored, e, h⟩ := hu.error e rfl
        · rw [h]
          exact fun h => h
        · rw [h]
          exact fun h => h
    · rintro e l' ⟨x, hx, -⟩
      cases hx

/-- **A failure is recorded**, or lost. -/
theorem keeps_recordFailure (hl : phaseOf kind l = .failed) :
    (gateDiscipline Z kind).Keeps t op l (recordFailure kind) fun _ l' =>
      ¬ (phaseOf kind l').Midway := by
  refine Keeps.call fun r s s' _ _ => ⟨.inr (.inr hl), ?_⟩
  have hread : phaseOf kind (⟨t, .clockSnapshot, r, s, s'⟩ :: l) = Phase.failed.read r := by
    show (phaseOf kind l).read r = _
    rw [hl]
  cases r with
  | error e =>
    refine Keeps.fail ?_
    rw [hread]
    exact fun h => h
  | ok clock =>
    show (gateDiscipline Z kind).Keeps t op _ (storage (updatePinAttemptState kind fun state =>
      (.save (recordPinFailureState state clock).1, (recordPinFailureState state clock).2)) >>=
        fun r => mapErr (keystoreError "set") r) _
    refine Keeps.bind (keeps_update hread (fun state => recordPinFailureState state clock)
      fun stored => rfl) ?_ ?_
    · rintro y l' ⟨x, hx, hu⟩
      obtain rfl := Except.ok.inj hx
      cases y with
      | ok retry =>
        obtain ⟨stored, -, hphase⟩ := hu.ok retry rfl
        refine Keeps.ret ?_
        rw [hphase]
        exact fun h => h
      | error e =>
        refine Keeps.fail ?_
        obtain ⟨e, h⟩ | ⟨stored, e, h⟩ := hu.error e rfl
        · rw [h]
          exact fun h => h
        · rw [h]
          exact fun h => h
    · rintro e l' ⟨x, hx, -⟩
      cases hx

/-- A program of the store that saves no counter, when the verification is
over. -/
theorem keeps_settled {p : Prog StoreCmd.Reply ε α} (hp : p.Only Apart)
    (hl : phaseOf kind l = .settled) :
    (gateDiscipline Z kind).Keeps t op l (p.hoist AppCmd.store fun _ r => r) fun _ l' =>
      phaseOf kind l' = .settled := by
  induction p generalizing l with
  | ret a => exact Keeps.ret hl
  | fail e => exact Keeps.fail hl
  | call c next ih =>
    refine Keeps.call fun r s s' _ _ => ?_
    have hmay : Phase.settled.May kind ⟨t, .store c, r, s, s'⟩ ∧
        Phase.settled.next kind ⟨t, .store c, r, s, s'⟩ = .settled := by
      cases c with
      | save key v =>
        cases key with
        | pinAttempts k => exact hp.1.elim
        | _ => exact ⟨trivial, rfl⟩
      | get key =>
        cases key with
        | pinAttempts k =>
          refine ⟨trivial, ?_⟩
          show (if k = kind then Phase.settled else .settled) = _
          rw [ite_self]
        | _ => exact ⟨trivial, rfl⟩
      | _ => exact ⟨trivial, rfl⟩
    refine ⟨?_, ih r (hp.2 r) ?_⟩
    · show (phaseOf kind l).May kind _
      rw [hl]
      exact hmay.1
    · show (phaseOf kind l).next kind _ = _
      rw [hl]
      exact hmay.2

/-- **The check of a PIN**, and what is recorded of it. -/
theorem keeps_verifyAndRecord (hl : phaseOf kind l = .free) (pin pinHash : String) :
    (gateDiscipline Z kind).Keeps t op l (verifyAndRecord kind pin pinHash) fun _ l' =>
      ¬ (phaseOf kind l').Midway := by
  refine keeps_quiet (fun _ _ _ _ => trivial) (fun _ _ _ _ => rfl) fun _ l₁ h₁ => ?_
  refine Keeps.call fun r s s' _ _ => ⟨.inr (h₁.trans hl), ?_⟩
  have hcheck : phaseOf kind (⟨t, .verifyPin pin pinHash, r, s, s'⟩ :: l₁) = Phase.free.check r := by
    show (phaseOf kind l₁).check r = _
    rw [h₁, hl]
  refine keeps_quiet (fun _ _ _ _ => trivial) (fun _ _ _ _ => rfl) fun _ l₃ h₃ => ?_
  have h₃ : phaseOf kind l₃ = Phase.free.check r := h₃.trans hcheck
  match r with
  | .error e =>
    refine Keeps.fail ?_
    rw [h₃]
    exact fun h => h
  | .ok true =>
    have hclear : (StoreProg.withStorageGuard (updatePinAttemptState kind
        fun _ => (PinAttemptStateWrite.clear, ()))).Only Apart := by
      refine apart_withStorageGuard (Only.bind (Only.bind (apart_getEntry _) fun stored => ?_)
        fun state => Only.bind (Only.mapError (apart_deleteEntry _)) fun _ => trivial)
      cases stored <;> trivial
    have hstored : (gateDiscipline Z kind).Keeps t op l₃
        (storage (updatePinAttemptState kind fun _ => (PinAttemptStateWrite.clear, ())))
        fun x l' => ∃ y, x = .ok y ∧ phaseOf kind l' = .settled :=
      Keeps.attempt ((keeps_settled hclear h₃).mono fun y l' h => ⟨y, rfl, h⟩)
    show (gateDiscipline Z kind).Keeps t op l₃ (storage (updatePinAttemptState kind
      fun _ => (PinAttemptStateWrite.clear, ())) >>= fun r =>
        (mapErr (keystoreError "delete") r >>= fun _ =>
          (pure .verified : AppProg PinVerificationOutcome))) _
    refine Keeps.bind hstored ?_ ?_
    · rintro y l' ⟨x, hx, hphase⟩
      have hsettled : ¬ (phaseOf kind l').Midway := by
        rw [hphase]
        exact fun h => h
      cases y with
      | ok u => exact Keeps.ret hsettled
      | error e => exact Keeps.fail hsettled
    · rintro e l' ⟨x, hx, -⟩
      cases hx
  | .ok false =>
    show (gateDiscipline Z kind).Keeps t op l₃ (recordFailure kind >>= _) _
    refine Keeps.bind (keeps_recordFailure h₃) (fun retry l' h => ?_) fun _ _ h => h
    cases retry with
    | none => exact Keeps.ret h
    | some retry => exact Keeps.ret h

/-- **The verification of a PIN**, its gate held. -/
theorem keeps_verifyPinWithCooldown (hl : phaseOf kind l = .outside) (pin pinHash : String) :
    (gateDiscipline Z kind).Keeps t op l (verifyPinWithCooldown kind pin pinHash) fun _ l' =>
      phaseOf kind l' = .outside := by
  refine Keeps.call fun r s s' _ _ => ⟨fun _ => hl, ?_⟩
  have henter : phaseOf kind (⟨t, .lockGate kind, r, s, s'⟩ :: l) = .entered := if_pos rfl
  refine Keeps.attempt_bind (M := fun _ l' => ¬ (phaseOf kind l').Midway) ?_ fun x l' hx => ?_
  · refine Keeps.bind (keeps_checkCooldown henter) (fun retry l' h => ?_) fun _ _ h => h.1
    cases retry with
    | some retry => exact Keeps.ret h.1
    | none => exact keeps_verifyAndRecord (h.2 rfl) pin pinHash
  · refine Keeps.call fun r s s' _ _ => ⟨fun _ => hx, ?_⟩
    exact Keeps.ofExcept (if_pos rfl)

/-! ## The programs -/

section

omit [Crypto]

variable {pin pinHash : String}

theorem only_mapErr {P : AppCmd → Prop} {f : ε → AppError} {x : Except ε α} :
    (mapErr f x).Only P := by
  cases x <;> trivial

theorem behind_updatePinAttemptState {update : PinAttemptState → PinAttemptStateWrite × α} :
    (storage (updatePinAttemptState kind update)).Only (Behind kind pin pinHash) := by
  refine Only.attempt (Only.hoist (Q := Behind kind pin pinHash) (Only.bind
    (Only.perform (.store nofun)) fun _ => Only.bind (Only.attempt (Only.bind (Only.bind (Only.bind (Only.perform (.store nofun))
      ?_) ?_) ?_)) fun _ => Only.bind (Only.perform (.store nofun)) fun _ => Only.ofExcept))
  · intro r
    cases r <;> trivial
  · intro stored
    cases stored <;> trivial
  · intro state
    generalize update state = written
    cases written with
    | mk write result =>
      cases write with
      | save state =>
        refine Only.bind (Only.mapError (Only.bind (Only.perform (.store ?_)) fun r => ?_))
          fun _ => trivial
        · intro k v heq
          exact (StoreCmd.save.inj heq).1.symm
        · cases r <;> trivial
      | clear =>
        refine Only.bind (Only.mapError (Only.bind (Only.perform (.store nofun)) fun r => ?_))
          fun _ => trivial
        cases r <;> trivial

theorem behind_readMonotonicClock : readMonotonicClock.Only (Behind kind pin pinHash) :=
  Only.bind (Only.perform .clockSnapshot) fun _ => only_mapErr

theorem behind_checkCooldown (pin pinHash : String) :
    (checkCooldown kind).Only (Behind kind pin pinHash) :=
  Only.bind behind_readMonotonicClock fun _ => Only.bind behind_updatePinAttemptState
    fun _ => only_mapErr

theorem behind_recordFailure : (recordFailure kind).Only (Behind kind pin pinHash) :=
  Only.bind behind_readMonotonicClock fun _ => Only.bind behind_updatePinAttemptState
    fun _ => only_mapErr

theorem behind_verifyAndRecord :
    (verifyAndRecord kind pin pinHash).Only (Behind kind pin pinHash) := by
  refine Only.bind (Only.bind (Only.perform .acquireArgon2) fun _ =>
    Only.bind (Only.perform .verifyPin) fun _ => Only.bind (Only.perform .releaseArgon2)
      fun _ => trivial) fun _ => Only.bind only_mapErr fun _ => Only.ite
        (Only.bind behind_updatePinAttemptState fun _ => Only.bind only_mapErr fun _ => trivial)
        (Only.bind behind_recordFailure fun retry => ?_)
  cases retry <;> trivial

/-- The verification of the other PIN is foreign to this one. -/
theorem foreign_verifyPinWithCooldown {kind' : PinKind} (h : kind' ≠ kind) (pin pinHash : String) :
    (verifyPinWithCooldown kind' pin pinHash).Only (Foreign kind) := by
  refine Only.bind (Only.perform h) fun _ => Only.bind (Only.attempt ?_) fun _ =>
    Only.bind (Only.perform h) fun _ => Only.ofExcept
  refine Only.bind (Only.mono (behind_checkCooldown pin pinHash) fun _ => Behind.foreign h)
    fun retry => ?_
  cases retry with
  | some retry => trivial
  | none => exact Only.mono behind_verifyAndRecord fun _ => Behind.foreign h

end

/-- The verification of any PIN. -/
theorem keeps_verify (kind' : PinKind) (hl : phaseOf kind l = .outside) (pin pinHash : String) :
    (gateDiscipline Z kind).Keeps t op l (verifyPinWithCooldown kind' pin pinHash) fun _ l' =>
      phaseOf kind l' = .outside := by
  by_cases h : kind' = kind
  · subst h
    exact keeps_verifyPinWithCooldown hl pin pinHash
  · exact keeps_foreign (foreign_verifyPinWithCooldown h pin pinHash) hl

/-- **Every operation but the two that check a PIN** leaves the PINs alone. -/
theorem AppOp.program_calm {op : AppOp} (ha : ∀ requestId pin, op ≠ .approveRequest requestId pin)
    (hr : ∀ pin4 pin6, op ≠ .authorizePairingReplacement pin4 pin6) : op.program.Only Calm := by
  cases op with
  | approveRequest requestId pin => exact absurd rfl (ha requestId pin)
  | authorizePairingReplacement pin4 pin6 => exact absurd rfl (hr pin4 pin6)
  | setupPairingCode =>
    exact Only.bind (calm_of_stays setupPairingCode_stays rfl rfl) fun _ => trivial
  | setupComplete payload => exact calm_setupComplete payload
  | checkSetup => exact Only.bind calm_checkSetup fun _ => trivial
  | cancelPairingReplacement =>
    exact calm_of_stays AppState.cancelPairingReplacement_stays rfl rfl
  | biometricUnlock => exact calm_biometricUnlock
  | lock => exact calm_of_stays lock_stays rfl rfl
  | setAppForeground foreground =>
    exact calm_of_stays (setAppForeground_stays foreground) rfl rfl
  | pendingRequest => exact Only.bind (calm_of_stays pendingRequest_stays rfl rfl) fun _ => trivial
  | denyRequest requestId => exact calm_of_stays (denyRequest_stays requestId) rfl rfl
  | serve conn streams =>
    exact Only.bind (Only.perform trivial) fun _ => calm_serveStreams conn _ _ streams
  | task task => exact calm_of_stays task.program_stays rfl rfl

/-- **A discipline about PINs**: what has nothing to do with them may be put, and
they may be verified, a condition on the past being kept. -/
structure AboutPins (D : Discipline (appThreads Z)) (I : List AppAct → Prop) : Prop where
  calm : ∀ {ε α : Type} {p : Prog AppCmd.Reply ε α} {t : Nat} {op : AppOp} {l : List AppAct},
    p.Only Calm → I l → D.Keeps t op l p fun _ l' => I l'
  verify : ∀ {t : Nat} {op : AppOp} {l : List AppAct} (kind : PinKind) (pin pinHash : String),
    I l → D.Keeps t op l (verifyPinWithCooldown kind pin pinHash) fun _ l' => I l'

namespace AboutPins

variable {D : Discipline (appThreads Z)} {I : List AppAct → Prop} (h : AboutPins D I)

include h

theorem approveRequest (requestId pin : String) (hl : I l) :
    D.Keeps t op l (approveRequest requestId pin) fun _ l' => I l' := by
  refine Keeps.bind (h.calm (calm_of_stays ensureActiveSession_stays rfl rfl) hl)
    (fun _ l₁ h₁ => ?_) fun _ _ h => h
  refine Keeps.bind (h.calm (Only.perform trivial) h₁) (fun slot l₂ h₂ => ?_) fun _ _ h => h
  refine Keeps.bind (h.calm Only.ofExcept h₂) (fun pending l₃ h₃ => ?_) fun _ _ h => h
  refine Keeps.bind (h.calm (calm_of_stays unlockedSecrets_stays rfl rfl) h₃)
    (fun secrets l₄ h₄ => ?_) fun _ _ h => h
  refine Keeps.bind (h.calm Only.ofExcept h₄) (fun _ l₅ h₅ => ?_) fun _ _ h => h
  refine Keeps.bind (h.verify _ pin _ h₅) (fun outcome l₆ h₆ => ?_) fun _ _ h => h
  cases outcome with
  | verified => exact h.calm (calm_of_stays (approveVerified_stays _ _) rfl rfl) h₆
  | incorrect => exact Keeps.fail h₆
  | cooldownStarted ms => exact h.calm (calm_of_stays (denyForCooldown_stays _ _ _) rfl rfl) h₆
  | cooldownActive ms => exact h.calm (calm_of_stays (denyForCooldown_stays _ _ _) rfl rfl) h₆

theorem verifyReplacementPin (kind : PinKind) (pin pinHash : String) (hl : I l) :
    D.Keeps t op l (verifyReplacementPin kind pin pinHash) fun _ l' => I l' := by
  refine Keeps.bind (h.verify kind pin pinHash hl) (fun outcome l₁ h₁ => ?_) fun _ _ h => h
  cases outcome with
  | verified => exact Keeps.ret h₁
  | incorrect => exact Keeps.fail h₁
  | cooldownStarted ms =>
    exact h.calm (Only.bind (calm_of_stays expireSession_stays rfl rfl) fun _ => Only.fail) h₁
  | cooldownActive ms => exact Keeps.fail h₁

theorem authorizePairingReplacement (pin4 pin6 : String) (hl : I l) :
    D.Keeps t op l (authorizePairingReplacement pin4 pin6) fun _ l' => I l' := by
  refine Keeps.bind (h.calm (calm_of_stays AppState.beginPairingReplacement_stays rfl rfl) hl)
    (fun generation l₁ h₁ => ?_) fun _ _ h => h
  refine Keeps.bind (h.calm Only.ofExcept h₁) (fun _ l₂ h₂ => ?_) fun _ _ h => h
  refine Keeps.bind (h.calm Only.ofExcept h₂) (fun _ l₃ h₃ => ?_) fun _ _ h => h
  refine Keeps.bind (h.calm (calm_of_stays (refreshApprovalKeyAuth_stays _ _) rfl rfl) h₃)
    (fun _ l₄ h₄ => ?_) fun _ _ h => h
  refine Keeps.bind (h.calm calm_loadSessionSecrets h₄) (fun stored l₅ h₅ => ?_) fun _ _ h => h
  refine Keeps.bind (h.verifyReplacementPin .fourDigit pin4 _ h₅) (fun _ l₆ h₆ => ?_)
    fun _ _ h => h
  refine Keeps.bind (h.verifyReplacementPin .sixDigit pin6 _ h₆) (fun _ l₇ h₇ => ?_)
    fun _ _ h => h
  exact h.calm (calm_of_stays (AppState.completePairingReplacement_stays _) rfl rfl) h₇

/-- **Every operation keeps such a discipline.** -/
theorem program (op' : AppOp) (hl : I l) : D.Keeps t op l op'.program fun _ l' => I l' := by
  cases op' with
  | approveRequest requestId pin => exact h.approveRequest requestId pin hl
  | authorizePairingReplacement pin4 pin6 => exact h.authorizePairingReplacement pin4 pin6 hl
  | _ => exact h.calm (AppOp.program_calm nofun nofun) hl

end AboutPins

theorem gateDiscipline_valid (Z : Setting) (kind : PinKind) : (gateDiscipline Z kind).Valid where
  keeps _ op := by
    have h : AboutPins (gateDiscipline Z kind) fun l => phaseOf kind l = .outside :=
      ⟨fun hp hl => keeps_foreign (Only.mono hp fun _ => Calm.foreign) hl,
        fun kind' pin pinHash hl => keeps_verify kind' hl pin pinHash⟩
    exact h.program op rfl
  put _ _ _ := trivial
  start _ := trivial
  env _ := trivial

end

end Phone
