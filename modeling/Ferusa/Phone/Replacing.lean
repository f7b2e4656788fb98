import Ferusa.Phone.Entering
import Ferusa.Phone.SlotKept
import Ferusa.Phone.Tracked

/-!
# Who may replace a pairing

A setup on a phone that is set up already asks for an authorization: that
both PINs of the pairing there is were given, in the session that goes
on, and that nothing else was begun since. It is used up at the start of
the setup; what the setup stages may become the active pairing much
later, after the handshake, or through a message that resumes it.

So three acts have to be brought together. A pairing is staged by a
setup that was entitled to; the authorization it used was given by a
thread that had checked both PINs, and nobody has touched it in between;
and whatever becomes the active pairing was staged.
-/

namespace Phone

open Prog AppProg

/-! ## The pointers that are saved

`beginPendingPairing` saves the staging pointer, `storePendingPairingGeneration`
the pending one, `commitPendingGeneration` the committed one, and
`activateGeneration` the two others. Nothing else saves any. -/

/-- **Of the pointers, the command saves none but these**, and a record only if
the pending one is among them. -/
structure PointsOnly (pointers : List Pointer) (c : StoreCmd) : Prop where
  points : ∀ p id, c = .save (.pointer p) id → p ∈ pointers
  records : ∀ id generation, c = .save (.generation id) generation → .pending ∈ pointers

theorem PointsOnly.mono {pointers pointers' : List Pointer} {c : StoreCmd}
    (hc : PointsOnly pointers c) (h : pointers ⊆ pointers') : PointsOnly pointers' c :=
  ⟨fun p id hsave => h (hc.points p id hsave), fun id generation hsave =>
    h (hc.records id generation hsave)⟩

section

variable {α : Type} {pointers : List Pointer}

/-- Whatever is put, other than to save something. -/
theorem points_perform {c : StoreCmd} (h : ∀ k value, c ≠ .save k value) :
    (Prog.perform c : Prog StoreCmd.Reply Anyhow _).Only (PointsOnly pointers) :=
  Only.perform ⟨fun _ _ hc => absurd hc (h _ _), fun _ _ hc => absurd hc (h _ _)⟩

theorem points_fallible {message : String} {x : Except String α} :
    (StoreProg.fallible message x).Only (PointsOnly pointers) := by
  cases x <;> trivial

theorem points_getEntry (k : Key) : (getEntry k).Only (PointsOnly pointers) :=
  Only.bind (points_perform nofun) fun _ => points_fallible

theorem points_deleteEntry (k : Key) : (deleteEntry k).Only (PointsOnly pointers) :=
  Only.bind (points_perform nofun) fun _ => points_fallible

theorem points_loadGenerationId (p : Pointer) : (loadGenerationId p).Only (PointsOnly pointers) :=
  Only.mapError (points_getEntry _)

theorem points_saveGenerationId {p : Pointer} (h : p ∈ pointers) (id : Uuid) :
    (saveGenerationId p id).Only (PointsOnly pointers) := by
  refine Only.mapError (Only.bind (Only.perform ⟨fun q id' hc => ?_, fun _ _ hc => ?_⟩) fun _ =>
    points_fallible)
  · obtain rfl := Key.pointer.inj (StoreCmd.save.inj hc).1
    exact h
  · exact nomatch (StoreCmd.save.inj hc).1

theorem points_signApproval (keyAlias : ApprovalAlias) (payload : String) :
    (signApproval keyAlias payload).Only (PointsOnly pointers) :=
  Only.bind (points_perform nofun) fun _ => points_fallible

theorem points_generateApprovalKey (keyAlias : ApprovalAlias) :
    (generateApprovalKey keyAlias).Only (PointsOnly pointers) :=
  Only.bind (points_perform nofun) fun _ => points_fallible

theorem points_removeGeneration (id : Uuid) : (removeGeneration id).Only (PointsOnly pointers) :=
  Only.bind (Only.mapError (Only.bind (points_perform nofun) fun _ => points_fallible)) fun _ =>
    Only.mapError (points_deleteEntry _)

theorem points_cleanupRetiringGeneration :
    cleanupRetiringGeneration.Only (PointsOnly pointers) := by
  refine Only.bind (points_loadGenerationId _) fun retiring => ?_
  cases retiring with
  | none => trivial
  | some retiring =>
    refine Only.bind (points_loadGenerationId _) fun _ => Only.ite trivial ?_
    exact Only.bind (points_removeGeneration _) fun _ => Only.mapError (points_deleteEntry _)

theorem points_cleanupActivationMetadata (id : Uuid) :
    (cleanupActivationMetadata id).Only (PointsOnly pointers) := by
  refine Only.bind (Only.each fun p => ?_) fun _ =>
    Only.bind (Only.attempt points_cleanupRetiringGeneration) fun _ => trivial
  exact Only.bind (points_loadGenerationId p) fun _ =>
    Only.ite (Only.mapError (points_deleteEntry _)) trivial

theorem points_finalizeActiveActivation : finalizeActiveActivation.Only (PointsOnly pointers) := by
  refine Only.bind (points_loadGenerationId _) fun active =>
    Only.bind (points_loadGenerationId _) fun committed => ?_
  cases active with
  | none => trivial
  | some active =>
    cases committed with
    | none => trivial
    | some committed => exact Only.ite (points_cleanupActivationMetadata _) trivial

theorem points_clearUncommittedPending : clearUncommittedPending.Only (PointsOnly pointers) := by
  refine Only.bind points_finalizeActiveActivation fun _ =>
    Only.bind (points_loadGenerationId _) fun _ => Only.ite trivial ?_
  refine Only.bind (points_loadGenerationId _) fun _ => Only.bind (Only.fold fun _ p => ?_) fun _ =>
    Only.bind (Only.each fun _ => Only.ite (points_removeGeneration _) trivial) fun _ =>
      Only.each fun _ => Only.mapError (points_deleteEntry _)
  refine Only.bind (points_loadGenerationId p) fun stored => ?_
  cases stored <;> trivial

theorem points_beginPendingPairing (h : .staging ∈ pointers) (id : Uuid) :
    (beginPendingPairing id).Only (PointsOnly pointers) :=
  Only.bind points_finalizeActiveActivation fun _ => Only.bind (points_loadGenerationId _) fun _ =>
    Only.ite trivial (Only.bind points_clearUncommittedPending fun _ =>
      points_saveGenerationId h _)

theorem points_loadGeneration (id : Uuid) : (loadGeneration id).Only (PointsOnly pointers) := by
  refine Only.bind (Only.mapError (points_getEntry _)) fun stored => ?_
  cases stored with
  | none => trivial
  | some generation => exact Only.ite trivial trivial

theorem points_abortUnstartedPairing (id : Uuid) :
    (abortUnstartedPairing id).Only (PointsOnly pointers) := by
  refine Only.bind (Only.each fun p => ?_) fun _ => points_clearUncommittedPending
  refine Only.bind (points_loadGenerationId p) fun stored => ?_
  cases stored with
  | none => trivial
  | some stored => exact Only.ite trivial trivial

theorem points_retireActive (h : .retiring ∈ pointers) (oldActive : Option Uuid) :
    (retireActive oldActive).Only (PointsOnly pointers) := by
  cases oldActive with
  | none => trivial
  | some oldActive =>
    exact Only.bind (points_loadGenerationId _) fun _ =>
      Only.bind (Only.ite (Only.mapError points_cleanupRetiringGeneration) trivial) fun _ =>
        points_saveGenerationId h _

theorem points_flipActive (hr : .retiring ∈ pointers) (ha : .active ∈ pointers) (committed : Uuid) :
    (flipActive committed).Only (PointsOnly pointers) := by
  refine Only.bind (points_loadGenerationId _) fun _ => Only.ite trivial ?_
  refine Only.bind (points_retireActive hr _) fun _ =>
    Only.bind (Only.mapError (points_saveGenerationId ha _)) fun _ => Only.each fun kind => ?_
  exact Only.bind (Only.attempt (points_deleteEntry _)) fun _ => trivial

theorem points_pairingGenerationCliNodeId (id : Uuid) :
    (pairingGenerationCliNodeId id).Only (PointsOnly pointers) := by
  refine Only.bind points_finalizeActiveActivation fun _ => Only.bind (Only.fold fun _ p => ?_)
    fun _ => Only.ite (Only.bind (points_loadGeneration _) fun _ => trivial) trivial
  exact Only.bind (points_loadGenerationId p) fun _ => trivial

variable [Crypto]

theorem points_loadMetadataValidatedGeneration (id : Uuid) :
    (loadMetadataValidatedGeneration id).Only (PointsOnly pointers) :=
  Only.bind (points_loadGeneration id) fun _ => Only.bind Only.ofExcept fun _ => trivial

theorem points_storePendingPairingGeneration (h : .pending ∈ pointers) (id : Uuid)
    (approvalAlias : ApprovalAlias) (der : Bytes) (share : Bytes32) (pin4Hash pin6Hash : String)
    (cliNodeId : Bytes32) :
    (storePendingPairingGeneration id approvalAlias der share pin4Hash pin6Hash
      cliNodeId).Only (PointsOnly pointers) := by
  refine Only.bind (points_loadGenerationId _) fun _ => Only.ite trivial (Only.ite trivial ?_)
  refine Only.bind Only.ofExcept fun _ => Only.bind ?_ fun _ => Only.bind
    (Only.mapError (points_loadMetadataValidatedGeneration _)) fun _ =>
    points_saveGenerationId h _
  refine Only.mapError (Only.bind (Only.perform ⟨fun p id' hc => ?_, fun _ _ _ => h⟩) fun _ =>
    points_fallible)
  exact nomatch (StoreCmd.save.inj hc).1

theorem points_commitPendingGeneration (h : .committed ∈ pointers) (id : Uuid) :
    (commitPendingGeneration id).Only (PointsOnly pointers) := by
  have hload : ∀ message : String, (StoreProg.context message
      (loadMetadataValidatedGeneration id)).Only (PointsOnly pointers) :=
    fun _ => Only.mapError (points_loadMetadataValidatedGeneration _)
  refine Only.bind (points_loadGenerationId _) fun _ => Only.ite
    (Only.bind (hload _) fun _ => points_finalizeActiveActivation) ?_
  refine Only.bind (points_loadGenerationId _) fun _ => Only.ite
    (Only.bind (hload _) fun _ => trivial) ?_
  exact Only.bind (points_loadGenerationId _) fun _ => Only.ite trivial
    (Only.bind (hload _) fun _ => points_saveGenerationId h _)

theorem points_activateGeneration (hr : .retiring ∈ pointers) (ha : .active ∈ pointers)
    (id : Uuid) : (activateGeneration id).Only (PointsOnly pointers) := by
  have hload : ∀ (message : String) (id : Uuid), (StoreProg.context message
      (loadMetadataValidatedGeneration id)).Only (PointsOnly pointers) :=
    fun _ _ => Only.mapError (points_loadMetadataValidatedGeneration _)
  refine Only.bind (points_loadGenerationId _) fun _ => Only.ite
    (Only.bind (hload _ _) fun _ => Only.bind points_finalizeActiveActivation fun _ => trivial) ?_
  refine Only.bind (points_loadGenerationId _) fun pending => ?_
  cases pending with
  | none => trivial
  | some pending =>
    refine Only.bind (points_loadGenerationId _) fun committed => ?_
    cases committed with
    | none => trivial
    | some committed =>
      exact Only.ite trivial (Only.bind (hload _ _) fun _ => Only.bind (points_flipActive hr ha _)
        fun _ => Only.bind (points_cleanupActivationMetadata _) fun _ => trivial)

theorem points_loadSecrets : loadSecrets.Only (PointsOnly pointers) := by
  refine Only.bind (Only.attempt points_cleanupRetiringGeneration) fun _ =>
    Only.bind (points_loadGenerationId _) fun active => ?_
  cases active with
  | none => trivial
  | some active =>
    refine Only.mapError (Only.bind (points_loadMetadataValidatedGeneration _) fun _ =>
      Only.bind ?_ fun _ => trivial)
    exact Only.bind Only.ofExcept fun _ => Only.bind (Only.mapError (points_signApproval _ _))
      fun _ => Only.ite trivial trivial

theorem points_isSetupInStore : isSetupInStore.Only (PointsOnly pointers) := by
  refine Only.bind points_finalizeActiveActivation fun _ =>
    Only.bind (Only.attempt points_cleanupRetiringGeneration) fun _ =>
      Only.bind (points_loadGenerationId _) fun active => ?_
  cases active with
  | none => trivial
  | some active =>
    exact Only.bind (Only.mapError (points_loadMetadataValidatedGeneration _)) fun _ => trivial


end

/-! ## What the programs save

Whatever has nothing to do with an authorization, and the pointers that it
may save. -/

/-- **A command that is modest**: it neither gives nor takes an authorization,
and of the pointers it saves none but these. -/
structure Modest (pointers : List Pointer) (c : AppCmd) : Prop where
  part : c.part ≠ .authorization
  points : ∀ c', c = .store c' → PointsOnly pointers c'

theorem Modest.mono {pointers pointers' : List Pointer} {c : AppCmd} (hc : Modest pointers c)
    (h : pointers ⊆ pointers') : Modest pointers' c :=
  ⟨hc.part, fun c' heq => (hc.points c' heq).mono h⟩

section

variable {α ε : Type} {pointers : List Pointer}

theorem modest_perform {c : AppCmd} (ha : c.part ≠ .authorization) (hs : ∀ c', c ≠ .store c') :
    (Prog.perform c : Prog AppCmd.Reply ε _).Only (Modest pointers) :=
  Only.perform ⟨ha, fun c' hc => absurd hc (hs c')⟩

/-- What has to do neither with an authorization nor with the store. -/
theorem modest_of_stays {parts : List Part} {p : Prog AppCmd.Reply ε α} (hp : Stays parts p)
    (ha : parts.contains .authorization = false) (hs : parts.contains .store = false) :
    p.Only (Modest pointers) := by
  refine Only.mono hp fun c hc => ⟨fun h => ?_, fun c' heq => ?_⟩
  · exact Bool.false_ne_true (ha.symm.trans (List.contains_iff_mem.mpr (h ▸ hc)))
  · subst heq
    constructor <;> rintro _ _ rfl <;>
      exact absurd (List.contains_iff_mem.mpr hc) (Bool.eq_false_iff.mp hs)

theorem modest_hoist {p : Prog StoreCmd.Reply ε α} (hp : p.Only (PointsOnly pointers)) :
    (p.hoist AppCmd.store fun _ r => r : Prog AppCmd.Reply ε α).Only (Modest pointers) := by
  refine Only.hoist (Only.mono hp fun c hc => ⟨?_, fun c' heq => AppCmd.store.inj heq ▸ hc⟩)
  cases c <;> nofun

theorem points_withStorageGuard {p : StoreProg α} (hp : p.Only (PointsOnly pointers)) :
    (StoreProg.withStorageGuard p).Only (PointsOnly pointers) :=
  Only.bind (points_perform nofun) fun _ => Only.bind (Only.attempt hp) fun _ =>
    Only.bind (points_perform nofun) fun _ => Only.ofExcept

theorem modest_storage {p : StoreProg α} (hp : p.Only (PointsOnly pointers)) :
    (storage p).Only (Modest pointers) :=
  Only.attempt (modest_hoist (points_withStorageGuard hp))

theorem modest_mapErr {f : ε → AppError} {x : Except ε α} : (mapErr f x).Only (Modest pointers) :=
  modest_of_stays stays_mapErr rfl rfl

theorem modest_peerStorage {message : String} {p : StoreProg α}
    (hp : p.Only (PointsOnly pointers)) :
    (PeerProg.storage message p).Only (Modest pointers) :=
  Only.mapError (modest_hoist (points_withStorageGuard hp))

theorem modest_request {message : String} {c : OutsideCmd} {h : c.Reply = Except String α} :
    (PeerProg.request message c h).Only (Modest pointers) := by
  refine Only.bind (modest_of_stays (stays_ask c) rfl rfl) fun r => ?_
  cases cast h r <;> trivial

theorem modest_expect {stream : Stream} {name : String} {expected : FerusaMessage} :
    (PeerProg.expect stream name expected).Only (Modest pointers) :=
  Only.bind modest_request fun _ => Only.ite trivial trivial

theorem modest_abandonPairing (id : Uuid) (error : AppError) :
    (abandonPairing id error : AppProg α).Only (Modest pointers) :=
  Only.bind (modest_storage (points_abortUnstartedPairing id)) fun _ => trivial

variable [Crypto]

theorem modest_loadSessionSecrets : loadSessionSecrets.Only (Modest pointers) := by
  refine Only.bind (modest_storage points_loadSecrets) fun r => ?_
  cases r with
  | ok stored => trivial
  | error e =>
    exact Only.bind (modest_of_stays (handleSignedResponseError_stays _) rfl rfl)
      fun _ => trivial

theorem modest_checkSetup : checkSetup.Only (Modest pointers) :=
  Only.bind (modest_storage points_isSetupInStore) fun _ => Only.bind modest_mapErr fun _ =>
    Only.bind (Only.ite (modest_perform nofun nofun) trivial) fun _ => trivial

theorem modest_stagePairing (hs : .staging ∈ pointers) (hp : .pending ∈ pointers)
    (pin4Hash pin6Hash : String) (cliNodeId : Bytes32) :
    (stagePairing pin4Hash pin6Hash cliNodeId).Only (Modest pointers) := by
  refine Only.bind (modest_perform nofun nofun) fun id =>
    Only.bind (modest_storage (points_beginPendingPairing hs id)) fun _ =>
      Only.bind modest_mapErr fun _ =>
        Only.bind (Only.attempt (modest_hoist (points_generateApprovalKey _))) fun generated => ?_
  cases generated with
  | error e => exact modest_abandonPairing _ _
  | ok der =>
    refine Only.bind (modest_perform nofun nofun) fun share => Only.bind
      (modest_storage (points_storePendingPairingGeneration hp _ _ _ _ _ _ _)) fun stored => ?_
    cases stored with
    | error e => exact modest_abandonPairing _ _
    | ok u => trivial

theorem modest_signReady (staged : StagedPairing) : (signReady staged).Only (Modest pointers) := by
  refine Only.bind (Only.attempt (modest_of_stays (ensureApprovalKeyAuth_stays _) rfl rfl))
    fun authenticated => ?_
  cases authenticated with
  | error e => exact modest_abandonPairing _ e
  | ok u =>
    refine Only.bind (modest_of_stays (stays_signApproval _ _) rfl rfl) fun signed => ?_
    cases signed with
    | error e =>
      exact Only.bind (modest_of_stays (handleSignedResponseError_stays _) rfl rfl)
        fun error => modest_abandonPairing _ error
    | ok signature => exact Only.ite trivial (modest_abandonPairing _ _)

/-- The pointers that are saved once the desktop has the pairing. -/
def resumes : List Pointer := [.committed, .retiring, .active]

theorem modest_pairWithCli (staged : StagedPairing) (readySignature : Bytes) (code : Nat) :
    (pairWithCli staged readySignature code).Only (Modest resumes) := by
  refine Only.bind modest_request fun _ => Only.bind modest_request fun _ =>
    Only.bind modest_request fun _ => Only.bind modest_expect fun _ => ?_
  refine Only.bind modest_request fun _ => Only.bind modest_expect fun _ =>
    Only.bind (modest_peerStorage (points_commitPendingGeneration (by decide) _)) fun _ => ?_
  refine Only.bind modest_request fun _ => Only.bind modest_expect fun _ =>
    Only.bind (modest_peerStorage (points_activateGeneration (by decide) (by decide) _)) fun _ => ?_
  exact Only.bind modest_request fun _ => Only.bind modest_request fun _ =>
    Only.bind modest_request fun _ => modest_perform nofun nofun

theorem modest_biometricUnlock : biometricUnlock.Only (Modest pointers) := by
  refine Only.bind (modest_of_stays AppState.authenticationGeneration_stays rfl rfl) fun _ =>
    Only.bind (modest_of_stays (refreshApprovalKeyAuth_stays _ _) rfl rfl) fun _ =>
      Only.bind modest_loadSessionSecrets fun _ => ?_
  exact Only.bind (modest_of_stays (AppState.completeUnlock_stays _ _) rfl rfl) fun _ =>
    Only.bind (modest_perform nofun nofun) fun _ => modest_perform nofun nofun

/-! ### Connections -/

section

variable (conn : Connection) (deadline : Nat) (authenticated : Bool) (stream : Stream)

omit [Crypto] in
theorem modest_authorizeRecovery (id : Uuid) :
    (authorize authenticated deadline (isAuthorizedPairingRecoveryPeer conn id)).Only
      (Modest resumes) := by
  refine Only.bind (modest_of_stays (hasTime_stays _ _) rfl rfl) fun _ => Only.ite ?_ trivial
  refine Only.bind (Only.bind (modest_storage (points_pairingGenerationCliNodeId id)) fun r => ?_)
    fun _ => Only.bind (modest_perform nofun nofun) fun _ => trivial
  split
  · trivial
  · trivial

theorem modest_servePairingCommit (id : Uuid) :
    (servePairingCommit conn deadline authenticated stream id).Only (Modest resumes) := by
  refine Only.bind (modest_authorizeRecovery _ _ _ _) fun _ =>
    Only.ite (modest_of_stays (closeAndStop_stays _ _) rfl rfl) ?_
  refine Only.bind (modest_storage (points_commitPendingGeneration (by decide) id)) fun r => ?_
  cases r with
  | error e => trivial
  | ok u =>
    exact Only.bind (modest_of_stays (sendFrame_stays _ rfl) rfl rfl) fun _ => trivial

theorem modest_servePairingActivate (id : Uuid) :
    (servePairingActivate conn deadline authenticated stream id).Only (Modest resumes) := by
  refine Only.bind (modest_authorizeRecovery _ _ _ _) fun _ =>
    Only.ite (modest_of_stays (closeAndStop_stays _ _) rfl rfl) ?_
  refine Only.bind (modest_storage (points_activateGeneration (by decide) (by decide) id))
    fun r => ?_
  cases r with
  | error e => trivial
  | ok u =>
    exact Only.bind (modest_of_stays (announceActivation_stays _ _) rfl rfl) fun _ => trivial

theorem modest_serveMessage (message : Except String FerusaMessage) :
    (serveMessage conn deadline authenticated stream message).Only (Modest resumes) := by
  unfold serveMessage
  split
  · exact modest_of_stays (servePing_stays _ _ _ _) rfl rfl
  · exact modest_servePairingCommit _ _ _ _ _
  · exact modest_servePairingActivate _ _ _ _ _
  · exact modest_of_stays (serveRequest_stays _ _ _ _ _) rfl rfl
  · exact modest_of_stays (serveOther_stays _ _ _) rfl rfl
  · exact modest_of_stays (serveOther_stays _ _ _) rfl rfl

theorem modest_serveStream :
    (serveStream conn deadline authenticated).Only (Modest resumes) := by
  have hclose : ∀ reason, (closeAndStop conn reason).Only (Modest resumes) :=
    fun reason => modest_of_stays (closeAndStop_stays _ _) rfl rfl
  have htime : (hasTime authenticated deadline).Only (Modest resumes) :=
    modest_of_stays (hasTime_stays authenticated deadline) rfl rfl
  refine Only.bind htime fun _ => Only.ite (hclose _) (Only.bind (modest_perform nofun nofun)
    fun accepted => ?_)
  cases accepted with
  | failed e => trivial
  | timedOut => exact hclose _
  | ok stream =>
    refine Only.bind htime fun _ => Only.ite (hclose _) (Only.bind (modest_perform nofun nofun)
      fun data => ?_)
    cases data with
    | failed e => exact modest_of_stays (serveOther_stays _ _ _) rfl rfl
    | timedOut => exact hclose _
    | ok message => exact modest_serveMessage _ _ _ _ _

theorem modest_serveStreams (streams : Nat) :
    (serveStreams conn deadline streams authenticated).Only (Modest resumes) := by
  induction streams generalizing authenticated with
  | zero => trivial
  | succ streams ih =>
    refine Only.bind (modest_serveStream conn deadline authenticated) fun served => ?_
    cases served with
    | stop => trivial
    | next authenticated => exact ih authenticated

end

end

/-! ### The PINs -/

section

variable {α ε : Type} {pointers : List Pointer}

theorem points_updatePinAttemptState (kind : PinKind)
    (update : PinAttemptState → PinAttemptStateWrite × α) :
    (updatePinAttemptState kind update).Only (PointsOnly pointers) := by
  refine Only.bind (Only.bind (points_getEntry _) fun stored => ?_) fun state => ?_
  · cases stored with
    | none => trivial
    | some state => trivial
  · obtain ⟨write, result⟩ := update state
    cases write with
    | save state =>
      refine Only.bind (Only.mapError (Only.bind (Only.perform ⟨fun p id hc => ?_,
        fun id generation hc => ?_⟩) fun _ => points_fallible)) fun _ => trivial
      · exact nomatch (StoreCmd.save.inj hc).1
      · exact nomatch (StoreCmd.save.inj hc).1
    | clear => exact Only.bind (Only.mapError (points_deleteEntry _)) fun _ => trivial

theorem modest_checkCooldown (kind : PinKind) : (checkCooldown kind).Only (Modest pointers) :=
  Only.bind (modest_of_stays readMonotonicClock_stays rfl rfl) fun _ =>
    Only.bind (modest_storage (points_updatePinAttemptState kind _)) fun _ => modest_mapErr

theorem modest_recordFailure (kind : PinKind) : (recordFailure kind).Only (Modest pointers) :=
  Only.bind (modest_of_stays readMonotonicClock_stays rfl rfl) fun _ =>
    Only.bind (modest_storage (points_updatePinAttemptState kind _)) fun _ => modest_mapErr

theorem modest_verifyAndRecord (kind : PinKind) (pin pinHash : String) :
    (verifyAndRecord kind pin pinHash).Only (Modest pointers) := by
  refine Only.bind (modest_of_stays (runArgon2Job_stays [.gate] (stays_put rfl)) rfl rfl)
    fun _ => Only.bind modest_mapErr fun _ => Only.ite ?_ ?_
  · exact Only.bind (modest_storage (points_updatePinAttemptState kind _)) fun _ =>
      Only.bind modest_mapErr fun _ => trivial
  · refine Only.bind (modest_recordFailure kind) fun retryAfterMs => ?_
    cases retryAfterMs with
    | none => trivial
    | some ms => trivial

theorem modest_verifyPinWithCooldown (kind : PinKind) (pin pinHash : String) :
    (verifyPinWithCooldown kind pin pinHash).Only (Modest pointers) := by
  refine Only.bind (modest_perform nofun nofun) fun _ => Only.bind (Only.attempt ?_) fun _ =>
    Only.bind (modest_perform nofun nofun) fun _ => Only.ofExcept
  refine Only.bind (modest_checkCooldown kind) fun retryAfterMs => ?_
  cases retryAfterMs with
  | none => exact modest_verifyAndRecord kind pin pinHash
  | some ms => trivial

theorem modest_approveRequest (requestId pin : String) :
    (approveRequest requestId pin).Only (Modest pointers) := by
  refine Only.bind (modest_of_stays ensureActiveSession_stays rfl rfl) fun _ =>
    Only.bind (modest_perform nofun nofun) fun slot => Only.bind Only.ofExcept fun pending =>
      Only.bind (modest_of_stays unlockedSecrets_stays rfl rfl) fun _ => ?_
  refine Only.bind Only.ofExcept fun _ =>
    Only.bind (modest_verifyPinWithCooldown _ _ _) fun outcome => ?_
  cases outcome with
  | verified => exact modest_of_stays (approveVerified_stays _ _) rfl rfl
  | incorrect => trivial
  | cooldownStarted ms => exact modest_of_stays (denyForCooldown_stays _ _ _) rfl rfl
  | cooldownActive ms => exact modest_of_stays (denyForCooldown_stays _ _ _) rfl rfl

/-- **Every other program is modest**, but for what the desktop resumes. -/
theorem AppOp.program_modest [Crypto] {pointers : List Pointer} {op : AppOp}
    (hs : ∀ payload, op ≠ .setupComplete payload)
    (ha : ∀ pin4 pin6, op ≠ .authorizePairingReplacement pin4 pin6)
    (hserve : ∀ conn streams, op = .serve conn streams → resumes ⊆ pointers) :
    op.program.Only (Modest pointers) := by
  cases op with
  | setupComplete payload => exact absurd rfl (hs payload)
  | authorizePairingReplacement pin4 pin6 => exact absurd rfl (ha pin4 pin6)
  | setupPairingCode =>
    exact Only.bind (modest_of_stays setupPairingCode_stays rfl rfl) fun _ => trivial
  | checkSetup => exact Only.bind modest_checkSetup fun _ => trivial
  | cancelPairingReplacement =>
    exact modest_of_stays AppState.cancelPairingReplacement_stays rfl rfl
  | biometricUnlock => exact modest_biometricUnlock
  | lock => exact modest_of_stays lock_stays rfl rfl
  | setAppForeground foreground =>
    exact modest_of_stays (setAppForeground_stays foreground) rfl rfl
  | pendingRequest =>
    exact Only.bind (modest_of_stays pendingRequest_stays rfl rfl) fun _ => trivial
  | approveRequest requestId pin => exact modest_approveRequest requestId pin
  | denyRequest requestId => exact modest_of_stays (denyRequest_stays requestId) rfl rfl
  | serve conn streams =>
    exact Only.bind (modest_perform nofun nofun) fun _ =>
      Only.mono (modest_serveStreams conn _ _ streams) fun _ h => h.mono (hserve conn streams rfl)
  | task task => exact modest_of_stays task.program_stays rfl rfl

end

/-! ## What is found -/

/-- The authorization to replace the pairing is given. -/
def Authorizes (authorizedAt : Nat) (e : AppAct) : Prop :=
  e.command = .write .pairingReplacementAuthorizedAt (some authorizedAt)

/-- **An authorization is used**: it is taken, and is current. -/
structure UsesAuthorization (authorizedAt : Nat) (e : AppAct) : Prop where
  takes : e.command = .take .pairingReplacementAuthorizedAt
  found : e.before.cells .pairingReplacementAuthorizedAt = some authorizedAt
  current : pairingReplacementAuthorizationIsCurrent e.before.now authorizedAt = true

/-- What gives the authorization, withdraws it or takes it. -/
def TouchesAuthorization (e : AppAct) : Prop :=
  (∃ value, e.command = .write .pairingReplacementAuthorizedAt value) ∨
    e.command = .take .pairingReplacementAuthorizedAt

/-- **A pairing is staged.** -/
def StagesPairing (id : Uuid) (e : AppAct) : Prop :=
  e.command = .store (.save (.pointer .staging) id)

/-- No pairing is found active, in the store. -/
def FindsNoActive (e : AppAct) : Prop := e.before.store.secrets.ptr .active = none

/-- The pairing is found active. -/
def FindsActive (id : Uuid) (e : AppAct) : Prop := e.before.store.secrets.ptr .active = some id

/-- The phone is found not to be set up. -/
def FindsNotSetUp (e : AppAct) : Prop := e.before.cells .isSetup = false

/-- **A replacement is begun**, in a session generation. -/
structure BeginsReplacement (generation replacement : Nat) (e : AppAct) : Prop where
  bumps : e.command = .bumpReplacement
  generation : e.before.generation = generation
  replacement : e.after.replacement = replacement

/-- The replacement is found to be the latest. -/
def FindsReplacement (replacement : Nat) (e : AppAct) : Prop := e.before.replacement = replacement

/-- The PIN is found right. -/
def PassesPin (pin pinHash : String) (e : AppAct) : Prop :=
  ∃ t s s', e = ⟨t, .verifyPin pin pinHash, .ok true, s, s'⟩

/-- **Both factors were given**: since the replacement was begun, in the session
generation there is, both PINs of a record of the active pairing were found
right, and the replacement is the latest, the app being in the foreground. -/
def FactorsGiven (pin4 pin6 : String) (generation : Nat) (l : List AppAct) : Prop :=
  ∃ stored replacement, (∃ e ∈ l, HoldsRecord e stored) ∧
    (∃ e ∈ l, FindsActive stored.pairingId e) ∧
    Preceded [FindsReplacement replacement, FindsForeground, PassesPin pin6 stored.pin6Hash,
      PassesPin pin4 stored.pin4Hash, BeginsReplacement generation replacement] l

/-- Nothing was found to be set up: neither in the store nor in memory. -/
def FoundUnpaired (l : List AppAct) : Prop :=
  (∃ e ∈ l, FindsNoActive e) ∧ ∃ e ∈ l, FindsNotSetUp e

/-- **A setup is entitled to go on**: nothing was found to be set up, or it has
used an authorization. -/
def Entitled (l : List AppAct) : Prop :=
  FoundUnpaired l ∨ ∃ e ∈ l, ∃ authorizedAt, UsesAuthorization authorizedAt e

section

variable {kinds : List (AppAct → Prop)} {P : AppAct → Prop} {l l' : List AppAct}

theorem Preceded.found (h : Preceded kinds l) {e : AppAct} (he : P e) :
    Preceded (P :: kinds) (e :: l) :=
  ⟨[], e, l, rfl, he, h⟩

theorem Preceded.suffix (h : Preceded kinds l) (hl : l <:+ l') : Preceded kinds l' := by
  obtain ⟨m, rfl⟩ := hl
  induction m with
  | nil => exact h
  | cons e m ih => exact ih.cons e

theorem Entitled.suffix (h : Entitled l) (hl : l <:+ l') : Entitled l' := by
  rcases h with ⟨hactive, hsetup⟩ | hused
  · exact .inl ⟨exists_suffix hactive hl, exists_suffix hsetup hl⟩
  · exact .inr (exists_suffix hused hl)

end

/-! ## What the store shows -/

section

open Logic StoreProg

variable [Crypto] {t : Nat} {α : Type}

/-- **What is done stays**, whatever runs. -/
theorem lasting_acts {F : List AppAct → Prop} (hF : ∀ l l', F l → l <:+ l' → F l')
    {p : StoreProg α} : (actLogic t).Triple F p (fun _ => F) fun _ _ => True :=
  (any_acts.frame stable_acts fun l l' _ => hF l l').conseq (fun _ _ h => ⟨trivial, h⟩)
    (fun _ _ _ h => h.2) fun _ _ _ _ => trivial

/-- **The record that is loaded** is the one that was asked for. -/
theorem loadGeneration_named (id : Uuid) : (actLogic t).Triple (fun _ => True)
    (loadGeneration id)
    (fun generation l => generation.pairingId = id ∧ ∃ e ∈ l, HoldsRecord e generation)
    fun _ _ => True := by
  refine Triple.bind (Triple.mapError (getEntry_acts _)) fun stored => ?_
  cases stored with
  | none => exact Triple.fail stable_acts fun _ _ _ => trivial
  | some generation =>
    show (actLogic t).Triple _ (if generation.pairingId ≠ id then _ else _) _ _
    split
    · exact Triple.fail stable_acts fun _ _ _ => trivial
    · next hid =>
      refine Triple.pure stable_acts fun l _ ⟨e, he, hstored⟩ => ⟨not_not.mp hid, e, he, ?_⟩
      rw [HoldsRecord, not_not.mp hid]
      exact hstored.symm

theorem loadKeyBoundGeneration_named (id : Uuid) : (actLogic t).Triple (fun _ => True)
    (loadKeyBoundGeneration id)
    (fun generation l => generation.pairingId = id ∧ ∃ e ∈ l, HoldsRecord e generation)
    fun _ _ => True := by
  have hlasting : ∀ generation : PairingGeneration, ∀ l l' : List AppAct,
      (generation.pairingId = id ∧ ∃ e ∈ l, HoldsRecord e generation) → l <:+ l' →
      generation.pairingId = id ∧ ∃ e ∈ l', HoldsRecord e generation :=
    fun _ _ _ h hl => ⟨h.1, exists_suffix h.2 hl⟩
  refine Triple.bind (Triple.bind (loadGeneration_named id) fun generation => ?_)
    fun generation => Triple.bind (lasting_acts (hlasting generation)) fun _ =>
      Triple.pure stable_acts fun _ _ h => h
  exact Triple.bind (lasting_acts (hlasting generation)) fun _ =>
    Triple.pure stable_acts fun _ _ h => h

/-- **`load_secrets`** answers with the record of the active pairing. -/
theorem loadSecrets_named : (actLogic t).Triple (fun _ => True) loadSecrets
    (fun generation l => (∃ e ∈ l, HoldsRecord e generation) ∧
      ∃ e ∈ l, FindsActive generation.pairingId e) fun _ _ => True := by
  refine Triple.bind any_acts fun _ => Triple.bind (Triple.mapError (getEntry_acts _))
    fun active => ?_
  cases active with
  | none => exact Triple.fail stable_acts fun _ _ _ => trivial
  | some id =>
    refine Triple.mapError (((loadKeyBoundGeneration_named id).frame
      (F := fun l => ∃ e ∈ l, FindsActive id e) stable_acts fun _ _ _ h hl =>
        exists_suffix h hl).conseq (fun _ _ ⟨e, he, h⟩ => ⟨trivial, e, he, h.symm⟩) ?_
      fun _ _ _ _ => trivial)
    rintro generation l - ⟨⟨rfl, hrecord⟩, hactive⟩
    exact ⟨hrecord, hactive⟩

/-- **`is_setup_in_store`** denies it only where no pairing is active. -/
theorem isSetupInStore_acts : (actLogic t).Triple (fun _ => True) isSetupInStore
    (fun setup l => setup = false → ∃ e ∈ l, FindsNoActive e) fun _ _ => True := by
  refine Triple.bind any_acts fun _ => Triple.bind any_acts fun _ =>
    Triple.bind (Triple.mapError (getEntry_acts _)) fun active => ?_
  cases active with
  | none => exact Triple.pure stable_acts fun _ _ ⟨e, he, h⟩ _ => ⟨e, he, h.symm⟩
  | some id =>
    refine Triple.bind (M := fun _ _ => True) (any_acts.pre fun _ _ _ => trivial) fun _ => ?_
    exact Triple.pure stable_acts fun _ _ _ => nofun

/-- What is found under the lock is found. -/
theorem withStorageGuard_named {P : List AppAct → Prop} {Q : α → List AppAct → Prop}
    (hP : ∀ l l', P l → l <:+ l' → P l') (hQ : ∀ a l l', Q a l → l <:+ l' → Q a l')
    {p : StoreProg α} (h : (actLogic t).Triple P p Q fun _ _ => True) :
    (actLogic t).Triple P (withStorageGuard p) Q fun _ _ => True := by
  have hattempt : (actLogic t).Triple P p.attempt
      (fun r l => ∀ a, r = .ok a → Q a l) fun (_ : Anyhow) _ => True := by
    refine Triple.attempt (h.conseq (fun _ _ h => h) (fun a l _ h a' hok => ?_) ?_)
    · rwa [← Except.ok.inj hok]
    · exact fun e l _ _ => nofun
  refine Triple.bind (lasting_acts hP) fun _ => Triple.bind hattempt fun r => ?_
  cases r with
  | error e =>
    exact Triple.bind (M := fun _ _ => True) (any_acts.pre fun _ _ _ => trivial) fun _ =>
      Triple.fail stable_acts fun _ _ _ => trivial
  | ok a =>
    refine Triple.bind (lasting_acts (hQ a) |>.pre fun l _ h => h a rfl) fun _ => ?_
    exact Triple.ret stable_acts fun _ _ h => h

end

/-! ## The discipline of the replacements -/

open Discipline

variable [Crypto] {Z : Setting} {t : Nat} {op : AppOp} {l : List AppAct}

/-- **What a thread may do** to replace a pairing. -/
structure ReplacingMay (op : AppOp) (l : List AppAct) (e : AppAct) : Prop where
  authorizes : ∀ authorizedAt, Authorizes authorizedAt e → ∃ pin4 pin6,
    op = .authorizePairingReplacement pin4 pin6 ∧ FactorsGiven pin4 pin6 e.before.generation l
  stages : ∀ id, StagesPairing id e → (∃ payload, op = .setupComplete payload) ∧ Entitled l

/-- **The discipline of the replacements.** While a thread holds the lock of the
session generation, the generation stays. -/
def replacingDiscipline (Z : Setting) : Discipline (appThreads Z) where
  may _ := ReplacingMay
  ends _ _ _ _ := True
  rely t s s' := s.generationGuard = some t →
    s'.generationGuard = some t ∧ s'.generation = s.generation
  rely_refl _ _ h := ⟨h, rfl⟩
  rely_trans h h' hg := by
    obtain ⟨hg₁, hgen₁⟩ := h hg
    obtain ⟨hg₂, hgen₂⟩ := h' hg₁
    exact ⟨hg₂, hgen₂.trans hgen₁⟩

omit [Crypto] in
theorem ReplacingMay.of_modest (pointers : List Pointer) {e : AppAct}
    (h : Modest pointers e.command) (hs : .staging ∉ pointers) : ReplacingMay op l e where
  authorizes authorizedAt ha := absurd (by rw [ha]; rfl) h.part
  stages id hid := absurd ((h.points _ hid).points .staging id rfl) hs

omit [Crypto] in
theorem ReplacingMay.of_entitled {pointers : List Pointer} {payload : SetupPayload} {e : AppAct}
    (h : Entitled l) (he : Modest pointers e.command) :
    ReplacingMay (.setupComplete payload) l e where
  authorizes authorizedAt ha := absurd (by rw [ha]; rfl) he.part
  stages _ _ := ⟨⟨payload, rfl⟩, h⟩

/-- **What is modest** may run at any time. -/
theorem keeps_of_modest {ε α : Type} (pointers : List Pointer) {p : Prog AppCmd.Reply ε α}
    (hp : p.Only (Modest pointers)) (hs : .staging ∉ pointers) :
    (replacingDiscipline Z).Keeps t op l p fun _ l' => l <:+ l' :=
  (Keeps.only (D := replacingDiscipline Z) hp fun _ _ _ _ _ hc _ =>
    ReplacingMay.of_modest pointers hc hs).mono fun _ _ ⟨m, hl, _⟩ => ⟨m, hl.symm⟩

/-- **A setup that is entitled** may stage its pairing. -/
theorem keeps_of_entitled {ε α : Type} (pointers : List Pointer) {p : Prog AppCmd.Reply ε α}
    {payload : SetupPayload} (hp : p.Only (Modest pointers)) (h : Entitled l) :
    (replacingDiscipline Z).Keeps t (.setupComplete payload) l p fun _ l' => Entitled l' :=
  Keeps.while_known hp h fun _ _ _ _ _ hc hl =>
    ⟨.of_entitled hl hc, hl.suffix (List.suffix_cons _ _)⟩

/-- **One command** that neither authorizes nor stages. -/
theorem modest_call {α : Type} {c : AppCmd} {k : c.Reply → AppProg α}
    {Q : Except AppError α → List AppAct → Prop}
    (ha : ∀ v, c ≠ .write .pairingReplacementAuthorizedAt (some v)) (hs : ∀ c', c ≠ .store c')
    (hk : ∀ r s s', (∀ e, l.head? = some e → (replacingDiscipline Z).rely t e.after s) →
      App.Exec t c s r s' → (replacingDiscipline Z).Keeps t op (⟨t, c, r, s, s'⟩ :: l) (k r) Q) :
    (replacingDiscipline Z).Keeps t op l (put c >>= k) Q :=
  Keeps.call fun r s s' hr hx =>
    ⟨⟨fun v hv => absurd hv (ha v), fun _ hid => absurd hid (hs _)⟩, hk r s s' hr hx⟩

/-- There is a state that may follow the acts. -/
theorem exists_after (D : Discipline (appThreads Z)) (t : Nat) (l : List AppAct) :
    ∃ s, ∀ e, l.head? = some e → D.rely t e.after s := by
  cases l with
  | nil =>
    exact ⟨App.boot Store.empty 0 0 ⟨0, 0, Nat.zero_le _⟩ [],
      fun e he => absurd he (Option.some_ne_none e).symm⟩
  | cons b acts => exact ⟨b.after, fun e he => Option.some.inj he ▸ D.rely_refl t b.after⟩

/-- **What a program of the store finds** under its lock, in any discipline that
lets it put its commands. -/
theorem storage_keeps {D : Discipline (appThreads Z)} {K : StoreCmd → Prop} {α : Type}
    {P : List AppAct → Prop} {Q : α → List AppAct → Prop} {p : StoreProg α}
    (hmay : ∀ l c r s s', K c → D.may t op l ⟨t, .store c, r, s, s'⟩)
    (hp : (StoreProg.withStorageGuard p).Only K) (hP : ∀ l l', P l → l <:+ l' → P l')
    (hQ : ∀ a l l', Q a l → l <:+ l' → Q a l')
    (h : (actLogic t).Triple P p Q fun _ _ => True) (hl : P l) :
    D.Keeps t op l (storage p) fun x l' =>
      Keeps.Since (fun e : AppAct => ∃ c, K c ∧ e.command = .store c) l l' ∧
        ∀ r, x = .ok r → ∀ a, r = .ok a → Q a l' := by
  have hsince : Keeps.Since (fun e : AppAct => ∃ c, K c ∧ e.command = .store c) l l :=
    ⟨[], rfl, by simp⟩
  refine Keeps.attempt ((Keeps.hoist (L := actLogic t) (fun l _ => l) (P := K)
    (fun _ => trivial) (fun _ => rfl) (fun {_ _ _ s s'} hx => ⟨s, s', hx, rfl⟩)
    (fun {_ c _ _ _} hc _ _ _ _ => hmay _ c _ _ _ hc) hsince hp
    fun _ _ => withStorageGuard_named hP hQ h l trivial hl).mono ?_)
  rintro x l' ⟨hl', hx⟩
  refine ⟨hl', fun r hr a ha => ?_⟩
  obtain rfl := Except.ok.inj hr
  subst ha
  obtain ⟨s, hs⟩ := exists_after D t l'
  exact hx s hs

/-- **What a program of the store finds** that saves no pointer. -/
theorem storage_finds {α : Type} {Q : α → List AppAct → Prop} {p : StoreProg α}
    (hQ : ∀ a l l', Q a l → l <:+ l' → Q a l') (hp : p.Only (PointsOnly []))
    (h : (actLogic t).Triple (fun _ => True) p Q fun _ _ => True) :
    (replacingDiscipline Z).Keeps t op l (storage p)
      fun x l' => l <:+ l' ∧ ∀ r, x = .ok r → ∀ a, r = .ok a → Q a l' := by
  refine (storage_keeps (D := replacingDiscipline Z) (K := PointsOnly []) ?_
    (points_withStorageGuard hp) (fun _ _ _ _ => trivial) hQ h trivial).mono
      fun _ _ ⟨⟨m, hl, _⟩, hx⟩ => ⟨⟨m, hl.symm⟩, hx⟩
  intro l c r s s' hc
  refine .of_modest [] ⟨?_, fun c' hc' => AppCmd.store.inj hc' ▸ hc⟩ List.not_mem_nil
  cases c <;> nofun

/-! ### Setting up -/

/-- **The check of a setup** entitles it. -/
theorem requireReplacementAuthorization_entitles : (replacingDiscipline Z).Keeps t op l
    requireReplacementAuthorization fun x l' => x = .ok () → Entitled l' := by
  refine Keeps.bind (storage_finds (fun _ _ _ h hl hsetup => exists_suffix (h hsetup) hl)
    points_isSetupInStore isSetupInStore_acts) (fun r l₁ ⟨_, hr⟩ => ?_) fun _ _ _ => nofun
  refine mapErr_goes (fun _ _ => nofun) fun persisted hpersisted => ?_
  refine modest_call nofun nofun fun stateSetup s₂ s₂' _ hx₂ => ?_
  obtain ⟨rfl, rfl⟩ := App.exec_read.mp hx₂
  refine Keeps.bind (M := fun _ l' => (⟨t, .read .isSetup, (s₂'.cells .isSetup, s₂'.now), s₂',
      s₂'⟩ : AppAct) ∈ l' ∧ l₁ <:+ l') ?_ (fun _ l₃ ⟨hread, hl₃⟩ => ?_) fun _ _ _ => nofun
  · split
    · exact modest_call nofun nofun fun _ _ _ _ _ => Keeps.pure
        ⟨List.mem_cons_of_mem _ List.mem_cons_self,
          (List.suffix_cons _ _).trans (List.suffix_cons _ _)⟩
    · exact Keeps.pure ⟨List.mem_cons_self, List.suffix_cons _ _⟩
  · split
    · refine modest_call nofun nofun fun authorizedAt s₄ s₄' _ hx₄ => ?_
      obtain ⟨rfl, -⟩ := App.exec_take.mp hx₄
      beta_reduce
      split
      · next huses =>
        -- it was there, and was current
        obtain ⟨authorizedAt, hfound, hcurrent⟩ := (Option.any_eq_true _ _).mp huses
        exact Keeps.pure fun _ => .inr ⟨_, List.mem_cons_self, authorizedAt, rfl, hfound, hcurrent⟩
      · exact Keeps.fail nofun
    · next hnone =>
      obtain ⟨hpersisted', hstate⟩ := not_or.mp hnone
      refine Keeps.pure fun _ => .inl ⟨exists_suffix (hr r rfl persisted hpersisted ?_) hl₃,
        _, hread, ?_⟩
      · exact Bool.eq_false_iff.mpr hpersisted'
      · exact Bool.eq_false_iff.mpr hstate

/-- **A setup** stages its pairing where it is entitled to. -/
theorem setupComplete_replacing (payload : SetupPayload) : (replacingDiscipline Z).Keeps t
    (.setupComplete payload) l (setupComplete payload) fun _ _ => True := by
  let all : List Pointer := [.staging, .pending, .committed, .retiring, .active]
  refine Keeps.bind requireReplacementAuthorization_entitles (fun _ l₁ h₁ => ?_)
    fun _ _ _ => trivial
  refine (keeps_of_entitled all ?_ (h₁ rfl)).mono fun _ _ _ => trivial
  refine Only.bind Only.ofExcept fun _ =>
    Only.bind (modest_of_stays consumeSetupPairingCode_stays rfl rfl) fun _ => ?_
  refine Only.bind (modest_of_stays (hashSetupPin_stays _) rfl rfl) fun _ =>
    Only.bind (modest_of_stays (hashSetupPin_stays _) rfl rfl) fun _ =>
      Only.bind (modest_of_stays acquireEndpoint_stays rfl rfl) fun _ => ?_
  refine Only.bind (modest_stagePairing (by decide) (by decide) _ _ _) fun staged =>
    Only.bind (modest_signReady staged) fun _ => Only.bind (Only.attempt ?_) fun _ =>
      Only.bind modest_mapErr fun _ => Only.bind modest_loadSessionSecrets fun _ => ?_
  · exact Only.mono (modest_pairWithCli _ _ _) fun _ h =>
      h.mono (show resumes ⊆ all by decide)
  · exact Only.bind (modest_perform nofun nofun) fun _ =>
      Only.bind (modest_perform nofun nofun) fun _ => modest_of_stays AppState.lock_stays rfl rfl

/-! ### Giving the factors -/

/-- **A replacement is begun**, under the lock of the generation. -/
theorem beginPairingReplacement_begins : (replacingDiscipline Z).Keeps t op l
    AppState.beginPairingReplacement fun x l' => ∀ g, x = .ok g →
      Preceded [BeginsReplacement g.1 g.2] l' := by
  refine modest_call nofun nofun fun _ _ _ _ _ => ?_
  refine Keeps.attempt_bind (M := fun x l' => ∀ g, x = .ok g →
    Preceded [BeginsReplacement g.1 g.2] l') ?_ fun x l₁ h₁ => ?_
  · refine modest_call nofun nofun fun generation s₂ s₂' _ hx₂ => ?_
    obtain ⟨hguard, rfl, rfl⟩ := App.exec_generation.mp hx₂
    unfold AppState.checkAuthenticationGeneration
    rw [if_neg (not_not_intro rfl)]
    refine Keeps.bind (M := fun _ l' => ∃ b rest, l' = b :: rest ∧
      b.after.generationGuard = some t ∧ b.after.generation = s₂'.generation) ?_
      (fun _ l₃ ⟨b, rest, hl₃, hb, hgen⟩ => ?_) fun _ _ _ _ => nofun
    · refine modest_call nofun nofun fun foreground s₃ s₃' hr₃ hx₃ => ?_
      obtain ⟨rfl, rfl⟩ := App.exec_isForeground.mp hx₃
      obtain ⟨hg₃, hgen₃⟩ := hr₃ _ rfl hguard
      split
      · exact Keeps.pure ⟨_, _, rfl, hg₃, hgen₃⟩
      · exact Keeps.fail ⟨_, _, rfl, hg₃, hgen₃⟩
    · subst hl₃
      refine modest_call nofun nofun fun _ s₄ s₄' hr₄ hx₄ => ?_
      obtain ⟨hg₄, hgen₄⟩ := hr₄ _ rfl hb
      obtain rfl := App.exec_write.mp hx₄
      refine modest_call nofun nofun fun replacement s₅ s₅' hr₅ hx₅ => ?_
      obtain ⟨-, hgen₅⟩ := hr₅ _ rfl hg₄
      obtain ⟨rfl, rfl⟩ := App.exec_bumpReplacement.mp hx₅
      refine Keeps.pure fun g hg => ?_
      obtain rfl := Except.ok.inj hg
      exact ⟨[], _, _, rfl, ⟨rfl, hgen₅.trans (hgen₄.trans hgen), rfl⟩, trivial⟩
  · refine modest_call nofun nofun fun _ _ _ _ _ => Keeps.ofExcept fun g hg => ?_
    exact (h₁ g hg).cons _

/-- **A PIN is found right**, or it is not. -/
theorem verifyAndRecord_passes {kinds : List (AppAct → Prop)} (kind : PinKind)
    (pin pinHash : String) (h : Preceded kinds l) : (replacingDiscipline Z).Keeps t op l
      (verifyAndRecord kind pin pinHash) fun x l' => l <:+ l' ∧
        (x = .ok .verified → Preceded (PassesPin pin pinHash :: kinds) l') := by
  refine modest_call nofun nofun fun _ s₁ s₁' _ _ => ?_
  refine modest_call nofun nofun fun r s₂ s₂' _ _ => ?_
  refine modest_call nofun nofun fun _ s₃ s₃' _ _ => ?_
  have hl : l <:+ ⟨t, .releaseArgon2, (), s₃, s₃'⟩ :: ⟨t, .verifyPin pin pinHash, r, s₂, s₂'⟩ ::
      ⟨t, .acquireArgon2, (), s₁, s₁'⟩ :: l :=
    ⟨[_, _, _], rfl⟩
  refine mapErr_goes (fun _ _ => ⟨hl, nofun⟩) fun pinOk hr => ?_
  split
  · next hok =>
    have hpassed : Preceded (PassesPin pin pinHash :: kinds)
        (⟨t, .releaseArgon2, (), s₃, s₃'⟩ :: ⟨t, .verifyPin pin pinHash, r, s₂, s₂'⟩ ::
          ⟨t, .acquireArgon2, (), s₁, s₁'⟩ :: l) :=
      ((h.cons _).found ⟨t, s₂, s₂', by rw [hr, hok]⟩).cons _
    have hrest : (storage (updatePinAttemptState kind fun _ => (.clear, ())) >>= fun r =>
        mapErr (keystoreError "delete") r >>= fun _ =>
          pure PinVerificationOutcome.verified : AppProg PinVerificationOutcome).Only
            (Modest []) :=
      Only.bind (modest_storage (points_updatePinAttemptState kind _)) fun _ =>
        Only.bind modest_mapErr fun _ => Only.pure
    exact (keeps_of_modest [] hrest List.not_mem_nil).mono fun _ _ h =>
      ⟨hl.trans h, fun _ => hpassed.suffix h⟩
  · refine Keeps.bind (keeps_of_modest [] (modest_recordFailure kind)
      List.not_mem_nil) (fun retryAfterMs l₄ h₄ => ?_) fun _ _ h₄ => ⟨hl.trans h₄, nofun⟩
    cases retryAfterMs with
    | some ms => exact Keeps.pure ⟨hl.trans h₄, nofun⟩
    | none => exact Keeps.pure ⟨hl.trans h₄, nofun⟩

theorem verifyPinWithCooldown_passes {kinds : List (AppAct → Prop)} (kind : PinKind)
    (pin pinHash : String) (h : Preceded kinds l) : (replacingDiscipline Z).Keeps t op l
      (verifyPinWithCooldown kind pin pinHash) fun x l' => l <:+ l' ∧
        (x = .ok .verified → Preceded (PassesPin pin pinHash :: kinds) l') := by
  refine modest_call nofun nofun fun _ s₁ s₁' _ _ => ?_
  have h₁ : l <:+ ⟨t, .lockGate kind, (), s₁, s₁'⟩ :: l := List.suffix_cons _ _
  refine Keeps.attempt_bind (M := fun x l' => l <:+ l' ∧
    (x = .ok .verified → Preceded (PassesPin pin pinHash :: kinds) l')) ?_
    fun x l' ⟨hl', hx⟩ => ?_
  · refine Keeps.bind (keeps_of_modest [] (modest_checkCooldown kind)
      List.not_mem_nil) (fun retryAfterMs l₂ h₂ => ?_) fun _ _ h₂ => ⟨h₁.trans h₂, nofun⟩
    cases retryAfterMs with
    | some ms => exact Keeps.pure ⟨h₁.trans h₂, nofun⟩
    | none =>
      exact (verifyAndRecord_passes kind pin pinHash (h.suffix (h₁.trans h₂))).mono
        fun _ _ ⟨h₃, hx⟩ => ⟨(h₁.trans h₂).trans h₃, hx⟩
  · exact modest_call nofun nofun fun _ _ _ _ _ => Keeps.ofExcept
      ⟨hl'.trans (List.suffix_cons _ _), fun hv => (hx hv).cons _⟩

/-- **One factor.** -/
theorem verifyReplacementPin_passes {kinds : List (AppAct → Prop)} (kind : PinKind)
    (pin pinHash : String) (h : Preceded kinds l) : (replacingDiscipline Z).Keeps t op l
      (verifyReplacementPin kind pin pinHash) fun x l' =>
        x = .ok () → l <:+ l' ∧ Preceded (PassesPin pin pinHash :: kinds) l' := by
  refine Keeps.bind (verifyPinWithCooldown_passes kind pin pinHash h)
    (fun outcome l' ⟨hl', hx⟩ => ?_) fun _ _ _ => nofun
  cases outcome with
  | verified => exact Keeps.pure fun _ => ⟨hl', hx rfl⟩
  | incorrect => exact Keeps.fail nofun
  | cooldownStarted ms =>
    exact Keeps.bind (keeps_of_modest [] (modest_of_stays expireSession_stays rfl rfl)
      List.not_mem_nil) (fun _ _ _ => Keeps.fail nofun) fun _ _ _ => nofun
  | cooldownActive ms => exact Keeps.fail nofun

/-- **What is loaded** is the record of the active pairing. -/
theorem loadSessionSecrets_finds : (replacingDiscipline Z).Keeps t op l loadSessionSecrets
    fun x l' => ∀ stored, x = .ok stored → l <:+ l' ∧ (∃ e ∈ l', HoldsRecord e stored) ∧
      ∃ e ∈ l', FindsActive stored.pairingId e := by
  refine Keeps.bind (storage_finds (fun _ _ _ h hl => ⟨exists_suffix h.1 hl,
    exists_suffix h.2 hl⟩) points_loadSecrets loadSecrets_named) (fun r l₁ ⟨hl, hr⟩ => ?_)
    fun _ _ _ _ => nofun
  cases r with
  | ok stored =>
    refine Keeps.pure fun stored' h => ?_
    obtain rfl := Except.ok.inj h
    exact ⟨hl, hr _ rfl stored rfl⟩
  | error e =>
    exact Keeps.bind (keeps_of_modest [] (modest_of_stays
      (handleSignedResponseError_stays _) rfl rfl) List.not_mem_nil)
      (fun _ _ _ => Keeps.fail fun _ => nofun) fun _ _ _ _ => nofun

/-- **The authorization is given** where both factors were, in the generation
that the replacement was begun in. -/
theorem completePairingReplacement_authorizes {pin4 pin6 : String} {stored : PairingGeneration}
    (g : Nat × Nat) (hrecord : ∃ e ∈ l, HoldsRecord e stored)
    (hactive : ∃ e ∈ l, FindsActive stored.pairingId e)
    (hpins : Preceded [PassesPin pin6 stored.pin6Hash, PassesPin pin4 stored.pin4Hash,
      BeginsReplacement g.1 g.2] l) :
    (replacingDiscipline Z).Keeps t (.authorizePairingReplacement pin4 pin6) l
      (AppState.completePairingReplacement g) fun _ _ => True := by
  refine modest_call nofun nofun fun _ s₁ s₁' _ _ => ?_
  refine Keeps.attempt_bind (M := fun _ _ => True) ?_ fun x l' _ =>
    modest_call nofun nofun fun _ _ _ _ _ => Keeps.ofExcept trivial
  refine modest_call nofun nofun fun generation s₂ s₂' _ hx₂ => ?_
  obtain ⟨hguard, rfl, rfl⟩ := App.exec_generation.mp hx₂
  unfold AppState.checkAuthenticationGeneration
  split
  · exact Keeps.fail trivial
  next hsame =>
  have hsame : g.1 = s₂'.generation := not_not.mp hsame
  refine Keeps.bind (M := fun x l' => ∃ b, l' = b :: ⟨t, .generation, s₂'.generation, s₂', s₂'⟩ ::
    ⟨t, .lockGeneration, (), s₁, s₁'⟩ :: l ∧ b.after.generationGuard = some t ∧
    b.after.generation = s₂'.generation ∧ (x = .ok () → FindsForeground b)) ?_
    (fun _ l₃ ⟨b, hl₃, hb, hgen₃, hforeground⟩ => ?_) fun _ _ _ => trivial
  · refine modest_call nofun nofun fun foreground s₃ s₃' hr₃ hx₃ => ?_
    obtain ⟨rfl, rfl⟩ := App.exec_isForeground.mp hx₃
    obtain ⟨hg₃, hgen₃⟩ := hr₃ _ rfl hguard
    split
    · next hforeground => exact Keeps.pure ⟨_, rfl, hg₃, hgen₃, fun _ => ⟨hforeground, hg₃⟩⟩
    · exact Keeps.fail ⟨_, rfl, hg₃, hgen₃, nofun⟩
  subst hl₃
  refine modest_call nofun nofun fun replacement s₄ s₄' hr₄ hx₄ => ?_
  obtain ⟨rfl, rfl⟩ := App.exec_replacement.mp hx₄
  obtain ⟨hg₄, hgen₄⟩ := hr₄ _ rfl hb
  split
  · exact Keeps.fail trivial
  next hlatest =>
  refine modest_call nofun nofun fun now s₅ s₅' hr₅ hx₅ => ?_
  obtain ⟨rfl, rfl⟩ := App.exec_now.mp hx₅
  obtain ⟨hg₅, hgen₅⟩ := hr₅ _ rfl hg₄
  refine Keeps.call fun _ s₆ s₆' hr₆ _ => ⟨⟨fun authorizedAt _ => ⟨pin4, pin6, rfl, stored, g.2,
    exists_suffix hrecord ⟨[_, _, _, _, _], rfl⟩, exists_suffix hactive ⟨[_, _, _, _, _], rfl⟩,
    ?_⟩, nofun⟩, Keeps.ret trivial⟩
  obtain ⟨-, hgen₆⟩ := hr₆ _ rfl hg₅
  -- nothing has been added to the generation since the replacement was begun
  have hgen : s₆.generation = g.1 :=
    hgen₆.trans (hgen₅.trans (hgen₄.trans (hgen₃.trans hsame.symm)))
  have hreplacement : FindsReplacement g.2 ⟨t, .replacement, s₄'.replacement, s₄', s₄'⟩ :=
    not_not.mp hlatest
  show Preceded [_, _, _, _, BeginsReplacement s₆.generation g.2] _
  rw [hgen]
  exact ((((hpins.cons _).cons _).found (hforeground rfl)).found hreplacement).cons _

/-- **`authorize_pairing_replacement`.** -/
theorem authorizePairingReplacement_replacing (pin4 pin6 : String) :
    (replacingDiscipline Z).Keeps t (.authorizePairingReplacement pin4 pin6) l
      (authorizePairingReplacement pin4 pin6) fun _ _ => True := by
  refine Keeps.bind beginPairingReplacement_begins (fun g l₁ h₁ => ?_) fun _ _ _ => trivial
  refine Keeps.bind (Keeps.ofExcept (Q := fun _ l' => l' = l₁) rfl) (fun _ l₂ h₂ => ?_)
    fun _ _ _ => trivial
  refine Keeps.bind (Keeps.ofExcept (Q := fun _ l' => l' = l₂) rfl) (fun _ l₃ h₃ => ?_)
    fun _ _ _ => trivial
  subst h₃ h₂
  refine Keeps.bind (keeps_of_modest [] (modest_of_stays
    (refreshApprovalKeyAuth_stays _ _) rfl rfl) List.not_mem_nil) (fun _ l₄ h₄ => ?_)
    fun _ _ _ => trivial
  refine Keeps.bind loadSessionSecrets_finds (fun stored l₅ h₅ => ?_) fun _ _ _ => trivial
  obtain ⟨hl₅, hrecord, hactive⟩ := h₅ stored rfl
  refine Keeps.bind (verifyReplacementPin_passes .fourDigit pin4 stored.pin4Hash
    ((h₁ g rfl).suffix (h₄.trans hl₅))) (fun _ l₆ h₆ => ?_) fun _ _ _ => trivial
  obtain ⟨hl₆, hfour⟩ := h₆ rfl
  refine Keeps.bind (verifyReplacementPin_passes .sixDigit pin6 stored.pin6Hash hfour)
    (fun _ l₇ h₇ => ?_) fun _ _ _ => trivial
  obtain ⟨hl₇, hsix⟩ := h₇ rfl
  exact completePairingReplacement_authorizes g (exists_suffix hrecord (hl₆.trans hl₇))
    (exists_suffix hactive (hl₆.trans hl₇)) hsix

/-- **The programs keep the discipline.** -/
theorem replacingDiscipline_valid (Z : Setting) : (replacingDiscipline Z).Valid where
  keeps t op := by
    by_cases hs : ∃ payload, op = .setupComplete payload
    · obtain ⟨payload, rfl⟩ := hs
      exact setupComplete_replacing payload
    by_cases ha : ∃ pin4 pin6, op = .authorizePairingReplacement pin4 pin6
    · obtain ⟨pin4, pin6, rfl⟩ := ha
      exact authorizePairingReplacement_replacing pin4 pin6
    · exact (keeps_of_modest resumes (AppOp.program_modest (fun payload h => hs ⟨payload, h⟩)
        (fun pin4 pin6 h => ha ⟨pin4, pin6, h⟩) fun _ _ _ => List.Subset.refl _)
        (by decide)).mono fun _ _ _ => trivial
  put htu hx _ hg := by
    refine ⟨generationGuard_kept hx htu.symm hg, ?_⟩
    refine hx.framed.generation ?_
    rintro rfl
    obtain ⟨hguard, -⟩ := App.exec_bumpGeneration.mp hx
    exact htu (Option.some.inj (hguard.symm.trans hg))
  start hstart hg := by
    obtain ⟨spawned, rfl⟩ := AppOp.Starts.spawned hstart
    exact ⟨hg, rfl⟩
  env he hg := by
    obtain ⟨he, -⟩ := he
    cases he <;> exact ⟨hg, rfl⟩

/-! ## What is known of an authorization -/

/-- **The authorization was given**, and nobody has touched it since. -/
def GivenLast (authorizedAt : Nat) (l : List AppAct) : Prop :=
  ∃ m a early, l = m ++ a :: early ∧ Authorizes authorizedAt a ∧ ∀ b ∈ m, ¬ TouchesAuthorization b

/-- What is known of the authorization in memory. -/
def AuthorizationKnown (l : List AppAct) (s : App) : Prop :=
  ∀ authorizedAt, s.cells .pairingReplacementAuthorizedAt = some authorizedAt →
    GivenLast authorizedAt l

/-- **One more act.** -/
theorem AuthorizationKnown.put {c : AppCmd} {r : c.Reply} {s s' : App}
    (h : AuthorizationKnown l s) (hx : App.Exec t c s r s') :
    AuthorizationKnown (⟨t, c, r, s, s'⟩ :: l) s' := by
  intro authorizedAt hs
  by_cases hw : ∃ value, c = .write .pairingReplacementAuthorizedAt value
  · obtain ⟨value, rfl⟩ := hw
    obtain rfl := App.exec_write.mp hx
    rw [App.withCell_cells_self] at hs
    exact ⟨[], _, l, rfl, by rw [Authorizes, hs], List.forall_mem_nil _⟩
  by_cases htake : c = .take .pairingReplacementAuthorizedAt
  · subst htake
    obtain ⟨-, rfl⟩ := App.exec_take.mp hx
    rw [App.withCell_cells_self] at hs
    cases hs
  · rw [hx.framed.cells _ (fun value hc => hw ⟨value, hc⟩) htake] at hs
    obtain ⟨m, a, early, rfl, ha, hm⟩ := h authorizedAt hs
    refine ⟨_ :: m, a, early, rfl, ha, List.forall_mem_cons.mpr ⟨?_, hm⟩⟩
    rintro (hwrite | htook)
    · exact hw hwrite
    · exact htake htook

omit [Crypto] in
theorem AuthorizationKnown.congr {s s' : App} (h : AuthorizationKnown l s)
    (hs : s'.cells .pairingReplacementAuthorizedAt = s.cells .pairingReplacementAuthorizedAt) :
    AuthorizationKnown l s' :=
  fun authorizedAt hx => h authorizedAt (hs ▸ hx)

omit [Crypto] in
theorem AuthorizationKnown.of_none {s : App}
    (hs : s.cells .pairingReplacementAuthorizedAt = none) : AuthorizationKnown l s :=
  fun _ hx => absurd (hs.symm.trans hx) nofun

/-- **What is known of the authorization before each act** of a run. -/
theorem authorization_known {store : Store} {now epoch : Nat} {clock : ClockSnapshot}
    {usedUuids : List Uuid} {p : (appThreads .any).Running}
    (hp : (appThreads .any).Reaches (App.boot store now epoch clock usedUuids) p) :
    ∀ e earlier, p.state.Happened e earlier → AuthorizationKnown earlier e.before := by
  refine (replacingDiscipline_valid .any).chronicle (I := AuthorizationKnown) (.of_none rfl)
    (fun h hx _ => h.put hx) ?_ ?_ ?_ hp
  · intro w op s' h hstart
    obtain ⟨spawned, rfl⟩ := AppOp.Starts.spawned hstart
    exact h.congr rfl
  · rintro l s s' h ⟨he, -⟩
    refine h.congr ?_
    cases he with
    | bind => exact App.withCell_cells _ _ _ _ nofun
    | _ => rfl
  · rintro l s s' - ⟨⟨now, epoch, clock, rfl, -⟩, -⟩
    exact .of_none rfl

/-- **An authorization is of both factors**: the thread that gave it had both PINs
of the active pairing, and nobody has touched it since. -/
def AuthorizedBy (w : AppLog) (authorizedAt : Nat) (l : List AppAct) : Prop :=
  ∃ m a early, l = m ++ a :: early ∧ Authorizes authorizedAt a ∧
    (∀ b ∈ m, ¬ TouchesAuthorization b) ∧ ∃ pin4 pin6,
      w.ops a.thread = some (.authorizePairingReplacement pin4 pin6) ∧
      FactorsGiven pin4 pin6 a.before.generation (early.filter fun d => d.thread = a.thread)

/-- **What a setup uses** was given for both factors. -/
theorem used_authorized {store : Store} {now epoch : Nat} {clock : ClockSnapshot}
    {usedUuids : List Uuid} {p : (appThreads .any).Running}
    (hp : (appThreads .any).Reaches (App.boot store now epoch clock usedUuids) p) {u : AppAct}
    {before : List AppAct} (hu : p.state.Happened u before) {authorizedAt : Nat}
    (huses : UsesAuthorization authorizedAt u) : AuthorizedBy p.state authorizedAt before := by
  obtain ⟨m, a, early, rfl, ha, hm⟩ := authorization_known hp u before hu authorizedAt huses.found
  obtain ⟨later, hacts⟩ := hu
  obtain ⟨op, hop, -, hmay⟩ := (replacingDiscipline_valid .any).followed hp a early
    ⟨later ++ u :: m, by simp [hacts]⟩
  obtain ⟨pin4, pin6, rfl, hfactors⟩ := hmay.authorizes authorizedAt ha
  exact ⟨m, a, early, rfl, ha, hm, pin4, pin6, hop, hfactors⟩

/-! ## What becomes active was staged -/

/-- The generation was named at the start, or was staged since. -/
def StagedSince (start : Secrets) (l : List AppAct) (id : Uuid) : Prop :=
  Named start id ∨ ∃ e ∈ l, StagesPairing id e

/-- **Every pointer names what was staged**, but the one of what is retired. -/
def NamesStaged (start : Secrets) (l : List AppAct) (s : App) : Prop :=
  ∀ p, p ≠ .retiring → ∀ id, s.store.secrets.ptr p = some id → StagedSince start l id

omit [Crypto] in
theorem StagedSince.cons {start : Secrets} {id : Uuid} (h : StagedSince start l id) (e : AppAct) :
    StagedSince start (e :: l) id :=
  h.imp_right fun hl => exists_suffix hl (List.suffix_cons _ _)

omit [Crypto] in
/-- **What is stored under a key** was stored before, or the command has saved it. -/
theorem key_exec {c : StoreCmd} {o : StoreChoice} {r : c.Reply} {s s' : Store}
    (h : Store.exec t c o s = some (r, s')) {k : Key} {v : k.Val}
    (hv : s'.secrets k = some v) : s.secrets k = some v ∨ c = .save k v := by
  cases c with
  | save k' value =>
    have hs : s' = s ∨ s' = s.save k' value := by
      cases o <;> simp [Store.exec] at h <;> tauto
    rcases hs with rfl | rfl
    · exact .inl hv
    · rw [Store.save_secrets, Secrets.put] at hv
      by_cases hk : k = k'
      · subst hk
        rw [Function.update_self] at hv
        exact .inr (by rw [Option.some.inj hv])
      · rw [Function.update_of_ne hk] at hv
        exact .inl hv
  | delete k' =>
    have hs : s' = s ∨ s' = s.delete k' := by
      cases o <;> simp [Store.exec] at h <;> tauto
    rcases hs with rfl | rfl
    · exact .inl hv
    · rw [Store.delete_secrets, Secrets.remove] at hv
      by_cases hk : k = k'
      · subst hk
        rw [Function.update_self] at hv
        cases hv
      · rw [Function.update_of_ne hk] at hv
        exact .inl hv
  | _ =>
    have hs : s'.secrets = s.secrets := by
      cases o <;> simp [Store.exec] at h <;> grind
    exact .inl (hs ▸ hv)

/-- The pointer that is saved into this one. -/
def Pointer.source : Pointer → Option Pointer
  | .active => some .committed
  | .committed => some .pending
  | .pending => some .staging
  | .staging | .retiring => none

omit [Crypto] in
/-- **What a pointer names** it named before, or its source did. -/
theorem TrackStep.turned {x x' : Tracking} (h : TrackStep t x x') {p : Pointer} (hs : p ≠ .staging)
    (hr : p ≠ .retiring) {id : Uuid} (hid : x'.store.secrets.ptr p = some id) :
    x.store.secrets.ptr p = some id ∨ ∃ q, p.source = some q ∧ x.store.secrets.ptr q = some id := by
  have hsame : x'.store.secrets.ptr p = x.store.secrets.ptr p → x.store.secrets.ptr p = some id ∨
      ∃ q, p.source = some q ∧ x.store.secrets.ptr q = some id := fun h => .inl (h ▸ hid)
  -- a pointer that is saved takes over what its source names
  have hsaved : ∀ {q : Pointer} {old : Uuid} {s : Store} {d : List Uuid},
      x = ⟨s, d⟩ → x' = ⟨s.save (.pointer q) old, d⟩ → (p = q → ∃ q', p.source = some q' ∧
        s.secrets.ptr q' = some old) → x.store.secrets.ptr p = some id ∨
          ∃ q, p.source = some q ∧ x.store.secrets.ptr q = some id := by
    rintro q old s d rfl rfl hq
    by_cases hpq : p = q
    · obtain ⟨q', hq', hnamed⟩ := hq hpq
      refine .inr ⟨q', hq', hnamed.trans ?_⟩
      simpa [hpq] using hid
    · exact .inl (by simpa [hpq] using hid)
  cases h with
  | stage _ _ _ => exact hsaved rfl rfl fun h => absurd h hs
  | publish _ h => exact hsaved rfl rfl fun hp => ⟨.staging, hp ▸ rfl, h⟩
  | commit _ h => exact hsaved rfl rfl fun hp => ⟨.pending, hp ▸ rfl, h⟩
  | retire _ _ => exact hsaved rfl rfl fun h => absurd h hr
  | flip _ h _ => exact hsaved rfl rfl fun hp => ⟨.committed, hp ▸ rfl, h⟩
  | @drop s d q _ _ _ _ =>
    by_cases hpq : p = q
    · simp [hpq] at hid
    · exact hsame (by simp [hpq])
  | same => exact hsame rfl
  | acquire _ => exact hsame rfl
  | release _ => exact hsame rfl
  | generate => exact hsame rfl
  | deleteKey _ _ => exact hsame rfl
  | record _ _ => exact hsame (by simp)
  | deleteRecord _ => exact hsame (by simp)
  | saveAttempts _ => exact hsame (by simp)
  | deleteAttempts _ => exact hsame (by simp)

omit [Crypto] in
/-- **What a pointer names** was named before, unless it is staged. -/
theorem TrackStep.named {x x' : Tracking} (h : TrackStep t x x') {p : Pointer} (hs : p ≠ .staging)
    (hr : p ≠ .retiring) {id : Uuid} (hid : x'.store.secrets.ptr p = some id) :
    ∃ q, q ≠ .retiring ∧ x.store.secrets.ptr q = some id := by
  rcases h.turned hs hr hid with hbefore | ⟨q, hsource, hq⟩
  · exact ⟨p, hr, hbefore⟩
  · refine ⟨q, ?_, hq⟩
    rintro rfl
    cases p <;> cases hsource

/-- **One more act.** -/
theorem NamesStaged.put {start : Secrets} {own : List AppAct} {c : AppCmd} {r : c.Reply}
    {s s' : App} (h : NamesStaged start l s) (hx : App.Exec t c s r s')
    (hm : trackMay t own ⟨t, c, r, s, s'⟩) : NamesStaged start (⟨t, c, r, s, s'⟩ :: l) s' := by
  intro p hp id hid
  by_cases hc : ∃ c', c = .store c'
  · by_cases hs : p = .staging
    · subst hs
      obtain ⟨c', rfl⟩ := hc
      obtain ⟨o, st, ho, rfl⟩ := App.exec_store.mp hx
      rcases key_exec ho (k := .pointer .staging) hid with hbefore | rfl
      · exact (h _ hp id hbefore).cons _
      · exact .inr ⟨_, List.mem_cons_self, rfl⟩
    · obtain ⟨q, hq, hnamed⟩ := (hm hc).named hs hp hid
      exact (h q hq id hnamed).cons _
  · rw [hx.aside.store fun c' h => hc ⟨c', h⟩] at hid
    exact (h p hp id hid).cons _

/-- **Whatever is pointed at was staged**, or was there at the start. -/
theorem names_staged {store : Store} {now epoch : Nat} {clock : ClockSnapshot}
    {usedUuids : List Uuid} {p : (appThreads .any).Running}
    (hp : (appThreads .any).Reaches (App.boot store now epoch clock usedUuids) p) :
    NamesStaged store.secrets p.state.acts p.state.state := by
  refine (trackDiscipline_valid .any).invariant
    (I := fun w => NamesStaged store.secrets w.acts w.state)
    ?_ (fun h hm => ?_) hp
  · exact fun q _ id hid => .inl ⟨q, hid⟩
  cases hm with
  | put hop hrun hx hm => exact h.put hx hm
  | finish => exact h
  | start ht hown hend hstart =>
    obtain ⟨spawned, rfl⟩ := AppOp.Starts.spawned hstart
    exact h
  | env he =>
    obtain ⟨he, -⟩ := he
    cases he <;> exact h
  | crash hc =>
    obtain ⟨⟨now, epoch, clock, rfl, -⟩, -⟩ := hc
    exact h

/-- **A pairing is not replaced without authorization.** Whatever is done, by
however many threads, suspended wherever, and whenever the app is killed:
where a pairing has become the active one that no pointer named at the
start, a setup has staged it. That setup had found nothing set up, neither
in the store nor in memory; or it had used an authorization, current then,
for which both PINs of the active pairing had been given, in one session
generation and with nothing begun or cancelled in between. And since it was
given nobody had touched the authorization, so no other setup has used it. -/
theorem replaced_with_authorization {store : Store} {now epoch : Nat} {clock : ClockSnapshot}
    {usedUuids : List Uuid} {p : (appThreads .any).Running}
    (hp : (appThreads .any).Reaches (App.boot store now epoch clock usedUuids) p) {id : Uuid}
    (hactive : p.state.state.store.secrets.ptr .active = some id)
    (hnew : ¬ Named store.secrets id) :
    ∃ a early, p.state.Happened a early ∧ StagesPairing id a ∧
      (∃ payload, p.state.ops a.thread = some (.setupComplete payload)) ∧
      (FoundUnpaired (early.filter fun d => d.thread = a.thread) ∨
        ∃ u before authorizedAt, p.state.Happened u before ∧ u ∈ early ∧ u.thread = a.thread ∧
          UsesAuthorization authorizedAt u ∧ AuthorizedBy p.state authorizedAt before) := by
  obtain ⟨a, ha, hstages⟩ := (names_staged hp .active nofun id hactive).resolve_left hnew
  obtain ⟨early, he⟩ := Log.happened_of_mem ha
  obtain ⟨op, hop, -, hmay⟩ := (replacingDiscipline_valid .any).followed hp a early he
  obtain ⟨⟨payload, rfl⟩, hentitled⟩ := hmay.stages id hstages
  refine ⟨a, early, he, hstages, ⟨payload, hop⟩, hentitled.imp_right ?_⟩
  rintro ⟨u, hu, authorizedAt, huses⟩
  obtain ⟨hu, hthread⟩ := List.mem_filter.mp hu
  obtain ⟨m, before, rfl⟩ := List.append_of_mem hu
  obtain ⟨later, hacts⟩ := he
  have hhappened : p.state.Happened u before := ⟨later ++ a :: m, by simp [hacts]⟩
  exact ⟨u, before, authorizedAt, hhappened, hu, of_decide_eq_true hthread, huses,
    used_authorized hp hhappened huses⟩

/-- Both PINs are given, and a setup stages the second pairing, which the
desktop has committed and activated. -/
def replacement : List (Play AppOp Answers EnvMove) :=
  [.outside .bind, .start 0 (.setAppForeground true), .run 0 willing 40,
    .start 0 (.authorizePairingReplacement "7394" "739418"), .run 1 willing 200,
    .start 0 .setupPairingCode, .run 2 willing 20,
    .start 0 (.setupComplete somePayload), .run 3 willing 200,
    .start 0 (.serve desktop 1), .run 4 (bringing (.pairingCommit 2)) 200,
    .start 0 (.serve desktop 1), .run 5 (bringing (.pairingActivate 2)) 200]

/-- A listed run over the store with the first pairing. -/
def playFirst (l : List (Play AppOp Answers EnvMove)) : Option (appThreads .any).Running :=
  ((Bench.initial.play (nextPairing.take 6)).map Bench.store).bind fun store =>
    appPlayer.play l (Pool.idle (Log.empty (App.boot store 0 0 ⟨0, 0, Nat.zero_le _⟩ [1])))

omit [Crypto] in
/-- The second pairing is the active one, and the authorization was used. -/
theorem replaced_with_authorization_used : ∃ p : (@appThreads Crypto.plain .any).Running,
    p.state.state.store.secrets.ptr .active = some 2 ∧
    ∃ a early, p.state.Happened a early ∧ StagesPairing 2 a ∧
      ∃ u before authorizedAt, p.state.Happened u before ∧ u ∈ early ∧
        UsesAuthorization authorizedAt u ∧ AuthorizedBy p.state authorizedAt before := by
  have hfirst : ((@Bench.play Crypto.plain Bench.initial (nextPairing.take 6)).map Bench.store).map
      (fun store => namedBy store.secrets 2) = some false := by decide +kernel
  have hresult : (@playFirst Crypto.plain replacement).map (fun p =>
      (p.state.state.store.secrets.ptr .active,
        p.state.acts.all fun e => e.before.store.secrets.ptr .active ≠ none)) =
      some (some 2, true) := by decide +kernel
  obtain ⟨p, hp, hresult⟩ := Option.map_eq_some_iff.mp hresult
  obtain ⟨store, hstore, hp⟩ := Option.bind_eq_some_iff.mp hp
  obtain ⟨hactive, hall⟩ := Prod.mk.inj hresult
  rw [hstore] at hfirst
  have hnew : ¬ Named store.secrets 2 := fun h => by
    have hnone : namedBy store.secrets 2 = false := Option.some.inj hfirst
    rw [named_iff.mp h] at hnone
    cases hnone
  obtain ⟨a, early, ha, hstages, -, hfound | ⟨u, before, authorizedAt, hu, hmem, -, huses⟩⟩ :=
    @replaced_with_authorization Crypto.plain _ _ _ _ _ _ (Player.play_sound hp) 2 hactive hnew
  · -- there was an active pairing all the time
    obtain ⟨⟨d, hd, hnone⟩, -⟩ := hfound
    obtain ⟨later, hacts⟩ := ha
    have hd : d ∈ p.state.acts := by
      rw [hacts]
      exact List.mem_append_right _ (List.mem_cons_of_mem _ (List.mem_of_mem_filter hd))
    have hsome : d.before.store.secrets.ptr .active ≠ none :=
      of_decide_eq_true (List.all_eq_true.mp hall d hd)
    exact absurd hnone hsome
  · exact ⟨p, hactive, a, early, ha, hstages, u, before, authorizedAt, hu, hmem, huses⟩

end Phone
