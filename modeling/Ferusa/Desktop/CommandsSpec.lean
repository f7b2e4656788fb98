import Ferusa.Desktop.Blob
import Ferusa.Desktop.PairSpec

/-!
# What the commands leave behind

Between two commands nothing is recorded while the session is open, and
the keys and the pairing of the session are those of the files
(`Idle`) – the latter as long as no storage call fails in the short time
in which a finished replacement is not yet that of the session
(`Careful`) – and its vault is the one on disk, as long as none fails in
the short time in which a vault that was saved is not yet that of the
session (`Faults.Saving`). Every command keeps this, whether it returns
or fails.
-/

namespace Desktop

open Logic Directory DeskProg

variable {ν : Type} {O : Outside ν} {faults : Faults} {v w : Directory} {α : Type}
  {s₀ : SessionState} {F : World ν → Prop}

/-- **The vault of the session is the one on disk.** -/
def Saved (s₀ : SessionState) (v : Directory) : Prop :=
  ∃ blob, v .vaultEnc = some (.vault blob) ∧ blob.plaintext = s₀.vault

/-- **Nothing fails while the vault on disk is not that of the
session.** -/
def Faults.Saving (faults : Faults) : Prop :=
  ∀ s₀ v, faults (some s₀) v → Saved s₀ v

/-- **The files of an open session.** -/
structure Held (faults : Faults) (s₀ : SessionState) (v : Directory) : Prop where
  noRecord : v.NoRecord
  matched : Careful faults → Matched s₀ v
  saved : faults.Saving → Saved s₀ v

/-- **The session is open**, on its files. -/
def Open (faults : Faults) (s : World ν) : Prop :=
  ∃ s₀ v, Held faults s₀ v ∧ At faults (some s₀) v (fun _ => True) s

/-- **Between two commands**: a session that is open is on its files. -/
def Idle (faults : Faults) (s : World ν) : Prop :=
  ∃ sess v, (∀ s₀, sess = some s₀ → Held faults s₀ v) ∧ At faults sess v (fun _ => True) s

theorem Open.idle {s : World ν} (h : Open faults s) : Idle faults s := by
  obtain ⟨s₀, v, hheld, hs⟩ := h
  exact ⟨some s₀, v, fun _ he => Option.some.inj he ▸ hheld, hs⟩

theorem Somewhere.idle {X : Directory → Prop} {K : ν → Prop} {s : World ν}
    (h : Somewhere faults none X K s) : Idle faults s := by
  obtain ⟨v, -, hs⟩ := h
  exact ⟨none, v, nofun, hs.mono fun _ _ => trivial⟩

theorem At.idle {K : ν → Prop} {s : World ν} (h : At faults none v K s) : Idle faults s :=
  (h.somewhere (X := fun _ => True) trivial).idle

theorem At.open {K : ν → Prop} {s : World ν} (h : At faults (some s₀) v K s)
    (hheld : Held faults s₀ v) : Open faults s :=
  ⟨s₀, v, hheld, h.mono fun _ _ => trivial⟩

theorem stable_open : (deskLogic O faults).Stable (Open faults) :=
  Stable.exists fun _ => Stable.exists fun _ =>
    (Stable.const _ _).and (stable_at (.nothing O))

theorem stable_idle : (deskLogic O faults).Stable (Idle faults) :=
  Stable.exists fun _ => Stable.exists fun _ =>
    (Stable.const _ _).and (stable_at (.nothing O))

/-- A program started with the session open. -/
theorem open_runs {p : DeskProg α} {Q : α → World ν → Prop}
    (h : ∀ s₀ v, Held faults s₀ v → DeskRuns O faults F
      (At faults (some s₀) v fun _ => True) p Q) : DeskRuns O faults F (Open faults) p Q :=
  Triple.exists fun s₀ => Triple.exists fun v => Triple.given (h s₀ v)

/-- **What a session is opened with and keeps**: all but the vault and
the requests that wait. -/
structure SameKeys (s₀ s₁ : SessionState) : Prop where
  localSecret : s₁.localSecret = s₀.localSecret
  vaultKey : s₁.vaultKey = s₀.vaultKey
  phoneShare : s₁.phoneShare = s₀.phoneShare
  vaultSalt : s₁.vaultSalt = s₀.vaultSalt
  pairing : s₁.pairing = s₀.pairing

theorem Matched.sameKeys {s₁ : SessionState} (h : Matched s₀ v) (hk : SameKeys s₀ s₁) :
    Matched s₁ v := by
  obtain ⟨⟨blob, hv, hkey, hsalt⟩, ⟨data, hp, hpair⟩, hcomb⟩ := h
  refine ⟨⟨blob, hv, hkey.trans hk.vaultKey.symm, hsalt.trans hk.vaultSalt.symm⟩,
    ⟨data, hp, hk.pairing.trans hpair⟩, ?_⟩
  rw [hk.vaultKey, hk.localSecret, hk.phoneShare]
  exact hcomb

theorem Saved.sameVault {s₁ : SessionState} (h : Saved s₀ v) (hvault : s₁.vault = s₀.vault) :
    Saved s₁ v := by
  obtain ⟨blob, hv, hplain⟩ := h
  exact ⟨blob, hv, hplain.trans hvault.symm⟩

theorem Held.sameKeys {s₁ : SessionState} (h : Held faults s₀ v) (hk : SameKeys s₀ s₁)
    (hvault : s₁.vault = s₀.vault) : Held faults s₁ v :=
  ⟨h.noRecord, fun hc => (h.matched hc).sameKeys hk, fun hf => (h.saved hf).sameVault hvault⟩

theorem Matched.sameLive (h : Matched s₀ v) (hw : SameLive v w) : Matched s₀ w := by
  obtain ⟨⟨blob, hv, hkey⟩, ⟨data, hp, hpair⟩, hcomb⟩ := h
  exact ⟨⟨blob, hw.1.trans hv, hkey⟩, ⟨data, hw.2.trans hp, hpair⟩, hcomb⟩

theorem Saved.sameLive (h : Saved s₀ v) (hw : SameLive v w) : Saved s₀ w := by
  obtain ⟨blob, hv, hplain⟩ := h
  exact ⟨blob, hw.1.trans hv, hplain⟩

theorem CoreEq.sameLive (h : CoreEq v w) : SameLive v w :=
  ⟨h _ (by decide), h _ (by decide)⟩

theorem Held.coreEq (h : Held faults s₀ v) (hw : CoreEq v w) : Held faults s₀ w :=
  ⟨hw.noRecord h.noRecord, fun hc => (h.matched hc).sameLive hw.sameLive,
    fun hf => (h.saved hf).sameLive hw.sameLive⟩

/-! ## Programs that leave the session open -/

/-- **The session stays open**, on its files, whether the program
returns or fails. -/
abbrev StaysOpen (O : Outside ν) (faults : Faults) (p : DeskProg α) : Prop :=
  DeskRuns O faults (Open faults) (Open faults) p (fun _ => Open faults)

theorem StaysOpen.bind {β : Type} {p : DeskProg β} {f : β → DeskProg α}
    (hp : StaysOpen O faults p) (hf : ∀ b, StaysOpen O faults (f b)) :
    StaysOpen O faults (p >>= f) :=
  Triple.bind hp hf

theorem open_ask {c : EnvCmd} (hsend : ∀ v, Sendable v c) : StaysOpen O faults (ask c) :=
  open_runs fun _ v hheld => (ask_any_runs (.nothing O) (hsend v)).post
    fun _ _ _ hs => hs.open hheld

theorem open_pure {a : α} : StaysOpen O faults (pure a) :=
  Triple.pure stable_open fun _ _ hs => hs

theorem open_fail {e : Anyhow} : StaysOpen O faults (.fail e : DeskProg α) :=
  Triple.fail stable_open fun _ _ hs => hs

theorem open_answer {message : String} {r : Except String α} :
    StaysOpen O faults (answer message r) := by
  cases r with
  | ok a => exact open_pure
  | error e => exact open_fail

theorem open_ensure {check : Prop} [Decidable check] {message : String} :
    StaysOpen O faults (Prog.ensure check message) :=
  (Triple.ensure stable_open fun _ _ hs _ => hs).post fun _ _ _ hs => hs.2

theorem open_okOr {a : Option α} {message : String} :
    StaysOpen O faults (Prog.okOr message a) :=
  (Triple.okOr stable_open fun _ _ hs _ => hs).post fun _ _ _ hs => hs.2

theorem open_ofExcept {a : Except Anyhow α} : StaysOpen O faults (Prog.ofExcept a) :=
  Triple.ofExcept stable_open (fun _ _ _ _ hs => hs) fun _ _ _ _ hs => hs

theorem open_session : StaysOpen O faults session :=
  open_runs fun _ _ hheld => (session_runs (.nothing O)).post fun _ _ _ hs => hs.2.open hheld

/-- Reading a session that is open. -/
theorem open_getSession {k : Option SessionState → DeskProg α} {Q : α → World ν → Prop}
    (h : ∀ s₀ v, Held faults s₀ v → DeskRuns O faults F
      (At faults (some s₀) v fun _ => True) (k (some s₀)) Q) :
    DeskRuns O faults F (Open faults) (Prog.perform DeskCmd.getSession >>= k) Q :=
  open_runs fun s₀ v hheld => getSession_runs (.nothing O) (h s₀ v hheld)

/-- A program that starts by reading the session. -/
theorem open_session_bind {k : SessionState → DeskProg α} {Q : α → World ν → Prop}
    (h : ∀ s₀ v, Held faults s₀ v → DeskRuns O faults F
      (At faults (some s₀) v fun _ => True) (k s₀) Q) :
    DeskRuns O faults F (Open faults) (session >>= k) Q :=
  open_runs fun s₀ v hheld => Triple.bind (session_runs (.nothing O)) fun _ =>
    Triple.given fun he => he ▸ h s₀ v hheld

/-- The session is replaced by one with the same keys and vault. -/
theorem setSession_open {s₁ : SessionState} (hU : faults.Uniform) (hheld : Held faults s₀ v)
    (hk : SameKeys s₀ s₁) (hvault : s₁.vault = s₀.vault) :
    DeskRuns O faults F (At faults (some s₀) v fun _ => True) (setSession (some s₁))
      (fun _ => Open faults) :=
  (setSession_runs (.nothing O) (hU _ _)).post fun _ _ _ hs => hs.open (hheld.sameKeys hk hvault)

/-- A program on the files that leaves the directory as it is. -/
theorem open_files {p : FileProg α}
    (h : ∀ faults v, Runs faults .recover (· = v) (Snapshot faults v) p
      (fun _ => Snapshot faults v)) : StaysOpen O faults (files p) :=
  open_runs fun s₀ v hheld => (files_read_runs (R := fun _ => True)
    ((h (faults (some s₀)) v).post fun _ _ _ hs => ⟨trivial, hs⟩) (.nothing O)
      fun _ hs => hs.open hheld).post fun _ _ _ hs => hs.2.open hheld

/-! ## Approval -/

theorem pairingStatus_runs {op : FileOp} {faults : Directory → Prop} {X : Directory → Prop} :
    Runs faults op X (Snapshot faults v) pairingStatus (fun _ => Snapshot faults v) := by
  refine Triple.bind (pathExists_runs _) fun pending => Triple.given fun _ => ?_
  cases pending with
  | true => exact runs_pure fun _ hs => hs
  | false =>
  refine Triple.bind (pathExists_runs _) fun recorded => Triple.given fun _ => ?_
  cases recorded with
  | true => exact runs_pure fun _ hs => hs
  | false =>
  refine Triple.bind (pathExists_runs _) fun paired => Triple.given fun _ => ?_
  cases paired with
  | true =>
    exact Triple.bind readPairingDataFromState_runs fun _ => Triple.given fun _ =>
      runs_pure fun _ hs => hs
  | false =>
  refine Triple.bind (pathExists_runs _) fun phoneId => Triple.given fun _ => ?_
  cases phoneId with
  | true => exact runs_pure fun _ hs => hs
  | false =>
  refine Triple.bind (pathExists_runs _) fun hmacKey => Triple.given fun _ => ?_
  cases hmacKey with
  | true => exact runs_pure fun _ hs => hs
  | false => exact runs_pure fun _ hs => hs

variable [Crypto]

theorem exchangeForSession_open (hU : faults.Uniform) (req : AuthRequest) :
    StaysOpen O faults (exchangeForSession req) := by
  refine .bind open_session fun s => .bind open_okOr fun pairing => .bind open_ensure fun _ => ?_
  refine .bind (open_ask fun _ => trivial) fun r => .bind open_answer fun resp => ?_
  refine .bind open_ofExcept fun _ => open_session_bind fun s₀ v hheld => ?_
  cases s₀.pendingRequests.lookup resp.requestId with
  | none => exact (open_fail (O := O)).pre fun _ _ hs => hs.open hheld
  | some pending =>
    refine Triple.bind (setSession_open hU hheld ⟨rfl, rfl, rfl, rfl, rfl⟩ rfl) fun _ => ?_
    exact StaysOpen.bind (open_ask fun _ => trivial) fun now => open_ofExcept

/-- **`request_approval_for_session`** touches the waiting requests
only. -/
theorem requestApprovalForSession_open (hU : faults.Uniform) (action : VaultAction)
    (entryTitle : Option String) (unlockShareRequested : Bool) :
    StaysOpen O faults (requestApprovalForSession action entryTitle unlockShareRequested) := by
  refine .bind (open_ask fun _ => trivial) fun requestId => ?_
  refine .bind (open_ask fun _ => trivial) fun correlationCode => ?_
  refine .bind (open_ask fun _ => trivial) fun timestamp => ?_
  refine .bind open_session fun s => .bind open_okOr fun pairing => ?_
  refine open_session_bind fun s₀ v hheld => ?_
  refine Triple.bind (setSession_open hU hheld ⟨rfl, rfl, rfl, rfl, rfl⟩ rfl) fun _ => ?_
  refine StaysOpen.bind (Triple.attempt (M := fun _ => Open faults)
    (exchangeForSession_open hU _)) fun result => ?_
  refine StaysOpen.bind (open_getSession fun s₀ v hheld => ?_) fun _ => open_ofExcept
  exact setSession_open hU hheld ⟨rfl, rfl, rfl, rfl, rfl⟩ rfl

theorem approvedAction_open (hU : faults.Uniform) (status : UnlockStatus) (action : VaultAction)
    (entryTitle : Option String) : StaysOpen O faults (approvedAction status action entryTitle) := by
  cases status with
  | newlyUnlocked => exact open_pure
  | alreadyUnlocked =>
    refine .bind (open_files fun _ _ => pairingStatus_runs) fun status => ?_
    cases status with
    | ready => exact .bind (requestApprovalForSession_open hU _ _ _) fun _ => open_pure
    | _ => exact open_fail

/-! ## Unlocking -/

theorem loadVaultBlob_runs {op : FileOp} {faults : Directory → Prop} :
    Runs faults op (· = v) (Snapshot faults v) loadVaultBlob
      (fun blob s => v .vaultEnc = some (.vault blob) ∧ Snapshot faults v s) := by
  refine Triple.bind (readFile_runs _ (fun _ => rfl) fun _ => rfl) fun contents =>
    Triple.given fun hc => ?_
  cases contents with
  | vault blob =>
    refine Triple.bind (runs_ensure fun _ => rfl) fun _ => Triple.given fun _ => ?_
    exact runs_pure fun _ hs => ⟨hc, hs⟩
  | _ => exact runs_fail rfl

omit [Crypto] in
theorem readPairingData_runs {op : FileOp} {faults : Directory → Prop} :
    Runs faults op (· = v) (Snapshot faults v) readPairingData
      (fun data s => v .pairingState = some (.pairing { version := 3, data }) ∧
        Snapshot faults v s) := by
  refine Triple.bind (pathExists_runs _) fun present => Triple.given fun _ => ?_
  cases present with
  | false => exact runs_fail rfl
  | true =>
    refine Triple.bind readPairingDataFromState_runs fun r => Triple.given fun hr => ?_
    cases r with
    | error e => exact runs_fail rfl
    | ok data => exact Triple.ret (stable _) fun _ _ hs => ⟨hr data rfl, hs⟩

theorem requestUnlockShare_runs {sess : Option SessionState} {K : ν → Prop} (hK : O.Lasts K)
    (hF : ∀ s, At faults sess v K s → F s) (pairing : PairingData) (action : VaultAction)
    (entryTitle : Option String) :
    DeskRuns O faults F (At faults sess v K) (requestUnlockShare pairing action entryTitle)
      (fun _ => At faults sess v K) := by
  refine Triple.bind (M := fun _ => At faults sess v K) ?_ fun result => ?_
  · refine Triple.bind (ask_any_runs hK trivial) fun requestId => ?_
    refine Triple.bind (ask_any_runs hK trivial) fun correlationCode => ?_
    refine Triple.bind (ask_any_runs hK trivial) fun timestamp => ?_
    refine Triple.bind (ask_any_runs hK trivial) fun r => ?_
    refine Triple.bind (answer_runs hK hF) fun resp => Triple.given fun _ => ?_
    refine Triple.bind (ask_any_runs hK trivial) fun now => ?_
    exact (desk_ofExcept hK hF).post fun _ _ _ hs => hs.2
  · cases result.unlockShare with
    | some share => exact desk_pure hK fun _ hs => hs
    | none => exact desk_fail hK hF

/-- **The vault is opened**: it decrypts, so the session is that of the
files. -/
theorem unlockPaired_runs (hU : faults.Uniform) (action : VaultAction)
    (entryTitle : Option String) (htxn : v.NoRecord) :
    DeskRuns O faults (Idle faults) (At faults none v fun _ => True)
      (unlockPaired action entryTitle) (fun _ => Open faults) := by
  have hK := Outside.Lasts.nothing O
  have hF (w : Directory) : ∀ s : World ν, At faults none w (fun _ => True) s → Idle faults s :=
    fun _ hs => hs.idle
  refine Triple.bind (M := fun _ => At faults none v fun _ => True) (Triple.bind
    (ask_any_runs hK trivial) fun r => (answer_runs hK (hF v)).post fun _ _ _ hs => hs.2)
      fun password => ?_
  refine Triple.bind (files_read_runs loadVaultBlob_runs hK (hF v)) fun blob =>
    Triple.given fun hblob => ?_
  refine Triple.bind (files_known pairingStatus_runs hK (hF v)) fun status => ?_
  cases status with
  | ready =>
    refine Triple.bind (desk_error (initPeer_runs none v _ hK) fun s hs => hs.idle) fun _ =>
      somewhere_runs fun w hw => ?_
    refine Triple.bind (files_read_runs (Triple.context readPairingData_runs) hK (hF w))
      fun pairing => Triple.given fun hpairing => ?_
    refine Triple.bind (requestUnlockShare_runs hK (hF w) _ _ _) fun share => ?_
    refine Triple.bind (desk_ofExcept hK (hF w)) fun vault => Triple.given fun hvault => ?_
    obtain ⟨hkey, hplain, -⟩ := decryptVaultBlob_eq_ok_iff.mp hvault
    have hblob' := hw.sameLive.1.trans hblob
    exact (setSession_runs hK (hU _ _)).post fun _ s _ hs => hs.open ⟨hw.noRecord htxn,
      fun _ => ⟨⟨blob, hblob', hkey, rfl⟩, ⟨pairing, hpairing, rfl⟩, rfl⟩,
      fun _ => ⟨blob, hblob', hplain.symm⟩⟩
  | _ => exact desk_fail hK (hF v)

omit [Crypto] in
theorem ensureNotDev2faStubVault_runs {op : FileOp} {faults : Directory → Prop} :
    Runs faults op (· = v) (Snapshot faults v) ensureNotDev2faStubVault
      (fun _ => Snapshot faults v) := by
  refine Triple.bind (pathExists_runs _) fun stub => Triple.given fun _ => ?_
  cases stub with
  | true => exact runs_fail rfl
  | false => exact runs_pure fun _ hs => hs

/-- **`ensure_unlocked_for`.** -/
theorem ensureUnlockedFor_runs (hU : faults.Uniform) (action : VaultAction)
    (entryTitle : Option String) :
    DeskRuns O faults (Idle faults) (Idle faults) (ensureUnlockedFor action entryTitle)
      (fun _ => Open faults) := by
  have hK := Outside.Lasts.nothing O
  refine Triple.exists fun sess => Triple.exists fun v => Triple.given fun hheld => ?_
  refine getSession_runs hK ?_
  cases sess with
  | some s₀ => exact desk_pure hK fun s hs => hs.open (hheld s₀ rfl)
  | none =>
    have hF (w : Directory) : ∀ s : World ν, At faults none w (fun _ => True) s → Idle faults s :=
      fun _ hs => hs.idle
    refine Triple.bind (files_known (Triple.context (quiet_snapshot_runs fun _ => rfl)) hK (hF v))
      fun _ => ?_
    refine Triple.bind (files_known (Triple.context (quiet_snapshot_runs fun _ => rfl)) hK (hF v))
      fun _ => ?_
    refine Triple.bind (Triple.context (desk_error (reconcilePairingTransaction_runs hK)
      fun s hs => hs.idle)) fun _ => somewhere_runs fun w htxn => ?_
    refine Triple.bind (files_known ensureNotDev2faStubVault_runs hK (hF w)) fun _ => ?_
    refine Triple.bind (pathExists_known _ hK) fun present => Triple.given fun _ => ?_
    refine Triple.bind (desk_ensure hK fun s hs _ => hF w s hs) fun _ => Triple.given fun _ => ?_
    exact Triple.bind (unlockPaired_runs hU action entryTitle htxn) fun _ =>
      Triple.pure stable_open fun _ _ hs => hs

/-! ## Saving -/

/-- The vault keeps the phone share of its key. -/
def KeepsShare (faults : Faults) (blob : EncryptedBlob) (v : Directory) : Prop :=
  Careful faults → ∃ old, v .vaultEnc = some (.vault old) ∧
    old.key.phoneShare = blob.key.phoneShare

omit [Crypto] in
theorem FileStep.keepsShare {blob : EncryptedBlob} (h : FileStep (.save blob) v w)
    (htxn : v.NoRecord) (hv : KeepsShare faults blob v) : KeepsShare faults blob w := by
  cases h.live with
  | same h => exact fun hc => (hv hc).imp fun old ho => ⟨h.1.trans ho.1, ho.2⟩
  | promoteVault hrec => exact absurd htxn hrec.not_noRecord
  | promotePairing hrec => exact absurd htxn hrec.not_noRecord
  | save hop _ h =>
    obtain rfl : blob = _ := FileOp.save.inj hop
    exact fun _ => ⟨blob, h, rfl⟩

omit [Crypto] in
/-- **The vault is written**, under a key with the share of the one
before. -/
theorem saveVault_runs {sess : Option SessionState} {blob : EncryptedBlob} (hO : O.saves)
    (htxn : v.NoRecord) (hshare : KeepsShare faults blob v) :
    DeskRuns O faults
      (Somewhere faults sess
        (Uncertain (faults sess) v (v.put .vaultEnc (.vault blob))) fun _ => True)
      (At faults sess v fun _ => True)
      (files (writePrivateFile .vaultEnc (.vault blob)))
      (fun _ => At faults sess (v.put .vaultEnc (.vault blob)) fun _ => True) := by
  have hrun : Runs (faults sess) (.save blob) _ _ _ _ :=
    writePrivateFile_uncertain (.save rfl htxn)
  refine (files_hoist (G := fun s => s.dir.NoRecord ∧ KeepsShare faults blob s.dir) hrun
    ?_ ?_).conseq ?_ ?_ ?_
  · rintro s s' hG hdesk -
    rw [World.dir, hdesk]
    exact hG
  · rintro s f rfl ⟨hnone, hkeep⟩ hf
    refine ⟨.files hf ⟨hO, hkeep⟩, ?_⟩
    show f.named.NoRecord ∧ KeepsShare faults blob f.named
    refine ⟨hf.noRecord (fun _ _ h => by cases h) hnone, ?_⟩
    obtain h | h := hf.named
    · exact h ▸ hkeep
    · exact h.keepsShare hnone hkeep
  · rintro s - hs
    exact ⟨hs.files, hs.session, hs.dir ▸ htxn, hs.dir ▸ hshare⟩
  · rintro _ s - ⟨hs, hsess, -⟩
    exact ⟨hsess, hs, trivial⟩
  · rintro _ s - ⟨⟨w, hw, hs⟩, hsess, -⟩
    exact ⟨w, hw, hsess, hs, trivial⟩

omit [Crypto] in
theorem Matched.save (h : Matched s₀ v) (vault : Vault) :
    Matched s₀ (v.put .vaultEnc (.vault (encryptVault s₀.vaultKey s₀.vaultSalt vault))) := by
  obtain ⟨-, ⟨data, hp, hpair⟩, hcomb⟩ := h
  refine ⟨⟨encryptVault s₀.vaultKey s₀.vaultSalt vault, ?_, rfl, rfl⟩, ⟨data, ?_, hpair⟩, hcomb⟩
  · rw [put_apply, if_pos rfl]
  · rw [put_apply, if_neg (by decide)]
    exact hp

omit [Crypto] in
theorem Held.put (h : Held faults s₀ v) {f : FileName} {contents : Content}
    (hf : f ≠ .pairingTransactionState) : (v.put f contents).NoRecord := by
  show v.put _ _ .pairingTransactionState = none
  rw [put_apply, if_neg hf.symm]
  exact h.noRecord

omit [Crypto] in
/-- What a save leaves is that of the session once its vault is
replaced. -/
theorem Held.save (h : Held faults s₀ v) (vault : Vault) :
    Held faults { s₀ with vault }
      (v.put .vaultEnc (.vault (encryptVault s₀.vaultKey s₀.vaultSalt vault))) := by
  refine ⟨h.put (by decide), fun hc => ?_, fun _ => ?_⟩
  · exact ((h.matched hc).save vault).sameKeys ⟨rfl, rfl, rfl, rfl, rfl⟩
  · exact ⟨_, by rw [put_apply, if_pos rfl], rfl⟩

omit [Crypto] in
/-- What a save that failed leaves is that of the session, unless the
call failed that should not. -/
theorem Held.unsaved (h : Held faults s₀ v) (vault : Vault)
    (hfault : faults (some s₀)
      (v.put .vaultEnc (.vault (encryptVault s₀.vaultKey s₀.vaultSalt vault)))) :
    Held faults s₀ (v.put .vaultEnc (.vault (encryptVault s₀.vaultKey s₀.vaultSalt vault))) :=
  ⟨h.put (by decide), fun hc => (h.matched hc).save vault, fun hf => hf s₀ _ hfault⟩

omit [Crypto] in
theorem Held.keepsShare (h : Held faults s₀ v) {localSecret : LocalSecret} {vaultSalt : Salt}
    {vault : Vault} :
    KeepsShare faults
      (encryptVault (combineVaultKey localSecret s₀.phoneShare) vaultSalt vault) v := by
  intro hc
  obtain ⟨⟨blob, hv, hkey, -⟩, -, hcomb⟩ := h.matched hc
  exact ⟨blob, hv, by rw [hkey, hcomb]; rfl⟩

/-- **`save_vault_candidate`.** -/
theorem saveVaultCandidate_open (hU : faults.Uniform) (hO : O.saves) (vault : Vault) :
    StaysOpen O faults (saveVaultCandidate vault) := by
  refine open_session_bind fun s₀ v hheld => ?_
  have hK := Outside.Lasts.nothing O
  refine Triple.bind (M := fun _ => At faults (some s₀)
    (v.put .vaultEnc (.vault (encryptVault s₀.vaultKey s₀.vaultSalt vault))) fun _ => True) ?_
      fun _ => Triple.bind (session_runs hK) fun s => Triple.given fun hs => ?_
  swap
  · subst hs
    exact (setSession_runs hK (hU _ _)).post fun _ _ _ hs => hs.open (hheld.save vault)
  refine Triple.bind (desk_ofExcept hK fun _ hs => hs.open hheld) fun blob =>
    Triple.given fun hblob => ?_
  obtain ⟨-, rfl⟩ := sealVault_eq_ok_iff.mp hblob
  have hshare : KeepsShare faults (encryptVault s₀.vaultKey s₀.vaultSalt vault) v := by
    intro hc
    obtain ⟨⟨blob, hv, hkey, -⟩, -, hcomb⟩ := hheld.matched hc
    exact ⟨blob, hv, by rw [hkey]; rfl⟩
  rw [files_context]
  refine desk_error (Triple.context (saveVault_runs hO hheld.noRecord hshare)) ?_
  rintro s ⟨w, ⟨rfl | rfl, hfault⟩, hs⟩
  · exact hs.open hheld
  · exact hs.open (hheld.unsaved vault hfault)

/-! ## Reading and changing entries -/

omit [Crypto] in
theorem open_readLine {message : String} : StaysOpen O faults (readLine message) :=
  .bind (open_ask fun _ => trivial) fun _ => open_answer

omit [Crypto] in
theorem open_promptPassword {message : String} : StaysOpen O faults (promptPassword message) :=
  .bind (open_ask fun _ => trivial) fun _ => open_answer

omit [Crypto] in
theorem requireEntry_open (title : String) : StaysOpen O faults (requireEntry title) :=
  .bind open_session fun _ => open_ensure

omit [Crypto] in
theorem promptOptional_open : StaysOpen O faults promptOptional :=
  .bind open_readLine fun _ => open_pure

omit [Crypto] in
theorem promptWithDefault_open (default : String) :
    StaysOpen O faults (promptWithDefault default) :=
  .bind open_readLine fun _ => open_pure

omit [Crypto] in
theorem promptOptionalWithDefault_open (default : Option String) :
    StaysOpen O faults (promptOptionalWithDefault default) :=
  .bind open_readLine fun _ => open_pure

omit [Crypto] in
theorem promptPasswordChange_open : StaysOpen O faults promptPasswordChange := by
  refine .bind open_readLine fun choice => ?_
  show StaysOpen O faults (if _ then _ else _)
  split
  · exact .bind (open_ask fun _ => trivial) fun _ => .bind open_answer fun _ => open_pure
  · split
    · exact .bind open_promptPassword fun _ => .bind open_ensure fun _ => open_pure
    · exact open_pure

/-- A command that unlocks the vault and leaves the session open. -/
theorem unlocked_idle {action : VaultAction} {entryTitle : Option String}
    {p : UnlockStatus → DeskProg α} (hU : faults.Uniform) (hp : ∀ st, StaysOpen O faults (p st)) :
    DeskRuns O faults (Idle faults) (Idle faults) (ensureUnlockedFor action entryTitle >>= p)
      (fun _ => Idle faults) :=
  Triple.bind (ensureUnlockedFor_runs hU action entryTitle) fun st =>
    (desk_error (hp st) fun _ hs => hs.idle).post fun _ _ _ hs => hs.idle

theorem cmdList_idle (hU : faults.Uniform) :
    DeskRuns O faults (Idle faults) (Idle faults) cmdList (fun _ => Idle faults) :=
  unlocked_idle hU fun st => .bind (approvedAction_open hU st _ _) fun _ =>
    .bind open_session fun _ => open_pure

theorem cmdGet_idle (hU : faults.Uniform) (title : String) :
    DeskRuns O faults (Idle faults) (Idle faults) (cmdGet title) (fun _ => Idle faults) :=
  unlocked_idle hU fun st => .bind (requireEntry_open title) fun _ =>
    .bind (approvedAction_open hU st _ _) fun _ => .bind open_session fun _ =>
      .bind open_okOr fun _ => .bind (open_ask fun _ => trivial) fun _ => open_answer

theorem cmdAdd_idle (hU : faults.Uniform) (hO : O.saves) (title : String) :
    DeskRuns O faults (Idle faults) (Idle faults) (cmdAdd title) (fun _ => Idle faults) := by
  refine unlocked_idle hU fun st => .bind open_ensure fun _ => .bind open_session fun _ => ?_
  refine .bind open_ensure fun _ => .bind (approvedAction_open hU st _ _) fun _ => ?_
  refine .bind promptOptional_open fun _ => .bind (open_ask fun _ => trivial) fun _ => ?_
  refine .bind open_answer fun _ => .bind promptOptional_open fun _ => ?_
  refine .bind promptOptional_open fun _ => .bind promptOptional_open fun _ => ?_
  refine .bind (open_ask fun _ => trivial) fun _ => .bind (open_ask fun _ => trivial) fun _ => ?_
  exact .bind open_session fun _ => saveVaultCandidate_open hU hO _

theorem cmdEdit_idle (hU : faults.Uniform) (hO : O.saves) (title : String) :
    DeskRuns O faults (Idle faults) (Idle faults) (cmdEdit title) (fun _ => Idle faults) := by
  refine unlocked_idle hU fun st => .bind (requireEntry_open title) fun _ => ?_
  refine .bind (approvedAction_open hU st _ _) fun _ => .bind open_session fun _ => ?_
  refine .bind open_okOr fun e => .bind (promptWithDefault_open _) fun _ => ?_
  refine .bind (promptOptionalWithDefault_open _) fun _ => .bind promptPasswordChange_open fun _ => ?_
  refine .bind (promptOptionalWithDefault_open _) fun _ => ?_
  refine .bind (promptOptionalWithDefault_open _) fun _ => ?_
  refine .bind (promptWithDefault_open _) fun _ => .bind (open_ask fun _ => trivial) fun _ => ?_
  refine .bind open_session fun _ => .bind open_ensure fun _ => .bind open_session fun _ => ?_
  exact .bind open_ensure fun _ => saveVaultCandidate_open hU hO _

theorem cmdRemove_idle (hU : faults.Uniform) (hO : O.saves) (title : String) :
    DeskRuns O faults (Idle faults) (Idle faults) (cmdRemove title) (fun _ => Idle faults) := by
  refine unlocked_idle hU fun st => .bind (requireEntry_open title) fun _ => ?_
  refine .bind open_readLine fun answer => ?_
  show StaysOpen O faults (if _ then _ else _)
  split
  · refine .bind (approvedAction_open hU st _ _) fun _ => .bind open_session fun _ => ?_
    exact .bind open_ensure fun _ => saveVaultCandidate_open hU hO _
  · exact open_pure

/-! ## Changing the password -/

omit [Crypto] in
theorem promptNewPassword_open {first confirm mismatch : String} :
    StaysOpen O faults (promptNewPassword first confirm mismatch) :=
  .bind open_promptPassword fun _ => .bind open_ofExcept fun _ =>
    .bind open_promptPassword fun _ => .bind open_ensure fun _ => open_pure

omit [Crypto] in
theorem lockSession_runs {sess : Option SessionState} (hU : faults.Uniform) :
    DeskRuns O faults F (At faults sess v fun _ => True) lockSession (fun _ => Idle faults) :=
  (setSession_runs (.nothing O) (hU _ _)).post fun _ _ _ hs => hs.idle

omit [Crypto] in
/-- The legacy file goes, if it is there. The directory is not synced
after it. -/
theorem removeLegacyVaultSalt_runs {op : FileOp} {faults : Directory → Prop}
    (hfail : ¬ Reliable faults) :
    Runs faults op (CoreEq v) (Snapshot faults v) removeLegacyVaultSalt
      (fun _ s => ∃ w, CoreEq v w ∧ Snapshot faults w s) := by
  have hnot : FileName.vaultSalt ∉ coreFiles := by decide
  refine Triple.perform_bind (M := fun _ s => ∃ w, CoreEq v w ∧ Snapshot faults w s)
    (stable _) ?_ fun r => ?_
  · rintro s r s' - hs ⟨o, ho, -⟩
    cases o with
    | ok n =>
      cases hf : s.named .vaultSalt with
      | none =>
        obtain ⟨rfl, rfl⟩ : Except.error IoError.notFound = r ∧ s = s' := by
          simpa [Files.exec, hf] using ho
        exact ⟨.same rfl, v, .refl v, hs⟩
      | some contents =>
        obtain ⟨rfl, rfl⟩ : Except.ok () = r ∧ s.change (.drop .vaultSalt) = s' := by
          simpa [Files.exec, hf] using ho
        refine ⟨.change (.drop .vaultSalt) rfl ?_ hs.2, v.drop .vaultSalt, .drop hnot, ?_⟩
        · exact .dropOther hnot
        · refine ⟨?_, fun hr => absurd hr hfail⟩
          show Directory.drop s.named .vaultSalt = _
          rw [hs.1]
    | fail e =>
      cases e with
      | notFound => simp [Files.exec] at ho
      | _ =>
        obtain ⟨rfl, rfl⟩ : Except.error _ = r ∧ s = s' := by simpa [Files.exec] using ho
        exact ⟨.same rfl, v, .refl v, hs⟩
  · cases r with
    | ok u => exact Triple.pure (stable _) fun _ _ hs => hs
    | error e =>
      cases e with
      | other text => exact Triple.fail (stable _) fun _ _ hs => hs
      | _ => exact Triple.pure (stable _) fun _ _ hs => hs

omit [Crypto] in
/-- **`rotate_vault`**: the vault and the session change their key
together, or the session is locked. -/
theorem rotateVault_idle (hU : faults.Uniform) (hO : O.saves)
    (hfail : ∀ sess, ¬ Reliable (faults sess)) (localSecret : LocalSecret)
    (newSalt : Salt) :
    DeskRuns O faults (Idle faults) (Open faults) (rotateVault localSecret newSalt)
      (fun _ => Idle faults) := by
  refine open_session_bind fun s₀ v hheld => ?_
  have hshare : KeepsShare faults (encryptVault (combineVaultKey localSecret s₀.phoneShare)
    newSalt s₀.vault) v := hheld.keepsShare
  refine Triple.bind (Triple.attempt (M := Logic.either
    (fun _ => At faults (some s₀) (v.put .vaultEnc (.vault (encryptVault
      (combineVaultKey localSecret s₀.phoneShare) newSalt s₀.vault))) fun _ => True)
    fun _ => Somewhere faults (some s₀) (fun _ => True) fun _ => True)
    (desk_error (saveVault_runs hO hheld.noRecord hshare) fun s hs =>
      hs.mono (fun _ _ => trivial) fun _ h => h)) fun r => ?_
  cases r with
  | error e =>
    refine somewhere_runs fun w _ => ?_
    exact Triple.bind (lockSession_runs hU) fun _ => Triple.fail stable_idle fun _ _ hs => hs
  | ok u =>
    refine Triple.bind (M := fun _ => Open faults) ((setSession_runs (.nothing O) (hU _ _)).post
      fun _ s _ hs => hs.open ⟨hheld.put (by decide), fun hc => ?_, fun _ => ?_⟩) fun _ => ?_
    · obtain ⟨-, ⟨data, hp, hpair⟩, -⟩ := hheld.matched hc
      refine ⟨⟨_, by rw [put_apply, if_pos rfl], rfl, rfl⟩, ⟨data, ?_, hpair⟩, rfl⟩
      rw [put_apply, if_neg (by decide)]
      exact hp
    · exact ⟨_, by rw [put_apply, if_pos rfl], rfl⟩
    · refine Triple.bind (M := fun _ => Open faults) (Triple.attempt (open_runs fun s₁ w hw =>
        ?_)) fun _ => Triple.pure stable_open fun _ _ hs => hs.idle
      refine (files_recover_runs (removeLegacyVaultSalt_runs (hfail _)) (.nothing O)).conseq
        (fun _ _ hs => hs) ?_ ?_
      · rintro _ s - ⟨⟨u, hu, hs⟩, hsess, -⟩
        exact At.open (K := fun _ => True) ⟨hsess, hs, trivial⟩ (hw.coreEq hu)
      · rintro _ s - ⟨u, hu, hs⟩
        exact hs.open (hw.coreEq hu)

/-- `cmd_passwd`. -/
theorem cmdPasswd_idle (hU : faults.Uniform) (hO : O.saves) (hfail : ∀ sess, ¬ Reliable (faults sess)) :
    DeskRuns O faults (Idle faults) (Idle faults) cmdPasswd (fun _ => Idle faults) := by
  refine Triple.bind (ensureUnlockedFor_runs hU _ _) fun st => ?_
  refine Triple.bind (desk_error (approvedAction_open hU st _ _) fun _ hs => hs.idle) fun _ => ?_
  refine Triple.bind (desk_error promptNewPassword_open fun _ hs => hs.idle) fun _ => ?_
  refine Triple.bind (desk_error (open_ask fun _ => trivial) fun _ hs => hs.idle) fun _ => ?_
  refine Triple.bind (rotateVault_idle hU hO hfail _ _) fun _ => ?_
  exact Triple.exists fun _ => Triple.exists fun _ => Triple.given fun _ => lockSession_runs hU

/-! ## Pairing -/

omit [Crypto] in
theorem hasPairingFiles_runs {op : FileOp} {faults : Directory → Prop} {X : Directory → Prop} :
    Runs faults op X (Snapshot faults v) hasPairingFiles (fun _ => Snapshot faults v) := by
  refine Triple.bind (pathExists_runs _) fun paired => Triple.given fun _ => ?_
  cases paired with
  | true => exact runs_pure fun _ hs => hs
  | false =>
  refine Triple.bind (pathExists_runs _) fun pending => Triple.given fun _ => ?_
  cases pending with
  | true => exact runs_pure fun _ hs => hs
  | false =>
  refine Triple.bind (pathExists_runs _) fun recorded => Triple.given fun _ => ?_
  cases recorded with
  | true => exact runs_pure fun _ hs => hs
  | false =>
  refine Triple.bind (pathExists_runs _) fun phoneId => Triple.given fun _ => ?_
  cases phoneId with
  | true => exact runs_pure fun _ hs => hs
  | false => exact (pathExists_runs _).post fun _ _ _ hs => hs.2

theorem approveReplacement_open (hU : faults.Uniform) (st : UnlockStatus) :
    StaysOpen O faults (approveReplacement st) := by
  refine .bind (open_files fun _ _ => pairingStatus_runs) fun pairing => ?_
  refine .bind (open_files fun _ _ => hasPairingFiles_runs) fun present => ?_
  cases pairingGate pairing present with
  | replaceRequiresApproval => exact approvedAction_open hU st _ _
  | newPairing => exact open_pure
  | invalidExistingPairing => exact open_fail

variable {sess : Option SessionState} {K : ν → Prop} {exchange : PairingExchange}
  {blob : EncryptedBlob} {data : PairingData}

omit [Crypto] in
/-- **A pending file is written.** -/
theorem stage_runs {f : FileName} {contents : Content} (hf : f ∈ pendingFiles)
    (htxn : v.NoRecord) (hK : O.Lasts K) :
    DeskRuns O faults (Somewhere faults sess (SameLive v) fun _ => True) (At faults sess v K)
      (files (writePrivateFile f contents))
      (fun _ => At faults sess (v.put f contents) K) := by
  have hput : SameLive v (v.put f contents) :=
    .put (by rintro rfl; revert hf; decide) (by rintro rfl; revert hf; decide) contents
  have hrun : Runs (faults sess) (.stage f contents) _ _ _ _ :=
    writePrivateFile_uncertain (.stage rfl hf htxn)
  refine (desk_error (files_runs hrun hK nofun fun _ _ => trivial) ?_).post ?_
  · rintro s ⟨w, ⟨rfl | rfl, -⟩, hs⟩
    · exact (hs.mono fun _ _ => trivial).somewhere ⟨rfl, rfl⟩
    · exact (hs.mono fun _ _ => trivial).somewhere hput
  · rintro _ s - ⟨hs, hsess, hk⟩
    exact ⟨hsess, hs, hk⟩

omit [Crypto] in
/-- Nothing replaced stays so. -/
theorem Broken.sameLive {faults : Directory → Prop} {u : Directory}
    (h : Broken faults v blob data w) (hu : SameLive u v) : Broken faults u blob data w :=
  h.imp (fun hw => ⟨hw.1.trans hu.1, hw.2.trans hu.2⟩) id

variable (exchange data) in
/-- **The steps once the pending vault is there**: the pairing is written
next to it, the phone shows its key, and both sides change over. -/
theorem pairStaged_runs (htxn : v.NoRecord) (hvault : v .pendingVaultEnc = some (.vault blob))
    (hid : data.pairingId = exchange.secrets.pairingId)
    (hkey : data.approvalPublicKeyDer = exchange.secrets.approvalPublicKeyDer)
    (hnode : data.phoneNodeId = exchange.secrets.phoneNodeId)
    (hshare : blob.key.phoneShare = exchange.secrets.phoneShare) :
    DeskRuns O faults (Somewhere faults sess (Broken (faults sess) v blob data) fun _ => True)
      (At faults sess v (O.Offers exchange))
      (do
        files (writePendingPairingData data)
        confirmPairingReady exchange.conn data
        commitAndActivatePairing exchange.conn data.pairingId)
      (fun _ => Somewhere faults sess (fun w => w.NoRecord ∧ LivePair w blob data)
        fun _ => True) := by
  have hK := Outside.Lasts.offers O exchange
  have hwrite : files (writePendingPairingData data) = _ := files_context _ _
  rw [hwrite]
  refine Triple.bind (desk_error (Triple.context (stage_runs (by decide) htxn hK)) fun s hs =>
    hs.mono (fun _ h => .inl h) fun _ h => h) fun _ => ?_
  have hput : SameLive v (v.put .pendingPairingState (.pairing { version := 3, data })) :=
    .put (by decide) (by decide) _
  have htxn' : (v.put .pendingPairingState (.pairing { version := 3, data })).NoRecord := by
    show v.put _ _ .pairingTransactionState = none
    rw [put_apply, if_neg (by decide)]
    exact htxn
  have hpending : Pending (v.put .pendingPairingState (.pairing { version := 3, data }))
      blob data := by
    refine ⟨?_, ?_⟩
    · rw [put_apply, if_neg (by decide)]
      exact hvault
    · rw [put_apply, if_pos rfl]
  refine desk_error (F := Somewhere faults sess (Broken (faults sess)
    (v.put .pendingPairingState (.pairing { version := 3, data })) blob data) fun _ => True)
    (Triple.bind (confirmPairingReady_runs fun _ hs =>
      (hs.mono fun _ _ => trivial).somewhere (.inl ⟨rfl, rfl⟩)) fun _ =>
        commitAndActivatePairing_runs htxn' hpending hid hkey hnode hshare) fun s hs =>
    hs.mono (fun _ h => h.sameLive hput) fun _ h => h

/-- The pairing made of the secrets. -/
def PairingSecrets.pairing (secrets : PairingSecrets) (createdAtMs : Nat) : PairingData :=
  { pairingId := secrets.pairingId, phoneNodeId := secrets.phoneNodeId,
    approvalPublicKeyDer := secrets.approvalPublicKeyDer, createdAtMs }

/-- The vault of a session, under the key of a new generation. -/
def resealed (s₀ : SessionState) (secrets : PairingSecrets) : EncryptedBlob :=
  encryptVault (combineVaultKey s₀.localSecret secrets.phoneShare) s₀.vaultSalt s₀.vault

/-- **The pairing of an open session is replaced**, or left to
recovery. -/
theorem persistPairing_runs (hheld : Held faults s₀ v)
    (hid : data.pairingId = exchange.secrets.pairingId)
    (hkey : data.approvalPublicKeyDer = exchange.secrets.approvalPublicKeyDer)
    (hnode : data.phoneNodeId = exchange.secrets.phoneNodeId) :
    DeskRuns O faults
      (Somewhere faults (some s₀)
        (Broken (faults (some s₀)) v (resealed s₀ exchange.secrets) data) fun _ => True)
      (At faults (some s₀) v (O.Offers exchange))
      (persistPairing exchange.conn s₀
        (combineVaultKey s₀.localSecret exchange.secrets.phoneShare) data)
      (fun _ => Somewhere faults (some s₀)
        (fun w => w.NoRecord ∧ LivePair w (resealed s₀ exchange.secrets) data) fun _ => True) := by
  have hK := Outside.Lasts.offers O exchange
  refine Triple.bind (M := fun _ => At faults (some s₀) (v.put .pendingVaultEnc
    (.vault (resealed s₀ exchange.secrets))) (O.Offers exchange)) (Triple.context ?_) fun _ => ?_
  · refine Triple.bind (desk_ofExcept hK fun s hs =>
      (hs.mono fun _ _ => trivial).somewhere (.inl ⟨rfl, rfl⟩)) fun blob => Triple.given fun hblob => ?_
    obtain rfl : blob = resealed s₀ exchange.secrets := (sealVault_eq_ok_iff.mp hblob).2
    rw [files_context]
    exact desk_error (Triple.context (stage_runs (by decide) hheld.noRecord hK)) fun s hs =>
      hs.mono (fun _ h => .inl h) fun _ h => h
  have hsame : SameLive v (v.put .pendingVaultEnc (.vault (resealed s₀ exchange.secrets))) :=
    .put (by decide) (by decide) _
  have htxn : (v.put .pendingVaultEnc (.vault (resealed s₀ exchange.secrets))).NoRecord :=
    hheld.put (by decide)
  have hvault : v.put .pendingVaultEnc (.vault (resealed s₀ exchange.secrets)) .pendingVaultEnc
      = some (.vault (resealed s₀ exchange.secrets)) := by
    rw [put_apply, if_pos rfl]
  generalize v.put .pendingVaultEnc (.vault (resealed s₀ exchange.secrets)) = u
    at hsame htxn hvault
  exact desk_error (pairStaged_runs exchange data htxn hvault hid hkey hnode rfl) fun s hs =>
    hs.mono (fun _ h => h.sameLive hsame) fun _ h => h

omit [Crypto] in
/-- **What an interrupted replacement leaves with nothing recorded** is
held by the session, as long as nothing failed after the end. -/
theorem Broken.held (h : Broken (faults (some s₀)) v (resealed s₀ exchange.secrets) data w)
    (hheld : Held faults s₀ v) (htxn : w.NoRecord) : Held faults s₀ w := by
  refine ⟨htxn, fun hc => ?_, fun hf => ?_⟩
  swap
  · obtain hsame | hrec | ⟨hlive, -⟩ := h
    · exact (hheld.saved hf).sameLive hsame
    · exact absurd htxn hrec
    · exact ⟨_, hlive.vault, rfl⟩
  have hmatched := hheld.matched hc
  obtain hsame | hrec | ⟨hlive, hfault⟩ := h
  · exact hmatched.sameLive hsame
  · exact absurd htxn hrec
  · obtain ⟨⟨blob, hblob, hshare⟩, hpair⟩ : SameGeneration s₀ w :=
      Classical.byContradiction fun hne => hc s₀ w htxn hne hfault
    obtain rfl : resealed s₀ exchange.secrets = blob :=
      Content.vault.inj (Option.some.inj (hlive.vault.symm.trans hblob))
    have hshare : exchange.secrets.phoneShare = s₀.phoneShare := hshare
    refine ⟨⟨_, hblob, ?_, rfl⟩, hpair, hmatched.key⟩
    show combineVaultKey s₀.localSecret exchange.secrets.phoneShare = _
    rw [hshare, hmatched.key]

omit [Crypto] in
/-- **What is done about an error** in `cmd_pair`. -/
theorem abandonPairing_idle {retained cleared : String} {e : Anyhow} (hU : faults.Uniform)
    (hheld : Held faults s₀ v) :
    DeskRuns O faults (Idle faults)
      (Somewhere faults (some s₀)
        (Broken (faults (some s₀)) v (resealed s₀ exchange.secrets) data) fun _ => True)
      (abandonPairing retained cleared lockSession e) (fun _ => Idle faults) := by
  have hK := Outside.Lasts.nothing O
  refine somewhere_runs fun w hw => ?_
  refine Triple.bind (pathExists_known _ hK) fun present => Triple.given fun hpresent => ?_
  cases present with
  | true =>
    exact Triple.bind (lockSession_runs hU) fun _ => Triple.fail stable_idle fun _ _ hs => hs
  | false =>
    have htxn : w.NoRecord :=
      Option.isNone_iff_eq_none.mp (Option.isSome_eq_false_iff.mp hpresent.symm)
    have hw' := hw.held hheld htxn
    have cleared {u : Directory} (hu : Partly transactionFiles w u) : Held faults s₀ u := by
      have hsame : SameLive w u := sameLive_of_agree hu.agree (by decide) (by decide)
      exact ⟨(hu _).elim (fun h => h.trans htxn) And.right,
        fun hc => (hw'.matched hc).sameLive hsame, fun hf => (hw'.saved hf).sameLive hsame⟩
    rw [files_context]
    refine Triple.bind (M := fun _ => Open faults) (Triple.context ((desk_error (files_recover_runs
      (clearPendingPairing_stale_runs htxn) hK) ?_).post ?_)) fun _ =>
        (Triple.fail stable_open fun _ _ hs => hs.idle)
    · rintro s ⟨u, hu, hs⟩
      exact (hs.open (cleared hu.1)).idle
    · rintro _ s - ⟨hs, hsess, hk⟩
      refine At.open (K := fun _ => True) ⟨hsess, hs, trivial⟩ (cleared fun f => ?_)
      show (if f ∈ transactionFiles then none else w f) = w f ∨ _
      split
      · next hf => exact .inr ⟨hf, if_pos hf⟩
      · exact .inl rfl

/-- **`cmd_pair`.** -/
theorem cmdPair_idle (hU : faults.Uniform) :
    DeskRuns O faults (Idle faults) (Idle faults) cmdPair (fun _ => Idle faults) := by
  have hK := Outside.Lasts.nothing O
  refine Triple.bind (M := fun _ => Idle faults) ?_ fun _ => ?_
  · refine Triple.exists fun sess => Triple.exists fun v => Triple.given fun hheld => ?_
    have hF : ∀ s : World ν, At faults sess v (fun _ => True) s → Idle faults s :=
      fun s hs => ⟨sess, v, hheld, hs⟩
    exact (files_known (quiet_snapshot_runs fun _ => rfl) hK hF).post fun _ s _ hs => hF s hs
  refine Triple.bind (ensureUnlockedFor_runs hU _ _) fun st => ?_
  refine Triple.bind (desk_error (approveReplacement_open hU st) fun _ hs => hs.idle) fun _ => ?_
  refine Triple.bind (desk_error open_session fun _ hs => hs.idle) fun _ => ?_
  refine Triple.bind (desk_error open_ensure fun _ hs => hs.idle) fun _ => ?_
  refine open_runs fun s₀ v hheld => ?_
  have hF {K : ν → Prop} : ∀ s : World ν, At faults (some s₀) v K s → Idle faults s :=
    fun s hs => (hs.open hheld).idle
  refine Triple.bind (beginPairWithPhone_runs hK hF) fun exchange => ?_
  have hK' := Outside.Lasts.offers O exchange
  refine Triple.bind ((session_runs hK').pre fun s _ hs => hs.mono fun _ h => h.2) fun s =>
    Triple.given ?_
  rintro rfl
  refine Triple.bind (ask_any_runs hK' trivial) fun createdAtMs => ?_
  refine Triple.bind (Triple.attempt (M := Logic.either
    (fun _ => Somewhere faults (some s) (fun w => w.NoRecord ∧ LivePair w
      (resealed s exchange.secrets) (exchange.secrets.pairing createdAtMs)) fun _ => True)
    fun _ => Somewhere faults (some s) (Broken (faults (some s)) v
      (resealed s exchange.secrets) (exchange.secrets.pairing createdAtMs)) fun _ => True)
    (persistPairing_runs hheld rfl rfl rfl)) fun r => ?_
  cases r with
  | error e => exact abandonPairing_idle hU hheld
  | ok u =>
    refine somewhere_runs fun w hw => Triple.bind (session_runs hK) fun s' => Triple.given ?_
    rintro rfl
    exact (setSession_runs hK (hU _ _)).post fun _ s _ hs => (hs.open ⟨hw.1,
      fun _ => ⟨⟨_, hw.2.vault, rfl, rfl⟩, ⟨_, hw.2.pairing, rfl⟩, rfl⟩,
      fun _ => ⟨_, hw.2.vault, rfl⟩⟩).idle

/-! ## The first pairing -/

omit [Crypto] in
/-- Another file is written. -/
theorem writeOther_runs {f : FileName} {contents : Content} (hf : f ∉ coreFiles)
    (hK : O.Lasts K) :
    DeskRuns O faults (Somewhere faults sess (CoreEq v) K) (At faults sess v K)
      (files (writePrivateFile f contents)) (fun _ => Somewhere faults sess (CoreEq v) K) := by
  refine (desk_error (files_recover_runs (writePrivateFile_uncertain (.other hf)) hK) ?_).post ?_
  · rintro s ⟨w, ⟨rfl | rfl, -⟩, hs⟩
    · exact hs.somewhere (.refl _)
    · exact hs.somewhere (.put hf contents)
  · rintro _ s - ⟨hs, hsess, hk⟩
    exact ⟨_, .put hf contents, hsess, hs, hk⟩

/-- **No session is open.** -/
abbrev Locked (faults : Faults) (s : World ν) : Prop :=
  Somewhere faults none (fun _ => True) (fun _ => True) s

omit [Crypto] in
theorem At.locked {s : World ν} (h : At faults none v K s) : Locked faults s :=
  ⟨v, trivial, h.mono fun _ _ => trivial⟩

omit [Crypto] in
theorem Somewhere.locked {X : Directory → Prop} {s : World ν}
    (h : Somewhere faults none X K s) : Locked faults s :=
  h.mono (fun _ _ => trivial) fun _ _ => trivial

/-- The vault `cmd_init` starts with. -/
def initialBlob (localSecret : LocalSecret) (salt : Salt) (secrets : PairingSecrets) :
    EncryptedBlob :=
  encryptVault (combineVaultKey localSecret secrets.phoneShare) salt Vault.default

/-- **The steps of `cmd_init` once the phone has offered a
generation.** -/
theorem persistInit_runs {localSecret : LocalSecret} {salt : Salt} (htxn : v.NoRecord) :
    DeskRuns O faults (Locked faults) (At faults none v (O.Offers exchange))
      (persistInit exchange localSecret salt) (fun _ => Locked faults) := by
  have hK := Outside.Lasts.offers O exchange
  refine Triple.bind (M := fun _ => At faults none (v.put .pendingVaultEnc
    (.vault (initialBlob localSecret salt exchange.secrets))) (O.Offers exchange)) ?_ fun _ => ?_
  · rw [files_context]
    exact desk_error (Triple.context (stage_runs (by decide) htxn hK)) fun s hs => hs.locked
  have htxn' : (v.put .pendingVaultEnc
      (.vault (initialBlob localSecret salt exchange.secrets))).NoRecord := by
    show v.put _ _ .pairingTransactionState = none
    rw [put_apply, if_neg (by decide)]
    exact htxn
  have hvault : v.put .pendingVaultEnc (.vault (initialBlob localSecret salt exchange.secrets))
      .pendingVaultEnc = some (.vault (initialBlob localSecret salt exchange.secrets)) := by
    rw [put_apply, if_pos rfl]
  generalize v.put .pendingVaultEnc (.vault (initialBlob localSecret salt exchange.secrets)) = u
    at htxn' hvault
  rw [files_context]
  refine Triple.bind (desk_error (Triple.context (writeOther_runs (by decide) hK)) fun s hs =>
    hs.locked) fun _ => somewhere_runs fun w hw => ?_
  refine Triple.bind (ask_any_runs hK trivial) fun createdAtMs => ?_
  exact (desk_error (pairStaged_runs exchange (exchange.secrets.pairing createdAtMs)
    (hw.noRecord htxn') ((hw _ (by decide)).trans hvault) rfl rfl rfl rfl) fun s hs => hs.locked).post
      fun _ _ _ hs => hs.locked

omit [Crypto] in
/-- What is done about an error in `cmd_init`. -/
theorem abandonInit_runs {retained cleared : String} {e : Anyhow} :
    DeskRuns O faults (Locked faults) (Locked faults)
      (abandonPairing retained cleared (pure ()) e) (fun _ => Locked faults) := by
  have hK := Outside.Lasts.nothing O
  refine somewhere_runs fun w _ => ?_
  refine Triple.bind (pathExists_known _ hK) fun present => Triple.given fun hpresent => ?_
  cases present with
  | true => exact desk_fail hK fun _ hs => hs.locked
  | false =>
    have htxn : w.NoRecord :=
      Option.isNone_iff_eq_none.mp (Option.isSome_eq_false_iff.mp hpresent.symm)
    rw [files_context]
    refine Triple.bind (Triple.context (desk_error (files_recover_runs
      (clearPendingPairing_stale_runs htxn) hK) fun s hs => hs.locked)) fun _ => ?_
    exact (desk_fail hK fun _ hs => At.locked hs).pre fun s _ ⟨hs, hsess, hk⟩ => ⟨hsess, hs, hk⟩

/-- **`cmd_init`**, in a process of its own. -/
theorem cmdInit_runs :
    DeskRuns O faults (Locked faults) (Locked faults) cmdInit (fun _ => Locked faults) := by
  have hK := Outside.Lasts.nothing O
  have hF {w : Directory} {K : ν → Prop} : ∀ s : World ν, At faults none w K s → Locked faults s :=
    fun s hs => hs.locked
  refine somewhere_runs fun v _ => ?_
  refine Triple.bind (files_known (quiet_snapshot_runs fun _ => rfl) hK hF) fun _ => ?_
  refine Triple.bind (files_known (Triple.context (quiet_snapshot_runs fun _ => rfl)) hK hF)
    fun _ => ?_
  refine Triple.bind (Triple.context (reconcilePairingTransaction_runs hK)) fun _ =>
    somewhere_runs fun w htxn => ?_
  refine Triple.bind (files_known ensureNotDev2faStubVault_runs hK hF) fun _ => ?_
  refine Triple.bind (pathExists_known _ hK) fun present => Triple.given fun _ => ?_
  refine Triple.bind (desk_ensure hK fun s hs _ => hF s hs) fun _ => Triple.given fun _ => ?_
  refine Triple.bind (M := fun _ => At faults none w fun _ => True) ?_ fun password => ?_
  · have hprompt {message : String} : DeskRuns O faults (Locked faults)
        (At faults none w fun _ => True) (promptPassword message)
        (fun _ => At faults none w fun _ => True) :=
      Triple.bind (ask_any_runs hK trivial) fun _ =>
        (answer_runs hK hF).post fun _ _ _ hs => hs.2
    refine Triple.bind hprompt fun _ => Triple.bind ((desk_ofExcept hK hF).post
      fun _ _ _ hs => hs.2) fun _ => Triple.bind hprompt fun _ => ?_
    exact Triple.bind ((desk_ensure hK fun s hs _ => hF s hs).post fun _ _ _ hs => hs.2)
      fun _ => desk_pure hK fun _ hs => hs
  refine Triple.bind (ask_any_runs hK trivial) fun salt => ?_
  refine Triple.bind (desk_error (initPeer_runs none w _ hK) fun s hs => hs.locked) fun _ =>
    somewhere_runs fun u hu => ?_
  refine Triple.bind (beginPairWithPhone_runs hK hF) fun exchange => ?_
  refine Triple.bind (M := fun _ => Locked faults) (Triple.attempt ((persistInit_runs
    (hu.noRecord htxn)).pre fun s _ hs => hs.mono fun _ h => h.2)) fun r => ?_
  match r with
  | .error e => exact abandonInit_runs
  | .ok () => exact Triple.pure (stable_somewhere hK) fun _ _ hs => hs

end Desktop
