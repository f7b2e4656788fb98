import Ferusa.Desktop.Paths

/-!
# What the programs on the data directory can do

`FileStep` lists every change of the directory that any program makes,
each with what the directory contains at that moment: pending files are
written and removed while no transaction is recorded, a transaction is
recorded when both of them are there, it is promoted when the phone has
committed, and it disappears last. What a program needs its caller to
have made sure of – that a phase may be recorded, what a saved vault is
sealed under – is carried by the label of the step (`FileOp`).

The programs are run by the one process that holds the vault lock. Its
system calls may fail where `faults` allows it. Where nothing fails,
each change is synced before the next is made.
-/

namespace Desktop

/-- What a program was called for. -/
inductive FileOp where
  | recover
  | stage (f : FileName) (contents : Content)
  | prepare (blob : EncryptedBlob) (data : PairingData)
  | advance (phase : PairingTxnPhase) (pairingId : Uuid)
  | save (blob : EncryptedBlob)
  deriving DecidableEq

/-- The two pending files. -/
def pendingFiles : List FileName := [.pendingPairingState, .pendingVaultEnc]

/-- The two copies of what is being replaced. -/
def rollbackFiles : List FileName := [.rollbackPairingState, .rollbackVaultEnc]

/-- The files of a transaction, in the order they are removed. -/
def transactionFiles : List FileName :=
  [.pendingPairingState, .pendingVaultEnc, .pairingTransactionState, .rollbackPairingState,
    .rollbackVaultEnc]

/-- The vault, the pairing and the files of a transaction. -/
def coreFiles : List FileName := .vaultEnc :: .pairingState :: transactionFiles

namespace Directory

/-- The recorded transaction. -/
def Records (v : Directory) (file : PairingTxnFile) : Prop :=
  v .pairingTransactionState = some (.transaction file)

/-- No transaction is recorded. -/
def NoRecord (v : Directory) : Prop := v .pairingTransactionState = none

theorem Records.unique {v : Directory} {file file' : PairingTxnFile} (h : v.Records file)
    (h' : v.Records file') : file = file' :=
  Content.transaction.inj (Option.some.inj (h.symm.trans h'))

theorem Records.not_noRecord {v : Directory} {file : PairingTxnFile} (h : v.Records file) :
    ¬ v.NoRecord := by
  rw [NoRecord, h]
  exact Option.some_ne_none _

end Directory

/-- **What one system call of a program can do to the directory.** -/
inductive FileStep (op : FileOp) : Directory → Directory → Prop
  | other {v f contents} (hf : f ∉ coreFiles) : FileStep op v (v.put f contents)
  | dropOther {v f} (hf : f ∉ coreFiles) : FileStep op v (v.drop f)
  | stage {v f contents} (hop : op = .stage f contents) (hf : f ∈ pendingFiles)
      (htxn : v.NoRecord) : FileStep op v (v.put f contents)
  | capture {v f contents} (hf : f ∈ rollbackFiles) (htxn : v.NoRecord) :
      FileStep op v (v.put f contents)
  | discard {v f} (hf : f ∈ pendingFiles ∨ f ∈ rollbackFiles) (htxn : v.NoRecord) :
      FileStep op v (v.drop f)
  /-- The transaction is recorded, with all it needs in place. -/
  | prepare {v blob data file} (hop : op = .prepare blob data) (htxn : v.NoRecord)
      (hv : v .pendingVaultEnc = some (.vault blob))
      (hp : v .pendingPairingState = some (.pairing { version := 3, data }))
      (hversion : file.version = 2) (hphase : file.phase = .prepared)
      (hid : file.pairingId = data.pairingId)
      (hrv : file.hadLiveVault = true → v .rollbackVaultEnc ≠ none)
      (hrp : file.hadLivePairing = true → v .rollbackPairingState ≠ none) :
      FileStep op v (v.put .pairingTransactionState (.transaction file))
  | commit {v file} (hop : op = .advance .phoneCommitted file.pairingId)
      (htxn : v.Records file) (hversion : file.version = 2) (hphase : file.phase = .prepared) :
      FileStep op v
        (v.put .pairingTransactionState (.transaction { file with phase := .phoneCommitted }))
  /-- The pending vault replaces the live one, first. -/
  | promoteVault {v file contents} (htxn : v.Records file) (hphase : file.phase = .phoneCommitted)
      (hv : v .pendingVaultEnc = some contents) :
      FileStep op v ((v.drop .pendingVaultEnc).put .vaultEnc contents)
  | promotePairing {v file contents} (htxn : v.Records file)
      (hphase : file.phase = .phoneCommitted) (hv : v .pendingVaultEnc = none)
      (hp : v .pendingPairingState = some contents) :
      FileStep op v ((v.drop .pendingPairingState).put .pairingState contents)
  | activateLocally {v file} (htxn : v.Records file) (hversion : file.version = 2)
      (hphase : file.phase = .phoneCommitted) (hv : v .pendingVaultEnc = none)
      (hp : v .pendingPairingState = none) :
      FileStep op v
        (v.put .pairingTransactionState (.transaction { file with phase := .locallyActivated }))
  | activateFully {v file} (hop : op = .advance .fullyActivated file.pairingId)
      (htxn : v.Records file) (hversion : file.version = 2)
      (hphase : file.phase = .locallyActivated) :
      FileStep op v
        (v.put .pairingTransactionState (.transaction { file with phase := .fullyActivated }))
  | clear {v f file} (hf : f ∈ pendingFiles) (htxn : v.Records file)
      (hphase : file.phase = .fullyActivated) : FileStep op v (v.drop f)
  /-- The record of the transaction disappears. -/
  | finish {v file} (htxn : v.Records file) (hphase : file.phase = .fullyActivated)
      (hp : ∀ f ∈ pendingFiles, v f = none) :
      FileStep op v (v.drop .pairingTransactionState)
  | save {v blob} (hop : op = .save blob) (htxn : v.NoRecord) :
      FileStep op v (v.put .vaultEnc (.vault blob))

/-- **What a change does to the record.** -/
inductive RecordStep (op : FileOp) (v w : Directory) : Prop
  | same (h : w .pairingTransactionState = v .pairingTransactionState)
  | prepare {blob data file} (hop : op = .prepare blob data) (htxn : v.NoRecord)
      (h : w.Records file) (hversion : file.version = 2) (hphase : file.phase = .prepared)
      (hid : file.pairingId = data.pairingId) (hv : w .pendingVaultEnc = some (.vault blob))
      (hp : w .pendingPairingState = some (.pairing { version := 3, data }))
  | advance {file : PairingTxnFile} {phase} (htxn : v.Records file) (hversion : file.version = 2)
      (h : w.Records { file with phase }) (hindex : phase.index = file.phase.index + 1)
      (hop : op = .advance phase file.pairingId ∨ phase = .locallyActivated)
  | finish {file} (htxn : v.Records file) (hphase : file.phase = .fullyActivated) (h : w.NoRecord)

theorem Directory.put_records (v : Directory) (file : PairingTxnFile) :
    (v.put .pairingTransactionState (.transaction file)).Records file := by
  rw [Records, put_apply, if_pos rfl]

theorem FileStep.record {op : FileOp} {v w : Directory} (h : FileStep op v w) :
    RecordStep op v w := by
  have put {u : Directory} {f contents} (hf : f ≠ .pairingTransactionState) :
      RecordStep op u (u.put f contents) :=
    .same (by rw [Directory.put_apply, if_neg hf.symm])
  have drop {u : Directory} {f} (hf : f ≠ .pairingTransactionState) : RecordStep op u (u.drop f) :=
    .same (by rw [Directory.drop_apply, if_neg hf.symm])
  have pending {f} (hf : f ∈ pendingFiles) : f ≠ .pairingTransactionState := by
    rintro rfl
    revert hf
    decide
  have rollback {f} (hf : f ∈ rollbackFiles) : f ≠ .pairingTransactionState := by
    rintro rfl
    revert hf
    decide
  cases h with
  | other hf => exact put fun he => hf (he ▸ by decide)
  | dropOther hf => exact drop fun he => hf (he ▸ by decide)
  | stage _ hf _ => exact put (pending hf)
  | capture hf _ => exact put (rollback hf)
  | discard hf _ => exact drop (hf.elim pending rollback)
  | prepare hop htxn hv hp hversion hphase hid =>
    exact .prepare hop htxn (Directory.put_records ..) hversion hphase hid
      (by simpa using hv) (by simpa using hp)
  | commit hop htxn hversion hphase =>
    exact .advance htxn hversion (Directory.put_records ..) (by rw [hphase]; rfl) (.inl hop)
  | promoteVault => exact .same (by simp)
  | promotePairing => exact .same (by simp)
  | activateLocally htxn hversion hphase =>
    exact .advance htxn hversion (Directory.put_records ..) (by rw [hphase]; rfl) (.inr rfl)
  | activateFully hop htxn hversion hphase =>
    exact .advance htxn hversion (Directory.put_records ..) (by rw [hphase]; rfl) (.inl hop)
  | clear hf _ _ => exact drop (pending hf)
  | finish htxn hphase _ => exact .finish htxn hphase (by simp [Directory.NoRecord])
  | save _ _ => exact put (by decide)

/-- The vault and the pairing are the same in both directories. -/
def SameLive (v w : Directory) : Prop :=
  w .vaultEnc = v .vaultEnc ∧ w .pairingState = v .pairingState

/-- **What a change does to the vault and the pairing.** -/
inductive LiveStep (op : FileOp) (v w : Directory) : Prop
  | same (h : SameLive v w)
  | promoteVault {file contents} (htxn : v.Records file) (hphase : file.phase = .phoneCommitted)
      (hv : v .pendingVaultEnc = some contents) (h : w .vaultEnc = some contents)
      (hp : w .pairingState = v .pairingState)
  | promotePairing {file contents} (htxn : v.Records file) (hphase : file.phase = .phoneCommitted)
      (hv : v .pendingVaultEnc = none) (hp : v .pendingPairingState = some contents)
      (h : w .vaultEnc = v .vaultEnc) (hw : w .pairingState = some contents)
  | save {blob} (hop : op = .save blob) (htxn : v.NoRecord) (h : w .vaultEnc = some (.vault blob))
      (hp : w .pairingState = v .pairingState)

theorem SameLive.put {v : Directory} {f : FileName} (hv : f ≠ .vaultEnc) (hp : f ≠ .pairingState)
    (contents : Content) : SameLive v (v.put f contents) := by
  refine ⟨?_, ?_⟩
  · rw [Directory.put_apply, if_neg hv.symm]
  · rw [Directory.put_apply, if_neg hp.symm]

theorem SameLive.drop {v : Directory} {f : FileName} (hv : f ≠ .vaultEnc)
    (hp : f ≠ .pairingState) : SameLive v (v.drop f) := by
  refine ⟨?_, ?_⟩
  · rw [Directory.drop_apply, if_neg hv.symm]
  · rw [Directory.drop_apply, if_neg hp.symm]

theorem FileStep.live {op : FileOp} {v w : Directory} (h : FileStep op v w) :
    LiveStep op v w := by
  have put {u : Directory} {f contents} (hv : f ≠ .vaultEnc) (hp : f ≠ .pairingState) :
      LiveStep op u (u.put f contents) := .same (.put hv hp contents)
  have drop {u : Directory} {f} (hv : f ≠ .vaultEnc) (hp : f ≠ .pairingState) :
      LiveStep op u (u.drop f) := .same (.drop hv hp)
  cases h with
  | other hf => exact put (fun he => hf (he ▸ by decide)) fun he => hf (he ▸ by decide)
  | dropOther hf => exact drop (fun he => hf (he ▸ by decide)) fun he => hf (he ▸ by decide)
  | stage _ hf _ => rcases List.mem_pair.mp hf with rfl | rfl <;> exact put (by decide) (by decide)
  | capture hf _ => rcases List.mem_pair.mp hf with rfl | rfl <;> exact put (by decide) (by decide)
  | discard hf _ =>
    rcases hf with hf | hf <;> rcases List.mem_pair.mp hf with rfl | rfl <;>
      exact drop (by decide) (by decide)
  | clear hf _ _ => rcases List.mem_pair.mp hf with rfl | rfl <;> exact drop (by decide) (by decide)
  | prepare => exact put (by decide) (by decide)
  | commit => exact put (by decide) (by decide)
  | activateLocally => exact put (by decide) (by decide)
  | activateFully => exact put (by decide) (by decide)
  | finish => exact drop (by decide) (by decide)
  | promoteVault htxn hphase hv => exact .promoteVault htxn hphase hv (by simp) (by simp)
  | promotePairing htxn hphase hv hp =>
    exact .promotePairing htxn hphase hv hp (by simp) (by simp)
  | save hop htxn => exact .save hop htxn (by simp) (by simp)

/-! ## The logic of the directory -/

variable {faults : Directory → Prop} {op : FileOp} {v w : Directory} {α : Type}

/-- Nothing fails. -/
def Reliable (faults : Directory → Prop) : Prop := ∀ v, ¬ faults v

/-- **What one system call does**: the volume is as it was, or synced,
or a listed change is made – to a synced volume, where nothing fails. -/
inductive FilesStep (faults : Directory → Prop) (op : FileOp) (s s' : Files) : Prop
  | same (h : s'.volume = s.volume)
  | sync (h : s'.volume = s.volume.sync Directory.apply)
  | change (c : Change) (h : s'.volume = s.volume.change Directory.apply c)
      (hstep : FileStep op s.named (Directory.apply c s.named))
      (hsynced : Reliable faults → s.volume.unsynced = [])

/-- **The setting of a program on the directory**: nobody else touches
it. -/
def fileLogic (faults : Directory → Prop) (op : FileOp) : Logic FileCmd.Reply Files where
  exec c s r s' := ∃ o, Files.exec c o s = some (r, s') ∧ ∀ e, o = .fail e → faults s.named
  inv _ := True
  rely s s' := s' = s
  guar := FilesStep faults op
  rely_refl _ := rfl
  rely_trans h h' := h'.trans h

/-- The directory is `v`. -/
def Shows (v : Directory) (s : Files) : Prop := s.named = v

/-- **The directory is `v`**, and synced where nothing fails. -/
def Snapshot (faults : Directory → Prop) (v : Directory) (s : Files) : Prop :=
  s.named = v ∧ (Reliable faults → s.volume.unsynced = [])

/-- Nobody breaks an assertion about the directory. -/
theorem stable (P : Files → Prop) : (fileLogic faults op).Stable P := by
  rintro s s' - h rfl -
  exact h

open Logic

/-- **A program started from `P`** makes listed changes only, returns
with `Q`, or fails with a directory satisfying `X`. -/
abbrev Runs (faults : Directory → Prop) (op : FileOp) (X : Directory → Prop)
    (P : Files → Prop) (p : FileProg α) (Q : α → Files → Prop) : Prop :=
  (fileLogic faults op).Triple P p Q (fun _ s => ∃ w, X w ∧ Snapshot faults w s)

variable {X : Directory → Prop} {P : Files → Prop}

theorem runs_error {X' : Directory → Prop} {p : FileProg α} {Q : α → Files → Prop}
    (h : Runs faults op X P p Q) (hX : ∀ w, X w → X' w) : Runs faults op X' P p Q :=
  h.conseq (fun _ _ hs => hs) (fun _ _ _ hs => hs)
    (fun _ _ _ ⟨w, hw, hs⟩ => ⟨w, hX w hw, hs⟩)

theorem runs_pure {a : α} {Q : α → Files → Prop}
    (h : ∀ s, Snapshot faults v s → Q a s) :
    Runs faults op X (Snapshot faults v) (pure a) Q :=
  Triple.pure (stable _) fun s _ hs => h s hs

theorem runs_fail {e : Anyhow} {Q : α → Files → Prop} (hX : X v) :
    Runs faults op X (Snapshot faults v) (.fail e) Q :=
  Triple.fail (stable _) fun _ _ hs => ⟨v, hX, hs⟩

theorem runs_ensure {check : Prop} [Decidable check] {message : String}
    (hX : ¬ check → X v) :
    Runs faults op X (Snapshot faults v) (Prog.ensure check message)
      (fun _ s => check ∧ Snapshot faults v s) :=
  Triple.ensure (stable _) fun _ _ hs hc => ⟨v, hX hc, hs⟩

/-- The result of a system call. -/
theorem runs_fallible {message : String} {r : Except IoError α} {Q : α → Files → Prop}
    (hok : ∀ a, r = .ok a → ∀ s, P s → Q a s)
    (herr : ∀ e, r = .error e → ∀ s, P s → ∃ w, X w ∧ Snapshot faults w s) :
    Runs faults op X P (fallible message r) Q := by
  cases r with
  | ok a => exact Triple.ret (stable _) fun s _ hs => hok a rfl s hs
  | error e => exact Triple.fail (stable _) fun s _ hs => herr e rfl s hs

/-! ## The single calls -/

/-- A call that leaves the volume alone. -/
theorem FilesStep.of_eq {s s' : Files} (h : s'.volume = s.volume) : FilesStep faults op s s' :=
  .same h

theorem Snapshot.of_eq {s s' : Files} (h : Snapshot faults v s) (hs : s'.volume = s.volume) :
    Snapshot faults v s' := by
  unfold Snapshot Files.named at *
  rw [hs]
  exact h

/-- After an error what is seen is all that is known. -/
theorem Snapshot.of_faults {s : Files} (h : Shows v s) (hf : faults v) : Snapshot faults v s :=
  ⟨h, fun hr => absurd hf (hr v)⟩

theorem pathExists_runs (f : FileName) :
    Runs faults op X (Snapshot faults v) (pathExists f)
      (fun b s => b = (v f).isSome ∧ Snapshot faults v s) := by
  refine Triple.perform (stable _) (fun _ => stable _) ?_
  rintro s r s' - hs ⟨o, ho, -⟩
  cases o with
  | ok n =>
    obtain ⟨rfl, rfl⟩ : (s.named f).isSome = r ∧ s = s' := by simpa [Files.exec] using ho
    exact ⟨.same rfl, by rw [hs.1], hs⟩
  | fail e => simp [Files.exec] at ho

/-- **Reading** returns what is there. -/
theorem readFile_runs {message : String} (f : FileName) (hX : faults v → X v)
    (hnone : v f = none → X v) :
    Runs faults op X (Snapshot faults v) (readFile message f)
      (fun contents s => v f = some contents ∧ Snapshot faults v s) := by
  refine Triple.perform_bind
    (M := fun r s => (∀ a, r = .ok a → v f = some a) ∧ (∀ e, r = .error e → X v) ∧
      Snapshot faults v s) (stable _) ?_ ?_
  · rintro s r s' - hs ⟨o, ho, hfault⟩
    cases o with
    | ok n =>
      cases hf : s.named f with
      | none =>
        obtain ⟨rfl, rfl⟩ : Except.error IoError.notFound = r ∧ s = s' := by
          simpa [Files.exec, hf] using ho
        exact ⟨.same rfl, by simp, fun _ _ => hnone (hs.1 ▸ hf), hs⟩
      | some contents =>
        obtain ⟨rfl, rfl⟩ : Except.ok contents = r ∧ s = s' := by
          simpa [Files.exec, hf] using ho
        exact ⟨.same rfl, fun a ha => by rw [← hs.1, hf, Except.ok.inj ha], by simp, hs⟩
    | fail e =>
      obtain ⟨rfl, rfl⟩ : Except.error e = r ∧ s = s' := by simpa [Files.exec] using ho
      exact ⟨.same rfl, by simp, fun _ _ => hX (hs.1 ▸ hfault e rfl), hs⟩
  · intro r
    exact runs_fallible (fun a ha s hs => ⟨hs.1 a ha, hs.2.2⟩)
      (fun e he s hs => ⟨v, hs.2.1 e he, hs.2.2⟩)

/-- **Syncing the directory** makes a snapshot of what is seen. -/
theorem fsyncParent_runs (hX : faults v → X v) :
    Runs faults op X (Shows v) fsyncParent (fun _ => Snapshot faults v) := by
  refine Triple.perform_bind
    (M := fun r s => (r = .ok () → Snapshot faults v s) ∧
      ∀ e, r = .error e → X v ∧ Snapshot faults v s) (stable _) ?_ ?_
  · rintro s r s' - hs ⟨o, ho, hfault⟩
    cases o with
    | ok n =>
      obtain ⟨rfl, rfl⟩ : Except.ok () = r ∧ s.sync = s' := by simpa [Files.exec] using ho
      exact ⟨.sync rfl, fun _ => ⟨hs, fun _ => rfl⟩, by simp⟩
    | fail e =>
      obtain ⟨rfl, rfl⟩ : Except.error e = r ∧ s = s' := by simpa [Files.exec] using ho
      have hf : faults v := hs ▸ hfault e rfl
      exact ⟨.same rfl, by simp, fun _ _ => ⟨hX hf, Snapshot.of_faults hs hf⟩⟩
  · intro r
    exact runs_fallible (fun a ha s hs => hs.1 (by rw [ha]))
      (fun e he s hs => ⟨v, (hs.2 e he).1, (hs.2 e he).2⟩)

/-- A call that leaves every name as it is. -/
theorem quiet_runs {message : String} {c : QuietCmd} {P : Files → Prop}
    (hP : ∀ s, P s → Snapshot faults v s) (hX : faults v → X v) :
    Runs faults op X P (quietCall message c)
      (fun _ s => ∃ s₀, P s₀ ∧ s = s₀.quiet c) := by
  refine Triple.perform_bind
    (M := fun r s => (r = .ok () → ∃ s₀, P s₀ ∧ s = s₀.quiet c) ∧
      ∀ e, r = .error e → X v ∧ Snapshot faults v s) (stable _) ?_ ?_
  · rintro s r s' - hs ⟨o, ho, hfault⟩
    cases o with
    | ok n =>
      obtain ⟨rfl, rfl⟩ : Except.ok () = r ∧ s.quiet c = s' := by simpa [Files.exec] using ho
      exact ⟨.same (s.quiet_volume c), fun _ => ⟨s, hs, rfl⟩, by simp⟩
    | fail e =>
      obtain ⟨rfl, rfl⟩ : Except.error e = r ∧ s = s' := by simpa [Files.exec] using ho
      have hv := hP s hs
      exact ⟨.same rfl, by simp, fun _ _ => ⟨hX (hv.1 ▸ hfault e rfl), hv⟩⟩
  · intro r
    exact runs_fallible (fun a ha s hs => hs.1 (by rw [ha]))
      (fun e he s hs => ⟨v, (hs.2 e he).1, (hs.2 e he).2⟩)

/-- The snapshot survives such a call. -/
theorem Snapshot.quiet {s : Files} (h : Snapshot faults v s) (c : QuietCmd) :
    Snapshot faults v (s.quiet c) :=
  h.of_eq (s.quiet_volume c)

/-- A call that leaves every name as it is, where temporary files do not
matter. -/
theorem quiet_snapshot_runs {message : String} {c : QuietCmd} (hX : faults v → X v) :
    Runs faults op X (Snapshot faults v) (quietCall message c)
      (fun _ => Snapshot faults v) :=
  (quiet_runs (fun _ hs => hs) hX).post fun _ _ _ ⟨_, hs, h⟩ => h ▸ hs.quiet c

/-- **Renaming a written and synced temporary file into place.** -/
theorem renameTemp_runs {t : Temp} {f : FileName} {contents : Content}
    (hstep : FileStep op v (v.put f contents)) (hX : faults v → X v) :
    Runs faults op X
      (fun s => Snapshot faults v s ∧ s.temps t = some ⟨some contents, true⟩)
      (renameTemp t f) (fun _ => Shows (v.put f contents)) := by
  refine Triple.perform_bind
    (M := fun r s => (r = .ok () → Shows (v.put f contents) s) ∧
      ∀ e, r = .error e → X v ∧ Snapshot faults v s) (stable _) ?_ ?_
  · rintro s r s' - ⟨hs, ht⟩ ⟨o, ho, hfault⟩
    cases o with
    | ok n =>
      obtain ⟨rfl, rfl⟩ : Except.ok () = r ∧
          (s.setTemp t none).change (.put f contents) = s' := by
        simpa [Files.exec, ht, TempFile.placed] using ho
      refine ⟨.change (.put f contents) rfl ?_ hs.2, fun _ => ?_, by simp⟩
      · rw [hs.1]
        exact hstep
      · show Directory.put s.named f contents = _
        rw [hs.1]
    | fail e =>
      obtain ⟨rfl, rfl⟩ : Except.error e = r ∧ s = s' := by simpa [Files.exec] using ho
      exact ⟨.same rfl, by simp, fun _ _ => ⟨hX (hs.1 ▸ hfault e rfl), hs⟩⟩
  · intro r
    exact runs_fallible (fun a ha s hs => hs.1 (by rw [ha]))
      (fun e he s hs => ⟨v, (hs.2 e he).1, (hs.2 e he).2⟩)

/-- A temporary file is created. -/
theorem createTemp_runs (f : FileName) (hX : faults v → X v) :
    Runs faults op X (Snapshot faults v) (createTemp f)
      (fun t s => Snapshot faults v s ∧ (s.temps t).isSome) := by
  refine Triple.perform_bind
    (M := fun r s => Snapshot faults v s ∧ (∀ t, r = .ok t → (s.temps t).isSome) ∧
      ∀ e, r = .error e → X v) (stable _) ?_ fun r => ?_
  · rintro s r s' - hs ⟨o, ho, hfault⟩
    cases o with
    | ok n =>
      cases ht : s.temps ⟨f, n⟩ with
      | some file => simp [Files.exec, ht] at ho
      | none =>
        obtain ⟨rfl, rfl⟩ : Except.ok ⟨f, n⟩ = r ∧ s.setTemp ⟨f, n⟩ (some ⟨none, false⟩) = s' := by
          simpa [Files.exec, ht] using ho
        refine ⟨.same rfl, hs.of_eq rfl, fun t ht => ?_, by simp⟩
        obtain rfl : (⟨f, n⟩ : Temp) = t := Except.ok.inj ht
        simp
    | fail e =>
      obtain ⟨rfl, rfl⟩ : Except.error e = r ∧ s = s' := by simpa [Files.exec] using ho
      exact ⟨.same rfl, hs, by simp, fun _ _ => hX (hs.1 ▸ hfault e rfl)⟩
  · exact runs_fallible (fun t ht s hs => ⟨hs.1, hs.2.1 t ht⟩)
      (fun e he s hs => ⟨v, hs.2.2 e he, hs.1⟩)

/-- What `writeTemp` leaves. -/
theorem writeTemp_runs {t : Temp} {f : FileName} {contents : Content}
    (hstep : FileStep op v (v.put f contents)) (hX : faults v → X v)
    (hX' : faults (v.put f contents) → X (v.put f contents)) :
    Runs faults op X (fun s => Snapshot faults v s ∧ (s.temps t).isSome)
      (writeTemp t f contents) (fun _ => Snapshot faults (v.put f contents)) := by
  refine Triple.bind (quiet_runs (P := fun s => Snapshot faults v s ∧ (s.temps t).isSome)
    (fun _ hs => hs.1) hX) fun _ => ?_
  refine Triple.bind ((quiet_runs (P := fun s => Snapshot faults v s ∧
    s.temps t = some ⟨some contents, false⟩) (fun _ hs => hs.1) hX).pre ?_) fun _ => ?_
  · rintro s - ⟨s₀, hs₀, rfl⟩
    exact ⟨hs₀.1.quiet _, by simp [Files.quiet]⟩
  refine Triple.bind ((quiet_runs (P := fun s => Snapshot faults v s ∧
    s.temps t = some ⟨some contents, true⟩) (fun _ hs => hs.1) hX).pre ?_) fun _ => ?_
  · rintro s - ⟨s₀, hs₀, rfl⟩
    exact ⟨hs₀.1.quiet _, by simp [Files.quiet, hs₀.2]⟩
  refine Triple.bind ((renameTemp_runs hstep hX).pre ?_) fun _ => fsyncParent_runs hX'
  rintro s - ⟨s₀, hs₀, rfl⟩
  exact hs₀

/-- **`write_private_file`** puts the file in place; on an error the
file is what it was or what it was to be. -/
theorem writePrivateFile_runs {f : FileName} {contents : Content}
    (hstep : FileStep op v (v.put f contents)) (hX : faults v → X v)
    (hX' : faults (v.put f contents) → X (v.put f contents)) :
    Runs faults op X (Snapshot faults v) (writePrivateFile f contents)
      (fun _ => Snapshot faults (v.put f contents)) := by
  refine Triple.bind (createTemp_runs f hX) fun t => ?_
  refine Triple.bind (Triple.attempt (M := Logic.either
    (fun _ => Snapshot faults (v.put f contents)) fun _ s => ∃ w, X w ∧ Snapshot faults w s)
    (writeTemp_runs hstep hX hX')) fun r => ?_
  cases r with
  | ok u => exact Triple.pure (stable _) fun _ _ hs => hs
  | error e =>
    refine Triple.exists fun w => Triple.given fun hw => ?_
    refine Triple.bind (M := fun _ => Snapshot faults w) (Triple.attempt ?_) fun _ => runs_fail hw
    refine (quiet_snapshot_runs (X := (· = w)) fun _ => rfl).conseq (fun _ _ hs => hs)
      (fun _ _ _ hs => hs) ?_
    rintro _ s - ⟨_, rfl, hs⟩
    exact hs

/-! ## Removing -/

namespace Directory

/-- The directory without some files. -/
def without (v : Directory) (l : List FileName) : Directory :=
  fun f => if f ∈ l then none else v f

/-- `w` is `v`, perhaps without some of the files of `l`. -/
def Partly (l : List FileName) (v w : Directory) : Prop :=
  ∀ f, w f = v f ∨ f ∈ l ∧ w f = none

/-- The two directories agree outside of some files. -/
def Agree (l : List FileName) (v w : Directory) : Prop :=
  ∀ f, f ∉ l → w f = v f

theorem without_nil (v : Directory) : v.without [] = v := by
  funext f
  show (if f ∈ [] then none else v f) = v f
  rw [if_neg List.not_mem_nil]

theorem drop_without (v : Directory) (f : FileName) (l : List FileName) :
    (v.drop f).without l = v.without (f :: l) := by
  funext g
  show (if g ∈ l then none else v.drop f g) = if g ∈ f :: l then none else v g
  rw [drop_apply]
  by_cases hg : g = f <;> simp [hg]

theorem drop_eq {v : Directory} {f : FileName} (h : v f = none) : v.drop f = v := by
  funext g
  rw [drop_apply]
  split
  · next hg => rw [hg, h]
  · rfl

theorem Partly.refl (l : List FileName) (v : Directory) : Partly l v v :=
  fun _ => .inl rfl

theorem Partly.drop {l : List FileName} {v w : Directory} (h : Partly l v w) {f : FileName}
    (hf : f ∈ l) : Partly l v (w.drop f) := by
  intro g
  rw [drop_apply]
  split
  · next hg => exact .inr ⟨hg ▸ hf, rfl⟩
  · exact h g

theorem Partly.agree {l : List FileName} {v w : Directory} (h : Partly l v w) : Agree l v w :=
  fun f hf => (h f).resolve_right fun hl => hf hl.1

theorem without_agree (v : Directory) (l : List FileName) : Agree l v (v.without l) :=
  fun _ hf => if_neg hf

theorem Agree.refl (l : List FileName) (v : Directory) : Agree l v v := fun _ _ => rfl

theorem Agree.trans {l : List FileName} {u v w : Directory} (h : Agree l u v)
    (h' : Agree l v w) : Agree l u w :=
  fun f hf => (h' f hf).trans (h f hf)

theorem Agree.mono {l l' : List FileName} {v w : Directory} (h : Agree l v w) (hl : l ⊆ l') :
    Agree l' v w :=
  fun f hf => h f fun hm => hf (hl hm)

theorem Agree.put {l : List FileName} {v w : Directory} (h : Agree l v w) {f : FileName}
    (hf : f ∈ l) (contents : Content) : Agree l v (w.put f contents) := by
  intro g hg
  have hne : g ≠ f := fun he => hg (he ▸ hf)
  rw [put_apply, if_neg hne]
  exact h g hg

theorem Agree.drop {l : List FileName} {v w : Directory} (h : Agree l v w) {f : FileName}
    (hf : f ∈ l) : Agree l v (w.drop f) := by
  intro g hg
  have hne : g ≠ f := fun he => hg (he ▸ hf)
  rw [drop_apply, if_neg hne]
  exact h g hg

end Directory

open Directory

/-- What is seen once a file has been removed, or could not be. -/
def Removed (faults X : Directory → Prop) (v : Directory) (f : FileName) :
    Except IoError Unit → Files → Prop
  | .ok _ => Shows (v.drop f)
  | .error .notFound => fun s => v f = none ∧ Snapshot faults v s
  | .error _ => fun s => X v ∧ Snapshot faults v s

/-- **A file is removed**, if it is there. -/
theorem removeIfPresent_runs {message : String} {f : FileName}
    (hstep : v f ≠ none → FileStep op v (v.drop f)) (hX : faults v → X v)
    (hX' : faults (v.drop f) → X (v.drop f)) :
    Runs faults op X (Snapshot faults v) (removeIfPresent message f)
      (fun _ => Snapshot faults (v.drop f)) := by
  refine Triple.perform_bind (M := Removed faults X v f) (stable _) ?_ fun r => ?_
  · rintro s r s' - hs ⟨o, ho, hfault⟩
    cases o with
    | ok n =>
      cases hf : s.named f with
      | none =>
        obtain ⟨rfl, rfl⟩ : Except.error IoError.notFound = r ∧ s = s' := by
          simpa [Files.exec, hf] using ho
        exact ⟨.same rfl, hs.1 ▸ hf, hs⟩
      | some contents =>
        obtain ⟨rfl, rfl⟩ : Except.ok () = r ∧ s.change (.drop f) = s' := by
          simpa [Files.exec, hf] using ho
        refine ⟨.change (.drop f) rfl ?_ hs.2, ?_⟩
        · rw [hs.1] at hf ⊢
          exact hstep (by simp [hf])
        · show Directory.drop s.named f = _
          rw [hs.1]
    | fail e =>
      cases e with
      | notFound => simp [Files.exec] at ho
      | _ =>
        obtain ⟨rfl, rfl⟩ : Except.error _ = r ∧ s = s' := by simpa [Files.exec] using ho
        exact ⟨.same rfl, hX (hs.1 ▸ hfault _ rfl), hs⟩
  · cases r with
    | ok u => exact fsyncParent_runs hX'
    | error e =>
      cases e with
      | notFound =>
        refine Triple.given fun hnone => runs_pure fun s hs => ?_
        rw [drop_eq hnone]
        exact hs
      | _ => exact Triple.given fun hx => runs_fail hx

/-- **Files are removed one after the other.** `G w l` is what holds
when `l` is still to be removed from `w`. -/
theorem removeEach_runs {message : String} {G : Directory → List FileName → Prop}
    (hG : ∀ w f l, G w (f :: l) → (w f ≠ none → FileStep op w (w.drop f)) ∧ G (w.drop f) l)
    (hX : ∀ w l, G w l → faults w → X w) {l : List FileName} (h : G v l) :
    Runs faults op X (Snapshot faults v) (Prog.each l (removeIfPresent message))
      (fun _ => Snapshot faults (v.without l)) := by
  induction l generalizing v with
  | nil =>
    rw [without_nil]
    exact runs_pure fun _ hs => hs
  | cons f l ih =>
    obtain ⟨hstep, hnext⟩ := hG v f l h
    rw [← drop_without]
    exact Triple.bind (removeIfPresent_runs hstep (hX v _ h) (hX _ _ hnext)) fun _ => ih hnext

/-- An error on the way of removing files leaves some of them. -/
abbrev Interrupted (faults : Directory → Prop) (l : List FileName) (v w : Directory) : Prop :=
  Partly l v w ∧ faults w

/-- What is left to remove is stale. -/
def StaleLoop (all : List FileName) (v w : Directory) (l : List FileName) : Prop :=
  Partly all v w ∧ w.NoRecord ∧ l ⊆ all ∧
    ∀ f ∈ l, f ∈ pendingFiles ∨ f ∈ rollbackFiles ∨ w f = none

theorem StaleLoop.step {all l : List FileName} {f : FileName} (h : StaleLoop all v w (f :: l)) :
    (w f ≠ none → FileStep op w (w.drop f)) ∧ StaleLoop all v (w.drop f) l := by
  obtain ⟨hpart, htxn, hall, hfiles⟩ := h
  have hf : f ∈ f :: l := List.mem_cons_self
  refine ⟨fun hne => .discard ?_ htxn, hpart.drop (hall hf), ?_,
    fun g hg => hall (List.mem_cons_of_mem _ hg), fun g hg => ?_⟩
  · rcases hfiles f hf with h | h | h
    · exact .inl h
    · exact .inr h
    · exact absurd h hne
  · show w.drop f .pairingTransactionState = none
    rw [drop_apply]
    split
    · rfl
    · exact htxn
  · refine (hfiles g (List.mem_cons_of_mem _ hg)).imp id (Or.imp id fun h => ?_)
    rw [drop_apply]
    split
    · rfl
    · exact h

/-- **`clear_rollback_pairing_files`**, with no transaction recorded. -/
theorem clearRollbackPairingFiles_runs (htxn : v.NoRecord) :
    Runs faults op (Interrupted faults rollbackFiles v) (Snapshot faults v)
      clearRollbackPairingFiles (fun _ => Snapshot faults (v.without rollbackFiles)) :=
  removeEach_runs (G := StaleLoop rollbackFiles v) (fun _ _ _ h => h.step)
    (fun _ _ h hf => ⟨h.1, hf⟩) ⟨.refl _ _, htxn, fun _ h => h, fun _ h => .inr (.inl h)⟩

/-- **`clear_pending_pairing`**, with no transaction recorded. -/
theorem clearPendingPairing_stale_runs (htxn : v.NoRecord) :
    Runs faults op (Interrupted faults transactionFiles v) (Snapshot faults v)
      clearPendingPairing (fun _ => Snapshot faults (v.without transactionFiles)) := by
  refine removeEach_runs (G := StaleLoop transactionFiles v) (fun _ _ _ h => h.step)
    (fun _ _ h hf => ⟨h.1, hf⟩) ⟨.refl _ _, htxn, fun _ h => h, fun f hf => ?_⟩
  cases f <;> simp_all [pendingFiles, rollbackFiles, NoRecord]

/-- What is left to remove of a finished transaction: its record is
there until the pending files are gone. -/
def FinishLoop (file : PairingTxnFile) (v w : Directory) (l : List FileName) : Prop :=
  StaleLoop transactionFiles v w l ∨
    Partly transactionFiles v w ∧ w.Records file ∧
      (l = transactionFiles ∨ l = transactionFiles.drop 1 ∧ w .pendingPairingState = none ∨
        l = transactionFiles.drop 2 ∧ ∀ f ∈ pendingFiles, w f = none)

theorem FinishLoop.step {file : PairingTxnFile} (hphase : file.phase = .fullyActivated)
    {f : FileName} {l : List FileName} (h : FinishLoop file v w (f :: l)) :
    (w f ≠ none → FileStep op w (w.drop f)) ∧ FinishLoop file v (w.drop f) l := by
  rcases h with h | ⟨hpart, hrec, hl | ⟨hl, hp⟩ | ⟨hl, hp⟩⟩
  · have hstep : (w f ≠ none → FileStep op w (w.drop f)) ∧ _ := h.step
    exact ⟨hstep.1, .inl hstep.2⟩
  · obtain ⟨rfl, rfl⟩ := List.cons.inj hl
    refine ⟨fun _ => .clear (by decide) hrec hphase, .inr ⟨hpart.drop (by decide), ?_, ?_⟩⟩
    · simpa [Records] using hrec
    · exact .inr (.inl ⟨rfl, by simp⟩)
  · obtain ⟨rfl, rfl⟩ := List.cons.inj hl
    refine ⟨fun _ => .clear (by decide) hrec hphase, .inr ⟨hpart.drop (by decide), ?_, ?_⟩⟩
    · simpa [Records] using hrec
    · refine .inr (.inr ⟨rfl, fun g hg => ?_⟩)
      rcases List.mem_pair.mp hg with rfl | rfl
      · simpa using hp
      · simp
  · obtain ⟨rfl, rfl⟩ := List.cons.inj hl
    refine ⟨fun _ => .finish hrec hphase hp, .inl ⟨hpart.drop (by decide), ?_, ?_, ?_⟩⟩
    · simp [NoRecord]
    · decide
    · exact fun g hg => .inr (.inl hg)

/-- **`clear_pending_pairing`**, when the transaction is finished. -/
theorem clearPendingPairing_finished_runs {file : PairingTxnFile} (htxn : v.Records file)
    (hphase : file.phase = .fullyActivated) :
    Runs faults op (Interrupted faults transactionFiles v) (Snapshot faults v)
      clearPendingPairing (fun _ => Snapshot faults (v.without transactionFiles)) := by
  refine removeEach_runs (G := FinishLoop file v) (fun _ _ _ h => h.step hphase) ?_
    (.inr ⟨.refl _ _, htxn, .inl rfl⟩)
  rintro w l (h | h) hf
  · exact ⟨h.1, hf⟩
  · exact ⟨h.1, hf⟩

end Desktop
