import Ferusa.Desktop.PathsStep

/-!
# What the programs on the data directory leave behind

One lemma for each function that prepares, advances, promotes or
recovers a pairing transaction: the directory it leaves, and what is
known of the directory when it fails.
-/

namespace Desktop

open Logic Directory

variable {faults : Directory → Prop} {op : FileOp} {v w : Directory} {X : Directory → Prop}

/-! ## The pairing -/

/-- Reading the recorded pairing does not fail; where the call does, the
pairing cannot be read. -/
theorem readPairingDataFromState_runs :
    Runs faults op X (Snapshot faults v) readPairingDataFromState
      (fun r s => (∀ data, r = .ok data →
        v .pairingState = some (.pairing { version := 3, data })) ∧ Snapshot faults v s) := by
  refine Triple.perform_bind
    (M := fun r s => (∀ c, r = .ok c → v .pairingState = some c) ∧ Snapshot faults v s)
    (stable _) ?_ fun r => ?_
  · rintro s r s' - hs ⟨o, ho, -⟩
    cases o with
    | ok n =>
      cases hf : s.named .pairingState with
      | none =>
        obtain ⟨rfl, rfl⟩ : Except.error IoError.notFound = r ∧ s = s' := by
          simpa [Files.exec, hf] using ho
        exact ⟨.same rfl, by simp, hs⟩
      | some contents =>
        obtain ⟨rfl, rfl⟩ : Except.ok contents = r ∧ s = s' := by
          simpa [Files.exec, hf] using ho
        exact ⟨.same rfl, fun c hc => by rw [← hs.1, hf, Except.ok.inj hc], hs⟩
    | fail e =>
      obtain ⟨rfl, rfl⟩ : Except.error e = r ∧ s = s' := by simpa [Files.exec] using ho
      exact ⟨.same rfl, by simp, hs⟩
  · refine Triple.pure (stable _) fun s _ hs => ⟨fun data hdata => ?_, hs.2⟩
    cases r with
    | error e => cases hdata
    | ok contents =>
      rw [hs.1 contents rfl]
      cases contents with
      | pairing file => rw [parsePairingFile_eq_ok hdata]
      | _ => cases hdata

/-! ## The transaction -/

/-- Reading the transaction returns the one that is recorded. -/
theorem readPairingTransaction_runs (hX : faults v → X v)
    (hbad : (∀ file, v.Records file → file.version ≠ 2) → X v) :
    Runs faults op X (Snapshot faults v) readPairingTransaction
      (fun file s => (v.Records file ∧ file.version = 2) ∧ Snapshot faults v s) := by
  refine Triple.bind (readFile_runs _ hX fun hnone => hbad fun file h => ?_) fun contents => ?_
  · rw [Records, hnone] at h
    cases h
  · refine Triple.given fun hc => ?_
    cases contents with
    | transaction file =>
      refine Triple.bind (runs_ensure fun hne => hbad fun file' h => ?_) fun _ => ?_
      · obtain rfl : file = file' := by simpa [Records, hc] using h
        exact hne
      · exact Triple.given fun hv => runs_pure fun s hs => ⟨⟨hc, hv⟩, hs⟩
    | _ =>
      refine runs_fail (hbad fun file h => ?_)
      rw [Records, hc] at h
      cases h

/-- Reading a transaction that is well formed. -/
theorem readPairingTransaction_known_runs {file : PairingTxnFile} (h : v.Records file)
    (hversion : file.version = 2) (hX : faults v → X v) :
    Runs faults op X (Snapshot faults v) readPairingTransaction
      (fun read s => read = file ∧ Snapshot faults v s) :=
  (readPairingTransaction_runs hX fun hbad => absurd hversion (hbad file h)).post
    fun _ _ _ ⟨⟨hr, _⟩, hs⟩ =>
      ⟨Content.transaction.inj (Option.some.inj (hr.symm.trans h)), hs⟩

/-- An error while a file was being replaced. -/
abbrev Uncertain (faults : Directory → Prop) (v v' w : Directory) : Prop :=
  (w = v ∨ w = v') ∧ faults w

/-- **`write_private_file`** with all that is known after an error. -/
theorem writePrivateFile_uncertain {f : FileName} {contents : Content}
    (hstep : FileStep op v (v.put f contents)) :
    Runs faults op (Uncertain faults v (v.put f contents)) (Snapshot faults v)
      (writePrivateFile f contents) (fun _ => Snapshot faults (v.put f contents)) :=
  writePrivateFile_runs hstep (fun h => ⟨.inl rfl, h⟩) (fun h => ⟨.inr rfl, h⟩)

/-- **`advance_pairing_transaction`.** -/
theorem advancePairingTransaction_runs {phase : PairingTxnPhase} {file : PairingTxnFile}
    (h : v.Records file) (hversion : file.version = 2)
    (hstep : FileStep op v
      (v.put .pairingTransactionState (.transaction { file with phase }))) :
    Runs faults op
      (Uncertain faults v (v.put .pairingTransactionState (.transaction { file with phase })))
      (Snapshot faults v) (advancePairingTransaction phase file.pairingId)
      (fun _ => Snapshot faults
        (v.put .pairingTransactionState (.transaction { file with phase }))) := by
  refine Triple.bind (readPairingTransaction_known_runs h hversion fun hf => ⟨.inl rfl, hf⟩)
    fun read => Triple.given ?_
  rintro rfl
  refine Triple.bind (runs_ensure fun hne => absurd rfl hne) fun _ => Triple.given fun _ => ?_
  exact Triple.context (writePrivateFile_uncertain hstep)

/-- What preparing a transaction changes. -/
abbrev preparedFiles : List FileName := .pairingTransactionState :: rollbackFiles

/-- A copy for the rollback. -/
theorem captureRollback_runs {message : String} {source target : FileName}
    (htxn : v.NoRecord) (ht : target ∈ rollbackFiles) :
    Runs faults op (fun w => Agree [target] v w ∧ w.NoRecord ∧ faults w) (Snapshot faults v)
      (captureRollback message (v source).isSome source target)
      (fun _ s => ∃ w, (Agree [target] v w ∧ w.NoRecord ∧ (v source ≠ none → w target ≠ none)) ∧
        Snapshot faults w s) := by
  unfold captureRollback
  cases hs : v source with
  | none => exact runs_pure fun s hv => ⟨v, ⟨.refl _ _, htxn, by simp⟩, hv⟩
  | some contents =>
    refine Triple.context (Triple.bind (readFile_runs source (fun hf => ⟨.refl _ _, htxn, hf⟩)
      (by simp [hs])) fun read => Triple.given fun hread => ?_)
    obtain rfl : contents = read := by simpa [hs] using hread
    have htxn' : (v.put target contents).NoRecord := by
      rw [NoRecord, put_apply, if_neg (by rintro rfl; revert ht; decide)]
      exact htxn
    have hagree : Agree [target] v (v.put target contents) :=
      (Agree.refl _ v).put List.mem_cons_self contents
    refine Triple.context ((runs_error (writePrivateFile_uncertain (.capture ht htxn)) ?_).post ?_)
    · rintro w ⟨rfl | rfl, hf⟩
      · exact ⟨.refl _ _, htxn, hf⟩
      · exact ⟨hagree, htxn', hf⟩
    · exact fun _ s _ hs => ⟨_, ⟨hagree, htxn', by simp⟩, hs⟩

/-- **`write_pairing_transaction_prepared`**, with the pending files in
place. -/
theorem writePairingTransactionPrepared_runs {blob : EncryptedBlob} {data : PairingData}
    (hop : op = .prepare blob data) (htxn : v.NoRecord)
    (hv : v .pendingVaultEnc = some (.vault blob))
    (hp : v .pendingPairingState = some (.pairing { version := 3, data })) :
    Runs faults op (fun w => Agree preparedFiles v w ∧ faults w) (Snapshot faults v)
      (writePairingTransactionPrepared data.pairingId)
      (fun _ s => ∃ w, (Agree preparedFiles v w ∧ ∃ file, w.Records file ∧ file.version = 2 ∧
        file.phase = .prepared ∧ file.pairingId = data.pairingId) ∧ Snapshot faults w s) := by
  refine Triple.bind (pathExists_runs _) fun present => Triple.given fun hpresent => ?_
  have hpresent : present = false := by rw [hpresent, htxn, Option.isSome_none]
  refine Triple.bind (runs_ensure fun hne => absurd hpresent hne) fun _ => Triple.given fun _ => ?_
  refine Triple.bind (runs_error (clearRollbackPairingFiles_runs htxn) fun w hw =>
    ⟨hw.1.agree.mono (List.subset_cons_self _ _), hw.2⟩) fun _ => ?_
  have hagree : Agree preparedFiles v (v.without rollbackFiles) :=
    (without_agree v _).mono (List.subset_cons_self _ _)
  have htxn' : (v.without rollbackFiles).NoRecord := (without_agree v _ _ (by decide)).trans htxn
  generalize v.without rollbackFiles = u at hagree htxn'
  refine Triple.bind (pathExists_runs _) fun hadLiveVault => Triple.given ?_
  rintro rfl
  refine Triple.bind (pathExists_runs _) fun hadLivePairing => Triple.given ?_
  rintro rfl
  refine Triple.bind (runs_error (captureRollback_runs htxn' (by decide)) fun w hw =>
    ⟨hagree.trans (hw.1.mono (by decide)), hw.2.2⟩) fun _ => Triple.exists fun u₁ =>
      Triple.given ?_
  rintro ⟨hagree₁, htxn₁, hvault⟩
  rw [← hagree₁ .pairingState (by decide)]
  refine Triple.bind (runs_error (captureRollback_runs htxn₁ (by decide)) fun w hw =>
    ⟨hagree.trans ((hagree₁.mono (by decide)).trans (hw.1.mono (by decide))), hw.2.2⟩) fun _ =>
      Triple.exists fun u₂ => Triple.given ?_
  rintro ⟨hagree₂, htxn₂, hpairing⟩
  have hall : Agree preparedFiles v u₂ :=
    hagree.trans ((hagree₁.mono (by decide)).trans (hagree₂.mono (by decide)))
  have hvault₂ : u .vaultEnc ≠ none → u₂ .rollbackVaultEnc ≠ none := fun h =>
    hagree₂ .rollbackVaultEnc (by decide) ▸ hvault h
  refine Triple.context ((runs_error (writePrivateFile_uncertain
    (.prepare hop htxn₂ ?_ ?_ rfl rfl rfl ?_ ?_)) ?_).post ?_)
  · exact (hall _ (by decide)).trans hv
  · exact (hall _ (by decide)).trans hp
  · exact fun h => hvault₂ (Option.isSome_iff_ne_none.mp h)
  · exact fun h => hpairing (Option.isSome_iff_ne_none.mp h)
  · rintro w ⟨rfl | rfl, hf⟩
    · exact ⟨hall, hf⟩
    · exact ⟨hall.put (by decide) _, hf⟩
  · exact fun _ s _ hs => ⟨_, ⟨hall.put (by decide) _, _, put_records .., rfl, rfl, rfl⟩, hs⟩

/-! ## Promotion and recovery -/

/-- A file is renamed. -/
theorem renameFile_runs {message : String} {f g : FileName} {contents : Content}
    (hf : v f = some contents) (hstep : FileStep op v (v.move f g)) (hX : faults v → X v) :
    Runs faults op X (Snapshot faults v) (renameFile message f g)
      (fun _ => Shows (v.move f g)) := by
  refine Triple.perform_bind
    (M := fun r s => (r = .ok () → Shows (v.move f g) s) ∧
      ∀ e, r = .error e → X v ∧ Snapshot faults v s) (stable _) ?_ ?_
  · rintro s r s' - hs ⟨o, ho, hfault⟩
    cases o with
    | ok n =>
      obtain ⟨rfl, rfl⟩ : Except.ok () = r ∧ s.change (.move f g) = s' := by
        simpa [Files.exec, hs.1, hf] using ho
      refine ⟨.change (.move f g) rfl ?_ hs.2, fun _ => ?_, by simp⟩
      · rw [hs.1]
        exact hstep
      · show Directory.move s.named f g = _
        rw [hs.1]
    | fail e =>
      obtain ⟨rfl, rfl⟩ : Except.error e = r ∧ s = s' := by simpa [Files.exec] using ho
      exact ⟨.same rfl, by simp, fun _ _ => ⟨hX (hs.1 ▸ hfault e rfl), hs⟩⟩
  · intro r
    exact runs_fallible (fun a ha s hs => hs.1 (by rw [ha]))
      (fun e he s hs => ⟨v, (hs.2 e he).1, (hs.2 e he).2⟩)

theorem Directory.move_none {f g : FileName} (h : v f = none) : v.move f g = v := by
  rw [move, h]

/-- The files a promotion changes. -/
abbrev promotedFiles : List FileName :=
  [.pendingVaultEnc, .vaultEnc, .pendingPairingState, .pairingState]

theorem Directory.move_agree {l : List FileName} (f g : FileName) (hf : f ∈ l) (hg : g ∈ l) :
    Agree l v (v.move f g) := by
  unfold move
  split
  · exact ((Agree.refl l v).drop hf).put hg _
  · exact .refl l v

/-- **One file is promoted**; where nothing is pending the live one is
there. -/
theorem promote_runs {failed missing : String} {pending target : FileName}
    (hstep : v pending ≠ none → FileStep op v (v.move pending target))
    (hX : X v) (hX' : faults (v.move pending target) → X (v.move pending target)) :
    Runs faults op X (Snapshot faults v) (promote failed missing pending target)
      (fun _ s => v.move pending target target ≠ none ∧
        Snapshot faults (v.move pending target) s) := by
  refine Triple.bind (pathExists_runs _) fun present => Triple.given fun hpresent => ?_
  cases hp : v pending with
  | some contents =>
    rw [hpresent, hp]
    refine Triple.bind (renameFile_runs hp (hstep (by simp [hp])) fun _ => hX) fun _ => ?_
    refine (fsyncParent_runs hX').post fun _ s _ hs => ⟨?_, hs⟩
    rw [move_eq _ hp, put_apply, if_pos rfl]
    exact Option.some_ne_none _
  | none =>
    rw [hpresent, hp, move_none hp]
    refine Triple.bind (pathExists_runs _) fun live => Triple.given fun hlive => ?_
    refine (runs_ensure fun _ => hX).post fun _ s _ hs => ⟨?_, hs.2⟩
    rw [hlive] at hs
    exact Option.isSome_iff_ne_none.mp hs.1

theorem Directory.move_source {f g : FileName} (hne : f ≠ g) (v : Directory) :
    v.move f g f = none := by
  cases h : v f with
  | some contents => rw [move_eq g h, put_apply, if_neg hne, drop_apply, if_pos rfl]
  | none => rw [move_none h, h]

/-- The directory with both pending files promoted. -/
def Directory.promoted (v : Directory) : Directory :=
  (v.move .pendingVaultEnc .vaultEnc).move .pendingPairingState .pairingState

theorem Directory.promoted_agree (v : Directory) : Agree promotedFiles v v.promoted :=
  (move_agree _ _ (by decide) (by decide)).trans (move_agree _ _ (by decide) (by decide))

theorem Directory.promoted_pending (v : Directory) : ∀ f ∈ pendingFiles, v.promoted f = none := by
  intro f hf
  rcases List.mem_pair.mp hf with rfl | rfl
  · exact move_source (by decide) _
  · rw [promoted, move_agree (l := [.pendingPairingState, .pairingState]) _ _ (by decide)
      (by decide) _ (by decide)]
    exact move_source (by decide) _

theorem requireRollback_runs {message : String} {had : Bool} {f : FileName} (hX : X v) :
    Runs faults op X (Snapshot faults v) (requireRollback message had f)
      (fun _ => Snapshot faults v) := by
  unfold requireRollback
  split
  · refine Triple.bind (pathExists_runs _) fun present => Triple.given fun _ => ?_
    exact (runs_ensure fun _ => hX).post fun _ _ _ hs => hs.2
  · exact runs_pure fun _ hs => hs

/-- **`promote_pending_pairing`** on a transaction the phone has
committed. -/
theorem promotePendingPairing_runs {file : PairingTxnFile} (htxn : v.Records file)
    (hversion : file.version = 2) (hphase : file.phase = .phoneCommitted) :
    Runs faults op (Agree promotedFiles v) (Snapshot faults v) promotePendingPairing
      (fun _ s => (v.promoted .vaultEnc ≠ none ∧ v.promoted .pairingState ≠ none) ∧
        Snapshot faults v.promoted s) := by
  refine Triple.bind (readPairingTransaction_known_runs htxn hversion fun _ => .refl _ _)
    fun read => Triple.given ?_
  rintro rfl
  refine Triple.bind (runs_ensure fun _ => .refl _ _) fun _ => Triple.given fun _ => ?_
  refine Triple.bind (requireRollback_runs (.refl _ _)) fun _ => ?_
  refine Triple.bind (requireRollback_runs (.refl _ _)) fun _ => ?_
  have hmove : Agree promotedFiles v (v.move .pendingVaultEnc .vaultEnc) :=
    move_agree _ _ (by decide) (by decide)
  refine Triple.bind (promote_runs (fun hne => ?_) (.refl _ _) fun _ => hmove) fun _ =>
    Triple.given fun hvault => ?_
  · obtain ⟨contents, hc⟩ := Option.ne_none_iff_exists'.mp hne
    rw [move_eq _ hc]
    exact .promoteVault htxn hphase hc
  have hsource : v.move .pendingVaultEnc .vaultEnc .pendingVaultEnc = none :=
    move_source (by decide) v
  have htxn' : (v.move .pendingVaultEnc .vaultEnc).Records read :=
    (hmove _ (by decide)).trans htxn
  refine (promote_runs (fun hne => ?_) hmove fun _ => v.promoted_agree).post
    fun _ s _ hs => ⟨⟨?_, hs.1⟩, hs.2⟩
  · obtain ⟨contents, hc⟩ := Option.ne_none_iff_exists'.mp hne
    rw [move_eq _ hc]
    exact .promotePairing htxn' hphase hsource hc
  · rw [promoted, move_agree (l := [.pendingPairingState, .pairingState]) _ _ (by decide)
      (by decide) _ (by decide)]
    exact hvault

/-- Whether something stale is there. -/
theorem hasStaleFiles_runs :
    Runs faults op X (Snapshot faults v) hasStaleFiles
      (fun b s => (b = false → ∀ f ∈ transactionFiles, f ≠ .pairingTransactionState → v f = none) ∧
        Snapshot faults v s) := by
  refine Triple.bind (pathExists_runs _) fun b₁ => Triple.given fun h₁ => ?_
  cases b₁ with
  | true => exact runs_pure fun _ hs => ⟨nofun, hs⟩
  | false =>
    refine Triple.bind (pathExists_runs _) fun b₂ => Triple.given fun h₂ => ?_
    cases b₂ with
    | true => exact runs_pure fun _ hs => ⟨nofun, hs⟩
    | false =>
      refine Triple.bind (pathExists_runs _) fun b₃ => Triple.given fun h₃ => ?_
      cases b₃ with
      | true => exact runs_pure fun _ hs => ⟨nofun, hs⟩
      | false =>
        refine (pathExists_runs _).post fun b₄ s _ hs => ⟨fun h₄ f hf hne => ?_, hs.2⟩
        have h₄ : false = _ := h₄.symm.trans hs.1
        cases f <;> simp_all [transactionFiles]

/-- **`recover_pairing_transaction`** with nothing recorded: what is
stale is removed. -/
theorem recoverPairingTransaction_stale_runs (htxn : v.NoRecord) :
    Runs faults op (Interrupted faults transactionFiles v) (Snapshot faults v)
      recoverPairingTransaction (fun _ => Snapshot faults (v.without transactionFiles)) := by
  refine Triple.bind (pathExists_runs _) fun present => Triple.given fun hpresent => ?_
  obtain rfl : present = false := by rw [hpresent, htxn, Option.isSome_none]
  refine Triple.bind hasStaleFiles_runs fun stale => Triple.given fun hstale => ?_
  cases stale with
  | true => exact Triple.context (clearPendingPairing_stale_runs htxn)
  | false =>
    have hv : v.without transactionFiles = v := by
      funext f
      show (if f ∈ transactionFiles then none else v f) = v f
      split
      · next hf =>
        by_cases hne : f = .pairingTransactionState
        · rw [hne, htxn]
        · rw [hstale rfl f hf hne]
      · rfl
    rw [hv]
    exact runs_pure fun _ hs => hs

/-- The transaction is recorded, and read. -/
theorem recoverPairingTransaction_recorded_runs {file : PairingTxnFile} (htxn : v.Records file)
    (hversion : file.version = 2) {Q : Unit → Files → Prop} (hX : faults v → X v)
    (h : Runs faults op X (Snapshot faults v) (match file.phase with
      | .prepared => pure ()
      | .locallyActivated => pure ()
      | .phoneCommitted => do
        promotePendingPairing.context "finish pairing transaction promotion"
        (writePairingTransactionLocallyActivated file.pairingId).context
          "mark pairing transaction locally activated"
      | .fullyActivated =>
        clearPendingPairing.context "clear fully activated pairing transaction") Q) :
    Runs faults op X (Snapshot faults v) recoverPairingTransaction Q := by
  refine Triple.bind (pathExists_runs _) fun present => Triple.given fun hpresent => ?_
  obtain rfl : present = true := by rw [hpresent, htxn, Option.isSome_some]
  refine Triple.bind (readPairingTransaction_known_runs htxn hversion hX)
    fun read => Triple.given ?_
  rintro rfl
  exact h

/-- A transaction that waits for the phone is left alone. -/
theorem recoverPairingTransaction_waiting_runs {file : PairingTxnFile} (htxn : v.Records file)
    (hversion : file.version = 2)
    (hphase : file.phase = .prepared ∨ file.phase = .locallyActivated) :
    Runs faults op (fun w => w = v ∧ faults w) (Snapshot faults v) recoverPairingTransaction
      (fun _ => Snapshot faults v) := by
  refine recoverPairingTransaction_recorded_runs htxn hversion (fun hf => ⟨rfl, hf⟩) ?_
  rcases hphase with h | h
  · rw [h]
    exact runs_pure fun _ hs => hs
  · rw [h]
    exact runs_pure fun _ hs => hs

/-- The directory once a committed transaction is activated locally. -/
def Directory.activated (v : Directory) (file : PairingTxnFile) : Directory :=
  v.promoted.put .pairingTransactionState (.transaction { file with phase := .locallyActivated })

/-- **A transaction the phone has committed is activated.** -/
theorem recoverPairingTransaction_committed_runs {file : PairingTxnFile} (htxn : v.Records file)
    (hversion : file.version = 2) (hphase : file.phase = .phoneCommitted) :
    Runs faults op
      (fun w => Agree (.pairingTransactionState :: promotedFiles) v w ∧ ¬ w.NoRecord)
      (Snapshot faults v) recoverPairingTransaction
      (fun _ s => (v.promoted .vaultEnc ≠ none ∧ v.promoted .pairingState ≠ none) ∧
        Snapshot faults (v.activated file) s) := by
  refine recoverPairingTransaction_recorded_runs htxn hversion
    (fun _ => ⟨.refl _ _, htxn.not_noRecord⟩) ?_
  rw [hphase]
  refine Triple.bind (Triple.context (runs_error (promotePendingPairing_runs htxn hversion hphase)
    fun w hw => ⟨hw.mono (List.subset_cons_self _ _),
      Records.not_noRecord ((hw _ (by decide)).trans htxn)⟩)) fun _ => Triple.given fun hlive => ?_
  have hagree := v.promoted_agree
  have htxn' : v.promoted.Records file := (hagree _ (by decide)).trans htxn
  have hagree' := hagree.mono (List.subset_cons_self .pairingTransactionState _)
  refine Triple.context ((runs_error (advancePairingTransaction_runs htxn' hversion
    (.activateLocally htxn' hversion hphase (v.promoted_pending _ (by decide))
      (v.promoted_pending _ (by decide)))) ?_).post fun _ s _ hs => ⟨hlive, hs⟩)
  rintro w ⟨rfl | rfl, -⟩
  · exact ⟨hagree', htxn'.not_noRecord⟩
  · exact ⟨hagree'.put List.mem_cons_self _, (put_records ..).not_noRecord⟩

/-- **A transaction that is activated on both sides is removed.** -/
theorem recoverPairingTransaction_finished_runs {file : PairingTxnFile} (htxn : v.Records file)
    (hversion : file.version = 2) (hphase : file.phase = .fullyActivated) :
    Runs faults op (Interrupted faults transactionFiles v) (Snapshot faults v)
      recoverPairingTransaction (fun _ => Snapshot faults (v.without transactionFiles)) := by
  refine recoverPairingTransaction_recorded_runs htxn hversion
    (fun hf => ⟨.refl _ _, hf⟩) ?_
  rw [hphase]
  exact Triple.context (clearPendingPairing_finished_runs htxn hphase)

/-- What `recover_pairing_transaction` leaves is known, whatever the
directory was. -/
theorem recoverPairingTransaction_runs :
    Runs faults op (fun _ => True) (Snapshot faults v) recoverPairingTransaction
      (fun _ s => ∃ w, True ∧ Snapshot faults w s) := by
  by_cases htxn : v.NoRecord
  · exact (runs_error (recoverPairingTransaction_stale_runs htxn) fun _ _ => trivial).post
      fun _ s _ hs => ⟨_, trivial, hs⟩
  by_cases hrec : ∃ file, v.Records file ∧ file.version = 2
  · obtain ⟨file, hrec, hversion⟩ := hrec
    cases hphase : file.phase with
    | prepared =>
      exact (runs_error (recoverPairingTransaction_waiting_runs hrec hversion (.inl hphase))
        fun _ _ => trivial).post fun _ s _ hs => ⟨_, trivial, hs⟩
    | locallyActivated =>
      exact (runs_error (recoverPairingTransaction_waiting_runs hrec hversion (.inr hphase))
        fun _ _ => trivial).post fun _ s _ hs => ⟨_, trivial, hs⟩
    | phoneCommitted =>
      exact (runs_error (recoverPairingTransaction_committed_runs hrec hversion hphase)
        fun _ _ => trivial).post fun _ s _ hs => ⟨_, trivial, hs.2⟩
    | fullyActivated =>
      exact (runs_error (recoverPairingTransaction_finished_runs hrec hversion hphase)
        fun _ _ => trivial).post fun _ s _ hs => ⟨_, trivial, hs⟩
  · refine Triple.bind (pathExists_runs _) fun present => Triple.given fun hpresent => ?_
    obtain rfl : present = true := by
      rw [hpresent]
      exact Option.isSome_iff_ne_none.mpr htxn
    refine Triple.bind (readPairingTransaction_runs (fun _ => trivial) fun _ => trivial)
      fun read => Triple.given fun hread => ?_
    exact absurd ⟨read, hread⟩ hrec

end Desktop
