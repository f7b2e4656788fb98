import Ferusa.Desktop.History

/-!
# Rules for what a command may do

A program on the data directory is disciplined (`Puts`) when it writes
only what it is given to write; nothing has to be said of its states.
The rules below are those of desktop programs: the files may be worked
on by disciplined programs, the outside may be asked, and the session is
known (`On`) until it is replaced.
-/

namespace Desktop

open Logic DeskProg

variable {α : Type} {G : Vault → Prop} {W : FileName → Content → Prop}

/-! ## Disciplined programs on the files -/

/-- **The discipline of a program on the files**: the contents `W`
allows are written, each in the place it was written for, and the
recorded pairing is left in its place. -/
def Puts (W : FileName → Content → Prop) : FileCmd → Prop
  | .quiet (.writeAll t contents) => W t.file contents
  | .renameTemp t f => t.file = f ∧ ∃ contents, W f contents
  | .rename f g => f ≠ .pairingState ∧ (g = .vaultEnc → f = .pendingVaultEnc) ∧
      (g = .pairingState → f = .pendingPairingState)
  | .remove f => f ≠ .pairingState
  | _ => True

/-- What system calls reply: every vault that is read has the property,
and a temporary file is the one that was asked for. -/
def Answers (G : Vault → Prop) : (c : FileCmd) → c.Reply → Prop
  | .read _, r => ∀ contents, r = .ok contents → contents.Holds G
  | .create f, r => ∀ t, r = .ok t → t.file = f
  | _, _ => True

/-- What system calls reply where the pairing is recorded: it is
found. -/
def Finds (G : Vault → Prop) : (c : FileCmd) → c.Reply → Prop
  | .exists f, r => f = .pairingState → r = true
  | c, r => Answers G c r

/-- **A disciplined program**: it returns values of `Q`. -/
abbrev Disciplined (G : Vault → Prop) (W : FileName → Content → Prop) (Q : α → Prop)
    (p : FileProg α) : Prop :=
  p.Obeys (Puts W) (Answers G) Q

/-- What recovery writes: no vault in its place or as a new generation,
and no new transaction. -/
def Upkeep (G : Vault → Prop) (f : FileName) (contents : Content) : Prop :=
  contents.Holds G ∧ f ≠ .vaultEnc ∧ f ≠ .pendingVaultEnc ∧ f ≠ .pairingState ∧
    (f = .pairingTransactionState → ∀ file, contents = .transaction file →
      file.phase ≠ .prepared)

theorem disciplined_ensure {check : Prop} [Decidable check] {message : String} :
    Disciplined G W (fun _ => check) (Prog.ensure check message) := by
  unfold Prog.ensure
  split
  · next h => exact h
  · trivial

theorem disciplined_fallible {message : String} {r : Except IoError α} :
    Disciplined G W (fun a => r = .ok a) (fallible message r) := by
  cases r with
  | ok a => rfl
  | error e => trivial

theorem disciplined_pathExists (f : FileName) : Disciplined G W (fun _ => True) (pathExists f) :=
  .perform trivial fun _ _ => trivial

/-- What a program branches on is read from the files. -/
theorem disciplined_branch {f : FileName} {Q : α → Prop} {p q : FileProg α}
    (hp : Disciplined G W Q p) (hq : Disciplined G W Q q) :
    Disciplined G W Q (do if ← pathExists f then p else q) := by
  refine .bind (disciplined_pathExists f) fun b _ => ?_
  cases b with
  | true => exact hp
  | false => exact hq

theorem disciplined_quiet {message : String} {c : QuietCmd} (hc : Puts W (.quiet c)) :
    Disciplined G W (fun _ => True) (quietCall message c) :=
  .bind (.perform hc fun _ _ => trivial) fun _ _ => disciplined_fallible.post fun _ _ => trivial

theorem disciplined_readFile (message : String) (f : FileName) :
    Disciplined G W (Content.Holds G) (readFile message f) :=
  .bind (.perform trivial fun _ hr => hr) fun _ hr => disciplined_fallible.post hr

theorem disciplined_fsyncParent : Disciplined G W (fun _ => True) fsyncParent :=
  .bind (.perform trivial fun _ _ => trivial) fun _ _ => disciplined_fallible.post fun _ _ => trivial

/-- **`write_private_file`** writes what it is given. -/
theorem disciplined_writePrivateFile {f : FileName} {contents : Content} (hW : W f contents) :
    Disciplined G W (fun _ => True) (writePrivateFile f contents) := by
  have hcreate : Disciplined G W (fun t => t.file = f) (createTemp f) :=
    .bind (.perform trivial fun _ hr => hr) fun _ hr => disciplined_fallible.post hr
  refine .bind hcreate ?_
  rintro t rfl
  have hrename : Disciplined G W (fun _ => True) (renameTemp t t.file) :=
    .bind (.perform ⟨rfl, contents, hW⟩ fun _ _ => trivial) fun _ _ =>
      disciplined_fallible.post fun _ _ => trivial
  have hwrite : Disciplined G W (fun _ => True) (writeTemp t t.file contents) :=
    .bind (disciplined_quiet hW) fun _ _ => .bind (disciplined_quiet trivial) fun _ _ =>
      .bind (disciplined_quiet trivial) fun _ _ => .bind hrename fun _ _ => disciplined_fsyncParent
  refine .bind hwrite.attempt fun r _ => ?_
  cases r with
  | ok a => trivial
  | error e =>
    refine .bind (Prog.Obeys.attempt (disciplined_quiet (W := W) trivial)) fun _ _ => ?_
    trivial

theorem disciplined_copyPrivateFile {source target : FileName}
    (hW : ∀ contents, contents.Holds G → W target contents) :
    Disciplined G W (fun _ => True) (copyPrivateFile source target) :=
  .bind (disciplined_readFile _ _) fun contents hc =>
    Prog.Obeys.mapError (disciplined_writePrivateFile (hW contents hc))

theorem disciplined_removeIfPresent {message : String} {f : FileName} (hf : f ≠ .pairingState) :
    Disciplined G W (fun _ => True) (removeIfPresent message f) := by
  refine .bind (.perform hf fun _ _ => trivial) fun (r : Except IoError Unit) _ => ?_
  match r with
  | .ok () => exact disciplined_fsyncParent
  | .error .notFound => trivial
  | .error .isADirectory => trivial
  | .error (.other _) => trivial

theorem disciplined_clearPendingPairing :
    Disciplined G W (fun _ => True) clearPendingPairing :=
  .each fun f hf => disciplined_removeIfPresent <| by
    rintro rfl
    simp at hf

theorem disciplined_clearRollbackPairingFiles :
    Disciplined G W (fun _ => True) clearRollbackPairingFiles :=
  .each fun f hf => disciplined_removeIfPresent <| by
    rintro rfl
    simp at hf

theorem disciplined_readPairingTransaction :
    Disciplined G W (fun _ => True) readPairingTransaction := by
  refine .bind (disciplined_readFile _ _) fun contents _ => ?_
  cases contents.asTransaction with
  | error e => trivial
  | ok file => exact .bind disciplined_ensure fun _ _ => trivial

theorem disciplined_readPairingDataFromState :
    Disciplined G W (fun _ => True) readPairingDataFromState :=
  .bind (.perform trivial fun _ _ => trivial) fun _ _ => trivial

theorem disciplined_readPairingData : Disciplined G W (fun _ => True) readPairingData :=
  disciplined_branch (.bind disciplined_readPairingDataFromState fun _ _ =>
    .ofExcept fun _ _ => trivial) trivial

theorem disciplined_readPendingPairingData :
    Disciplined G W (fun _ => True) readPendingPairingData := by
  refine .bind (disciplined_readFile _ _) fun contents _ => ?_
  cases contents.asPairing with
  | error e => trivial
  | ok file => exact .ofExcept fun _ _ => trivial

theorem disciplined_readRecoveryPairing :
    Disciplined G W (fun _ => True) readRecoveryPairing :=
  disciplined_branch disciplined_readPendingPairingData disciplined_readPairingData

theorem disciplined_pairingStatus : Disciplined G W (fun _ => True) pairingStatus :=
  disciplined_branch trivial <| disciplined_branch trivial <| disciplined_branch
    (.bind disciplined_readPairingDataFromState fun _ _ => trivial) <|
      disciplined_branch trivial <| disciplined_branch trivial trivial

theorem disciplined_ensureNotDev2faStubVault :
    Disciplined G W (fun _ => True) ensureNotDev2faStubVault :=
  disciplined_branch trivial trivial

/-- Advancing a transaction is upkeep. -/
theorem disciplined_advancePairingTransaction {phase : PairingTxnPhase} (pairingId : Uuid)
    (hphase : phase ≠ .prepared) :
    Disciplined G (Upkeep G) (fun _ => True) (advancePairingTransaction phase pairingId) := by
  refine .bind disciplined_readPairingTransaction fun file _ => ?_
  refine .bind disciplined_ensure fun _ _ => ?_
  refine Prog.Obeys.mapError (disciplined_writePrivateFile ⟨trivial, nofun, nofun, nofun, ?_⟩)
  intro _ file' hfile'
  obtain rfl := Content.transaction.inj hfile'
  exact hphase

theorem disciplined_requireRollback {message : String} {had : Bool} {f : FileName} :
    Disciplined G W (fun _ => True) (requireRollback message had f) := by
  cases had with
  | true =>
    exact .bind (disciplined_pathExists f) fun _ _ => disciplined_ensure.post fun _ _ => trivial
  | false => trivial

theorem disciplined_promote {failed missing : String} {pending target : FileName}
    (hp : pending ≠ .pairingState) (hv : target = .vaultEnc → pending = .pendingVaultEnc)
    (ht : target = .pairingState → pending = .pendingPairingState) :
    Disciplined G W (fun _ => True) (promote failed missing pending target) := by
  have hrename : Disciplined G W (fun _ => True) (renameFile failed pending target) :=
    .bind (.perform ⟨hp, hv, ht⟩ fun _ _ => trivial) fun _ _ =>
      disciplined_fallible.post fun _ _ => trivial
  exact disciplined_branch (.bind hrename fun _ _ => disciplined_fsyncParent)
    (.bind (disciplined_pathExists _) fun _ _ => disciplined_ensure.post fun _ _ => trivial)

theorem disciplined_promotePendingPairing :
    Disciplined G W (fun _ => True) promotePendingPairing :=
  .bind disciplined_readPairingTransaction fun _ _ => .bind disciplined_ensure fun _ _ =>
    .bind disciplined_requireRollback fun _ _ => .bind disciplined_requireRollback fun _ _ =>
      .bind (disciplined_promote nofun (fun _ => rfl) nofun) fun _ _ =>
        disciplined_promote nofun nofun fun _ => rfl

theorem disciplined_hasStaleFiles : Disciplined G W (fun _ => True) hasStaleFiles :=
  disciplined_branch trivial <| disciplined_branch trivial <| disciplined_branch trivial <|
    disciplined_pathExists _

/-- **Recovery is upkeep.** -/
theorem disciplined_recoverPairingTransaction :
    Disciplined G (Upkeep G) (fun _ => True) recoverPairingTransaction := by
  refine disciplined_branch (.bind disciplined_readPairingTransaction fun txn _ => ?_)
    (.bind disciplined_hasStaleFiles fun stale _ => ?_)
  · cases txn.phase with
    | prepared => trivial
    | locallyActivated => trivial
    | phoneCommitted =>
      exact .bind (.mapError disciplined_promotePendingPairing) fun _ _ =>
        .mapError (disciplined_advancePairingTransaction _ nofun)
    | fullyActivated => exact .mapError disciplined_clearPendingPairing
  · cases stale with
    | true => exact .mapError disciplined_clearPendingPairing
    | false => trivial

theorem disciplined_captureRollback {message : String} {present : Bool} {source target : FileName}
    (hW : ∀ contents, contents.Holds G → W target contents) :
    Disciplined G W (fun _ => True) (captureRollback message present source target) := by
  cases present with
  | true => exact .mapError (disciplined_copyPrivateFile hW)
  | false => trivial

/-- Where the pairing is recorded, there are pairing files. -/
theorem finds_hasPairingFiles :
    (hasPairingFiles : FileProg Bool).Obeys (Puts W) (Finds G) (· = true) := by
  refine .bind (.perform trivial fun r hr => hr rfl) ?_
  rintro b rfl
  rfl

/-! ## Rules -/

variable [Crypto] {op : DeskOp} {F : History → Prop}

/-- **A desktop program started from `P`** puts a command only when it
may, and returns with `Q` or fails with `F`. -/
abbrev HistRuns (G : Vault → Prop) (op : DeskOp) (F : History → Prop) (P : History → Prop)
    (p : DeskProg α) (Q : α → History → Prop) : Prop :=
  (recordedLogic Desk.Exec (VaultInv G) (May G op)).Triple P p Q (fun _ => F)

/-- **An assertion that lasts** while the session is not replaced. -/
def Lasting (G : Vault → Prop) (op : DeskOp) (P : History → Prop) : Prop :=
  ∀ c s r s', Recorded.exec Desk.Exec c s r s' → May G op c s →
    (∀ sess, c ≠ .setSession sess) → P s → P s'

/-- Knowledge of the past that only grows. -/
def Grows (K : List (Event DeskCmd.Reply) → Prop) : Prop := ∀ e l, K l → K (e :: l)

/-- **The session is known**, and something of the past. -/
def On (sess : Option SessionState) (K : List (Event DeskCmd.Reply) → Prop) (s : History) :
    Prop :=
  s.state.session = sess ∧ K s.past

variable {P P' : History → Prop} {sess : Option SessionState}
  {K : List (Event DeskCmd.Reply) → Prop}

theorem Lasting.and (h : Lasting G op P) (h' : Lasting G op P') :
    Lasting G op fun s => P s ∧ P' s :=
  fun c s r s' hx hm hc hP => ⟨h c s r s' hx hm hc hP.1, h' c s r s' hx hm hc hP.2⟩

theorem Lasting.paired : Lasting G op fun s => s.state.Paired :=
  fun _ _ _ _ hx hm _ hP => hP.exec hx.1 hm

theorem Lasting.event (e : Event DeskCmd.Reply) : Lasting G op fun s => e ∈ s.past :=
  fun _ _ _ s' hx _ _ he => by
    show e ∈ s'.past
    rw [hx.2]
    exact List.mem_cons_of_mem _ he

/-- Only replacing the session replaces it. -/
theorem Lasting.on (hK : Grows K) : Lasting G op (On sess K) := by
  intro c s r s' ⟨⟨o, hx⟩, hpast⟩ _ hc hP
  refine ⟨?_, hpast ▸ hK _ _ hP.2⟩
  cases c with
  | file c =>
    obtain ⟨x, -, hxs⟩ := Option.map_eq_some_iff.mp hx
    exact (Prod.mk.inj hxs).2 ▸ hP.1
  | env c => exact (Prod.mk.inj (Option.some.inj hx)).2 ▸ hP.1
  | getSession => exact (Prod.mk.inj (Option.some.inj hx)).2 ▸ hP.1
  | setSession sess => exact absurd rfl (hc sess)

omit [Crypto] in
theorem Grows.true : Grows fun _ => True := fun _ _ _ => trivial

omit [Crypto] in
theorem Grows.imp {φ : Prop} (hK : Grows K) : Grows fun past => φ → K past :=
  fun e l h hφ => hK e l (h hφ)

theorem Grows.granted (s₀ : SessionState) (request : VaultAction × Option String) :
    Grows (s₀.Granted request) := by
  rintro e l ⟨pairing, hp, req, resp, hmem, h⟩
  exact ⟨pairing, hp, req, resp, List.mem_cons_of_mem _ hmem, h⟩

theorem hist_pure {a : α} {Q : α → History → Prop} (h : ∀ s, P s → Q a s) :
    HistRuns G op F P (pure a) Q :=
  Triple.pure (stable_recorded P) fun s _ hs => h s hs

theorem hist_fail {e : Anyhow} {Q : α → History → Prop} (h : ∀ s, P s → F s) :
    HistRuns G op F P (.fail e) Q :=
  Triple.fail (stable_recorded P) fun s _ hs => h s hs

theorem hist_ensure {check : Prop} [Decidable check] {message : String}
    (h : ∀ s, P s → F s) :
    HistRuns G op F P (Prog.ensure check message) (fun _ s => check ∧ P s) :=
  Triple.ensure (stable_recorded P) fun s _ hs _ => h s hs

theorem hist_okOr {a : Option α} {message : String} (h : ∀ s, P s → F s) :
    HistRuns G op F P (Prog.okOr message a) (fun b s => a = some b ∧ P s) :=
  Triple.okOr (stable_recorded P) fun s _ hs _ => h s hs

theorem hist_ofExcept {a : Except Anyhow α} (h : ∀ s, P s → F s) :
    HistRuns G op F P (Prog.ofExcept a) (fun b s => a = .ok b ∧ P s) :=
  Triple.ofExcept (stable_recorded P) (fun _ ha _ _ hs => ⟨ha, hs⟩) fun _ _ s _ hs => h s hs

theorem hist_answer {message : String} {r : Except String α} (h : ∀ s, P s → F s) :
    HistRuns G op F P (answer message r) (fun a s => r = .ok a ∧ P s) := by
  cases r with
  | ok a => exact Triple.ret (stable_recorded P) fun _ _ hs => ⟨rfl, hs⟩
  | error e => exact hist_fail h

theorem hist_error {F' : History → Prop} {p : DeskProg α} {Q : α → History → Prop}
    (h : HistRuns G op F P p Q) (hF : ∀ s, F s → F' s) : HistRuns G op F' P p Q :=
  h.conseq (fun _ _ hs => hs) (fun _ _ _ hs => hs) (fun _ s _ hs => hF s hs)

/-- A weaker precondition that is enough. -/
theorem hist_pre (P' : History → Prop) {p : DeskProg α} {Q : α → History → Prop}
    (h : HistRuns G op F P' p Q) (hP : ∀ s, P s → P' s) : HistRuns G op F P p Q :=
  h.pre fun s _ hs => hP s hs

/-- **Asking the outside** what may be asked. -/
theorem hist_ask {c : EnvCmd} (hP : Lasting G op P) (hmay : ∀ s, P s → May G op (.env c) s) :
    HistRuns G op F P (ask c)
      (fun r s => P s ∧ (⟨.env c, r⟩ : Event DeskCmd.Reply) ∈ s.past) := by
  refine Triple.perform (stable_recorded P) (fun r => stable_recorded _) ?_
  intro s r s' _ hs hx
  refine ⟨⟨_, r, hx, hmay s hs⟩, hP _ s r s' hx (hmay s hs) nofun hs, ?_⟩
  rw [hx.2]
  exact List.mem_cons_self

/-- **Reading the session.** -/
theorem hist_getSession (hP : Lasting G op P) (hsess : ∀ s, P s → s.state.session = sess)
    {k : Option SessionState → DeskProg α} {Q : α → History → Prop}
    (h : HistRuns G op F P (k sess) Q) :
    HistRuns G op F P (Prog.perform DeskCmd.getSession >>= k) Q := by
  refine Triple.perform_bind (M := fun r s => r = sess ∧ P s) (stable_recorded P) ?_
    fun r => Triple.given fun hr => hr ▸ h
  intro s r s' _ hs hx
  refine ⟨⟨.getSession, r, hx, trivial⟩, ?_, hP _ s r s' hx trivial nofun hs⟩
  obtain ⟨o, ho⟩ := hx.1
  rw [← hsess s hs]
  exact (Prod.mk.inj (Option.some.inj ho)).1.symm

/-- The session is open. -/
theorem hist_session {s₀ : SessionState} (hP : Lasting G op P)
    (hsess : ∀ s, P s → s.state.session = some s₀) {k : SessionState → DeskProg α}
    {Q : α → History → Prop} (h : HistRuns G op F P (k s₀) Q) :
    HistRuns G op F P (session >>= k) Q :=
  hist_getSession hP hsess h

/-- **Replacing the session** by what it may become. -/
theorem hist_setSession {sess : Option SessionState} {Q : History → Prop}
    (hmay : ∀ s, VaultInv G s → P s → ∀ s₁, sess = some s₁ → Becomes G op s s₁)
    (hQ : ∀ s s', P s → s'.state = { s.state with session := sess } →
      (∃ e, s'.past = e :: s.past) → Q s') :
    HistRuns G op F P (setSession sess) (fun _ => Q) := by
  refine Triple.perform (stable_recorded P) (fun _ => stable_recorded _) ?_
  intro s r s' hi hs hx
  refine ⟨⟨_, r, hx, hmay s hi hs⟩, hQ s s' hs ?_ ⟨_, hx.2⟩⟩
  obtain ⟨o, ho⟩ := hx.1
  exact (Prod.mk.inj (Option.some.inj ho)).2.symm

/-- The session is replaced by one with the same vault. -/
theorem hist_setSession_same {s₀ s₁ : SessionState} (hK : Grows K) (hvault : s₁.vault = s₀.vault) :
    HistRuns G op F (On (some s₀) K) (setSession (some s₁)) (fun _ => On (some s₁) K) := by
  refine hist_setSession (fun s hi hs s₂ hs₂ => ?_) fun s s' hs hs' ⟨e, he⟩ => ?_
  · obtain rfl := Option.some.inj hs₂
    obtain ⟨hgood, hpaired⟩ := hi.session s₀ hs.1
    refine ⟨hvault ▸ hgood, hpaired, fun s₃ hs₃ => .inl ?_⟩
    obtain rfl := Option.some.inj (hs.1.symm.trans hs₃)
    exact hvault
  · exact ⟨hs' ▸ rfl, he ▸ hK _ _ hs.2⟩

/-- A session is closed. -/
theorem hist_closeSession : HistRuns G op F P lockSession (fun _ => On none fun _ => True) :=
  hist_setSession (fun _ _ _ _ h => nomatch h) fun _ _ _ hs' _ => ⟨hs' ▸ rfl, trivial⟩

omit [Crypto] in
/-- What a system call replies. -/
theorem exec_answers {c : FileCmd} {s s' : History} {r : c.Reply} (hi : VaultInv G s)
    (hx : Recorded.exec Desk.Exec (.file c) s r s') : Answers G c r := by
  obtain ⟨⟨o, ho⟩, -⟩ := hx
  obtain ⟨⟨r', f⟩, hf, hrf⟩ := Option.map_eq_some_iff.mp ho
  obtain rfl : r' = r := (Prod.mk.inj hrf).1
  cases c with
  | read f =>
    rintro contents rfl
    exact hi.files.volume.live f contents (Files.exec_read hf)
  | create f =>
    rintro t rfl
    exact Files.exec_create hf
  | _ => trivial

omit [Crypto] in
/-- What it replies where the pairing is recorded. -/
theorem exec_finds {c : FileCmd} {s s' : History} {r : c.Reply} (hi : VaultInv G s)
    (hp : s.state.Paired) (hx : Recorded.exec Desk.Exec (.file c) s r s') : Finds G c r := by
  have hanswers := exec_answers hi hx
  obtain ⟨⟨o, ho⟩, -⟩ := hx
  obtain ⟨⟨r', f⟩, hf, hrf⟩ := Option.map_eq_some_iff.mp ho
  obtain rfl : r' = r := (Prod.mk.inj hrf).1
  cases c with
  | «exists» f =>
    rintro rfl
    rw [Files.exec_exists hf]
    exact hp
  | _ => exact hanswers

/-- What a disciplined program puts, it may put. -/
theorem Puts.may {s : History} {c : FileCmd} (h : Puts W c)
    (hW : ∀ f contents, W f contents → Writes G op s f contents) : May G op (.file c) s := by
  cases c with
  | quiet c =>
    cases c with
    | writeAll t contents => exact hW _ _ h
    | _ => trivial
  | renameTemp t f =>
    obtain ⟨ht, contents, hc⟩ := h
    exact ⟨ht, contents, hW _ _ hc⟩
  | rename f g => exact h
  | remove f => exact h
  | _ => trivial

/-- **A disciplined program on the files**, which writes what may be
written. -/
theorem hist_disciplined {A : (c : FileCmd) → c.Reply → Prop} {p : FileProg α} {Q : α → Prop}
    (h : p.Obeys (Puts W) A Q) (hP : Lasting G op P)
    (hA : ∀ c s r s', VaultInv G s → P s → Recorded.exec Desk.Exec (.file c) s r s' → A c r)
    (hW : ∀ s, P s → ∀ f contents, W f contents → Writes G op s f contents) :
    HistRuns G op P P (files p) (fun a s => Q a ∧ P s) := by
  intro s hi hs
  refine h.safe (stable_recorded P) ?_ hi hs
  intro c s r s' hi hs hc hx
  have hmay := hc.may (hW s hs)
  exact ⟨hA c s r s' hi hs hx, ⟨.file c, r, hx, hmay⟩, fun _ => hP _ s r s' hx hmay nofun hs⟩

/-- A program that writes what is asked for. -/
theorem hist_files {p : FileProg α} {Q : α → Prop} (h : Disciplined G W Q p)
    (hP : Lasting G op P) (hF : ∀ s, P s → F s)
    (hW : ∀ s, P s → ∀ f contents, W f contents → Writes G op s f contents) :
    HistRuns G op F P (files p) (fun a s => Q a ∧ P s) :=
  hist_error (hist_disciplined h hP (fun _ _ _ _ hi _ hx => exec_answers hi hx) hW) hF

omit [Crypto] in
/-- Upkeep may always be written. -/
theorem Upkeep.writes [Crypto] {s : History} {f : FileName} {contents : Content}
    (h : Upkeep G f contents) : Writes G op s f contents :=
  ⟨h.1, fun hf => absurd hf h.2.1, fun hf => absurd hf h.2.2.1, h.2.2.2.1,
    fun hf file hfile hphase => absurd hphase (h.2.2.2.2 hf file hfile)⟩

/-- A program that does nothing but upkeep. -/
theorem hist_upkeep {p : FileProg α} {Q : α → Prop} (h : Disciplined G (Upkeep G) Q p)
    (hP : Lasting G op P) (hF : ∀ s, P s → F s) :
    HistRuns G op F P (files p) (fun a s => Q a ∧ P s) :=
  hist_files h hP hF fun _ _ _ _ hW => hW.writes

end Desktop
