import Ferusa.Desktop.HistorySpec

/-!
# The commands, given what they have done

Saving, reading and changing entries, a new password, a pairing: each
command, once it has entered, goes on only under the approval of its own
action, and what it writes is what it makes of the vault it found.
-/

namespace Desktop

open Logic DeskProg

variable {α : Type} {G : Vault → Prop} {op : DeskOp} {P F : History → Prop} {s₀ : SessionState}

variable [Crypto]

/-- The vault of an open session has the property. -/
theorem hist_good {K : List (Event DeskCmd.Reply) → Prop} {p : DeskProg α}
    {Q : α → History → Prop}
    (h : G s₀.vault → HistRuns G op F (On (some s₀) K) p Q) :
    HistRuns G op F (On (some s₀) K) p Q :=
  fun s hi hs => h (hi.session s₀ hs.1).1 s hi hs

theorem On.granted {s : History} (h : On (some s₀) (s₀.Granted op.request) s) : Granted op s :=
  ⟨s₀, h.1, h.2⟩

/-- **A command that has entered goes on.** -/
theorem entered_runs {request : VaultAction × Option String} {status : UnlockStatus}
    {p : DeskProg α} {Q : α → History → Prop}
    (h : ∀ s₀ : SessionState, s₀.pendingRequests = [] → HistRuns G op F
      (On (some s₀) fun past => status = .newlyUnlocked → s₀.Granted request past) p Q) :
    HistRuns G op F (Entered request status) p Q :=
  Triple.exists fun s₀ => Triple.given (h s₀)

/-- **A command goes on with the vault that it finds**, which stays the one
it has found. -/
theorem hist_entered {sess : Option SessionState} {action : VaultAction}
    {entryTitle : Option String} {k : UnlockStatus → DeskProg α} {Q : Vault → α → History → Prop}
    (h : ∀ status s₀, s₀.pendingRequests = [] → HistRuns G op Quiet
      (On (some s₀) fun past => status = .newlyUnlocked → s₀.Granted (action, entryTitle) past)
      (k status) (Q s₀.vault)) :
    HistRuns G op Quiet (Starts sess) (ensureUnlockedFor action entryTitle >>= k)
      (fun a s => ∃ vault, G vault ∧ Q vault a s ∧ Found sess vault s.past) := by
  refine Triple.bind (hist_ensureUnlockedFor_found sess action entryTitle) fun status => ?_
  refine Triple.exists fun s₀ => Triple.given fun hp => ?_
  refine hist_good fun hgood => ?_
  refine ((triple_past (K := Found sess s₀.vault) Grows.found (h status s₀ hp)).post
    fun a s _ hs => ⟨s₀.vault, hgood, hs⟩).pre fun s _ hs => ⟨⟨hs.1, hs.2.1⟩, hs.2.2⟩

/-- Knowledge of the approval only grows. -/
theorem grows_entered (s₀ : SessionState) (status : UnlockStatus)
    (request : VaultAction × Option String) :
    Grows fun past => status = .newlyUnlocked → s₀.Granted request past :=
  (Grows.granted s₀ request).imp

/-! ## Saving -/

/-- **A vault is written** under the keys it is given, if it may be. -/
theorem hist_saveVaultWithKeyTo {f : FileName} {vault : Vault} {vaultKey : VaultKey}
    {vaultSalt : Salt} (hP : Lasting G op P) (hF : ∀ s, P s → F s)
    (hW : ∀ s, P s → Storable vault →
      Writes G op s f (.vault (encryptVault vaultKey vaultSalt vault))) :
    HistRuns G op F P (saveVaultWithKeyTo f vault vaultKey vaultSalt)
      (fun _ s => Storable vault ∧ P s) := by
  refine Triple.bind (hist_ofExcept hF) fun blob => Triple.given fun hblob => ?_
  obtain ⟨hstorable, rfl⟩ := sealVault_eq_ok_iff.mp hblob
  refine (hist_files (W := fun g c => g = f ∧ c = .vault (encryptVault vaultKey vaultSalt vault))
    (.mapError (disciplined_writePrivateFile ⟨rfl, rfl⟩)) hP hF ?_).post
      fun _ _ _ hs => ⟨hstorable, hs.2⟩
  rintro s hs _ _ ⟨rfl, rfl⟩
  exact hW s hs hstorable

/-- **The command has revised the vault**: the session has what the command
makes of it. -/
def Revised (op : DeskOp) (vault : Vault) (s : History) : Prop :=
  ∃ s₁, s.state.session = some s₁ ∧ Revises op vault s₁.vault

/-- **`save_vault_candidate`** saves what an approved command makes of
the vault of the session. -/
theorem hist_saveVaultCandidate (hG : VaultProperty G) (hop : op.Saves)
    (hpending : s₀.pendingRequests = []) {vault : Vault} (hrev : Revises op s₀.vault vault) :
    HistRuns G op Quiet (On (some s₀) (s₀.Granted op.request)) (saveVaultCandidate vault)
      (fun _ s => Quiet s ∧ Revised op s₀.vault s) := by
  have hon : Lasting G op (On (some s₀) (s₀.Granted op.request)) := .on (.granted _ _)
  have hquiet : ∀ s, On (some s₀) (s₀.Granted op.request) s → Quiet s :=
    fun s hs => hs.quiet hpending
  refine hist_good fun hgood => hist_session hon (fun _ hs => hs.1) ?_
  refine Triple.bind (hist_saveVaultWithKeyTo hon hquiet fun s hs hstorable => ?_) fun _ =>
    Triple.given fun hstorable => ?_
  · refine ⟨hG.revised hop hgood hrev hstorable, fun _ => ⟨hop, hs.granted, s₀, _, hs.1, rfl, hrev⟩,
      nofun, nofun, nofun⟩
  refine hist_session hon (fun _ hs => hs.1) ?_
  refine hist_setSession (fun s hi hs s₁ hs₁ => ?_) fun s s' hs hs' _ => ?_
  · obtain rfl := Option.some.inj hs₁
    refine ⟨hG.revised hop hgood hrev hstorable, (hi.session s₀ hs.1).2, fun s₂ hs₂ => .inr ?_⟩
    obtain rfl := Option.some.inj (hs.1.symm.trans hs₂)
    exact ⟨hop, hrev⟩
  · have hsession : s'.state.session = some { s₀ with vault } := by rw [hs']
    refine ⟨fun s₁ hs₁ => ?_, _, hsession, hrev⟩
    obtain rfl := Option.some.inj (hsession.symm.trans hs₁)
    exact hpending

/-! ## Reading and changing entries -/

/-- The session has an entry of the title. -/
theorem hist_requireEntry {K : List (Event DeskCmd.Reply) → Prop} (hK : Grows K)
    (hpending : s₀.pendingRequests = []) (title : String) :
    HistRuns G op Quiet (On (some s₀) K) (requireEntry title) (fun _ => On (some s₀) K) :=
  hist_session (.on hK) (fun _ hs => hs.1)
    ((hist_ensure fun _ hs => hs.quiet hpending).post fun _ _ _ hs => hs.2)

/-- **`cmd_list`** shows entries when the phone has approved. -/
theorem hist_cmdList : HistRuns G .list Quiet Quiet cmdList
    (fun _ => Cleared DeskOp.list.request) := by
  refine Triple.bind (hist_ensureUnlockedFor _ _) fun status => entered_runs fun s₀ hp => ?_
  refine Triple.bind (hist_approvedAction hp status rfl rfl) fun _ => ?_
  refine hist_session (.on (.granted _ _)) (fun _ hs => hs.1) ?_
  exact hist_pure fun s hs => ⟨s₀, hp, hs⟩

/-- **`cmd_get`** copies the password of the entry when the phone has
approved. -/
theorem hist_cmdGet (title : String) :
    HistRuns G (.get title) Quiet Quiet (cmdGet title) (fun _ => Quiet) := by
  refine Triple.bind (hist_ensureUnlockedFor _ _) fun status => entered_runs fun s₀ hp => ?_
  refine Triple.bind (hist_requireEntry (grows_entered _ _ _) hp _) fun _ => ?_
  refine Triple.bind (hist_approvedAction hp status rfl rfl) fun _ => ?_
  have hon : Lasting G (.get title) (On (some s₀) (s₀.Granted (.read, some title))) :=
    .on (.granted _ _)
  refine hist_session hon (fun _ hs => hs.1) ?_
  refine Triple.bind (hist_okOr fun _ hs => hs.quiet hp) fun entry => Triple.given fun hfind => ?_
  have hmay : ∀ s, On (some s₀) (s₀.Granted (.read, some title)) s →
      May G (.get title) (.env (.copyPassword entry.password)) s :=
    fun s hs => ⟨⟨s₀, hs.1, hs.2⟩, title, s₀, entry, rfl, hs.1, hfind, rfl⟩
  have hcopy : HistRuns G (.get title) (On (some s₀) (s₀.Granted (.read, some title)))
      (On (some s₀) (s₀.Granted (.read, some title))) (ask (.copyPassword entry.password))
      (fun _ => On (some s₀) (s₀.Granted (.read, some title))) :=
    (hist_ask hon hmay).post fun _ _ _ hs => hs.1
  refine Triple.bind (hist_error hcopy fun s hs => hs.quiet hp) fun r => ?_
  exact (hist_answer fun _ hs => hs.quiet hp).post fun _ _ _ hs => hs.2.quiet hp

theorem hist_promptOptional (hP : Lasting G op P) :
    HistRuns G op P P promptOptional (fun _ => P) :=
  Triple.bind (hist_readLine hP) fun _ => hist_pure fun _ hs => hs

/-- **`cmd_add`** appends one entry to the vault that it finds. -/
theorem hist_cmdAdd (hG : VaultProperty G) (sess : Option SessionState) (title : String) :
    HistRuns G (.add title) Quiet (Starts sess) (cmdAdd title) (fun _ s => ∃ vault, G vault ∧
      (Quiet s ∧ Revised (.add title) vault s) ∧ Found sess vault s.past) := by
  refine hist_entered fun status s₀ hp => ?_
  -- the title is not looked into from here on
  generalize htrim : trim title = name
  have hquiet {K : List (Event DeskCmd.Reply) → Prop} :
      ∀ s, On (some s₀) K s → Quiet s := fun s hs => hs.quiet hp
  refine Triple.bind (hist_ensure hquiet) fun _ => Triple.given fun hne => ?_
  refine hist_session (.on (grows_entered _ _ _)) (fun _ hs => hs.1) ?_
  refine Triple.bind (hist_ensure hquiet) fun _ => Triple.given fun hfresh => ?_
  have htitle : (some name).map trim = (some title).map trim := by
    rw [← htrim]
    exact congrArg some (trim_trim title)
  refine Triple.bind (hist_approvedAction hp status rfl htitle) fun _ => ?_
  have hon : Lasting G (.add title) (On (some s₀) (s₀.Granted (DeskOp.add title).request)) :=
    .on (.granted _ _)
  refine Triple.bind (hist_error (hist_promptOptional hon) hquiet) fun username => ?_
  refine Triple.bind (hist_error (hist_ask_any hon fun _ => trivial) hquiet) fun r => ?_
  refine Triple.bind (hist_error hist_answer_any hquiet) fun password => ?_
  refine Triple.bind (hist_error (hist_promptOptional hon) hquiet) fun url => ?_
  refine Triple.bind (hist_error (hist_promptOptional hon) hquiet) fun notes => ?_
  refine Triple.bind (hist_error (hist_promptOptional hon) hquiet) fun tagsRaw => ?_
  refine Triple.bind (hist_error (hist_ask_any hon fun _ => trivial) hquiet) fun now => ?_
  refine Triple.bind (hist_error (hist_ask_any hon fun _ => trivial) hquiet) fun id => ?_
  refine hist_session hon (fun _ hs => hs.1) ?_
  have hsaves : (DeskOp.add title).Saves := trivial
  exact hist_saveVaultCandidate hG hsaves hp ⟨_, htrim.symm, htrim ▸ hne, htrim ▸ hfresh, rfl⟩

theorem hist_promptWithDefault (hP : Lasting G op P) (default : String) :
    HistRuns G op P P (promptWithDefault default)
      (fun a s => (a = default ∨ (a.isEmpty = false ∧ trim a = a)) ∧ P s) := by
  refine Triple.bind (hist_readLine hP) fun buf => hist_pure fun s hs => ⟨?_, hs⟩
  show (if (trim buf).isEmpty = true then default else trim buf) = default ∨ _
  split
  · exact .inl rfl
  · next h =>
    refine .inr ⟨Bool.eq_false_iff.mpr h, trim_trim buf⟩

theorem hist_promptOptionalWithDefault (hP : Lasting G op P) (default : Option String) :
    HistRuns G op P P (promptOptionalWithDefault default) (fun _ => P) :=
  Triple.bind (hist_readLine hP) fun _ => hist_pure fun _ hs => hs

theorem hist_promptPasswordChange (hP : Lasting G op P) :
    HistRuns G op P P promptPasswordChange (fun _ => P) := by
  refine Triple.bind (hist_readLine hP) fun choice => ?_
  show HistRuns G op P P (if (trim choice).toLower = "g" then _ else _) _
  split
  · refine Triple.bind (hist_ask_any hP fun _ => trivial) fun r => ?_
    exact Triple.bind hist_answer_any fun _ => hist_pure fun _ hs => hs
  · split
    · refine Triple.bind (hist_promptPassword hP) fun typed => ?_
      refine Triple.bind hist_ensure_any fun _ => Triple.given fun _ => ?_
      exact hist_pure fun _ hs => hs
    · exact hist_pure fun _ hs => hs

/-- **`cmd_edit`** changes the entry of the title in the vault that it
finds. -/
theorem hist_cmdEdit (hG : VaultProperty G) (sess : Option SessionState) (title : String) :
    HistRuns G (.edit title) Quiet (Starts sess) (cmdEdit title) (fun _ s => ∃ vault, G vault ∧
      (Quiet s ∧ Revised (.edit title) vault s) ∧ Found sess vault s.past) := by
  refine hist_entered fun status s₀ hp => ?_
  have hquiet {K : List (Event DeskCmd.Reply) → Prop} :
      ∀ s, On (some s₀) K s → Quiet s := fun s hs => hs.quiet hp
  refine Triple.bind (hist_requireEntry (grows_entered _ _ _) hp _) fun _ => ?_
  refine Triple.bind (hist_approvedAction hp status rfl rfl) fun _ => ?_
  have hon : Lasting G (.edit title) (On (some s₀) (s₀.Granted (DeskOp.edit title).request)) :=
    .on (.granted _ _)
  refine hist_session hon (fun _ hs => hs.1) ?_
  refine Triple.bind (hist_okOr hquiet) fun e => Triple.given fun hfind => ?_
  refine Triple.bind (hist_error (hist_promptWithDefault hon _) hquiet) fun newTitle =>
    Triple.given fun hnew => ?_
  refine Triple.bind (hist_error (hist_promptOptionalWithDefault hon _) hquiet)
    fun newUsername => ?_
  refine Triple.bind (hist_error (hist_promptPasswordChange hon) hquiet) fun newPassword => ?_
  refine Triple.bind (hist_error (hist_promptOptionalWithDefault hon _) hquiet) fun newUrl => ?_
  refine Triple.bind (hist_error (hist_promptOptionalWithDefault hon _) hquiet)
    fun newNotes => ?_
  refine Triple.bind (hist_error (hist_promptWithDefault hon _) hquiet) fun tagsRaw =>
    Triple.given fun _ => ?_
  refine Triple.bind (hist_error (hist_ask_any hon fun _ => trivial) hquiet) fun now => ?_
  refine hist_session hon (fun _ hs => hs.1) ?_
  refine Triple.bind (hist_ensure hquiet) fun _ => Triple.given fun hclash => ?_
  refine hist_session hon (fun _ hs => hs.1) ?_
  refine Triple.bind (hist_ensure hquiet) fun _ => Triple.given fun hhas => ?_
  have hsaves : (DeskOp.edit title).Saves := trivial
  refine hist_saveVaultCandidate hG hsaves hp ⟨newTitle, _, ?_, ?_, hhas, hclash, rfl⟩
  · exact fun x => ⟨rfl, rfl, rfl⟩
  · exact hnew.elim (fun h => .inr ⟨e, (find_eq_some hfind).1, h⟩) .inl

/-- **A question was answered** with something but yes. -/
def Declined (past : List (Event DeskCmd.Reply)) : Prop :=
  ∃ answer : String, (⟨.env .readLine, .ok answer⟩ : Event DeskCmd.Reply) ∈ past ∧
    ¬((trim answer).toLower = "y" ∨ (trim answer).toLower = "yes")

/-- **`cmd_remove`** deletes the entry of the title from the vault that it
finds, unless that is declined. -/
theorem hist_cmdRemove (hG : VaultProperty G) (sess : Option SessionState) (title : String) :
    HistRuns G (.remove title) Quiet (Starts sess) (cmdRemove title) (fun _ s => ∃ vault,
      G vault ∧ (Quiet s ∧ (Revised (.remove title) vault s ∨
        Declined s.past ∧ ∃ s₁, s.state.session = some s₁ ∧ s₁.vault = vault)) ∧
      Found sess vault s.past) := by
  refine hist_entered fun status s₀ hp => ?_
  have hquiet {K : List (Event DeskCmd.Reply) → Prop} :
      ∀ s, On (some s₀) K s → Quiet s := fun s hs => hs.quiet hp
  refine Triple.bind (hist_requireEntry (grows_entered _ _ _) hp _) fun _ => ?_
  refine Triple.bind (hist_error (hist_readAnswer (.on (grows_entered _ _ _))) hquiet)
    fun answer => ?_
  split
  · refine hist_pre _ (Triple.bind (hist_approvedAction hp status rfl rfl) fun _ => ?_)
      fun s hs => hs.2
    have hon : Lasting G (.remove title)
        (On (some s₀) (s₀.Granted (DeskOp.remove title).request)) := .on (.granted _ _)
    refine hist_session hon (fun _ hs => hs.1) ?_
    refine Triple.bind (hist_ensure hquiet) fun _ => Triple.given fun hhas => ?_
    have hsaves : (DeskOp.remove title).Saves := trivial
    exact (hist_saveVaultCandidate hG hsaves hp ⟨hhas, rfl⟩).post
      fun _ _ _ hs => ⟨hs.1, .inl hs.2⟩
  · next hno =>
    exact hist_pure fun s hs => ⟨hquiet s hs.2, .inr ⟨⟨answer, hs.1, hno⟩, s₀, hs.2.1, rfl⟩⟩

/-! ## A new password -/

theorem hist_promptNewPassword {first confirm mismatch : String} (hP : Lasting G op P) :
    HistRuns G op P P (promptNewPassword first confirm mismatch) (fun _ => P) := by
  refine Triple.bind (hist_promptPassword hP) fun pw1 => ?_
  refine Triple.bind ((hist_ofExcept fun _ hs => hs).post fun _ _ _ hs => hs.2) fun _ => ?_
  refine Triple.bind (hist_promptPassword hP) fun pw2 => ?_
  refine Triple.bind (hist_ensure_any.post fun _ _ _ hs => hs.2) fun _ => ?_
  exact hist_pure fun _ hs => hs

omit [Crypto] in
theorem disciplined_removeLegacyVaultSalt {W : FileName → Content → Prop} :
    Disciplined G W (fun _ => True) removeLegacyVaultSalt := by
  refine .bind (.perform nofun fun _ _ => trivial) fun (r : Except IoError Unit) _ => ?_
  match r with
  | .ok () => trivial
  | .error .notFound => trivial
  | .error .isADirectory => trivial
  | .error (.other _) => trivial

/-- **`rotate_vault`** writes the vault of the session, and leaves it or
locks the session. -/
theorem hist_rotateVault (hpending : s₀.pendingRequests = []) (localSecret : LocalSecret)
    (newSalt : Salt) :
    HistRuns G .passwd Quiet (On (some s₀) (s₀.Granted DeskOp.passwd.request))
      (rotateVault localSecret newSalt) (fun _ => Quiet) := by
  have hon : Lasting G .passwd (On (some s₀) (s₀.Granted DeskOp.passwd.request)) :=
    .on (.granted _ _)
  refine hist_good fun hgood => hist_session hon (fun _ hs => hs.1) ?_
  refine Triple.bind (M := fun _ => On (some s₀) (s₀.Granted DeskOp.passwd.request))
    (Triple.attempt ?_) fun r => ?_
  · refine (hist_files (W := fun f c => f = .vaultEnc ∧ c = .vault (encryptVault
      (combineVaultKey localSecret s₀.phoneShare) newSalt s₀.vault))
      (disciplined_writePrivateFile ⟨rfl, rfl⟩) hon (fun _ hs => hs) ?_).post fun _ _ _ hs => hs.2
    rintro s hs _ _ ⟨rfl, rfl⟩
    exact ⟨hgood, fun _ => ⟨trivial, hs.granted, s₀, _, hs.1, rfl, rfl⟩, nofun, nofun, nofun⟩
  cases r with
  | error e =>
    exact Triple.bind hist_closeSession fun _ => hist_fail fun s hs => hs.quiet_none
  | ok u =>
    refine Triple.bind (hist_setSession_same (.granted _ _) rfl) fun _ => ?_
    refine Triple.bind (M := fun _ => Quiet) (Triple.attempt ?_) fun _ => hist_pure fun _ hs => hs
    refine (hist_upkeep disciplined_removeLegacyVaultSalt (.on (.granted _ _)) ?_).post
      fun _ _ _ hs => ?_
    · exact fun s hs => hs.quiet hpending
    · exact hs.2.quiet hpending

/-- **`cmd_passwd`.** -/
theorem hist_cmdPasswd : HistRuns G .passwd Quiet Quiet cmdPasswd (fun _ => Quiet) := by
  refine Triple.bind (hist_ensureUnlockedFor _ _) fun status => entered_runs fun s₀ hp => ?_
  have hquiet : ∀ s, On (some s₀) (s₀.Granted DeskOp.passwd.request) s → Quiet s :=
    fun s hs => hs.quiet hp
  have hon : Lasting G .passwd (On (some s₀) (s₀.Granted DeskOp.passwd.request)) :=
    .on (.granted _ _)
  refine Triple.bind (hist_approvedAction hp status rfl rfl) fun _ => ?_
  refine Triple.bind (hist_error (hist_promptNewPassword hon) hquiet) fun password => ?_
  refine Triple.bind (hist_error (hist_ask_any hon fun _ => trivial) hquiet) fun newSalt => ?_
  refine Triple.bind (hist_rotateVault hp _ _) fun _ => ?_
  exact hist_closeSession.post fun _ _ _ hs => hs.quiet_none

/-! ## Pairing -/

/-- What a pairing writes besides vaults: upkeep, and a transaction in
its place. -/
def PairingWrites (G : Vault → Prop) (f : FileName) (contents : Content) : Prop :=
  Upkeep G f contents ∨ (f = .pairingTransactionState ∧ ∃ file, contents = .transaction file)

/-- Where a transaction may be prepared, a pairing may write. -/
theorem PairingWrites.writes {s : History} {f : FileName} {contents : Content}
    (h : PairingWrites G f contents) (hprep : (op = .pair ∧ Granted op s) ∨ op = .init) :
    Writes G op s f contents := by
  obtain h | ⟨rfl, file, rfl⟩ := h
  · exact h.writes
  · exact ⟨trivial, nofun, nofun, nofun, fun _ _ _ _ => hprep⟩

omit [Crypto] in
theorem disciplined_writePairingTransactionPrepared (pairingId : Uuid) :
    Disciplined G (PairingWrites G) (fun _ => True) (writePairingTransactionPrepared pairingId) := by
  have hcopy {f : FileName} (hf : f = .rollbackVaultEnc ∨ f = .rollbackPairingState)
      (contents : Content) (hc : contents.Holds G) : PairingWrites G f contents := by
    obtain rfl | rfl := hf <;> exact .inl ⟨hc, nofun, nofun, nofun, nofun⟩
  refine .bind (disciplined_pathExists _) fun _ _ => .bind disciplined_ensure fun _ _ => ?_
  refine .bind disciplined_clearRollbackPairingFiles fun _ _ => ?_
  refine .bind (disciplined_pathExists _) fun hadLiveVault _ => ?_
  refine .bind (disciplined_pathExists _) fun hadLivePairing _ => ?_
  refine .bind (disciplined_captureRollback (hcopy (.inl rfl))) fun _ _ => ?_
  refine .bind (disciplined_captureRollback (hcopy (.inr rfl))) fun _ _ => ?_
  exact .mapError (disciplined_writePrivateFile (.inr ⟨rfl, _, rfl⟩))

/-- **A transition of the phone** leaves the session alone. -/
theorem hist_sendPairingTransition (hP : Lasting G op P) (conn : Conn)
    (request expected : FerusaMessage) (step : String) :
    HistRuns G op P P (sendPairingTransition conn request expected step) (fun _ => P) := by
  refine Triple.bind (hist_sendMessage hP _ _ _) fun _ => ?_
  refine Triple.bind (hist_readFerusaMessage hP _ _) fun response => ?_
  exact hist_ensure_any.post fun _ _ _ hs => hs.2

/-- **`commit_and_activate_pairing`**, where a transaction may be
prepared. -/
theorem hist_commitAndActivatePairing (hP : Lasting G op P)
    (hprep : ∀ s, P s → (op = .pair ∧ Granted op s) ∨ op = .init) (conn : Conn)
    (pairingId : Uuid) :
    HistRuns G op P P (commitAndActivatePairing conn pairingId) (fun _ => P) := by
  refine Triple.bind ((hist_files (.mapError (disciplined_writePairingTransactionPrepared
    pairingId)) hP (fun _ hs => hs) fun s hs _ _ hW => hW.writes (hprep s hs)).post
      fun _ _ _ hs => hs.2) fun _ => ?_
  refine Triple.bind (hist_sendPairingTransition hP _ _ _ _) fun _ => ?_
  refine Triple.bind (hist_upkeep_any ?_ hP) fun _ => ?_
  · exact .mapError (disciplined_advancePairingTransaction _ nofun)
  refine Triple.bind (hist_upkeep_any (.mapError disciplined_recoverPairingTransaction) hP)
    fun _ => ?_
  refine Triple.bind (hist_sendPairingTransition hP _ _ _ _) fun _ => ?_
  refine Triple.bind (M := fun _ => P) ?_ fun _ => ?_
  · refine Triple.bind (hist_ask_any hP fun _ => trivial) fun r => ?_
    refine Triple.bind hist_answer_any fun _ => ?_
    refine Triple.bind (hist_ask_any hP fun _ => trivial) fun r => ?_
    refine Triple.bind hist_answer_any fun closeReason => ?_
    exact hist_ensure_any.post fun _ _ _ hs => hs.2
  refine Triple.bind (hist_upkeep_any ?_ hP) fun _ => ?_
  · exact .mapError (disciplined_advancePairingTransaction _ nofun)
  exact hist_upkeep_any (.mapError disciplined_recoverPairingTransaction) hP

/-- **`begin_pair_with_phone`.** -/
theorem hist_beginPairWithPhone (hP : Lasting G op P) :
    HistRuns G op P P beginPairWithPhone (fun _ => P) := by
  refine Triple.bind (hist_ask_any hP fun _ => trivial) fun r => ?_
  refine Triple.bind hist_answer_any fun (conn, phoneNodeId) => ?_
  refine Triple.bind (hist_readFerusaMessage hP _ _) fun message => ?_
  cases message with
  | pairingHello hello =>
    refine Triple.bind (M := fun _ => P) ?_ fun _ => hist_pure fun _ hs => hs
    refine Triple.bind (hist_readLine hP) fun answer => ?_
    exact hist_ensure_any.post fun _ _ _ hs => hs.2
  | _ => exact hist_fail fun _ hs => hs

/-- **`confirm_pairing_ready`.** -/
theorem hist_confirmPairingReady (hP : Lasting G op P) (conn : Conn) (pairing : PairingData) :
    HistRuns G op P P (confirmPairingReady conn pairing) (fun _ => P) := by
  refine Triple.bind (hist_sendMessage hP _ _ _) fun _ => ?_
  refine Triple.bind (hist_readFerusaMessage hP _ _) fun message => ?_
  cases message with
  | pairingReady pairingId signature =>
    refine Triple.bind (hist_ensure_any.post fun _ _ _ hs => hs.2) fun _ => ?_
    exact hist_ensure_any.post fun _ _ _ hs => hs.2
  | _ => exact hist_fail fun _ hs => hs

/-- The pending pairing is written. -/
theorem hist_writePendingPairingData (hP : Lasting G op P) (pairing : PairingData) :
    HistRuns G op P P (files (writePendingPairingData pairing)) (fun _ => P) :=
  hist_upkeep_any (.mapError (disciplined_writePrivateFile ⟨trivial, nofun, nofun, nofun, nofun⟩)) hP

/-- What is done about an error. -/
theorem hist_abandonPairing {retained cleared : String} {keep : DeskProg Unit} {e : Anyhow}
    {Q : Unit → History → Prop} (hP : Lasting G op P) (hF : ∀ s, P s → F s)
    (hkeep : HistRuns G op F P keep (fun _ => F)) :
    HistRuns G op F P (abandonPairing retained cleared keep e) Q := by
  refine Triple.bind (hist_error (hist_upkeep_any (disciplined_pathExists _) hP) hF)
    fun present => ?_
  cases present with
  | true => exact Triple.bind hkeep fun _ => hist_fail fun _ hs => hs
  | false =>
    refine Triple.bind (hist_error (hist_upkeep_any ?_ hP) hF) fun _ => hist_fail hF
    exact .mapError disciplined_clearPendingPairing

/-- **The approval of a replacement.** A session that is open has a
recorded pairing, so there is one to replace. -/
theorem hist_approveReplacement (hp : s₀.pendingRequests = []) (status : UnlockStatus) :
    HistRuns G .pair Quiet
      (On (some s₀) fun past => status = .newlyUnlocked → s₀.Granted DeskOp.pair.request past)
      (approveReplacement status) (fun _ => On (some s₀) (s₀.Granted DeskOp.pair.request)) := by
  have hon : Lasting G .pair (On (some s₀) fun past =>
      status = .newlyUnlocked → s₀.Granted DeskOp.pair.request past) :=
    .on (grows_entered s₀ status _)
  have hquiet {K : List (Event DeskCmd.Reply) → Prop} :
      ∀ s, On (some s₀) K s → Quiet s := fun s hs => hs.quiet hp
  refine Triple.bind (hist_error (hist_upkeep_any disciplined_pairingStatus hon) hquiet)
    fun pairing => ?_
  refine Triple.bind (hist_error (hist_disciplined finds_hasPairingFiles hon
    (fun c s r s' hi hs hx => exec_finds hi (hi.session s₀ hs.1).2 hx)
    fun s _ _ _ hW => Upkeep.writes hW) hquiet) fun present => Triple.given ?_
  rintro rfl
  cases pairing with
  | ready => exact hist_approvedAction hp status rfl rfl
  | _ => exact hist_fail hquiet

/-- **The steps of a replacement** write the vault of the session as that
of the new generation. -/
theorem hist_persistPairing (conn : Conn) (newVaultKey : VaultKey) (pairing : PairingData) :
    HistRuns G .pair (On (some s₀) (s₀.Granted DeskOp.pair.request))
      (On (some s₀) (s₀.Granted DeskOp.pair.request))
      (persistPairing conn s₀ newVaultKey pairing)
      (fun _ => On (some s₀) (s₀.Granted DeskOp.pair.request)) := by
  have hon : Lasting G .pair (On (some s₀) (s₀.Granted DeskOp.pair.request)) := .on (.granted _ _)
  refine hist_good fun hgood => ?_
  refine Triple.bind (M := fun _ => On (some s₀) (s₀.Granted DeskOp.pair.request))
    (Triple.context ?_) fun _ => ?_
  · refine (hist_saveVaultWithKeyTo hon (fun _ hs => hs) fun s hs _ => ?_).post fun _ _ _ hs => hs.2
    exact ⟨hgood, nofun, fun _ => ⟨_, rfl, .inl ⟨rfl, hs.granted, s₀, hs.1, rfl⟩⟩, nofun, nofun⟩
  refine Triple.bind (hist_writePendingPairingData hon _) fun _ => ?_
  refine Triple.bind (hist_confirmPairingReady hon _ _) fun _ => ?_
  exact hist_commitAndActivatePairing hon (fun s hs => .inl ⟨rfl, hs.granted⟩) _ _

/-- **`cmd_pair`** replaces the pairing when the phone has approved. -/
theorem hist_cmdPair : HistRuns G .pair Quiet Quiet cmdPair (fun _ => Quiet) := by
  refine Triple.bind (hist_upkeep_any (disciplined_quiet trivial) .quiet) fun _ => ?_
  refine Triple.bind (hist_ensureUnlockedFor _ _) fun status => entered_runs fun s₀ hp => ?_
  have hon : Lasting G .pair (On (some s₀) (s₀.Granted DeskOp.pair.request)) := .on (.granted _ _)
  have hquiet : ∀ s, On (some s₀) (s₀.Granted DeskOp.pair.request) s → Quiet s :=
    fun s hs => hs.quiet hp
  refine Triple.bind (hist_approveReplacement hp status) fun _ => ?_
  refine hist_session hon (fun _ hs => hs.1) ?_
  refine Triple.bind (hist_ensure hquiet) fun _ => Triple.given fun _ => ?_
  refine Triple.bind (hist_error (hist_beginPairWithPhone hon) hquiet) fun exchange => ?_
  refine hist_session hon (fun _ hs => hs.1) ?_
  refine Triple.bind (hist_error (hist_ask_any hon fun _ => trivial) hquiet)
    fun createdAtMs => ?_
  refine Triple.bind (M := fun _ => On (some s₀) (s₀.Granted DeskOp.pair.request))
    (Triple.attempt (hist_persistPairing _ _ _)) fun r => ?_
  cases r with
  | error e =>
    exact hist_abandonPairing hon hquiet (hist_closeSession.post fun _ _ _ hs => hs.quiet_none)
  | ok u =>
    refine hist_session hon (fun _ hs => hs.1) ?_
    refine Triple.post (hist_setSession_same (.granted s₀ _) ?_) fun _ _ _ hs => hs.quiet ?_
    · rfl
    · exact hp

/-- **`cmd_init`**, in a process without a session, writes the empty
vault. -/
theorem hist_cmdInit (hG : VaultProperty G) :
    HistRuns G .init Quiet (On none fun _ => True) cmdInit (fun _ => Quiet) := by
  have hon : Lasting G .init (On none fun _ => True) := .on .true
  have hquiet : ∀ s, On none (fun _ => True) s → Quiet s := fun s hs => hs.quiet_none
  refine Triple.bind (hist_error (hist_upkeep_any (disciplined_quiet trivial) hon) hquiet)
    fun _ => ?_
  refine Triple.bind (hist_error (hist_upkeep_any ?_ hon) hquiet) fun _ => ?_
  · exact .mapError (disciplined_quiet trivial)
  refine Triple.bind (Triple.context (hist_error (hist_reconcilePairingTransaction hon) hquiet))
    fun _ => ?_
  refine Triple.bind (hist_error (hist_upkeep_any disciplined_ensureNotDev2faStubVault hon) hquiet)
    fun _ => ?_
  refine Triple.bind (hist_error (hist_upkeep_any (disciplined_pathExists _) hon) hquiet)
    fun present => ?_
  refine Triple.bind (hist_ensure hquiet) fun _ => Triple.given fun _ => ?_
  refine Triple.bind (hist_error (hist_promptNewPassword hon) hquiet) fun password => ?_
  refine Triple.bind (hist_error (hist_ask_any hon fun _ => trivial) hquiet) fun salt => ?_
  refine Triple.bind (hist_error (hist_initPeer hon) hquiet) fun _ => ?_
  refine Triple.bind (hist_error (hist_beginPairWithPhone hon) hquiet) fun exchange => ?_
  refine Triple.bind (M := fun _ => On none fun _ => True) (Triple.attempt ?_) fun r => ?_
  · refine Triple.bind (M := fun _ => On none fun _ => True) ?_ fun _ => ?_
    · refine (hist_files (W := fun f c => f = .pendingVaultEnc ∧ c = .vault (encryptVault
        (combineVaultKey (deriveKeys password salt) exchange.secrets.phoneShare) salt
        Vault.default)) (.mapError (disciplined_writePrivateFile ⟨rfl, rfl⟩)) hon
        (fun _ hs => hs) ?_).post fun _ _ _ hs => hs.2
      rintro s hs _ _ ⟨rfl, rfl⟩
      exact ⟨hG.default, nofun, fun _ => ⟨_, rfl, .inr ⟨rfl, rfl⟩⟩, nofun, nofun⟩
    refine Triple.bind (hist_upkeep_any ?_ hon) fun _ => ?_
    · exact .mapError (disciplined_writePrivateFile ⟨trivial, nofun, nofun, nofun, nofun⟩)
    refine Triple.bind (hist_ask_any hon fun _ => trivial) fun createdAtMs => ?_
    refine Triple.bind (hist_writePendingPairingData hon _) fun _ => ?_
    refine Triple.bind (hist_confirmPairingReady hon _ _) fun _ => ?_
    exact hist_commitAndActivatePairing hon (fun _ _ => .inr rfl) _ _
  cases r with
  | error e => exact hist_abandonPairing hon hquiet (hist_pure hquiet)
  | ok u => exact hist_pure hquiet

end Desktop
