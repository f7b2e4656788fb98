import Ferusa.Desktop.HistoryRuns

/-!
# Saving, on disk and in memory

`save_vault_candidate` writes the vault and then replaces the vault of
the session. When the directory cannot be synced after the new file is
in its place, it fails although the vault is written; the session keeps
the vault before. That is the one way in which a save is not all or
nothing (`saveVaultCandidate_iff`), and where no storage call fails
while the vault on disk is not that of the session, the two agree
between any two commands of a run (`saves_all_or_nothing`).
-/

namespace Desktop

open DeskProg

/-! ## One save -/

/-- **The directory could not be synced.** -/
def SyncFailed (past : List (Event DeskCmd.Reply)) : Prop :=
  ∃ e, (⟨.file .syncParent, .error e⟩ : Event DeskCmd.Reply) ∈ past

theorem syncFailed_cons {c : DeskCmd} {r : c.Reply} {past : List (Event DeskCmd.Reply)}
    (hc : c ≠ .file .syncParent) : SyncFailed (⟨c, r⟩ :: past) ↔ SyncFailed past := by
  refine exists_congr fun e => ?_
  rw [List.mem_cons, or_iff_right]
  exact fun h => hc (congrArg Event.command h).symm

/-- One system call of a command that remembers. -/
theorem exec_file {c : FileCmd} {s s' : History} {r : c.Reply}
    (h : Recorded.exec Desk.Exec (.file c) s r s') :
    ∃ o f, Files.exec c o s.state.files = some (r, f) ∧
      s' = ⟨{ s.state with files := f }, ⟨.file c, r⟩ :: s.past⟩ := by
  obtain ⟨⟨o, ho⟩, hpast⟩ := h
  obtain ⟨⟨r', f⟩, hf, hrf⟩ := Option.map_eq_some_iff.mp ho
  obtain ⟨rfl, hstate⟩ := Prod.mk.inj hrf
  obtain ⟨state, past⟩ := s'
  obtain rfl := hstate
  obtain rfl := hpast
  exact ⟨o.file, f, hf, rfl⟩

/-- **Nothing is in another place**, and no sync has failed since. -/
structure Kept (s s' : History) : Prop where
  session : s'.state.session = s.state.session
  named : s'.state.files.named = s.state.files.named
  synced : SyncFailed s'.past ↔ SyncFailed s.past

theorem Kept.trans {s s' s'' : History} (h : Kept s s') (h' : Kept s' s'') : Kept s s'' :=
  ⟨h'.session.trans h.session, h'.named.trans h.named, h'.synced.trans h.synced⟩

/-- **A call that leaves the names alone** is made, or fails. -/
theorem outcome_quiet {message : String} {c : QuietCmd} {x : Except Anyhow Unit} {s s' : History}
    (h : Prog.Outcome (Recorded.exec Desk.Exec) (files (quietCall message c)) s x s') :
    Kept s s' ∧ (x = .ok () → s'.state.files = s.state.files.quiet c) := by
  obtain ⟨r, t, hx, hk⟩ := Prog.Outcome.of_call h
  obtain ⟨o, f, hf, rfl⟩ := exec_file hx
  have hsynced : SyncFailed (⟨.file (.quiet c), r⟩ :: s.past) ↔ SyncFailed s.past :=
    syncFailed_cons nofun
  cases o with
  | ok nonce =>
    obtain ⟨rfl, rfl⟩ := Prod.mk.inj (Option.some.inj hf)
    obtain ⟨rfl, rfl⟩ := Prog.Outcome.of_ret hk
    refine ⟨⟨rfl, ?_, hsynced⟩, fun _ => rfl⟩
    exact congrArg Volume.live (Files.quiet_volume ..)
  | fail e =>
    obtain ⟨rfl, rfl⟩ := Prod.mk.inj (Option.some.inj hf)
    obtain ⟨rfl, rfl⟩ := Prog.Outcome.of_fail hk
    exact ⟨⟨rfl, rfl, hsynced⟩, nofun⟩

/-- A sync of the directory changes no name. -/
theorem outcome_fsyncParent {x : Except Anyhow Unit} {s s' : History}
    (h : Prog.Outcome (Recorded.exec Desk.Exec) (files fsyncParent) s x s') :
    s'.state.session = s.state.session ∧ s'.state.files.named = s.state.files.named ∧
      (SyncFailed s'.past ↔ SyncFailed s.past ∨ x ≠ .ok ()) := by
  obtain ⟨r, t, hx, hk⟩ := Prog.Outcome.of_call h
  obtain ⟨o, f, hf, rfl⟩ := exec_file hx
  cases o with
  | ok nonce =>
    obtain ⟨rfl, rfl⟩ := Prod.mk.inj (Option.some.inj hf)
    obtain ⟨rfl, rfl⟩ := Prog.Outcome.of_ret hk
    refine ⟨rfl, rfl, ?_⟩
    show (∃ e, _ ∈ _ :: _) ↔ _
    simp [SyncFailed]
  | fail e =>
    obtain ⟨rfl, rfl⟩ := Prod.mk.inj (Option.some.inj hf)
    obtain ⟨rfl, rfl⟩ := Prog.Outcome.of_fail hk
    exact ⟨rfl, rfl, ⟨fun _ => .inr nofun, fun _ => ⟨e, List.mem_cons_self⟩⟩⟩

/-- **A synced temporary file is renamed into place**, or stays. -/
theorem outcome_renameTemp {t : Temp} {f : FileName} {contents : Content} {x : Except Anyhow Unit}
    {s s' : History} (ht : s.state.files.temps t = some ⟨some contents, true⟩)
    (h : Prog.Outcome (Recorded.exec Desk.Exec) (files (renameTemp t f)) s x s') :
    s'.state.session = s.state.session ∧ (SyncFailed s'.past ↔ SyncFailed s.past) ∧
      (x = .ok () → s'.state.files.named = s.state.files.named.put f contents) ∧
      (x ≠ .ok () → s'.state.files.named = s.state.files.named) := by
  obtain ⟨r, u, hx, hk⟩ := Prog.Outcome.of_call h
  obtain ⟨o, fs, hf, rfl⟩ := exec_file hx
  have hsynced : SyncFailed (⟨.file (.renameTemp t f), r⟩ :: s.past) ↔ SyncFailed s.past :=
    syncFailed_cons fun h => by cases h
  cases o with
  | ok nonce =>
    rw [Files.exec, ht] at hf
    obtain ⟨rfl, rfl⟩ := Prod.mk.inj (Option.some.inj hf)
    obtain ⟨rfl, rfl⟩ := Prog.Outcome.of_ret hk
    exact ⟨rfl, hsynced, fun _ => rfl, fun h => absurd rfl h⟩
  | fail e =>
    obtain ⟨rfl, rfl⟩ := Prod.mk.inj (Option.some.inj hf)
    obtain ⟨rfl, rfl⟩ := Prog.Outcome.of_fail hk
    exact ⟨rfl, hsynced, fun h => (by cases h), fun _ => rfl⟩

/-- **How a file was written**: as it should be, or not at all, or under
its name but with the directory unsynced. -/
inductive Wrote (f : FileName) (contents : Content) (s s' : History) : Except Anyhow Unit → Prop
  | done (named : s'.state.files.named = s.state.files.named.put f contents)
      (synced : SyncFailed s'.past ↔ SyncFailed s.past) : Wrote f contents s s' (.ok ())
  | untouched {e} (named : s'.state.files.named = s.state.files.named)
      (synced : SyncFailed s'.past ↔ SyncFailed s.past) : Wrote f contents s s' (.error e)
  | unsynced {e} (named : s'.state.files.named = s.state.files.named.put f contents)
      (failed : SyncFailed s'.past) : Wrote f contents s s' (.error e)

theorem Kept.wrote {f : FileName} {contents : Content} {s s' : History} {x : Except Anyhow Unit}
    (h : Kept s s') (hx : x ≠ .ok ()) : Wrote f contents s s' x := by
  cases x with
  | ok u => exact absurd rfl hx
  | error e => exact .untouched h.named h.synced

theorem Wrote.after {f : FileName} {contents : Content} {s s' s'' : History}
    {x : Except Anyhow Unit} (h : Kept s s') (hw : Wrote f contents s' s'' x) :
    Wrote f contents s s'' x := by
  cases hw with
  | done named synced => exact .done (h.named ▸ named) (synced.trans h.synced)
  | untouched named synced => exact .untouched (named.trans h.named) (synced.trans h.synced)
  | unsynced named failed => exact .unsynced (h.named ▸ named) failed

theorem Wrote.before {f : FileName} {contents : Content} {s s' s'' : History}
    {x : Except Anyhow Unit} (hw : Wrote f contents s s' x) (h : Kept s' s'') :
    Wrote f contents s s'' x := by
  cases hw with
  | done named synced => exact .done (h.named.trans named) (h.synced.trans synced)
  | untouched named synced => exact .untouched (h.named.trans named) (h.synced.trans synced)
  | unsynced named failed => exact .unsynced (h.named.trans named) (h.synced.mpr failed)

theorem Wrote.mapError {f : FileName} {contents : Content} {s s' : History}
    {x : Except Anyhow Unit} {g : Anyhow → Anyhow} (hw : Wrote f contents s s' x) :
    Wrote f contents s s' (x.mapError g) := by
  cases hw with
  | done named synced => exact .done named synced
  | untouched named synced => exact .untouched named synced
  | unsynced named failed => exact .unsynced named failed

/-- **A call before the others**: it is made, or that was all. -/
theorem outcome_quiet_bind {message : String} {c : QuietCmd} {p : FileProg Unit}
    {x : Except Anyhow Unit} {s s' : History}
    (h : Prog.Outcome (Recorded.exec Desk.Exec)
      (files (quietCall message c >>= fun _ => p)) s x s') :
    (x ≠ .ok () ∧ Kept s s') ∨ ∃ t, Kept s t ∧ t.state.files = s.state.files.quiet c ∧
      Prog.Outcome (Recorded.exec Desk.Exec) (files p) t x s' := by
  rw [files_bind] at h
  obtain ⟨_, t, ht, h⟩ | ⟨e, he, rfl⟩ := h.of_bind
  · obtain ⟨hkept, hfiles⟩ := outcome_quiet ht
    exact .inr ⟨t, hkept, hfiles rfl, h⟩
  · exact .inl ⟨nofun, (outcome_quiet he).1⟩

/-- The file is written, synced and renamed into place. -/
theorem outcome_writeTemp {t : Temp} {f : FileName} {contents : Content} {x : Except Anyhow Unit}
    {s s' : History}
    (h : Prog.Outcome (Recorded.exec Desk.Exec) (files (writeTemp t f contents)) s x s') :
    s'.state.session = s.state.session ∧ Wrote f contents s s' x := by
  obtain ⟨hx, hkept⟩ | ⟨s₁, h₁, hfiles₁, h⟩ := outcome_quiet_bind h
  · exact ⟨hkept.session, hkept.wrote hx⟩
  obtain ⟨hx, hkept⟩ | ⟨s₂, h₂, hfiles₂, h⟩ := outcome_quiet_bind h
  · have hkept := h₁.trans hkept
    exact ⟨hkept.session, hkept.wrote hx⟩
  have h₂ := h₁.trans h₂
  obtain ⟨hx, hkept⟩ | ⟨s₃, h₃, hfiles₃, h⟩ := outcome_quiet_bind h
  · have hkept := h₂.trans hkept
    exact ⟨hkept.session, hkept.wrote hx⟩
  have h₃ := h₂.trans h₃
  have htemp : s₃.state.files.temps t = some ⟨some contents, true⟩ := by
    rw [hfiles₃, hfiles₂, hfiles₁]
    simp [Files.quiet]
  rw [files_bind] at h
  obtain ⟨_, s₄, h₄, h⟩ | ⟨e, h₄, rfl⟩ := h.of_bind
  · obtain ⟨hsess, hsynced, hok, -⟩ := outcome_renameTemp htemp h₄
    obtain ⟨hsess', hnamed, hsynced'⟩ := outcome_fsyncParent h
    refine ⟨(hsess'.trans hsess).trans h₃.session, .after h₃ ?_⟩
    cases x with
    | ok u =>
      refine .done (hnamed.trans (hok rfl)) (hsynced'.trans ?_)
      rw [hsynced, or_iff_left (fun h => h rfl)]
    | error e =>
      exact .unsynced (hnamed.trans (hok rfl)) (hsynced'.mpr (.inr fun h => by cases h))
  · obtain ⟨hsess, hsynced, -, herr⟩ := outcome_renameTemp htemp h₄
    exact ⟨hsess.trans h₃.session, .after h₃ (.untouched (herr fun h => by cases h) hsynced)⟩

/-- A program whose failure is caught ends as it does. -/
theorem outcome_attempt_bind {p : FileProg Unit} {k : Except Anyhow Unit → FileProg Unit}
    {x : Except Anyhow Unit} {s s' : History}
    (h : Prog.Outcome (Recorded.exec Desk.Exec) (files (p.attempt >>= k)) s x s') :
    ∃ y t, Prog.Outcome (Recorded.exec Desk.Exec) (files p) s y t ∧
      Prog.Outcome (Recorded.exec Desk.Exec) (files (k y)) t x s' := by
  rw [files_bind, files, Prog.hoist_attempt] at h
  obtain ⟨y, t, hy, h⟩ | ⟨e, he, -⟩ := h.of_bind
  · obtain ⟨y', hyy, hy⟩ := hy.of_attempt
    obtain rfl := Except.ok.inj hyy
    exact ⟨y, t, hy, h⟩
  · obtain ⟨y', hyy, -⟩ := he.of_attempt
    cases hyy

/-- **`write_private_file`**: what is left in each case. -/
theorem outcome_writePrivateFile {f : FileName} {contents : Content} {x : Except Anyhow Unit}
    {s s' : History}
    (h : Prog.Outcome (Recorded.exec Desk.Exec) (files (writePrivateFile f contents)) s x s') :
    s'.state.session = s.state.session ∧ Wrote f contents s s' x := by
  obtain ⟨r, t, hx, h⟩ := Prog.Outcome.of_call h
  obtain ⟨o, fs, hf, rfl⟩ := exec_file hx
  have hkept : Kept s ⟨{ s.state with files := fs }, ⟨.file (.create f), r⟩ :: s.past⟩ := by
    refine ⟨rfl, ?_, syncFailed_cons nofun⟩
    obtain rfl | ⟨nonce, rfl⟩ := Files.exec_effect hf
    · rfl
    · rfl
  cases r with
  | error e =>
    obtain ⟨rfl, rfl⟩ := Prog.Outcome.of_fail h
    exact ⟨hkept.session, hkept.wrote nofun⟩
  | ok t =>
    obtain ⟨y, u, hy, h⟩ := outcome_attempt_bind h
    obtain ⟨hsess, hwrote⟩ := outcome_writeTemp hy
    cases y with
    | ok u' =>
      obtain ⟨rfl, rfl⟩ := Prog.Outcome.of_ret h
      exact ⟨hsess.trans hkept.session, .after hkept hwrote⟩
    | error e =>
      -- the error stays, whether the temporary file can be removed or not
      obtain ⟨z, w, hz, h⟩ := outcome_attempt_bind h
      obtain ⟨rfl, rfl⟩ := Prog.Outcome.of_fail h
      obtain ⟨hremoved, -⟩ := outcome_quiet hz
      exact ⟨(hremoved.session.trans hsess).trans hkept.session,
        .after hkept (hwrote.before hremoved)⟩

/-! ## All or nothing -/

section

variable [Crypto]

/-- The vault that a key opens on disk. -/
def Desk.stored (s : Desk) (vaultKey : VaultKey) : Option Vault :=
  match s.files.named .vaultEnc with
  | some (.vault blob) => (decryptVaultBlob blob vaultKey).toOption
  | _ => none

/-- **A save is all or nothing**: it returns, and the vault is that on
disk and that of the session; or it fails, and both are what they
were. -/
def AllOrNothing (s : Desk) (s₀ : SessionState) (vault : Vault) (s' : Desk) :
    Except Anyhow Unit → Prop
  | .ok () => s'.stored s₀.vaultKey = some vault ∧ s'.session = some { s₀ with vault }
  | .error _ => s'.stored s₀.vaultKey = s.stored s₀.vaultKey ∧ s'.session = some s₀

/-- A vault that may be kept is opened once it is on disk. -/
theorem Desk.stored_put {s s' : Desk} {vault : Vault} {vaultKey : VaultKey} {vaultSalt : Salt}
    (hvault : Storable vault) (hs : s'.files.named =
      s.files.named.put .vaultEnc (.vault (encryptVault vaultKey vaultSalt vault))) :
    s'.stored vaultKey = some vault := by
  unfold Desk.stored
  rw [hs, Directory.put_apply, if_pos rfl]
  show (decryptVaultBlob (encryptVault vaultKey vaultSalt vault) vaultKey).toOption = _
  have hopen : decryptVaultBlob (encryptVault vaultKey vaultSalt vault) vaultKey = .ok vault :=
    decryptVaultBlob_eq_ok_iff.mpr ⟨rfl, rfl, hvault⟩
  rw [hopen]
  rfl

omit [Crypto] in
/-- Reading a session that is open. -/
theorem outcome_session {s s' : History} {x : Except Anyhow Unit} {s₀ : SessionState}
    {k : SessionState → DeskProg Unit} (hs : s.state.session = some s₀)
    (h : Prog.Outcome (Recorded.exec Desk.Exec) (session >>= k) s x s') :
    ∃ t, Prog.Outcome (Recorded.exec Desk.Exec) (k s₀) t x s' ∧ t.state = s.state ∧
      (SyncFailed t.past ↔ SyncFailed s.past) := by
  obtain ⟨r, t, ⟨⟨o, ho⟩, hpast⟩, h⟩ := Prog.Outcome.of_call h
  obtain ⟨rfl, hstate⟩ := Prod.mk.inj (Option.some.inj ho)
  rw [hs] at h
  refine ⟨t, h, hstate.symm, ?_⟩
  rw [hpast]
  exact syncFailed_cons nofun

/-- **`save_vault_with_key_to`**: a vault that may be kept is written, or
nothing is done. -/
theorem outcome_saveVaultWithKeyTo {f : FileName} {vault : Vault} {vaultKey : VaultKey}
    {vaultSalt : Salt} {x : Except Anyhow Unit} {s s' : History}
    (h : Prog.Outcome (Recorded.exec Desk.Exec) (saveVaultWithKeyTo f vault vaultKey vaultSalt)
      s x s') :
    s'.state.session = s.state.session ∧
      ((Storable vault ∧ Wrote f (.vault (encryptVault vaultKey vaultSalt vault)) s s' x) ∨
        (x ≠ .ok () ∧ s' = s)) := by
  unfold saveVaultWithKeyTo at h
  cases hseal : sealVault vault vaultKey vaultSalt with
  | error e =>
    rw [hseal] at h
    obtain ⟨rfl, rfl⟩ := Prog.Outcome.of_fail h
    exact ⟨rfl, .inr ⟨nofun, rfl⟩⟩
  | ok blob =>
    obtain ⟨hvault, rfl⟩ := sealVault_eq_ok_iff.mp hseal
    rw [hseal, Prog.ofExcept_ok, Prog.ret_bind, files_context] at h
    obtain ⟨y, rfl, hwrite⟩ := Prog.Outcome.of_mapError h
    obtain ⟨hsess, hwrote⟩ := outcome_writePrivateFile hwrite
    exact ⟨hsess, .inl ⟨hvault, hwrote.mapError⟩⟩

omit [Crypto] in
theorem outcome_setSession {s s' : History} {x : Except Anyhow Unit} {sess : Option SessionState}
    (h : Prog.Outcome (Recorded.exec Desk.Exec) (setSession sess) s x s') :
    x = .ok () ∧ s'.state = { s.state with session := sess } ∧
      (SyncFailed s'.past ↔ SyncFailed s.past) := by
  obtain ⟨r, t, ⟨⟨o, ho⟩, hpast⟩, h⟩ := Prog.Outcome.of_call h
  obtain ⟨rfl, hstate⟩ := Prod.mk.inj (Option.some.inj ho)
  obtain ⟨rfl, rfl⟩ := Prog.Outcome.of_ret h
  refine ⟨rfl, hstate.symm, ?_⟩
  rw [hpast]
  exact syncFailed_cons nofun

/-- **A save is all or nothing exactly when** the directory was synced
after the new vault was in its place, or the vault on disk was the new
one before. -/
theorem saveVaultCandidate_iff {s s' : Desk} {s₀ : SessionState} {vault : Vault}
    {x : Except Anyhow Unit} {past : List (Event DeskCmd.Reply)} (hs : s.session = some s₀)
    (h : Prog.Outcome (Recorded.exec Desk.Exec) (saveVaultCandidate vault) ⟨s, []⟩ x ⟨s', past⟩) :
    AllOrNothing s s₀ vault s' x ↔ (SyncFailed past → s.stored s₀.vaultKey = some vault) := by
  obtain ⟨t, h, ht, htsynced⟩ := outcome_session hs h
  have hnone : ¬ SyncFailed t.past := fun hf => by
    obtain ⟨e, he⟩ := htsynced.mp hf
    exact List.not_mem_nil he
  have hstored {u : Desk} (hu : u.files.named = s.files.named) :
      u.stored s₀.vaultKey = s.stored s₀.vaultKey := by
    unfold Desk.stored
    rw [hu]
  -- a save that ends with nothing unsynced meets both sides
  have hclean (hall : AllOrNothing s s₀ vault s' x) (hsynced : ¬ SyncFailed past) :
      AllOrNothing s s₀ vault s' x ↔ (SyncFailed past → s.stored s₀.vaultKey = some vault) :=
    ⟨fun _ hf => absurd hf hsynced, fun _ => hall⟩
  obtain ⟨_, u, hsave, h⟩ | ⟨e, hsave, rfl⟩ := h.of_bind
  · obtain ⟨hsess, ⟨hvault, hwrote⟩ | ⟨hx, -⟩⟩ := outcome_saveVaultWithKeyTo hsave
    · cases hwrote with
      | done hnamed hsynced =>
        rw [ht] at hsess hnamed
        obtain ⟨w, h, hw, hwsynced⟩ := outcome_session (hsess.trans hs) h
        obtain ⟨rfl, hset, hset'⟩ := outcome_setSession h
        have hset : s' = { w.state with session := some { s₀ with vault } } := hset
        have hnamed' : s'.files.named = s.files.named.put .vaultEnc
            (.vault (encryptVault s₀.vaultKey s₀.vaultSalt vault)) := by
          rw [hset, hw]
          exact hnamed
        refine hclean ⟨Desk.stored_put hvault hnamed', by rw [hset]⟩ fun hf => ?_
        exact hnone (hsynced.mp (hwsynced.mp (hset'.mp hf)))
    · exact absurd rfl hx
  · obtain ⟨hsess, ⟨hvault, hwrote⟩ | ⟨-, hsame⟩⟩ := outcome_saveVaultWithKeyTo hsave
    · rw [ht] at hsess
      have hsess : s'.session = some s₀ := hsess.trans hs
      cases hwrote with
      | untouched hnamed hsynced =>
        rw [ht] at hnamed
        exact hclean ⟨hstored hnamed, hsess⟩ fun hf => hnone (hsynced.mp hf)
      | unsynced hnamed hfailed =>
        -- the new vault is on disk, so nothing has changed only if it was before
        rw [ht] at hnamed
        have hnew : s'.stored s₀.vaultKey = some vault := Desk.stored_put hvault hnamed
        refine ⟨fun hall _ => hall.1.symm.trans hnew, fun hold => ⟨?_, hsess⟩⟩
        exact hnew.trans (hold hfailed).symm
    · subst hsame
      have ht : s' = s := ht
      subst ht
      exact hclean ⟨rfl, hs⟩ hnone

/-! ## Whole runs -/

/-- **Any storage call may fail but for those made while the vault on
disk is not that of the session.** -/
def savedFault : Faults := fun sess v =>
  ∀ s₀, sess = some s₀ → Saved s₀ v

omit [Crypto] in
theorem savedFault_saving : savedFault.Saving := fun s₀ _ h => h s₀ rfl

omit [Crypto] in
theorem savedFault_fails (sess : Option SessionState) : ¬ Reliable (savedFault sess) := by
  intro hr
  cases sess with
  | none => exact hr (fun _ => none) nofun
  | some s₀ =>
    refine hr (fun _ => some (.vault (encryptVault s₀.vaultKey s₀.vaultSalt s₀.vault))) ?_
    rintro s₁ hs₁
    obtain rfl := Option.some.inj hs₁
    exact ⟨_, rfl, rfl⟩

omit [Crypto] in
theorem anyOutside_saving : Outside.any.Runs savedFault inSession sameFiles where
  uniform sess _ hr := absurd hr (savedFault_fails sess)
  saves _ _ := trivial
  passwd _ := savedFault_fails
  step _ _ := trivial
  stopped _ _ := trivial
  synced _ hr := absurd hr (savedFault_fails none)

/-- **Saving is all or nothing.** One save is, from whatever state and
however it ends, exactly when the directory was synced after the new
vault was in its place, or the vault on disk was the new one before. And
in every run in which no storage call fails while the vault on disk is
not that of the session, the two agree between any two commands. -/
theorem saves_all_or_nothing :
    (∀ (s s' : Desk) (s₀ : SessionState) (vault : Vault) (x : Except Anyhow Unit)
      (past : List (Event DeskCmd.Reply)), s.session = some s₀ →
      Prog.Outcome (Recorded.exec Desk.Exec) (saveVaultCandidate vault) ⟨s, []⟩ x ⟨s', past⟩ →
      (AllOrNothing s s₀ vault s' x ↔
        (SyncFailed past → s.stored s₀.vaultKey = some vault))) ∧
    (∀ c, SessionReachable savedFault c → c.running = none → ∀ s₀, c.state.session = some s₀ →
      Saved s₀ c.state.dir) := by
  refine ⟨fun s s' s₀ vault x past hs h => saveVaultCandidate_iff hs h, ?_⟩
  rintro c ⟨s, hsess, hsteps⟩ hrun s₀ hs₀
  have hstart : (deskCertificate .any savedFault).Holds (sessionScript savedFault) ⟨s, none⟩ :=
    deskCertificate_start trivial hsess fun hr => absurd hr (savedFault_fails none)
  obtain ⟨sess, v, hheld, hs⟩ :=
    ((deskCertificate_valid anyOutside_saving).reachable hstart hsteps).idle hrun
  obtain rfl : some s₀ = sess := hs₀.symm.trans hs.session
  rw [hs.dir]
  exact (hheld s₀ rfl).saved savedFault_saving

end

/-! ## Given runs -/

/-- An entry is removed, and the directory cannot be synced after the
vault was written without it. -/
def removeUnsynced : List (DeskOp × List DeskChoice) :=
  [(.unlock, smoothly 40 .ping),
    (.remove "mail", smoothly 27 .ping ++
      ⟨.fail (.other "Input/output error"), willing .ping⟩ :: smoothly 5 .ping)]

attribute [local instance] Crypto.plain

/-- The vault of the session has another number of entries than that on
disk. -/
def World.diverged (s : World Unit) : Bool :=
  match s.session, s.dir .vaultEnc with
  | some s₀, some (.vault blob) => s₀.vault.entries.length != blob.plaintext.entries.length
  | _, _ => false

/-- **A session whose vault is not the one on disk**: the entry is gone
from the file and still in memory. -/
theorem save_fails_after_rename : ∃ c, SessionReachable anyFault c ∧ c.running = none ∧
    ∃ s₀, c.state.session = some s₀ ∧ ¬ Saved s₀ c.state.dir := by
  have hplay : (((⟨mailDesktop, ()⟩ : World Unit).play .any (fun x _ _ => x) true
      removeUnsynced).map World.diverged) = some true := by decide +kernel
  obtain ⟨s, hs, hdiverged⟩ := Option.map_eq_some_iff.mp hplay
  have hops : ∀ x ∈ removeUnsynced, inSession x.1 := by simp [removeUnsynced, inSession]
  refine ⟨⟨s, none⟩, SessionReachable.play (fun _ _ _ => trivial) ⟨⟨mailDesktop, ()⟩, rfl, .refl⟩
    hops hs, rfl, ?_⟩
  unfold World.diverged at hdiverged
  split at hdiverged
  · next s₀ blob hsess hblob =>
    refine ⟨s₀, hsess, fun hsaved => ?_⟩
    obtain ⟨blob', hblob', hplain⟩ := hsaved
    obtain rfl : blob = blob' := Content.vault.inj (Option.some.inj (hblob.symm.trans hblob'))
    rw [hplain] at hdiverged
    simp at hdiverged
  · cases hdiverged

/-- An entry is removed, all going well: the session is that of the
disk. -/
theorem saves_all_or_nothing_remove : ∃ (s : World Unit) (s₀ : SessionState),
    s.session = some s₀ ∧ s₀.vault.entries = [] ∧ Saved s₀ s.dir := by
  have hplay : (((⟨mailDesktop, ()⟩ : World Unit).play .any (fun x _ _ => x) false
      [(.unlock, smoothly 40 .ping), (.remove "mail", smoothly 40 .ping)]).map
        fun s => s.session.any fun s₀ => s₀.vault.entries.isEmpty) = some true := by decide +kernel
  obtain ⟨s, hs, hempty⟩ := Option.map_eq_some_iff.mp hplay
  obtain ⟨s₀, hsess, hempty⟩ : ∃ s₀, s.session = some s₀ ∧ _ := (Option.any_eq_true _ _).mp hempty
  have hc : SessionReachable savedFault ⟨s, none⟩ :=
    .play (fun h => Bool.noConfusion h) ⟨⟨mailDesktop, ()⟩, rfl, .refl⟩ (by simp [inSession]) hs
  exact ⟨s, s₀, hsess, List.isEmpty_iff.mp hempty, saves_all_or_nothing.2 _ hc rfl s₀ hsess⟩

end Desktop
