import Ferusa.Desktop.Saving

/-!
# Changing the password

`rotate_vault` seals the vault of the session under new keys, writes it
in the place of the old one, and gives the keys to the session. The
write may fail before the new file is in its place or after, and the
session cannot tell which: it is dropped, and with it the vault lock,
which is one of its fields. Removing the old salt file comes last, and
may fail without any harm.

What is written is the vault **of the session**. Where `vault.enc` held
another one – a save that could not sync the directory leaves it so –
changing the password puts back the vault before that save
(`rotation_reverts`); where it held that of the session, the vault on
disk stays the same however the rotation ends (`rotation_safe`).
-/

namespace Desktop

open DeskProg

/-! ## The steps -/

/-- **The steps before the write**, each of which may refuse. -/
structure Sealer where
  combine : LocalSecret → Bytes32 → Except String VaultKey
  serialize : Vault → Except String Unit
  encrypt : VaultKey → Salt → Vault → Except String EncryptedBlob
  combine_ok : ∀ {localSecret share key}, combine localSecret share = .ok key →
    key = combineVaultKey localSecret share
  encrypt_ok : ∀ {key salt vault blob}, encrypt key salt vault = .ok blob →
    blob = encryptVault key salt vault

/-- The steps where none refuses. -/
def Sealer.total : Sealer where
  combine localSecret share := .ok (combineVaultKey localSecret share)
  serialize _ := .ok ()
  encrypt key salt vault := .ok (encryptVault key salt vault)
  combine_ok h := (Except.ok.inj h).symm
  encrypt_ok h := (Except.ok.inj h).symm

/-- The new key and the new blob of a session. -/
def Sealer.sealed (c : Sealer) (s : SessionState) (localSecret : LocalSecret) (newSalt : Salt) :
    Except Anyhow (VaultKey × EncryptedBlob) := do
  let key ← (c.combine localSecret s.phoneShare).mapError fun e => ["combine vault key", e]
  (c.serialize s.vault).mapError fun e => ["serialize vault", e]
  let blob ← (c.encrypt key newSalt s.vault).mapError fun e => ["encrypt vault", e]
  pure (key, blob)

/-- **`rotate_vault`**, with the write and the cleanup it is given. -/
def rotateVaultWith (c : Sealer) (write : EncryptedBlob → FileProg Unit) (cleanup : FileProg Unit)
    (localSecret : LocalSecret) (newSalt : Salt) : DeskProg Unit := do
  let s ← session
  let (newVaultKey, blob) ← Prog.ofExcept (c.sealed s localSecret newSalt)
  let r ← (files (write blob)).attempt
  match r with
  | .error e => do
    setSession none
    .fail ("write vault.enc: password change outcome uncertain; session locked, unlock again to verify the password" :: e)
  | .ok () => do
    setSession (some { s with localSecret, vaultKey := newVaultKey, vaultSalt := newSalt })
    let _ ← (files cleanup).attempt
    pure ()

/-- **The rotation of `cmd_passwd`** writes `vault.enc` and removes
`vault.salt`. -/
theorem rotateVault_eq (localSecret : LocalSecret) (newSalt : Salt) :
    rotateVault localSecret newSalt = rotateVaultWith .total
      (fun blob => writePrivateFile .vaultEnc (.vault blob)) removeLegacyVaultSalt localSecret
      newSalt := rfl

/-- What a seal is that is not refused. -/
theorem Sealer.sealed_eq_ok {c : Sealer} {s : SessionState} {localSecret : LocalSecret}
    {newSalt : Salt} {x : VaultKey × EncryptedBlob} (h : c.sealed s localSecret newSalt = .ok x) :
    x = (combineVaultKey localSecret s.phoneShare,
      encryptVault (combineVaultKey localSecret s.phoneShare) newSalt s.vault) := by
  unfold sealed at h
  cases hkey : c.combine localSecret s.phoneShare with
  | error e =>
    rw [hkey] at h
    cases h
  | ok key =>
    obtain rfl := c.combine_ok hkey
    rw [hkey] at h
    cases hser : c.serialize s.vault with
    | error e =>
      rw [hser] at h
      cases h
    | ok u =>
      rw [hser] at h
      cases hblob : c.encrypt (combineVaultKey localSecret s.phoneShare) newSalt s.vault with
      | error e =>
        have h : (do
          let blob ← (c.encrypt (combineVaultKey localSecret s.phoneShare) newSalt
            s.vault).mapError fun e => ["encrypt vault", e]
          pure (combineVaultKey localSecret s.phoneShare, blob)) = Except.ok x := h
        rw [hblob] at h
        cases h
      | ok blob =>
        obtain rfl := c.encrypt_ok hblob
        have h : (do
          let blob ← (c.encrypt (combineVaultKey localSecret s.phoneShare) newSalt
            s.vault).mapError fun e => ["encrypt vault", e]
          pure (combineVaultKey localSecret s.phoneShare, blob)) = Except.ok x := h
        rw [hblob] at h
        exact (Except.ok.inj h).symm

/-! ## What the write and the cleanup do -/

/-- **A write in the place of `vault.enc`**: it fails before the new file
is in its place, or after, or it succeeds. -/
def Replaces (p : FileProg Unit) (blob : EncryptedBlob) : Prop :=
  ∀ s x s', Prog.Outcome (Recorded.exec Desk.Exec) (files p) s x s' →
    s'.state.session = s.state.session ∧
      ((s'.state.files.named = s.state.files.named ∧ x ≠ .ok ()) ∨
        s'.state.files.named = s.state.files.named.put .vaultEnc (.vault blob))

/-- **A cleanup** leaves `vault.enc` and the session alone. -/
def LeavesVault (p : FileProg Unit) : Prop :=
  ∀ s x s', Prog.Outcome (Recorded.exec Desk.Exec) (files p) s x s' →
    s'.state.session = s.state.session ∧
      s'.state.files.named .vaultEnc = s.state.files.named .vaultEnc

/-- `write_private_file` is such a write. -/
theorem replaces_writePrivateFile (blob : EncryptedBlob) :
    Replaces (writePrivateFile .vaultEnc (.vault blob)) blob := by
  intro s x s' h
  obtain ⟨hsess, hwrote⟩ := outcome_writePrivateFile h
  refine ⟨hsess, ?_⟩
  cases hwrote with
  | done named synced => exact .inr named
  | untouched named synced => exact .inl ⟨named, nofun⟩
  | unsynced named failed => exact .inr named

/-- `remove_legacy_vault_salt` is such a cleanup. -/
theorem leavesVault_removeLegacyVaultSalt : LeavesVault removeLegacyVaultSalt := by
  intro s x s' h
  obtain ⟨r, t, hx, h⟩ := Prog.Outcome.of_call h
  obtain ⟨o, f, hf, rfl⟩ := exec_file hx
  have hend : s' = ⟨{ s.state with files := f }, ⟨.file (.remove .vaultSalt), r⟩ :: s.past⟩ := by
    cases r with
    | ok u => exact (Prog.Outcome.of_ret h).2
    | error e =>
      cases e with
      | notFound => exact (Prog.Outcome.of_ret h).2
      | isADirectory => exact (Prog.Outcome.of_ret h).2
      | other text => exact (Prog.Outcome.of_fail h).2
  rw [hend]
  refine ⟨rfl, ?_⟩
  obtain rfl | heffect := Files.exec_effect hf
  · rfl
  · have heffect : f = s.state.files.change (.drop .vaultSalt) := heffect
    rw [heffect]
    show (s.state.files.named.drop .vaultSalt) .vaultEnc = _
    rw [Directory.drop_apply, if_neg nofun]

/-! ## A safe rotation -/

/-- The session holds the vault lock: it is one of its fields, and is
released when the session is dropped. -/
def Desk.HoldsLock (s : Desk) : Prop := s.session.isSome = true

section

variable [Crypto]

/-- **What is saved later** is written under the given key and salt, and
opens with them. -/
def SavesUnder (s : Desk) (key : VaultKey) (salt : Salt) : Prop :=
  ∀ (vault : Vault) (s' : Desk) (past : List (Event DeskCmd.Reply)),
    Prog.Outcome (Recorded.exec Desk.Exec) (saveVaultCandidate vault) ⟨s, []⟩ (.ok ()) ⟨s', past⟩ →
    s'.files.named .vaultEnc = some (.vault (encryptVault key salt vault)) ∧
      s'.stored key = some vault

/-- **A safe end of a rotation** from the session `s₀`, with `old` in
`vault.enc`: the vault on disk is what it was, in the old blob or in the
new one; and what else holds depends on how it ended. -/
structure RotationSafe (c : Sealer) (localSecret : LocalSecret) (newSalt : Salt)
    (s : History) (s₀ : SessionState) (old : EncryptedBlob) (x : Except Anyhow Unit)
    (s' : History) : Prop where
  disk : ∃ blob, s'.state.files.named .vaultEnc = some (.vault blob) ∧
    blob.plaintext = old.plaintext ∧ (blob = old ∨
      blob = encryptVault (combineVaultKey localSecret s₀.phoneShare) newSalt s₀.vault)
  /-- What was refused before the write has changed nothing. -/
  refused : ∀ e, c.sealed s₀ localSecret newSalt = .error e → x = .error e ∧
    s'.state = s.state
  /-- After an uncertain write there is no session, and no lock. -/
  uncertain : ∀ k e, c.sealed s₀ localSecret newSalt = .ok k → x = .error e →
    s'.state.session = none ∧ ¬ s'.state.HoldsLock
  /-- Otherwise disk and session are of the new keys. -/
  done : x = .ok () → s'.state.files.named .vaultEnc =
      some (.vault (encryptVault (combineVaultKey localSecret s₀.phoneShare) newSalt s₀.vault)) ∧
    s'.state.stored (combineVaultKey localSecret s₀.phoneShare) = some old.plaintext ∧
    s'.state.session = some { s₀ with
      localSecret, vaultKey := combineVaultKey localSecret s₀.phoneShare, vaultSalt := newSalt } ∧
    SavesUnder s'.state (combineVaultKey localSecret s₀.phoneShare) newSalt

/-- **A save that returns** has put the vault in place under the keys of
the session. -/
theorem outcome_saveVaultCandidate_ok {s s' : Desk} {s₀ : SessionState} {vault : Vault}
    {past : List (Event DeskCmd.Reply)} (hs : s.session = some s₀)
    (h : Prog.Outcome (Recorded.exec Desk.Exec) (saveVaultCandidate vault) ⟨s, []⟩ (.ok ())
      ⟨s', past⟩) :
    Storable vault ∧ s'.files.named = s.files.named.put .vaultEnc
      (.vault (encryptVault s₀.vaultKey s₀.vaultSalt vault)) := by
  obtain ⟨t, h, ht, -⟩ := outcome_session hs h
  obtain ⟨_, u, hsave, h⟩ | ⟨e, -, he⟩ := h.of_bind
  · obtain ⟨hsess, ⟨hvault, hwrote⟩ | ⟨hx, -⟩⟩ := outcome_saveVaultWithKeyTo hsave
    · cases hwrote with
      | done hnamed hsynced =>
        rw [ht] at hsess hnamed
        obtain ⟨w, h, hw, -⟩ := outcome_session (hsess.trans hs) h
        obtain ⟨-, hset, -⟩ := outcome_setSession h
        have hset : s' = { w.state with session := some { s₀ with vault } } := hset
        refine ⟨hvault, ?_⟩
        rw [hset, hw]
        exact hnamed
    · exact absurd rfl hx
  · cases he

/-- A session saves under its own keys. -/
theorem SavesUnder.of_session {s : Desk} {s₀ : SessionState} (hs : s.session = some s₀) :
    SavesUnder s s₀.vaultKey s₀.vaultSalt := by
  intro vault s' past h
  obtain ⟨hvault, hnamed⟩ := outcome_saveVaultCandidate_ok hs h
  refine ⟨?_, Desk.stored_put hvault hnamed⟩
  rw [hnamed, Directory.put_apply, if_pos rfl]

/-- **The write fails** on the desktop, with what the rotation makes of its
error. -/
def FailsToWrite (p : FileProg Unit) (s : Desk) (e : Anyhow) : Prop :=
  ∃ t e' u, t.state = s ∧ Prog.Outcome (Recorded.exec Desk.Exec) (files p) t (.error e') u ∧
    e = "write vault.enc: password change outcome uncertain; session locked, unlock again to verify the password" :: e'

omit [Crypto] in
/-- **How a rotation ends**: refused, uncertain because the write has failed,
or done. -/
theorem outcome_rotateVaultWith {c : Sealer} {write : EncryptedBlob → FileProg Unit}
    {cleanup : FileProg Unit} {localSecret : LocalSecret} {newSalt : Salt} {s s' : History}
    {s₀ : SessionState} {x : Except Anyhow Unit} (hwrite : ∀ blob, Replaces (write blob) blob)
    (hcleanup : LeavesVault cleanup) (hs : s.state.session = some s₀)
    (h : Prog.Outcome (Recorded.exec Desk.Exec)
      (rotateVaultWith c write cleanup localSecret newSalt) s x s') :
    (∃ e, c.sealed s₀ localSecret newSalt = .error e ∧ x = .error e ∧ s'.state = s.state) ∨
    ∃ k, c.sealed s₀ localSecret newSalt = .ok k ∧
      ((∃ e, x = .error e ∧ FailsToWrite (write k.2) s.state e ∧ s'.state.session = none ∧
          (s'.state.files.named = s.state.files.named ∨
            s'.state.files.named = s.state.files.named.put .vaultEnc (.vault k.2))) ∨
        x = .ok () ∧ s'.state.files.named .vaultEnc = some (.vault k.2) ∧
          s'.state.session =
            some { s₀ with localSecret, vaultKey := k.1, vaultSalt := newSalt }) := by
  obtain ⟨t, h, ht, -⟩ := outcome_session hs h
  cases hsealed : c.sealed s₀ localSecret newSalt with
  | error e =>
    rw [hsealed] at h
    obtain ⟨rfl, rfl⟩ := Prog.Outcome.of_fail h
    exact .inl ⟨e, rfl, rfl, ht⟩
  | ok k =>
    rw [hsealed, Prog.ofExcept_ok, Prog.ret_bind] at h
    obtain ⟨y, u, hw, h⟩ := Prog.Outcome.attempt_bind_iff.mp h
    obtain ⟨hsess, hnamed⟩ := hwrite k.2 t y u hw
    rw [ht] at hsess hnamed
    refine .inr ⟨k, rfl, ?_⟩
    cases y with
    | error e =>
      -- the session is dropped, wherever the write stopped
      obtain ⟨_, v, hset, h⟩ | ⟨e', hset, -⟩ := h.of_bind
      · obtain ⟨-, hv, -⟩ := outcome_setSession hset
        obtain ⟨rfl, rfl⟩ := Prog.Outcome.of_fail h
        refine .inl ⟨_, rfl, ⟨t, e, u, ht, hw, rfl⟩, by rw [hv], ?_⟩
        rw [hv]
        exact hnamed.imp And.left id
      · exact nomatch (outcome_setSession hset).1
    | ok u' =>
      obtain ⟨-, hx⟩ | hput := hnamed
      · exact absurd rfl hx
      obtain ⟨_, v, hset, h⟩ | ⟨e', hset, -⟩ := h.of_bind
      · obtain ⟨-, hv, -⟩ := outcome_setSession hset
        obtain ⟨z, w, hclean, h⟩ := Prog.Outcome.attempt_bind_iff.mp h
        obtain ⟨hsess', hkept⟩ := hcleanup v z w hclean
        obtain ⟨rfl, rfl⟩ := Prog.Outcome.of_ret h
        refine .inr ⟨rfl, ?_, ?_⟩
        · rw [hkept, hv]
          show u.state.files.named .vaultEnc = _
          rw [hput, Directory.put_apply, if_pos rfl]
        · rw [hsess', hv]
      · exact nomatch (outcome_setSession hset).1

/-- **Changing the password is safe** for a session whose key opens
`vault.enc`, where this holds the vault of the session: however it ends,
the vault on disk is the same. Once the vault is sealed, only the write
makes it fail: where that succeeds, so does the change, whatever the
cleanup does. -/
theorem rotation_safe {c : Sealer} {write : EncryptedBlob → FileProg Unit}
    {cleanup : FileProg Unit} {localSecret : LocalSecret} {newSalt : Salt} {s s' : History}
    {s₀ : SessionState} {old : EncryptedBlob} {x : Except Anyhow Unit}
    (hwrite : ∀ blob, Replaces (write blob) blob) (hcleanup : LeavesVault cleanup)
    (hs : s.state.session = some s₀)
    (hold : s.state.files.named .vaultEnc = some (.vault old))
    (hopens : decryptVaultBlob old s₀.vaultKey = .ok s₀.vault)
    (h : Prog.Outcome (Recorded.exec Desk.Exec)
      (rotateVaultWith c write cleanup localSecret newSalt) s x s') :
    RotationSafe c localSecret newSalt s s₀ old x s' ∧
      ∀ k e, c.sealed s₀ localSecret newSalt = .ok k → x = .error e →
        FailsToWrite (write k.2) s.state e := by
  obtain ⟨-, hvault, hstorable⟩ := decryptVaultBlob_eq_ok_iff.mp hopens
  obtain ⟨e, hsealed, rfl, hstate⟩ | ⟨k, hsealed, hend⟩ :=
    outcome_rotateVaultWith hwrite hcleanup hs h
  · refine ⟨⟨⟨old, ?_, rfl, .inl rfl⟩, fun e' he' => ?_, fun k e' hk _ => ?_, nofun⟩,
      fun k e' hk _ => ?_⟩
    · rw [hstate, hold]
    · rw [hsealed] at he'
      exact ⟨congrArg _ (Except.error.inj he'), hstate⟩
    · rw [hsealed] at hk
      cases hk
    · rw [hsealed] at hk
      cases hk
  have hfailed : ∀ k' e, c.sealed s₀ localSecret newSalt = .ok k' → x = .error e →
      FailsToWrite (write k'.2) s.state e := by
    rintro k' e hk' rfl
    obtain rfl := Except.ok.inj (hsealed.symm.trans hk')
    obtain ⟨e', he', hfails, -⟩ | ⟨hok, -⟩ := hend
    · obtain rfl := Except.error.inj he'
      exact hfails
    · cases hok
  refine ⟨?_, hfailed⟩
  obtain rfl := Sealer.sealed_eq_ok hsealed
  obtain ⟨e, rfl, -, hnone, hnamed⟩ | ⟨rfl, hput, hsess⟩ := hend
  · refine ⟨?_, fun e' he' => ?_, fun k e' _ _ => ⟨hnone, ?_⟩, nofun⟩
    · obtain hsame | hput := hnamed
      · exact ⟨old, by rw [hsame, hold], rfl, .inl rfl⟩
      · refine ⟨_, ?_, hvault, .inr rfl⟩
        rw [hput, Directory.put_apply, if_pos rfl]
    · rw [hsealed] at he'
      cases he'
    · unfold Desk.HoldsLock
      rw [hnone]
      exact nofun
  · refine ⟨⟨_, hput, hvault, .inr rfl⟩, fun e' he' => ?_, fun k e' _ he' => (nomatch he'),
      fun _ => ⟨hput, ?_, hsess, .of_session hsess⟩⟩
    · rw [hsealed] at he'
      cases he'
    · have hopen : decryptVaultBlob (encryptVault (combineVaultKey localSecret s₀.phoneShare)
          newSalt s₀.vault) (combineVaultKey localSecret s₀.phoneShare) = .ok s₀.vault :=
        decryptVaultBlob_eq_ok_iff.mpr ⟨rfl, rfl, hstorable⟩
      unfold Desk.stored
      rw [hput, ← hvault]
      show (decryptVaultBlob (encryptVault _ _ _) _).toOption = _
      rw [hopen]
      rfl

end

/-! ## Given rotations -/

/-- A session with the keys of `firstBlob`, and the given vault. -/
def sessionWith (vault : Vault) : SessionState :=
  { vault, localSecret := firstBlob.key.localSecret, vaultKey := firstBlob.key,
    phoneShare := firstBlob.key.phoneShare, vaultSalt := firstBlob.salt,
    pairing := some firstPairing, pendingRequests := [], endpoint := true }

/-- A desktop whose disk holds the empty vault, and whose session holds
another one. -/
def openDesktop (vault : Vault) : History :=
  ⟨{ files := { volume := ⟨pairedDirectory, pairedDirectory, []⟩, temps := fun _ => none },
     session := some (sessionWith vault) }, []⟩

/-- The desktop whose disk and session hold the vault with one entry. -/
def openMailDesktop : History :=
  ⟨{ mailDesktop with session := some (sessionWith mailVault) }, []⟩

/-- The rotation to another password, all going well. -/
def rotated (s : History) : Option (Except Anyhow Unit × History) :=
  (rotateVault (deriveKeys "another long password" zeroSalt) zeroSalt).replay History.answer
    (smoothly 20 .ping) s

theorem rotated_outcome {s s' : History} {x : Except Anyhow Unit} (h : rotated s = some (x, s')) :
    Prog.Outcome (Recorded.exec Desk.Exec)
      (rotateVault (deriveKeys "another long password" zeroSalt) zeroSalt) s x s' :=
  Prog.Outcome.replay History.answer_exec h

attribute [local instance] Crypto.plain

/-- **Changing the password puts back the vault of the session**, where
`vault.enc` held another one that its key opens. -/
theorem rotation_reverts : ¬ ∀ (localSecret : LocalSecret) (newSalt : Salt) (s s' : History)
    (s₀ : SessionState) (old : EncryptedBlob) (x : Except Anyhow Unit),
    s.state.session = some s₀ → s.state.files.named .vaultEnc = some (.vault old) →
    (∃ vault, decryptVaultBlob old s₀.vaultKey = .ok vault) →
    Prog.Outcome (Recorded.exec Desk.Exec) (rotateVault localSecret newSalt) s x s' →
    RotationSafe .total localSecret newSalt s s₀ old x s' := by
  intro h
  have hrun : (rotated (openDesktop mailVault)).map (fun x => x.2.state.entryCount) =
      some (some 1) := by decide +kernel
  obtain ⟨⟨x, s'⟩, hs', hcount⟩ := Option.map_eq_some_iff.mp hrun
  have hopens : decryptVaultBlob firstBlob firstBlob.key = .ok Vault.default := by
    decide +kernel
  obtain ⟨blob, hblob, hsame, -⟩ := (h _ _ _ s' _ firstBlob x rfl rfl ⟨_, hopens⟩
    (rotated_outcome hs')).disk
  obtain ⟨blob', hblob', hcount⟩ := Desk.entryCount_eq_some.mp hcount
  obtain rfl := Content.vault.inj (Option.some.inj (hblob.symm.trans hblob'))
  have hzero : blob.plaintext.entries.length = 0 := by rw [hsame]; rfl
  cases hzero.symm.trans hcount

/-- The password of a vault with an entry is changed, and the entry is still
there. -/
theorem rotation_safe_mail : ∃ s', rotated openMailDesktop = some (.ok (), s') ∧
    s'.state.entryCount = some 1 ∧
    RotationSafe .total (deriveKeys "another long password" zeroSalt) zeroSalt openMailDesktop
      (sessionWith mailVault) { firstBlob with plaintext := mailVault } (.ok ()) s' := by
  have hrun : (rotated openMailDesktop).map (fun x => (x.1.isOk, x.2.state.entryCount)) =
      some (true, some 1) := by decide +kernel
  obtain ⟨⟨x, s'⟩, hs', hend⟩ := Option.map_eq_some_iff.mp hrun
  obtain ⟨hok, hcount⟩ := Prod.mk.inj hend
  obtain rfl : x = .ok () := by
    cases x with
    | error e => cases hok
    | ok u => rfl
  have hopens : decryptVaultBlob { firstBlob with plaintext := mailVault } firstBlob.key =
      .ok mailVault := by decide +kernel
  exact ⟨s', hs', hcount, (@rotation_safe Crypto.plain .total _ _ _ _ _ _ _ _ (.ok ())
    replaces_writePrivateFile leavesVault_removeLegacyVaultSalt rfl rfl hopens
    (rotated_outcome hs')).1⟩

end Desktop
