import Ferusa.Desktop.HistoryCommands
import Ferusa.Desktop.SessionRuns

/-!
# Approval, titles and reopening, over whole runs

One process of the command line after another, each running commands in
any order, any call failing, the outside answering anything, a process
or the machine stopping at any moment. Three things hold of every run.
No password is copied, no vault written and no pairing replaced unless
the phone has approved this very command since it started
(`effects_approved`). The titles of a vault stay a key, and the commands
that change entries change what they should (`titles_stay_keys`). And
every vault that is written is opened again as it was
(`written_vaults_reopen`).
-/

namespace Desktop

open Logic DeskProg

/-- **What a stop leaves**: the files, or what survives of them, and no
session. -/
structure Desk.Stopped (s s' : Desk) : Prop where
  session : s'.session = none
  volume : s'.files.volume = s.files.volume ∨ Files.Stop s.files s'.files
  temps : ∀ t, s'.files.temps t = s.files.temps t ∨ s'.files.temps t = none

section

variable [Crypto] {G : Vault → Prop}

/-- **The runs of the desktop**: every command, `cmd_init` in a process
without a session, whatever is outside and whatever fails. -/
def vaultScript : Script DeskCmd.Reply DeskOp Desk Anyhow Unit where
  exec := Desk.Exec
  program := DeskOp.program
  start op s s' := (op = .init → s.session = none) ∧ s' = s
  finish _ _ s := s
  stop := Desk.Stopped

/-- What holds throughout, between two commands, and of each command
that is put. -/
def vaultCertificate (G : Vault → Prop) : Script.Certificate DeskOp History Anyhow Unit where
  inv := VaultInv G
  idle := Quiet
  guar op := Recorded.Performed Desk.Exec (May G op)
  post op _ s := Quiet s ∧ (op = .list → Granted op s)
  error _ _ := Quiet

/-- **Every command does what it may**, and shows entries only when the
phone has approved. -/
theorem DeskOp.program_hist (hG : VaultProperty G) (op : DeskOp) (s : History)
    (hi : VaultInv G s) (hs : Quiet s) (hinit : op = .init → s.state.session = none) :
    (recordedLogic Desk.Exec (VaultInv G) (May G op)).Safe
      (fun _ s => Quiet s ∧ (op = .list → Granted op s)) (fun _ => Quiet) op.program s := by
  have hother {op : DeskOp} {p : DeskProg Unit} (hop : op ≠ .list)
      (h : HistRuns G op Quiet Quiet p fun _ => Quiet) :
      (recordedLogic Desk.Exec (VaultInv G) (May G op)).Safe
        (fun _ s => Quiet s ∧ (op = .list → Granted op s)) (fun _ => Quiet) p s :=
    (h s hi hs).mono (fun _ _ _ hs => ⟨hs, fun h => absurd h hop⟩) fun _ _ _ hs => hs
  cases op with
  | unlock =>
    exact hother nofun (Triple.bind (hist_ensureUnlockedFor _ _) fun _ =>
      hist_pure fun _ hs => hs.quiet)
  | list =>
    refine (hist_cmdList s hi hs).mono (fun _ s _ hs => ⟨hs.quiet, fun _ => ?_⟩) fun _ _ _ hs => hs
    obtain ⟨s₀, -, hon⟩ := hs
    exact ⟨s₀, hon.1, hon.2⟩
  | get title => exact hother nofun (hist_cmdGet title)
  | add title =>
    exact hother nofun (starts_any (hist_cmdAdd hG · title) fun _ _ _ ⟨_, _, hs, _⟩ => hs.1)
  | edit title =>
    exact hother nofun (starts_any (hist_cmdEdit hG · title) fun _ _ _ ⟨_, _, hs, _⟩ => hs.1)
  | remove title =>
    exact hother nofun (starts_any (hist_cmdRemove hG · title) fun _ _ _ ⟨_, _, hs, _⟩ => hs.1)
  | passwd => exact hother nofun hist_cmdPasswd
  | pair => exact hother nofun hist_cmdPair
  | lock => exact hother nofun (hist_closeSession.post fun _ _ _ hs => hs.quiet_none)
  | init =>
    refine (hist_cmdInit hG s hi ⟨hinit rfl, trivial⟩).mono (fun _ _ _ hs => ⟨hs, nofun⟩)
      fun _ _ _ hs => hs

omit [Crypto] in
/-- A stop keeps a property of all vaults. -/
theorem Files.Holds.stopped {s s' : Desk} (h : s.files.Holds G) (hs : s.Stopped s') :
    s'.files.Holds G := by
  refine ⟨?_, fun t file contents ht hc => ?_⟩
  · obtain hsame | hstop := hs.volume
    · exact hsame ▸ h.volume
    · exact h.volume.stop hstop
  · obtain hsame | hnone := hs.temps t
    · exact h.temps t file contents (hsame.symm.trans ht) hc
    · cases hnone.symm.trans ht

/-- **The certificate is one.** -/
theorem vaultCertificate_valid (hG : VaultProperty G) :
    (vaultCertificate G).Valid vaultScript.recorded where
  start := by
    rintro op s ⟨desk, past⟩ hi hidle ⟨⟨hinit, rfl : desk = s.state⟩, -⟩
    refine ⟨⟨hi.files, hi.session⟩, ?_⟩
    exact op.program_hist hG ⟨s.state, past⟩ ⟨hi.files, hi.session⟩ hidle hinit
  guar hi hg := hi.step hg
  ret hi hpost := ⟨⟨hi.files, hi.session⟩, hpost.1⟩
  fail hi herror := ⟨⟨hi.files, hi.session⟩, herror⟩
  stop := by
    rintro s s' hi ⟨hstop, -⟩
    have hnone : s'.state.session = none := hstop.session
    refine ⟨⟨hi.files.stopped hstop, fun s₀ hs₀ => ?_⟩, fun s₀ hs₀ => ?_⟩
    · cases hnone.symm.trans hs₀
    · cases hnone.symm.trans hs₀

/-- A moment of a run, with what the command under way has done. -/
abbrev VaultConfig := Script.Config DeskCmd.Reply DeskOp History Anyhow Unit

/-- **The moments of the runs** that start without a session. -/
def VaultReachable (s : Desk) (c : VaultConfig) : Prop :=
  s.session = none ∧ vaultScript.recorded.Steps ⟨⟨s, []⟩, none⟩ c

theorem VaultReachable.holds {s : Desk} {c : VaultConfig} (h : VaultReachable s c)
    (hG : VaultProperty G) (hs : s.files.Holds G) :
    (vaultCertificate G).Holds vaultScript.recorded c := by
  obtain ⟨hsess, hsteps⟩ := h
  refine (vaultCertificate_valid hG).reachable (Script.Certificate.holds_idle ⟨hs, ?_⟩ ?_) hsteps
  · exact fun s₀ hs₀ => nomatch hsess.symm.trans hs₀
  · exact fun s₀ hs₀ => nomatch hsess.symm.trans hs₀

/-- A command that is put might be put. -/
theorem VaultReachable.may {s : Desk} {c c' : VaultConfig} (h : VaultReachable s c)
    (hG : VaultProperty G) (hs : s.files.Holds G) {op : DeskOp} {cmd : DeskCmd} {r : cmd.Reply}
    (hp : vaultScript.recorded.Performs c c' op cmd r) : May G op cmd c.state :=
  (h.holds hG hs).performs (fun hg => hg) hp

/-- **The moments of the runs**, without what the command under way has
done. -/
def DeskReachable (s : Desk) (c : Script.Config DeskCmd.Reply DeskOp Desk Anyhow Unit) : Prop :=
  s.session = none ∧ vaultScript.Steps ⟨s, none⟩ c

theorem DeskReachable.record {s : Desk} {c : Script.Config DeskCmd.Reply DeskOp Desk Anyhow Unit}
    (h : DeskReachable s c) : ∃ past, VaultReachable s ⟨⟨c.state, past⟩, c.running⟩ := by
  obtain ⟨hsess, hsteps⟩ := h
  obtain ⟨past, hpast⟩ := hsteps.record []
  exact ⟨past, hsess, hpast⟩

/-- What a command that is put may do, without its past. -/
theorem DeskReachable.may {s : Desk} {c c' : Script.Config DeskCmd.Reply DeskOp Desk Anyhow Unit}
    (h : DeskReachable s c) (hG : VaultProperty G) (hs : s.files.Holds G) {op : DeskOp}
    {cmd : DeskCmd} {r : cmd.Reply} (hp : vaultScript.Performs c c' op cmd r) :
    ∃ past, May G op cmd ⟨c.state, past⟩ := by
  obtain ⟨past, hc⟩ := h.record
  have hp' : vaultScript.recorded.Performs ⟨⟨c.state, past⟩, c.running⟩
      ⟨⟨c'.state, ⟨cmd, r⟩ :: past⟩, c'.running⟩ op cmd r := ⟨⟨hp.exec, rfl⟩, hp.running⟩
  exact ⟨past, hc.may hG hs hp'⟩

/-- What holds at every moment. -/
theorem DeskReachable.inv {s : Desk} {c : Script.Config DeskCmd.Reply DeskOp Desk Anyhow Unit}
    (h : DeskReachable s c) (hG : VaultProperty G) (hs : s.files.Holds G) :
    c.state.files.Holds G ∧ ∀ s₀, c.state.session = some s₀ → G s₀.vault := by
  obtain ⟨past, hc⟩ := h.record
  have hinv := (hc.holds hG hs).inv
  exact ⟨hinv.files, fun s₀ hs₀ => (hinv.session s₀ hs₀).1⟩

/-! ## Approval -/

/-- **The protected effects** of commands: a password is copied, a vault
is put in its place, a transaction that replaces the pairing is
written. -/
inductive DeskOp.Effect : DeskOp → DeskCmd → Prop
  | copy {title password} : Effect (.get title) (.env (.copyPassword password))
  | save {op t} (hop : op.Saves) : Effect op (.file (.renameTemp t .vaultEnc))
  | replace {t file} (hphase : file.phase = .prepared) (hfile : t.file = .pairingTransactionState) :
      Effect .pair (.file (.quiet (.writeAll t (.transaction file))))

/-- A moment that a command played from a desktop without a session
reaches. -/
theorem DeskReachable.play {s s' : Desk} {op : DeskOp} {l : List DeskChoice}
    (hsess : s.session = none) (hp : op.program.replay Desk.exec l s = some (.ok (), s')) :
    DeskReachable s ⟨s', some (op, .ret ())⟩ := by
  refine ⟨hsess, .head (.start ⟨fun _ => hsess, rfl⟩) (Script.Steps.replay_ok ?_ hp)⟩
  exact fun c o s r s' h => ⟨o, h⟩

/-- An outside that does what it is asked, the user typing the given line. -/
def typingLine (line : String) : (c : EnvCmd) → c.Reply
  | .readLine => .ok line
  | c => willing .ping c

/-- A command that succeeds, all going well, where the user types the given
line whenever asked for one. -/
def succeeds (line : String) (op : DeskOp) (s : Desk) : Option History :=
  match op.program.replay History.answer (List.replicate 60 ⟨.ok 0, typingLine line⟩) ⟨s, []⟩ with
  | some (.ok (), s') => some s'
  | _ => none

theorem succeeds_replay {line : String} {op : DeskOp} {s : Desk} {s' : History}
    (h : succeeds line op s = some s') : op.program.replay History.answer
      (List.replicate 60 ⟨.ok 0, typingLine line⟩) ⟨s, []⟩ = some (.ok (), s') := by
  unfold succeeds at h
  split at h
  · next t ht =>
    obtain rfl := Option.some.inj h
    exact ht
  · cases h

theorem succeeds_outcome {line : String} {op : DeskOp} {s : Desk} {s' : History}
    (h : succeeds line op s = some s') :
    Prog.Outcome (Recorded.exec Desk.Exec) op.program ⟨s, []⟩ (.ok ()) s' :=
  Prog.Outcome.replay History.answer_exec (succeeds_replay h)

/-- A desktop on which a command has succeeded is one that a run reaches. -/
theorem DeskReachable.succeeds {s t : Desk} (hc : DeskReachable s ⟨t, none⟩) {line : String}
    {op : DeskOp} (hop : op ≠ .init) {s' : History} (h : succeeds line op t = some s') :
    DeskReachable s ⟨s'.state, none⟩ := by
  have hrun : vaultScript.recorded.Steps ⟨⟨t, []⟩, some (op, op.program)⟩ ⟨s', none⟩ :=
    Script.Steps.replay History.answer_exec (succeeds_replay h)
  exact ⟨hc.1, .trans hc.2 (.head (.start ⟨fun hinit => absurd hinit hop, rfl⟩) hrun.forget)⟩

end

section

attribute [local instance] Crypto.plain

end

section

variable [Crypto] {G : Vault → Prop}

/-! ## Titles -/

/-- A key of titles is kept. -/
theorem vaultProperty_keyed : VaultProperty Keyed :=
  ⟨.default, fun hop hv hrev _ => (hrev.edited hop hv).2⟩

/-- The commands that change entries. -/
def DeskOp.ChangesEntries : DeskOp → Prop
  | .add _ | .edit _ | .remove _ => True
  | _ => False

/-- **The command has had its effect** on the vault, or it was to remove an
entry and was told not to. -/
def Performed (op : DeskOp) (past : List (Event DeskCmd.Reply)) (before after : Vault) : Prop :=
  Edited op before after ∨
    (∃ title, op = .remove title) ∧ Declined past ∧ after = before

/-- **A command that succeeds has had its effect** on the vault that it
found. -/
theorem performed {s s' : History} {op : DeskOp} (hi : VaultInv Keyed s) (hs : Quiet s)
    (hop : op.ChangesEntries)
    (h : Prog.Outcome (Recorded.exec Desk.Exec) op.program s (.ok ()) s') :
    ∃ vault s₁, Found s.state.session vault s'.past ∧ s'.state.session = some s₁ ∧
      Performed op s'.past vault s₁.vault := by
  have hend {Q : Unit → History → Prop}
      (hp : HistRuns Keyed op Quiet (Starts s.state.session) op.program Q) : Q () s' :=
    ((hp s hi ⟨hs, rfl⟩).outcome hi (fun _ _ hi hg => hi.step hg) h).2
  cases op with
  | add title =>
    obtain ⟨v, hv, ⟨-, s₁, hs₁, hrev⟩, hfound⟩ := hend (hist_cmdAdd vaultProperty_keyed _ title)
    exact ⟨v, s₁, hfound, hs₁, .inl (hrev.edited trivial hv).1⟩
  | edit title =>
    obtain ⟨v, hv, ⟨-, s₁, hs₁, hrev⟩, hfound⟩ := hend (hist_cmdEdit vaultProperty_keyed _ title)
    exact ⟨v, s₁, hfound, hs₁, .inl (hrev.edited trivial hv).1⟩
  | remove title =>
    obtain ⟨v, hv, ⟨-, hcase⟩, hfound⟩ := hend (hist_cmdRemove vaultProperty_keyed _ title)
    obtain ⟨s₁, hs₁, hrev⟩ | ⟨hdeclined, s₁, hs₁, hsame⟩ := hcase
    · exact ⟨v, s₁, hfound, hs₁, .inl (hrev.edited trivial hv).1⟩
    · exact ⟨v, s₁, hfound, hs₁, .inr ⟨⟨title, rfl⟩, hdeclined, hsame⟩⟩
  | _ => cases hop

/-- **The titles of a vault stay a key**, in every run that starts with
no session and no vault on disk but such whose titles are a key, as the
empty one. The titles of the vault of a session, and of every vault on
disk, are a key, so that a title designates at most one entry. Every
step that leaves a session open leaves its vault as it is or makes of it
what the command should, and a vault that is written in its place is what
the command should make of the session's. And where no command is under
way, one that changes entries and then succeeds has made of the vault of
the session, or of the one it has loaded, what it should, unless it was
to remove an entry and was told not to. -/
theorem titles_stay_keys {s : Desk} {c : Script.Config DeskCmd.Reply DeskOp Desk Anyhow Unit}
    (hc : DeskReachable s c) (hs : s.files.Holds Keyed) :
    c.state.files.Holds Keyed ∧
    (∀ s₀, c.state.session = some s₀ → Keyed s₀.vault ∧
      ∀ title a b, a ∈ s₀.vault.entries → b ∈ s₀.vault.entries →
        eqIgnoreAsciiCase a.title title = true → eqIgnoreAsciiCase b.title title = true → a = b) ∧
    (∀ c' s₀ s₁, vaultScript.Step c c' → c.state.session = some s₀ →
      c'.state.session = some s₁ → s₁.vault = s₀.vault ∨
        ∃ op p, c.running = some (op, p) ∧ Edited op s₀.vault s₁.vault) ∧
    (∀ c' op t blob r, vaultScript.Performs c c' op (.file (.quiet (.writeAll t (.vault blob)))) r →
      t.file = .vaultEnc → ∃ s₀, c.state.session = some s₀ ∧
        Edited op s₀.vault blob.plaintext) ∧
    (c.running = none → ∀ op s', op.ChangesEntries →
      Prog.Outcome (Recorded.exec Desk.Exec) op.program ⟨c.state, []⟩ (.ok ()) s' →
      ∃ vault s₁, Found c.state.session vault s'.past ∧ s'.state.session = some s₁ ∧
        Performed op s'.past vault s₁.vault) := by
  obtain ⟨hfiles, hsession⟩ := hc.inv vaultProperty_keyed hs
  refine ⟨hfiles, fun s₀ hs₀ => ⟨hsession s₀ hs₀, ?_⟩, ?_, ?_, ?_⟩
  · exact fun title a b ha hb hat hbt => (hsession s₀ hs₀).designates ha hb hat hbt
  · intro c' s₀ s₁ hstep hs₀ hs₁
    have hsame (h : c'.state.session = c.state.session) : s₁.vault = s₀.vault := by
      obtain rfl := Option.some.inj (hs₁.symm.trans (h.trans hs₀))
      rfl
    cases hstep with
    | start h => exact .inl (hsame (by rw [h.2]))
    | ret => exact .inl (hsame rfl)
    | fail => exact .inl (hsame rfl)
    | stop h => cases h.session.symm.trans hs₁
    | @call op cmd k s r s' hx =>
      have hp : vaultScript.Performs ⟨s, some (op, .call cmd k)⟩ ⟨s', some (op, k r)⟩ op cmd r :=
        ⟨hx, k, rfl, rfl⟩
      obtain ⟨past, hmay⟩ := hc.may vaultProperty_keyed hs hp
      obtain ⟨o, ho⟩ := hx
      cases cmd with
      | file cmd =>
        obtain ⟨x, -, hxs⟩ := Option.map_eq_some_iff.mp ho
        exact .inl (hsame (by rw [← (Prod.mk.inj hxs).2]))
      | env cmd => exact .inl (hsame (by rw [← (Prod.mk.inj (Option.some.inj ho)).2]))
      | getSession => exact .inl (hsame (by rw [← (Prod.mk.inj (Option.some.inj ho)).2]))
      | setSession sess =>
        have hsess : sess = some s₁ := by
          rw [← hs₁, ← (Prod.mk.inj (Option.some.inj ho)).2]
        have hbecomes : Becomes Keyed op ⟨s, past⟩ s₁ := hmay s₁ hsess
        obtain hvault | ⟨hop, hrev⟩ := hbecomes.vault s₀ hs₀
        · exact .inl hvault
        · exact .inr ⟨op, _, rfl, (hrev.edited hop (hsession s₀ hs₀)).1⟩
  · intro c' op t blob r hp ht
    obtain ⟨past, hmay⟩ := hc.may vaultProperty_keyed hs hp
    have hw : Writes Keyed op ⟨c.state, past⟩ t.file (.vault blob) := hmay
    obtain ⟨hop, -, s₀, blob', hs₀, hblob, hrev⟩ := hw.saved ht
    obtain rfl := Content.vault.inj hblob
    exact ⟨s₀, hs₀, (hrev.edited hop (hsession s₀ hs₀)).1⟩
  · intro hidle op s' hop hrun
    obtain ⟨past, hrec⟩ := hc.record
    have hholds := hrec.holds vaultProperty_keyed hs
    have hinv : VaultInv Keyed ⟨c.state, []⟩ := ⟨hholds.inv.files, hholds.inv.session⟩
    have hquiet : Quiet ⟨c.state, []⟩ := hholds.idle hidle
    exact performed hinv hquiet hop hrun

end

/-- A directory that a stop leaves as it is. -/
theorem Files.Holds.settled {G : Vault → Prop} {v : Directory} (hv : v.Holds G) :
    Files.Holds G { volume := ⟨v, v, []⟩, temps := fun _ => none } where
  volume := ⟨hv, hv, fun _ hc => absurd hc List.not_mem_nil⟩
  temps _ _ _ ht := absurd ht (Option.some_ne_none _).symm

theorem pairedDirectory_holds {G : Vault → Prop} (h : G Vault.default) :
    pairedDirectory.Holds G := by
  intro f contents hf
  unfold pairedDirectory at hf
  split at hf
  · obtain rfl := Option.some.inj hf
    exact h
  · obtain rfl := Option.some.inj hf
    trivial
  · obtain rfl := Option.some.inj hf
    trivial
  · cases hf

/-- A vault with one entry. -/
def mailVault : Vault :=
  { version := vaultVersion
    entries := [{ id := 1, title := "mail", username := none, password := "hunter2", url := none,
                  notes := none, tags := [], createdAt := 0, updatedAt := 0 }] }

/-- The desktop that is paired, with that vault. -/
def mailDesktop : Desk :=
  { files :=
      { volume :=
          ⟨pairedDirectory.put .vaultEnc (.vault { firstBlob with plaintext := mailVault }),
            pairedDirectory.put .vaultEnc (.vault { firstBlob with plaintext := mailVault }), []⟩
        temps := fun _ => none }
    session := none }

theorem mailVault_keyed : Keyed mailVault := by
  refine ⟨fun e he => ?_, ?_⟩
  · obtain rfl := List.mem_singleton.mp he
    decide +kernel
  · exact List.pairwise_singleton _ _

section

attribute [local instance] Crypto.plain

/-- The number of entries on disk. -/
def Desk.entryCount (s : Desk) : Option Nat :=
  match s.files.named .vaultEnc with
  | some (.vault blob) => some blob.plaintext.entries.length
  | _ => none

theorem Desk.entryCount_eq_some {s : Desk} {n : Nat} :
    s.entryCount = some n ↔ ∃ blob, s.files.named .vaultEnc = some (.vault blob) ∧
      blob.plaintext.entries.length = n := by
  unfold Desk.entryCount
  constructor
  · intro h
    split at h
    · next blob hblob => exact ⟨blob, hblob, Option.some.inj h⟩
    · cases h
  · rintro ⟨blob, hblob, rfl⟩
    rw [hblob]

/-- The titles in the vault of the session. -/
def Desk.titles (s : Desk) : List String :=
  (s.session.map fun s₀ => s₀.vault.entries.map (·.title)).getD []

theorem mailDesktop_holds : mailDesktop.files.Holds Keyed :=
  .settled ((pairedDirectory_holds Keyed.default).put mailVault_keyed)

/-- **An entry is added, and one is removed**, each in a new process: the
command has its effect on the vault it has loaded, and the titles are a
key. -/
theorem titles_stay_keys_edits : ∃ s₁ s₂ : History,
    succeeds "" (.add " bank ") mailDesktop = some s₁ ∧ s₁.state.titles = ["mail", "bank"] ∧
    succeeds "y" (.remove "Mail") mailDesktop = some s₂ ∧ s₂.state.titles = [] ∧
    (∃ v t, s₁.state.session = some t ∧ Performed (.add " bank ") s₁.past v t.vault ∧
      Keyed t.vault) ∧
    ∃ v t, s₂.state.session = some t ∧ Performed (.remove "Mail") s₂.past v t.vault ∧
      Keyed t.vault := by
  have hadd : (succeeds "" (.add " bank ") mailDesktop).map (·.state.titles) =
      some ["mail", "bank"] := by decide +kernel
  have hremove : (succeeds "y" (.remove "Mail") mailDesktop).map (·.state.titles) = some [] := by
    decide +kernel
  obtain ⟨s₁, h₁, ht₁⟩ := Option.map_eq_some_iff.mp hadd
  obtain ⟨s₂, h₂, ht₂⟩ := Option.map_eq_some_iff.mp hremove
  have hc : DeskReachable mailDesktop ⟨mailDesktop, none⟩ := ⟨rfl, .refl⟩
  have hkeyed {t : Desk} (ht : DeskReachable mailDesktop ⟨t, none⟩) :=
    (titles_stay_keys ht mailDesktop_holds).2.1
  have hgone := (titles_stay_keys hc mailDesktop_holds).2.2.2.2 rfl
  obtain ⟨v₁, t₁, -, hs₁, hp₁⟩ := hgone (.add " bank ") s₁ trivial (succeeds_outcome h₁)
  obtain ⟨v₂, t₂, -, hs₂, hp₂⟩ := hgone (.remove "Mail") s₂ trivial (succeeds_outcome h₂)
  refine ⟨s₁, s₂, h₁, ht₁, h₂, ht₂, ⟨v₁, t₁, hs₁, hp₁, ?_⟩, v₂, t₂, hs₂, hp₂, ?_⟩
  · exact (hkeyed (hc.succeeds (by decide) h₁) t₁ hs₁).1
  · exact (hkeyed (hc.succeeds (by decide) h₂) t₂ hs₂).1

end

section

variable [Crypto]

/-! ## Reopening -/

/-- **The bytes of a vault file are opened again**: they are loaded, the
salt in them is the given one, and the key opens the vault. -/
def Reopens (L : Sealing) (bytes : Bytes) (vaultKey : VaultKey) (vault : Vault)
    (vaultSalt : Salt) : Prop :=
  ∃ file, loadVaultBytes bytes = .ok file ∧ file.salt = vaultSalt ∧
    decryptVaultFile L file vaultKey = .ok vault

theorem Storable.reopens {L : Sealing} (hL : L.Faithful) {vault : Vault} (h : Storable vault)
    (vaultKey : VaultKey) (vaultSalt : Salt) (nonce : Nonce) :
    Reopens L (sealVaultBytes L vault vaultKey vaultSalt nonce) vaultKey vault vaultSalt := by
  have hblob : Storable (encryptVault vaultKey vaultSalt vault).plaintext := h
  obtain ⟨hload, hsalt, hopen⟩ := reopen_blob hL hblob nonce
  exact ⟨_, hload, hsalt, hopen⟩

/-- That a vault may be kept is kept. -/
theorem vaultProperty_storable (hdefault : Storable Vault.default) : VaultProperty Storable :=
  ⟨hdefault, fun _ _ _ h => h⟩

/-- **Every vault that is written is opened again as it was**, in every
run that starts with no session and no vault on disk, or none but such
as may be kept. What is in the place of the vault is loaded, and its key
opens the vault and the salt that were sealed. The vault of a session is
accepted by `save_vault_snapshot`, and whatever writer writes it, with
the checks or without, it is opened again; so is the empty vault that
`init` writes. And `save_vault_snapshot` refuses exactly the vaults that
are not valid or too long. -/
theorem written_vaults_reopen {L : Sealing} (hL : L.Faithful) {s : Desk}
    {c : Script.Config DeskCmd.Reply DeskOp Desk Anyhow Unit} (hc : DeskReachable s c)
    (hs : s.files.Holds Storable) :
    (∀ blob nonce, c.state.files.named .vaultEnc = some (.vault blob) →
      Reopens L (sealVaultBytes L blob.plaintext blob.key blob.salt nonce) blob.key blob.plaintext
        blob.salt ∧
      encryptedLength blob ≤ maxVaultEncryptedBytes ∧
      decryptVaultBlob blob blob.key = .ok blob.plaintext) ∧
    (∀ s₀, c.state.session = some s₀ → ∀ vaultKey vaultSalt nonce,
      saveVaultSnapshotBytes L s₀.vault vaultKey vaultSalt nonce =
        .ok (sealVaultBytes L s₀.vault vaultKey vaultSalt nonce) ∧
      Reopens L (sealVaultBytes L s₀.vault vaultKey vaultSalt nonce) vaultKey s₀.vault vaultSalt) ∧
    (∀ vaultKey vaultSalt nonce, Reopens L
      (sealVaultBytes L Vault.default vaultKey vaultSalt nonce) vaultKey Vault.default vaultSalt) ∧
    (∀ vault vaultKey vaultSalt nonce,
      ((∃ e, saveVaultSnapshotBytes L vault vaultKey vaultSalt nonce = .error e) ↔
        vault.validate ≠ .ok () ∨ maxVaultPlaintextBytes < (L.toVec vault).length) ∧
      (∀ bytes, saveVaultSnapshotBytes L vault vaultKey vaultSalt nonce = .ok bytes →
        Reopens L bytes vaultKey vault vaultSalt)) := by
  have hdefault := storable_default hL
  obtain ⟨hfiles, hsession⟩ := hc.inv (vaultProperty_storable hdefault) hs
  refine ⟨fun blob nonce hblob => ?_, fun s₀ hs₀ vaultKey vaultSalt nonce => ?_,
    hdefault.reopens hL, fun vault vaultKey vaultSalt nonce => ⟨?_, fun bytes hbytes => ?_⟩⟩
  · have hstorable : Storable blob.plaintext := hfiles.volume.live _ _ hblob
    exact ⟨hstorable.reopens hL _ _ _, Nat.add_le_add_right hstorable.2 _,
      decryptVaultBlob_eq_ok_iff.mpr ⟨rfl, rfl, hstorable⟩⟩
  · have hstorable := hsession s₀ hs₀
    exact ⟨(saveVaultSnapshotBytes_eq_ok_iff hL).mpr ⟨hstorable, rfl⟩, hstorable.reopens hL _ _ _⟩
  · have hrefused : (∃ e, saveVaultSnapshotBytes L vault vaultKey vaultSalt nonce = .error e) ↔
        ¬ Storable vault := by
      cases h : saveVaultSnapshotBytes L vault vaultKey vaultSalt nonce with
      | error e =>
        refine ⟨fun _ hstorable => ?_, fun _ => ⟨e, rfl⟩⟩
        cases h.symm.trans ((saveVaultSnapshotBytes_eq_ok_iff hL).mpr ⟨hstorable, rfl⟩)
      | ok bytes =>
        refine ⟨nofun, fun hnot => absurd ?_ hnot⟩
        exact ((saveVaultSnapshotBytes_eq_ok_iff hL).mp h).1
    rw [hrefused]
    unfold Storable
    rw [hL.length, Classical.not_and_iff_not_or_not, Nat.not_le]
  · obtain ⟨hstorable, rfl⟩ := (saveVaultSnapshotBytes_eq_ok_iff hL).mp hbytes
    exact hstorable.reopens hL _ _ _

end

section

attribute [local instance] Crypto.json

/-- The vault that is saved with a new entry is opened again, from its place
and from the bytes that the session is saved as. -/
theorem written_vaults_reopen_add : ∃ s₁ : History,
    succeeds "" (.add "bank") pairedDesktop.desk = some s₁ ∧ s₁.state.titles = ["bank"] ∧
    ∃ s₀ blob, s₁.state.session = some s₀ ∧ s₁.state.files.named .vaultEnc = some (.vault blob) ∧
      blob.plaintext.entries.length = 1 ∧
      Reopens Sealing.plain (sealVaultBytes Sealing.plain blob.plaintext blob.key blob.salt
        (Vector.replicate 24 0)) blob.key blob.plaintext blob.salt ∧
      Reopens Sealing.plain (sealVaultBytes Sealing.plain s₀.vault s₀.vaultKey s₀.vaultSalt
        (Vector.replicate 24 0)) s₀.vaultKey s₀.vault s₀.vaultSalt := by
  have hrun : (succeeds "" (.add "bank") pairedDesktop.desk).map (fun s => (s.state.titles,
      s.state.session.isSome, s.state.entryCount)) = some (["bank"], true, some 1) := by
    decide +kernel
  obtain ⟨s₁, h₁, hrun⟩ := Option.map_eq_some_iff.mp hrun
  obtain ⟨htitles, hsome, hcount⟩ : s₁.state.titles = ["bank"] ∧
      s₁.state.session.isSome = true ∧ s₁.state.entryCount = some 1 := by simpa using hrun
  obtain ⟨s₀, hs₀⟩ := Option.isSome_iff_exists.mp hsome
  obtain ⟨blob, hblob, hone⟩ := Desk.entryCount_eq_some.mp hcount
  have hc : DeskReachable pairedDesktop.desk ⟨s₁.state, none⟩ :=
    DeskReachable.succeeds ⟨rfl, .refl⟩ (by decide) h₁
  have hholds : pairedDesktop.desk.files.Holds Storable :=
    .settled (pairedDirectory_holds (storable_default Sealing.plain_faithful))
  obtain ⟨hdisk, hsession, -⟩ := written_vaults_reopen Sealing.plain_faithful hc hholds
  exact ⟨s₁, h₁, htitles, s₀, blob, hs₀, hblob, hone, (hdisk blob _ hblob).1,
    (hsession s₀ hs₀ _ _ _).2⟩

end

end Desktop
