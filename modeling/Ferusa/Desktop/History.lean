import Ferusa.Lib.History
import Ferusa.Desktop.Titles
import Ferusa.Desktop.Blob

/-!
# What a command may do, given what it has done

One process of the command line, each of its commands remembering the
system calls, the questions and the answers since it started
(`Ferusa.Lib.History`). `May` says when a command may make the next one:
a password is copied and a vault is written only after the phone has
accepted, since the command started, a request for this very action
(`Granted`), and what is written is what the command makes of the vault
of the session.

What is said of the vaults themselves is a parameter, a property `G`
that the commands keep: every vault on disk and in memory has it
(`VaultInv`).
-/

namespace Desktop

open Logic DeskProg

/-! ## Vaults on disk -/

/-- The vault in some contents has the property. -/
def Content.Holds (G : Vault → Prop) : Content → Prop
  | .vault blob => G blob.plaintext
  | _ => True

/-- Every vault in a directory has the property. -/
def Directory.Holds (G : Vault → Prop) (v : Directory) : Prop :=
  ∀ f contents, v f = some contents → contents.Holds G

/-- **Every vault on disk has the property**, whether it is seen, or
survives a stop, or waits in a temporary file. -/
structure Files.Holds (G : Vault → Prop) (s : Files) : Prop where
  volume : s.volume.Always Directory.apply (Directory.Holds G)
  temps : ∀ t file contents, s.temps t = some file → file.contents = some contents →
    contents.Holds G

variable {G : Vault → Prop}

theorem Directory.Holds.put {v : Directory} (h : v.Holds G) {f : FileName} {contents : Content}
    (hc : contents.Holds G) : (v.put f contents).Holds G := by
  intro g c hg
  rw [put_apply] at hg
  split at hg
  · obtain rfl := Option.some.inj hg
    exact hc
  · exact h g c hg

theorem Directory.Holds.drop {v : Directory} (h : v.Holds G) {f : FileName} :
    (v.drop f).Holds G := by
  intro g c hg
  rw [drop_apply] at hg
  split at hg
  · cases hg
  · exact h g c hg

theorem Directory.Holds.move {v : Directory} (h : v.Holds G) {f g : FileName} :
    (v.move f g).Holds G := by
  unfold Directory.move
  cases hf : v f with
  | none => exact h
  | some contents => exact h.drop.put (h f contents hf)

theorem Files.Holds.setTemp {s : Files} (h : s.Holds G) {t : Temp} {file : Option TempFile}
    (hfile : ∀ file' contents, file = some file' → file'.contents = some contents →
      contents.Holds G) : (s.setTemp t file).Holds G := by
  refine ⟨h.volume, fun u file' contents hu hc => ?_⟩
  rw [Files.setTemp_temps] at hu
  split at hu
  · exact hfile file' contents hu hc
  · exact h.temps u file' contents hu hc

theorem Files.Holds.change {s : Files} (h : s.Holds G) {c : Change}
    (hc : ∀ v : Directory, v.Holds G → (Directory.apply c v).Holds G) : (s.change c).Holds G :=
  ⟨h.volume.change hc, h.temps⟩

/-- What a temporary file leaves in its place. -/
theorem TempFile.placed_holds {file : TempFile}
    (h : ∀ contents, file.contents = some contents → contents.Holds G) : file.placed.Holds G := by
  unfold placed
  split
  · cases hc : file.contents with
    | none => trivial
    | some contents => exact h contents hc
  · trivial

theorem Files.Holds.quiet {s : Files} (h : s.Holds G) {c : QuietCmd}
    (hc : ∀ t contents, c = .writeAll t contents → contents.Holds G) : (s.quiet c).Holds G := by
  cases c with
  | writeAll t contents =>
    refine h.setTemp fun file' contents' hf hc' => ?_
    obtain rfl := Option.some.inj hf
    obtain rfl := Option.some.inj hc'
    exact hc t _ rfl
  | syncAll t =>
    refine h.setTemp fun file' contents hf hc' => ?_
    obtain ⟨file, hfile, rfl⟩ := Option.map_eq_some_iff.mp hf
    exact h.temps t file contents hfile hc'
  | removeTemp t => exact h.setTemp fun _ _ hf _ => nomatch hf
  | _ => exact h

/-- **What a system call may do to the files**: nothing, or what it is
for. -/
def Files.Effect (s : Files) : FileCmd → Files → Prop
  | .quiet c, s' => s' = s.quiet c
  | .create f, s' => ∃ nonce, s' = s.setTemp ⟨f, nonce⟩ (some ⟨none, false⟩)
  | .renameTemp t f, s' => ∃ file, s.temps t = some file ∧
      s' = (s.setTemp t none).change (.put f file.placed)
  | .rename f g, s' => s' = s.change (.move f g)
  | .remove f, s' => s' = s.change (.drop f)
  | .syncParent, s' => s' = s.sync
  | _, _ => False

theorem Files.exec_effect {s s' : Files} {c : FileCmd} {o : FileChoice} {r : c.Reply}
    (hx : Files.exec c o s = some (r, s')) : s' = s ∨ s.Effect c s' := by
  cases o with
  | fail e =>
    cases c with
    | «exists» f => simp [Files.exec] at hx
    | remove f =>
      cases e with
      | notFound => simp [Files.exec] at hx
      | _ => exact .inl (Prod.mk.inj (Option.some.inj hx)).2.symm
    | _ => exact .inl (Prod.mk.inj (Option.some.inj hx)).2.symm
  | ok nonce =>
    cases c with
    | quiet c => exact .inr (Prod.mk.inj (Option.some.inj hx)).2.symm
    | «exists» f => exact .inl (Prod.mk.inj (Option.some.inj hx)).2.symm
    | read f =>
      cases hf : s.named f <;> simp only [Files.exec, hf] at hx <;>
        exact .inl (Prod.mk.inj (Option.some.inj hx)).2.symm
    | create f =>
      cases ht : s.temps ⟨f, nonce⟩ <;> simp only [Files.exec, ht, reduceCtorEq] at hx
      exact .inr ⟨nonce, (Prod.mk.inj (Option.some.inj hx)).2.symm⟩
    | renameTemp t f =>
      cases ht : s.temps t <;> simp only [Files.exec, ht] at hx
      · exact .inl (Prod.mk.inj (Option.some.inj hx)).2.symm
      · exact .inr ⟨_, ht, (Prod.mk.inj (Option.some.inj hx)).2.symm⟩
    | rename f g =>
      simp only [Files.exec] at hx
      split at hx
      · exact .inr (Prod.mk.inj (Option.some.inj hx)).2.symm
      · exact .inl (Prod.mk.inj (Option.some.inj hx)).2.symm
    | remove f =>
      simp only [Files.exec] at hx
      split at hx
      · exact .inr (Prod.mk.inj (Option.some.inj hx)).2.symm
      · exact .inl (Prod.mk.inj (Option.some.inj hx)).2.symm
    | syncParent => exact .inr (Prod.mk.inj (Option.some.inj hx)).2.symm

/-- **A system call keeps a property of all vaults** unless it writes a
vault without it. -/
theorem Files.Holds.exec {s s' : Files} (h : s.Holds G) {c : FileCmd} {o : FileChoice}
    {r : c.Reply} (hx : Files.exec c o s = some (r, s'))
    (hc : ∀ t contents, c = .quiet (.writeAll t contents) → contents.Holds G) : s'.Holds G := by
  obtain rfl | heffect := Files.exec_effect hx
  · exact h
  cases c with
  | quiet c =>
    obtain rfl := heffect
    exact h.quiet fun t contents he => hc t contents (he ▸ rfl)
  | create f =>
    obtain ⟨nonce, rfl⟩ := heffect
    refine h.setTemp fun file contents hf hc' => ?_
    obtain rfl := Option.some.inj hf
    cases hc'
  | renameTemp t f =>
    obtain ⟨file, hfile, rfl⟩ := heffect
    have hgone : (s.setTemp t none).Holds G := h.setTemp fun _ _ hf _ => nomatch hf
    refine hgone.change ?_
    exact fun v hv => hv.put
      (TempFile.placed_holds fun contents => h.temps t file contents hfile)
  | rename f g =>
    obtain rfl := heffect
    refine h.change ?_
    exact fun v hv => hv.move
  | remove f =>
    obtain rfl := heffect
    refine h.change ?_
    exact fun v hv => hv.drop
  | syncParent =>
    obtain rfl := heffect
    exact ⟨h.volume.sync, h.temps⟩
  | _ => exact heffect.elim

/-- What is read is what is there. -/
theorem Files.exec_read {s s' : Files} {f : FileName} {o : FileChoice} {contents : Content}
    (hx : Files.exec (.read f) o s = some (.ok contents, s')) : s.named f = some contents := by
  cases o with
  | fail e => simp [Files.exec] at hx
  | ok nonce =>
    cases hf : s.named f with
    | none => simp [Files.exec, hf] at hx
    | some contents' =>
      obtain ⟨rfl, -⟩ : contents' = contents ∧ s = s' := by simpa [Files.exec, hf] using hx
      rfl

/-- A temporary file is made for the file that was named. -/
theorem Files.exec_create {s s' : Files} {f : FileName} {o : FileChoice} {t : Temp}
    (hx : Files.exec (.create f) o s = some (.ok t, s')) : t.file = f := by
  cases o with
  | fail e => simp [Files.exec] at hx
  | ok nonce =>
    cases ht : s.temps ⟨f, nonce⟩ with
    | some file => simp [Files.exec, ht] at hx
    | none =>
      obtain ⟨rfl, -⟩ : ⟨f, nonce⟩ = t ∧ s.setTemp ⟨f, nonce⟩ (some ⟨none, false⟩) = s' := by
        simpa [Files.exec, ht] using hx
      rfl

/-- A file that is there exists. -/
theorem Files.exec_exists {s s' : Files} {f : FileName} {o : FileChoice} {b : Bool}
    (hx : Files.exec (FileCmd.exists f) o s = some (b, s')) : b = (s.named f).isSome := by
  cases o with
  | fail e => simp [Files.exec] at hx
  | ok nonce => exact (Prod.mk.inj (Option.some.inj hx)).1.symm

/-! ## What was approved -/

/-- The action and the title that a command asks the phone to approve. -/
def DeskOp.request : DeskOp → VaultAction × Option String
  | .list => (.list, none)
  | .get title => (.read, some title)
  | .add title => (.create, some title)
  | .edit title => (.update, some title)
  | .remove title => (.delete, some title)
  | .passwd => (.passwd, none)
  | .pair => (.pair, none)
  | _ => (.unlock, none)

/-- The desktop, with what the command under way has done. -/
abbrev History := Recorded DeskCmd.Reply Desk

/-- **What a command does**, whatever is outside and whatever call
fails. -/
def Desk.Exec (c : DeskCmd) (s : Desk) (r : c.Reply) (s' : Desk) : Prop :=
  ∃ o, Desk.exec c o s = some (r, s')

/-- The answer of a desktop that remembers. -/
def History.answer (c : DeskCmd) (o : DeskChoice) (s : History) : Option (c.Reply × History) :=
  (Desk.exec c o s.state).map fun x => (x.1, ⟨x.2, ⟨c, x.1⟩ :: s.past⟩)

theorem History.answer_exec (c : DeskCmd) (o : DeskChoice) (s : History) (r : c.Reply)
    (s' : History) (h : History.answer c o s = some (r, s')) :
    Recorded.exec Desk.Exec c s r s' := by
  unfold answer at h
  obtain ⟨x, hx, heq⟩ := Option.map_eq_some_iff.mp h
  cases heq
  exact ⟨⟨o, hx⟩, rfl⟩

/-- The pairing is recorded. -/
def Desk.Paired (s : Desk) : Prop :=
  (s.files.named .pairingState).isSome = true

section

variable [Crypto]

/-- **A response by which the phone of a pairing approves a request.** -/
structure Approves (pairing : PairingData) (req : AuthRequest) (resp : AuthResponse) : Prop where
  generation : req.pairingId = pairing.pairingId ∧ resp.pairingId = pairing.pairingId
  requestId : resp.requestId = req.requestId
  signature : verifyApprovalSignature pairing.approvalPublicKeyDer req resp = true
  correlationCode : resp.correlationCode = req.correlationCode
  action : resp.action = req.action
  approved : resp.approved = true

/-- **A request for an action and a title was approved** among what was
done, white space around the title aside. -/
def Accepted (pairing : PairingData) (action : VaultAction) (title : Option String)
    (past : List (Event DeskCmd.Reply)) : Prop :=
  ∃ req resp, (⟨.env (.sendAuthRequest pairing.phoneNodeId req), .ok resp⟩ :
      Event DeskCmd.Reply) ∈ past ∧
    req.action = action ∧ req.entryTitle.map trim = title.map trim ∧ Approves pairing req resp

/-- The phone of the session has approved. -/
def SessionState.Granted (s₀ : SessionState) (request : VaultAction × Option String)
    (past : List (Event DeskCmd.Reply)) : Prop :=
  ∃ pairing, s₀.pairing = some pairing ∧ Accepted pairing request.1 request.2 past

/-- **The phone has approved what a command is for**, since the command
started. -/
def Granted (op : DeskOp) (s : History) : Prop :=
  ∃ s₀, s.state.session = some s₀ ∧ s₀.Granted op.request s.past

/-! ## What may be written -/

/-- **A property the commands keep**: the empty vault has it, and so has
what a command makes of a vault that has it, if it may be kept. -/
structure VaultProperty (G : Vault → Prop) : Prop where
  default : G Vault.default
  revised : ∀ {op v v'}, op.Saves → G v → Revises op v v' → Storable v' → G v'

/-- **What a command may write**: a vault with the property; in the
place of the vault what an approved command makes of the session's; as
the vault of a new generation the session's, under approval, or the
empty one; nothing in the place of the recorded pairing; and a
transaction only to replace it, under approval, or for the first one. -/
structure Writes (G : Vault → Prop) (op : DeskOp) (s : History) (f : FileName)
    (contents : Content) : Prop where
  good : contents.Holds G
  saved : f = .vaultEnc → op.Saves ∧ Granted op s ∧ ∃ s₀ blob, s.state.session = some s₀ ∧
    contents = .vault blob ∧ Revises op s₀.vault blob.plaintext
  pending : f = .pendingVaultEnc → ∃ blob, contents = .vault blob ∧
    ((op = .pair ∧ Granted op s ∧ ∃ s₀, s.state.session = some s₀ ∧ blob.plaintext = s₀.vault) ∨
      (op = .init ∧ blob.plaintext = Vault.default))
  pairing : f ≠ .pairingState
  prepared : f = .pairingTransactionState → ∀ file, contents = .transaction file →
    file.phase = .prepared → (op = .pair ∧ Granted op s) ∨ op = .init

/-- **What a command may do to the files**: write what it may write, and
leave the recorded pairing in its place unless the pending one takes
it. -/
def MayFile (G : Vault → Prop) (op : DeskOp) (s : History) : FileCmd → Prop
  | .quiet (.writeAll t contents) => Writes G op s t.file contents
  | .renameTemp t f => t.file = f ∧ ∃ contents, Writes G op s f contents
  | .rename f g => f ≠ .pairingState ∧ (g = .vaultEnc → f = .pendingVaultEnc) ∧
      (g = .pairingState → f = .pendingPairingState)
  | .remove f => f ≠ .pairingState
  | _ => True

/-- **What a session may become**: a vault with the property, in the
presence of a recorded pairing, that is the vault it was or what the
command makes of it. -/
structure Becomes (G : Vault → Prop) (op : DeskOp) (s : History) (s₁ : SessionState) : Prop where
  good : G s₁.vault
  paired : s.state.Paired
  vault : ∀ s₀, s.state.session = some s₀ →
    s₁.vault = s₀.vault ∨ (op.Saves ∧ Revises op s₀.vault s₁.vault)

/-- **When a command may put the next one.** -/
def May (G : Vault → Prop) (op : DeskOp) : DeskCmd → History → Prop
  | .file c, s => MayFile G op s c
  | .env (.copyPassword password), s => Granted op s ∧ ∃ title s₀ e, op = .get title ∧
      s.state.session = some s₀ ∧ Vault.find s₀.vault title = some e ∧ password = e.password
  | .env _, _ => True
  | .getSession, _ => True
  | .setSession sess, s => ∀ s₁, sess = some s₁ → Becomes G op s s₁

/-- **What holds throughout**: every vault has the property, and a
session that is open has a recorded pairing. -/
structure VaultInv (G : Vault → Prop) (s : History) : Prop where
  files : s.state.files.Holds G
  session : ∀ s₀, s.state.session = some s₀ → G s₀.vault ∧ s.state.Paired

/-- The recorded pairing stays. -/
theorem Desk.Paired.exec {op : DeskOp} {h : History} {s s' : Desk} (hp : s.Paired) {c : DeskCmd}
    {r : c.Reply} (hx : Desk.Exec c s r s') (hmay : May G op c h) : s'.Paired := by
  obtain ⟨o, hx⟩ := hx
  cases c with
  | file c =>
    obtain ⟨⟨r', f⟩, hf, hrf⟩ := Option.map_eq_some_iff.mp hx
    obtain ⟨rfl, rfl⟩ := Prod.mk.inj hrf
    show (f.named .pairingState).isSome = true
    have hp : (s.files.named .pairingState).isSome = true := hp
    obtain rfl | heffect := Files.exec_effect hf
    · exact hp
    cases c with
    | quiet c =>
      obtain rfl := heffect
      show ((s.files.quiet c).volume.live .pairingState).isSome = true
      rw [Files.quiet_volume]
      exact hp
    | create f =>
      obtain ⟨nonce, rfl⟩ := heffect
      exact hp
    | renameTemp t f =>
      obtain ⟨file, -, rfl⟩ := heffect
      show ((Directory.put s.files.named f file.placed) .pairingState).isSome = true
      rw [Directory.put_apply]
      split
      · rfl
      · exact hp
    | rename f g =>
      obtain rfl := heffect
      have hne : f ≠ .pairingState := hmay.1
      show ((Directory.move s.files.named f g) .pairingState).isSome = true
      cases hf : s.files.named f with
      | none =>
        rw [Directory.move, hf]
        exact hp
      | some contents =>
        rw [Directory.move_eq g hf, Directory.put_apply]
        split
        · rfl
        · rw [Directory.drop_apply, if_neg hne.symm]
          exact hp
    | remove f =>
      obtain rfl := heffect
      have hne : f ≠ .pairingState := hmay
      show ((Directory.drop s.files.named f) .pairingState).isSome = true
      rw [Directory.drop_apply, if_neg hne.symm]
      exact hp
    | syncParent =>
      obtain rfl := heffect
      exact hp
    | _ => exact heffect.elim
  | env c =>
    obtain ⟨-, rfl⟩ := Prod.mk.inj (Option.some.inj hx)
    exact hp
  | getSession =>
    obtain ⟨-, rfl⟩ := Prod.mk.inj (Option.some.inj hx)
    exact hp
  | setSession sess =>
    obtain ⟨-, rfl⟩ := Prod.mk.inj (Option.some.inj hx)
    exact hp

/-- **The invariant is kept** by everything a command may do. -/
theorem VaultInv.step {op : DeskOp} {s s' : History} (h : VaultInv G s)
    (hs : Recorded.Performed Desk.Exec (May G op) s s') : VaultInv G s' := by
  obtain ⟨c, r, ⟨hx, -⟩, hmay⟩ := hs
  have hpaired (hp : s.state.Paired) : s'.state.Paired := hp.exec hx hmay
  obtain ⟨o, hx⟩ := hx
  cases c with
  | file c =>
    obtain ⟨⟨r', f⟩, hf, hrf⟩ := Option.map_eq_some_iff.mp hx
    obtain ⟨-, hs'⟩ := Prod.mk.inj hrf
    refine ⟨?_, fun s₀ hs₀ => ?_⟩
    · rw [← hs']
      refine h.files.exec hf ?_
      rintro t contents rfl
      exact Writes.good hmay
    · rw [← hs'] at hs₀
      exact ⟨(h.session s₀ hs₀).1, hpaired (h.session s₀ hs₀).2⟩
  | env c =>
    obtain ⟨-, hs'⟩ := Prod.mk.inj (Option.some.inj hx)
    exact ⟨hs' ▸ h.files, fun s₀ hs₀ => hs' ▸ h.session s₀ (hs' ▸ hs₀)⟩
  | getSession =>
    obtain ⟨-, hs'⟩ := Prod.mk.inj (Option.some.inj hx)
    exact ⟨hs' ▸ h.files, fun s₀ hs₀ => hs' ▸ h.session s₀ (hs' ▸ hs₀)⟩
  | setSession sess =>
    obtain ⟨-, hs'⟩ := Prod.mk.inj (Option.some.inj hx)
    refine ⟨?_, fun s₁ hs₁ => ?_⟩
    · rw [← hs']
      exact h.files
    · rw [← hs'] at hs₁
      have hbecomes : Becomes G op s s₁ := hmay s₁ hs₁
      exact ⟨hbecomes.good, hpaired hbecomes.paired⟩

end

end Desktop
