import Ferusa.Desktop.PathsSpec
import Ferusa.Desktop.Commands

/-!
# Reasoning about desktop programs

A desktop program runs against an outside: users, clocks, connections, a
phone. What is known of the outside is a parameter (`Outside`): how it
answers, what it does on its own, and what follows from an answer – that
a connection is new, that a generation was offered over it, that the
phone has shown its key, that it has acknowledged a step. The programs
are proved once for every outside. One that may answer anything gives
what holds of the desktop alone; the one that holds the phone and the
messages under way gives what holds of both.

`DeskStep` is what one command of a desktop program may do: a listed
change of the directory, for which what it was called for is known, a
change of the session, or an exchange with the outside, where a
transition of a pairing is only ever requested for the recorded
transaction.
-/

namespace Desktop

/-- The desktop and what is outside. -/
structure World (ν : Type) where
  desk : Desk
  out : ν

namespace World

variable {ν : Type} (s : World ν)

/-- The data directory as it is seen. -/
def dir : Directory := s.desk.files.named

/-- The session. -/
def session : Option SessionState := s.desk.session

end World

/-- **What is known of the outside.** -/
structure Outside (ν : Type) where
  /-- What holds of the desktop and the outside together. -/
  inv : World ν → Prop
  /-- Whether the vault may be saved other than by a pairing. -/
  saves : Prop
  /-- How the outside answers. -/
  exec : (c : EnvCmd) → ν → c.Reply → ν → Prop
  /-- What is noted of a change of the files. -/
  note : Files → Files → ν → ν
  /-- What the outside does on its own. -/
  rely : ν → ν → Prop
  rely_refl : ∀ x, rely x x
  rely_trans : ∀ {x y z}, rely x y → rely y z → rely x z
  /-- No transaction was recorded over the connection, which leads to
  the given node. -/
  Fresh : Conn → Bytes32 → ν → Prop
  /-- The generation was offered over the connection. -/
  Offered : Conn → PairingHello → ν → Prop
  /-- The phone has shown over the connection that it holds the key. -/
  Ready : Conn → Uuid → ν → Prop
  /-- The phone has sent the acknowledgement. -/
  Acked : FerusaMessage → ν → Prop
  fresh_rely : ∀ {conn node x y}, rely x y → Fresh conn node x → Fresh conn node y
  offered_rely : ∀ {conn hello x y}, rely x y → Offered conn hello x → Offered conn hello y
  ready_rely : ∀ {conn id x y}, rely x y → Ready conn id x → Ready conn id y
  acked_rely : ∀ {m x y}, rely x y → Acked m x → Acked m y
  /-- The answers to one command are among what the outside may do, as
  far as what is known goes. -/
  exec_fresh : ∀ {c x r y conn node}, exec c x r y → Fresh conn node x → Fresh conn node y
  exec_offered : ∀ {c x r y conn hello}, exec c x r y → Offered conn hello x →
    Offered conn hello y
  exec_ready : ∀ {c x r y conn id}, exec c x r y → Ready conn id x → Ready conn id y
  exec_acked : ∀ {c x r y m}, exec c x r y → Acked m x → Acked m y
  note_fresh : ∀ {f f' conn node x}, (f.named.NoRecord → f'.named.NoRecord) →
    Fresh conn node x → Fresh conn node (note f f' x)
  note_offered : ∀ {f f' conn hello x}, Offered conn hello x → Offered conn hello (note f f' x)
  note_ready : ∀ {f f' conn id x}, Ready conn id x → Ready conn id (note f f' x)
  note_acked : ∀ {f f' m x}, Acked m x → Acked m (note f f' x)
  accept : ∀ {s conn node y}, inv s → exec .acceptPhone s.out (.ok (conn, node)) y →
    Fresh conn node y
  hello : ∀ {s conn node hello y}, inv s → Fresh conn node s.out →
    exec (.receive conn) s.out (.ok (.pairingHello hello)) y → Offered conn hello y
  ready : ∀ {s conn node id signature y}, inv s → Fresh conn node s.out →
    exec (.receive conn) s.out (.ok (.pairingReady id signature)) y → Ready conn id y
  commitAck : ∀ {s conn id y}, inv s →
    exec (.receive conn) s.out (.ok (.pairingCommitAck id)) y → Acked (.pairingCommitAck id) y
  activateAck : ∀ {s conn id y}, inv s →
    exec (.receive conn) s.out (.ok (.pairingActivateAck id)) y →
    Acked (.pairingActivateAck id) y

/-- Where a storage call may fail, by session and directory. -/
abbrev Faults := Option SessionState → Directory → Prop

/-- **The session is that of the files**: its keys are those of the
vault, its pairing the recorded one. -/
structure Matched (sess : SessionState) (v : Directory) : Prop where
  vault : ∃ blob, v .vaultEnc = some (.vault blob) ∧ blob.key = sess.vaultKey ∧
    blob.salt = sess.vaultSalt
  pairing : ∃ data, v .pairingState = some (.pairing { version := 3, data }) ∧
    sess.pairing = some data
  key : sess.vaultKey = combineVaultKey sess.localSecret sess.phoneShare

/-- **The session and the files are of one generation**: the pairing is
the recorded one, and the vault is sealed under the same phone share. -/
structure SameGeneration (sess : SessionState) (v : Directory) : Prop where
  share : ∃ blob, v .vaultEnc = some (.vault blob) ∧ blob.key.phoneShare = sess.phoneShare
  pairing : ∃ data, v .pairingState = some (.pairing { version := 3, data }) ∧
    sess.pairing = some data

/-- **Nothing fails once a replacement is over but for the session**:
the transaction is gone, and the files are of another generation than
the session. -/
def Careful (faults : Faults) : Prop :=
  ∀ sess v, v.NoRecord → ¬ SameGeneration sess v → ¬ faults (some sess) v

variable {ν : Type}

/-- **What has to be known** for a change to be made. -/
def Outside.Allows (O : Outside ν) (faults : Faults) (s : World ν) : FileOp → Prop
  | .recover => True
  | .stage _ _ => True
  | .prepare blob data => s.dir.NoRecord → ∃ conn node hello, O.Fresh conn node s.out ∧
      O.Offered conn hello s.out ∧ O.Ready conn hello.pairingId s.out ∧
      data.pairingId = hello.pairingId ∧
      data.approvalPublicKeyDer = hello.approvalPublicKeyDer ∧ data.phoneNodeId = node ∧
      blob.key.phoneShare = hello.phoneShare
  | .advance .phoneCommitted id => O.Acked (.pairingCommitAck id) s.out
  | .advance .fullyActivated id => O.Acked (.pairingActivateAck id) s.out
  | .advance _ _ => False
  | .save blob => O.saves ∧ (Careful faults → ∃ old, s.dir .vaultEnc = some (.vault old) ∧
      old.key.phoneShare = blob.key.phoneShare)

/-- **What has to be recorded** for a message to be sent. -/
def Sendable (v : Directory) : EnvCmd → Prop
  | .send _ (.pairingCommit id) => ∃ file, v.Records file ∧ file.pairingId = id
  | .send _ (.pairingActivate id) => ∃ file, v.Records file ∧ file.pairingId = id ∧
      file.phase = .locallyActivated
  | _ => True

/-- **What one command of a desktop program may do.** -/
inductive DeskStep (O : Outside ν) (faults : Faults) : World ν → World ν → Prop
  | files {s op f} (h : FilesStep (faults s.session) op s.desk.files f)
      (hop : O.Allows faults s op) :
      DeskStep O faults s ⟨{ s.desk with files := f }, O.note s.desk.files f s.out⟩
  | session {s sess} : DeskStep O faults s ⟨{ s.desk with session := sess }, s.out⟩
  | env {s c r out} (h : O.exec c s.out r out) (hsend : Sendable s.dir c) :
      DeskStep O faults s ⟨s.desk, out⟩

/-- **What a command does**, in front of an outside. -/
def Outside.DeskExec (O : Outside ν) (faults : Faults) :
    (c : DeskCmd) → World ν → c.Reply → World ν → Prop
  | .file c, s, r, s' => ∃ o f, Files.exec c o s.desk.files = some (r, f) ∧
      (∀ e, o = .fail e → faults s.session s.dir) ∧
      s' = ⟨{ s.desk with files := f }, O.note s.desk.files f s.out⟩
  | .env c, s, r, s' => ∃ out, O.exec c s.out r out ∧ s' = ⟨s.desk, out⟩
  | .getSession, s, r, s' => r = s.session ∧ s' = s
  | .setSession sess, s, _, s' => s' = ⟨{ s.desk with session := sess }, s.out⟩

/-- **The setting of a desktop program**: nobody else touches the
desktop. -/
def deskLogic (O : Outside ν) (faults : Faults) : Logic DeskCmd.Reply (World ν) where
  exec := O.DeskExec faults
  inv := O.inv
  rely s s' := s'.desk = s.desk ∧ O.rely s.out s'.out
  guar := DeskStep O faults
  rely_refl s := ⟨rfl, O.rely_refl s.out⟩
  rely_trans h h' := ⟨h'.1.trans h.1, O.rely_trans h.2 h'.2⟩

/-! ## What is known of the outside lasts -/

/-- **Knowledge that lasts** while no transaction is being recorded. -/
structure Outside.Lasts (O : Outside ν) (K : ν → Prop) : Prop where
  rely : ∀ {x y}, O.rely x y → K x → K y
  exec : ∀ {c x r y}, O.exec c x r y → K x → K y
  note : ∀ {f f' x}, (f.named.NoRecord → f'.named.NoRecord) → K x → K (O.note f f' x)

variable {O : Outside ν} {faults : Faults} {K K' : ν → Prop}

theorem Outside.Lasts.nothing (O : Outside ν) : O.Lasts fun _ => True :=
  ⟨fun _ h => h, fun _ h => h, fun _ h => h⟩

theorem Outside.Lasts.and (h : O.Lasts K) (h' : O.Lasts K') : O.Lasts fun x => K x ∧ K' x :=
  ⟨fun hr hx => ⟨h.rely hr hx.1, h'.rely hr hx.2⟩,
    fun he hx => ⟨h.exec he hx.1, h'.exec he hx.2⟩,
    fun hn hx => ⟨h.note hn hx.1, h'.note hn hx.2⟩⟩

theorem Outside.Lasts.fresh (O : Outside ν) (conn : Conn) (node : Bytes32) :
    O.Lasts (O.Fresh conn node) :=
  ⟨O.fresh_rely, O.exec_fresh, O.note_fresh⟩

theorem Outside.Lasts.offered (O : Outside ν) (conn : Conn) (hello : PairingHello) :
    O.Lasts (O.Offered conn hello) :=
  ⟨O.offered_rely, O.exec_offered, fun _ => O.note_offered⟩

theorem Outside.Lasts.ready (O : Outside ν) (conn : Conn) (id : Uuid) :
    O.Lasts (O.Ready conn id) :=
  ⟨O.ready_rely, O.exec_ready, fun _ => O.note_ready⟩

theorem Outside.Lasts.acked (O : Outside ν) (m : FerusaMessage) : O.Lasts (O.Acked m) :=
  ⟨O.acked_rely, O.exec_acked, fun _ => O.note_acked⟩

/-! ## Rules -/

open Logic DeskProg

variable {α : Type} {sess : Option SessionState} {v : Directory} {op : FileOp}
  {X : Directory → Prop}

/-- **The session and the directory are known**, and something of the
outside. -/
structure At (faults : Faults) (sess : Option SessionState) (v : Directory) (K : ν → Prop)
    (s : World ν) : Prop where
  session : s.session = sess
  files : Snapshot (faults sess) v s.desk.files
  known : K s.out

/-- The same, of a directory of which a property is known. -/
def Somewhere (faults : Faults) (sess : Option SessionState) (X : Directory → Prop)
    (K : ν → Prop) (s : World ν) : Prop :=
  ∃ w, X w ∧ At faults sess w K s

theorem stable_at (hK : O.Lasts K) :
    (deskLogic O faults).Stable (At faults sess v K) := by
  rintro s s' - ⟨h₁, h₂, h₃⟩ ⟨hdesk, hout⟩ -
  refine ⟨?_, ?_, hK.rely hout h₃⟩
  · rw [World.session, hdesk]
    exact h₁
  · rw [hdesk]
    exact h₂

theorem stable_somewhere (hK : O.Lasts K) :
    (deskLogic O faults).Stable (Somewhere faults sess X K) :=
  Stable.exists fun _ => (Stable.const _ _).and (stable_at hK)

theorem At.dir {s : World ν} (h : At faults sess v K s) : s.dir = v := h.files.1

theorem At.somewhere {s : World ν} (h : At faults sess v K s) (hX : X v) :
    Somewhere faults sess X K s := ⟨v, hX, h⟩

theorem At.mono {s : World ν} (h : At faults sess v K s) (hK : ∀ x, K x → K' x) :
    At faults sess v K' s := ⟨h.session, h.files, hK _ h.known⟩

/-- **A desktop program started from `P`** returns with `Q` or fails
with `F`. -/
abbrev DeskRuns (O : Outside ν) (faults : Faults) (F : World ν → Prop) (P : World ν → Prop)
    (p : DeskProg α) (Q : α → World ν → Prop) : Prop :=
  (deskLogic O faults).Triple P p Q (fun _ => F)

variable {F : World ν → Prop} {P : World ν → Prop}

theorem desk_error {F' : World ν → Prop} {p : DeskProg α} {Q : α → World ν → Prop}
    (h : DeskRuns O faults F P p Q) (hF : ∀ s, F s → F' s) : DeskRuns O faults F' P p Q :=
  h.conseq (fun _ _ hs => hs) (fun _ _ _ hs => hs) (fun _ s _ hs => hF s hs)

theorem desk_pure {a : α} {Q : α → World ν → Prop} (hK : O.Lasts K)
    (h : ∀ s, At faults sess v K s → Q a s) :
    DeskRuns O faults F (At faults sess v K) (pure a) Q :=
  Triple.pure (stable_at hK) fun s _ hs => h s hs

theorem desk_fail {e : Anyhow} {Q : α → World ν → Prop} (hK : O.Lasts K)
    (h : ∀ s, At faults sess v K s → F s) :
    DeskRuns O faults F (At faults sess v K) (.fail e) Q :=
  Triple.fail (stable_at hK) fun s _ hs => h s hs

theorem desk_ensure {check : Prop} [Decidable check] {message : String} (hK : O.Lasts K)
    (h : ∀ s, At faults sess v K s → ¬ check → F s) :
    DeskRuns O faults F (At faults sess v K) (Prog.ensure check message)
      (fun _ s => check ∧ At faults sess v K s) :=
  Triple.ensure (stable_at hK) fun s _ hs hc => h s hs hc

theorem desk_ofExcept {a : Except Anyhow α} (hK : O.Lasts K)
    (h : ∀ s, At faults sess v K s → F s) :
    DeskRuns O faults F (At faults sess v K) (Prog.ofExcept a)
      (fun b s => a = .ok b ∧ At faults sess v K s) :=
  Triple.ofExcept (stable_at hK) (fun _ ha _ _ hs => ⟨ha, hs⟩) fun _ _ s _ hs => h s hs

/-! ### The session -/

/-- Reading the session. -/
theorem getSession_runs (hK : O.Lasts K) {k : Option SessionState → DeskProg α}
    {Q : α → World ν → Prop} (h : DeskRuns O faults F (At faults sess v K) (k sess) Q) :
    DeskRuns O faults F (At faults sess v K) (Prog.perform DeskCmd.getSession >>= k) Q := by
  refine Triple.perform_bind (M := fun r s => r = sess ∧ At faults sess v K s) (stable_at hK)
    ?_ fun r => Triple.given fun hr => hr ▸ h
  rintro s r s' - hs ⟨rfl, rfl⟩
  exact ⟨.session, hs.session, hs⟩

/-- The session is open. -/
theorem session_runs {s₀ : SessionState} (hK : O.Lasts K) :
    DeskRuns O faults F (At faults (some s₀) v K) DeskProg.session
      (fun s w => s = s₀ ∧ At faults (some s₀) v K w) :=
  getSession_runs hK (desk_pure hK fun _ hs => ⟨rfl, hs⟩)

/-- Replacing the session. -/
theorem setSession_runs {sess' : Option SessionState} (hK : O.Lasts K)
    (hsynced : Reliable (faults sess') → Reliable (faults sess)) :
    DeskRuns O faults F (At faults sess v K) (setSession sess')
      (fun _ => At faults sess' v K) := by
  refine Triple.perform (stable_at hK) (fun _ => stable_at hK) ?_
  rintro s r s' - hs rfl
  exact ⟨.session, rfl, ⟨hs.files.1, fun hr => hs.files.2 (hsynced hr)⟩, hs.known⟩

/-! ### The outside -/

/-- **Asking the outside.** -/
theorem ask_runs (c : EnvCmd) (K' : c.Reply → ν → Prop) (hK : O.Lasts K)
    (hK' : ∀ r, O.Lasts (K' r)) (hsend : Sendable v c)
    (h : ∀ s r y, O.inv s → K s.out → O.exec c s.out r y → K' r y) :
    DeskRuns O faults F (At faults sess v K) (ask c)
      (fun r => At faults sess v fun x => K x ∧ K' r x) := by
  refine Triple.perform (stable_at hK) (fun r => stable_at (hK.and (hK' r))) ?_
  rintro s r s' hi hs ⟨out, hx, rfl⟩
  refine ⟨.env hx (hs.dir ▸ hsend), hs.session, hs.files, hK.exec hx hs.known, ?_⟩
  exact h s r out hi hs.known hx

/-- Asking for what nothing has to be known of. -/
theorem ask_any_runs {c : EnvCmd} (hK : O.Lasts K) (hsend : Sendable v c) :
    DeskRuns O faults F (At faults sess v K) (ask c) (fun _ => At faults sess v K) :=
  (ask_runs c (fun _ _ => True) hK (fun _ => .nothing O) hsend fun _ _ _ _ _ _ =>
    trivial).post fun _ _ _ hs => hs.mono fun _ h => h.1

/-- The answer of the outside. -/
theorem answer_runs {message : String} {r : Except String α} (hK : O.Lasts K)
    (h : ∀ s, At faults sess v K s → F s) :
    DeskRuns O faults F (At faults sess v K) (answer message r)
      (fun a s => r = .ok a ∧ At faults sess v K s) := by
  cases r with
  | ok a => exact Triple.ret (stable_at hK) fun _ _ hs => ⟨rfl, hs⟩
  | error e => exact Triple.fail (stable_at hK) fun s _ hs => h s hs

/-! ### The files -/

/-- A context given inside is a context given outside. -/
theorem files_context (message : String) (p : FileProg α) :
    files (p.context message) = (files p).context message :=
  Prog.hoist_mapError ..

/-- **A program on the data directory**, with what is known besides
carried along. -/
theorem files_hoist {G : World ν → Prop} {p : FileProg α} {P : Files → Prop}
    {Q : α → Files → Prop} (h : Runs (faults sess) op X P p Q)
    (hG : ∀ s s', G s → s'.desk = s.desk → O.rely s.out s'.out → G s')
    (hstep : ∀ s f, s.session = sess → G s → FilesStep (faults sess) op s.desk.files f →
      DeskStep O faults s ⟨{ s.desk with files := f }, O.note s.desk.files f s.out⟩ ∧
        G ⟨{ s.desk with files := f }, O.note s.desk.files f s.out⟩) :
    DeskRuns O faults
      (fun s => (∃ w, X w ∧ Snapshot (faults sess) w s.desk.files) ∧ s.session = sess ∧ G s)
      (fun s => P s.desk.files ∧ s.session = sess ∧ G s) (files p)
      (fun a s => Q a s.desk.files ∧ s.session = sess ∧ G s) := by
  refine Triple.hoist (deskLogic O faults) (fun s => s.desk.files) DeskCmd.file (fun _ r => r)
    (fun s => s.session = sess ∧ G s) (fun _ _ => trivial) ?_ ?_ ?_ h
  · rintro s s' - hr -
    exact congrArg Desk.files hr.1
  · rintro s s' - ⟨hs, hg⟩ hr -
    refine ⟨?_, hG s s' hg hr.1 hr.2⟩
    rw [World.session, hr.1]
    exact hs
  · rintro c s r s' - ⟨hs, hg⟩ ⟨o, f, ho, hfault, rfl⟩
    refine ⟨⟨o, ho, fun e he => hs ▸ hfault e he⟩, fun hguar => ?_⟩
    obtain ⟨hd, hg'⟩ := hstep s f hs hg hguar
    exact ⟨hd, hs, hg'⟩

/-- A transaction is only recorded by preparing it. -/
theorem FileStep.noRecord {w : Directory} (h : FileStep op v w)
    (hop : ∀ blob data, op ≠ .prepare blob data) (hv : v.NoRecord) : w.NoRecord := by
  cases h.record with
  | same h => exact h.trans hv
  | prepare hprep => exact absurd hprep (hop _ _)
  | advance htxn => exact absurd hv htxn.not_noRecord
  | finish _ _ h => exact h

/-- **While a transaction is being recorded** there is none, or it is
prepared. -/
theorem FileStep.prepared {w : Directory} (h : FileStep op v w)
    (hop : ∀ phase id, op ≠ .advance phase id)
    (hv : v.NoRecord ∨ ∃ file, v.Records file ∧ file.phase = .prepared) :
    (w.NoRecord → v.NoRecord) ∧
      (w.NoRecord ∨ ∃ file, w.Records file ∧ file.phase = .prepared) := by
  cases h.record with
  | same h =>
    unfold Directory.NoRecord Directory.Records at *
    rw [h]
    exact ⟨id, hv⟩
  | prepare _ htxn h _ hphase => exact ⟨fun _ => htxn, .inr ⟨_, h, hphase⟩⟩
  | advance htxn _ _ hindex hadv =>
    obtain hv | ⟨file, hrec, hphase⟩ := hv
    · exact absurd hv htxn.not_noRecord
    · obtain rfl := htxn.unique hrec
      rcases hadv with hadv | rfl
      · exact absurd hadv (hop _ _)
      · rw [hphase] at hindex
        cases hindex
  | finish htxn hphase _ =>
    obtain hv | ⟨file, hrec, hp⟩ := hv
    · exact absurd hv htxn.not_noRecord
    · obtain rfl := htxn.unique hrec
      rw [hphase] at hp
      cases hp

/-- **What a call does to what is seen**: nothing, or a listed
change. -/
theorem FilesStep.named {f f' : Files} {faults : Directory → Prop}
    (h : FilesStep faults op f f') : f'.named = f.named ∨ FileStep op f.named f'.named := by
  cases h with
  | same h =>
    rw [Files.named, h]
    exact .inl rfl
  | sync h =>
    rw [Files.named, h]
    exact .inl rfl
  | change c h hstep _ =>
    rw [Files.named, h]
    exact .inr hstep

theorem FilesStep.noRecord {f f' : Files} {faults : Directory → Prop}
    (h : FilesStep faults op f f') (hop : ∀ blob data, op ≠ .prepare blob data)
    (hv : f.named.NoRecord) : f'.named.NoRecord := by
  obtain h | h := h.named
  · exact h ▸ hv
  · exact h.noRecord hop hv

/-- **A program on the data directory** that records no transaction, and
for which what has to be known is known. -/
theorem files_runs {p : FileProg α} {Q : α → Files → Prop}
    (h : Runs (faults sess) op X (Snapshot (faults sess) v) p Q) (hK : O.Lasts K)
    (hop : ∀ blob data, op ≠ .prepare blob data)
    (hallow : ∀ s, K s.out → O.Allows faults s op) :
    DeskRuns O faults (Somewhere faults sess X K) (At faults sess v K) (files p)
      (fun a s => Q a s.desk.files ∧ s.session = sess ∧ K s.out) := by
  refine (files_hoist (G := fun s => K s.out) h (fun s s' hk _ hr => hK.rely hr hk) ?_).conseq
    (fun _ _ hs => ⟨hs.files, hs.session, hs.known⟩) (fun _ _ _ hs => hs)
    (fun _ _ _ ⟨⟨w, hw, hs⟩, hsess, hk⟩ => ⟨w, hw, hsess, hs, hk⟩)
  intro s f hsess hk hf
  exact ⟨.files (hsess ▸ hf) (hallow s hk), hK.note (hf.noRecord hop) hk⟩

/-- A program that recovers or clears. -/
theorem files_recover_runs {p : FileProg α} {Q : α → Files → Prop}
    (h : Runs (faults sess) .recover X (Snapshot (faults sess) v) p Q) (hK : O.Lasts K) :
    DeskRuns O faults (Somewhere faults sess X K) (At faults sess v K) (files p)
      (fun a s => Q a s.desk.files ∧ s.session = sess ∧ K s.out) :=
  files_runs h hK nofun fun _ _ => trivial

/-- A program that leaves a known directory. -/
theorem files_at_runs {p : FileProg α} {R : α → Directory → Prop}
    (h : Runs (faults sess) .recover X (Snapshot (faults sess) v) p
      (fun a s => ∃ w, R a w ∧ Snapshot (faults sess) w s)) (hK : O.Lasts K) :
    DeskRuns O faults (Somewhere faults sess X K) (At faults sess v K) (files p)
      (fun a => Somewhere faults sess (R a) K) :=
  (files_recover_runs h hK).post fun _ _ _ ⟨⟨w, hw, hs⟩, hsess, hk⟩ => ⟨w, hw, hsess, hs, hk⟩

/-- A program that leaves the directory as it is. -/
theorem files_read_runs {p : FileProg α} {R : α → Prop}
    (h : Runs (faults sess) .recover (· = v) (Snapshot (faults sess) v) p
      (fun a s => R a ∧ Snapshot (faults sess) v s)) (hK : O.Lasts K)
    (hF : ∀ s, At faults sess v K s → F s) :
    DeskRuns O faults F (At faults sess v K) (files p)
      (fun a s => R a ∧ At faults sess v K s) :=
  (desk_error (files_recover_runs h hK) fun s ⟨_, hw, hs⟩ => hF s (hw ▸ hs)).post
    fun _ _ _ ⟨⟨hr, hs⟩, hsess, hk⟩ => ⟨hr, hsess, hs, hk⟩

end Desktop
