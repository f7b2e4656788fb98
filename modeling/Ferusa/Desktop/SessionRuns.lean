import Ferusa.Desktop.Runs

/-!
# The session and the files, over whole runs

One process of the command line, its commands in any order, any storage
call failing and the phone answering anything. Between two commands the
session is that of the files: its keys open the vault, its pairing is
the recorded one.

There is one gap. `cmd_pair` learns from the absence of the transaction
that nothing was replaced. When removing what is left over fails after
the record of a finished replacement is gone, the command fails, the
replacement stands, and the session keeps the keys of the generation
before (`pairThenFailure`). Where no storage call fails in that short
time the statement holds of every run (`session_matches_files`).
-/

namespace Desktop

open DeskProg

/-- An outside that may answer anything, and of which nothing is
known. -/
def Outside.any : Outside Unit where
  inv _ := True
  saves := True
  exec _ _ _ _ := True
  note _ _ x := x
  rely _ _ := True
  rely_refl _ := trivial
  rely_trans _ _ := trivial
  Fresh _ _ _ := True
  Offered _ _ _ := True
  Ready _ _ _ := True
  Acked _ _ := True
  fresh_rely _ _ := trivial
  offered_rely _ _ := trivial
  ready_rely _ _ := trivial
  acked_rely _ _ := trivial
  exec_fresh _ _ := trivial
  exec_offered _ _ := trivial
  exec_ready _ _ := trivial
  exec_acked _ _ := trivial
  note_fresh _ _ := trivial
  note_offered _ := trivial
  note_ready _ := trivial
  note_acked _ := trivial
  accept _ _ := trivial
  hello _ _ _ := trivial
  ready _ _ _ := trivial
  commitAck _ _ := trivial
  activateAck _ _ := trivial

/-- Any storage call may fail. -/
def anyFault : Faults := fun _ _ => True

/-- **Any storage call may fail but for those made while a replacement
is over and the session is still of the generation before**: no
transaction is recorded, and the vault and the pairing are of another
generation than the session. -/
def carefulFault : Faults := fun sess v =>
  ∀ s₀, sess = some s₀ → v.NoRecord → SameGeneration s₀ v

/-- When a process ends the files stay as they are. -/
def sameFiles (f f' : Files) : Prop := f'.volume = f.volume

/-- Every command but `cmd_init`, which needs a process without a
session. -/
def inSession (op : DeskOp) : Prop := op ≠ .init

/-- The runs of processes, with the given failures. -/
abbrev sessionScript [Crypto] (faults : Faults) :
    Script DeskCmd.Reply DeskOp (World Unit) Anyhow Unit :=
  deskScript .any faults inSession sameFiles

theorem carefulFault_careful : Careful carefulFault :=
  fun sess _ htxn hne hf => hne (hf sess rfl htxn)

theorem carefulFault_fails (sess : Option SessionState) : ¬ Reliable (carefulFault sess) := by
  intro hr
  cases sess with
  | none => exact hr (fun _ => none) nofun
  | some s₀ =>
    refine hr (fun _ => some .torn) fun _ _ htxn => ?_
    cases htxn

theorem anyOutside_runs : Outside.any.Runs carefulFault inSession sameFiles where
  uniform sess _ hr := absurd hr (carefulFault_fails sess)
  saves _ _ := trivial
  passwd _ := carefulFault_fails
  step _ _ := trivial
  stopped _ _ := trivial
  synced _ hr := absurd hr (carefulFault_fails none)

section

variable [Crypto]

/-- A moment of a run of processes that start without a session. -/
abbrev SessionConfig := Script.Config DeskCmd.Reply DeskOp (World Unit) Anyhow Unit

/-- The runs from a directory, without a session. -/
def SessionReachable (faults : Faults) (c : SessionConfig) : Prop :=
  ∃ s : World Unit, s.session = none ∧ (sessionScript faults).Steps ⟨s, none⟩ c

theorem SessionReachable.holds {c : SessionConfig} (h : SessionReachable carefulFault c) :
    (deskCertificate .any carefulFault).Holds (sessionScript carefulFault) c := by
  obtain ⟨s, hsess, hsteps⟩ := h
  refine (deskCertificate_valid anyOutside_runs).reachable
    (deskCertificate_start trivial hsess fun hr => ?_) hsteps
  exact absurd hr (carefulFault_fails none)

/-- **A session that is open between two commands is that of the
files**, in every run in which no storage call fails while a replacement
is over but for the session: its keys are those of the vault, its
pairing is the recorded one. And a step that writes the vault while no
transaction is recorded leaves the pairing alone and seals the vault
under the phone share it was sealed under before. -/
theorem session_matches_files {c : SessionConfig} (hc : SessionReachable carefulFault c) :
    (c.running = none → ∀ s₀, c.state.session = some s₀ → Matched s₀ c.state.dir) ∧
    ∀ c', (sessionScript carefulFault).Step c c' → c.state.dir.NoRecord →
      c'.state.dir .vaultEnc ≠ c.state.dir .vaultEnc →
      c'.state.dir .pairingState = c.state.dir .pairingState ∧
      ∃ old new, c.state.dir .vaultEnc = some (.vault old) ∧
        c'.state.dir .vaultEnc = some (.vault new) ∧
        new.key.phoneShare = old.key.phoneShare := by
  have hholds := hc.holds
  refine ⟨fun hrun s₀ hsess => ?_, fun c' hs htxn hne => ?_⟩
  · obtain ⟨sess, v, hheld, hs⟩ := hholds.idle hrun
    obtain rfl : some s₀ = sess := hsess.symm.trans hs.session
    rw [hs.dir]
    exact (hheld s₀ rfl).matched carefulFault_careful
  · rcases hholds.cases hs with ⟨op, -, -, h⟩ | ⟨op, h⟩ | ⟨op, r, h⟩ | ⟨-, h, -⟩
    · exact absurd (by rw [h]) hne
    · generalize c.state = s, c'.state = s' at h htxn hne
      cases h with
      | session => exact absurd rfl hne
      | env => exact absurd rfl hne
      | files h hop =>
        obtain h | h := h.named
        · exact absurd (congrFun h _) hne
        · cases h.live with
          | same h => exact absurd h.1 hne
          | promoteVault hrec => exact absurd htxn hrec.not_noRecord
          | promotePairing hrec => exact absurd htxn hrec.not_noRecord
          | save he _ hw hp =>
            subst he
            obtain ⟨old, hold, hshare⟩ := hop.2 carefulFault_careful
            exact ⟨hp, old, _, hold, hw, hshare.symm⟩
    · exact absurd (by rw [h]; rfl) hne
    · refine absurd (congrFun ?_ _) hne
      show c'.state.desk.files.volume.live = c.state.desk.files.volume.live
      rw [show c'.state.desk.files.volume = c.state.desk.files.volume from h]

/-! ## Given runs -/

theorem SessionReachable.play {mayFail : Bool} {faults : Faults}
    (hfaults : mayFail = true → ∀ sess v, faults sess v) {s s' : World Unit}
    {ops : List (DeskOp × List DeskChoice)} (hs : SessionReachable faults ⟨s, none⟩)
    (hops : ∀ x ∈ ops, inSession x.1)
    (hp : s.play .any (fun x _ _ => x) mayFail ops = some s') :
    SessionReachable faults ⟨s', none⟩ := by
  obtain ⟨s₀, hsess, hsteps⟩ := hs
  exact ⟨s₀, hsess, hsteps.trans (World.play_steps (fun _ _ _ => trivial) hfaults hops hp)⟩

end

/-- The vault of a first generation. -/
def firstBlob : EncryptedBlob :=
  encryptVault (combineVaultKey (deriveKeys "correct horse battery" zeroSalt) (bytesOf 1)) zeroSalt
    Vault.default

/-- Its pairing. -/
def firstPairing : PairingData :=
  { pairingId := 1, phoneNodeId := bytesOf 0, approvalPublicKeyDer := [1], createdAtMs := 0 }

/-- A directory with a vault and a pairing of one generation. -/
def pairedDirectory : Directory
  | .vaultEnc => some (.vault firstBlob)
  | .pairingState => some (.pairing { version := 3, data := firstPairing })
  | .peerId => some (.bytes (bytesOf 0).toList)
  | _ => none

/-- A desktop with that directory, locked. -/
def pairedDesktop : World Unit :=
  ⟨{ files := { volume := ⟨pairedDirectory, pairedDirectory, []⟩, temps := fun _ => none },
     session := none }, ()⟩

/-- The vault is unlocked and the phone replaced by another one, all
going well. -/
def replacement : List (DeskOp × List DeskChoice) :=
  [(.unlock, smoothly 40 .ping),
    (.pair, smoothly 40 (.pairingHello ⟨2, [2], bytesOf 2, 0⟩) ++
      smoothly 20 (.pairingReady 2 [2]) ++ smoothly 20 (.pairingCommitAck 2) ++
      smoothly 50 (.pairingActivateAck 2))]

/-- **The same with a failure at the end.** All goes well until the
transaction is finished and its record is removed; then
`rollback_pairing.json` cannot be removed. -/
def pairThenFailure : List (DeskOp × List DeskChoice) :=
  [(.unlock, smoothly 40 .ping),
    (.pair, smoothly 40 (.pairingHello ⟨2, [2], bytesOf 2, 0⟩) ++
      smoothly 20 (.pairingReady 2 [2]) ++ smoothly 20 (.pairingCommitAck 2) ++
      smoothly 33 (.pairingActivateAck 2) ++
      ⟨.fail (.other "Input/output error"), willing .ping⟩ :: smoothly 20 .ping)]

attribute [local instance] Crypto.plain

/-- The session is open, and its key is not that of the vault. -/
def World.stale (s : World Unit) : Bool :=
  match s.session, s.dir .vaultEnc with
  | some s₀, some (.vault blob) => s₀.vaultKey != blob.key
  | _, _ => false

/-- **A session that keeps its keys when a replacement fails at its
end**: between two commands it is open, and its keys are not those of
the vault. -/
theorem session_keeps_old_keys : ∃ c, SessionReachable anyFault c ∧
    c.running = none ∧ ∃ s₀, c.state.session = some s₀ ∧ ¬ Matched s₀ c.state.dir := by
  have hplay : ((pairedDesktop.play .any (fun x _ _ => x) true pairThenFailure).map
      World.stale) = some true := by decide +kernel
  obtain ⟨s, hs, hstale⟩ := Option.map_eq_some_iff.mp hplay
  have hops : ∀ x ∈ pairThenFailure, inSession x.1 := by simp [pairThenFailure, inSession]
  refine ⟨⟨s, none⟩, SessionReachable.play (fun _ _ _ => trivial) ⟨pairedDesktop, rfl, .refl⟩
    hops hs, rfl, ?_⟩
  unfold World.stale at hstale
  split at hstale
  · next s₀ blob hsess hblob =>
    refine ⟨s₀, hsess, fun hm => ?_⟩
    obtain ⟨blob', hblob', hkey, -⟩ := hm.vault
    obtain rfl : blob = blob' :=
      Content.vault.inj (Option.some.inj (hblob.symm.trans hblob'))
    rw [hkey] at hstale
    simp at hstale
  · cases hstale

/-- The session that a replacement leaves is that of the files. -/
theorem session_matches_files_replacement : ∃ (s : World Unit) (s₀ : SessionState),
    s.session = some s₀ ∧ Matched s₀ s.dir := by
  have hplay : ((pairedDesktop.play .any (fun x _ _ => x) false replacement).map
      fun s => s.session.isSome) = some true := by decide +kernel
  obtain ⟨s, hs, hsome⟩ := Option.map_eq_some_iff.mp hplay
  obtain ⟨s₀, hsess⟩ := Option.isSome_iff_exists.mp hsome
  have hops : ∀ x ∈ replacement, inSession x.1 := by simp [replacement, inSession]
  have hc : SessionReachable carefulFault ⟨s, none⟩ :=
    .play (fun h => Bool.noConfusion h) ⟨pairedDesktop, rfl, .refl⟩ hops hs
  exact ⟨s, s₀, hsess, (session_matches_files hc).1 rfl s₀ hsess⟩

end Desktop
