import Ferusa.Desktop.Runs

/-!
# Pairing transactions and stops of the machine

The machine may stop at any moment of a pairing, of its recovery or of
the cleanup after it, any number of times, and a change whose directory
was not yet synced may survive or not. The vault and the pairing then
still are the pair there was before, or the pair of the new generation,
and the new pair is seen only once the phone's commitment is on disk.

To say this a note is kept (`Attempt`): the pair that was live when the
latest transaction was recorded, the pair it is to put in place, and
whether the disk has held its record in phase `PhoneCommitted` or later.
-/

namespace Desktop

open Directory

/-- The contents of a vault file and a pairing file. -/
abbrev Pair := Option Content × Option Content

/-- The pair that is in place. -/
def livePair (v : Directory) : Pair := (v .vaultEnc, v .pairingState)

/-- The pair that waits. -/
def pendingPair (v : Directory) : Pair := (v .pendingVaultEnc, v .pendingPairingState)

/-- The recorded transaction. -/
def recordOf (v : Directory) : Option PairingTxnFile :=
  match v .pairingTransactionState with
  | some (.transaction file) => some file
  | _ => none

/-- **What is noted of the latest transaction**, and of what phones have
offered. -/
structure Attempt where
  old : Pair
  new : Pair
  /-- Whether the disk has held the record in phase `PhoneCommitted` or
  later. -/
  committed : Bool
  offered : List PairingHello

namespace Attempt

/-- The note before any transaction. -/
def start (v : Directory) (offered : List PairingHello) : Attempt :=
  { old := livePair v, new := livePair v, committed := false, offered }

/-- A record in phase `PhoneCommitted` or later. -/
def reachesCommit (v : Directory) : Bool :=
  match recordOf v with
  | some file => file.phase != .prepared
  | none => false

/-- A transaction has just been recorded. -/
def recorded (f f' : Files) : Bool :=
  f.named .pairingTransactionState = none && (recordOf f'.named).isSome &&
    !f'.volume.unsynced.isEmpty

/-- **The note after a change of the files.** -/
def note (f f' : Files) (x : Attempt) : Attempt :=
  if recorded f f' then
    { x with old := livePair f'.named, new := pendingPair f'.named, committed := false }
  else { x with committed := x.committed || reachesCommit f'.volume.durable }

/-- The note after a message: what a phone offers is kept. -/
def hear (x : Attempt) : (c : EnvCmd) → c.Reply → Attempt
  | .receive _, .ok (.pairingHello hello) => { x with offered := hello :: x.offered }
  | _, _ => x

end Attempt

/-- **A vault and a pairing of one generation**, as some phone offered
it. -/
def OneGeneration (offered : List PairingHello) (pair : Pair) : Prop :=
  ∃ blob data, pair = (some (.vault blob), some (.pairing { version := 3, data })) ∧
    ∃ hello ∈ offered, data.pairingId = hello.pairingId ∧
      data.approvalPublicKeyDer = hello.approvalPublicKeyDer ∧
      blob.key.phoneShare = hello.phoneShare

/-- Nothing, or a vault and a pairing of one generation. -/
def MatchedPair (offered : List PairingHello) (pair : Pair) : Prop :=
  pair = (none, none) ∨ OneGeneration offered pair

theorem OneGeneration.mono {offered offered' : List PairingHello} {pair : Pair}
    (h : OneGeneration offered pair) (hsub : offered ⊆ offered') : OneGeneration offered' pair := by
  obtain ⟨blob, data, hpair, hello, hmem, hid⟩ := h
  exact ⟨blob, data, hpair, hello, hsub hmem, hid⟩

theorem MatchedPair.mono {offered offered' : List PairingHello} {pair : Pair}
    (h : MatchedPair offered pair) (hsub : offered ⊆ offered') : MatchedPair offered' pair :=
  h.imp id fun h => h.mono hsub

/-! ## The invariant of a directory -/

/-- How far a promotion has got. -/
inductive Promotion (x : Attempt) (v : Directory) : Prop
  | waiting (hp : pendingPair v = x.new) (hl : livePair v = x.old)
  | vault (hp : pendingPair v = (none, x.new.2)) (hl : livePair v = (x.new.1, x.old.2))
  | both (hp : pendingPair v = (none, none)) (hl : livePair v = x.new)

/-- **What the directory contains in each phase.** -/
def AtPhase (x : Attempt) (v : Directory) : PairingTxnPhase → Prop
  | .prepared => pendingPair v = x.new ∧ livePair v = x.old
  | .phoneCommitted => Promotion x v
  | .locallyActivated => livePair v = x.new
  | .fullyActivated => livePair v = x.new

/-- **The directory fits the note.** -/
structure Fits (x : Attempt) (v : Directory) : Prop where
  settled : v.NoRecord → livePair v = x.old ∨ livePair v = x.new
  recorded : ∀ {file}, v.Records file → AtPhase x v file.phase ∧ OneGeneration x.offered x.new
  uncommitted : x.committed = false → livePair v = x.old
  wellFormed : v.NoRecord ∨ ∃ file, v.Records file

variable {x : Attempt} {v w : Directory} {op : FileOp}

theorem SameLive.livePair (h : SameLive v w) : livePair w = livePair v :=
  Prod.ext h.1 h.2

theorem CoreEq.pendingPair (h : CoreEq v w) : pendingPair w = pendingPair v :=
  Prod.ext (h _ (by decide)) (h _ (by decide))

theorem recordOf_eq {file : PairingTxnFile} (h : v.Records file) : recordOf v = some file := by
  rw [recordOf, h]

theorem recordOf_none (h : v.NoRecord) : recordOf v = none := by
  rw [recordOf, h]

theorem AtPhase.congr {phase : PairingTxnPhase} (hp : pendingPair w = pendingPair v)
    (hl : livePair w = livePair v) (h : AtPhase x v phase) : AtPhase x w phase := by
  cases phase with
  | prepared => exact ⟨hp.trans h.1, hl.trans h.2⟩
  | phoneCommitted =>
    cases h with
    | waiting hp' hl' => exact .waiting (hp.trans hp') (hl.trans hl')
    | vault hp' hl' => exact .vault (hp.trans hp') (hl.trans hl')
    | both hp' hl' => exact .both (hp.trans hp') (hl.trans hl')
  | locallyActivated => exact hl.trans h
  | fullyActivated => exact hl.trans h

theorem Fits.coreEq (h : Fits x v) (hw : CoreEq v w) : Fits x w where
  settled hnone := by
    rw [hw.sameLive.livePair]
    exact h.settled ((hw _ (by decide)).symm.trans hnone)
  recorded hrec := by
    obtain ⟨hphase, hnew⟩ := h.recorded ((hw _ (by decide)).symm.trans hrec)
    exact ⟨hphase.congr hw.pendingPair hw.sameLive.livePair, hnew⟩
  uncommitted hc := hw.sameLive.livePair.trans (h.uncommitted hc)
  wellFormed := h.wellFormed.imp hw.noRecord fun ⟨file, hrec⟩ => ⟨file, hw.records hrec⟩

/-- Nothing is recorded, and what is live stays. -/
theorem Fits.idle (h : Fits x v) (hv : v.NoRecord) (hw : w.NoRecord) (hlive : SameLive v w) :
    Fits x w where
  settled _ := hlive.livePair ▸ h.settled hv
  recorded hrec := absurd hw hrec.not_noRecord
  uncommitted hc := hlive.livePair.trans (h.uncommitted hc)
  wellFormed := .inl hw

/-- The transaction has got further. -/
theorem Fits.further {file file' : PairingTxnFile} (h : Fits x v) (hv : v.Records file)
    (hw : w.Records file') (hphase : AtPhase x w file'.phase)
    (hc : x.committed = false → livePair w = livePair v) : Fits x w where
  settled hnone := absurd hnone hw.not_noRecord
  recorded hrec := hw.unique hrec ▸ ⟨hphase, (h.recorded hv).2⟩
  uncommitted hfalse := (hc hfalse).trans (h.uncommitted hfalse)
  wellFormed := .inr ⟨file', hw⟩

theorem OneGeneration.ne_none {offered : List PairingHello} {pair : Pair}
    (h : OneGeneration offered pair) : pair.1 ≠ none ∧ pair.2 ≠ none := by
  obtain ⟨blob, data, rfl, -⟩ := h
  exact ⟨Option.some_ne_none _, Option.some_ne_none _⟩

theorem pendingPair_put {f : FileName} {contents : Content} (hf : f ∉ pendingFiles) :
    pendingPair (v.put f contents) = pendingPair v := by
  have hv : FileName.pendingVaultEnc ≠ f := fun he => hf (he ▸ by decide)
  have hp : FileName.pendingPairingState ≠ f := fun he => hf (he ▸ by decide)
  rw [pendingPair, put_apply, if_neg hv, put_apply, if_neg hp, pendingPair]

/-- A phase is recorded. -/
theorem AtPhase.record {phase : PairingTxnPhase} (file : PairingTxnFile) (h : AtPhase x v phase) :
    AtPhase x (v.put .pairingTransactionState (.transaction file)) phase :=
  h.congr (pendingPair_put (by decide)) (SameLive.put (by decide) (by decide) _).livePair

/-- The vault is promoted. -/
theorem Promotion.promoteVault {contents : Content} (h : Promotion x v)
    (hv : v .pendingVaultEnc = some contents) :
    Promotion x ((v.drop .pendingVaultEnc).put .vaultEnc contents) := by
  have hnone {b : Option Content} (hp : pendingPair v = (none, b)) : False := by
    have hp : v .pendingVaultEnc = none := congrArg Prod.fst hp
    rw [hv] at hp
    cases hp
  cases h with
  | vault hp _ => exact (hnone hp).elim
  | both hp _ => exact (hnone hp).elim
  | waiting hp hl =>
    refine .vault ?_ ?_
    · rw [pendingPair_put (by decide), ← hp]
      simp [pendingPair]
    · rw [← hp, ← hl]
      simp [livePair, pendingPair, hv]

/-- The pairing is promoted, once the vault is. -/
theorem Promotion.promotePairing {contents : Content} (h : Promotion x v)
    (hnew : OneGeneration x.offered x.new) (hv : v .pendingVaultEnc = none)
    (hp : v .pendingPairingState = some contents) :
    Promotion x ((v.drop .pendingPairingState).put .pairingState contents) := by
  cases h with
  | waiting hpend _ => exact absurd ((congrArg Prod.fst hpend).symm.trans hv) hnew.ne_none.1
  | both hpend _ =>
    have hnone : v .pendingPairingState = none := congrArg Prod.snd hpend
    rw [hp] at hnone
    cases hnone
  | vault hpend hl =>
    have hcontents : x.new.2 = some contents := (congrArg Prod.snd hpend).symm.trans hp
    have hvault : v .vaultEnc = x.new.1 := congrArg Prod.fst hl
    refine .both ?_ (Prod.ext ?_ ?_)
    · rw [pendingPair_put (by decide)]
      simp [pendingPair, hv]
    · show (v.drop .pendingPairingState).put .pairingState contents .vaultEnc = _
      rw [put_apply, if_neg (by decide), drop_apply, if_neg (by decide), hvault]
    · show (v.drop .pendingPairingState).put .pairingState contents .pairingState = _
      rw [put_apply, if_pos rfl, hcontents]

/-- Nothing waits any more: the new pair is in place. -/
theorem Promotion.over (h : Promotion x v) (hnew : OneGeneration x.offered x.new)
    (hv : v .pendingVaultEnc = none) (hp : v .pendingPairingState = none) :
    livePair v = x.new := by
  cases h with
  | waiting hpend _ => exact absurd ((congrArg Prod.fst hpend).symm.trans hv) hnew.ne_none.1
  | vault hpend _ => exact absurd ((congrArg Prod.snd hpend).symm.trans hp) hnew.ne_none.2
  | both _ hl => exact hl

theorem Fits.atPhase {file : PairingTxnFile} {phase : PairingTxnPhase} (h : Fits x v)
    (hrec : v.Records file) (hphase : file.phase = phase) : AtPhase x v phase := by
  rw [← hphase]
  exact (h.recorded hrec).1

/-- **Every change but the recording of a transaction keeps the
directory fitting**, if the disk has what the promotion needs. -/
theorem Fits.step (h : Fits x v) (hcommitted : Attempt.reachesCommit v = true → x.committed = true)
    (hstep : FileStep op v w) (hsave : ∀ blob, op ≠ .save blob)
    (hprep : w.NoRecord ∨ ¬ v.NoRecord) : Fits x w := by
  have isCommitted {file : PairingTxnFile} (hrec : v.Records file)
      (hphase : file.phase ≠ .prepared) : x.committed = true := by
    refine hcommitted ?_
    rw [Attempt.reachesCommit, recordOf_eq hrec]
    exact bne_iff_ne.mpr hphase
  have notFalse {φ : Prop} (hc : x.committed = true) (hfalse : x.committed = false) : φ := by
    rw [hc] at hfalse
    cases hfalse
  cases hstep with
  | other hf => exact h.coreEq (.put hf _)
  | dropOther hf => exact h.coreEq (.drop hf)
  | stage _ hf htxn =>
    refine h.idle htxn (hprep.resolve_right (not_not.mpr htxn)) ?_
    rcases List.mem_pair.mp hf with rfl | rfl <;> exact .put (by decide) (by decide) _
  | capture hf htxn =>
    refine h.idle htxn (hprep.resolve_right (not_not.mpr htxn)) ?_
    rcases List.mem_pair.mp hf with rfl | rfl <;> exact .put (by decide) (by decide) _
  | discard hf htxn =>
    have hdiscard : FileStep .recover v _ := .discard hf htxn
    refine h.idle htxn (hdiscard.noRecord nofun htxn) ?_
    rcases hf with hf | hf <;> rcases List.mem_pair.mp hf with rfl | rfl <;>
      exact .drop (by decide) (by decide)
  | prepare _ htxn =>
    exact absurd (hprep.resolve_right (not_not.mpr htxn)) (put_records ..).not_noRecord
  | save hop => exact absurd hop (hsave _)
  | commit _ htxn _ hphase =>
    obtain ⟨hp, hl⟩ : AtPhase x v .prepared := h.atPhase htxn hphase
    refine h.further htxn (put_records ..) (AtPhase.record _ (.waiting hp hl)) fun _ => ?_
    exact (SameLive.put (by decide) (by decide) _).livePair
  | promoteVault htxn hphase hv =>
    have hat : Promotion x v := h.atPhase htxn hphase
    refine h.further htxn (by simpa [Records] using htxn) ?_
      (notFalse (isCommitted htxn (by rw [hphase]; decide)))
    rw [hphase]
    exact hat.promoteVault hv
  | promotePairing htxn hphase hv hp =>
    have hat : Promotion x v := h.atPhase htxn hphase
    refine h.further htxn (by simpa [Records] using htxn) ?_
      (notFalse (isCommitted htxn (by rw [hphase]; decide)))
    rw [hphase]
    exact hat.promotePairing (h.recorded htxn).2 hv hp
  | activateLocally htxn _ hphase hv hp =>
    have hat : Promotion x v := h.atPhase htxn hphase
    exact h.further htxn (put_records ..) (AtPhase.record _
      (hat.over (h.recorded htxn).2 hv hp)) (notFalse (isCommitted htxn (by rw [hphase]; decide)))
  | activateFully _ htxn _ hphase =>
    have hat : livePair v = x.new := h.atPhase htxn hphase
    exact h.further htxn (put_records ..) (AtPhase.record _ hat)
      (notFalse (isCommitted htxn (by rw [hphase]; decide)))
  | @clear f file hf htxn hphase =>
    have hat : livePair v = x.new := h.atPhase htxn hphase
    have hrec : (v.drop f).Records file := by
      rcases List.mem_pair.mp hf with rfl | rfl <;> simpa [Records] using htxn
    refine h.further htxn hrec ?_ (notFalse (isCommitted htxn (by rw [hphase]; decide)))
    · rw [hphase]
      rcases List.mem_pair.mp hf with rfl | rfl <;>
        exact (SameLive.drop (by decide) (by decide)).livePair.trans hat
  | finish htxn hphase _ =>
    have hat : livePair v = x.new := h.atPhase htxn hphase
    have hsame : livePair (v.drop .pairingTransactionState) = x.new :=
      (SameLive.drop (by decide) (by decide)).livePair.trans hat
    have hnone : (v.drop .pairingTransactionState).NoRecord := by
      rw [NoRecord, drop_apply, if_pos rfl]
    exact ⟨fun _ => .inr hsame, fun hrec => absurd hnone hrec.not_noRecord,
      notFalse (isCommitted htxn (by rw [hphase]; decide)), .inl hnone⟩

/-- **A transaction is recorded**: what was live is the old pair, what
waits the new one. -/
theorem Fits.prepare {offered : List PairingHello} {file : PairingTxnFile}
    (htxn : v.NoRecord) (hw : w.Records file) (hphase : file.phase = .prepared)
    (hlive : SameLive v w) (hnew : OneGeneration offered (pendingPair w)) :
    Fits ⟨livePair w, pendingPair w, false, offered⟩ v ∧
      Fits ⟨livePair w, pendingPair w, false, offered⟩ w := by
  refine ⟨⟨fun _ => .inl hlive.livePair.symm, fun hrec => absurd htxn hrec.not_noRecord,
    fun _ => hlive.livePair.symm, .inl htxn⟩,
    ⟨fun hnone => absurd hnone hw.not_noRecord, fun hrec => ?_, fun _ => rfl, .inr ⟨file, hw⟩⟩⟩
  obtain rfl := hw.unique hrec
  rw [hphase]
  exact ⟨⟨rfl, rfl⟩, hnew⟩

/-! ## The phases -/

/-- **A record comes from nothing, prepared, or from the record before
it**: of the same pairing, in the same phase or the next. -/
def PhaseForward (v w : Directory) : Prop :=
  ∀ file', w.Records file' → v.NoRecord ∧ file'.phase = .prepared ∨
    ∃ file, v.Records file ∧ file'.pairingId = file.pairingId ∧
      (file'.phase = file.phase ∨ file'.phase.index = file.phase.index + 1)

theorem PhaseForward.of_eq (h : w .pairingTransactionState = v .pairingTransactionState) :
    PhaseForward v w :=
  fun file' hrec => .inr ⟨file', h.symm.trans hrec, rfl, .inl rfl⟩

theorem FileStep.phaseForward (h : FileStep op v w) : PhaseForward v w := by
  cases h.record with
  | same h => exact .of_eq h
  | prepare _ htxn h _ hphase =>
    exact fun file' hrec => .inl ⟨htxn, h.unique hrec ▸ hphase⟩
  | advance htxn _ h hindex _ =>
    intro file' hrec
    obtain rfl := h.unique hrec
    exact .inr ⟨_, htxn, rfl, .inr hindex⟩
  | finish _ _ h => exact fun file' hrec => absurd h hrec.not_noRecord

/-! ## The invariant of a run -/

/-- What survives a stop. -/
def World.durable {ν : Type} (s : World ν) : Directory := s.desk.files.volume.durable

/-- **What is seen and what is on disk fit the note**, and differ in at
most one change. -/
structure CrashInv (s : World Attempt) : Prop where
  volume : Volume.Settled Directory.apply s.desk.files.volume
  live : Fits s.out s.dir
  durable : Fits s.out s.durable
  committed : Attempt.reachesCommit s.durable = true → s.out.committed = true
  change : s.dir = s.durable ∨ ∃ op, FileStep op s.durable s.dir
  old : MatchedPair s.out.offered s.out.old
  new : MatchedPair s.out.offered s.out.new

theorem Attempt.hear_offered (x : Attempt) (c : EnvCmd) (r : c.Reply) :
    x.offered ⊆ (x.hear c r).offered := by
  unfold Attempt.hear
  split
  · exact List.subset_cons_self _ _
  · exact List.Subset.refl _

theorem Attempt.hear_eq (x : Attempt) (c : EnvCmd) (r : c.Reply) :
    x.hear c r = { x with offered := (x.hear c r).offered } := by
  unfold Attempt.hear
  split <;> rfl

theorem Attempt.note_offered (f f' : Files) (x : Attempt) : (x.note f f').offered = x.offered := by
  unfold Attempt.note
  split <;> rfl

/-- **An outside of which only what phones offer is known.** -/
def Outside.phones : Outside Attempt where
  inv := CrashInv
  saves := False
  exec c x r y := y = x.hear c r
  note := Attempt.note
  rely x y := y = x
  rely_refl _ := rfl
  rely_trans h h' := h'.trans h
  Fresh _ _ _ := True
  Offered _ hello x := hello ∈ x.offered
  Ready _ _ _ := True
  Acked _ _ := True
  fresh_rely _ _ := trivial
  offered_rely h hx := by
    rw [h]
    exact hx
  ready_rely _ _ := trivial
  acked_rely _ _ := trivial
  exec_fresh _ _ := trivial
  exec_offered := by
    rintro c x r y conn hello rfl hx
    exact x.hear_offered c r hx
  exec_ready _ _ := trivial
  exec_acked _ _ := trivial
  note_fresh _ _ := trivial
  note_offered := by
    intro f f' conn hello x hx
    rw [x.note_offered f f']
    exact hx
  note_ready _ := trivial
  note_acked _ := trivial
  accept _ _ := trivial
  hello _ _ h := by
    rw [h]
    exact List.mem_cons_self
  ready _ _ _ := trivial
  commitAck _ _ := trivial
  activateAck _ _ := trivial

theorem Fits.congr {x y : Attempt} (h : Fits x v) (hold : y.old = x.old) (hnew : y.new = x.new)
    (hcommitted : y.committed = false → x.committed = false) (hoffered : x.offered ⊆ y.offered) :
    Fits y v where
  settled hnone := by
    rw [hold, hnew]
    exact h.settled hnone
  recorded hrec := by
    obtain ⟨hphase, hgen⟩ := h.recorded hrec
    refine ⟨?_, hnew ▸ hgen.mono hoffered⟩
    revert hphase
    generalize PairingTxnFile.phase _ = phase
    intro hphase
    cases phase with
    | prepared => exact ⟨hphase.1.trans hnew.symm, hphase.2.trans hold.symm⟩
    | phoneCommitted =>
      cases hphase with
      | waiting hp hl => exact .waiting (hp.trans hnew.symm) (hl.trans hold.symm)
      | vault hp hl => exact .vault (hp.trans (by rw [hnew])) (hl.trans (by rw [hnew, hold]))
      | both hp hl => exact .both hp (hl.trans hnew.symm)
    | locallyActivated => exact Eq.trans hphase hnew.symm
    | fullyActivated => exact Eq.trans hphase hnew.symm
  uncommitted hc := (h.uncommitted (hcommitted hc)).trans hold.symm
  wellFormed := h.wellFormed

/-- A message changes what was offered only. -/
theorem CrashInv.hear {s : World Attempt} (h : CrashInv s) (c : EnvCmd) (r : c.Reply) :
    CrashInv ⟨s.desk, s.out.hear c r⟩ := by
  have hsub := s.out.hear_offered c r
  rw [s.out.hear_eq c r]
  exact ⟨h.volume, h.live.congr rfl rfl id hsub, h.durable.congr rfl rfl id hsub, h.committed,
    h.change, h.old.mono hsub, h.new.mono hsub⟩

theorem Attempt.not_recorded {f f' : Files} (h : f'.named.NoRecord ∨ ¬ f.named.NoRecord) :
    recorded f f' = false := by
  unfold recorded
  obtain h | h := h
  · rw [recordOf_none h, Option.isSome_none, Bool.and_false, Bool.false_and]
  · have hf : decide (f.named .pairingTransactionState = none) = false := decide_eq_false h
    rw [hf, Bool.false_and, Bool.false_and]

theorem Attempt.not_recorded_of_synced {f f' : Files} (h : f'.volume.unsynced = []) :
    recorded f f' = false := by
  unfold recorded
  rw [h, List.isEmpty_nil, Bool.not_true, Bool.and_false]

/-- Nothing was just recorded: the note only learns what is on disk. -/
theorem CrashInv.settle {s : World Attempt} {f : Files} (h : CrashInv s)
    (hnot : Attempt.recorded s.desk.files f = false)
    (hvolume : Volume.Settled Directory.apply f.volume) (hlive : Fits s.out f.named)
    (hdurable : Fits s.out f.volume.durable)
    (hchange : f.named = f.volume.durable ∨ ∃ op, FileStep op f.volume.durable f.named)
    (sess : Option SessionState) :
    CrashInv ⟨⟨f, sess⟩, s.out.note s.desk.files f⟩ := by
  have hnote : s.out.note s.desk.files f = { s.out with
      committed := s.out.committed || Attempt.reachesCommit f.volume.durable } := by
    rw [Attempt.note, hnot]
    rfl
  have hfalse : (s.out.committed || Attempt.reachesCommit f.volume.durable) = false →
      s.out.committed = false := fun hc => (Bool.or_eq_false_iff.mp hc).1
  rw [hnote]
  refine ⟨hvolume, hlive.congr rfl rfl hfalse (List.Subset.refl _),
    hdurable.congr rfl rfl hfalse (List.Subset.refl _), fun hc => ?_, hchange, h.old, h.new⟩
  show (_ || _) = true
  rw [show Attempt.reachesCommit f.volume.durable = true from hc, Bool.or_true]

/-- No storage call fails. -/
def noFault : Faults := fun _ _ => False

theorem noFault_reliable (sess : Option SessionState) : Reliable (noFault sess) :=
  fun _ h => h

/-- **A transaction is recorded.** -/
theorem CrashInv.prepare {s : World Attempt} {c : Change} {blob : EncryptedBlob}
    {data : PairingData} {file : PairingTxnFile} (h : CrashInv s)
    (hsynced : s.desk.files.volume.unsynced = [])
    (hstep : FileStep (.prepare blob data) s.dir (Directory.apply c s.dir))
    (htxn : s.dir.NoRecord) (hrec : (Directory.apply c s.dir).Records file)
    (hphase : file.phase = .prepared)
    (hv : Directory.apply c s.dir .pendingVaultEnc = some (.vault blob))
    (hp : Directory.apply c s.dir .pendingPairingState = some (.pairing { version := 3, data }))
    (hop : Outside.phones.Allows noFault s (.prepare blob data)) (f : Files)
    (hf : f.volume = s.desk.files.volume.change Directory.apply c) (sess : Option SessionState) :
    CrashInv ⟨⟨f, sess⟩, s.out.note s.desk.files f⟩ := by
  have hnamed : f.named = Directory.apply c s.dir := congrArg Volume.live hf
  have hdurable : f.volume.durable = s.dir := by
    rw [hf]
    exact (h.volume.1.live_eq hsynced).symm
  have hnew : OneGeneration s.out.offered (pendingPair f.named) := by
    obtain ⟨conn, node, hello, -, hoffer, -, hid, hkey, -, hshare⟩ := hop htxn
    refine ⟨blob, data, ?_, hello, hoffer, hid, hkey, hshare⟩
    rw [hnamed, pendingPair, hv, hp]
  have hrecorded : Attempt.recorded s.desk.files f = true := by
    have hunsynced : f.volume.unsynced = [c] := by
      rw [hf]
      show s.desk.files.volume.unsynced ++ [c] = [c]
      rw [hsynced, List.nil_append]
    have hnone : s.desk.files.named .pairingTransactionState = none := htxn
    rw [Attempt.recorded, hnone, hunsynced, hnamed, recordOf_eq hrec]
    rfl
  have hnote : s.out.note s.desk.files f = ⟨livePair f.named, pendingPair f.named, false,
      s.out.offered⟩ := by
    rw [Attempt.note, hrecorded]
    rfl
  have hlive : SameLive s.dir f.named := by
    rw [hnamed]
    cases hstep.live with
    | same h => exact h
    | promoteVault hr => exact absurd htxn hr.not_noRecord
    | promotePairing hr => exact absurd htxn hr.not_noRecord
    | save he => cases he
  rw [← hnamed] at hrec
  obtain ⟨hfits, hfits'⟩ := Fits.prepare htxn hrec hphase hlive hnew
  rw [hnote]
  refine ⟨?_, hfits', ?_, fun hc => ?_, .inr ⟨.prepare blob data, ?_⟩, ?_, .inr hnew⟩
  · rw [hf]
    exact h.volume.change hsynced
  · show Fits _ f.volume.durable
    rw [hdurable]
    exact hfits
  · have hnone : recordOf f.volume.durable = none := by
      rw [hdurable]
      exact recordOf_none htxn
    rw [World.durable, Attempt.reachesCommit, hnone] at hc
    cases hc
  · show FileStep _ f.volume.durable f.named
    rw [hdurable, hnamed]
    exact hstep
  · show MatchedPair s.out.offered (livePair f.named)
    rw [hlive.livePair]
    exact (h.live.settled htxn).elim (fun he => he ▸ h.old) fun he => he ▸ h.new

/-- **One call keeps the invariant.** -/
theorem CrashInv.files {s : World Attempt} {f : Files} (h : CrashInv s)
    (hf : FilesStep (noFault s.session) op s.desk.files f)
    (hop : Outside.phones.Allows noFault s op) (sess : Option SessionState) :
    CrashInv ⟨⟨f, sess⟩, s.out.note s.desk.files f⟩ := by
  cases hf with
  | same hv =>
    have hnamed : f.named = s.dir := congrArg Volume.live hv
    have hdurable : f.volume.durable = s.durable := congrArg Volume.durable hv
    refine h.settle (Attempt.not_recorded ?_) (hv ▸ h.volume) (hnamed ▸ h.live)
      (hdurable ▸ h.durable) ?_ sess
    · rw [hnamed]
      exact Classical.em _
    · rw [hnamed, hdurable]
      exact h.change
  | sync hv =>
    have hnamed : f.named = s.dir := by
      rw [Files.named, hv]
      rfl
    have hdurable : f.volume.durable = s.dir := by
      rw [hv]
      exact h.volume.1.symm
    refine h.settle (Attempt.not_recorded ?_) ?_ (hnamed ▸ h.live) (hdurable ▸ h.live) (.inl ?_)
      sess
    · rw [hnamed]
      exact Classical.em _
    · rw [hv]
      exact h.volume.sync
    · rw [hnamed, hdurable]
  | change c hv hstep hsynced =>
    have hun := hsynced (noFault_reliable _)
    have hnamed : f.named = Directory.apply c s.dir := by
      rw [Files.named, hv]
      rfl
    have hseen : s.dir = s.durable := h.volume.1.live_eq hun
    have hdurable : f.volume.durable = s.durable := by
      rw [hv]
      rfl
    have hstep : FileStep op s.dir (Directory.apply c s.dir) := hstep
    by_cases hprep : f.named.NoRecord ∨ ¬ s.dir.NoRecord
    · refine h.settle (Attempt.not_recorded hprep) ?_ ?_ (hdurable ▸ h.durable) (.inr ⟨op, ?_⟩) sess
      · rw [hv]
        exact h.volume.change hun
      · rw [hnamed] at hprep ⊢
        refine h.live.step (hseen ▸ h.committed) hstep (fun blob he => ?_) hprep
        subst he
        exact hop.1
      · rw [hdurable, hnamed, ← hseen]
        exact hstep
    · rw [hnamed, not_or, not_not] at hprep
      cases hstep.record with
      | same he => exact absurd (Eq.trans he hprep.2) hprep.1
      | advance hr => exact absurd hprep.2 hr.not_noRecord
      | finish hr => exact absurd hprep.2 hr.not_noRecord
      | prepare he _ hrec _ hphase _ hpv hpp =>
        subst he
        exact h.prepare hun hstep hprep.2 hrec hphase hpv hpp hop f hv sess

/-- **A stop keeps the invariant.** -/
theorem CrashInv.stop {s : World Attempt} {f : Files} (h : CrashInv s)
    (hf : Files.Stop s.desk.files f) :
    CrashInv ⟨⟨f, none⟩, s.out.note s.desk.files f⟩ := by
  have hor : f.named = s.dir ∨ f.named = s.durable := hf.eq_or_eq h.volume
  obtain ⟨l, -, -, hlive, hun⟩ := id hf
  have hfits : Fits s.out f.named := hor.elim (fun he => he ▸ h.live) fun he => he ▸ h.durable
  have hdurable : f.volume.durable = f.named := hlive.symm
  exact h.settle (Attempt.not_recorded_of_synced hun) (Volume.Settled.stop hf) hfits
    (hdurable ▸ hfits) (.inl hlive) none

theorem CrashInv.step {s s' : World Attempt} (h : CrashInv s)
    (hs : DeskStep Outside.phones noFault s s') : CrashInv s' := by
  cases hs with
  | files hf hop => exact h.files hf hop _
  | session => exact ⟨h.volume, h.live, h.durable, h.committed, h.change, h.old, h.new⟩
  | env hx =>
    rw [hx]
    exact h.hear _ _

/-! ## The runs -/

/-- The commands that do not save the vault. -/
def pairingOps (op : DeskOp) : Prop := ¬ op.Saves

theorem phones_runs : Outside.phones.Runs noFault pairingOps Files.Stop where
  uniform _ sess' _ := noFault_reliable sess'
  saves hop hsaves := absurd hsaves hop
  passwd hop := absurd trivial hop
  step h hs := h.step hs
  stopped h hf := h.stop hf
  synced hf _ := by
    obtain ⟨l, -, -, -, hun⟩ := hf
    exact hun

/-- A desktop with the given directory, locked. -/
def World.locked (v : Directory) (temps : Temp → Option TempFile) (offered : List PairingHello) :
    World Attempt :=
  ⟨{ files := { volume := ⟨v, v, []⟩, temps }, session := none }, Attempt.start v offered⟩

theorem CrashInv.start {temps : Temp → Option TempFile} {offered : List PairingHello}
    (htxn : v.NoRecord) (hpair : MatchedPair offered (livePair v)) :
    CrashInv (World.locked v temps offered) := by
  have hfits : Fits (Attempt.start v offered) v :=
    ⟨fun _ => .inl rfl, fun hrec => absurd htxn hrec.not_noRecord, fun _ => rfl, .inl htxn⟩
  refine ⟨⟨rfl, Nat.zero_le _⟩, hfits, hfits, fun hc => ?_, .inl rfl, hpair, hpair⟩
  have hnone : recordOf (World.durable (World.locked v temps offered)) = none := recordOf_none htxn
  rw [Attempt.reachesCommit, hnone] at hc
  cases hc

section

variable [Crypto]

/-- The runs of `cmd_init`, `cmd_pair` and recovery on a machine that
stops. -/
abbrev crashScript : Script DeskCmd.Reply DeskOp (World Attempt) Anyhow Unit :=
  deskScript .phones noFault pairingOps Files.Stop

/-- A moment of such a run. -/
abbrev CrashConfig := Script.Config DeskCmd.Reply DeskOp (World Attempt) Anyhow Unit

/-- The runs from a directory. -/
def CrashReachable (v : Directory) (offered : List PairingHello) (c : CrashConfig) : Prop :=
  ∃ temps, crashScript.Steps ⟨World.locked v temps offered, none⟩ c

theorem CrashReachable.holds {offered : List PairingHello} {c : CrashConfig}
    (hc : CrashReachable v offered c) (htxn : v.NoRecord)
    (hpair : MatchedPair offered (livePair v)) :
    (deskCertificate .phones noFault).Holds crashScript c := by
  obtain ⟨temps, hsteps⟩ := hc
  exact (deskCertificate_valid phones_runs).reachable
    (deskCertificate_start (CrashInv.start htxn hpair) rfl fun _ => rfl) hsteps

/-- **What a step does to the phase**: the record on disk goes forward,
and so does the one that is seen, unless what is seen is what is on
disk. -/
theorem CrashInv.phaseForward {c c' : CrashConfig}
    (h : (deskCertificate .phones noFault).Holds crashScript c) (hs : crashScript.Step c c') :
    PhaseForward c.state.durable c'.state.durable ∧
      (c'.state.dir = c'.state.durable ∨ PhaseForward c.state.dir c'.state.dir) := by
  have hinv : CrashInv c.state := h.inv
  have hseen : PhaseForward c.state.durable c.state.dir := by
    obtain he | ⟨op, hstep⟩ := hinv.change
    · exact .of_eq (congrFun he _)
    · exact hstep.phaseForward
  have unchanged (he : c'.state.desk.files = c.state.desk.files) :
      PhaseForward c.state.durable c'.state.durable ∧
        (c'.state.dir = c'.state.durable ∨ PhaseForward c.state.dir c'.state.dir) := by
    unfold World.durable World.dir
    rw [he]
    exact ⟨.of_eq rfl, .inr (.of_eq rfl)⟩
  rcases h.cases hs with ⟨op, -, -, h⟩ | ⟨op, hg⟩ | ⟨op, r, h⟩ | ⟨-, hstop, -⟩
  · exact unchanged (by rw [h])
  · generalize c.state = s, c'.state = s' at hg hinv hseen unchanged
    cases hg with
    | session => exact unchanged rfl
    | env => exact unchanged rfl
    | @files op f hf hop =>
      show PhaseForward s.durable f.volume.durable ∧
        (f.named = f.volume.durable ∨ PhaseForward s.dir f.named)
      cases hf with
      | same hv =>
        rw [Files.named, hv]
        exact ⟨.of_eq rfl, .inr (.of_eq rfl)⟩
      | sync hv =>
        have hdurable : f.volume.durable = s.dir := by
          rw [hv]
          exact hinv.volume.1.symm
        refine ⟨hdurable ▸ hseen, .inl ?_⟩
        rw [hdurable, Files.named, hv]
        rfl
      | change c hv hstep _ =>
        rw [Files.named, hv]
        exact ⟨.of_eq rfl, .inr hstep.phaseForward⟩
  · exact unchanged (by rw [h]; rfl)
  · have hor : c'.state.dir = c.state.dir ∨ c'.state.dir = c.state.durable :=
      hstop.eq_or_eq hinv.volume
    obtain ⟨l, -, -, hlive, -⟩ := hstop
    have hdurable : c'.state.durable = c'.state.dir := hlive.symm
    refine ⟨?_, .inl hlive⟩
    rw [hdurable]
    obtain he | he := hor
    · exact he ▸ hseen
    · exact he ▸ .of_eq rfl

/-- **The pairing transaction is crash-atomic.** In every run of
`cmd_init`, `cmd_pair` and recovery from a directory with the vault and
the pairing of one generation or with neither, whatever the machine
stops in the middle of: with no transaction recorded and no pairing
pending the vault and the pairing are the pair from before the latest
transaction or its new pair, both of one generation; until the phone's
commitment is on disk they are the pair from before; and the phase of a
record only goes forward, one at a time. -/
theorem pairing_transaction_crash_atomic {offered : List PairingHello} (htxn : v.NoRecord)
    (hpair : MatchedPair offered (livePair v)) {c : CrashConfig}
    (hc : CrashReachable v offered c) :
    (c.state.dir .pairingTransactionState = none → c.state.dir .pendingPairingState = none →
      (livePair c.state.dir = c.state.out.old ∨ livePair c.state.dir = c.state.out.new) ∧
        MatchedPair c.state.out.offered (livePair c.state.dir)) ∧
    (c.state.out.committed = false → livePair c.state.dir = c.state.out.old) ∧
    ∀ c', crashScript.Step c c' →
      PhaseForward c.state.durable c'.state.durable ∧
        (c'.state.dir = c'.state.durable ∨ PhaseForward c.state.dir c'.state.dir) := by
  have hholds := hc.holds htxn hpair
  have hinv : CrashInv c.state := hholds.inv
  refine ⟨fun hnone _ => ?_, hinv.live.uncommitted, fun c' hs => CrashInv.phaseForward hholds hs⟩
  have hor := hinv.live.settled hnone
  exact ⟨hor, hor.elim (fun he => he ▸ hinv.old) fun he => he ▸ hinv.new⟩

end

/-! ## A given run -/

/-- The answers to an `init` in an empty directory, all going well. -/
def smoothInit : List DeskChoice :=
  smoothly 40 (.pairingHello ⟨1, [1], bytesOf 1, 0⟩) ++ smoothly 10 (.pairingReady 1 [1]) ++
    smoothly 12 (.pairingCommitAck 1) ++ smoothly 60 (.pairingActivateAck 1)

/-- A desktop that holds nothing. -/
def emptyDesktop : World Attempt := World.locked (fun _ => none) (fun _ => none) []

attribute [local instance] Crypto.plain

/-- A desktop whose machine has stopped, all that was not synced being lost. -/
def World.stopped (s : World Attempt) : World Attempt :=
  let f : Files := { s.desk.files with volume := ⟨s.durable, s.durable, []⟩ }
  ⟨⟨f, none⟩, s.out.note s.desk.files f⟩

theorem World.stopped_step {s : World Attempt} {running : Option (DeskOp × DeskProg Unit)} :
    crashScript.Step ⟨s, running⟩ ⟨s.stopped, none⟩ :=
  .stop ⟨rfl, ⟨[], List.nil_sublist _, rfl, rfl, rfl⟩, rfl⟩

/-- An `init` whose machine stops after so many commands, and one more. -/
def resumedInit (commands : Nat) : Option (World Attempt × World Attempt) :=
  (emptyDesktop.advance .phones Attempt.hear false .init (smoothInit.take commands)).bind fun s =>
    (s.stopped.play .phones Attempt.hear false
      [(.init, smoothly 200 (.pairingActivateAck 1))]).map fun s' => (s, s')

/-- **A stop between the two renames**: the new vault is in its place, and the
directory not yet synced, when the machine stops; the next `init` finds the
record, and completes the pair. -/
theorem pairing_transaction_crash_atomic_resumed : ∃ s s' : World Attempt,
    ((livePair s.dir).1.isSome ∧ (livePair s.dir).2 = none ∧
      livePair s.stopped.dir = (none, none)) ∧
      (livePair s'.dir).1.isSome ∧ MatchedPair s'.out.offered (livePair s'.dir) := by
  have hplay : ((resumedInit 71).map fun x =>
      (((livePair x.1.dir).1.isSome, (livePair x.1.dir).2.isNone,
        (livePair x.1.stopped.dir).1.isNone, (livePair x.1.stopped.dir).2.isNone),
        (x.2.dir .pairingTransactionState).isNone, (x.2.dir .pendingPairingState).isNone,
        (livePair x.2.dir).1.isSome)) =
      some ((true, true, true, true), true, true, true) := by decide +kernel
  obtain ⟨⟨s, s'⟩, hs, hdir⟩ := Option.map_eq_some_iff.mp hplay
  obtain ⟨t, ht, hs⟩ := Option.bind_eq_some_iff.mp hs
  obtain ⟨t', ht', heq⟩ := Option.map_eq_some_iff.mp hs
  obtain ⟨rfl, rfl⟩ := Prod.mk.inj heq
  simp only [Prod.mk.injEq, Option.isNone_iff_eq_none] at hdir
  obtain ⟨⟨hvault, hpairing, hnovault, hnopairing⟩, hrecord, hpending, hlive⟩ := hdir
  have hop : pairingOps .init := by simp [pairingOps, DeskOp.Saves]
  obtain ⟨p, hrun⟩ : ∃ p, crashScript.Steps ⟨emptyDesktop, none⟩ ⟨t, some (.init, p)⟩ :=
    World.advance_steps (fun _ _ _ => rfl) (fun h => Bool.noConfusion h) hop (fun _ => rfl) ht
  have hagain : crashScript.Steps ⟨t.stopped, none⟩ ⟨t', none⟩ :=
    World.play_steps (fun _ _ _ => rfl) (fun h => Bool.noConfusion h)
      (List.forall_mem_singleton.mpr hop) ht'
  have hc : CrashReachable (fun _ => none) [] ⟨t', none⟩ :=
    ⟨_, (hrun.tail World.stopped_step).trans hagain⟩
  have hnone : Directory.NoRecord fun _ => none := rfl
  exact ⟨t, t', ⟨hvault, hpairing, Prod.ext hnovault hnopairing⟩, hlive,
    ((pairing_transaction_crash_atomic hnone (.inl rfl) hc).1 hrecord hpending).2⟩

end Desktop
