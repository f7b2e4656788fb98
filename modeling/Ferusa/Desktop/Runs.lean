import Ferusa.Lib.Sequence
import Ferusa.Desktop.CommandsSpec

/-!
# Commands one after the other

One process of the command line runs its commands one at a time; it may
be stopped at any moment, and the next process starts with no session.
`cmd_init` is only ever run by a process of its own.
-/

namespace Desktop

open DeskProg

/-- The commands. -/
inductive DeskOp where
  | unlock
  | list
  | get (title : String)
  | add (title : String)
  | edit (title : String)
  | remove (title : String)
  | passwd
  | pair
  | lock
  | init
  deriving DecidableEq

/-- Their programs. -/
def DeskOp.program [Crypto] : DeskOp → DeskProg Unit
  | unlock => do
    let _ ← ensureUnlockedFor .unlock none
    pure ()
  | list => cmdList
  | get title => cmdGet title
  | add title => cmdAdd title
  | edit title => cmdEdit title
  | remove title => cmdRemove title
  | passwd => cmdPasswd
  | pair => cmdPair
  | lock => lockSession
  | init => cmdInit

/-- Whether a command saves the vault. -/
def DeskOp.Saves : DeskOp → Prop
  | add _ => True
  | edit _ => True
  | remove _ => True
  | passwd => True
  | _ => False

variable {ν : Type}

/-- **The runs of the desktop**: the commands there may be, and what a
stop does to the files. -/
def deskScript [Crypto] (O : Outside ν) (faults : Faults) (allowed : DeskOp → Prop)
    (stop : Files → Files → Prop) : Script DeskCmd.Reply DeskOp (World ν) Anyhow Unit where
  exec := O.DeskExec faults
  program := DeskOp.program
  start op s s' := allowed op ∧ (op = .init → s.session = none) ∧ s' = s
  finish _ _ s := s
  stop s s' := s'.session = none ∧ stop s.desk.files s'.desk.files ∧
    s'.out = O.note s.desk.files s'.desk.files s.out

/-- **What a setting has to provide** for the commands to be run in
it. -/
structure Outside.Runs (O : Outside ν) (faults : Faults) (allowed : DeskOp → Prop)
    (stop : Files → Files → Prop) : Prop where
  uniform : faults.Uniform
  saves : ∀ {op}, allowed op → op.Saves → O.saves
  passwd : allowed .passwd → ∀ sess, ¬ Reliable (faults sess)
  step : ∀ {s s'}, O.inv s → DeskStep O faults s s' → O.inv s'
  stopped : ∀ {s f}, O.inv s → stop s.desk.files f →
    O.inv ⟨⟨f, none⟩, O.note s.desk.files f s.out⟩
  synced : ∀ {f f'}, stop f f' → Reliable (faults none) → f'.volume.unsynced = []

/-- What holds throughout, and between two commands. -/
def deskCertificate (O : Outside ν) (faults : Faults) :
    Script.Certificate DeskOp (World ν) Anyhow Unit where
  inv := O.inv
  idle := Idle faults
  guar _ := DeskStep O faults
  post _ _ := Idle faults
  error _ _ := Idle faults

variable {O : Outside ν} {faults : Faults} {allowed : DeskOp → Prop}
  {stop : Files → Files → Prop}

/-- The session is locked by a command of its own. -/
theorem lock_idle (hU : faults.Uniform) :
    DeskRuns O faults (Idle faults) (Idle faults) lockSession (fun _ => Idle faults) :=
  Logic.Triple.exists fun _ => Logic.Triple.exists fun _ => Logic.Triple.given fun _ =>
    lockSession_runs hU

/-- **Every command keeps the session on its files.** -/
theorem DeskOp.program_idle [Crypto] (hO : O.Runs faults allowed stop) {op : DeskOp}
    (hop : allowed op) (hinit : op ≠ .init) :
    DeskRuns O faults (Idle faults) (Idle faults) op.program (fun _ => Idle faults) := by
  have hU := hO.uniform
  cases op with
  | unlock => exact unlocked_idle hU fun _ => open_pure
  | list => exact cmdList_idle hU
  | get title => exact cmdGet_idle hU title
  | add title => exact cmdAdd_idle hU (hO.saves hop trivial) title
  | edit title => exact cmdEdit_idle hU (hO.saves hop trivial) title
  | remove title => exact cmdRemove_idle hU (hO.saves hop trivial) title
  | passwd => exact cmdPasswd_idle hU (hO.saves hop trivial) (hO.passwd hop)
  | pair => exact cmdPair_idle hU
  | lock => exact lock_idle hU
  | init => exact absurd rfl hinit

/-- **The certificate is one.** -/
theorem deskCertificate_valid [Crypto] (hO : O.Runs faults allowed stop) :
    (deskCertificate O faults).Valid (deskScript O faults allowed stop) where
  start := by
    rintro op s s' hi hidle ⟨hop, hinit, rfl⟩
    have hsafe : (deskLogic O faults).Safe (fun _ => Idle faults) (fun _ => Idle faults)
        op.program s' := by
      by_cases h : op = .init
      · subst h
        refine ((desk_error cmdInit_runs fun _ hs => hs.idle).post fun _ _ _ hs => hs.idle)
          s' hi ?_
        obtain ⟨sess, v, -, hs⟩ := hidle
        obtain rfl : none = sess := (hinit rfl).symm.trans hs.session
        exact hs.locked
      · exact op.program_idle hO hop h s' hi hidle
    refine ⟨hi, Logic.Safe.change ?_ ?_ ?_ ?_ hsafe⟩
    · exact fun _ => Iff.rfl
    · rintro s s' rfl
      exact (deskLogic O faults).rely_refl _
    · exact fun _ _ _ _ hx => hx
    · exact fun _ _ hg => hg
  guar hi hg := hO.step hi hg
  ret hi hidle := ⟨hi, hidle⟩
  fail hi hidle := ⟨hi, hidle⟩
  stop := by
    rintro s ⟨⟨f, sess⟩, out⟩ hi ⟨hsess, hstop, hout⟩
    obtain rfl : sess = none := hsess
    obtain rfl : out = O.note s.desk.files f s.out := hout
    refine ⟨hO.stopped hi hstop, none, f.named, nofun, ⟨rfl, ⟨rfl, ?_⟩, trivial⟩⟩
    exact hO.synced hstop

/-- The states a process starts in: no session is open. -/
theorem deskCertificate_start [Crypto] {s : World ν} (hi : O.inv s) (hsess : s.session = none)
    (hsynced : Reliable (faults none) → s.desk.files.volume.unsynced = []) :
    (deskCertificate O faults).Holds (deskScript O faults allowed stop) ⟨s, none⟩ :=
  Script.Certificate.holds_idle hi ⟨none, s.dir, nofun, ⟨hsess, ⟨rfl, hsynced⟩, trivial⟩⟩

/-! ## Given runs -/

/-- A choice in which no storage call fails. -/
def DeskChoice.sound (o : DeskChoice) : Bool :=
  match o.file with
  | .ok _ => true
  | .fail _ => false

/-- A command answered as chosen, where failures may be allowed; `hear`
says what the answer does to the outside. -/
def World.answer (O : Outside ν) (hear : ν → (c : EnvCmd) → c.Reply → ν) (mayFail : Bool) :
    (c : DeskCmd) → DeskChoice → World ν → Option (c.Reply × World ν)
  | .file c, o, s =>
    if mayFail || o.sound then (Files.exec c o.file s.desk.files).map fun x =>
      (x.1, ⟨{ s.desk with files := x.2 }, O.note s.desk.files x.2 s.out⟩)
    else none
  | .env c, o, s => some (o.answer c, ⟨s.desk, hear s.out c (o.answer c)⟩)
  | .getSession, _, s => some (s.session, s)
  | .setSession sess, _, s => some ((), ⟨{ s.desk with session := sess }, s.out⟩)

/-- The desktop after commands answered as listed. -/
def World.play [Crypto] (O : Outside ν) (hear : ν → (c : EnvCmd) → c.Reply → ν) (mayFail : Bool)
    (s : World ν) : List (DeskOp × List DeskChoice) → Option (World ν)
  | [] => some s
  | (op, l) :: ops =>
    if op = .init ∧ s.session ≠ none then none
    else match Prog.replay (World.answer O hear mayFail) l op.program s with
      | some (_, s') => s'.play O hear mayFail ops
      | none => none

theorem World.answer_exec {hear : ν → (c : EnvCmd) → c.Reply → ν} {mayFail : Bool}
    (hhear : ∀ c x r, O.exec c x r (hear x c r))
    (hfaults : mayFail = true → ∀ sess v, faults sess v) {c : DeskCmd} {o : DeskChoice}
    {s s' : World ν} {r : c.Reply} (h : World.answer O hear mayFail c o s = some (r, s')) :
    O.DeskExec faults c s r s' := by
  cases c with
  | file c =>
    rw [World.answer] at h
    split at h
    · next hmay =>
      obtain ⟨⟨r', f⟩, hf, hrf⟩ := Option.map_eq_some_iff.mp h
      obtain ⟨rfl, rfl⟩ : r' = r ∧
          (⟨{ s.desk with files := f }, O.note s.desk.files f s.out⟩ : World ν) = s' := by
        simpa using hrf
      refine ⟨o.file, f, hf, fun e he => hfaults ?_ _ _, rfl⟩
      simpa [DeskChoice.sound, he] using hmay
    · cases h
  | env c =>
    obtain ⟨rfl, rfl⟩ : o.answer c = r ∧ (⟨s.desk, hear s.out c (o.answer c)⟩ : World ν) = s' := by
      simpa [World.answer] using h
    exact ⟨_, hhear _ _ _, rfl⟩
  | getSession =>
    obtain ⟨rfl, rfl⟩ : s.session = r ∧ s = s' := by simpa [World.answer] using h
    exact ⟨rfl, rfl⟩
  | setSession sess =>
    obtain rfl : (⟨{ s.desk with session := sess }, s.out⟩ : World ν) = s' := by
      simpa [World.answer] using h
    rfl

/-- **Such a run is one of the runs of the desktop.** -/
theorem World.play_steps [Crypto] {hear : ν → (c : EnvCmd) → c.Reply → ν} {mayFail : Bool}
    (hhear : ∀ c x r, O.exec c x r (hear x c r))
    (hfaults : mayFail = true → ∀ sess v, faults sess v) {s s' : World ν}
    {ops : List (DeskOp × List DeskChoice)} (hops : ∀ x ∈ ops, allowed x.1)
    (hp : s.play O hear mayFail ops = some s') :
    (deskScript O faults allowed stop).Steps ⟨s, none⟩ ⟨s', none⟩ := by
  induction ops generalizing s with
  | nil =>
    obtain rfl : s = s' := by simpa [World.play] using hp
    exact .refl
  | cons x ops ih =>
    obtain ⟨op, l⟩ := x
    rw [World.play] at hp
    split at hp
    · cases hp
    · next hinit =>
      split at hp
      · next r s₁ hr =>
        refine .head (.start ⟨hops _ List.mem_cons_self, fun he => ?_, rfl⟩)
          (.trans (Script.Steps.replay (h := World.answer O hear mayFail)
            (fun _ _ _ _ _ hx => World.answer_exec hhear hfaults hx) hr)
            (ih (fun x hx => hops x (List.mem_cons_of_mem _ hx)) hp))
        exact Classical.byContradiction fun hne => hinit ⟨he, hne⟩
      · cases hp

/-- The desktop after the first commands of an operation, answered as listed. -/
def World.advance [Crypto] (O : Outside ν) (hear : ν → (c : EnvCmd) → c.Reply → ν)
    (mayFail : Bool) (s : World ν) (op : DeskOp) (l : List DeskChoice) : Option (World ν) :=
  (Prog.advance (World.answer O hear mayFail) l op.program s).map Prod.snd

/-- **An operation is under way** then. -/
theorem World.advance_steps [Crypto] {hear : ν → (c : EnvCmd) → c.Reply → ν} {mayFail : Bool}
    (hhear : ∀ c x r, O.exec c x r (hear x c r))
    (hfaults : mayFail = true → ∀ sess v, faults sess v) {s s' : World ν} {op : DeskOp}
    {l : List DeskChoice} (hop : allowed op) (hinit : op = .init → s.session = none)
    (hp : s.advance O hear mayFail op l = some s') :
    ∃ p, (deskScript O faults allowed stop).Steps ⟨s, none⟩ ⟨s', some (op, p)⟩ := by
  obtain ⟨⟨p, s''⟩, hrun, hs⟩ := Option.map_eq_some_iff.mp hp
  obtain rfl : s'' = s' := hs
  exact ⟨p, .head (.start ⟨hop, hinit, rfl⟩) (Script.Steps.advance
    (h := World.answer O hear mayFail)
    (fun _ _ _ _ _ hx => World.answer_exec hhear hfaults hx) hrun)⟩

/-- Thirty-two times a byte. -/
def bytesOf (b : UInt8) : Bytes32 := Vector.replicate 32 b

/-- A salt. -/
def zeroSalt : Salt := Vector.replicate 16 0

/-- An outside that does what it is asked, the phone sending the given
message: the user knows the password and agrees, the phone approves. -/
def willing (m : FerusaMessage) : (c : EnvCmd) → c.Reply
  | .promptPassword => .ok "correct horse battery"
  | .readLine => .ok "y"
  | .promptPasswordField => .ok ""
  | .copyPassword _ => .ok ()
  | .newSalt => zeroSalt
  | .newUuid => 0
  | .correlationCode => 0
  | .newSecretKey => List.replicate 32 3
  | .nowMs => 0
  | .bindEndpoint => .ok ()
  | .sendAuthRequest _ req =>
    .ok { pairingId := req.pairingId, requestId := req.requestId,
          correlationCode := req.correlationCode, action := req.action, approved := true,
          unlockShare := some (bytesOf 1), timestamp := 0, signature := [1] }
  | .acceptPhone => .ok (0, bytesOf 0)
  | .connectPhone _ => .ok 0
  | .send _ _ => .ok ()
  | .receive _ => .ok m
  | .finish _ => .ok ()
  | .closed _ => .ok (.applicationClosed 0 "pairing complete")

/-- Commands that go well while the phone says one thing. -/
def smoothly (n : Nat) (m : FerusaMessage) : List DeskChoice :=
  List.replicate n ⟨.ok 0, willing m⟩

end Desktop
