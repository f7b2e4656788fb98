import Ferusa.Lib.Hosting
import Ferusa.Desktop.Clipboard
import Ferusa.Desktop.Saving

/-!
# The command line

A process of the command line runs one command and ends, or it is the
shell: it unlocks the vault, reads line after line and runs what each
says, whatever becomes of it, until it is left; then it locks the vault.
`deskScript` knows neither lines nor processes, only commands one after
the other. `shell_refines` says that it need not: whatever is typed, and
whichever processes are started one after the other, what becomes of the
vault is one of its runs.

The shell asks for the connection to the phone on its own, and so it does
for the settings of the clipboard. What the connection answers is only
printed. The settings are kept (`Settings`), since a later process reads
what an earlier one has written.
-/

namespace Desktop

open Script

/-- What `rustyline` reads. -/
inductive ReadLine where
  | line (text : String)
  | interrupted
  | eof
  | failed (e : String)
  deriving DecidableEq

/-- **What the command line asks for on its own.** -/
inductive ShellCmd where
  | loadPaths
  | newEditor
  | readLine
  | readAnswer
  | dialPhone (node : Bytes32) (seconds : Nat)
  | ping
  | closePhone
  | readSettings
  | writeCommand (command : String)
  | writeTimeout (seconds : Nat)
  | clearHelper (afterSecs : Nat)
  deriving DecidableEq

/-- What is answered. -/
abbrev ShellCmd.Reply : ShellCmd → Type
  | loadPaths => Except Anyhow Unit
  | newEditor => Except String Unit
  | readLine => ReadLine
  | readAnswer => Except String String
  | dialPhone _ _ => Except Anyhow Unit
  | ping => Unit
  | closePhone => Unit
  | readSettings => ClipboardOutside
  | writeCommand _ => Except Anyhow Unit
  | writeTimeout _ => Except Anyhow Unit
  | clearHelper _ => Except Anyhow Unit

/-- A program of the command line. -/
abbrev ShellProg (α : Type) := Prog (Answer DeskCmd.Reply ShellCmd.Reply) Anyhow α

namespace ShellProg

/-- Ask for something. -/
def ask (c : ShellCmd) : ShellProg c.Reply :=
  Prog.perform (Sum.inr c : DeskCmd ⊕ ShellCmd)

/-- **A command on the vault**, whatever becomes of it. -/
def run [Crypto] (op : DeskOp) : ShellProg (Except Anyhow Unit) :=
  part op.program

end ShellProg

open ShellProg

/-! ## The connection -/

/-- `connect_to_phone`. -/
def connectToPhone (seconds : Nat) : ShellProg Unit := do
  let s : Option SessionState ← Prog.perform (Sum.inl DeskCmd.getSession : DeskCmd ⊕ ShellCmd)
  let s ← Prog.okOr "session not unlocked" s
  let pairing ← Prog.okOr "session missing pairing data" s.pairing
  Prog.ensure (s.endpoint = true) "real 2FA endpoint unavailable"
  let dialed ← ask (.dialPhone pairing.phoneNodeId seconds)
  Prog.ofExcept dialed

/-! ## The settings -/

/-- `cmd_config_get`. -/
def cmdConfigGet : ShellProg Unit := do
  let paths ← ask .loadPaths
  Prog.ofExcept paths
  let o ← ask .readSettings
  let _ ← Prog.ofExcept (readClipboardCommand o)
  let _ ← Prog.ofExcept (readClearTimeout o)
  pure ()

/-- `write_clipboard_command`. -/
def writeClipboardCommand (command : String) : ShellProg Unit := do
  Prog.ofExcept (validateClipboardCommand command)
  let written ← ask (.writeCommand command)
  Prog.ofExcept written

/-- `write_clear_timeout`. -/
def writeClearTimeout (seconds : Nat) : ShellProg Unit := do
  Prog.ofExcept (validateClearTimeout seconds)
  let written ← ask (.writeTimeout seconds)
  Prog.ofExcept written

/-- `cmd_config_set`. -/
def cmdConfigSet (command : String) (clearAfter : Nat) : ShellProg Unit := do
  let paths ← ask .loadPaths
  Prog.ofExcept paths
  Prog.ofExcept (validateClipboardCommand (trim command))
  Prog.ofExcept (validateClearTimeout clearAfter)
  let answer ← ask .readAnswer
  let answer ← Prog.ofExcept (answer.mapError fun e => [e])
  if (trim answer).toLower = "y" ∨ (trim answer).toLower = "yes" then
    writeClipboardCommand (trim command)
    writeClearTimeout clearAfter
  else Prog.bail "clipboard command not saved"

/-- The end of `cmd_init`: the clipboard command may be set at once. -/
def configureClipboard : ShellProg Unit := do
  let answer ← ask .readAnswer
  let answer ← Prog.ofExcept (answer.mapError fun e => [e])
  if (trim answer).toLower = "y" ∨ (trim answer).toLower = "yes" then
    let command ← ask .readAnswer
    let command ← Prog.ofExcept (command.mapError fun e => [e])
    cmdConfigSet (trim command) 30
  else pure ()

/-! ## The shell -/

/-- What a process goes on with. -/
inductive Next where
  | repl
  | leaving
  deriving DecidableEq

/-- What a line says is done, and then comes the next one. -/
def ReplCommand.run [Crypto] : ReplCommand → ShellProg Next
  | .exit => pure .leaving
  | .lock => pure .leaving
  | .help => pure .repl
  | .ping => do
    ask .ping
    pure .repl
  | .reconnect => do
    ask .closePhone
    let _ ← ((connectToPhone 10).attempt : ShellProg (Except Anyhow Unit))
    pure .repl
  | .add title => ShellProg.run (.add title) >>= fun _ => pure .repl
  | .get title => ShellProg.run (.get title) >>= fun _ => pure .repl
  | .edit title => ShellProg.run (.edit title) >>= fun _ => pure .repl
  | .remove title => ShellProg.run (.remove title) >>= fun _ => pure .repl
  | .list => ShellProg.run .list >>= fun _ => pure .repl
  | .pair => ShellProg.run .pair >>= fun _ => pure .repl
  | .passwd => ShellProg.run .passwd >>= fun _ => pure .repl
  | .configGet => do
    let _ ← (cmdConfigGet.attempt : ShellProg (Except Anyhow Unit))
    pure .repl
  | .configSet command => do
    let _ ← ((cmdConfigSet command 30).attempt : ShellProg (Except Anyhow Unit))
    pure .repl
  | .unknown _ => pure .repl

/-- **A turn of `repl_loop`.** -/
def replTurn [Crypto] : ShellProg (Option Next) := do
  let line : ReadLine ← ask .readLine
  match line with
  | .interrupted => pure (some .leaving)
  | .eof => pure (some .leaving)
  | .failed e => Prog.fail [e]
  | .line text =>
    if (trim text).isEmpty then pure (some .repl)
    else do
      let next ← (parse (trim text)).run
      pure (some next)

/-- What `repl_loop` does when it is left. -/
def leaveRepl [Crypto] : ShellProg (Option Next) := do
  ask .closePhone
  let _ ← ShellProg.run .lock
  pure none

/-- `repl::run`, up to the loop. -/
def startRepl [Crypto] : ShellProg (Option Next) := do
  let paths ← ask .loadPaths
  Prog.ofExcept paths
  let unlocked ← ShellProg.run .unlock
  Prog.ofExcept unlocked
  let _ ← ((connectToPhone 5).attempt : ShellProg (Except Anyhow Unit))
  let editor ← ask .newEditor
  Prog.ofExcept (editor.mapError fun e => [e])
  pure (some .repl)

/-! ## The processes -/

/-- `Commands`, and no command at all: the shell. -/
inductive Invocation where
  | shell
  | init
  | add (title : String)
  | get (title : String)
  | edit (title : String)
  | remove (title : String)
  | list
  | passwd
  | pair
  | configGet
  | configSet (clearAfter : Nat) (command : List String)
  | clipboardClearHelper (afterSecs : Nat)
  deriving DecidableEq

/-- A command on the vault is all that the process does. -/
def oneShot [Crypto] (op : DeskOp) : ShellProg (Option Next) := do
  let result ← ShellProg.run op
  Prog.ofExcept result
  pure none

/-- `cmd_init`: the vault is made, and then its settings. -/
def initVault [Crypto] : ShellProg (Option Next) := do
  let result ← ShellProg.run .init
  Prog.ofExcept result
  configureClipboard
  pure none

/-- **`main`.** -/
def Invocation.main [Crypto] : Invocation → ShellProg (Option Next)
  | .shell => startRepl
  | .init => initVault
  | .add title => oneShot (.add title)
  | .get title => oneShot (.get title)
  | .edit title => oneShot (.edit title)
  | .remove title => oneShot (.remove title)
  | .list => oneShot .list
  | .passwd => oneShot .passwd
  | .pair => oneShot .pair
  | .configGet => cmdConfigGet >>= fun _ => pure none
  | .configSet clearAfter command =>
    cmdConfigSet (" ".intercalate command) clearAfter >>= fun _ => pure none
  | .clipboardClearHelper afterSecs => do
    let cleared ← ask (.clearHelper afterSecs)
    Prog.ofExcept cleared
    pure none

/-- What a process does next: it is started, or goes on. -/
inductive Stage where
  | invoked (invocation : Invocation)
  | next (next : Next)
  deriving DecidableEq

/-- What a process has to be at for a stage to come: none runs, or one goes on
with it. -/
def Stage.due : Stage → Option Next
  | .invoked _ => none
  | .next n => some n

/-- The program of a stage. -/
def Stage.program [Crypto] : Stage → ShellProg (Option Next)
  | .invoked invocation => invocation.main
  | .next .repl => replTurn
  | .next .leaving => leaveRepl

/-- The settings of the clipboard, as they are stored. -/
structure Settings where
  command : Option String
  timeout : Option String
  deriving DecidableEq

variable {ν : Type}

/-- **The command line**: the vault and what is outside, the settings, and
what the process that runs goes on with. -/
structure CommandLine (ν : Type) where
  world : World ν
  settings : Settings
  next : Option Next

/-- **The process ends**, and with it what it has in memory. -/
def CommandLine.ended (s : CommandLine ν) : CommandLine ν :=
  ⟨⟨{ s.world.desk with session := none }, s.world.out⟩, s.settings, none⟩

/-- What comes after a stage. -/
def CommandLine.after (s : CommandLine ν) : Except Anyhow (Option Next) → CommandLine ν
  | .ok (some next) => { s with next := some next }
  | .ok none => s.ended
  | .error _ => s.ended

/-- What is read of the settings is what is stored, unless it cannot be
read. -/
structure Settings.ReadAs (f : Settings) (o : ClipboardOutside) : Prop where
  command : ∀ command, o.commandFile = .ok command → f.command = some command
  absent : o.timeoutFile = none → f.timeout = none
  timeout : ∀ raw, o.timeoutFile = some (.ok raw) → f.timeout = some raw

/-- **What becomes of the settings.** What is written may be there though it
was reported to fail. -/
def ShellCmd.Exec : (c : ShellCmd) → Settings → c.Reply → Settings → Prop
  | .readSettings, f, o, f' => f.ReadAs o ∧ f' = f
  | .writeCommand command, f, r, f' =>
    f' = { f with command := some command } ∨ (∃ e, r = .error e) ∧ f' = f
  | .writeTimeout seconds, f, r, f' =>
    f' = { f with timeout := some (toString seconds) } ∨ (∃ e, r = .error e) ∧ f' = f
  | _, f, _, f' => f' = f

/-- **What a command does.** -/
def ShellExec (O : Outside ν) (faults : Faults) : (c : DeskCmd ⊕ ShellCmd) → CommandLine ν →
    Answer DeskCmd.Reply ShellCmd.Reply c → CommandLine ν → Prop
  | .inl c, s, r, s' => ∃ w, O.DeskExec faults c s.world r w ∧ s' = { s with world := w }
  | .inr c, s, r, s' => ∃ f, c.Exec s.settings r f ∧ s' = { s with settings := f }

/-- **The runs of the command line**: processes, one after the other, of
which any may be killed. -/
def shellScript [Crypto] (O : Outside ν) (faults : Faults) (stop : Files → Files → Prop) :
    Script (Answer DeskCmd.Reply ShellCmd.Reply) Stage (CommandLine ν) Anyhow (Option Next) where
  exec := ShellExec O faults
  program := Stage.program
  start stage s s' := s.next = stage.due ∧ s' = s
  finish _ x s := s.after x
  stop s s' := s'.world.session = none ∧ stop s.world.desk.files s'.world.desk.files ∧
    s'.world.out = O.note s.world.desk.files s'.world.desk.files s.world.out ∧
    s'.settings = s.settings ∧ s'.next = none

/-! ## The commands of the vault within -/

section

variable [Crypto] {O : Outside ν} {faults : Faults} {stop : Files → Files → Prop}

/-- A command may be run at any time, but for `init`. -/
theorem free_of_ne_init {op : DeskOp} (h : op ≠ .init) :
    (deskScript O faults (fun _ => True) stop).Free op where
  start _ := ⟨trivial, fun hinit => absurd hinit h, rfl⟩
  finish _ _ := rfl

/-- A program of the command line runs commands of the vault. -/
def HostsDesk {α : Type} (O : Outside ν) (faults : Faults) (stop : Files → Files → Prop)
    (p : ShellProg α) : Prop :=
  (deskScript O faults (fun _ => True) stop).Hosts p

theorem hosts_ask (c : ShellCmd) : HostsDesk O faults stop (ask c) :=
  .ask c fun _ => .ret _

theorem hosts_ofExcept {α : Type} {x : Except Anyhow α} :
    HostsDesk O faults stop (Prog.ofExcept x : ShellProg α) := by
  cases x with
  | ok a => exact .ret a
  | error e => exact .fail e

theorem hosts_okOr {α : Type} {message : String} {x : Option α} :
    HostsDesk O faults stop (Prog.okOr message x : ShellProg α) := by
  cases x with
  | some a => exact .ret a
  | none => exact .fail _

theorem hosts_ensure {check : Prop} [Decidable check] {message : String} :
    HostsDesk O faults stop (Prog.ensure check message : ShellProg Unit) := by
  unfold Prog.ensure
  split
  · exact .ret ()
  · exact .fail _

theorem hosts_run {op : DeskOp} (h : op ≠ .init) :
    HostsDesk O faults stop (ShellProg.run op) :=
  Hosts.whole (free_of_ne_init h)

theorem hosts_connectToPhone (seconds : Nat) :
    HostsDesk O faults stop (connectToPhone seconds) := by
  refine Hosts.bind (.look (fun h => h.2) fun s => .ret s) fun s => ?_
  refine Hosts.bind hosts_okOr fun s => Hosts.bind hosts_okOr fun pairing => ?_
  exact Hosts.bind hosts_ensure fun _ => Hosts.bind (hosts_ask _) fun _ => hosts_ofExcept

theorem hosts_cmdConfigGet : HostsDesk O faults stop cmdConfigGet := by
  refine Hosts.bind (hosts_ask _) fun _ => Hosts.bind hosts_ofExcept fun _ => ?_
  refine Hosts.bind (hosts_ask _) fun o => Hosts.bind hosts_ofExcept fun _ => ?_
  exact Hosts.bind hosts_ofExcept fun _ => .ret ()

theorem hosts_cmdConfigSet (command : String) (clearAfter : Nat) :
    HostsDesk O faults stop (cmdConfigSet command clearAfter) := by
  refine Hosts.bind (hosts_ask _) fun _ => Hosts.bind hosts_ofExcept fun _ => ?_
  refine Hosts.bind hosts_ofExcept fun _ => Hosts.bind hosts_ofExcept fun _ => ?_
  refine Hosts.bind (hosts_ask _) fun answer => Hosts.bind hosts_ofExcept fun answer => ?_
  split
  · exact Hosts.bind (Hosts.bind hosts_ofExcept fun _ => Hosts.bind (hosts_ask _) fun _ =>
      hosts_ofExcept) fun _ => Hosts.bind hosts_ofExcept fun _ => Hosts.bind (hosts_ask _) fun _ =>
        hosts_ofExcept
  · exact .fail _

theorem hosts_configureClipboard : HostsDesk O faults stop configureClipboard := by
  refine Hosts.bind (hosts_ask _) fun answer => Hosts.bind hosts_ofExcept fun answer => ?_
  split
  · exact Hosts.bind (hosts_ask _) fun command => Hosts.bind hosts_ofExcept fun command =>
      hosts_cmdConfigSet _ _
  · exact .ret ()

/-- **Every line** runs what it says. -/
theorem hosts_replCommand (command : ReplCommand) : HostsDesk O faults stop command.run := by
  cases command with
  | exit => exact .ret _
  | lock => exact .ret _
  | help => exact .ret _
  | unknown text => exact .ret _
  | ping => exact Hosts.bind (hosts_ask _) fun _ => .ret _
  | reconnect =>
    exact Hosts.bind (hosts_ask _) fun _ =>
      Hosts.bind (Hosts.attempt (hosts_connectToPhone 10)) fun _ => .ret _
  | add title => exact Hosts.bind (hosts_run nofun) fun _ => .ret _
  | get title => exact Hosts.bind (hosts_run nofun) fun _ => .ret _
  | edit title => exact Hosts.bind (hosts_run nofun) fun _ => .ret _
  | remove title => exact Hosts.bind (hosts_run nofun) fun _ => .ret _
  | list => exact Hosts.bind (hosts_run nofun) fun _ => .ret _
  | pair => exact Hosts.bind (hosts_run nofun) fun _ => .ret _
  | passwd => exact Hosts.bind (hosts_run nofun) fun _ => .ret _
  | configGet => exact Hosts.bind (Hosts.attempt hosts_cmdConfigGet) fun _ => .ret _
  | configSet command =>
    exact Hosts.bind (Hosts.attempt (hosts_cmdConfigSet command 30)) fun _ => .ret _

/-- **The shell goes on** with commands of the vault. -/
theorem hosts_next (next : Next) : HostsDesk O faults stop (Stage.program (.next next)) := by
  cases next with
  | repl =>
    refine Hosts.bind (hosts_ask .readLine) fun (line : ReadLine) => ?_
    cases line with
    | interrupted => exact .ret _
    | eof => exact .ret _
    | failed e => exact .fail _
    | line text =>
      show HostsDesk O faults stop (if (trim text).isEmpty then _ else _)
      split
      · exact .ret _
      · exact Hosts.bind (hosts_replCommand _) fun _ => .ret _
  | leaving =>
    exact Hosts.bind (hosts_ask _) fun _ => Hosts.bind (hosts_run nofun) fun _ => .ret _

theorem hosts_oneShot {op : DeskOp} (h : op ≠ .init) : HostsDesk O faults stop (oneShot op) :=
  Hosts.bind (hosts_run h) fun _ => Hosts.bind hosts_ofExcept fun _ => .ret _

/-- **Each process** runs commands of the vault, `init` apart. -/
theorem hosts_main {invocation : Invocation} (h : invocation ≠ .init) :
    HostsDesk O faults stop invocation.main := by
  cases invocation with
  | shell =>
    refine Hosts.bind (hosts_ask _) fun _ => Hosts.bind hosts_ofExcept fun _ => ?_
    refine Hosts.bind (hosts_run nofun) fun _ => Hosts.bind hosts_ofExcept fun _ => ?_
    refine Hosts.bind (Hosts.attempt (hosts_connectToPhone 5)) fun _ => ?_
    exact Hosts.bind (hosts_ask _) fun _ => Hosts.bind hosts_ofExcept fun _ => .ret _
  | init => exact absurd rfl h
  | add title => exact hosts_oneShot nofun
  | get title => exact hosts_oneShot nofun
  | edit title => exact hosts_oneShot nofun
  | remove title => exact hosts_oneShot nofun
  | list => exact hosts_oneShot nofun
  | passwd => exact hosts_oneShot nofun
  | pair => exact hosts_oneShot nofun
  | configGet => exact Hosts.bind hosts_cmdConfigGet fun _ => .ret _
  | configSet clearAfter command => exact Hosts.bind (hosts_cmdConfigSet _ _) fun _ => .ret _
  | clipboardClearHelper afterSecs =>
    exact Hosts.bind (hosts_ask _) fun _ => Hosts.bind hosts_ofExcept fun _ => .ret _

/-! ## The refinement -/

/-- **What the command line is at** is what the commands of the vault are at. -/
structure Refines (O : Outside ν) (faults : Faults) (stop : Files → Files → Prop)
    (c : Config (Answer DeskCmd.Reply ShellCmd.Reply) Stage (CommandLine ν) Anyhow (Option Next))
    (d : Config DeskCmd.Reply DeskOp (World ν) Anyhow Unit) : Prop where
  running : ∀ stage p, c.running = some (stage, p) →
    Hosted (deskScript O faults (fun _ => True) stop) c.state.world p d
  idle : c.running = none → d = ⟨c.state.world, none⟩
  /-- No process, no session. -/
  fresh : c.running = none → c.state.next = none → c.state.world.session = none

theorem Refines.state {c : Config (Answer DeskCmd.Reply ShellCmd.Reply) Stage (CommandLine ν)
      Anyhow (Option Next)} {d : Config DeskCmd.Reply DeskOp (World ν) Anyhow Unit}
    (h : Refines O faults stop c d) : d.state = c.state.world := by
  cases hr : c.running with
  | none => rw [h.idle hr]
  | some x => exact (h.running x.1 x.2 hr).state

/-- A program that is under way. -/
theorem Refines.of_hosted {s : CommandLine ν} {stage : Stage} {p : ShellProg (Option Next)}
    {d : Config DeskCmd.Reply DeskOp (World ν) Anyhow Unit}
    (h : Hosted (deskScript O faults (fun _ => True) stop) s.world p d) :
    Refines O faults stop ⟨s, some (stage, p)⟩ d := by
  refine ⟨fun stage' p' heq => ?_, nofun, nofun⟩
  obtain ⟨-, rfl⟩ := Prod.mk.inj (Option.some.inj heq)
  exact h

/-- **A process that ends** leaves the vault locked, as the command does. -/
theorem ended_refines (s : CommandLine ν) :
    ∃ d, (deskScript O faults (fun _ => True) stop).Steps ⟨s.world, none⟩ d ∧
      Refines O faults stop ⟨s.ended, none⟩ d := by
  have hstart : (deskScript O faults (fun _ => True) stop).start .lock s.world s.world :=
    ⟨trivial, nofun, rfl⟩
  exact ⟨⟨s.ended.world, none⟩, .head (.start hstart) (.head (.call (r := ()) rfl) (.single .ret)),
    nofun, fun _ => rfl, fun _ _ => rfl⟩

/-- **A process is started**, `init` where no session is open. -/
theorem main_refines {s : CommandLine ν} (hs : s.world.session = none) (invocation : Invocation) :
    ∃ d, (deskScript O faults (fun _ => True) stop).Steps ⟨s.world, none⟩ d ∧
      Refines O faults stop ⟨s, some (.invoked invocation, invocation.main)⟩ d := by
  -- `init` is no free operation: it starts where no session is open
  by_cases hinit : invocation = .init
  · subst hinit
    have hstart : (deskScript O faults (fun _ => True) stop).start .init s.world s.world :=
      ⟨trivial, fun _ => hs, rfl⟩
    obtain ⟨d, hd, hhosted⟩ := hosted_op (S := ShellCmd.Reply)
      (k := fun result => Prog.ofExcept result >>= fun _ => configureClipboard >>= fun _ =>
        pure (none : Option Next))
      hstart (fun _ _ => rfl) fun _ => Hosts.bind hosts_ofExcept fun _ =>
        Hosts.bind hosts_configureClipboard fun _ => .ret _
    exact ⟨d, hd, .of_hosted hhosted⟩
  · obtain ⟨d, hd, hhosted⟩ := (hosts_main hinit).hosted s.world
    exact ⟨d, hd, .of_hosted hhosted⟩

/-- **One step of the command line.** -/
theorem refines_step {c c' : Config (Answer DeskCmd.Reply ShellCmd.Reply) Stage (CommandLine ν)
      Anyhow (Option Next)} {d : Config DeskCmd.Reply DeskOp (World ν) Anyhow Unit}
    (h : Refines O faults stop c d) (hs : (shellScript O faults stop).Step c c') :
    ∃ d', (deskScript O faults (fun _ => True) stop).Steps d d' ∧
      Refines O faults stop c' d' := by
  cases hs with
  | @start stage s s' hstart =>
    obtain rfl := h.idle rfl
    obtain ⟨hdue, heq⟩ := hstart
    obtain rfl : s' = s := heq
    cases stage with
    | invoked invocation => exact main_refines (h.fresh rfl hdue) invocation
    | next next =>
      obtain ⟨d, hd, hhosted⟩ := (hosts_next next).hosted s'.world
      exact ⟨d, hd, .of_hosted hhosted⟩
  | @call stage c k s r s' hx =>
    have hhosted := h.running _ _ rfl
    cases c with
    | inl c =>
      obtain ⟨w, hw, rfl⟩ := hx
      obtain ⟨d', hd, hnext⟩ := hhosted.call hw
      exact ⟨d', hd, .of_hosted hnext⟩
    | inr c =>
      -- the shell asks for something, and the vault is left alone
      obtain ⟨f, -, rfl⟩ := hx
      obtain ⟨d', hd, hnext⟩ := hhosted.ask_call r
      exact ⟨d', hd, .of_hosted hnext⟩
  | @ret stage next s =>
    obtain rfl : d = ⟨s.world, none⟩ := by
      cases h.running _ _ rfl
      rfl
    -- the process ends, or the stage that comes next is due
    cases next with
    | none => exact ended_refines s
    | some next => exact ⟨_, .refl, nofun, fun _ => rfl, nofun⟩
  | @fail stage e s =>
    obtain rfl : d = ⟨s.world, none⟩ := by
      cases h.running _ _ rfl
      rfl
    exact ended_refines s
  | @stop s s' running hstop =>
    obtain ⟨hsession, hfiles, hout, -, -⟩ := hstop
    -- the vault's script may stop at any command, and so wherever the shell is
    refine ⟨⟨s'.world, none⟩, .single ?_, nofun, fun _ => rfl, fun _ _ => hsession⟩
    obtain ⟨w, underway⟩ := d
    obtain rfl : w = s.world := h.state
    exact .stop ⟨hsession, hfiles, hout⟩

/-- **The command line refines the commands of the vault.** -/
theorem shell_refines {w : World ν} {settings : Settings}
    {c : Config (Answer DeskCmd.Reply ShellCmd.Reply) Stage (CommandLine ν) Anyhow (Option Next)}
    (hw : w.session = none)
    (hs : (shellScript O faults stop).Steps ⟨⟨w, settings, none⟩, none⟩ c) :
    ∃ d, (deskScript O faults (fun _ => True) stop).Steps ⟨w, none⟩ d ∧ d.state = c.state.world ∧
      (c.running = none → d.running = none) ∧
      (c.running = none → c.state.next = none → c.state.world.session = none) := by
  have hrefines : ∃ d, (deskScript O faults (fun _ => True) stop).Steps ⟨w, none⟩ d ∧
      Refines O faults stop c d := by
    induction hs with
    | refl => exact ⟨⟨w, none⟩, .refl, nofun, fun _ => rfl, fun _ _ => hw⟩
    | tail _ hstep ih =>
      obtain ⟨d, hd, hrefines⟩ := ih
      obtain ⟨d', hd', hrefines'⟩ := refines_step hrefines hstep
      exact ⟨d', hd.trans hd', hrefines'⟩
  obtain ⟨d, hd, hrefines⟩ := hrefines
  exact ⟨d, hd, hrefines.state, fun hidle => by rw [hrefines.idle hidle], hrefines.fresh⟩

end

/-! ## Given runs -/

/-- How a command is answered. -/
structure ShellChoice where
  desk : DeskChoice
  answer : (c : ShellCmd) → c.Reply

/-- What is stored where nothing fails. -/
def ShellCmd.stored : ShellCmd → Settings → Settings
  | .writeCommand command, f => { f with command := some command }
  | .writeTimeout seconds, f => { f with timeout := some (toString seconds) }
  | _, f => f

/-- A command answered as chosen. The settings are not read. -/
def CommandLine.answer (O : Outside ν) (hear : ν → (c : EnvCmd) → c.Reply → ν) :
    (c : DeskCmd ⊕ ShellCmd) → ShellChoice → CommandLine ν →
      Option (Answer DeskCmd.Reply ShellCmd.Reply c × CommandLine ν)
  | .inl c, o, s => (World.answer O hear false c o.desk s.world).map fun x =>
    (x.1, { s with world := x.2 })
  | .inr .readSettings, _, _ => none
  | .inr c, o, s => some (o.answer c, { s with settings := c.stored s.settings })

/-- The command line after stages answered as listed. -/
def CommandLine.play [Crypto] (O : Outside ν) (hear : ν → (c : EnvCmd) → c.Reply → ν)
    (s : CommandLine ν) : List (Stage × List ShellChoice) → Option (CommandLine ν)
  | [] => some s
  | (stage, l) :: stages =>
    if s.next = stage.due then
      (Prog.replay (CommandLine.answer O hear) l stage.program s).bind fun x =>
        (x.2.after x.1).play O hear stages
    else none

theorem CommandLine.answer_exec {O : Outside ν} {faults : Faults}
    {hear : ν → (c : EnvCmd) → c.Reply → ν} (hhear : ∀ c x r, O.exec c x r (hear x c r))
    {c : DeskCmd ⊕ ShellCmd} {o : ShellChoice} {s s' : CommandLine ν}
    {r : Answer DeskCmd.Reply ShellCmd.Reply c}
    (h : CommandLine.answer O hear c o s = some (r, s')) : ShellExec O faults c s r s' := by
  cases c with
  | inl c =>
    obtain ⟨⟨r', w⟩, hw, heq⟩ := Option.map_eq_some_iff.mp h
    obtain ⟨rfl, rfl⟩ := Prod.mk.inj heq
    exact ⟨w, World.answer_exec hhear nofun hw, rfl⟩
  | inr c =>
    cases c with
    | readSettings => cases h
    | _ =>
      obtain ⟨rfl, rfl⟩ := Prod.mk.inj (Option.some.inj h)
      first | exact ⟨_, rfl, rfl⟩ | exact ⟨_, .inl rfl, rfl⟩

/-- **Such a run is one of the command line.** -/
theorem CommandLine.play_steps [Crypto] {O : Outside ν} {faults : Faults}
    {stop : Files → Files → Prop} {hear : ν → (c : EnvCmd) → c.Reply → ν}
    (hhear : ∀ c x r, O.exec c x r (hear x c r)) {s s' : CommandLine ν}
    {stages : List (Stage × List ShellChoice)} (hp : s.play O hear stages = some s') :
    (shellScript O faults stop).Steps ⟨s, none⟩ ⟨s', none⟩ := by
  induction stages generalizing s with
  | nil =>
    obtain rfl : s = s' := Option.some.inj hp
    exact .refl
  | cons x stages ih =>
    obtain ⟨stage, l⟩ := x
    rw [CommandLine.play] at hp
    split at hp
    · next hdue =>
      obtain ⟨⟨r, s₁⟩, hr, hp⟩ := Option.bind_eq_some_iff.mp hp
      have hstart : (shellScript O faults stop).start stage s s := ⟨hdue, rfl⟩
      exact .head (.start hstart) ((Script.Steps.replay (h := CommandLine.answer O hear)
        (fun _ _ _ _ _ hx => CommandLine.answer_exec hhear hx) hr).trans (ih hp))
    · cases hp

/-- An outside in which all goes well, and the user types the line. -/
def typing (line : ReadLine) : (c : ShellCmd) → c.Reply
  | .loadPaths => .ok ()
  | .newEditor => .ok ()
  | .readLine => line
  | .readAnswer => .ok "y"
  | .dialPhone _ _ => .ok ()
  | .ping => ()
  | .closePhone => ()
  | .readSettings => ⟨.error "", fun _ => .ok (), none, fun _ => true, fun _ => .ok ()⟩
  | .writeCommand _ => .ok ()
  | .writeTimeout _ => .ok ()
  | .clearHelper _ => .ok ()

/-- Commands that go well while one line is typed. -/
def typed (n : Nat) (line : ReadLine) : List ShellChoice :=
  List.replicate n ⟨⟨.ok 0, willing .ping⟩, typing line⟩

attribute [local instance] Crypto.plain

/-- In the shell an entry is removed, and the shell is left. -/
def removal : List (Stage × List ShellChoice) :=
  [(.invoked .shell, typed 60 .eof), (.next .repl, typed 60 (.line " rm  mail ")),
    (.next .repl, typed 10 .eof), (.next .leaving, typed 10 .eof)]

/-- The vault on disk has no entry. -/
def World.emptied (w : World Unit) : Bool :=
  match w.dir .vaultEnc with
  | some (.vault blob) => blob.plaintext.entries.isEmpty
  | _ => false

/-- The entry is gone, as it is in a run of the commands. -/
theorem shell_refines_removal : ∃ s : CommandLine Unit, s.next = none ∧ s.world.emptied = true ∧
    ∃ d, (deskScript .any anyFault (fun _ => True) sameFiles).Steps ⟨⟨mailDesktop, ()⟩, none⟩ d ∧
      d.state = s.world ∧ d.running = none := by
  have hplay : ((CommandLine.play .any (fun x _ _ => x) ⟨⟨mailDesktop, ()⟩, ⟨none, none⟩, none⟩
      removal).map fun s => (s.next, s.world.emptied)) = some (none, true) := by decide +kernel
  obtain ⟨s, hs, hresult⟩ := Option.map_eq_some_iff.mp hplay
  obtain ⟨hnext, hemptied⟩ := Prod.mk.inj hresult
  obtain ⟨d, hd, hstate, hidle, -⟩ := shell_refines (c := ⟨s, none⟩) rfl
    (CommandLine.play_steps (fun _ _ _ => trivial) hs)
  exact ⟨s, hnext, hemptied, d, hd, hstate, hidle rfl⟩

end Desktop
