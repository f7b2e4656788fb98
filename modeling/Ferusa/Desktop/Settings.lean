import Ferusa.Lib.Json
import Ferusa.Desktop.Shell

/-!
# The settings of the clipboard

Which command gets a password, and after how many seconds the clipboard is
cleared, is set by one process and read by another. Both are checked when
they are set and again when they are read, and they are kept as text. The
two checks have to agree: a setting that is taken must never be refused
later, when a password is to be copied (`settings_read_back`).
-/

namespace Desktop

open Script Prog

/-- What goes on goes on with the value. -/
theorem except_bind {ε α β : Type} {x : Except ε α} {a : α} {f : α → Except ε β}
    (h : x = .ok a) : (x >>= f) = f a := by
  rw [h]
  rfl

/-! ## Seconds as text -/

/-- A number has digits only. -/
theorem toString_toList (n : Nat) : (toString n).toList = printNat n :=
  Nat.toList_repr

/-- **A number is read back from its text.** -/
theorem parseU64_toString {n : Nat} (h : n < 2 ^ 64) : parseU64 (toString n) = some n := by
  obtain ⟨c, l, hcons, hdigit⟩ := printNat_eq_cons n
  have hplus : (toString n).toList.head? ≠ some '+' := by
    rw [toString_toList, hcons]
    rintro heq
    obtain rfl := Option.some.inj heq
    exact absurd hdigit (by decide)
  have hall : (toString n).toList.all Char.isDigit = true :=
    List.all_eq_true.mpr fun c hc => printNat_isDigit (toString_toList n ▸ hc)
  have hne : (toString n).toList.isEmpty = false := by rw [toString_toList, hcons]; rfl
  have hvalue : (toString n).toList.foldl (fun n c => 10 * n + (c.toNat - '0'.toNat)) 0 = n :=
    (congrArg _ (toString_toList n)).trans Nat.ofDigitChars_ten_toDigits
  unfold parseU64
  rw [if_neg hplus, if_neg (by rw [hall, hne]; decide), hvalue, if_pos h]

/-- A number is not trimmed. -/
theorem trim_toString (n : Nat) : trim (toString n) = toString n := by
  have hspace : ∀ c ∈ (toString n).toList, isWhitespace c = false := by
    intro c hc
    have hdigit : c.isDigit = true := printNat_isDigit (toString_toList n ▸ hc)
    obtain ⟨hlow, hhigh⟩ : 48 ≤ c.toNat ∧ c.toNat ≤ 57 := by
      simpa [Char.isDigit, UInt32.le_iff_toNat_le] using hdigit
    simp only [isWhitespace, List.contains_eq_mem, List.mem_cons, List.not_mem_nil]
    grind
  exact trim_eq_self (fun c hc => hspace c (List.mem_of_head? hc))
    fun c hc => hspace c (List.mem_of_getLast? hc)

/-! ## What is stored -/

/-- **What is stored was checked.** -/
structure Settings.Sound (f : Settings) : Prop where
  command : ∀ command, f.command = some command →
    trim command = command ∧ validateClipboardCommand command = .ok ()
  timeout : ∀ raw, f.timeout = some raw →
    ∃ seconds, raw = toString seconds ∧ validateClearTimeout seconds = .ok ()

/-- What is written was checked. -/
def WritesSound : DeskCmd ⊕ ShellCmd → Prop
  | .inr (.writeCommand command) =>
    trim command = command ∧ validateClipboardCommand command = .ok ()
  | .inr (.writeTimeout seconds) => validateClearTimeout seconds = .ok ()
  | _ => True

theorem Settings.Sound.exec {c : ShellCmd} {f f' : Settings} {r : c.Reply} (h : f.Sound)
    (hc : WritesSound (.inr c)) (hx : c.Exec f r f') : f'.Sound := by
  cases c with
  | writeCommand command =>
    rcases hx with rfl | ⟨-, rfl⟩
    · refine ⟨fun stored hstored => ?_, h.timeout⟩
      obtain rfl : command = stored := Option.some.inj hstored
      exact hc
    · exact h
  | writeTimeout seconds =>
    rcases hx with rfl | ⟨-, rfl⟩
    · exact ⟨h.command, fun raw hraw => ⟨seconds, (Option.some.inj hraw).symm, hc⟩⟩
    · exact h
  | readSettings => exact hx.2 ▸ h
  | _ => exact (show f' = f from hx) ▸ h

/-! ## What is written -/

/-- **The program writes only what was checked.** -/
structure Checks {α : Type} (p : ShellProg α) : Prop where
  only : p.Only WritesSound

namespace Checks

variable {α β : Type}

theorem pure {a : α} : Checks (Pure.pure a : ShellProg α) := ⟨trivial⟩

theorem fail {e : Anyhow} : Checks (Prog.fail e : ShellProg α) := ⟨trivial⟩

theorem ofExcept {x : Except Anyhow α} : Checks (Prog.ofExcept x : ShellProg α) :=
  ⟨Only.ofExcept⟩

theorem okOr {message : String} {x : Option α} : Checks (Prog.okOr message x : ShellProg α) := by
  cases x with
  | some a => exact pure
  | none => exact fail

theorem ensure {check : Prop} [Decidable check] {message : String} :
    Checks (Prog.ensure check message : ShellProg Unit) := by
  unfold Prog.ensure
  split
  · exact pure
  · exact fail

theorem bind {p : ShellProg α} {f : α → ShellProg β} (hp : Checks p) (hf : ∀ a, Checks (f a)) :
    Checks (p >>= f) :=
  ⟨Only.bind hp.only fun a => (hf a).only⟩

theorem attempt {p : ShellProg α} (hp : Checks p) :
    Checks (p.attempt : ShellProg (Except Anyhow α)) :=
  ⟨Only.attempt hp.only⟩

theorem ask {c : ShellCmd} (h : WritesSound (.inr c)) : Checks (ShellProg.ask c) :=
  ⟨Only.perform h⟩

/-- **The commands of the vault** write no setting. -/
theorem run [Crypto] (op : DeskOp) : Checks (ShellProg.run op) :=
  ⟨Only.hoist (Only.attempt (Only.of_forall fun _ => trivial))⟩

theorem connectToPhone (seconds : Nat) : Checks (connectToPhone seconds) :=
  bind ⟨Only.perform trivial⟩ fun _ => bind okOr fun _ => bind okOr fun _ => bind ensure fun _ =>
    bind (ask trivial) fun _ => ofExcept

theorem cmdConfigGet : Checks cmdConfigGet :=
  bind (ask trivial) fun _ => bind ofExcept fun _ => bind (ask trivial) fun _ =>
    bind ofExcept fun _ => bind ofExcept fun _ => pure

/-- **A setting is checked before it is written.** -/
theorem cmdConfigSet (command : String) (clearAfter : Nat) :
    Checks (cmdConfigSet command clearAfter) := by
  refine bind (ask trivial) fun _ => bind ofExcept fun _ => ?_
  cases hcommand : validateClipboardCommand (trim command) with
  | error e => exact fail
  | ok u =>
    cases htimeout : validateClearTimeout clearAfter with
    | error e => exact fail
    | ok u' =>
      refine bind ofExcept fun _ => bind ofExcept fun _ => bind (ask trivial) fun answer =>
        bind ofExcept fun answer => ?_
      split
      · refine bind (bind ofExcept fun _ => ?_) fun _ => bind ofExcept fun _ => ?_
        · exact bind (ask ⟨trim_trim command, hcommand⟩) fun _ => ofExcept
        · exact bind (ask htimeout) fun _ => ofExcept
      · exact fail

theorem configureClipboard : Checks configureClipboard := by
  refine bind (ask trivial) fun answer => bind ofExcept fun answer => ?_
  split
  · exact bind (ask trivial) fun command => bind ofExcept fun command => cmdConfigSet _ _
  · exact pure

theorem replCommand [Crypto] (command : ReplCommand) : Checks command.run := by
  cases command with
  | ping => exact bind (ask trivial) fun _ => pure
  | reconnect => exact bind (ask trivial) fun _ => bind (connectToPhone 10).attempt fun _ => pure
  | configGet => exact bind cmdConfigGet.attempt fun _ => pure
  | configSet command => exact bind (cmdConfigSet command 30).attempt fun _ => pure
  | exit => exact pure
  | lock => exact pure
  | help => exact pure
  | unknown text => exact pure
  | _ => exact bind (run _) fun _ => pure

theorem oneShot [Crypto] (op : DeskOp) : Checks (oneShot op) :=
  bind (run op) fun _ => bind ofExcept fun _ => pure

theorem main [Crypto] (invocation : Invocation) : Checks invocation.main := by
  cases invocation with
  | shell =>
    refine bind (ask trivial) fun _ => bind ofExcept fun _ => bind (run _) fun _ => ?_
    exact bind ofExcept fun _ => bind (connectToPhone 5).attempt fun _ =>
      bind (ask trivial) fun _ => bind ofExcept fun _ => pure
  | init =>
    exact bind (run _) fun _ => bind ofExcept fun _ => bind configureClipboard fun _ => pure
  | configGet => exact bind cmdConfigGet fun _ => pure
  | configSet clearAfter command => exact bind (cmdConfigSet _ _) fun _ => pure
  | clipboardClearHelper afterSecs =>
    exact bind (ask trivial) fun _ => bind ofExcept fun _ => pure
  | _ => exact oneShot _

/-- **Every program** writes only what was checked. -/
theorem program [Crypto] (stage : Stage) : Checks stage.program := by
  cases stage with
  | invoked invocation => exact main invocation
  | next next =>
    cases next with
    | repl =>
      refine bind (ask trivial) fun (line : ReadLine) => ?_
      cases line with
      | interrupted => exact pure
      | eof => exact pure
      | failed e => exact fail
      | line text =>
        show Checks (if (trim text).isEmpty then _ else _)
        split
        · exact pure
        · exact bind (replCommand _) fun _ => pure
    | leaving => exact bind (ask trivial) fun _ => bind (run _) fun _ => pure

end Checks

variable [Crypto] {ν : Type} {O : Outside ν} {faults : Faults} {stop : Files → Files → Prop}

/-- **What is stored was checked**, in every run. -/
theorem settings_sound {s : CommandLine ν} (hs : s.settings.Sound)
    {c : Config (Answer DeskCmd.Reply ShellCmd.Reply) Stage (CommandLine ν) Anyhow (Option Next)}
    (h : (shellScript O faults stop).Steps ⟨s, none⟩ c) : c.state.settings.Sound := by
  refine Steps.always (I := fun s => s.settings.Sound)
    (fun stage => (Checks.program stage).only) ?_ ?_ ?_ ?_ hs h
  · intro stage s s' hs hstart
    cases stage <;> exact hstart.2 ▸ hs
  · intro c s r s' hc hs hx
    cases c with
    | inl c =>
      obtain ⟨w, -, rfl⟩ := hx
      exact hs
    | inr c =>
      obtain ⟨f, hf, rfl⟩ := hx
      exact hs.exec hc hf
  · intro stage x s hs
    rcases x with e | _ | next <;> exact hs
  · rintro s s' hs ⟨-, -, -, hsettings, -⟩
    exact hsettings.symm ▸ hs

/-- **What was set is read back.** Whatever is typed and whichever processes
are started, with writes that fail and processes that are killed between
two of them: a setting that is found is not refused, and it is what was
stored. -/
theorem settings_read_back {s : CommandLine ν} (hs : s.settings.Sound)
    {c : Config (Answer DeskCmd.Reply ShellCmd.Reply) Stage (CommandLine ν) Anyhow (Option Next)}
    (h : (shellScript O faults stop).Steps ⟨s, none⟩ c) {o : ClipboardOutside}
    (ho : c.state.settings.ReadAs o) :
    (∀ command, o.commandFile = .ok command → readClipboardCommand o = .ok command) ∧
      (o.timeoutFile = none → readClearTimeout o = .ok defaultClearTimeoutSecs) ∧
      ∀ raw, o.timeoutFile = some (.ok raw) → ∃ seconds, raw = toString seconds ∧
        seconds ≤ maxClearTimeoutSecs ∧ readClearTimeout o = .ok seconds := by
  have hsound := settings_sound hs h
  refine ⟨fun command hread => ?_, fun hread => ?_, fun raw hread => ?_⟩
  · obtain ⟨htrim, hvalid⟩ := hsound.command command (ho.command command hread)
    have hstored : (o.commandFile.mapError fun e => ["read clipboard command", e]) =
        .ok command := by
      rw [hread]
      rfl
    refine (except_bind hstored).trans ((except_bind (a := ()) ?_).trans (congrArg _ htrim))
    rw [htrim, hvalid]
  · unfold readClearTimeout
    rw [hread]
    rfl
  · obtain ⟨seconds, rfl, hvalid⟩ := hsound.timeout raw (ho.timeout raw hread)
    have hle : seconds ≤ maxClearTimeoutSecs := by
      by_contra hgt
      rw [validateClearTimeout, if_pos (not_le.mp hgt)] at hvalid
      cases hvalid
    refine ⟨seconds, rfl, hle, ?_⟩
    have hsmall : seconds < 2 ^ 64 := hle.trans_lt (by decide)
    unfold readClearTimeout
    rw [hread]
    have hstored : ((Except.ok (toString seconds)).mapError fun e : String =>
        ["read clipboard clear timeout", e]) = .ok (toString seconds) := rfl
    refine (except_bind hstored).trans ?_
    rw [trim_toString, parseU64_toString hsmall]
    exact except_bind hvalid

omit [Crypto] in
/-- A copying program is set, with a time of its own. -/
theorem settings_read_back_set : ∃ (s : CommandLine Unit) (o : ClipboardOutside),
    s.settings.ReadAs o ∧ readClipboardCommand o = .ok "wl-copy" ∧
      ∃ seconds, "45" = toString seconds ∧ seconds ≤ maxClearTimeoutSecs ∧
        readClearTimeout o = .ok seconds := by
  let start : CommandLine Unit := ⟨⟨mailDesktop, ()⟩, ⟨none, none⟩, none⟩
  let o : ClipboardOutside :=
    ⟨.ok "wl-copy", fun _ => .ok (), some (.ok "45"), fun _ => true, fun _ => .ok ()⟩
  have hplay : ((@CommandLine.play _ Crypto.plain .any (fun x _ _ => x) start
      [(.invoked (.configSet 45 ["wl-copy"]), typed 10 .eof)]).map CommandLine.settings) =
        some ⟨some "wl-copy", some "45"⟩ := by decide +kernel
  obtain ⟨s, hs, hsettings⟩ := Option.map_eq_some_iff.mp hplay
  have hread : s.settings.ReadAs o := by
    rw [hsettings]
    refine ⟨fun command h => ?_, nofun, fun raw h => ?_⟩
    · exact congrArg some (Except.ok.inj h)
    · exact congrArg some (Except.ok.inj (Option.some.inj h))
  have hsteps := @CommandLine.play_steps _ Crypto.plain .any anyFault sameFiles _
    (fun _ _ _ => trivial) _ _ _ hs
  obtain ⟨hcommand, -, htimeout⟩ :=
    @settings_read_back Crypto.plain _ _ _ _ start ⟨nofun, nofun⟩ _ hsteps o hread
  exact ⟨s, o, hread, hcommand "wl-copy" rfl, htimeout "45" rfl⟩

end Desktop
