import Ferusa.Desktop.Clipboard

/-!
# What is read and what is cleared

The helper reads the clipboard back and clears it with commands that are
made from the one that copied. They have to name the same target: the
options that select it are kept, in their order and with their values, and
what says where the text comes from is dropped.

`ExpiryArg` is what a user can type after the name of a program, one option
with its value at a time, and `Supported` the grammar of each program. The
loop of `expiry_commands` reads that grammar and nothing else
(`expiryTarget_eq_ok_iff`), and there is one way to read it
(`typed_injective`): a value stays a value, whatever it looks like.
-/

namespace Desktop

/-- **An option as it is typed**, with its value if it takes one. -/
inductive ExpiryArg where
  | flag (option : String)
  | value (option value : String)
  | input (option : String)

/-- The options that select a target. -/
def targetFlags : String → List String
  | "wl-copy" => ["-p", "--primary"]
  | "xsel" => ["-p", "--primary", "-s", "--secondary", "-b", "--clipboard"]
  | _ => []

/-- The options that select a target with the argument after them. -/
def targetOptions : String → List String
  | "wl-copy" => ["-s", "--seat"]
  | "xclip" => ["-selection", "-display"]
  | "xsel" => ["--display"]
  | "pbcopy" => ["-pboard"]
  | _ => []

/-- The values of an option, where not every value is allowed. -/
def allowedValues : String → Option (List String)
  | "-selection" => some ["primary", "secondary", "clipboard"]
  | "-pboard" => some ["general", "ruler", "find", "font"]
  | _ => none

/-- The options that say where the text comes from. -/
def inputFlags : String → List String
  | "xclip" => ["-i", "-in"]
  | "xsel" => ["-i", "--input"]
  | _ => []

/-- The short options of `wl-copy` are kept in their long form. -/
def longForm (program option : String) : String :=
  if program = "wl-copy" ∧ option = "-p" then "--primary"
  else if program = "wl-copy" ∧ option = "-s" then "--seat"
  else option

/-- A seat that is attached to its option. -/
def AttachedSeat (program option : String) : Prop :=
  program = "wl-copy" ∧ "--seat=".toList.isPrefixOf option.toList = true ∧ option ≠ "--seat="

namespace ExpiryArg

/-- **The grammar of a program.** -/
def Supported (program : String) : ExpiryArg → Prop
  | flag option => option ∈ targetFlags program ∨ AttachedSeat program option
  | value option v =>
    option ∈ targetOptions program ∧ ∀ allowed, allowedValues option = some allowed → v ∈ allowed
  | input option => option ∈ inputFlags program

/-- What is typed. -/
def typed : ExpiryArg → List String
  | flag option => [option]
  | value option v => [option, v]
  | input option => [option]

/-- What is kept. -/
def kept (program : String) : ExpiryArg → List String
  | flag option => [longForm program option]
  | value option v => [longForm program option, v]
  | input _ => []

end ExpiryArg

open ExpiryArg

variable {program option token missing : String} {args target : List String}
  {allowed : Option (List String × String)}

/-! ## One option -/

/-- A value passes the check of its option. -/
def Passes (allowed : Option (List String × String)) (v : String) : Prop :=
  (allowed.filter fun x => !x.1.contains v) = none

theorem passes_some {l : List String} {message v : String} :
    Passes (some (l, message)) v ↔ v ∈ l := by
  unfold Passes
  by_cases hv : v ∈ l
  · simp [Option.filter, hv]
  · simp [Option.filter, hv]

/-- **An option that is read as naming the target** does so. -/
theorem of_target (h : expiryOption program option = .target token) :
    (flag option).Supported program ∧ token = longForm program option := by
  unfold expiryOption at h
  split at h
  · -- `wl-copy`
    split at h
    · next hoption =>
      obtain rfl := ExpiryOption.target.inj h
      obtain rfl | rfl := hoption
      · exact ⟨.inl (by decide), by decide⟩
      · exact ⟨.inl (by decide), by decide⟩
    · next hprimary =>
      split at h
      · cases h
      · next hseat =>
        split at h
        · next hprefix =>
          split at h
          · cases h
          · next hne =>
            obtain rfl := ExpiryOption.target.inj h
            rw [not_or] at hprimary hseat
            exact ⟨.inr ⟨rfl, hprefix, hne⟩, by simp [longForm, hprimary, hseat]⟩
        · cases h
  · -- `xclip`
    repeat' split at h
    all_goals cases h
  · -- `xsel`
    split at h
    · cases h
    · split at h
      · next hflag =>
        obtain rfl := ExpiryOption.target.inj h
        exact ⟨.inl (List.contains_iff_mem.mp hflag), by simp [longForm]⟩
      · split at h
        · cases h
        · cases h
  · -- `pbcopy`
    split at h
    · cases h
    · cases h
  · cases h

/-- **An option that is read with a value** takes one. -/
theorem of_value (h : expiryOption program option = .value token missing allowed) :
    option ∈ targetOptions program ∧ token = longForm program option ∧
      ∀ v, Passes allowed v ↔ ∀ l, allowedValues option = some l → v ∈ l := by
  unfold expiryOption at h
  split at h
  · -- `wl-copy`
    split at h
    · cases h
    · split at h
      · next hoption =>
        obtain ⟨rfl, -, rfl⟩ := ExpiryOption.value.inj h
        obtain rfl | rfl := hoption
        · exact ⟨by decide, by decide, fun v => iff_of_true rfl nofun⟩
        · exact ⟨by decide, by decide, fun v => iff_of_true rfl nofun⟩
      · repeat' split at h
        all_goals cases h
  · -- `xclip`
    split at h
    · next hoption =>
      obtain ⟨rfl, -, rfl⟩ := ExpiryOption.value.inj h
      obtain rfl := hoption
      refine ⟨by decide, by decide, fun v => passes_some.trans ?_⟩
      exact ⟨fun hv l hl => Option.some.inj hl ▸ hv, fun hv => hv _ rfl⟩
    · split at h
      · next hoption =>
        obtain ⟨rfl, -, rfl⟩ := ExpiryOption.value.inj h
        obtain rfl := hoption
        exact ⟨by decide, by decide, fun v => iff_of_true rfl nofun⟩
      · split at h
        · cases h
        · cases h
  · -- `xsel`
    split at h
    · cases h
    · split at h
      · cases h
      · split at h
        · next hoption =>
          obtain ⟨rfl, -, rfl⟩ := ExpiryOption.value.inj h
          obtain rfl := hoption
          exact ⟨by decide, by decide, fun v => iff_of_true rfl nofun⟩
        · cases h
  · -- `pbcopy`
    split at h
    · next hoption =>
      obtain ⟨rfl, -, rfl⟩ := ExpiryOption.value.inj h
      obtain rfl := hoption
      refine ⟨by decide, by decide, fun v => passes_some.trans ?_⟩
      exact ⟨fun hv l hl => Option.some.inj hl ▸ hv, fun hv => hv _ rfl⟩
    · cases h
  · cases h

/-- **An option that is passed over** is an input flag. -/
theorem of_ignored (h : expiryOption program option = .ignored) :
    option ∈ inputFlags program := by
  unfold expiryOption at h
  split at h
  · repeat' split at h
    all_goals cases h
  · split at h
    · cases h
    · split at h
      · cases h
      · split at h
        · next hoption => exact List.mem_pair.mpr hoption
        · cases h
  · split at h
    · next hoption => exact List.mem_pair.mpr hoption
    · repeat' split at h
      all_goals cases h
  · split at h
    · cases h
    · cases h
  · cases h

/-- A seat that is attached is none of the other options. -/
theorem AttachedSeat.ne (h : AttachedSeat program option) (other : String)
    (hother : "--seat=".toList.isPrefixOf other.toList = false) : option ≠ other := by
  rintro rfl
  rw [h.2.1] at hother
  cases hother

theorem expiryOption_flag (h : (flag option).Supported program) :
    expiryOption program option = .target (longForm program option) := by
  obtain h | h := h
  · unfold targetFlags at h
    split at h
    · obtain rfl | rfl := List.mem_pair.mp h
      · rfl
      · rfl
    · simp only [List.mem_cons, List.not_mem_nil, or_false] at h
      obtain rfl | rfl | rfl | rfl | rfl | rfl := h <;> rfl
    · cases h
  · have hp := h.ne "-p" (by decide)
    have hprimary := h.ne "--primary" (by decide)
    have hs := h.ne "-s" (by decide)
    have hseat := h.ne "--seat" (by decide)
    obtain ⟨rfl, hprefix, hne⟩ := h
    have hlong : longForm "wl-copy" option = option := by simp [longForm, hp, hs]
    show (if option = "-p" ∨ option = "--primary" then _
      else if option = "-s" ∨ option = "--seat" then _
      else if "--seat=".toList.isPrefixOf option.toList then _ else _) = _
    rw [if_neg (by simp [hp, hprimary]), if_neg (by simp [hs, hseat]), if_pos hprefix, if_neg hne,
      hlong]

theorem expiryOption_value (h : option ∈ targetOptions program) :
    ∃ missing allowed,
      expiryOption program option = .value (longForm program option) missing allowed := by
  unfold targetOptions at h
  split at h
  · obtain rfl | rfl := List.mem_pair.mp h
    · exact ⟨_, _, rfl⟩
    · exact ⟨_, _, rfl⟩
  · obtain rfl | rfl := List.mem_pair.mp h
    · exact ⟨_, _, rfl⟩
    · exact ⟨_, _, rfl⟩
  · obtain rfl := List.mem_singleton.mp h
    exact ⟨_, _, rfl⟩
  · obtain rfl := List.mem_singleton.mp h
    exact ⟨_, _, rfl⟩
  · cases h

theorem expiryOption_input (h : option ∈ inputFlags program) :
    expiryOption program option = .ignored := by
  unfold inputFlags at h
  split at h
  · obtain rfl | rfl := List.mem_pair.mp h
    · rfl
    · rfl
  · obtain rfl | rfl := List.mem_pair.mp h
    · rfl
    · rfl
  · cases h

/-! ## All options -/

/-- **One round of the loop**, by the kind of its option. -/
theorem expiryTarget_target (h : expiryOption program option = .target token) :
    expiryTarget program (option :: args) =
      (expiryTarget program args).map fun target => token :: target := by
  rw [expiryTarget.eq_def]
  simp only [h]
  cases expiryTarget program args <;> rfl

theorem expiryTarget_ignored (h : expiryOption program option = .ignored) :
    expiryTarget program (option :: args) = expiryTarget program args := by
  rw [expiryTarget.eq_def]
  simp only [h]

theorem expiryTarget_value {v : String}
    (h : expiryOption program option = .value token missing allowed) (hv : Passes allowed v) :
    expiryTarget program (option :: v :: args) =
      (expiryTarget program args).map fun target => token :: v :: target := by
  rw [expiryTarget.eq_def]
  simp only [h]
  rw [show (allowed.filter fun x => !x.1.contains v) = none from hv]
  cases expiryTarget program args <;> rfl

/-- **What is typed for supported options is read as they are kept.** -/
theorem expiryTarget_typed {items : List ExpiryArg} (h : ∀ a ∈ items, a.Supported program) :
    expiryTarget program (items.flatMap typed) = .ok (items.flatMap (kept program)) := by
  induction items with
  | nil => rfl
  | cons a items ih =>
    obtain ⟨ha, hitems⟩ := List.forall_mem_cons.mp h
    rw [List.flatMap_cons, List.flatMap_cons]
    cases a with
    | flag option =>
      show expiryTarget program (option :: items.flatMap typed) = _
      rw [expiryTarget_target (expiryOption_flag ha), ih hitems]
      rfl
    | value option v =>
      obtain ⟨missing, allowed, heq⟩ := expiryOption_value ha.1
      show expiryTarget program (option :: v :: items.flatMap typed) = _
      rw [expiryTarget_value heq (((of_value heq).2.2 v).mpr ha.2), ih hitems]
      rfl
    | input option =>
      show expiryTarget program (option :: items.flatMap typed) = _
      rw [expiryTarget_ignored (expiryOption_input ha), ih hitems]
      rfl

/-- **What is read was typed for supported options.** -/
theorem of_expiryTarget (h : expiryTarget program args = .ok target) :
    ∃ items : List ExpiryArg, (∀ a ∈ items, a.Supported program) ∧
      args = items.flatMap typed := by
  have hcons : ∀ (a : ExpiryArg) (rest : List String), a.Supported program →
      (∃ items : List ExpiryArg, (∀ a ∈ items, a.Supported program) ∧
        rest = items.flatMap typed) →
      ∃ items : List ExpiryArg, (∀ a ∈ items, a.Supported program) ∧
        a.typed ++ rest = items.flatMap typed := by
    rintro a _ ha ⟨items, hitems, rfl⟩
    exact ⟨a :: items, List.forall_mem_cons.mpr ⟨ha, hitems⟩, List.flatMap_cons.symm⟩
  fun_induction expiryTarget program args generalizing target with
  | case1 => exact ⟨[], fun a ha => absurd ha List.not_mem_nil, rfl⟩
  | case2 option token args heq ih =>
    obtain ⟨rest, hrest, -⟩ := of_bind_eq_ok h
    exact hcons (.flag option) args (of_target heq).1 (ih hrest)
  | case3 option args heq ih => exact hcons (.input option) args (of_ignored heq) (ih h)
  | case4 => cases h
  | case5 => cases h
  | case6 => cases h
  | case7 option token missing allowed v args heq hpasses ih =>
    obtain ⟨rest, hrest, -⟩ := of_bind_eq_ok h
    obtain ⟨hoption, -, hvalues⟩ := of_value heq
    exact hcons (.value option v) args ⟨hoption, (hvalues v).mp hpasses⟩ (ih hrest)

/-- **There is one way to read what is typed.** -/
theorem typed_injective {items items' : List ExpiryArg}
    (h : ∀ a ∈ items, a.Supported program) (h' : ∀ a ∈ items', a.Supported program)
    (heq : items.flatMap typed = items'.flatMap typed) : items = items' := by
  induction items generalizing items' with
  | nil =>
    cases items' with
    | nil => rfl
    | cons a items' => cases a <;> cases heq
  | cons a items ih =>
    obtain ⟨ha, hitems⟩ := List.forall_mem_cons.mp h
    cases items' with
    | nil => cases a <;> cases heq
    | cons b items' =>
      obtain ⟨hb, hitems'⟩ := List.forall_mem_cons.mp h'
      -- the option tells which kind it is of
      have hkind : ∀ {x y : ExpiryOption} {option : String},
          expiryOption program option = x → expiryOption program option = y → x = y :=
        fun hx hy => hx.symm.trans hy
      cases a with
      | flag option =>
        cases b with
        | flag option' =>
          obtain ⟨rfl, hrest⟩ := List.cons.inj heq
          rw [ih hitems hitems' hrest]
        | value option' v =>
          obtain ⟨rfl, -⟩ := List.cons.inj heq
          obtain ⟨_, _, hvalue⟩ := expiryOption_value hb.1
          cases hkind (expiryOption_flag ha) hvalue
        | input option' =>
          obtain ⟨rfl, -⟩ := List.cons.inj heq
          cases hkind (expiryOption_flag ha) (expiryOption_input hb)
      | value option v =>
        obtain ⟨_, _, hvalue⟩ := expiryOption_value ha.1
        cases b with
        | flag option' =>
          obtain ⟨rfl, -⟩ := List.cons.inj heq
          cases hkind (expiryOption_flag hb) hvalue
        | value option' v' =>
          obtain ⟨rfl, hvalues⟩ := List.cons.inj heq
          have hvalues : v :: items.flatMap typed = v' :: items'.flatMap typed := hvalues
          obtain ⟨rfl, hrest⟩ := List.cons.inj hvalues
          rw [ih hitems hitems' hrest]
        | input option' =>
          obtain ⟨rfl, -⟩ := List.cons.inj heq
          cases hkind (expiryOption_input hb) hvalue
      | input option =>
        cases b with
        | flag option' =>
          obtain ⟨rfl, -⟩ := List.cons.inj heq
          cases hkind (expiryOption_flag hb) (expiryOption_input ha)
        | value option' v =>
          obtain ⟨rfl, -⟩ := List.cons.inj heq
          obtain ⟨_, _, hvalue⟩ := expiryOption_value hb.1
          cases hkind (expiryOption_input ha) hvalue
        | input option' =>
          obtain ⟨rfl, hrest⟩ := List.cons.inj heq
          rw [ih hitems hitems' hrest]

/-! ## The two commands -/

/-- The programs whose clipboard can be read back, with the name of the reader
and what makes the two programs read and clear. -/
inductive Reads : String → String → List String → List String → Prop
  | wlCopy : Reads "wl-copy" "wl-paste" ["--no-newline"] ["--clear"]
  | xclip : Reads "xclip" "xclip" ["-o"] []
  | xsel : Reads "xsel" "xsel" ["--output"] []
  | pbcopy : Reads "pbcopy" "pbpaste" [] []
  | termux : Reads "termux-clipboard-set" "termux-clipboard-get" [] []

theorem reads_iff {reader : String} {read clear : List String} :
    Reads program reader read clear ↔ ∃ readOption clearOption,
      expiryProgram program = some (reader, readOption, clearOption) ∧
        read = readOption.toList ∧ clear = clearOption.toList := by
  constructor
  · intro h
    cases h <;> exact ⟨_, _, rfl, rfl, rfl⟩
  · rintro ⟨readOption, clearOption, h, rfl, rfl⟩
    unfold expiryProgram at h
    split at h
    · obtain ⟨rfl, rfl, rfl⟩ := by simpa using h
      exact .wlCopy
    · obtain ⟨rfl, rfl, rfl⟩ := by simpa using h
      exact .xclip
    · obtain ⟨rfl, rfl, rfl⟩ := by simpa using h
      exact .xsel
    · obtain ⟨rfl, rfl, rfl⟩ := by simpa using h
      exact .pbcopy
    · obtain ⟨rfl, rfl, rfl⟩ := by simpa using h
      exact .termux
    · cases h

/-- The reader is the program whose presence is checked. -/
theorem Reads.ownershipReaderProgram {reader : String} {read clear : List String}
    (h : Reads program reader read clear) : Desktop.ownershipReaderProgram program = reader := by
  cases h <;> rfl

/-- **What is typed after the name of a program that can be read back.** -/
structure Grammar (program : String) (args : List String) (items : List ExpiryArg) : Prop where
  supported : ∀ a ∈ items, a.Supported program
  typed : args = items.flatMap ExpiryArg.typed

/-- **The two commands** of a program whose arguments are supported. -/
theorem expiryCommands_of_grammar {reader : String} {read clear : List String}
    {items : List ExpiryArg} (hr : Reads program reader read clear)
    (h : Grammar program args items) :
    expiryCommands (program :: args) = .ok (reader :: items.flatMap (kept program) ++ read,
      program :: items.flatMap (kept program) ++ clear) := by
  obtain ⟨readOption, clearOption, heq, rfl, rfl⟩ := reads_iff.mp hr
  obtain ⟨hsupported, rfl⟩ := h
  unfold expiryCommands
  simp only [expiryTarget_typed hsupported, heq]
  rfl

theorem of_expiryCommands {commands : List String × List String}
    (h : expiryCommands (program :: args) = .ok commands) :
    (∃ reader read clear, Reads program reader read clear) ∧
      ∃ items, Grammar program args items := by
  obtain ⟨target, htarget, h⟩ := of_bind_eq_ok h
  obtain ⟨items, hsupported, htyped⟩ := of_expiryTarget htarget
  refine ⟨?_, items, hsupported, htyped⟩
  cases heq : expiryProgram program with
  | none =>
    rw [heq] at h
    cases h
  | some found => exact ⟨_, _, _, reads_iff.mpr ⟨_, _, heq, rfl, rfl⟩⟩

/-- **What is read is what was copied, and what is cleared is what was read.**
For every command that is accepted, the two commands are made exactly if the
clipboard of its program can be read back and every argument is a supported
option, with its value if it takes one. There is then one way to read the
arguments, and both commands name the target as it was typed, in the same
order, and nothing else but their own option; the short options of `wl-copy`
become long. -/
theorem expiry_commands_exact {command : String} {argv : List String}
    (h : parseClipboardCommand command = .ok argv) :
    ∃ program args, argv = program :: args ∧
      ((∃ commands, expiryCommands argv = .ok commands) ↔
        (∃ reader read clear, Reads program reader read clear) ∧
          ∃ items, Grammar program args items) ∧
      ∀ reader read clear items, Reads program reader read clear → Grammar program args items →
        expiryCommands argv = .ok (reader :: items.flatMap (kept program) ++ read,
          program :: items.flatMap (kept program) ++ clear) ∧
        ownershipReaderProgram program = reader ∧
        ∀ items', Grammar program args items' → items' = items := by
  have hcons : ∃ program args, argv = program :: args := by
    unfold parseClipboardCommand at h
    split at h
    · cases h
    · split at h
      · cases h
      · repeat' split at h
        all_goals first | exact ⟨_, _, (Except.ok.inj h).symm⟩ | cases h
  obtain ⟨program, args, rfl⟩ := hcons
  refine ⟨program, args, rfl, ⟨fun ⟨_, hok⟩ => of_expiryCommands hok, ?_⟩, ?_⟩
  · rintro ⟨⟨reader, read, clear, hr⟩, items, hg⟩
    exact ⟨_, expiryCommands_of_grammar hr hg⟩
  · intro reader read clear items hr hg
    refine ⟨expiryCommands_of_grammar hr hg, hr.ownershipReaderProgram, fun items' hg' => ?_⟩
    exact typed_injective hg'.supported hg.supported (hg'.typed.symm.trans hg.typed)

/-- A display whose name looks like an option. -/
theorem expiry_commands_exact_display : ∃ commands,
    expiryCommands ["xclip", "-display", "-i", "-i"] = .ok commands ∧
      commands = (["xclip", "-display", "-i", "-o"], ["xclip", "-display", "-i"]) := by
  have hparse : parseClipboardCommand "xclip -display -i -i" =
      .ok ["xclip", "-display", "-i", "-i"] := by decide +kernel
  obtain ⟨program, args, hargv, -, hcommands⟩ := expiry_commands_exact hparse
  obtain ⟨rfl, rfl⟩ := List.cons.inj hargv
  have hgrammar : Grammar "xclip" ["-display", "-i", "-i"]
      [.value "-display" "-i", .input "-i"] := by
    refine ⟨?_, rfl⟩
    rw [List.forall_mem_cons, List.forall_mem_singleton]
    refine ⟨⟨by decide, nofun⟩, ?_⟩
    show "-i" ∈ inputFlags "xclip"
    decide
  exact ⟨_, (hcommands _ _ _ _ .xclip hgrammar).1, rfl⟩

/-- **A command without arguments for which there is no reader, and an option
that is not kept as it was typed.** -/
theorem clip_has_no_reader :
    (parseClipboardCommand "clip" = .ok ["clip"] ∧ Grammar "clip" [] [] ∧
      expiryCommands ["clip"] = .error ["unsupported clipboard expiry program"]) ∧
    parseClipboardCommand "wl-copy -p" = .ok ["wl-copy", "-p"] ∧
      expiryCommands ["wl-copy", "-p"] =
        .ok (["wl-paste", "--primary", "--no-newline"], ["wl-copy", "--primary", "--clear"]) := by
  refine ⟨⟨by decide +kernel, ⟨fun a ha => absurd ha List.not_mem_nil, rfl⟩, rfl⟩,
    by decide +kernel, rfl⟩

end Desktop
