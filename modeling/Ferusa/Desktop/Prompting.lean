import Ferusa.Lib.Rounds
import Ferusa.Desktop.Passwords

/-!
# The password field

The field of a form that takes a password offers to generate one. It asks
once what to generate, and then generates and offers passwords until one
is accepted, or the user types their own. The questions are lines of
standard input, a typed password is read without an echo, and the random
choices are those of `generate`; all of them are put as commands, and what
came of them is the state, in the order it came (`happens`).

`generate` refuses a length that does not suffice for the enabled classes.
The length that was asked for is clamped, so the field never comes to that,
whatever was typed and however often it was asked to regenerate.
-/

namespace Desktop

deriving instance DecidableEq for PasswordGenConfig

/-- What the field asks for. -/
inductive PromptCmd where
  | readLine (prompt : String)
  | promptPassword (prompt : String)
  | random (c : RandomCmd)

/-- A line, or why there is none; a password likewise; what is chosen. -/
abbrev PromptCmd.Reply : PromptCmd → Type
  | .readLine _ => Except String String
  | .promptPassword _ => Except String String
  | .random c => c.Reply

/-- The errors of the field: those of its questions, and those of
`generate`. -/
inductive PromptError where
  | asking (e : Anyhow)
  | generating (e : CliError)
  deriving DecidableEq

/-- A program that asks the user. -/
abbrev PromptProg (α : Type) := Prog PromptCmd.Reply (Fault PromptError) α

namespace PromptProg

/-- A line, or the error of flushing the prompt or of reading. -/
def readLine (prompt : String) : PromptProg String := do
  let r : Except String String ← Prog.perform (PromptCmd.readLine prompt)
  Prog.ofExcept (r.mapError fun e => .failed (.asking [e]))

/-- `rpassword::prompt_password`, and its context. -/
def promptPassword : PromptProg String := do
  let r : Except String String ←
    Prog.perform (PromptCmd.promptPassword "\x1b[1minput:\x1b[0m password: ")
  Prog.ofExcept (r.mapError fun e => .failed (.asking ["read password", e]))

/-- What failed in generating failed in the field. -/
def generating : Fault CliError → Fault PromptError
  | .failed e => .failed (.generating e)
  | .panicked => .panicked

/-- `generate`, in the field. -/
def generated (cfg : PasswordGenConfig) : PromptProg String :=
  ((generate cfg).hoist PromptCmd.random fun _ r => r).mapError generating

end PromptProg

open PromptProg

/-- `prompt_yn`. -/
def promptYn (label : String) (defaultYes : Bool) : PromptProg Bool := do
  let hint := if defaultYes then "Y/n" else "y/N"
  let buf ← PromptProg.readLine s!"\x1b[1minput:\x1b[0m {label} [{hint}]: "
  let s := (trim buf).toLower
  pure (if s = "y" ∨ s = "yes" then true
    else if s = "n" ∨ s = "no" then false
    else defaultYes)

/-- `prompt_usize`, of 64 bits. -/
def promptUsize (label : String) (default : Nat) : PromptProg Nat := do
  let buf ← PromptProg.readLine s!"\x1b[1minput:\x1b[0m {label} [{default}]: "
  let s := trim buf
  if s.isEmpty then pure default
  else Prog.ofExcept ((parseU64 s).elim
    (.error (.failed (.asking ["not a valid number", parseIntError s]))) .ok)

/-- `Ord::clamp`. -/
def clamp (n low high : Nat) : Nat :=
  if n < low then low else if n > high then high else n

/-- **`ask_config`.** -/
def askConfig : PromptProg PasswordGenConfig := do
  let length ← promptUsize "length" 20
  let uppercase ← promptYn "include uppercase?" true
  let digits ← promptYn "include digits?" true
  let symbols ← promptYn "include symbols?" true
  let length := clamp length 8 128
  pure { length, uppercase, digits, symbols }

/-- `GeneratedPasswordChoice`. -/
inductive GeneratedPasswordChoice where
  | accept (pw : String)
  | regenerate
  | typeOwn
  deriving DecidableEq

/-- `resolve_generated_choice`. It never fails. -/
def resolveGeneratedChoice (choice pw : String) : GeneratedPasswordChoice :=
  let s := (trim choice).toLower
  if s = "r" then .regenerate else if s = "m" then .typeOwn else .accept pw

/-- What is done about a choice: the loop is left with a password, or goes on. -/
def GeneratedPasswordChoice.follow : GeneratedPasswordChoice → PromptProg (Option String)
  | .accept pw => pure (some pw)
  | .regenerate => pure none
  | .typeOwn => do
    let pw ← PromptProg.promptPassword
    pure (some pw)

/-- **A round of the loop of `prompt_password_field`.** -/
def offerRound (cfg : PasswordGenConfig) : PromptProg (Option String) := do
  let pw ← generated cfg
  let choice ← PromptProg.readLine
    "\x1b[1minput:\x1b[0m [enter] accept   [r] regenerate   [m] type my own: "
  (resolveGeneratedChoice choice pw).follow

/-- **`prompt_password_field`, before its loop**: the password that was typed,
or what to generate. -/
def promptStart : PromptProg (String ⊕ PasswordGenConfig) := do
  let buf ← PromptProg.readLine "\x1b[1minput:\x1b[0m generate password? [Y/n]: "
  let s := (trim buf).toLower
  if s = "n" ∨ s = "no" then do
    let pw ← PromptProg.promptPassword
    pure (.inl pw)
  else do
    let cfg ← askConfig
    pure (.inr cfg)

/-! ## What comes of it -/

/-- What came of a command. -/
inductive PromptEvent where
  | line (r : Except String String)
  | typed (r : Except String String)
  | chose (i : Nat)
  deriving DecidableEq

/-- **What happens to a command** adds its reply to what came before. -/
def happens : (c : PromptCmd) → List PromptEvent → c.Reply → List PromptEvent → Prop
  | .readLine _, before, r, after => after = before ++ [.line r]
  | .promptPassword _, before, r, after => after = before ++ [.typed r]
  | .random (.randomRange _ _), before, i, after => after = before ++ [.chose i.val]

/-- What a command is answered, and what was answered so far. -/
def answerWith : (c : PromptCmd) → PromptEvent → List PromptEvent →
    Option (c.Reply × List PromptEvent)
  | .readLine _, .line r, before => some (r, before ++ [.line r])
  | .promptPassword _, .typed r, before => some (r, before ++ [.typed r])
  | .random (.randomRange n _), .chose i, before =>
    if h : i < n then some (⟨i, h⟩, before ++ [.chose i]) else none
  | _, _, _ => none

theorem answerWith_happens (c : PromptCmd) (o : PromptEvent) (before : List PromptEvent)
    (r : c.Reply) (after : List PromptEvent) (h : answerWith c o before = some (r, after)) :
    happens c before r after := by
  cases c with
  | readLine prompt =>
    cases o with
    | line r' =>
      cases h
      rfl
    | typed => cases h
    | chose => cases h
  | promptPassword prompt =>
    cases o with
    | typed r' =>
      cases h
      rfl
    | line => cases h
    | chose => cases h
  | random c =>
    cases c with
    | randomRange n pos =>
      cases o with
      | chose i =>
        have h : (if hi : i < n then some ((⟨i, hi⟩ : Fin n), before ++ [.chose i]) else none) =
            some (r, after) := h
        by_cases hi : i < n
        · rw [dif_pos hi] at h
          cases h
          rfl
        · rw [dif_neg hi] at h
          cases h
      | line => cases h
      | typed => cases h

/-- How a program of the field may end. -/
abbrev Asks {α : Type} (p : PromptProg α) (before : List PromptEvent)
    (x : Except (Fault PromptError) α) (after : List PromptEvent) : Prop :=
  Prog.Outcome happens p before x after

/-- **A run of `prompt_password_field`** that ends: before its loop, or in
it. -/
inductive FieldRun :
    List PromptEvent → Except (Fault PromptError) String → List PromptEvent → Prop
  | typed {before pw after} (h : Asks promptStart before (.ok (.inl pw)) after) :
      FieldRun before (.ok pw) after
  | failed {before e after} (h : Asks promptStart before (.error e) after) :
      FieldRun before (.error e) after
  | loop {before cfg asked x after} (h : Asks promptStart before (.ok (.inr cfg)) asked)
      (hloop : Prog.Rounds happens (offerRound cfg) asked x after) : FieldRun before x after

section Rules

variable {α β : Type} {before after : List PromptEvent}

/-- What came before stays. -/
theorem asks_extends {p : PromptProg α} {x : Except (Fault PromptError) α}
    (h : Asks p before x after) : before <+: after := by
  induction h with
  | ret => exact List.prefix_refl _
  | fail => exact List.prefix_refl _
  | @call c k s r s' x s'' hx hk ih =>
    have hone : s <+: s' := by
      cases c with
      | readLine => exact ⟨_, Eq.symm hx⟩
      | promptPassword => exact ⟨_, Eq.symm hx⟩
      | random c =>
        cases c with
        | randomRange => exact ⟨_, Eq.symm hx⟩
    exact hone.trans ih

/-- **An error of the questions**, not of what is generated. -/
def Unanswered (e : Fault PromptError) : Prop :=
  ∃ chain, e = .failed (.asking chain)

/-- **A program that fails only where a question does.** -/
def FailsAsking (p : PromptProg α) : Prop :=
  ∀ before e after, Asks p before (.error e) after → Unanswered e

theorem FailsAsking.pure (a : α) : FailsAsking (pure a : PromptProg α) := by
  intro before e after h
  obtain ⟨he, -⟩ := Prog.Outcome.of_ret h
  cases he

theorem FailsAsking.bind {p : PromptProg β} {f : β → PromptProg α} (hp : FailsAsking p)
    (hf : ∀ b, FailsAsking (f b)) : FailsAsking (p >>= f) := by
  intro before e after h
  obtain ⟨b, t, -, hk⟩ | ⟨e', he, heq⟩ := Prog.Outcome.of_bind h
  · exact hf b _ _ _ hk
  · cases heq
    exact hp _ _ _ he

theorem FailsAsking.ite {c : Prop} [Decidable c] {p q : PromptProg α} (hp : FailsAsking p)
    (hq : FailsAsking q) : FailsAsking (if c then p else q) := by
  split
  · exact hp
  · exact hq

theorem FailsAsking.ofExcept {r : Except (Fault PromptError) α}
    (hr : ∀ e, r = .error e → Unanswered e) : FailsAsking (Prog.ofExcept r) := by
  intro before e after h
  cases r with
  | ok a =>
    obtain ⟨he, -⟩ := Prog.Outcome.of_ret h
    cases he
  | error e' =>
    obtain ⟨he, -⟩ := Prog.Outcome.of_fail h
    cases he
    exact hr _ rfl

/-- **What a line that is read adds.** -/
theorem readLine_asks {prompt : String} {x : Except (Fault PromptError) String}
    (h : Asks (PromptProg.readLine prompt) before x after) :
    (∃ line, x = .ok line ∧ after = before ++ [.line (.ok line)]) ∨
      ∃ e, x = .error e ∧ Unanswered e := by
  obtain ⟨r, t, hx, hk⟩ := Prog.Outcome.of_call h
  cases r with
  | ok line =>
    obtain ⟨rfl, rfl⟩ := Prog.Outcome.of_ret hk
    exact .inl ⟨line, rfl, hx⟩
  | error e =>
    obtain ⟨rfl, rfl⟩ := Prog.Outcome.of_fail hk
    exact .inr ⟨_, rfl, _, rfl⟩

/-- **What a password that is typed adds.** -/
theorem promptPassword_asks {x : Except (Fault PromptError) String}
    (h : Asks PromptProg.promptPassword before x after) :
    (∃ pw, x = .ok pw ∧ after = before ++ [.typed (.ok pw)]) ∨
      ∃ e, x = .error e ∧ Unanswered e := by
  obtain ⟨r, t, hx, hk⟩ := Prog.Outcome.of_call h
  cases r with
  | ok pw =>
    obtain ⟨rfl, rfl⟩ := Prog.Outcome.of_ret hk
    exact .inl ⟨pw, rfl, hx⟩
  | error e =>
    obtain ⟨rfl, rfl⟩ := Prog.Outcome.of_fail hk
    exact .inr ⟨_, rfl, _, rfl⟩

theorem failsAsking_readLine (prompt : String) : FailsAsking (PromptProg.readLine prompt) := by
  intro before e after h
  obtain ⟨line, he, -⟩ | ⟨e', he, hun⟩ := readLine_asks h
  · cases he
  · cases he
    exact hun

theorem failsAsking_promptPassword : FailsAsking PromptProg.promptPassword := by
  intro before e after h
  obtain ⟨pw, he, -⟩ | ⟨e', he, hun⟩ := promptPassword_asks h
  · cases he
  · cases he
    exact hun

end Rules

/-! ## What is asked for -/

section Asked

variable {before after : List PromptEvent} {cfg : PasswordGenConfig}

theorem failsAsking_promptYn (label : String) (defaultYes : Bool) :
    FailsAsking (promptYn label defaultYes) :=
  .bind (failsAsking_readLine _) fun _ => .pure _

theorem failsAsking_promptUsize (label : String) (default : Nat) :
    FailsAsking (promptUsize label default) := by
  refine .bind (failsAsking_readLine _) fun buf => ?_
  refine .ite (.pure _) (.ofExcept fun e he => ?_)
  cases hparse : parseU64 (trim buf) with
  | none =>
    rw [hparse] at he
    exact ⟨_, (Except.error.inj he).symm⟩
  | some n =>
    rw [hparse] at he
    cases he

theorem failsAsking_askConfig : FailsAsking askConfig :=
  .bind (failsAsking_promptUsize _ _) fun _ =>
    .bind (failsAsking_promptYn _ _) fun _ =>
      .bind (failsAsking_promptYn _ _) fun _ =>
        .bind (failsAsking_promptYn _ _) fun _ => .pure _

theorem failsAsking_promptStart : FailsAsking promptStart :=
  .bind (failsAsking_readLine _) fun _ =>
    .ite (.bind failsAsking_promptPassword fun _ => .pure _)
      (.bind failsAsking_askConfig fun _ => .pure _)

theorem clamp_bounds {n low high : Nat} (h : low ≤ high) :
    low ≤ clamp n low high ∧ clamp n low high ≤ high := by
  unfold clamp
  split
  · exact ⟨Nat.le_refl low, h⟩
  · split <;> omega

/-- **The length that is asked for is clamped**, whatever is answered. -/
theorem askConfig_length (h : Asks askConfig before (.ok cfg) after) :
    8 ≤ cfg.length ∧ cfg.length ≤ 128 := by
  obtain ⟨length, t, -, h⟩ | ⟨e, -, he⟩ := Prog.Outcome.of_bind h
  · obtain ⟨uppercase, t, -, h⟩ | ⟨e, -, he⟩ := Prog.Outcome.of_bind h
    · obtain ⟨digits, t, -, h⟩ | ⟨e, -, he⟩ := Prog.Outcome.of_bind h
      · obtain ⟨symbols, t, -, h⟩ | ⟨e, -, he⟩ := Prog.Outcome.of_bind h
        · obtain ⟨heq, -⟩ := Prog.Outcome.of_ret h
          obtain rfl := Except.ok.inj heq
          exact clamp_bounds (by decide)
        · cases he
      · cases he
    · cases he
  · cases he

/-- **What is known before the loop**: the password was typed last, or the
length that was asked for is clamped. -/
theorem promptStart_asks {x : String ⊕ PasswordGenConfig}
    (h : Asks promptStart before (.ok x) after) :
    (∃ pw, x = .inl pw ∧ after.getLast? = some (.typed (.ok pw))) ∨
      ∃ cfg, x = .inr cfg ∧ 8 ≤ cfg.length ∧ cfg.length ≤ 128 := by
  obtain ⟨buf, t, -, h⟩ | ⟨e, -, he⟩ := Prog.Outcome.of_bind h
  · dsimp only at h
    split at h
    · obtain ⟨pw, t', hpw, h⟩ | ⟨e, -, he⟩ := Prog.Outcome.of_bind h
      · obtain ⟨heq, rfl⟩ := Prog.Outcome.of_ret h
        obtain rfl := Except.ok.inj heq
        obtain ⟨typed, heq, rfl⟩ | ⟨e, he, -⟩ := promptPassword_asks hpw
        · obtain rfl := Except.ok.inj heq
          exact .inl ⟨pw, rfl, List.getLast?_concat⟩
        · cases he
      · cases he
    · obtain ⟨cfg, t', hcfg, h⟩ | ⟨e, -, he⟩ := Prog.Outcome.of_bind h
      · obtain ⟨heq, -⟩ := Prog.Outcome.of_ret h
        obtain rfl := Except.ok.inj heq
        exact .inr ⟨cfg, rfl, askConfig_length hcfg⟩
      · cases he
  · cases he

end Asked

/-! ## What is offered -/

section Offered

variable {before after : List PromptEvent} {cfg : PasswordGenConfig}

/-- The choices that were made. -/
def chosen : List PromptEvent → List Nat :=
  List.filterMap fun
    | .chose i => some i
    | _ => none

/-- There are four classes. -/
theorem PasswordGenConfig.requiredClasses_le : cfg.requiredClasses ≤ 4 := by
  have huppercase := Bool.toNat_le cfg.uppercase
  have hdigits := Bool.toNat_le cfg.digits
  have hsymbols := Bool.toNat_le cfg.symbols
  unfold PasswordGenConfig.requiredClasses
  omega

/-- **What is generated in the field meets the policy**, if it is as long as
the field asks for. -/
theorem generated_asks (hlong : 8 ≤ cfg.length) {x : Except (Fault PromptError) String}
    (h : Asks (generated cfg) before x after) : ∃ pw, x = .ok pw ∧ MeetsPolicy cfg pw := by
  obtain ⟨y, rfl, hy⟩ := Prog.Outcome.of_mapError h
  -- of what came before, `generate` knows the choices alone
  have hdraws : Draws (generate cfg) (chosen before) y (chosen after) := by
    refine Prog.Outcome.of_hoist chosen ?_ hy
    intro c s r s' hx
    cases c with
    | randomRange n pos =>
      have hx : s' = s ++ [.chose r.val] := hx
      show chosen s' = chosen s ++ [r.val]
      rw [hx, chosen, List.filterMap_append]
      rfl
  have hclasses : cfg.requiredClasses ≤ 4 := PasswordGenConfig.requiredClasses_le
  obtain ⟨hshort, -⟩ | ⟨-, pw, rfl, hpolicy⟩ := generate_draws hdraws
  · omega
  · exact ⟨pw, rfl, hpolicy⟩

/-- **A password that a round leaves with**: it was typed last, or it was
accepted last and meets the policy. -/
def LeftWith (cfg : PasswordGenConfig) (pw : String) (after : List PromptEvent) : Prop :=
  after.getLast? = some (.typed (.ok pw)) ∨
    ∃ line, after.getLast? = some (.line (.ok line)) ∧
      resolveGeneratedChoice line pw = .accept pw ∧ MeetsPolicy cfg pw

theorem resolveGeneratedChoice_accept {choice pw pw' : String}
    (h : resolveGeneratedChoice choice pw = .accept pw') : pw' = pw := by
  unfold resolveGeneratedChoice at h
  dsimp only at h
  split at h
  · cases h
  · split at h
    · cases h
    · cases h
      rfl

theorem failsAsking_follow (c : GeneratedPasswordChoice) : FailsAsking c.follow := by
  cases c with
  | accept pw => exact .pure _
  | regenerate => exact .pure _
  | typeOwn => exact .bind failsAsking_promptPassword fun _ => .pure _

/-- **What a round does**: a password that meets the policy is generated, a
line is read, and what the line says is done. -/
theorem offerRound_asks (hlong : 8 ≤ cfg.length)
    {x : Except (Fault PromptError) (Option String)} (h : Asks (offerRound cfg) before x after) :
    (∃ e, x = .error e ∧ Unanswered e) ∨
      ∃ pw line t, MeetsPolicy cfg pw ∧
        Asks (resolveGeneratedChoice line pw).follow (t ++ [.line (.ok line)]) x after := by
  obtain ⟨pw, t, hpw, h⟩ | ⟨e, he, -⟩ := Prog.Outcome.of_bind h
  · obtain ⟨pw', heq, hpolicy⟩ := generated_asks hlong hpw
    obtain rfl := Except.ok.inj heq
    obtain ⟨line, t', hline, h⟩ | ⟨e, he, rfl⟩ := Prog.Outcome.of_bind h
    · obtain ⟨line', heq, rfl⟩ | ⟨e, he, -⟩ := readLine_asks hline
      · obtain rfl := Except.ok.inj heq
        exact .inr ⟨pw, line, t, hpolicy, h⟩
      · cases he
    · exact .inl ⟨e, rfl, failsAsking_readLine _ _ _ _ he⟩
  · obtain ⟨pw, heq, -⟩ := generated_asks hlong he
    cases heq

/-- A round fails only where a question does. -/
theorem failsAsking_offerRound (hlong : 8 ≤ cfg.length) : FailsAsking (offerRound cfg) := by
  intro before e after h
  obtain ⟨e', he, hun⟩ | ⟨pw, line, t, -, h⟩ := offerRound_asks hlong h
  · cases he
    exact hun
  · exact failsAsking_follow _ _ _ _ h

theorem offerRound_leaves (hlong : 8 ≤ cfg.length) {pw : String}
    (h : Asks (offerRound cfg) before (.ok (some pw)) after) : LeftWith cfg pw after := by
  obtain ⟨e, he, -⟩ | ⟨offered, line, t, hpolicy, h⟩ := offerRound_asks hlong h
  · cases he
  · cases hchoice : resolveGeneratedChoice line offered with
    | accept pw' =>
      rw [hchoice] at h
      obtain ⟨heq, rfl⟩ := Prog.Outcome.of_ret h
      obtain rfl := Option.some.inj (Except.ok.inj heq)
      obtain rfl := resolveGeneratedChoice_accept hchoice
      exact .inr ⟨line, List.getLast?_concat, hchoice, hpolicy⟩
    | regenerate =>
      -- the loop is not left
      rw [hchoice] at h
      obtain ⟨heq, -⟩ := Prog.Outcome.of_ret h
      cases heq
    | typeOwn =>
      rw [hchoice] at h
      obtain ⟨typed, t', htyped, h⟩ | ⟨e, -, he⟩ := Prog.Outcome.of_bind h
      · obtain ⟨heq, rfl⟩ := Prog.Outcome.of_ret h
        obtain rfl := Option.some.inj (Except.ok.inj heq)
        obtain ⟨typed', heq, rfl⟩ | ⟨e, he, -⟩ := promptPassword_asks htyped
        · obtain rfl := Except.ok.inj heq
          exact .inl List.getLast?_concat
        · cases he
      · cases he

end Offered

/-- **The field takes what was typed, or a password of the policy that was
asked for.** A run fails only where a question does, never in generating,
however often it is asked to regenerate. A password it ends with was typed
last, or else it was accepted by the last line that was read, and meets
the policy that the first answers of the run ask for, with a length
between eight and a hundred and twenty-eight. -/
theorem field_password {before after : List PromptEvent} {x : Except (Fault PromptError) String}
    (h : FieldRun before x after) :
    (∀ e, x = .error e → Unanswered e) ∧
      ∀ pw, x = .ok pw → after.getLast? = some (.typed (.ok pw)) ∨
        ∃ cfg asked line, Asks promptStart before (.ok (.inr cfg)) asked ∧
          before <+: asked ∧ asked <+: after ∧ 8 ≤ cfg.length ∧ cfg.length ≤ 128 ∧
          after.getLast? = some (.line (.ok line)) ∧
          resolveGeneratedChoice line pw = .accept pw ∧ MeetsPolicy cfg pw := by
  cases h with
  | typed h =>
    refine ⟨nofun, fun pw hpw => .inl ?_⟩
    obtain rfl := Except.ok.inj hpw
    obtain ⟨typed, heq, hlast⟩ | ⟨cfg, heq, -⟩ := promptStart_asks h
    · obtain rfl := Sum.inl.inj heq
      exact hlast
    · cases heq
  | failed h =>
    refine ⟨fun e he => ?_, nofun⟩
    obtain rfl := Except.error.inj he
    exact failsAsking_promptStart _ _ _ h
  | @loop cfg asked _ _ h hloop =>
    obtain ⟨hlow, hhigh⟩ : 8 ≤ cfg.length ∧ cfg.length ≤ 128 := by
      obtain ⟨typed, heq, -⟩ | ⟨cfg', heq, hbounds⟩ := promptStart_asks h
      · cases heq
      · obtain rfl := Sum.inr.inj heq
        exact hbounds
    -- What was asked before the loop stays, and a round does the rest.
    have hends : asked <+: after ∧ (∀ e, x = .error e → Unanswered e) ∧
        ∀ pw, x = .ok pw → LeftWith cfg pw after := by
      refine hloop.ends (I := fun s => asked <+: s)
        (Q := fun x s => asked <+: s ∧ (∀ e, x = .error e → Unanswered e) ∧
          ∀ pw, x = .ok pw → LeftWith cfg pw s) (List.prefix_refl _) ?_ ?_ ?_
      · intro s pw s' hs hround
        refine ⟨hs.trans (asks_extends hround), nofun, fun pw' hpw => ?_⟩
        obtain rfl := Except.ok.inj hpw
        exact offerRound_leaves hlow hround
      · intro s e s' hs hround
        refine ⟨hs.trans (asks_extends hround), fun e' he => ?_, nofun⟩
        obtain rfl := Except.error.inj he
        exact failsAsking_offerRound hlow _ _ _ hround
      · intro s s' hs hround
        exact hs.trans (asks_extends hround)
    obtain ⟨hextends, herror, hleft⟩ := hends
    refine ⟨herror, fun pw hpw => ?_⟩
    obtain htyped | ⟨line, hline, hchoice, hpolicy⟩ := hleft pw hpw
    · exact .inl htyped
    · exact .inr ⟨cfg, asked, line, h, asks_extends h, hextends, hlow, hhigh, hline, hchoice,
        hpolicy⟩

/-- **A password that was accepted the second time**: the first one that was
offered is not wanted. -/
theorem field_password_regenerated :
    ∃ after, FieldRun [] (.ok "aaaaaaba") after ∧ PromptEvent.line (.ok "r\n") ∈ after ∧
      ∃ cfg asked line, Asks promptStart [] (.ok (.inr cfg)) asked ∧ asked <+: after ∧
        8 ≤ cfg.length ∧ cfg.length ≤ 128 ∧ after.getLast? = some (.line (.ok line)) ∧
        MeetsPolicy cfg "aaaaaaba" := by
  let offered (l : List Nat) (line : String) : List PromptEvent :=
    l.map .chose ++ [.line (.ok line)]
  let asked : List PromptEvent := ["\n", "8\n", "n\n", "n\n", "n\n"].map fun l => .line (.ok l)
  let first := offered (List.replicate 15 0) "r\n"
  let second := offered (1 :: List.replicate 14 0) "\n"
  have hasked : Prog.replay answerWith asked promptStart [] =
      some (.ok (.inr ⟨8, false, false, false⟩), asked) := by decide +kernel
  have hfirst : Prog.replay answerWith first (offerRound ⟨8, false, false, false⟩) asked =
      some (.ok none, asked ++ first) := by decide +kernel
  have hsecond : Prog.replay answerWith second (offerRound ⟨8, false, false, false⟩)
      (asked ++ first) = some (.ok (some "aaaaaaba"), asked ++ first ++ second) := by
    decide +kernel
  have hrun : FieldRun [] (.ok "aaaaaaba") (asked ++ first ++ second) :=
    .loop (.replay answerWith_happens hasked) (.again (.replay answerWith_happens hfirst)
      (.leave (.replay answerWith_happens hsecond)))
  obtain htyped | ⟨cfg, asked', line, hstart, -, hextends, hlow, hhigh, hline, -, hpolicy⟩ :=
    (field_password hrun).2 _ rfl
  · exact absurd htyped (by decide +kernel)
  · exact ⟨_, hrun, by decide +kernel, cfg, asked', line, hstart, hextends, hlow, hhigh, hline,
      hpolicy⟩

end Desktop
