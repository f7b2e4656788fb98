import Ferusa.Lib.Shuffle
import Ferusa.Desktop.Clipboard

/-!
# Generated passwords

A password is drawn from the classes that are enabled: one character of
each, the rest of any of them, and all of it shuffled, so that the first
ones do not stay at the end. What the random source does is a command with
a reply in the range that was asked for, and a range is never empty; so
every sequence of choices is an outcome of the program, and the choices
that were made are its state (`drew`).
-/

namespace Desktop

open Shuffle

/-- `Rng::random_range`, from zero. An empty range would panic. -/
inductive RandomCmd where
  | randomRange (n : Nat) (pos : 0 < n)

/-- What is chosen is in the range. -/
abbrev RandomCmd.Reply : RandomCmd → Type
  | .randomRange n _ => Fin n

/-- `CliError`, of this module. -/
inductive CliError where
  | passwordGeneration (details : String)
  deriving DecidableEq

/-- A program that makes random choices. -/
abbrev RandomProg (α : Type) := Prog RandomCmd.Reply (Fault CliError) α

/-- A byte string literal. -/
def byteString (s : String) : Bytes := s.toList.map Char.toUInt8

def upper : Bytes := byteString "ABCDEFGHIJKLMNOPQRSTUVWXYZ"
def lower : Bytes := byteString "abcdefghijklmnopqrstuvwxyz"
def digits : Bytes := byteString "0123456789"
def symbols : Bytes := byteString "!@#$%^&*-_=+?"

/-- **`PasswordGenConfig`.** -/
structure PasswordGenConfig where
  length : Nat := 20
  uppercase : Bool := true
  digits : Bool := true
  symbols : Bool := true

/-- A character of a class, at a random index. -/
def pick (l : Bytes) (pos : 0 < l.length) : RandomProg UInt8 := do
  let i : Fin l.length ← Prog.perform (RandomCmd.randomRange l.length pos)
  pure (l.get i)

/-- `guaranteed.push`, of a character of a class that is enabled. -/
def pushIf (enabled : Bool) (l : Bytes) (pos : 0 < l.length) (guaranteed : Bytes) :
    RandomProg Bytes :=
  if enabled then do
    let c ← pick l pos
    pure (guaranteed ++ [c])
  else pure guaranteed

/-- As many characters as are left. -/
def fillOf (l : Bytes) (pos : 0 < l.length) : Nat → RandomProg Bytes
  | 0 => pure []
  | k + 1 => do
    let c ← pick l pos
    let rest ← fillOf l pos k
    pure (c :: rest)

/-- **The loop of the shuffle**, from the index `m - 1` down to one. -/
def shuffleLoop {α : Type} {n : Nat} (pw : Vector α n) :
    (m : Nat) → m ≤ n → RandomProg (Vector α n)
  | 0, _ => pure pw
  | 1, _ => pure pw
  | m + 2, h => do
    let j : Fin (m + 2) ← Prog.perform (RandomCmd.randomRange (m + 2) (Nat.succ_pos _))
    shuffleLoop (pw.swap (m + 1) j.val h (j.isLt.trans_le h)) (m + 1) (Nat.le_of_succ_le h)

/-- The shuffle of a whole password. -/
def shuffle {α : Type} {n : Nat} (pw : Vector α n) : RandomProg (Vector α n) :=
  shuffleLoop pw n (Nat.le_refl n)

namespace PasswordGenConfig

variable (cfg : PasswordGenConfig)

def requiredClasses : Nat :=
  1 + cfg.uppercase.toNat + cfg.digits.toNat + cfg.symbols.toNat

/-- The characters of the classes that are enabled; lowercase always is. -/
def charset : Bytes :=
  lower ++ (if cfg.uppercase then upper else []) ++ (if cfg.digits then Desktop.digits else []) ++
    (if cfg.symbols then Desktop.symbols else [])

theorem charset_pos : 0 < cfg.charset.length := by
  have hlower : 0 < lower.length := by decide
  unfold charset
  rw [List.length_append, List.length_append, List.length_append]
  omega

end PasswordGenConfig

/-- **`generate`.** A configuration that is not refused is at least as long as
there are guaranteed characters. -/
def generate (cfg : PasswordGenConfig) : RandomProg String :=
  if cfg.length < cfg.requiredClasses then
    .fail (.failed (.passwordGeneration s!"requested length {cfg.length} is shorter than enabled required class count {cfg.requiredClasses}"))
  else do
    let guaranteed ← pushIf true lower (by decide) []
    let guaranteed ← pushIf cfg.uppercase upper (by decide) guaranteed
    let guaranteed ← pushIf cfg.digits digits (by decide) guaranteed
    let guaranteed ← pushIf cfg.symbols symbols (by decide) guaranteed
    let fill ← fillOf cfg.charset cfg.charset_pos (cfg.length - guaranteed.length)
    let pw ← shuffle (⟨(fill ++ guaranteed).toArray, rfl⟩ : Vector UInt8 _)
    match fromUtf8 pw.toList with
    | some s => pure s
    | none => .fail .panicked

/-- **The characters of a password**, before they are shuffled: those that fill
it, and the guaranteed ones. -/
def drawCharacters (cfg : PasswordGenConfig) : RandomProg Bytes := do
  let guaranteed ← pushIf true lower (by decide) []
  let guaranteed ← pushIf cfg.uppercase upper (by decide) guaranteed
  let guaranteed ← pushIf cfg.digits digits (by decide) guaranteed
  let guaranteed ← pushIf cfg.symbols symbols (by decide) guaranteed
  let fill ← fillOf cfg.charset cfg.charset_pos (cfg.length - guaranteed.length)
  pure (fill ++ guaranteed)

/-- The characters are shuffled, and are a text. -/
def shuffleCharacters (pw : Bytes) : RandomProg String := do
  let pw ← shuffle (⟨pw.toArray, rfl⟩ : Vector UInt8 _)
  match fromUtf8 pw.toList with
  | some s => pure s
  | none => .fail .panicked

/-- **A password is drawn, and then shuffled.** -/
theorem generate_eq {cfg : PasswordGenConfig} (hlong : cfg.requiredClasses ≤ cfg.length) :
    generate cfg = drawCharacters cfg >>= shuffleCharacters := by
  unfold generate drawCharacters
  rw [if_neg (Nat.not_lt.mpr hlong)]
  simp only [Prog.bind_assoc]
  rfl

/-! ## The choices -/

/-- A random choice, after those that were made. -/
def drew : (c : RandomCmd) → List Nat → c.Reply → List Nat → Prop
  | .randomRange _ _, choices, i, choices' => choices' = choices ++ [i.val]

/-- **How a program may end**, and the choices with which it ends so. -/
abbrev Draws {α : Type} (p : RandomProg α) (choices : List Nat) (x : Except (Fault CliError) α)
    (choices' : List Nat) : Prop :=
  Prog.Outcome drew p choices x choices'

variable {α : Type} {choices choices' : List Nat}

/-- Whatever is chosen, the program ends. -/
theorem exists_draws (p : RandomProg α) (choices : List Nat) :
    ∃ x choices', Draws p choices x choices' := by
  induction p generalizing choices with
  | ret a => exact ⟨_, _, .ret⟩
  | fail e => exact ⟨_, _, .fail⟩
  | call c k ih =>
    cases c with
    | randomRange n pos =>
      obtain ⟨x, choices', h⟩ := ih ⟨0, pos⟩ (choices ++ [0])
      exact ⟨x, choices', .call rfl h⟩

/-- A shuffle of no more than one place makes no choice. -/
theorem still_draws {n m : Nat} (pw : Vector α n) (h : m ≤ n) (c : Choices m)
    (hone : ∀ d, arrange m h d = 1) (hnone : ∀ d, Choices.toList m d = [])
    {x : Except (Fault CliError) (Vector α n)} :
    Draws (.ret pw) choices x choices' ↔
      ∃ d : Choices m, x = .ok (permute pw (arrange m h d)) ∧
        choices' = choices ++ Choices.toList m d := by
  refine Prog.Outcome.ret_iff.trans ?_
  constructor
  · rintro ⟨rfl, rfl⟩
    refine ⟨c, ?_, ?_⟩
    · rw [hone, permute_one]
    · rw [hnone, List.append_nil]
  · rintro ⟨d, rfl, rfl⟩
    rw [hone, permute_one, hnone, List.append_nil]
    exact ⟨rfl, rfl⟩

theorem shuffleLoop_add_two {n m : Nat} (pw : Vector α n) (h : m + 2 ≤ n) :
    shuffleLoop pw (m + 2) h = .call (.randomRange (m + 2) (Nat.succ_pos _)) fun j : Fin (m + 2) =>
      shuffleLoop (pw.swap (m + 1) j.val h (j.isLt.trans_le h)) (m + 1)
        (Nat.le_of_succ_le h) := rfl

/-- **The shuffle ends with its elements where a sequence of choices gets them
from**, and it ends so for every sequence. -/
theorem shuffleLoop_draws {n : Nat} (pw : Vector α n) (m : Nat) (h : m ≤ n)
    {x : Except (Fault CliError) (Vector α n)} :
    Draws (shuffleLoop pw m h) choices x choices' ↔
      ∃ c : Choices m, x = .ok (permute pw (arrange m h c)) ∧
        choices' = choices ++ Choices.toList m c := by
  induction m generalizing pw choices with
  | zero => exact still_draws pw h () (fun _ => rfl) fun _ => rfl
  | succ m ih =>
    cases m with
    | zero => exact still_draws pw h () (fun _ => rfl) fun _ => rfl
    | succ m =>
      rw [shuffleLoop_add_two]
      constructor
      · intro hd
        obtain ⟨j, t, hj, hk⟩ := hd.of_call
        have ht : t = choices ++ [j.val] := hj
        obtain ⟨c, hx, hchoices⟩ := (ih _ _).mp hk
        refine ⟨(j, c), ?_, ?_⟩
        · rw [hx, permute_swap]
          rfl
        · rw [hchoices, ht, List.append_assoc]
          rfl
      · rintro ⟨⟨j, c⟩, hx, hchoices⟩
        have hrest : Draws (shuffleLoop (pw.swap (m + 1) j.val h (j.isLt.trans_le h)) (m + 1)
            (Nat.le_of_succ_le h)) (choices ++ [j.val]) x choices' := by
          refine (ih _ _).mpr ⟨c, ?_, ?_⟩
          · rw [hx, permute_swap]
            rfl
          · rw [hchoices, List.append_assoc]
            rfl
        have hj : drew (.randomRange (m + 2) (Nat.succ_pos _)) choices j
            (choices ++ [j.val]) := rfl
        exact .call hj hrest

theorem shuffle_draws {n : Nat} (pw : Vector α n) {x : Except (Fault CliError) (Vector α n)} :
    Draws (shuffle pw) choices x choices' ↔
      ∃ c : Choices n, x = .ok (permute pw (arrange n (Nat.le_refl n) c)) ∧
        choices' = choices ++ Choices.toList n c :=
  shuffleLoop_draws pw n _

/-! ## The characters -/

theorem pick_draws {l : Bytes} {pos : 0 < l.length} {x : Except (Fault CliError) UInt8}
    (h : Draws (pick l pos) choices x choices') : ∃ c ∈ l, x = .ok c := by
  obtain ⟨i, t, -, hk⟩ := Prog.Outcome.of_call h
  obtain ⟨rfl, -⟩ := Prog.Outcome.of_ret hk
  exact ⟨l.get i, l.get_mem i, rfl⟩

theorem fillOf_draws {l : Bytes} {pos : 0 < l.length} {k : Nat}
    {x : Except (Fault CliError) Bytes} (h : Draws (fillOf l pos k) choices x choices') :
    ∃ fill, x = .ok fill ∧ fill.length = k ∧ ∀ c ∈ fill, c ∈ l := by
  induction k generalizing choices choices' x with
  | zero =>
    obtain ⟨rfl, -⟩ := Prog.Outcome.of_ret h
    exact ⟨[], rfl, rfl, fun c hc => absurd hc List.not_mem_nil⟩
  | succ k ih =>
    obtain ⟨c, t, hc, hrest⟩ | ⟨e, he, -⟩ := Prog.Outcome.of_bind h
    · obtain ⟨c', hmem, heq⟩ := pick_draws hc
      obtain rfl := Except.ok.inj heq
      obtain ⟨rest, u, hr, hret⟩ | ⟨e, he, -⟩ := Prog.Outcome.of_bind hrest
      · obtain ⟨rest', heq, hlength, hall⟩ := ih hr
        obtain rfl := Except.ok.inj heq
        obtain ⟨rfl, -⟩ := Prog.Outcome.of_ret hret
        refine ⟨c :: rest, rfl, by rw [List.length_cons, hlength], ?_⟩
        exact List.forall_mem_cons.mpr ⟨hmem, hall⟩
      · obtain ⟨_, heq, -⟩ := ih he
        cases heq
    · obtain ⟨_, -, heq⟩ := pick_draws he
      cases heq

/-- **The guaranteed characters so far**: one of each of the classes. -/
def Guaranteed (guaranteed : Bytes) (classes : List Bytes) : Prop :=
  List.Forall₂ (fun c l => c ∈ l) guaranteed classes

/-- One more character is guaranteed if its class is enabled. -/
theorem pushIf_draws {l : Bytes} {pos : 0 < l.length} {guaranteed : Bytes}
    {classes : List Bytes} {enabled : Bool} {x : Except (Fault CliError) Bytes}
    (hg : Guaranteed guaranteed classes)
    (h : Draws (pushIf enabled l pos guaranteed) choices x choices') :
    ∃ next, x = .ok next ∧ Guaranteed next (classes ++ if enabled then [l] else []) := by
  cases enabled with
  | false =>
    obtain ⟨rfl, -⟩ := Prog.Outcome.of_ret h
    exact ⟨guaranteed, rfl, by rwa [if_neg Bool.false_ne_true, List.append_nil]⟩
  | true =>
    obtain ⟨c, t, hc, hret⟩ | ⟨e, he, -⟩ := Prog.Outcome.of_bind h
    · obtain ⟨c', hmem, heq⟩ := pick_draws hc
      obtain rfl := Except.ok.inj heq
      obtain ⟨rfl, -⟩ := Prog.Outcome.of_ret hret
      exact ⟨guaranteed ++ [c], rfl, List.rel_append hg (.cons hmem .nil)⟩
    · obtain ⟨_, -, heq⟩ := pick_draws he
      cases heq

/-! ## The policy -/

/-- The classes that are enabled. -/
def PasswordGenConfig.classes (cfg : PasswordGenConfig) : List Bytes :=
  [lower] ++ (if cfg.uppercase then [upper] else []) ++
    (if cfg.digits then [Desktop.digits] else []) ++
    (if cfg.symbols then [Desktop.symbols] else [])

variable {cfg : PasswordGenConfig}

theorem PasswordGenConfig.length_classes : cfg.classes.length = cfg.requiredClasses := by
  obtain ⟨length, uppercase, digits, symbols⟩ := cfg
  cases uppercase <;> cases digits <;> cases symbols <;> rfl

/-- The character set is that of the classes. -/
theorem PasswordGenConfig.mem_charset {c : UInt8} :
    c ∈ cfg.charset ↔ ∃ l ∈ cfg.classes, c ∈ l := by
  obtain ⟨length, uppercase, digits, symbols⟩ := cfg
  cases uppercase <;> cases digits <;> cases symbols <;>
    simp [PasswordGenConfig.charset, PasswordGenConfig.classes]

/-- **The policy**, of the bytes of a password. -/
structure Meets (cfg : PasswordGenConfig) (pw : Bytes) : Prop where
  length : pw.length = cfg.length
  only : ∀ c ∈ pw, ∃ l ∈ cfg.classes, c ∈ l
  each : ∀ l ∈ cfg.classes, ∃ c ∈ pw, c ∈ l

/-- Where the characters stand does not matter. -/
theorem Meets.permute {pw : Bytes} (h : Meets cfg pw)
    (σ : Equiv.Perm (Fin pw.toArray.size)) :
    Meets cfg (Shuffle.permute (⟨pw.toArray, rfl⟩ : Vector UInt8 _) σ).toList := by
  have hmem : ∀ c, c ∈ (Shuffle.permute (⟨pw.toArray, rfl⟩ : Vector UInt8 _) σ).toList ↔
      c ∈ pw := by
    intro c
    rw [Vector.mem_toList_iff, mem_permute, ← Vector.mem_toList_iff]
    rfl
  refine ⟨?_, fun c hc => h.only c ((hmem c).mp hc), fun l hl => ?_⟩
  · rw [Vector.length_toList]
    exact h.length
  · obtain ⟨c, hc, hcl⟩ := h.each l hl
    exact ⟨c, (hmem c).mpr hc, hcl⟩

/-- What was filled and what is guaranteed make a password. -/
theorem Guaranteed.meets {fill guaranteed : Bytes} (hg : Guaranteed guaranteed cfg.classes)
    (hfill : ∀ c ∈ fill, c ∈ cfg.charset)
    (hlength : fill.length = cfg.length - guaranteed.length)
    (hlong : cfg.requiredClasses ≤ cfg.length) : Meets cfg (fill ++ guaranteed) where
  length := by
    have hsize : guaranteed.length = cfg.requiredClasses := by
      rw [← PasswordGenConfig.length_classes]
      exact hg.length_eq
    rw [List.length_append, hlength]
    omega
  only c hc := by
    obtain hc | hc := List.mem_append.mp hc
    · exact PasswordGenConfig.mem_charset.mp (hfill c hc)
    · obtain ⟨i, hi, rfl⟩ := List.mem_iff_getElem.mp hc
      have hi' : i < cfg.classes.length := hg.length_eq ▸ hi
      exact ⟨cfg.classes[i], List.getElem_mem hi', hg.get hi hi'⟩
  each l hl := by
    obtain ⟨i, hi, rfl⟩ := List.mem_iff_getElem.mp hl
    have hi' : i < guaranteed.length := hg.length_eq ▸ hi
    exact ⟨guaranteed[i], List.mem_append_right fill (List.getElem_mem hi'), hg.get hi' hi⟩

/-! ## The text -/

/-- There are no other classes. -/
theorem PasswordGenConfig.mem_classes {l : Bytes} (hl : l ∈ cfg.classes) :
    l ∈ [lower, upper, Desktop.digits, Desktop.symbols] := by
  have hif : ∀ (enabled : Bool) (k : Bytes), l ∈ (if enabled then [k] else []) → l = k := by
    intro enabled k hk
    cases enabled with
    | false => exact absurd hk List.not_mem_nil
    | true => exact List.mem_singleton.mp hk
  unfold PasswordGenConfig.classes at hl
  simp only [List.mem_append] at hl
  obtain ((hl | hl) | hl) | hl := hl
  · exact List.mem_singleton.mp hl ▸ List.mem_cons_self
  · exact hif _ _ hl ▸ List.mem_cons_of_mem _ List.mem_cons_self
  · exact hif _ _ hl ▸ List.mem_cons_of_mem _ (List.mem_cons_of_mem _ List.mem_cons_self)
  · exact hif _ _ hl ▸ List.mem_cons_of_mem _ (List.mem_cons_of_mem _
      (List.mem_cons_of_mem _ List.mem_cons_self))

/-- Every character of the classes is one of ASCII. -/
theorem ascii_of_mem_classes {l : Bytes} (hl : l ∈ cfg.classes) {c : UInt8} (hc : c ∈ l) :
    c < 128 := by
  have hall : ∀ l ∈ [lower, upper, digits, symbols], ∀ c ∈ l, c < 128 := by decide +kernel
  exact hall l (PasswordGenConfig.mem_classes hl) c hc

/-- **Bytes of ASCII are a text**, with one character each. -/
theorem fromUtf8_ascii {pw : Bytes} (h : ∀ c ∈ pw, c < 128) :
    fromUtf8 pw = some (String.ofList (pw.map Char.ofUInt8)) := by
  rw [← fromUtf8_asBytes, asBytes_ascii h]

/-! ## What is generated -/

/-- **The policy**, of a password: as long as it was asked for, of characters of
the enabled classes, and with one of each of them. -/
structure MeetsPolicy (cfg : PasswordGenConfig) (password : String) : Prop where
  length : password.toList.length = cfg.length
  only : ∀ c ∈ password.toList, ∃ l ∈ cfg.classes, c ∈ l.map Char.ofUInt8
  each : ∀ l ∈ cfg.classes, ∃ c ∈ password.toList, c ∈ l.map Char.ofUInt8

theorem Meets.policy {pw : Bytes} (h : Meets cfg pw) :
    ∃ s, fromUtf8 pw = some s ∧ MeetsPolicy cfg s := by
  have hascii : ∀ c ∈ pw, c < 128 := by
    intro c hc
    obtain ⟨l, hl, hcl⟩ := h.only c hc
    exact ascii_of_mem_classes hl hcl
  refine ⟨_, fromUtf8_ascii hascii, ?_, fun c hc => ?_, fun l hl => ?_⟩
  · rw [String.toList_ofList, List.length_map]
    exact h.length
  · rw [String.toList_ofList] at hc
    obtain ⟨b, hb, rfl⟩ := List.mem_map.mp hc
    obtain ⟨l, hl, hbl⟩ := h.only b hb
    exact ⟨l, hl, List.mem_map_of_mem hbl⟩
  · obtain ⟨b, hb, hbl⟩ := h.each l hl
    rw [String.toList_ofList]
    exact ⟨_, List.mem_map_of_mem hb, List.mem_map_of_mem hbl⟩

/-- A character is pushed, if its class is enabled, and the program goes on. -/
theorem pushIf_bind {l : Bytes} {pos : 0 < l.length} {guaranteed : Bytes}
    {classes : List Bytes} {enabled : Bool} {k : Bytes → RandomProg α}
    {x : Except (Fault CliError) α} (hg : Guaranteed guaranteed classes)
    (h : Draws (pushIf enabled l pos guaranteed >>= k) choices x choices') :
    ∃ next choices, Guaranteed next (classes ++ if enabled then [l] else []) ∧
      Draws (k next) choices x choices' := by
  obtain ⟨next, t, hp, hk⟩ | ⟨e, he, -⟩ := Prog.Outcome.of_bind h
  · obtain ⟨next', heq, hnext⟩ := pushIf_draws hg hp
    obtain rfl := Except.ok.inj heq
    exact ⟨next, t, hnext, hk⟩
  · obtain ⟨_, heq, -⟩ := pushIf_draws hg he
    cases heq

/-- **What is drawn** makes a password, in whatever order. -/
theorem drawCharacters_draws {x : Except (Fault CliError) Bytes}
    (hlong : cfg.requiredClasses ≤ cfg.length)
    (h : Draws (drawCharacters cfg) choices x choices') : ∃ pw, x = .ok pw ∧ Meets cfg pw := by
  obtain ⟨g₁, c₁, hg₁, h⟩ := pushIf_bind (List.Forall₂.nil : Guaranteed [] []) h
  obtain ⟨g₂, c₂, hg₂, h⟩ := pushIf_bind hg₁ h
  obtain ⟨g₃, c₃, hg₃, h⟩ := pushIf_bind hg₂ h
  obtain ⟨g₄, c₄, hg₄, h⟩ := pushIf_bind hg₃ h
  obtain ⟨fill, t, hf, h⟩ | ⟨e, he, -⟩ := Prog.Outcome.of_bind h
  · obtain ⟨fill', heq, hlength, hall⟩ := fillOf_draws hf
    obtain rfl := Except.ok.inj heq
    obtain ⟨rfl, -⟩ := Prog.Outcome.of_ret h
    exact ⟨_, rfl, hg₄.meets hall hlength hlong⟩
  · obtain ⟨_, heq, -⟩ := fillOf_draws he
    cases heq

/-- The characters, put where a sequence of choices gets them from. -/
def arranged (pw : Bytes) (c : Choices pw.toArray.size) : Bytes :=
  (permute (⟨pw.toArray, rfl⟩ : Vector UInt8 _) (arrange _ (Nat.le_refl _) c)).toList

/-- **What the shuffle makes of the characters**, for each sequence of choices. -/
theorem shuffleCharacters_draws {pw : Bytes} (hpw : Meets cfg pw)
    {x : Except (Fault CliError) String} :
    Draws (shuffleCharacters pw) choices x choices' ↔
      ∃ c s, fromUtf8 (arranged pw c) = some s ∧ x = .ok s ∧
        choices' = choices ++ Choices.toList _ c := by
  have htext : ∀ c, ∃ s, fromUtf8 (arranged pw c) = some s := fun c =>
    (hpw.permute (arrange _ (Nat.le_refl _) c)).policy.imp fun _ h => h.1
  constructor
  · intro h
    obtain ⟨v, t, hs, h⟩ | ⟨e, he, -⟩ := Prog.Outcome.of_bind h
    · obtain ⟨c, heq, rfl⟩ := (shuffle_draws _).mp hs
      obtain rfl := Except.ok.inj heq
      obtain ⟨s, hs⟩ := htext c
      have h : Draws (match fromUtf8 (arranged pw c) with
          | some s => pure s
          | none => .fail .panicked) (choices ++ Choices.toList _ c) x choices' := h
      rw [hs] at h
      obtain ⟨rfl, rfl⟩ := Prog.Outcome.of_ret h
      exact ⟨c, s, hs, rfl, rfl⟩
    · obtain ⟨c, heq, -⟩ := (shuffle_draws _).mp he
      cases heq
  · rintro ⟨c, s, hs, rfl, rfl⟩
    refine Prog.Outcome.bind ((shuffle_draws _).mpr ⟨c, rfl, rfl⟩) ?_
    show Draws (match fromUtf8 (arranged pw c) with
      | some s => pure s
      | none => .fail .panicked) _ _ _
    rw [hs]
    exact .ret

/-- **What `generate` returns**, where the length suffices: the characters that it
has drawn, arranged by the choices that it has made after that; and it
returns so for all of these. -/
theorem generate_iff (hlong : cfg.requiredClasses ≤ cfg.length)
    {x : Except (Fault CliError) String} : Draws (generate cfg) choices x choices' ↔
      ∃ pw drawn c s, Draws (drawCharacters cfg) choices (.ok pw) drawn ∧
        fromUtf8 (arranged pw c) = some s ∧ x = .ok s ∧
          choices' = drawn ++ Choices.toList _ c := by
  rw [generate_eq hlong]
  constructor
  · intro h
    obtain ⟨pw, drawn, hd, h⟩ | ⟨e, he, -⟩ := Prog.Outcome.of_bind h
    · obtain ⟨pw', heq, hpw⟩ := drawCharacters_draws hlong hd
      obtain rfl := Except.ok.inj heq
      obtain ⟨c, s, hs, hx, hchoices⟩ := (shuffleCharacters_draws hpw).mp h
      exact ⟨pw, drawn, c, s, hd, hs, hx, hchoices⟩
    · obtain ⟨pw, heq, -⟩ := drawCharacters_draws hlong he
      cases heq
  · rintro ⟨pw, drawn, c, s, hd, hs, hx, hchoices⟩
    obtain ⟨pw', heq, hpw⟩ := drawCharacters_draws hlong hd
    obtain rfl := Except.ok.inj heq
    exact hd.bind ((shuffleCharacters_draws hpw).mpr ⟨c, s, hs, hx, hchoices⟩)

/-- **What `generate` returns.** -/
theorem generate_draws {x : Except (Fault CliError) String}
    (h : Draws (generate cfg) choices x choices') :
    (cfg.length < cfg.requiredClasses ∧ ∃ details,
        x = .error (.failed (.passwordGeneration details))) ∨
      (cfg.requiredClasses ≤ cfg.length ∧ ∃ s, x = .ok s ∧ MeetsPolicy cfg s) := by
  obtain hshort | hlong := Nat.lt_or_ge cfg.length cfg.requiredClasses
  · rw [generate, if_pos hshort] at h
    obtain ⟨rfl, -⟩ := Prog.Outcome.of_fail h
    exact .inl ⟨hshort, _, rfl⟩
  · obtain ⟨pw, drawn, c, s, hd, hs, rfl, -⟩ := (generate_iff hlong).mp h
    obtain ⟨pw', heq, hpw⟩ := drawCharacters_draws hlong hd
    obtain rfl := Except.ok.inj heq
    obtain ⟨s', hs', hpolicy⟩ := (hpw.permute (arrange _ (Nat.le_refl _) c)).policy
    obtain rfl := Option.some.inj (hs.symm.trans hs')
    exact .inr ⟨hlong, s, rfl, hpolicy⟩

/-- **Generated passwords meet their policy, and where their characters stand
is not biased.** Every sequence of choices leads to an end; it is a failure
where the length does not suffice for the enabled classes, and otherwise a
password that meets the policy. It is that of the characters that were drawn
first, each put where the permutation gets it from that belongs to the
choices that come after; every such sequence of choices is one that
`generate` may make, and each permutation comes from one of them. So it is
with the shuffle of however many elements. -/
theorem generated_password_unbiased (cfg : PasswordGenConfig) :
    (∃ x choices, Draws (generate cfg) [] x choices) ∧
    (∀ x choices, Draws (generate cfg) [] x choices →
      ((∃ e, x = .error e) ↔ cfg.length < cfg.classes.length) ∧
      ∀ s, x = .ok s → MeetsPolicy cfg s) ∧
    (cfg.classes.length ≤ cfg.length → ∀ x choices, Draws (generate cfg) [] x choices ↔
      ∃ pw drawn c s, Draws (drawCharacters cfg) [] (.ok pw) drawn ∧
        fromUtf8 (permute (⟨pw.toArray, rfl⟩ : Vector UInt8 _)
          (arrange _ (Nat.le_refl _) c)).toList = some s ∧ x = .ok s ∧
        choices = drawn ++ Choices.toList _ c) ∧
    ∀ n, Function.Bijective (arrange n (Nat.le_refl n) : Choices n → Equiv.Perm (Fin n)) ∧
      Function.Injective (Choices.toList n) ∧
      ∀ {α : Type} (pw : Vector α n) x choices, Draws (shuffle pw) [] x choices ↔
        ∃ c, x = .ok (permute pw (arrange n (Nat.le_refl n) c)) ∧
          choices = Choices.toList n c := by
  refine ⟨exists_draws _ _, fun x choices h => ?_, fun hlong x choices => ?_,
    fun n => ⟨arrange_bijective n, Choices.toList_injective n, fun pw x choices => ?_⟩⟩
  · rw [PasswordGenConfig.length_classes]
    obtain ⟨hshort, details, rfl⟩ | ⟨hlong, s, rfl, hpolicy⟩ := generate_draws h
    · exact ⟨⟨fun _ => hshort, fun _ => ⟨_, rfl⟩⟩, nofun⟩
    · refine ⟨⟨fun ⟨e, he⟩ => (nomatch he), fun hshort => ?_⟩, fun s' hs' => ?_⟩
      · exact absurd hlong (Nat.not_le.mpr hshort)
      · exact Except.ok.inj hs' ▸ hpolicy
  · exact generate_iff (PasswordGenConfig.length_classes ▸ hlong)
  · exact shuffle_draws pw

end Desktop
