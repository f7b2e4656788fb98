import Mathlib.Data.List.Basic

/-!
# Compact JSON determines its value

Values are printed without white space, in the order they are given.
Two values with the same text are the same value (`Json.render_inj`):
a text that is signed speaks of one value only.

The argument is that every printer below is **self-delimiting**: where
a printed value ends can be told from the text alone, as long as what
follows cannot be taken for more of it. Numbers are the ones that need
the proviso – what follows must not start with a digit.
-/

/-- **Self-delimiting printers**: before texts satisfying `S`, what is
printed and what follows are determined by the whole. -/
def Delimited {α : Type} (S : List Char → Prop) (print : α → List Char) : Prop :=
  ∀ a b x y, S x → S y → print a ++ x = print b ++ y → a = b ∧ x = y

namespace Delimited

variable {α β : Type} {S : List Char → Prop} {print : α → List Char}

/-- What a reader recovers is self-delimiting. -/
theorem of_reader (read : List Char → Option (α × List Char))
    (h : ∀ a x, read (print a ++ x) = some (a, x)) : Delimited (fun _ => True) print := by
  intro a b x y _ _ hab
  have hread : some (a, x) = some (b, y) := by rw [← h a x, hab, h b y]
  simpa using hread

/-- **Concatenation** of self-delimiting texts, closed by a text that
none of them starts with. -/
theorem flatMap (h : Delimited (fun _ => True) print) (stop : List Char)
    (hstop : ∀ a x y, print a ++ x ≠ stop ++ y) :
    Delimited (fun _ => True) (fun l : List α => l.flatMap print ++ stop) := by
  intro l m x y _ _ hlm
  induction l generalizing m with
  | nil =>
    cases m with
    | nil => exact ⟨rfl, List.append_cancel_left hlm⟩
    | cons b m =>
      refine absurd ?_ (hstop b (m.flatMap print ++ stop ++ y) x)
      simpa using hlm.symm
  | cons a l ih =>
    cases m with
    | nil =>
      refine absurd ?_ (hstop a (l.flatMap print ++ stop ++ x) y)
      simpa using hlm
    | cons b m =>
      have hab : print a ++ (l.flatMap print ++ stop ++ x) =
          print b ++ (m.flatMap print ++ stop ++ y) := by simpa using hlm
      obtain ⟨rfl, hrest⟩ := h a b _ _ trivial trivial hab
      obtain ⟨rfl, hxy⟩ := ih m hrest
      exact ⟨rfl, hxy⟩

end Delimited

/-! ## Numbers -/

/-- What follows a number in a text: anything that does not start with a
digit. -/
def NoDigit (x : List Char) : Prop := ∀ c ∈ x.head?, c.isDigit = false

/-- The digits of a number, most significant first. -/
def printNat (n : Nat) : List Char := Nat.toDigits 10 n

theorem printNat_injective : Function.Injective printNat := by
  intro a b hab
  rw [← Nat.ofDigitChars_ten_toDigits (n := a), ← Nat.ofDigitChars_ten_toDigits (n := b)]
  exact congrArg (Nat.ofDigitChars 10 · 0) hab

theorem printNat_isDigit {n : Nat} {c : Char} (hc : c ∈ printNat n) : c.isDigit = true :=
  Nat.isDigit_of_mem_toDigits (by decide) (by decide) hc

/-- Two runs of digits that end where no digit follows. -/
theorem append_inj_of_noDigit {d e x y : List Char} (hd : ∀ c ∈ d, c.isDigit = true)
    (he : ∀ c ∈ e, c.isDigit = true) (hx : NoDigit x) (hy : NoDigit y)
    (h : d ++ x = e ++ y) : d = e ∧ x = y := by
  induction d generalizing e with
  | nil =>
    cases e with
    | nil => exact ⟨rfl, h⟩
    | cons c e =>
      have hc : c.isDigit = false := hx c (by rw [show x = c :: (e ++ y) from h]; rfl)
      rw [he c (by simp)] at hc
      exact absurd hc (by decide)
  | cons c d ih =>
    cases e with
    | nil =>
      have hc : c.isDigit = false := hy c (by rw [show y = c :: (d ++ x) from h.symm]; rfl)
      rw [hd c (by simp)] at hc
      exact absurd hc (by decide)
    | cons c' e =>
      obtain ⟨rfl, hrest⟩ := List.cons.inj h
      obtain ⟨rfl, hxy⟩ := ih (fun a ha => hd a (by simp [ha]))
        (fun a ha => he a (by simp [ha])) hrest
      exact ⟨rfl, hxy⟩

/-- A number starts with a digit. -/
theorem printNat_eq_cons (n : Nat) : ∃ c l, printNat n = c :: l ∧ c.isDigit = true := by
  cases hd : printNat n with
  | nil =>
    have hlen := Nat.length_toDigits_pos (b := 10) (n := n)
    rw [show Nat.toDigits 10 n = [] from hd] at hlen
    simp at hlen
  | cons c l => exact ⟨c, l, rfl, printNat_isDigit (n := n) (by rw [hd]; simp)⟩

theorem printNat_delimited : Delimited NoDigit printNat := by
  intro a b x y hx hy hab
  obtain ⟨hd, hxy⟩ := append_inj_of_noDigit (fun _ => printNat_isDigit)
    (fun _ => printNat_isDigit) hx hy hab
  exact ⟨printNat_injective hd, hxy⟩

/-! ## Strings -/

/-- **How a character is printed inside a string**: quotes, backslashes
and control characters are escaped. -/
def escapeChar (c : Char) : List Char :=
  if c = '"' then ['\\', '"']
  else if c = '\\' then ['\\', '\\']
  else if c = '\x08' then ['\\', 'b']
  else if c = '\t' then ['\\', 't']
  else if c = '\n' then ['\\', 'n']
  else if c = '\x0c' then ['\\', 'f']
  else if c = '\r' then ['\\', 'r']
  else if c.toNat < 32 then
    ['\\', 'u', '0', '0', Nat.digitChar (c.toNat / 16), Nat.digitChar (c.toNat % 16)]
  else [c]

/-- A printed string, with its quotes. -/
def printString (s : List Char) : List Char :=
  '"' :: (s.flatMap escapeChar ++ ['"'])

/-- The control character whose code has the given hexadecimal digits. -/
def controlChar (high low : Char) : Option Char :=
  ((List.range 32).find? fun n =>
    Nat.digitChar (n / 16) = high ∧ Nat.digitChar (n % 16) = low).map Char.ofNat

theorem controlChar_eq {c : Char} (hc : c.toNat < 32) :
    controlChar (Nat.digitChar (c.toNat / 16)) (Nat.digitChar (c.toNat % 16)) = some c := by
  have hfind : ∀ m < 32, (List.range 32).find? (fun n =>
      Nat.digitChar (n / 16) = Nat.digitChar (m / 16) ∧
        Nat.digitChar (n % 16) = Nat.digitChar (m % 16)) = some m := by decide
  rw [controlChar, hfind _ hc]
  exact congrArg some (Char.ofNat_toNat c)

/-- Reads one printed character. -/
def readChar : List Char → Option (Char × List Char)
  | '\\' :: 'u' :: '0' :: '0' :: high :: low :: x => (controlChar high low).map (·, x)
  | '\\' :: '"' :: x => some ('"', x)
  | '\\' :: '\\' :: x => some ('\\', x)
  | '\\' :: 'b' :: x => some ('\x08', x)
  | '\\' :: 't' :: x => some ('\t', x)
  | '\\' :: 'n' :: x => some ('\n', x)
  | '\\' :: 'f' :: x => some ('\x0c', x)
  | '\\' :: 'r' :: x => some ('\r', x)
  | c :: x => some (c, x)
  | [] => none

/-- **Printed characters are read back.** -/
theorem readChar_escapeChar (c : Char) (x : List Char) :
    readChar (escapeChar c ++ x) = some (c, x) := by
  unfold escapeChar
  split_ifs with h₁ h₂ h₃ h₄ h₅ h₆ h₇ h₈
  · rw [h₁]; rfl
  · rw [h₂]; rfl
  · rw [h₃]; rfl
  · rw [h₄]; rfl
  · rw [h₅]; rfl
  · rw [h₆]; rfl
  · rw [h₇]; rfl
  · show (controlChar _ _).map (·, x) = some (c, x)
    rw [controlChar_eq h₈]
    rfl
  · show readChar (c :: x) = some (c, x)
    unfold readChar
    split <;> simp_all

theorem escapeChar_delimited : Delimited (fun _ => True) escapeChar :=
  .of_reader readChar readChar_escapeChar

/-- No printed character starts like the closing quote. -/
theorem escapeChar_ne_quote (c : Char) (x y : List Char) :
    escapeChar c ++ x ≠ ['"'] ++ y := by
  unfold escapeChar
  split_ifs with h₁ <;> simp_all

theorem printString_delimited : Delimited (fun _ => True) printString := by
  intro s t x y hx hy hst
  refine escapeChar_delimited.flatMap ['"'] escapeChar_ne_quote s t x y hx hy ?_
  exact (List.cons.inj hst).2

/-! ## Values -/

/-- **A JSON value**, the members of an object in order. -/
inductive Json where
  | null
  | bool (b : Bool)
  | num (n : Nat)
  | str (s : List Char)
  | arr (elements : List Json)
  | obj (members : List (List Char × Json))

namespace Json

mutual

/-- **The compact text of a value.** -/
def render : Json → List Char
  | null => ['n', 'u', 'l', 'l']
  | bool true => ['t', 'r', 'u', 'e']
  | bool false => ['f', 'a', 'l', 's', 'e']
  | num n => printNat n
  | str s => printString s
  | arr [] => ['[', ']']
  | arr (v :: l) => '[' :: (v.render ++ renderElements l)
  | obj [] => ['{', '}']
  | obj ((k, v) :: l) => '{' :: (printString k ++ ':' :: (v.render ++ renderMembers l))

/-- The elements after the first. -/
def renderElements : List Json → List Char
  | [] => [']']
  | v :: l => ',' :: (v.render ++ renderElements l)

/-- The members after the first. -/
def renderMembers : List (List Char × Json) → List Char
  | [] => ['}']
  | (k, v) :: l => ',' :: (printString k ++ ':' :: (v.render ++ renderMembers l))

end

/-- The kind of a value, told by its first character. -/
def kind : Json → Nat
  | null => 0
  | bool true => 1
  | bool false => 2
  | num _ => 3
  | str _ => 4
  | arr _ => 5
  | obj _ => 6

/-- The kind a character announces; a closing bracket announces none. -/
def kindOf (c : Char) : Nat :=
  if c = 'n' then 0 else if c = 't' then 1 else if c = 'f' then 2
  else if c = '"' then 4 else if c = '[' then 5 else if c = '{' then 6
  else if c = ']' then 7 else 3

/-- **The first character tells the kind.** -/
theorem render_eq_cons (v : Json) : ∃ c l, v.render = c :: l ∧ kindOf c = v.kind := by
  match v with
  | null => exact ⟨_, _, by rw [render], rfl⟩
  | bool true => exact ⟨_, _, by rw [render], rfl⟩
  | bool false => exact ⟨_, _, by rw [render], rfl⟩
  | num n =>
    obtain ⟨c, l, hn, hc⟩ := printNat_eq_cons n
    refine ⟨c, l, by rw [render, hn], ?_⟩
    have hne : ∀ d : Char, d.isDigit = false → c ≠ d := by
      rintro d hd rfl
      rw [hc] at hd
      exact absurd hd (by decide)
    simp [kindOf, kind, hne 'n' (by decide), hne 't' (by decide), hne 'f' (by decide),
      hne '"' (by decide), hne '[' (by decide), hne '{' (by decide), hne ']' (by decide)]
  | str s => exact ⟨_, _, by rw [render, printString], rfl⟩
  | arr [] => exact ⟨_, _, by rw [render], rfl⟩
  | arr (v :: l) => exact ⟨_, _, by rw [render], rfl⟩
  | obj [] => exact ⟨_, _, by rw [render], rfl⟩
  | obj ((k, v) :: l) => exact ⟨_, _, by rw [render], rfl⟩

theorem kind_eq {v w : Json} {x y : List Char} (h : v.render ++ x = w.render ++ y) :
    v.kind = w.kind := by
  obtain ⟨c, l, hv, hc⟩ := render_eq_cons v
  obtain ⟨d, m, hw, hd⟩ := render_eq_cons w
  rw [hv, hw] at h
  rw [← hc, ← hd, (List.cons.inj h).1]

/-- No value starts like the end of an array. -/
theorem render_ne_close (v : Json) (x y : List Char) : v.render ++ x ≠ ']' :: y := by
  obtain ⟨c, l, hv, hc⟩ := render_eq_cons v
  rw [hv]
  intro h
  rw [(List.cons.inj h).1] at hc
  have hk : v.kind ≤ 6 := by
    unfold kind
    split <;> decide
  rw [← hc] at hk
  exact absurd hk (by decide)

theorem noDigit_cons {c : Char} {x : List Char} (hc : c.isDigit = false) :
    NoDigit (c :: x) := by
  intro d hd
  obtain rfl : c = d := by simpa using hd
  exact hc

theorem noDigit_renderElements (l : List Json) (x : List Char) :
    NoDigit (renderElements l ++ x) := by
  cases l <;> rw [renderElements] <;> exact noDigit_cons (by decide)

theorem noDigit_renderMembers (l : List (List Char × Json)) (x : List Char) :
    NoDigit (renderMembers l ++ x) := by
  cases l <;> rw [renderMembers] <;> exact noDigit_cons (by decide)

mutual

/-- **A printed value is self-delimiting** where no digit follows. -/
theorem render_delimited (v w : Json) (x y : List Char) (hx : NoDigit x) (hy : NoDigit y)
    (h : v.render ++ x = w.render ++ y) : v = w ∧ x = y := by
  have hkind := kind_eq h
  match v, w, hkind with
  | null, null, _ => exact ⟨rfl, List.append_cancel_left h⟩
  | bool true, bool true, _ => exact ⟨rfl, List.append_cancel_left h⟩
  | bool false, bool false, _ => exact ⟨rfl, List.append_cancel_left h⟩
  | num n, num m, _ =>
    rw [render, render] at h
    obtain ⟨rfl, hxy⟩ := printNat_delimited n m x y hx hy h
    exact ⟨rfl, hxy⟩
  | str s, str t, _ =>
    rw [render, render] at h
    obtain ⟨rfl, hxy⟩ := printString_delimited s t x y trivial trivial h
    exact ⟨rfl, hxy⟩
  | arr [], arr [], _ => exact ⟨rfl, List.append_cancel_left h⟩
  | arr (v :: l), arr (w :: m), _ =>
    rw [render, render] at h
    have hrest : v.render ++ (renderElements l ++ x) = w.render ++ (renderElements m ++ y) := by
      simpa using h
    obtain ⟨rfl, hl⟩ := render_delimited v w _ _ (noDigit_renderElements l x)
      (noDigit_renderElements m y) hrest
    obtain ⟨rfl, hxy⟩ := renderElements_delimited l m x y hl
    exact ⟨rfl, hxy⟩
  | arr [], arr (w :: m), _ =>
    rw [render, render] at h
    refine absurd ?_ (w.render_ne_close (renderElements m ++ y) x)
    simpa using (List.cons.inj h).2.symm
  | arr (v :: l), arr [], _ =>
    rw [render, render] at h
    refine absurd ?_ (v.render_ne_close (renderElements l ++ x) y)
    simpa using (List.cons.inj h).2
  | obj [], obj [], _ => exact ⟨rfl, List.append_cancel_left h⟩
  | obj ((k, v) :: l), obj ((k', w) :: m), _ =>
    rw [render, render] at h
    have hrest : printString k ++ (':' :: (v.render ++ (renderMembers l ++ x))) =
        printString k' ++ (':' :: (w.render ++ (renderMembers m ++ y))) := by
      simpa using h
    obtain ⟨rfl, hv⟩ := printString_delimited k k' _ _ trivial trivial hrest
    obtain ⟨rfl, hl⟩ := render_delimited v w _ _ (noDigit_renderMembers l x)
      (noDigit_renderMembers m y) (List.cons.inj hv).2
    obtain ⟨rfl, hxy⟩ := renderMembers_delimited l m x y hl
    exact ⟨rfl, hxy⟩
  | obj [], obj ((k, w) :: m), _ => simp [render, printString] at h
  | obj ((k, v) :: l), obj [], _ => simp [render, printString] at h

theorem renderElements_delimited (l m : List Json) (x y : List Char)
    (h : renderElements l ++ x = renderElements m ++ y) : l = m ∧ x = y := by
  match l, m with
  | [], [] => exact ⟨rfl, List.append_cancel_left h⟩
  | [], w :: m => simp [renderElements] at h
  | v :: l, [] => simp [renderElements] at h
  | v :: l, w :: m =>
    have hrest : v.render ++ (renderElements l ++ x) = w.render ++ (renderElements m ++ y) := by
      simpa [renderElements] using h
    obtain ⟨rfl, hl⟩ := render_delimited v w _ _ (noDigit_renderElements l x)
      (noDigit_renderElements m y) hrest
    obtain ⟨rfl, hxy⟩ := renderElements_delimited l m x y hl
    exact ⟨rfl, hxy⟩

theorem renderMembers_delimited (l m : List (List Char × Json)) (x y : List Char)
    (h : renderMembers l ++ x = renderMembers m ++ y) : l = m ∧ x = y := by
  match l, m with
  | [], [] => exact ⟨rfl, List.append_cancel_left h⟩
  | [], (k, w) :: m => simp [renderMembers] at h
  | (k, v) :: l, [] => simp [renderMembers] at h
  | (k, v) :: l, (k', w) :: m =>
    have hrest : printString k ++ (':' :: (v.render ++ (renderMembers l ++ x))) =
        printString k' ++ (':' :: (w.render ++ (renderMembers m ++ y))) := by
      simpa [renderMembers] using h
    obtain ⟨rfl, hv⟩ := printString_delimited k k' _ _ trivial trivial hrest
    obtain ⟨rfl, hl⟩ := render_delimited v w _ _ (noDigit_renderMembers l x)
      (noDigit_renderMembers m y) (List.cons.inj hv).2
    obtain ⟨rfl, hxy⟩ := renderMembers_delimited l m x y hl
    exact ⟨rfl, hxy⟩

end

/-- **The compact text determines the value.** -/
theorem render_injective : Function.Injective render := by
  intro v w h
  exact (render_delimited v w [] [] (by simp [NoDigit]) (by simp [NoDigit])
    (by rw [h])).1

end Json
