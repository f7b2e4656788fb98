import Ferusa.Lib.Prog

/-!
# Rely–guarantee reasoning for programs

A program shares its state with others that move between any two of its
commands. What they may do to the state is the **rely**, what the
program itself may do in one command is the **guarantee**, and both are
relations on states: the rely of one program is what the guarantees of
the others allow. Every state met satisfies an **invariant**, whose
preservation is not the business of the single program: it follows from
the guarantees, once for all programs.

`Logic.Safe` says of one program at one state that each of its commands
keeps the guarantee, whatever the others do in between and whatever the
replies, and that it ends with its postcondition. It speaks of every
command and not of the end alone, so a program stopped between two
commands has kept its guarantee up to there: nothing has to be said
about crashes. `Logic.Triple` is the same from every state satisfying a
precondition, and has the rules by which programs are proved.
-/

/-- **The setting of one program**: what its commands do, the invariant
every state satisfies, what the others may do, what it may do. -/
structure Logic {C : Type} (R : C → Type) (σ : Type) where
  /-- `exec c s r s'`: the command `c` may be answered by `r`, moving
  the state from `s` to `s'`. -/
  exec : (c : C) → σ → R c → σ → Prop
  /-- The invariant of all states. -/
  inv : σ → Prop
  /-- What the others may do between two commands. -/
  rely : σ → σ → Prop
  /-- What one command of this program may do. -/
  guar : σ → σ → Prop
  rely_refl : ∀ s, rely s s
  rely_trans : ∀ {s s' s''}, rely s s' → rely s' s'' → rely s s''

namespace Logic

variable {C : Type} {R : C → Type} {σ ε δ α β ι : Type}

/-- **Every command keeps the guarantee and every end satisfies its
postcondition**, `Q` for a return and `E` for an error, whatever the
others do before each command and after the last. -/
def Safe (L : Logic R σ) (Q : α → σ → Prop) (E : ε → σ → Prop) :
    Prog R ε α → σ → Prop
  | .ret a, s => ∀ s', L.rely s s' → L.inv s' → Q a s'
  | .fail e, s => ∀ s', L.rely s s' → L.inv s' → E e s'
  | .call c k, s => ∀ s', L.rely s s' → L.inv s' → ∀ r s'', L.exec c s' r s'' →
      L.guar s' s'' ∧ (L.inv s'' → Safe L Q E (k r) s'')

/-- Safe from every state that satisfies `P`. -/
def Triple (L : Logic R σ) (P : σ → Prop) (p : Prog R ε α)
    (Q : α → σ → Prop) (E : ε → σ → Prop) : Prop :=
  ∀ s, L.inv s → P s → L.Safe Q E p s

/-- **An assertion the others cannot break.** -/
def Stable (L : Logic R σ) (P : σ → Prop) : Prop :=
  ∀ s s', L.inv s → P s → L.rely s s' → L.inv s' → P s'

/-- What holds of either outcome, each with its own assertion. -/
def either (Q : α → σ → Prop) (E : ε → σ → Prop) : Except ε α → σ → Prop
  | .ok a => Q a
  | .error e => E e

variable {L : Logic R σ}

/-! ## Stability -/

theorem Stable.const (L : Logic R σ) (φ : Prop) : L.Stable (fun _ => φ) :=
  fun _ _ _ h _ _ => h

theorem Stable.and {P P' : σ → Prop} (h : L.Stable P) (h' : L.Stable P') :
    L.Stable (fun s => P s ∧ P' s) :=
  fun s s' hi hP hr hi' => ⟨h s s' hi hP.1 hr hi', h' s s' hi hP.2 hr hi'⟩

theorem Stable.or {P P' : σ → Prop} (h : L.Stable P) (h' : L.Stable P') :
    L.Stable (fun s => P s ∨ P' s) :=
  fun s s' hi hP hr hi' =>
    hP.imp (fun hP => h s s' hi hP hr hi') (fun hP => h' s s' hi hP hr hi')

theorem Stable.exists {P : ι → σ → Prop} (h : ∀ i, L.Stable (P i)) :
    L.Stable (fun s => ∃ i, P i s) :=
  fun s s' hi ⟨i, hP⟩ hr hi' => ⟨i, h i s s' hi hP hr hi'⟩

theorem Stable.forall {P : ι → σ → Prop} (h : ∀ i, L.Stable (P i)) :
    L.Stable (fun s => ∀ i, P i s) :=
  fun s s' hi hP hr hi' i => h i s s' hi (hP i) hr hi'

theorem Stable.imp {φ : Prop} {P : σ → Prop} (h : φ → L.Stable P) :
    L.Stable (fun s => φ → P s) :=
  fun s s' hi hP hr hi' hφ => h hφ s s' hi (hP hφ) hr hi'

/-! ## Safety of a program at a state -/

/-- **The others may move first.** -/
theorem Safe.rely {Q : α → σ → Prop} {E : ε → σ → Prop} {p : Prog R ε α}
    {s s' : σ} (h : L.Safe Q E p s) (hr : L.rely s s') : L.Safe Q E p s' := by
  cases p with
  | ret a => exact fun t ht hi => h t (L.rely_trans hr ht) hi
  | fail e => exact fun t ht hi => h t (L.rely_trans hr ht) hi
  | call c k => exact fun t ht hi => h t (L.rely_trans hr ht) hi

/-- A safe program stays safe for weaker postconditions. -/
theorem Safe.mono {Q Q' : α → σ → Prop} {E E' : ε → σ → Prop}
    {p : Prog R ε α} {s : σ} (h : L.Safe Q E p s)
    (hQ : ∀ a s, L.inv s → Q a s → Q' a s)
    (hE : ∀ e s, L.inv s → E e s → E' e s) : L.Safe Q' E' p s := by
  induction p generalizing s with
  | ret a => exact fun t ht hi => hQ a t hi (h t ht hi)
  | fail e => exact fun t ht hi => hE e t hi (h t ht hi)
  | call c k ih =>
    intro t ht hi r t' hx
    obtain ⟨hg, hk⟩ := h t ht hi r t' hx
    exact ⟨hg, fun hi' => ih r (hk hi')⟩

/-- **Sequencing**: the continuation starts where the first part
returns. -/
theorem Safe.bind {M : α → σ → Prop} {Q : β → σ → Prop} {E : ε → σ → Prop}
    {p : Prog R ε α} {f : α → Prog R ε β} {s : σ} (hi : L.inv s)
    (h : L.Safe M E p s)
    (hf : ∀ a s, L.inv s → M a s → L.Safe Q E (f a) s) :
    L.Safe Q E (p >>= f) s := by
  induction p generalizing s with
  | ret a => exact hf a s hi (h s (L.rely_refl s) hi)
  | fail e => exact h
  | call c k ih =>
    intro t ht hit r t' hx
    obtain ⟨hg, hk⟩ := h t ht hit r t' hx
    exact ⟨hg, fun hi' => ih r hi' (hk hi')⟩

/-- **Safe in one setting, safe in another** that shows no more commands
and interferes no more. -/
theorem Safe.change {L' : Logic R σ} {Q : α → σ → Prop} {E : ε → σ → Prop}
    (hinv : ∀ s, L'.inv s ↔ L.inv s) (hrely : ∀ s s', L'.rely s s' → L.rely s s')
    (hexec : ∀ c s r s', L'.exec c s r s' → L.exec c s r s')
    (hguar : ∀ s s', L.guar s s' → L'.guar s s') {p : Prog R ε α} {s : σ}
    (h : L.Safe Q E p s) : L'.Safe Q E p s := by
  induction p generalizing s with
  | ret a => exact fun t ht hi => h t (hrely s t ht) ((hinv t).mp hi)
  | fail e => exact fun t ht hi => h t (hrely s t ht) ((hinv t).mp hi)
  | call c k ih =>
    intro t ht hi r t' hx
    obtain ⟨hg, hk⟩ := h t (hrely s t ht) ((hinv t).mp hi) r t' (hexec c t r t' hx)
    exact ⟨hguar t t' hg, fun hi' => ih r (hk ((hinv t').mp hi'))⟩

/-- An assertion that neither the others nor the program's own commands
break holds at the end if it holds at the start. -/
theorem Safe.frame {Q : α → σ → Prop} {E : ε → σ → Prop} {F : σ → Prop}
    {p : Prog R ε α} {s : σ} (hi : L.inv s) (h : L.Safe Q E p s) (hF : F s)
    (hst : L.Stable F)
    (hg : ∀ s s', L.inv s → F s → L.guar s s' → F s') :
    L.Safe (fun a s => Q a s ∧ F s) (fun e s => E e s ∧ F s) p s := by
  induction p generalizing s with
  | ret a => exact fun t ht hit => ⟨h t ht hit, hst s t hi hF ht hit⟩
  | fail e => exact fun t ht hit => ⟨h t ht hit, hst s t hi hF ht hit⟩
  | call c k ih =>
    intro t ht hit r t' hx
    obtain ⟨hgt, hk⟩ := h t ht hit r t' hx
    have hFt : F t := hst s t hi hF ht hit
    exact ⟨hgt, fun hi' => ih r hi' (hk hi') (hg t t' hit hFt hgt)⟩

/-- **A safe program on its own** ends with its postcondition, where what
its commands may do keeps the invariant. -/
theorem Safe.outcome {Q : α → σ → Prop} {E : ε → σ → Prop} {p : Prog R ε α} {s s' : σ}
    {x : Except ε α} (h : L.Safe Q E p s) (hi : L.inv s)
    (hstep : ∀ s s', L.inv s → L.guar s s' → L.inv s') (hp : Prog.Outcome L.exec p s x s') :
    L.inv s' ∧ either Q E x s' := by
  induction hp with
  | ret => exact ⟨hi, h _ (L.rely_refl _) hi⟩
  | fail => exact ⟨hi, h _ (L.rely_refl _) hi⟩
  | call hx _ ih =>
    obtain ⟨hg, hk⟩ := h _ (L.rely_refl _) hi _ _ hx
    have hi' := hstep _ _ hi hg
    exact ih (hk hi') hi'

/-! ## Rules -/

variable {P : σ → Prop} {Q : α → σ → Prop} {E : ε → σ → Prop}

theorem Triple.ret {a : α} (hP : L.Stable P) (h : ∀ s, L.inv s → P s → Q a s) :
    L.Triple P (.ret a : Prog R ε α) Q E :=
  fun s hi hPs t ht hit => h t hit (hP s t hi hPs ht hit)

theorem Triple.pure {a : α} (hP : L.Stable P) (h : ∀ s, L.inv s → P s → Q a s) :
    L.Triple P (Pure.pure a : Prog R ε α) Q E :=
  Triple.ret hP h

theorem Triple.fail {e : ε} (hP : L.Stable P) (h : ∀ s, L.inv s → P s → E e s) :
    L.Triple P (.fail e : Prog R ε α) Q E :=
  fun s hi hPs t ht hit => h t hit (hP s t hi hPs ht hit)

theorem Triple.ofExcept {x : Except ε α} (hP : L.Stable P)
    (hok : ∀ a, x = .ok a → ∀ s, L.inv s → P s → Q a s)
    (herr : ∀ e, x = .error e → ∀ s, L.inv s → P s → E e s) :
    L.Triple P (Prog.ofExcept x : Prog R ε α) Q E := by
  cases x with
  | ok a => exact Triple.ret hP (hok a rfl)
  | error e => exact Triple.fail hP (herr e rfl)

/-- **One command**: it keeps the guarantee and leaves what its
continuation needs. -/
theorem Triple.call {c : C} {k : R c → Prog R ε α} {M : R c → σ → Prop}
    (hP : L.Stable P)
    (h : ∀ s r s', L.inv s → P s → L.exec c s r s' → L.guar s s' ∧ M r s')
    (hk : ∀ r, L.Triple (M r) (k r) Q E) :
    L.Triple P (.call c k) Q E := by
  intro s hi hPs t ht hit r t' hx
  obtain ⟨hg, hM⟩ := h t r t' hit (hP s t hi hPs ht hit) hx
  exact ⟨hg, fun hi' => hk r t' hi' hM⟩

/-- One command followed by a continuation. -/
theorem Triple.perform_bind {c : C} {k : R c → Prog R ε α} {M : R c → σ → Prop}
    (hP : L.Stable P)
    (h : ∀ s r s', L.inv s → P s → L.exec c s r s' → L.guar s s' ∧ M r s')
    (hk : ∀ r, L.Triple (M r) (k r) Q E) :
    L.Triple P (Prog.perform c >>= k) Q E :=
  Triple.call hP h hk

/-- One command on its own. -/
theorem Triple.perform {c : C} {Q : R c → σ → Prop} (hP : L.Stable P)
    (hQ : ∀ r, L.Stable (Q r))
    (h : ∀ s r s', L.inv s → P s → L.exec c s r s' → L.guar s s' ∧ Q r s') :
    L.Triple P (Prog.perform c : Prog R ε (R c)) Q E :=
  Triple.call hP h (fun r => Triple.ret (hQ r) (fun _ _ h => h))

theorem Triple.bind {M : β → σ → Prop} {p : Prog R ε β} {f : β → Prog R ε α}
    (hp : L.Triple P p M E) (hf : ∀ b, L.Triple (M b) (f b) Q E) :
    L.Triple P (p >>= f) Q E :=
  fun s hi hPs => Safe.bind hi (hp s hi hPs) (fun b t hit hM => hf b t hit hM)

/-- **Consequence.** -/
theorem Triple.conseq {P' : σ → Prop} {Q' : α → σ → Prop} {E' : ε → σ → Prop}
    {p : Prog R ε α} (h : L.Triple P' p Q' E')
    (hP : ∀ s, L.inv s → P s → P' s)
    (hQ : ∀ a s, L.inv s → Q' a s → Q a s)
    (hE : ∀ e s, L.inv s → E' e s → E e s) : L.Triple P p Q E :=
  fun s hi hPs => Safe.mono (h s hi (hP s hi hPs)) hQ hE

theorem Triple.pre {P' : σ → Prop} {p : Prog R ε α} (h : L.Triple P' p Q E)
    (hP : ∀ s, L.inv s → P s → P' s) : L.Triple P p Q E :=
  h.conseq hP (fun _ _ _ h => h) (fun _ _ _ h => h)

theorem Triple.post {Q' : α → σ → Prop} {p : Prog R ε α} (h : L.Triple P p Q' E)
    (hQ : ∀ a s, L.inv s → Q' a s → Q a s) : L.Triple P p Q E :=
  h.conseq (fun _ _ h => h) hQ (fun _ _ _ h => h)

/-- A precondition that does not depend on the state is a hypothesis. -/
theorem Triple.given {φ : Prop} {p : Prog R ε α} (h : φ → L.Triple P p Q E) :
    L.Triple (fun s => φ ∧ P s) p Q E :=
  fun s hi hP => h hP.1 s hi hP.2

theorem Triple.exists {P : ι → σ → Prop} {p : Prog R ε α}
    (h : ∀ i, L.Triple (P i) p Q E) : L.Triple (fun s => ∃ i, P i s) p Q E :=
  fun s hi ⟨i, hP⟩ => h i s hi hP

/-- **Frame**: what neither the others nor the program can break is
carried along. -/
theorem Triple.frame {F : σ → Prop} {p : Prog R ε α} (h : L.Triple P p Q E)
    (hst : L.Stable F) (hg : ∀ s s', L.inv s → F s → L.guar s s' → F s') :
    L.Triple (fun s => P s ∧ F s) p (fun a s => Q a s ∧ F s)
      (fun e s => E e s ∧ F s) :=
  fun s hi hP => Safe.frame hi (h s hi hP.1) hP.2 hst hg

/-- **Catching the outcome** turns the two postconditions into one. -/
theorem Triple.attempt {p : Prog R ε α} {M : Except ε α → σ → Prop}
    {E' : δ → σ → Prop}
    (h : L.Triple P p (fun a => M (.ok a)) (fun e => M (.error e))) :
    L.Triple P (p.attempt : Prog R δ _) M E' := by
  intro s hi hPs
  have aux : ∀ (p : Prog R ε α) (s : σ), L.inv s →
      L.Safe (fun a => M (.ok a)) (fun e => M (.error e)) p s →
      L.Safe M E' (p.attempt : Prog R δ _) s := by
    intro p
    induction p with
    | ret a => exact fun s _ h => h
    | fail e => exact fun s _ h => h
    | call c k ih =>
      intro s _ h t ht hit r t' hx
      obtain ⟨hg, hk⟩ := h t ht hit r t' hx
      exact ⟨hg, fun hi' => ih r t' hi' (hk hi')⟩
  exact aux p s hi (h s hi hPs)

/-- Rewriting the error: what holds of the new error held of the old
one. -/
theorem Triple.mapError {E' : δ → σ → Prop} {p : Prog R ε α} {g : ε → δ}
    (h : L.Triple P p Q (fun e => E' (g e))) : L.Triple P (p.mapError g) Q E' := by
  intro s hi hPs
  have aux : ∀ (p : Prog R ε α) (s : σ), L.Safe Q (fun e => E' (g e)) p s →
      L.Safe Q E' (p.mapError g) s := by
    intro p
    induction p with
    | ret a => exact fun s h => h
    | fail e => exact fun s h => h
    | call c k ih =>
      intro s h t ht hit r t' hx
      obtain ⟨hg, hk⟩ := h t ht hit r t' hx
      exact ⟨hg, fun hi' => ih r t' (hk hi')⟩
  exact aux p s (h s hi hPs)

/-- **A loop over a list keeps its invariant**: `I l` is what holds when
`l` is what remains. -/
theorem Triple.each {I : List β → σ → Prop} {f : β → Prog R ε Unit}
    (hst : ∀ l, L.Stable (I l))
    (hstep : ∀ b l, L.Triple (I (b :: l)) (f b) (fun _ => I l) E) (l : List β) :
    L.Triple (I l) (Prog.each l f) (fun _ => I []) E := by
  induction l with
  | nil => exact Triple.ret (hst []) (fun _ _ h => h)
  | cons b l ih => exact Triple.bind (hstep b l) (fun _ => ih)

/-! ## The same program in a larger setting

A program proved over one state runs unchanged as part of a larger one:
the smaller state is a view of the larger, its commands act on the view
as before, and the larger rely is no more than the smaller one on the
view. A condition `F` on the larger state – the permission to run the
program there – is carried along and helps to establish the larger
guarantee. -/

/-- **A safe program is safe in a larger setting.** -/
theorem Safe.hoist {D : Type} {S : D → Type} {τ : Type} {L₂ : Logic S τ}
    {view : τ → σ} {f : C → D} {g : (c : C) → S (f c) → R c} {F : τ → Prop}
    (hinv : ∀ s, L₂.inv s → L.inv (view s))
    (hrely : ∀ s s', L₂.inv s → L₂.rely s s' → L₂.inv s' →
      L.rely (view s) (view s'))
    (hF : L₂.Stable F)
    (hcmd : ∀ c s r s', L₂.inv s → F s → L₂.exec (f c) s r s' →
      L.exec c (view s) (g c r) (view s') ∧
        (L.guar (view s) (view s') → L₂.guar s s' ∧ F s'))
    {p : Prog R ε α} {s : τ} (hi : L₂.inv s) (hFs : F s)
    (h : L.Safe Q E p (view s)) :
    L₂.Safe (fun a s => Q a (view s) ∧ F s) (fun e s => E e (view s) ∧ F s)
      (p.hoist f g) s := by
  induction p generalizing s with
  | ret a =>
    exact fun t ht hit =>
      ⟨h (view t) (hrely s t hi ht hit) (hinv t hit), hF s t hi hFs ht hit⟩
  | fail e =>
    exact fun t ht hit =>
      ⟨h (view t) (hrely s t hi ht hit) (hinv t hit), hF s t hi hFs ht hit⟩
  | call c k ih =>
    intro t ht hit r t' hx
    obtain ⟨hx', hg⟩ := hcmd c t r t' hit (hF s t hi hFs ht hit) hx
    obtain ⟨hgt, hk⟩ :=
      h (view t) (hrely s t hi ht hit) (hinv t hit) (g c r) (view t') hx'
    obtain ⟨hgt', hFt'⟩ := hg hgt
    exact ⟨hgt', fun hi' => ih (g c r) hi' hFt' (hk (hinv t' hi'))⟩

/-- **A triple in a larger setting**, from every state where the
permission holds and whose view satisfies the precondition. -/
theorem Triple.hoist {D : Type} {S : D → Type} {τ : Type} (L₂ : Logic S τ)
    (view : τ → σ) (f : C → D) (g : (c : C) → S (f c) → R c) (F : τ → Prop)
    (hinv : ∀ s, L₂.inv s → L.inv (view s))
    (hrely : ∀ s s', L₂.inv s → L₂.rely s s' → L₂.inv s' →
      L.rely (view s) (view s'))
    (hF : L₂.Stable F)
    (hcmd : ∀ c s r s', L₂.inv s → F s → L₂.exec (f c) s r s' →
      L.exec c (view s) (g c r) (view s') ∧
        (L.guar (view s) (view s') → L₂.guar s s' ∧ F s'))
    {p : Prog R ε α} (h : L.Triple P p Q E) :
    L₂.Triple (fun s => P (view s) ∧ F s) (p.hoist f g)
      (fun a s => Q a (view s) ∧ F s) (fun e s => E e (view s) ∧ F s) :=
  fun s hi hP => Safe.hoist hinv hrely hF hcmd hi hP.2 (h (view s) (hinv s hi) hP.1)

end Logic
