import Mathlib.Logic.Basic
import Mathlib.Data.List.Basic

/-!
# Programs as trees of commands

A program that talks to the outside – a store, a file system, a peer, a
clock – is a tree: a node is a **command** put to the outside, its
children are what the program does next for each reply it may get, and
a leaf is the value the program returns or the error it fails with.
Nothing is assumed here about what a command does. One tree is
therefore read in several ways: run against one deterministic world
(`Prog.run`), or, in the modules that follow, one command at a time
among other programs, with commands that fail and runs that stop
between any two of them.

`C` is the type of commands, `R c` the type of replies to the command
`c`, `ε` the type of errors.
-/

/-- **A program**: it returns, it fails, or it puts a command and goes
on with the reply. -/
inductive Prog {C : Type} (R : C → Type) (ε α : Type) : Type where
  | ret (a : α)
  | fail (e : ε)
  | call (c : C) (k : R c → Prog R ε α)

namespace Prog

variable {C D : Type} {R : C → Type} {S : D → Type} {ε δ α β σ : Type}

/-- Run the program, then the one its value selects; an error ends
both. -/
def bind : Prog R ε α → (α → Prog R ε β) → Prog R ε β
  | ret a, f => f a
  | fail e, _ => fail e
  | call c k, f => call c (fun r => (k r).bind f)

instance : Monad (Prog R ε) where
  pure := ret
  bind := bind

@[simp] theorem ret_bind (a : α) (f : α → Prog R ε β) :
    (ret a >>= f) = f a := rfl

@[simp] theorem pure_bind' (a : α) (f : α → Prog R ε β) :
    ((pure a : Prog R ε α) >>= f) = f a := rfl

@[simp] theorem fail_bind (e : ε) (f : α → Prog R ε β) :
    (fail e >>= f) = fail e := rfl

@[simp] theorem call_bind (c : C) (k : R c → Prog R ε α) (f : α → Prog R ε β) :
    (call c k >>= f) = call c (fun r => k r >>= f) := rfl

/-- Sequencing associates. -/
theorem bind_assoc {γ : Type} (p : Prog R ε α) (f : α → Prog R ε β) (g : β → Prog R ε γ) :
    p >>= f >>= g = p >>= fun a => f a >>= g := by
  induction p with
  | ret a => rfl
  | fail e => rfl
  | call c k ih =>
    show call c _ = call c _
    exact congrArg _ (funext ih)

/-- Put one command and return its reply. -/
def perform (c : C) : Prog R ε (R c) :=
  call c ret

@[simp] theorem perform_bind (c : C) (f : R c → Prog R ε β) :
    ((perform c : Prog R ε (R c)) >>= f) = call c f := rfl

/-- Return the value of an `Except`, or fail with its error. -/
def ofExcept : Except ε α → Prog R ε α
  | .ok a => ret a
  | .error e => fail e

@[simp] theorem ofExcept_ok (a : α) :
    (ofExcept (.ok a) : Prog R ε α) = ret a := rfl

@[simp] theorem ofExcept_error (e : ε) :
    (ofExcept (.error e) : Prog R ε α) = fail e := rfl

/-- **Catch the outcome**: the program whose value is the outcome of
`p`, and which never fails. -/
def attempt : Prog R ε α → Prog R δ (Except ε α)
  | ret a => ret (.ok a)
  | fail e => ret (.error e)
  | call c k => call c (fun r => (k r).attempt)

/-- Rewrite the error of a program. -/
def mapError (g : ε → δ) : Prog R ε α → Prog R δ α
  | ret a => ret a
  | fail e => fail (g e)
  | call c k => call c (fun r => (k r).mapError g)

/-- Run a program for each element of a list, in order. -/
def each (l : List β) (f : β → Prog R ε Unit) : Prog R ε Unit :=
  match l with
  | [] => ret ()
  | b :: l => f b >>= fun _ => each l f

/-- Run a program over the elements of a list, threading a value. -/
def fold (l : List β) (a : α) (f : α → β → Prog R ε α) : Prog R ε α :=
  match l with
  | [] => ret a
  | b :: l => f a b >>= fun a => fold l a f

/-- **The same program over a larger set of commands**, each command of
`C` being sent to a command of `D` with the same replies. -/
def hoist (f : C → D) (g : (c : C) → S (f c) → R c) :
    Prog R ε α → Prog S ε α
  | ret a => ret a
  | fail e => fail e
  | call c k => call (f c) (fun r => (k (g c r)).hoist f g)

section Hoist
variable (f : C → D) (g : (c : C) → S (f c) → R c)

theorem hoist_call (c : C) (k : R c → Prog R ε α) :
    (call c k).hoist f g = call (f c) (fun r => (k (g c r)).hoist f g) := rfl

theorem hoist_bind (p : Prog R ε α) (k : α → Prog R ε β) :
    (p >>= k).hoist f g = p.hoist f g >>= fun a => (k a).hoist f g := by
  induction p with
  | ret a => rfl
  | fail e => rfl
  | call c k' ih => exact congrArg (call (f c)) (funext fun r => ih (g c r))

theorem hoist_attempt (p : Prog R ε α) :
    (p.attempt : Prog R δ _).hoist f g = (p.hoist f g).attempt := by
  induction p with
  | ret a => rfl
  | fail e => rfl
  | call c k' ih => exact congrArg (call (f c)) (funext fun r => ih (g c r))

theorem hoist_mapError (h : ε → δ) (p : Prog R ε α) :
    (p.mapError h).hoist f g = (p.hoist f g).mapError h := by
  induction p with
  | ret a => rfl
  | fail e => rfl
  | call c k' ih => exact congrArg (call (f c)) (funext fun r => ih (g c r))

theorem hoist_ofExcept (x : Except ε α) :
    (ofExcept x : Prog R ε α).hoist f g = ofExcept x := by
  cases x <;> rfl

end Hoist

/-- Sent to the same commands, a program stays what it is. -/
theorem hoist_id (p : Prog R ε α) :
    p.hoist (fun c => c) (fun _ r => r) = p := by
  induction p with
  | ret a => rfl
  | fail e => rfl
  | call c k ih => exact congrArg (call c) (funext ih)

/-! ## The commands of a program -/

/-- **Every command the program may put** satisfies `P`, whatever the
replies. -/
def Only (P : C → Prop) : Prog R ε α → Prop
  | ret _ => True
  | fail _ => True
  | call c k => P c ∧ ∀ r, (k r).Only P

section Only
variable {P : C → Prop}

theorem Only.ret {a : α} : (Prog.ret a : Prog R ε α).Only P := trivial

theorem Only.pure {a : α} : (Pure.pure a : Prog R ε α).Only P := trivial

theorem Only.fail {e : ε} : (Prog.fail e : Prog R ε α).Only P := trivial

theorem Only.perform {c : C} (h : P c) : (Prog.perform c : Prog R ε (R c)).Only P :=
  ⟨h, fun _ => trivial⟩

theorem Only.ofExcept {x : Except ε α} : (Prog.ofExcept x : Prog R ε α).Only P := by
  cases x <;> trivial

/-- **A sequence puts the commands of its parts.** -/
theorem Only.bind {p : Prog R ε β} {f : β → Prog R ε α} (hp : p.Only P)
    (hf : ∀ b, (f b).Only P) : (p >>= f).Only P := by
  induction p with
  | ret b => exact hf b
  | fail e => trivial
  | call c k ih => exact ⟨hp.1, fun r => ih r (hp.2 r)⟩

theorem Only.attempt {p : Prog R ε α} (hp : p.Only P) :
    (p.attempt : Prog R δ (Except ε α)).Only P := by
  induction p with
  | ret a => trivial
  | fail e => trivial
  | call c k ih => exact ⟨hp.1, fun r => ih r (hp.2 r)⟩

theorem Only.mapError {g : ε → δ} {p : Prog R ε α} (hp : p.Only P) :
    (p.mapError g).Only P := by
  induction p with
  | ret a => trivial
  | fail e => trivial
  | call c k ih => exact ⟨hp.1, fun r => ih r (hp.2 r)⟩

theorem Only.ite {p : Prop} [Decidable p] {q q' : Prog R ε α} (h : q.Only P) (h' : q'.Only P) :
    (if p then q else q').Only P := by
  split
  · exact h
  · exact h'

/-- A program over other commands puts what they are sent to. -/
theorem Only.hoist {f : C → D} {g : (c : C) → S (f c) → R c} {Q : D → Prop} {p : Prog R ε α}
    (hp : p.Only fun c => Q (f c)) : (p.hoist f g).Only Q := by
  induction p with
  | ret a => trivial
  | fail e => trivial
  | call c k ih => exact ⟨hp.1, fun r => ih _ (hp.2 _)⟩

theorem Only.mono {Q : C → Prop} {p : Prog R ε α} (hp : p.Only P) (h : ∀ c, P c → Q c) :
    p.Only Q := by
  induction p with
  | ret a => trivial
  | fail e => trivial
  | call c k ih => exact ⟨h c hp.1, fun r => ih r (hp.2 r)⟩

theorem Only.of_forall {p : Prog R ε α} (h : ∀ c, P c) : p.Only P := by
  induction p with
  | ret a => trivial
  | fail e => trivial
  | call c k ih => exact ⟨h c, ih⟩

/-- A loop puts the commands of its rounds. -/
theorem Only.each {l : List β} {f : β → Prog R ε Unit} (h : ∀ b, (f b).Only P) :
    (Prog.each l f).Only P := by
  induction l with
  | nil => trivial
  | cons b l ih => exact Only.bind (h b) fun _ => ih

theorem Only.fold {l : List β} {a : α} {f : α → β → Prog R ε α} (h : ∀ a b, (f a b).Only P) :
    (Prog.fold l a f).Only P := by
  induction l generalizing a with
  | nil => trivial
  | cons b l ih => exact Only.bind (h a b) fun _ => ih

end Only

/-! ## Running against a deterministic world

When the world answers each command with one reply, a program has one
outcome. The equations below evaluate it. -/

/-- **Run a program** in a world that answers `c` from state `s` with
the first component of `h c s` and moves to the second. -/
def run (h : (c : C) → σ → R c × σ) : Prog R ε α → σ → Except ε α × σ
  | ret a, s => (.ok a, s)
  | fail e, s => (.error e, s)
  | call c k, s => (k (h c s).1).run h (h c s).2

section Run
variable (h : (c : C) → σ → R c × σ)

@[simp] theorem run_ret (a : α) (s : σ) :
    (ret a : Prog R ε α).run h s = (.ok a, s) := rfl

@[simp] theorem run_pure (a : α) (s : σ) :
    (pure a : Prog R ε α).run h s = (.ok a, s) := rfl

@[simp] theorem run_fail (e : ε) (s : σ) :
    (fail e : Prog R ε α).run h s = (.error e, s) := rfl

@[simp] theorem run_call (c : C) (k : R c → Prog R ε α) (s : σ) :
    (call c k).run h s = (k (h c s).1).run h (h c s).2 := rfl

@[simp] theorem run_perform (c : C) (s : σ) :
    (perform c : Prog R ε (R c)).run h s = (.ok (h c s).1, (h c s).2) := rfl

/-- **A sequence runs its parts one after the other.** -/
theorem run_bind (p : Prog R ε α) (f : α → Prog R ε β) (s : σ) :
    (p >>= f).run h s = match p.run h s with
      | (.ok a, s') => (f a).run h s'
      | (.error e, s') => (.error e, s') := by
  induction p generalizing s with
  | ret a => rfl
  | fail e => rfl
  | call c k ih => exact ih _ _

/-- A sequence whose first part returns goes on from where it stops. -/
theorem run_bind_ok {p : Prog R ε α} {f : α → Prog R ε β} {s s' : σ} {a : α}
    (hp : p.run h s = (.ok a, s')) : (p >>= f).run h s = (f a).run h s' := by
  rw [run_bind, hp]

@[simp] theorem run_attempt (p : Prog R ε α) (s : σ) :
    (p.attempt : Prog R δ _).run h s = (.ok (p.run h s).1, (p.run h s).2) := by
  induction p generalizing s with
  | ret a => rfl
  | fail e => rfl
  | call c k ih => exact ih _ _

/-- Rewriting the error rewrites that of the run. -/
theorem run_mapError (g : ε → δ) (p : Prog R ε α) (s : σ) :
    (p.mapError g).run h s = ((p.run h s).1.mapError g, (p.run h s).2) := by
  induction p generalizing s with
  | ret a => rfl
  | fail e => rfl
  | call c k ih => exact ih _ _

/-- Rewriting the error does not change a run that returns. -/
theorem run_mapError_ok {g : ε → δ} {p : Prog R ε α} {s s' : σ} {a : α}
    (hp : p.run h s = (.ok a, s')) : (p.mapError g).run h s = (.ok a, s') := by
  induction p generalizing s with
  | ret b => simpa [mapError] using hp
  | fail e => simp at hp
  | call c k ih => exact ih _ hp

end Run

/-! ## Running with given answers

When what a command does depends on a choice, a list of choices settles
one run. -/

/-- **Run a program with the listed choices**, one for each command, if
each command can be answered so. -/
def replay {κ : Type} (h : (c : C) → κ → σ → Option (R c × σ)) :
    List κ → Prog R ε α → σ → Option (Except ε α × σ)
  | _, ret a, s => some (.ok a, s)
  | _, fail e, s => some (.error e, s)
  | [], call _ _, _ => none
  | o :: l, call c k, s =>
    match h c o s with
    | some (r, s') => replay h l (k r) s'
    | none => none

/-- **Run as many commands of a program** as choices are listed; what is left of it
is returned, too. -/
def advance {κ : Type} (h : (c : C) → κ → σ → Option (R c × σ)) :
    List κ → Prog R ε α → σ → Option (Prog R ε α × σ)
  | [], p, s => some (p, s)
  | o :: l, call c k, s =>
    match h c o s with
    | some (r, s') => advance h l (k r) s'
    | none => none
  | _ :: _, _, _ => none

/-! ## Outcomes

When a command may be answered in several ways, a program has several
outcomes. -/

/-- **How a program may end**: what it returns or fails with, and the
state it leaves. -/
inductive Outcome (exec : (c : C) → σ → R c → σ → Prop) :
    Prog R ε α → σ → Except ε α → σ → Prop
  | ret {a s} : Outcome exec (ret a) s (.ok a) s
  | fail {e s} : Outcome exec (fail e) s (.error e) s
  | call {c k s r s' x s''} (hx : exec c s r s') (hk : Outcome exec (k r) s' x s'') :
      Outcome exec (call c k) s x s''

section Outcome

variable {exec : (c : C) → σ → R c → σ → Prop} {s s' : σ} {x : Except ε α}

theorem Outcome.of_ret {a : α} (h : Outcome exec (Prog.ret a : Prog R ε α) s x s') :
    x = .ok a ∧ s' = s := by
  cases h
  exact ⟨rfl, rfl⟩

theorem Outcome.of_fail {e : ε} (h : Outcome exec (Prog.fail e : Prog R ε α) s x s') :
    x = .error e ∧ s' = s := by
  cases h
  exact ⟨rfl, rfl⟩

theorem Outcome.of_call {c : C} {k : R c → Prog R ε α} (h : Outcome exec (Prog.call c k) s x s') :
    ∃ r t, exec c s r t ∧ Outcome exec (k r) t x s' := by
  cases h with
  | call hx hk => exact ⟨_, _, hx, hk⟩

theorem Outcome.ret_iff {a : α} :
    Outcome exec (Prog.ret a : Prog R ε α) s x s' ↔ x = .ok a ∧ s' = s := by
  constructor
  · exact Outcome.of_ret
  · intro h
    rw [h.1, h.2]
    exact .ret

theorem Outcome.fail_iff {e : ε} :
    Outcome exec (Prog.fail e : Prog R ε α) s x s' ↔ x = .error e ∧ s' = s := by
  constructor
  · exact Outcome.of_fail
  · intro h
    rw [h.1, h.2]
    exact .fail

/-- **A command that can be answered in one way only.** -/
theorem Outcome.call_iff {c : C} {k : R c → Prog R ε α} {r : R c} {t : σ}
    (hx : ∀ r' t', exec c s r' t' ↔ r' = r ∧ t' = t) :
    Outcome exec (Prog.call c k) s x s' ↔ Outcome exec (k r) t x s' := by
  constructor
  · intro h
    obtain ⟨r', t', hc, hk⟩ := h.of_call
    obtain ⟨rfl, rfl⟩ := (hx r' t').mp hc
    exact hk
  · exact .call ((hx r t).mpr ⟨rfl, rfl⟩)

/-- **A sequence ends where its first part fails, or where its second
part ends.** -/
theorem Outcome.of_bind {p : Prog R ε β} {f : β → Prog R ε α} (h : Outcome exec (p >>= f) s x s') :
    (∃ b t, Outcome exec p s (.ok b) t ∧ Outcome exec (f b) t x s') ∨
      ∃ e, Outcome exec p s (.error e) s' ∧ x = .error e := by
  induction p generalizing s with
  | ret b => exact .inl ⟨b, s, .ret, h⟩
  | fail e =>
    obtain ⟨rfl, rfl⟩ := h.of_fail
    exact .inr ⟨e, .fail, rfl⟩
  | call c k ih =>
    obtain ⟨r, t, hx, hk⟩ := h.of_call
    obtain ⟨b, t', hb, hf⟩ | ⟨e, he, hx'⟩ := ih r hk
    · exact .inl ⟨b, t', .call hx hb, hf⟩
    · exact .inr ⟨e, .call hx he, hx'⟩

/-- **A sequence ends where its second part does**, after the first. -/
theorem Outcome.bind {p : Prog R ε β} {f : β → Prog R ε α} {b : β} {t : σ}
    (hp : Outcome exec p s (.ok b) t) (hf : Outcome exec (f b) t x s') :
    Outcome exec (p >>= f) s x s' := by
  induction p generalizing s with
  | ret a =>
    obtain ⟨hb, rfl⟩ := hp.of_ret
    obtain rfl := Except.ok.inj hb
    exact hf
  | fail e => cases hp.of_fail.1
  | call c k ih =>
    obtain ⟨r, t', hx, hk⟩ := hp.of_call
    exact .call hx (ih r hk)

theorem Outcome.of_attempt {p : Prog R δ β} {x : Except ε (Except δ β)}
    (h : Outcome exec (p.attempt : Prog R ε (Except δ β)) s x s') :
    ∃ y, x = .ok y ∧ Outcome exec p s y s' := by
  induction p generalizing s with
  | ret b =>
    obtain ⟨rfl, rfl⟩ := h.of_ret
    exact ⟨_, rfl, .ret⟩
  | fail e =>
    obtain ⟨rfl, rfl⟩ := h.of_ret
    exact ⟨_, rfl, .fail⟩
  | call c k ih =>
    obtain ⟨r, t, hx, hk⟩ := h.of_call
    obtain ⟨y, hy, ho⟩ := ih r hk
    exact ⟨y, hy, .call hx ho⟩

/-- A caught outcome is gone on with. -/
theorem Outcome.attempt_bind_iff {p : Prog R δ β} {f : Except δ β → Prog R ε α} :
    Outcome exec (p.attempt >>= f) s x s' ↔
      ∃ y t, Outcome exec p s y t ∧ Outcome exec (f y) t x s' := by
  induction p generalizing s with
  | ret b =>
    constructor
    · intro h
      exact ⟨_, _, .ret, h⟩
    · rintro ⟨y, t, hp, hf⟩
      obtain ⟨rfl, rfl⟩ := hp.of_ret
      exact hf
  | fail e =>
    constructor
    · intro h
      exact ⟨_, _, .fail, h⟩
    · rintro ⟨y, t, hp, hf⟩
      obtain ⟨rfl, rfl⟩ := hp.of_fail
      exact hf
  | call c k ih =>
    constructor
    · intro h
      obtain ⟨r, t, hx, hk⟩ := h.of_call
      obtain ⟨y, t', hp, hf⟩ := (ih r).mp hk
      exact ⟨y, t', .call hx hp, hf⟩
    · rintro ⟨y, t, hp, hf⟩
      obtain ⟨r, t', hx, hk⟩ := hp.of_call
      exact .call hx ((ih r).mpr ⟨y, t, hk, hf⟩)

theorem Outcome.of_mapError {g : δ → ε} {p : Prog R δ α} (h : Outcome exec (p.mapError g) s x s') :
    ∃ y, x = y.mapError g ∧ Outcome exec p s y s' := by
  induction p generalizing s with
  | ret b =>
    obtain ⟨rfl, rfl⟩ := h.of_ret
    exact ⟨_, rfl, .ret⟩
  | fail e =>
    obtain ⟨rfl, rfl⟩ := h.of_fail
    exact ⟨_, rfl, .fail⟩
  | call c k ih =>
    obtain ⟨r, t, hx, hk⟩ := h.of_call
    obtain ⟨y, hy, ho⟩ := ih r hk
    exact ⟨y, hy, .call hx ho⟩

/-- **The outcome with given answers** is one. -/
theorem Outcome.replay {κ : Type} {h : (c : C) → κ → σ → Option (R c × σ)}
    (hx : ∀ c o s r s', h c o s = some (r, s') → exec c s r s') {p : Prog R ε α} {l : List κ}
    (hp : p.replay h l s = some (x, s')) : Outcome exec p s x s' := by
  induction p generalizing l s with
  | ret a =>
    obtain ⟨rfl, rfl⟩ : Except.ok a = x ∧ s = s' := by simpa [Prog.replay] using hp
    exact .ret
  | fail e =>
    obtain ⟨rfl, rfl⟩ : Except.error e = x ∧ s = s' := by simpa [Prog.replay] using hp
    exact .fail
  | call c k ih =>
    cases l with
    | nil => simp [Prog.replay] at hp
    | cons o l =>
      rw [Prog.replay] at hp
      split at hp
      · next r₁ s₁ hc => exact .call (hx c o s r₁ s₁ hc) (ih r₁ hp)
      · simp at hp

end Outcome

end Prog
