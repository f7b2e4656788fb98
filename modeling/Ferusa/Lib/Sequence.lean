import Mathlib.Logic.Relation
import Ferusa.Lib.RelyGuarantee

/-!
# Programs run one after the other

One process: operations are run one at a time, each a program that puts
its commands to the state, and the process may be stopped at any moment,
in the middle of an operation or between two. `Script` says which
operations may start when, what their programs are and what is kept of
how they end; `Script.Certificate` is a proof that an invariant holds of
every state of every run, the programs being proved by `Logic.Safe` with
no interference.
-/

/-- **What runs**: the meaning of the commands, the program of each
operation, when it may start, what is noted when it ends, and what a
stop does to the state. -/
structure Script {C : Type} (R : C → Type) (Op σ ε α : Type) where
  exec : (c : C) → σ → R c → σ → Prop
  program : Op → Prog R ε α
  start : Op → σ → σ → Prop
  finish : Op → Except ε α → σ → σ
  stop : σ → σ → Prop

namespace Script

variable {C : Type} {R : C → Type} {Op σ ε α : Type}

/-- The state, and the operation under way with what is left of it. -/
structure Config (R : C → Type) (Op σ ε α : Type) where
  state : σ
  running : Option (Op × Prog R ε α)

variable (script : Script R Op σ ε α)

/-- **One step of a run.** -/
inductive Step : Config R Op σ ε α → Config R Op σ ε α → Prop
  | start {op s s'} (h : script.start op s s') :
      Step ⟨s, none⟩ ⟨s', some (op, script.program op)⟩
  | call {op c k s r s'} (h : script.exec c s r s') :
      Step ⟨s, some (op, .call c k)⟩ ⟨s', some (op, k r)⟩
  | ret {op a s} : Step ⟨s, some (op, .ret a)⟩ ⟨script.finish op (.ok a) s, none⟩
  | fail {op e s} : Step ⟨s, some (op, .fail e)⟩ ⟨script.finish op (.error e) s, none⟩
  | stop {s s' running} (h : script.stop s s') : Step ⟨s, running⟩ ⟨s', none⟩

/-- Any number of steps. -/
def Steps : Config R Op σ ε α → Config R Op σ ε α → Prop :=
  Relation.ReflTransGen script.Step

/-- **A proof that an invariant holds throughout**, and something more
whenever nothing runs. -/
structure Certificate (Op σ ε α : Type) where
  inv : σ → Prop
  idle : σ → Prop
  guar : Op → σ → σ → Prop
  post : Op → α → σ → Prop
  error : Op → ε → σ → Prop

variable {script}

/-- The setting of the program of an operation: nobody interferes. -/
def Certificate.logic (cert : Certificate Op σ ε α)
    (script : Script R Op σ ε α) (op : Op) : Logic R σ where
  exec := script.exec
  inv := cert.inv
  rely s s' := s' = s
  guar := cert.guar op
  rely_refl _ := rfl
  rely_trans h h' := h'.trans h

/-- **What makes a certificate one**: each program is safe where it
starts, and the invariant survives its commands, its end and a stop. -/
structure Certificate.Valid (cert : Certificate Op σ ε α)
    (script : Script R Op σ ε α) : Prop where
  start : ∀ {op s s'}, cert.inv s → cert.idle s → script.start op s s' →
    cert.inv s' ∧ (cert.logic script op).Safe (cert.post op) (cert.error op)
      (script.program op) s'
  guar : ∀ {op s s'}, cert.inv s → cert.guar op s s' → cert.inv s'
  ret : ∀ {op a s}, cert.inv s → cert.post op a s →
    cert.inv (script.finish op (.ok a) s) ∧ cert.idle (script.finish op (.ok a) s)
  fail : ∀ {op e s}, cert.inv s → cert.error op e s →
    cert.inv (script.finish op (.error e) s) ∧ cert.idle (script.finish op (.error e) s)
  stop : ∀ {s s'}, cert.inv s → script.stop s s' → cert.inv s' ∧ cert.idle s'

/-- What a certificate establishes of a configuration. -/
structure Certificate.Holds (cert : Certificate Op σ ε α)
    (script : Script R Op σ ε α) (c : Config R Op σ ε α) : Prop where
  inv : cert.inv c.state
  idle : c.running = none → cert.idle c.state
  safe : ∀ op p, c.running = some (op, p) →
    (cert.logic script op).Safe (cert.post op) (cert.error op) p c.state

theorem Certificate.Valid.step {cert : Certificate Op σ ε α}
    (hv : cert.Valid script) {c c' : Config R Op σ ε α} (h : cert.Holds script c)
    (hs : script.Step c c') : cert.Holds script c' := by
  obtain ⟨hi, hidle, hr⟩ := h
  cases hs with
  | start hstart =>
    obtain ⟨hi', hsafe⟩ := hv.start hi (hidle rfl) hstart
    exact ⟨hi', nofun, fun op p hp => by cases hp; exact hsafe⟩
  | call hx =>
    obtain ⟨hg, hk⟩ := hr _ _ rfl _ rfl hi _ _ hx
    have hi' := hv.guar hi hg
    exact ⟨hi', nofun, fun op p hp => by cases hp; exact hk hi'⟩
  | ret =>
    obtain ⟨hi', hidle'⟩ := hv.ret hi (hr _ _ rfl _ rfl hi)
    exact ⟨hi', fun _ => hidle', nofun⟩
  | fail =>
    obtain ⟨hi', hidle'⟩ := hv.fail hi (hr _ _ rfl _ rfl hi)
    exact ⟨hi', fun _ => hidle', nofun⟩
  | stop hstop =>
    obtain ⟨hi', hidle'⟩ := hv.stop hi hstop
    exact ⟨hi', fun _ => hidle', nofun⟩

/-- **The invariant holds of every configuration a run reaches**, and
what is left of the operation under way is safe there. -/
theorem Certificate.Valid.reachable
    {cert : Certificate Op σ ε α}
    (hv : cert.Valid script) {c c' : Config R Op σ ε α} (h : cert.Holds script c)
    (hs : script.Steps c c') : cert.Holds script c' := by
  induction hs with
  | refl => exact h
  | tail _ hstep ih => exact hv.step ih hstep

/-- A configuration with nothing running satisfies a certificate if its
state does. -/
theorem Certificate.holds_idle {cert : Certificate Op σ ε α}
    {s : σ} (hi : cert.inv s) (hidle : cert.idle s) : cert.Holds script ⟨s, none⟩ :=
  ⟨hi, fun _ => hidle, nofun⟩

/-- **What a step does to the state**, for a configuration satisfying a
certificate: an operation starts, a command keeps the guarantee, an end
is noted, or the process stops. -/
theorem Certificate.Holds.cases {cert : Certificate Op σ ε α}
    {c c' : Config R Op σ ε α} (h : cert.Holds script c) (hs : script.Step c c') :
    (∃ op, script.start op c.state c'.state) ∨
      (∃ op, cert.guar op c.state c'.state) ∨
      (∃ op r, c'.state = script.finish op r c.state) ∨ script.stop c.state c'.state := by
  cases hs with
  | start hstart => exact .inl ⟨_, hstart⟩
  | call hx => exact .inr (.inl ⟨_, (h.safe _ _ rfl _ rfl h.inv _ _ hx).1⟩)
  | ret => exact .inr (.inr (.inl ⟨_, _, rfl⟩))
  | fail => exact .inr (.inr (.inl ⟨_, _, rfl⟩))
  | stop hstop => exact .inr (.inr (.inr hstop))

/-! ## What every command keeps -/

/-- **An invariant of the commands** that the programs put is one of the
runs. -/
theorem Steps.always {P : C → Prop} {I : σ → Prop} (hp : ∀ op, (script.program op).Only P)
    (hstart : ∀ {op s s'}, I s → script.start op s s' → I s')
    (hexec : ∀ {c s r s'}, P c → I s → script.exec c s r s' → I s')
    (hfinish : ∀ {op x s}, I s → I (script.finish op x s))
    (hstop : ∀ {s s'}, I s → script.stop s s' → I s') {s : σ} (hs : I s) {c : Config R Op σ ε α}
    (h : script.Steps ⟨s, none⟩ c) : I c.state := by
  have hall : I c.state ∧ ∀ op p, c.running = some (op, p) → p.Only P := by
    induction h with
    | refl => exact ⟨hs, nofun⟩
    | tail _ hstep ih =>
      obtain ⟨hI, hrunning⟩ := ih
      cases hstep with
      | @start op _ _ hst =>
        refine ⟨hstart hI hst, fun op' p heq => ?_⟩
        obtain ⟨-, rfl⟩ := Prod.mk.inj (Option.some.inj heq)
        exact hp op
      | @call op _ _ _ r _ hx =>
        obtain ⟨hc, hk⟩ := hrunning _ _ rfl
        refine ⟨hexec hc hI hx, fun op' p heq => ?_⟩
        obtain ⟨-, rfl⟩ := Prod.mk.inj (Option.some.inj heq)
        exact hk r
      | ret => exact ⟨hfinish hI, nofun⟩
      | fail => exact ⟨hfinish hI, nofun⟩
      | stop hst => exact ⟨hstop hI hst, nofun⟩
  exact hall.1

/-! ## Given runs -/

/-- **An operation run with the listed choices** is a run of the
script. -/
theorem Steps.replay {κ : Type} {h : (c : C) → κ → σ → Option (R c × σ)}
    (hx : ∀ c o s r s', h c o s = some (r, s') → script.exec c s r s') {op : Op}
    {p : Prog R ε α} {l : List κ} {s s' : σ} {r : Except ε α}
    (hp : p.replay h l s = some (r, s')) :
    script.Steps ⟨s, some (op, p)⟩ ⟨script.finish op r s', none⟩ := by
  induction p generalizing l s with
  | ret a =>
    obtain ⟨rfl, rfl⟩ : Except.ok a = r ∧ s = s' := by simpa [Prog.replay] using hp
    exact .single .ret
  | fail e =>
    obtain ⟨rfl, rfl⟩ : Except.error e = r ∧ s = s' := by simpa [Prog.replay] using hp
    exact .single .fail
  | call c k ih =>
    cases l with
    | nil => simp [Prog.replay] at hp
    | cons o l =>
      rw [Prog.replay] at hp
      split at hp
      · next r₁ s₁ hc => exact .head (.call (hx c o s r₁ s₁ hc)) (ih r₁ hp)
      · simp at hp

/-- An operation run as far as choices are listed. -/
theorem Steps.advance {κ : Type} {h : (c : C) → κ → σ → Option (R c × σ)}
    (hx : ∀ c o s r s', h c o s = some (r, s') → script.exec c s r s') {op : Op}
    {p p' : Prog R ε α} {l : List κ} {s s' : σ} (hp : p.advance h l s = some (p', s')) :
    script.Steps ⟨s, some (op, p)⟩ ⟨s', some (op, p')⟩ := by
  induction l generalizing p s with
  | nil =>
    obtain ⟨rfl, rfl⟩ := Prod.mk.inj (Option.some.inj hp)
    exact .refl
  | cons o l ih =>
    cases p with
    | call c k =>
      rw [Prog.advance] at hp
      split at hp
      · next r₁ s₁ hc => exact .head (.call (hx c o s r₁ s₁ hc)) (ih hp)
      · cases hp
    | ret a => cases hp
    | fail e => cases hp

/-- An operation run with the listed choices up to where it returns. -/
theorem Steps.replay_ok {κ : Type} {h : (c : C) → κ → σ → Option (R c × σ)}
    (hx : ∀ c o s r s', h c o s = some (r, s') → script.exec c s r s') {op : Op}
    {p : Prog R ε α} {l : List κ} {s s' : σ} {a : α}
    (hp : p.replay h l s = some (.ok a, s')) :
    script.Steps ⟨s, some (op, p)⟩ ⟨s', some (op, .ret a)⟩ := by
  induction p generalizing l s with
  | ret b =>
    obtain ⟨rfl, rfl⟩ : b = a ∧ s = s' := by simpa [Prog.replay] using hp
    exact .refl
  | fail e => simp [Prog.replay] at hp
  | call c k ih =>
    cases l with
    | nil => simp [Prog.replay] at hp
    | cons o l =>
      rw [Prog.replay] at hp
      split at hp
      · next r₁ s₁ hc => exact .head (.call (hx c o s r₁ s₁ hc)) (ih r₁ hp)
      · simp at hp

end Script
