import Mathlib.Logic.Relation
import Mathlib.Logic.Function.Basic
import Ferusa.Lib.RelyGuarantee

/-!
# Pools of threads over a shared state

Any number of threads over one state, each step being taken by one of
them, or by the environment, or being a crash that kills some of the
threads at once. Threads are numbered, and a number is never used
twice.

`Pool.Certificate` is a rely–guarantee proof of such a system: an
invariant of the state, a condition under which a thread may be left to
run, and what each thread may do to the state. From a certificate the
invariant holds of every reachable pool, and every thread in it
satisfies its condition (`Pool.Certificate.reachable`). For threads that
are programs the condition is `Logic.Safe`, and
`Logic.Safe.step` is what a step of the program gives.
-/

/-- **A system of threads**: what a thread may do in one step, which
threads may start, what the environment may do, which threads a crash
kills and what it does to the state. -/
structure System (Th σ : Type) where
  /-- `step t th s th' s'`: thread number `t`, being `th`, moves the
  state from `s` to `s'` and becomes `th'`, or ends. -/
  step : Nat → Th → σ → Option Th → σ → Prop
  /-- `start T t th s s'`: with `T` running, `th` may start as number
  `t`. -/
  start : (Nat → Option Th) → Nat → Th → σ → σ → Prop
  /-- A move of the environment. -/
  env : σ → σ → Prop
  /-- A crash, with the threads it kills. -/
  crash : (Th → Bool) → σ → σ → Prop

/-- **A pool**: the state, the running threads, and the first number
that was never used. -/
structure Pool (Th σ : Type) where
  state : σ
  threads : Nat → Option Th
  next : Nat

namespace Pool

variable {Th σ : Type}

/-- **One step of a pool.** -/
inductive Step (sys : System Th σ) : Pool Th σ → Pool Th σ → Prop
  | thread {s s' T n t th th'} (hT : T t = some th)
      (h : sys.step t th s th' s') :
      Step sys ⟨s, T, n⟩ ⟨s', Function.update T t th', n⟩
  | start {s s' T n th} (h : sys.start T n th s s') :
      Step sys ⟨s, T, n⟩ ⟨s', Function.update T n (some th), n + 1⟩
  | env {s s' T n} (h : sys.env s s') : Step sys ⟨s, T, n⟩ ⟨s', T, n⟩
  | crash {s s' T n dead} (h : sys.crash dead s s') :
      Step sys ⟨s, T, n⟩ ⟨s', fun t => (T t).filter (fun th => !dead th), n⟩

/-- Any number of steps. -/
def Steps (sys : System Th σ) : Pool Th σ → Pool Th σ → Prop :=
  Relation.ReflTransGen (Step sys)

/-- The pool with no thread. -/
def idle (s : σ) : Pool Th σ := ⟨s, fun _ => none, 0⟩

/-- **A rely–guarantee proof of a system.** `guar (some t)` bounds the
steps of thread `t` and `guar none` those of the environment; `fresh t s`
says that number `t` has left no trace in the state. -/
structure Certificate (sys : System Th σ) where
  inv : σ → Prop
  ok : Nat → Th → σ → Prop
  fresh : Nat → σ → Prop
  guar : Option Nat → σ → σ → Prop
  step : ∀ {t th s th' s'}, inv s → ok t th s → sys.step t th s th' s' →
    guar (some t) s s' ∧ (∀ th₁, th' = some th₁ → inv s' → ok t th₁ s')
  start : ∀ {T t th s s'}, inv s → fresh t s → sys.start T t th s s' →
    guar (some t) s s' ∧ (inv s' → ok t th s')
  env : ∀ {s s'}, inv s → sys.env s s' → guar none s s'
  crash : ∀ {dead s s'}, inv s → sys.crash dead s s' →
    inv s' ∧ (∀ t th, dead th = false → ok t th s → ok t th s') ∧
      ∀ t, fresh t s → fresh t s'
  guar_inv : ∀ {i s s'}, inv s → guar i s s' → inv s'
  guar_ok : ∀ {i t th s s'}, i ≠ some t → inv s → guar i s s' → inv s' →
    ok t th s → ok t th s'
  guar_fresh : ∀ {i t s s'}, i ≠ some t → inv s → guar i s s' →
    fresh t s → fresh t s'

/-- What a certificate establishes of a pool. -/
structure Certificate.Holds {sys : System Th σ} (cert : Certificate sys)
    (p : Pool Th σ) : Prop where
  inv : cert.inv p.state
  ok : ∀ {t th}, p.threads t = some th → cert.ok t th p.state
  bound : ∀ {t th}, p.threads t = some th → t < p.next
  fresh : ∀ {t}, p.next ≤ t → cert.fresh t p.state

variable {sys : System Th σ} (cert : Certificate sys)

/-- **A step keeps what a certificate establishes.** -/
theorem Certificate.Holds.step {p p' : Pool Th σ} (h : cert.Holds p)
    (hs : Step sys p p') : cert.Holds p' := by
  cases hs with
  | @thread s s' T n t th th' hT hstep =>
    have hb : t < n := h.bound (t := t) hT
    obtain ⟨hg, hok⟩ := cert.step h.inv (h.ok (t := t) hT) hstep
    have hi := cert.guar_inv h.inv hg
    refine ⟨hi, ?_, ?_, ?_⟩
    · intro u thu hu
      by_cases hut : u = t
      · subst hut
        exact hok thu (by simpa using hu) hi
      · exact cert.guar_ok (by simpa using fun h => hut h.symm) h.inv hg hi
          (h.ok (by simpa [hut] using hu))
    · intro u thu hu
      by_cases hut : u = t
      · exact hut ▸ hb
      · exact h.bound (by simpa [hut] using hu)
    · intro u hu
      have hut : u ≠ t := by simp at hu; omega
      exact cert.guar_fresh (by simpa using fun h => hut h.symm) h.inv hg (h.fresh hu)
  | @start s s' T n th hstart =>
    obtain ⟨hg, hok⟩ := cert.start h.inv (h.fresh (Nat.le_refl n)) hstart
    have hi := cert.guar_inv h.inv hg
    refine ⟨hi, ?_, ?_, ?_⟩
    · intro u thu hu
      by_cases hun : u = n
      · subst hun
        have : th = thu := by simpa using hu
        exact this ▸ hok hi
      · exact cert.guar_ok (by simpa using fun h => hun h.symm) h.inv hg hi
          (h.ok (by simpa [hun] using hu))
    · intro u thu hu
      by_cases hun : u = n
      · simp [hun]
      · exact Nat.lt_succ_of_lt (h.bound (by simpa [hun] using hu))
    · intro u hu
      have hun : u ≠ n := by simp at hu; omega
      exact cert.guar_fresh (by simpa using fun h => hun h.symm) h.inv hg
        (h.fresh (by simp at hu ⊢; omega))
  | @env s s' T n henv =>
    have hg := cert.env h.inv henv
    have hi := cert.guar_inv h.inv hg
    exact ⟨hi, fun hu => cert.guar_ok (by simp) h.inv hg hi (h.ok hu), h.bound,
      fun hu => cert.guar_fresh (by simp) h.inv hg (h.fresh hu)⟩
  | @crash s s' T n dead hcrash =>
    obtain ⟨hi, hok, hfresh⟩ := cert.crash h.inv hcrash
    refine ⟨hi, ?_, ?_, fun hu => hfresh _ (h.fresh hu)⟩
    · intro u thu hu
      obtain ⟨hT, hd⟩ := Option.filter_eq_some_iff.mp hu
      exact hok u thu (by simpa using hd) (h.ok hT)
    · intro u thu hu
      exact h.bound (Option.filter_eq_some_iff.mp hu).1

/-- **Every reachable pool satisfies what its certificate
establishes.** -/
theorem Certificate.reachable {p p' : Pool Th σ} (h : cert.Holds p)
    (hs : Steps sys p p') : cert.Holds p' := by
  induction hs with
  | refl => exact h
  | tail _ hstep ih => exact Holds.step cert ih hstep

/-- A pool that starts without threads satisfies its certificate if its
state does and no number has left a trace. -/
theorem Certificate.holds_idle {s : σ} (hi : cert.inv s)
    (hf : ∀ t, cert.fresh t s) : cert.Holds (idle s) :=
  ⟨hi, fun h => by simp [idle] at h, fun h => by simp [idle] at h, fun _ => hf _⟩

end Pool

/-! ## Threads that are programs -/

section Programs

variable {C : Type} {R : C → Type} {σ ε α : Type}

/-- **One step of a program**: its next command is answered, or it has
returned or failed and ends. -/
inductive ProgStep (exec : (c : C) → σ → R c → σ → Prop) :
    Prog R ε α → σ → Option (Prog R ε α) → σ → Prop
  | call {c k s r s'} (h : exec c s r s') :
      ProgStep exec (.call c k) s (some (k r)) s'
  | ret {a s} : ProgStep exec (.ret a) s none s
  | fail {e s} : ProgStep exec (.fail e) s none s

/-- **What a step of a safe program gives**: the guarantee, or nothing
moved, and safety of what is left to run. -/
theorem Logic.Safe.step {L : Logic R σ} {Q : α → σ → Prop} {E : ε → σ → Prop}
    {p : Prog R ε α} {p' : Option (Prog R ε α)} {s s' : σ} (hi : L.inv s)
    (h : L.Safe Q E p s) (hs : ProgStep L.exec p s p' s') :
    (L.guar s s' ∨ s' = s) ∧ ∀ q, p' = some q → L.inv s' → L.Safe Q E q s' := by
  cases hs with
  | call hx =>
    obtain ⟨hg, hk⟩ := h s (L.rely_refl s) hi _ _ hx
    exact ⟨.inl hg, fun q hq hi' => Option.some.inj hq ▸ hk hi'⟩
  | ret => exact ⟨.inr rfl, fun q hq => by simp at hq⟩
  | fail => exact ⟨.inr rfl, fun q hq => by simp at hq⟩

end Programs
