import Mathlib.Data.List.Nodup
import Mathlib.Data.Finset.Card
import Ferusa.Lib.Pool

/-!
# Threads and the log of what they did

Any number of threads run programs over one state, one command at a
time. The **log** of such a system (`Log`) is its state together with
every command put so far – by whom, with what reply, and the states
around it – and with what each thread runs and how it ended. Nobody
reads the log; it is what statements about runs speak of.

A **discipline** says what a thread may do next, given what it did
before (`Discipline.may`), and how it may end. `Discipline.Keeps` is the
proof that a program follows one: it is about that program alone, its
past being the list of its own acts. From such proofs, one for each
program, every run of the whole system is a sequence of disciplined
moves of the log (`Discipline.Valid.moves`), and what holds of all runs
is proved from the moves by induction (`Discipline.Valid.invariant`),
with no program in sight.
-/

/-- **An act**: a command put by a thread, the reply, and the states
around it. -/
structure Act {C : Type} (R : C → Type) (σ : Type) where
  thread : Nat
  command : C
  reply : R command
  before : σ
  after : σ

/-- How a thread ended: with an outcome, or killed. -/
inductive Ending (ε α : Type) where
  | done (x : Except ε α)
  | killed
  deriving DecidableEq

/-- **A log**: the state, the acts of all threads, latest first, what each
thread runs, and how it ended. -/
structure Log {C : Type} (R : C → Type) (Op σ ε α : Type) where
  state : σ
  acts : List (Act R σ)
  ops : Nat → Option Op
  ended : Nat → Option (Ending ε α)

section

variable {C : Type} {R : C → Type} {Op σ ε δ α β : Type}

namespace Log

/-- The log of a system that was just started. -/
def empty (s : σ) : Log R Op σ ε α := ⟨s, [], fun _ => none, fun _ => none⟩

variable (w : Log R Op σ ε α)

/-- The acts of one thread, latest first. -/
def own (t : Nat) : List (Act R σ) := w.acts.filter (fun e => e.thread = t)

/-- The log after an act. -/
def put (t : Nat) (c : C) (r : R c) (s' : σ) : Log R Op σ ε α :=
  { w with state := s', acts := ⟨t, c, r, w.state, s'⟩ :: w.acts }

/-- The log after a thread has ended. -/
def finish (t : Nat) (x : Except ε α) : Log R Op σ ε α :=
  { w with ended := Function.update w.ended t (some (.done x)) }

/-- The log after a thread has started. -/
def begin (t : Nat) (op : Op) (s' : σ) : Log R Op σ ε α :=
  { w with state := s', ops := Function.update w.ops t (some op) }

/-- The log after a move of the environment. -/
def move (s' : σ) : Log R Op σ ε α := { w with state := s' }

/-- The log after a crash that kills every thread. -/
def crash (s' : σ) : Log R Op σ ε α :=
  { w with
    state := s'
    ended := fun t => if (w.ops t).isSome ∧ w.ended t = none then some .killed else w.ended t }

/-- **The act happened** when the acts before it were `earlier`. -/
def Happened (e : Act R σ) (earlier : List (Act R σ)) : Prop :=
  ∃ later, w.acts = later ++ e :: earlier

section
variable (t u : Nat) (op : Op) (c : C) (r : R c) (s' : σ) (x : Except ε α)

@[simp] theorem put_state : (w.put t c r s').state = s' := rfl
@[simp] theorem put_acts : (w.put t c r s').acts = ⟨t, c, r, w.state, s'⟩ :: w.acts := rfl
@[simp] theorem put_ops : (w.put t c r s').ops = w.ops := rfl
@[simp] theorem put_ended : (w.put t c r s').ended = w.ended := rfl
@[simp] theorem finish_state : (w.finish t x).state = w.state := rfl
@[simp] theorem finish_acts : (w.finish t x).acts = w.acts := rfl
@[simp] theorem finish_ops : (w.finish t x).ops = w.ops := rfl
@[simp] theorem begin_state : (w.begin t op s').state = s' := rfl
@[simp] theorem begin_acts : (w.begin t op s').acts = w.acts := rfl
@[simp] theorem begin_ended : (w.begin t op s').ended = w.ended := rfl
@[simp] theorem move_state : (w.move s').state = s' := rfl
@[simp] theorem move_acts : (w.move s').acts = w.acts := rfl
@[simp] theorem move_ops : (w.move s').ops = w.ops := rfl
@[simp] theorem move_ended : (w.move s').ended = w.ended := rfl
@[simp] theorem crash_state : (w.crash s').state = s' := rfl
@[simp] theorem crash_acts : (w.crash s').acts = w.acts := rfl
@[simp] theorem crash_ops : (w.crash s').ops = w.ops := rfl
theorem crash_ended : (w.crash s').ended u =
    if (w.ops u).isSome ∧ w.ended u = none then some .killed else w.ended u := rfl

@[simp] theorem finish_own : (w.finish t x).own u = w.own u := rfl
@[simp] theorem begin_own : (w.begin t op s').own u = w.own u := rfl
@[simp] theorem move_own : (w.move s').own u = w.own u := rfl
@[simp] theorem crash_own : (w.crash s').own u = w.own u := rfl

@[simp] theorem own_put_self :
    (w.put t c r s').own t = ⟨t, c, r, w.state, s'⟩ :: w.own t := by
  simp [own]

theorem own_put_of_ne {t u : Nat} (h : t ≠ u) : (w.put t c r s').own u = w.own u := by
  simp [own, h]

@[simp] theorem finish_ended :
    (w.finish t x).ended u = if u = t then some (.done x) else w.ended u := by
  simp [finish, Function.update_apply]

@[simp] theorem begin_ops :
    (w.begin t op s').ops u = if u = t then some op else w.ops u := by
  simp [begin, Function.update_apply]

end

/-- Whatever is in the log happened, after some acts. -/
theorem happened_of_mem {w : Log R Op σ ε α} {e : Act R σ} (h : e ∈ w.acts) :
    ∃ earlier, w.Happened e earlier := by
  obtain ⟨later, earlier, hacts⟩ := List.append_of_mem h
  exact ⟨earlier, later, hacts⟩

/-- What happened is in the log. -/
theorem Happened.mem {w : Log R Op σ ε α} {e : Act R σ} {earlier : List (Act R σ)}
    (h : w.Happened e earlier) : e ∈ w.acts := by
  obtain ⟨later, hacts⟩ := h
  rw [hacts]
  exact List.mem_append_right later List.mem_cons_self

/-- **The acts of one thread among all**: where they are split, all are. -/
theorem own_split {t : Nat} {l later early : List (Act R σ)} {e : Act R σ}
    (h : (l.filter fun b => b.thread = t) = later ++ e :: early) :
    ∃ l₁ l₂, l = l₁ ++ e :: l₂ ∧ e.thread = t ∧ (l₁.filter fun b => b.thread = t) = later ∧
      (l₂.filter fun b => b.thread = t) = early := by
  obtain ⟨m₁, m₂, rfl, hlater, hrest⟩ := List.filter_eq_append_iff.mp h
  obtain ⟨k₁, k₂, rfl, hnone, ht, hearly⟩ := List.filter_eq_cons_iff.mp hrest
  refine ⟨m₁ ++ k₁, k₂, by simp, of_decide_eq_true ht, ?_, hearly⟩
  rw [List.filter_append, hlater, List.filter_eq_nil_iff.mpr hnone, List.append_nil]

/-- Every act passes a check against those before it. -/
def checks (f : Act R σ → List (Act R σ) → Bool) : List (Act R σ) → Bool
  | [] => true
  | e :: earlier => f e earlier && checks f earlier

theorem of_checks {w : Log R Op σ ε α} {f : Act R σ → List (Act R σ) → Bool}
    (h : checks f w.acts = true) {e : Act R σ} {earlier : List (Act R σ)}
    (he : w.Happened e earlier) : f e earlier = true := by
  obtain ⟨later, hacts⟩ := he
  rw [hacts] at h
  clear hacts
  induction later with
  | nil => exact (Bool.and_eq_true_iff.mp h).1
  | cons e' later ih => exact ih (Bool.and_eq_true_iff.mp h).2

end Log

/-- **A system of threads running programs**: what each operation runs,
what a command put by a thread does, which operations may start, what
the environment does on its own, and what a crash leaves of the
state. -/
structure Threads {C : Type} (R : C → Type) (Op σ ε α : Type) where
  program : Op → Prog R ε α
  exec : Nat → (c : C) → σ → R c → σ → Prop
  start : Log R Op σ ε α → Op → σ → Prop
  env : σ → σ → Prop
  crash : σ → σ → Prop

namespace Threads

/-- **One step of one thread**: its next command is answered, or it ends. -/
inductive ThreadStep (sys : Threads R Op σ ε α) (t : Nat) :
    Prog R ε α → Log R Op σ ε α → Option (Prog R ε α) → Log R Op σ ε α → Prop
  | put {w c k r s'} (h : sys.exec t c w.state r s') :
      ThreadStep sys t (.call c k) w (some (k r)) (w.put t c r s')
  | ret {w a} : ThreadStep sys t (.ret a) w none (w.finish t (.ok a))
  | fail {w e} : ThreadStep sys t (.fail e) w none (w.finish t (.error e))

/-- The threads as a system of pools. A crash kills them all. -/
def system (sys : Threads R Op σ ε α) : System (Prog R ε α) (Log R Op σ ε α) where
  step t p w p' w' := sys.ThreadStep t p w p' w'
  start _ t p w w' := ∃ op s', sys.start w op s' ∧ p = sys.program op ∧ w' = w.begin t op s'
  env w w' := ∃ s', sys.env w.state s' ∧ w' = w.move s'
  crash dead w w' := (∀ p, dead p = true) ∧ ∃ s', sys.crash w.state s' ∧ w' = w.crash s'

/-- The states of a running system: the log and the threads. -/
abbrev Running (_sys : Threads R Op σ ε α) := Pool (Prog R ε α) (Log R Op σ ε α)

/-- **What may be reached from a state**, no thread running. -/
def Reaches (sys : Threads R Op σ ε α) (s : σ) (p : sys.Running) : Prop :=
  Pool.Steps sys.system (Pool.idle (Log.empty s)) p

end Threads

/-- **A discipline**: what a thread may do after its own acts – the
proposed act is given with its reply and the states around it –, how it
may end, and what a thread may count on while the others move. -/
structure Discipline (sys : Threads R Op σ ε α) where
  may : Nat → Op → List (Act R σ) → Act R σ → Prop
  ends : Nat → Op → List (Act R σ) → Except ε α → Prop
  rely : Nat → σ → σ → Prop
  rely_refl : ∀ t s, rely t s s
  rely_trans : ∀ {t s s' s''}, rely t s s' → rely t s' s'' → rely t s s''

namespace Discipline

variable {sys : Threads R Op σ ε α} (D : Discipline sys)

/-! ## Programs that keep a discipline -/

/-- The setting of one thread that runs one operation. -/
def logic (t : Nat) (op : Op) : Logic R (Log R Op σ ε α) where
  exec c w r w' := ∃ s', sys.exec t c w.state r s' ∧ w' = w.put t c r s'
  inv _ := True
  rely w w' := w'.own t = w.own t ∧ D.rely t w.state w'.state
  guar w w' := ∃ c r s', sys.exec t c w.state r s' ∧ w' = w.put t c r s' ∧
    D.may t op (w.own t) ⟨t, c, r, w.state, s'⟩
  rely_refl w := ⟨rfl, D.rely_refl t w.state⟩
  rely_trans h h' := ⟨h'.1.trans h.1, D.rely_trans h.2 h'.2⟩

/-- **The thread has done `l`**, and since its last act the others did what
it may count on. -/
def At (t : Nat) (l : List (Act R σ)) (w : Log R Op σ ε α) : Prop :=
  w.own t = l ∧ ∀ e, l.head? = some e → D.rely t e.after w.state

/-- **The program keeps the discipline** from the acts `l` on, and ends
with an outcome and acts that satisfy `Q`. -/
def Keeps (t : Nat) (op : Op) (l : List (Act R σ)) (p : Prog R δ β)
    (Q : Except δ β → List (Act R σ) → Prop) : Prop :=
  (D.logic t op).Triple (D.At t l) p (fun a w => ∃ l', Q (.ok a) l' ∧ D.At t l' w)
    (fun e w => ∃ l', Q (.error e) l' ∧ D.At t l' w)

variable {D} {t : Nat} {op : Op} {l : List (Act R σ)}

theorem stable_at (l : List (Act R σ)) : (D.logic t op).Stable (D.At t l) := by
  intro w w' _ hw hr _
  exact ⟨hr.1.trans hw.1, fun e he => D.rely_trans (hw.2 e he) hr.2⟩

namespace Keeps

variable {Q : Except δ β → List (Act R σ) → Prop}

theorem ret {a : β} (h : Q (.ok a) l) : D.Keeps t op l (.ret a : Prog R δ β) Q :=
  Logic.Triple.ret (stable_at l) fun _ _ hw => ⟨l, h, hw⟩

theorem pure {a : β} (h : Q (.ok a) l) : D.Keeps t op l (Pure.pure a : Prog R δ β) Q :=
  ret h

theorem fail {e : δ} (h : Q (.error e) l) : D.Keeps t op l (.fail e : Prog R δ β) Q :=
  Logic.Triple.fail (stable_at l) fun _ _ hw => ⟨l, h, hw⟩

theorem ofExcept {x : Except δ β} (h : Q x l) : D.Keeps t op l (Prog.ofExcept x) Q := by
  cases x with
  | ok a => exact ret h
  | error e => exact fail h

/-- **One command**: it may be put, and what follows keeps the discipline
after it. -/
theorem call {c : C} {k : R c → Prog R δ β}
    (h : ∀ r s s', (∀ e, l.head? = some e → D.rely t e.after s) → sys.exec t c s r s' →
      D.may t op l ⟨t, c, r, s, s'⟩ ∧ D.Keeps t op (⟨t, c, r, s, s'⟩ :: l) (k r) Q) :
    D.Keeps t op l (.call c k) Q := by
  intro w hi hw v hv _ r v' hx
  obtain ⟨s', hx, rfl⟩ := hx
  have hst : (D.logic t op).Stable (D.At t l) := stable_at l
  obtain ⟨hown, hlast⟩ := hst w v trivial hw hv trivial
  obtain ⟨hm, hk⟩ := h r v.state s' hlast hx
  refine ⟨⟨c, r, s', hx, rfl, hown.symm ▸ hm⟩, fun _ => hk _ trivial ⟨by simp [hown], ?_⟩⟩
  intro e he
  obtain rfl : ⟨t, c, r, v.state, s'⟩ = e := Option.some.inj he
  exact D.rely_refl t s'

/-- **Sequencing.** -/
theorem bind {γ : Type} {M : Except δ γ → List (Act R σ) → Prop} {p : Prog R δ γ}
    {f : γ → Prog R δ β} (hp : D.Keeps t op l p M)
    (hf : ∀ a l', M (.ok a) l' → D.Keeps t op l' (f a) Q)
    (he : ∀ e l', M (.error e) l' → Q (.error e) l') : D.Keeps t op l (p >>= f) Q := by
  refine Logic.Triple.bind (M := fun a w => ∃ l', M (.ok a) l' ∧ D.At t l' w) ?_ ?_
  · refine hp.conseq (fun _ _ h => h) (fun _ _ _ h => h) ?_
    rintro e w - ⟨l', hl', hw⟩
    exact ⟨l', he e l' hl', hw⟩
  · rintro a w hi ⟨l', hl', hw⟩
    exact hf a l' hl' w hi hw

/-- **The acts only grow.** -/
theorem suffix {p : Prog R δ β} (hp : D.Keeps t op l p Q) :
    D.Keeps t op l p fun x l' => Q x l' ∧ l <:+ l' := by
  have hframe := Logic.Triple.frame (F := fun w : Log R Op σ ε α => l <:+ w.own t) hp
    (fun w w' _ hw hr _ => show l <:+ w'.own t from hr.1.symm ▸ hw)
    (by
      rintro w w' - hw ⟨c, r, s', -, rfl, -⟩
      rw [Log.own_put_self]
      exact hw.trans (List.suffix_cons _ _))
  refine hframe.conseq (fun w _ hw => ⟨hw, hw.1 ▸ List.suffix_rfl⟩) ?_ ?_
  · rintro a w - ⟨⟨l', hl', hw⟩, hsuffix⟩
    exact ⟨l', ⟨hl', hw.1 ▸ hsuffix⟩, hw⟩
  · rintro e w - ⟨⟨l', hl', hw⟩, hsuffix⟩
    exact ⟨l', ⟨hl', hw.1 ▸ hsuffix⟩, hw⟩

/-- **Catching the outcome.** -/
theorem attempt {γ : Type} {p : Prog R γ β} {Q : Except δ (Except γ β) → List (Act R σ) → Prop}
    (hp : D.Keeps t op l p fun x l' => Q (.ok x) l') :
    D.Keeps t op l (p.attempt : Prog R δ _) Q :=
  Logic.Triple.attempt (L := D.logic t op)
    (M := fun x (w : Log R Op σ ε α) => ∃ l', Q (.ok x) l' ∧ D.At t l' w) hp

/-- **Rewriting the error.** -/
theorem mapError {η : Type} {g : η → δ} {p : Prog R η β}
    (hp : D.Keeps t op l p fun x l' => Q (x.mapError g) l') :
    D.Keeps t op l (p.mapError g) Q :=
  Logic.Triple.mapError hp

/-- What a program ends with may be weakened. -/
theorem mono {M : Except δ β → List (Act R σ) → Prop} {p : Prog R δ β} (hp : D.Keeps t op l p M)
    (h : ∀ x l', M x l' → Q x l') : D.Keeps t op l p Q :=
  hp.conseq (fun _ _ h => h) (fun _ _ _ ⟨l', ha, hw⟩ => ⟨l', h _ l' ha, hw⟩)
    fun _ _ _ ⟨l', he, hw⟩ => ⟨l', h _ l' he, hw⟩

/-- **Going on with the outcome** of a program, whatever it is. -/
theorem attempt_bind {γ η : Type} {M : Except γ η → List (Act R σ) → Prop} {p : Prog R γ η}
    {f : Except γ η → Prog R δ β} (hp : D.Keeps t op l p M)
    (hf : ∀ x l', M x l' → D.Keeps t op l' (f x) Q) : D.Keeps t op l (p.attempt >>= f) Q := by
  refine bind (M := fun x l' => ∃ y, x = .ok y ∧ M y l')
    (attempt (hp.mono fun x l' h => ⟨x, rfl, h⟩)) ?_ ?_
  · rintro x l' ⟨y, hy, hl'⟩
    obtain rfl := Except.ok.inj hy
    exact hf x l' hl'
  · rintro e l' ⟨y, hy, -⟩
    simp at hy

/-- **Later acts**: those of `l'` after those of `l`, all satisfying `P`. -/
def Since (P : Act R σ → Prop) (l l' : List (Act R σ)) : Prop :=
  ∃ m, l' = m ++ l ∧ ∀ e ∈ m, P e

/-- **A program whose commands may always be put** keeps the discipline,
and does nothing but put them. -/
theorem only {P : C → Prop} {p : Prog R δ β} (hp : p.Only P)
    (h : ∀ l c r s s', P c → sys.exec t c s r s' → D.may t op l ⟨t, c, r, s, s'⟩) :
    D.Keeps t op l p fun _ l' => Since (fun e => P e.command) l l' := by
  induction p generalizing l with
  | ret a => exact ret ⟨[], rfl, by simp⟩
  | fail e => exact fail ⟨[], rfl, by simp⟩
  | call c k ih =>
    refine call fun r s s' _ hx => ⟨h l c r s s' hp.1 hx, (ih r (hp.2 r)).mono ?_⟩
    rintro x l' ⟨m, rfl, hm⟩
    refine ⟨m ++ [⟨t, c, r, s, s'⟩], by simp, fun e he => ?_⟩
    rcases List.mem_append.mp he with he | he
    · exact hm e he
    · obtain rfl := List.mem_singleton.mp he
      exact hp.1

/-- **A program whose commands may be put while something is known** of the
acts keeps the discipline, and it is known after it. -/
theorem while_known {P : C → Prop} {W : List (Act R σ) → Prop} {p : Prog R δ β} (hp : p.Only P)
    (hW : W l) (h : ∀ l c r s s', P c → W l →
      D.may t op l ⟨t, c, r, s, s'⟩ ∧ W (⟨t, c, r, s, s'⟩ :: l)) :
    D.Keeps t op l p fun _ l' => W l' := by
  induction p generalizing l with
  | ret a => exact ret hW
  | fail e => exact fail hW
  | call c k ih =>
    refine call fun r s s' _ _ => ?_
    obtain ⟨hmay, hnext⟩ := h l c r s s' hp.1 hW
    exact ⟨hmay, ih r (hp.2 r) hnext⟩

/-- **A program proved in a setting of its own** keeps the discipline over
the larger set of commands, if what its commands guarantee there is what
may be done here. What that setting is about is a view of the state and of
the thread's own acts. -/
theorem hoist {C' τ : Type} {R' : C' → Type} {L : Logic R' τ}
    (view : List (Act R σ) → σ → τ) {f : C' → C} {g : (c : C') → R (f c) → R' c}
    {P : C' → Prop} {l₀ : List (Act R σ)} {Q : β → τ → Prop} {E : δ → τ → Prop}
    {p : Prog R' δ β} (hinv : ∀ s, L.inv s)
    (hrely : ∀ {l s s'}, D.rely t s s' → L.rely (view l s) (view l s'))
    (hexec : ∀ {l c r s s'}, sys.exec t (f c) s r s' →
      L.exec c (view l s) (g c r) (view (⟨t, f c, r, s, s'⟩ :: l) s'))
    (hmay : ∀ {l' c r s s'}, P c → Since (fun e => ∃ c, P c ∧ e.command = f c) l₀ l' →
      (∀ e, l'.head? = some e → D.rely t e.after s) → sys.exec t (f c) s r s' →
      L.guar (view l' s) (view (⟨t, f c, r, s, s'⟩ :: l') s') →
      D.may t op l' ⟨t, f c, r, s, s'⟩)
    (hl : Since (fun e => ∃ c, P c ∧ e.command = f c) l₀ l) (hp : p.Only P)
    (h : ∀ s, (∀ e, l.head? = some e → D.rely t e.after s) → L.Safe Q E p (view l s)) :
    D.Keeps t op l (p.hoist f g) fun x l' =>
      Since (fun e => ∃ c, P c ∧ e.command = f c) l₀ l' ∧
        ∀ s, (∀ e, l'.head? = some e → D.rely t e.after s) →
          match x with
          | .ok a => Q a (view l' s)
          | .error e => E e (view l' s) := by
  induction p generalizing l with
  | ret a => exact ret ⟨hl, fun s hs => h s hs _ (L.rely_refl _) (hinv _)⟩
  | fail e => exact fail ⟨hl, fun s hs => h s hs _ (L.rely_refl _) (hinv _)⟩
  | call c k ih =>
    rw [Prog.hoist_call]
    refine call fun r s s' hs hx => ?_
    obtain ⟨hg, hk⟩ := h s hs _ (L.rely_refl _) (hinv _) _ _ (hexec hx)
    refine ⟨hmay hp.1 hl hs hx hg, ih (g c r) ?_ (hp.2 _) ?_⟩
    · obtain ⟨m, rfl, hm⟩ := hl
      exact ⟨_ :: m, rfl, List.forall_mem_cons.mpr ⟨⟨c, hp.1, rfl⟩, hm⟩⟩
    · intro u hu
      exact (hk (hinv _)).rely (hrely (hu _ rfl))

end Keeps

/-! ## Programs that may run at any time -/

variable (D)

/-- **The program keeps the discipline whatever its thread has done.** -/
def Follows (p : Prog R δ β) : Prop := ∀ t op l, D.Keeps t op l p fun _ _ => True

namespace Follows

variable {D} {γ : Type}

theorem pure {a : β} : D.Follows (Pure.pure a : Prog R δ β) := fun _ _ _ => Keeps.pure trivial

theorem fail {e : δ} : D.Follows (Prog.fail e : Prog R δ β) := fun _ _ _ => Keeps.fail trivial

theorem ofExcept {x : Except δ β} : D.Follows (Prog.ofExcept x : Prog R δ β) :=
  fun _ _ _ => Keeps.ofExcept trivial

theorem bind {p : Prog R δ γ} {f : γ → Prog R δ β} (hp : D.Follows p)
    (hf : ∀ a, D.Follows (f a)) : D.Follows (p >>= f) :=
  fun t op l => Keeps.bind (hp t op l) (fun a l' _ => hf a t op l') fun _ _ _ => trivial

theorem attempt {p : Prog R γ β} (hp : D.Follows p) :
    D.Follows (p.attempt : Prog R δ (Except γ β)) :=
  fun t op l => Keeps.attempt (hp t op l)

theorem mapError {g : γ → δ} {p : Prog R γ β} (hp : D.Follows p) :
    D.Follows (p.mapError g) :=
  fun t op l => Keeps.mapError (hp t op l)

theorem ite {q : Prop} [Decidable q] {p p' : Prog R δ β} (h : D.Follows p)
    (h' : D.Follows p') : D.Follows (if q then p else p') := by
  split
  · exact h
  · exact h'

/-- A program whose commands may always be put. -/
theorem only {P : C → Prop} {p : Prog R δ β} (hp : p.Only P)
    (h : ∀ t op l c r s s', P c → sys.exec t c s r s' → D.may t op l ⟨t, c, r, s, s'⟩) :
    D.Follows p :=
  fun t op _ => (Keeps.only hp (h t op)).mono fun _ _ _ => trivial

end Follows

/-- **The program keeps the discipline, and what is known of its thread's acts**,
however it ends. -/
def Preserves (I : List (Act R σ) → Prop) (p : Prog R δ β) : Prop :=
  ∀ t op l, I l → D.Keeps t op l p fun _ l' => I l'

namespace Preserves

variable {D} {γ : Type} {I : List (Act R σ) → Prop}

theorem pure {a : β} : D.Preserves I (Pure.pure a : Prog R δ β) :=
  fun _ _ _ h => Keeps.pure h

theorem fail {e : δ} : D.Preserves I (Prog.fail e : Prog R δ β) :=
  fun _ _ _ h => Keeps.fail h

theorem ofExcept {x : Except δ β} : D.Preserves I (Prog.ofExcept x : Prog R δ β) :=
  fun _ _ _ h => Keeps.ofExcept h

theorem bind {p : Prog R δ γ} {f : γ → Prog R δ β} (hp : D.Preserves I p)
    (hf : ∀ a, D.Preserves I (f a)) : D.Preserves I (p >>= f) :=
  fun t op l h => Keeps.bind (hp t op l h) (fun a l' => hf a t op l') fun _ _ h' => h'

theorem attempt {p : Prog R γ β} (hp : D.Preserves I p) :
    D.Preserves I (p.attempt : Prog R δ (Except γ β)) :=
  fun t op l h => Keeps.attempt (hp t op l h)

theorem ite {q : Prop} [Decidable q] {p p' : Prog R δ β} (h : D.Preserves I p)
    (h' : D.Preserves I p') : D.Preserves I (if q then p else p') := by
  split
  · exact h
  · exact h'

end Preserves

/-- A program that may run at any time, where nothing is to be known. -/
theorem Follows.preserves {p : Prog R δ β} (h : D.Follows p) :
    D.Preserves (fun _ => True) p :=
  fun t op l _ => h t op l

/-! ## Runs -/

/-- **A disciplined move of the log.** -/
inductive Move : Log R Op σ ε α → Log R Op σ ε α → Prop
  | put {w t op c r s'} (hop : w.ops t = some op) (hrun : w.ended t = none)
      (hx : sys.exec t c w.state r s')
      (hm : D.may t op (w.own t) ⟨t, c, r, w.state, s'⟩) : Move w (w.put t c r s')
  | finish {w t op x} (hop : w.ops t = some op) (hrun : w.ended t = none)
      (he : D.ends t op (w.own t) x) : Move w (w.finish t x)
  | start {w t op s'} (ht : w.ops t = none) (hown : w.own t = []) (hend : w.ended t = none)
      (h : sys.start w op s') : Move w (w.begin t op s')
  | env {w s'} (h : sys.env w.state s') : Move w (w.move s')
  | crash {w s'} (h : sys.crash w.state s') : Move w (w.crash s')

/-- Any number of disciplined moves. -/
def Moves : Log R Op σ ε α → Log R Op σ ε α → Prop :=
  Relation.ReflTransGen D.Move

/-- **The programs keep the discipline**, and what a disciplined thread
does, the others may count on. -/
structure Valid : Prop where
  keeps : ∀ t op, D.Keeps t op [] (sys.program op) fun x l => D.ends t op l x
  put : ∀ {t u op l c r s s'}, t ≠ u → sys.exec t c s r s' →
    D.may t op l ⟨t, c, r, s, s'⟩ → D.rely u s s'
  start : ∀ {w op s' u}, sys.start w op s' → D.rely u w.state s'
  env : ∀ {s s' u}, sys.env s s' → D.rely u s s'

/-- What is known of a running system: its threads are those of the log
that have not ended, and each keeps the discipline in what is left of
its program. -/
structure Kept (p : sys.Running) : Prop where
  safe : ∀ {t q}, p.threads t = some q → ∃ op, p.state.ops t = some op ∧
    p.state.ended t = none ∧
    (D.logic t op).Safe (fun a w => D.ends t op (w.own t) (.ok a))
      (fun e w => D.ends t op (w.own t) (.error e)) q p.state
  bound : ∀ {t}, p.next ≤ t → p.state.ops t = none ∧ p.state.own t = [] ∧
    p.state.ended t = none
  running : ∀ {t q}, p.threads t = some q → t < p.next

variable {D}

/-- What is known once a thread has ended. -/
theorem Kept.finish {w : Log R Op σ ε α} {T : Nat → Option (Prog R ε α)} {n t : Nat}
    {x : Except ε α} (hp : D.Kept ⟨w, T, n⟩) (hlt : t < n) :
    D.Kept ⟨w.finish t x, Function.update T t none, n⟩ := by
  refine ⟨?_, ?_, ?_⟩
  · intro u v hu
    by_cases hut : u = t
    · simp [hut] at hu
    · obtain ⟨op, hop, hrun, hsafe⟩ := hp.safe (t := u) (by simpa [hut] using hu)
      exact ⟨op, hop, by simpa [hut] using hrun, hsafe.rely ⟨rfl, D.rely_refl u w.state⟩⟩
  · intro u hu
    obtain ⟨h₁, h₂, h₃⟩ := hp.bound (t := u) hu
    have hut : u ≠ t := by
      rintro rfl
      exact absurd hlt (Nat.not_lt.mpr hu)
    exact ⟨h₁, h₂, by simpa [hut] using h₃⟩
  · intro u v hu
    by_cases hut : u = t
    · exact hut ▸ hlt
    · exact hp.running (t := u) (by simpa [hut] using hu)

/-- **A step of a running system is a disciplined move of its log.** -/
theorem Kept.step (hD : D.Valid) {p p' : sys.Running} (hp : D.Kept p)
    (hs : Pool.Step sys.system p p') : D.Move p.state p'.state ∧ D.Kept p' := by
  cases hs with
  | @thread w w' T n t q q' hT hstep =>
    obtain ⟨op, hop, hrun, hsafe⟩ := hp.safe (t := t) hT
    have hlt : t < n := hp.running (t := t) hT
    cases hstep with
    | @put _ c k r s' hx =>
      obtain ⟨⟨c', r', s'', hx', hw', hm⟩, hk⟩ :=
        hsafe w (Logic.rely_refl _ w) trivial r _ ⟨s', hx, rfl⟩
      obtain ⟨hs', hacts⟩ : s' = s'' ∧ (⟨t, c, r, w.state, s'⟩ : Act R σ) =
          ⟨t, c', r', w.state, s''⟩ := by
        have h₁ := congrArg Log.state hw'
        have h₂ := congrArg Log.acts hw'
        exact ⟨h₁, (List.cons.inj h₂).1⟩
      rw [← hacts] at hm
      refine ⟨.put hop hrun hx hm, ?_, ?_, ?_⟩
      · intro u v hu
        by_cases hut : u = t
        · subst hut
          obtain rfl : k r = v := by simpa using hu
          exact ⟨op, hop, hrun, hk trivial⟩
        · obtain ⟨op', hop', hrun', hsafe'⟩ := hp.safe (t := u) (by simpa [hut] using hu)
          exact ⟨op', hop', hrun', hsafe'.rely
            ⟨Log.own_put_of_ne _ _ _ _ (Ne.symm hut), hD.put (Ne.symm hut) hx hm⟩⟩
      · intro u hu
        obtain ⟨h₁, h₂, h₃⟩ := hp.bound (t := u) hu
        have hut : t ≠ u := by
          rintro rfl
          exact absurd hlt (Nat.not_lt.mpr hu)
        exact ⟨h₁, (Log.own_put_of_ne _ _ _ _ hut).trans h₂, h₃⟩
      · intro u v hu
        by_cases hut : u = t
        · exact hut ▸ hlt
        · exact hp.running (t := u) (by simpa [hut] using hu)
    | ret =>
      have hends := hsafe w (Logic.rely_refl _ w) trivial
      exact ⟨.finish hop hrun hends, hp.finish hlt⟩
    | fail =>
      have hends := hsafe w (Logic.rely_refl _ w) trivial
      exact ⟨.finish hop hrun hends, hp.finish hlt⟩
  | @start w w' T n q hstart =>
    obtain ⟨op, s', hstart, rfl, rfl⟩ := hstart
    obtain ⟨h₁, h₂, h₃⟩ := hp.bound (t := n) (Nat.le_refl n)
    refine ⟨.start h₁ h₂ h₃ hstart, ?_, ?_, ?_⟩
    · intro u v hu
      by_cases hun : u = n
      · subst hun
        obtain rfl : sys.program op = v := by simpa using hu
        refine ⟨op, by simp, h₃, ?_⟩
        refine (hD.keeps u op (w.begin u op s') trivial ⟨h₂, fun e he => by simp at he⟩).mono ?_ ?_
        · rintro a v - ⟨l, hl, hv⟩
          exact hv.1 ▸ hl
        · rintro e v - ⟨l, hl, hv⟩
          exact hv.1 ▸ hl
      · obtain ⟨op', hop', hrun', hsafe'⟩ := hp.safe (t := u) (by simpa [hun] using hu)
        exact ⟨op', by simpa [hun] using hop', hrun', hsafe'.rely ⟨rfl, hD.start hstart⟩⟩
    · intro u hu
      obtain ⟨h₁, h₂, h₃⟩ := hp.bound (t := u) (Nat.le_of_succ_le hu)
      have hun : u ≠ n := by
        rintro rfl
        exact absurd hu (Nat.not_succ_le_self u)
      exact ⟨by simpa [hun] using h₁, h₂, h₃⟩
    · intro u v hu
      by_cases hun : u = n
      · simp [hun]
      · exact Nat.lt_succ_of_lt (hp.running (t := u) (by simpa [hun] using hu))
  | @env w w' T n henv =>
    obtain ⟨s', henv, rfl⟩ := henv
    refine ⟨.env henv, ?_, hp.bound, hp.running⟩
    intro u v hu
    obtain ⟨op, hop, hrun, hsafe⟩ := hp.safe (t := u) hu
    exact ⟨op, hop, hrun, hsafe.rely ⟨rfl, hD.env henv⟩⟩
  | @crash w w' T n dead hcrash =>
    obtain ⟨hdead, s', hcrash, rfl⟩ := hcrash
    have hnone : ∀ u v, (T u).filter (fun q => !dead q) = some v → False := by
      intro u v hu
      have := (Option.filter_eq_some_iff.mp hu).2
      simp [hdead] at this
    refine ⟨.crash hcrash, fun hu => (hnone _ _ hu).elim, ?_, fun hu => (hnone _ _ hu).elim⟩
    intro u hu
    obtain ⟨h₁, h₂, h₃⟩ := hp.bound (t := u) hu
    refine ⟨h₁, h₂, ?_⟩
    have h₁' : w.ops u = none := h₁
    have h₃' : w.ended u = none := h₃
    simp [Log.crash, h₁', h₃']

theorem Kept.idle (s : σ) : D.Kept (Pool.idle (Log.empty s)) :=
  ⟨fun h => by simp [Pool.idle] at h, fun _ => ⟨rfl, rfl, rfl⟩,
    fun h => by simp [Pool.idle] at h⟩

/-- **The steps of a running system are disciplined moves**, from wherever it
is. -/
theorem Kept.moves (hD : D.Valid) {p p' : sys.Running} (hp : D.Kept p)
    (hs : Pool.Steps sys.system p p') : D.Moves p.state p'.state ∧ D.Kept p' := by
  induction hs with
  | refl => exact ⟨.refl, hp⟩
  | tail _ hstep ih =>
    obtain ⟨hmoves, hkept⟩ := ih
    obtain ⟨hmove, hkept⟩ := hkept.step hD hstep
    exact ⟨hmoves.tail hmove, hkept⟩

/-- What is known of a running system holds of every run. -/
theorem Valid.kept (hD : D.Valid) {s : σ} {p : sys.Running} (hp : sys.Reaches s p) :
    D.Kept p :=
  ((Kept.idle s).moves hD hp).2

/-- **Every run of a system whose programs keep a discipline is a sequence
of disciplined moves.** -/
theorem Valid.moves (hD : D.Valid) {s : σ} {p : sys.Running} (hp : sys.Reaches s p) :
    D.Moves (Log.empty s) p.state :=
  ((Kept.idle s).moves hD hp).1

/-- **An invariant of the moves holds of every run.** -/
theorem Valid.invariant (hD : D.Valid) {I : Log R Op σ ε α → Prop} {s : σ} (hI : I (Log.empty s))
    (hstep : ∀ {w w'}, I w → D.Move w w' → I w') {p : sys.Running} (hp : sys.Reaches s p) :
    I p.state := by
  have hm := hD.moves hp
  generalize p.state = w at hm
  induction hm with
  | refl => exact hI
  | tail _ hmove ih => exact hstep ih hmove

/-- **Every act was one its thread might do**, after the acts it had done by
then. -/
def Followed (D : Discipline sys) (w : Log R Op σ ε α) : Prop :=
  ∀ e earlier, w.Happened e earlier → ∃ op, w.ops e.thread = some op ∧
    sys.exec e.thread e.command e.before e.reply e.after ∧
    D.may e.thread op (earlier.filter fun e' => e'.thread = e.thread) e

/-- How an act came to be in a log that one more was put in. -/
theorem happened_put {w : Log R Op σ ε α} {c : C} {r : R c} {s' : σ} {e : Act R σ}
    {earlier : List (Act R σ)} (h : (w.put t c r s').Happened e earlier) :
    (e = ⟨t, c, r, w.state, s'⟩ ∧ earlier = w.acts) ∨ w.Happened e earlier := by
  obtain ⟨later, h⟩ := h
  cases later with
  | nil => exact .inl ⟨(List.cons.inj h).1.symm, (List.cons.inj h).2.symm⟩
  | cons e' later => exact .inr ⟨later, (List.cons.inj h).2⟩

/-- **A chronicle of the state.** What is known of a state and of the acts
that led to it is known of the state before every act, too. -/
theorem Valid.chronicle (hD : D.Valid) {I : List (Act R σ) → σ → Prop} {s : σ} (hI : I [] s)
    (put : ∀ {l t op c r s s'}, I l s → sys.exec t c s r s' →
      D.may t op (l.filter fun e => e.thread = t) ⟨t, c, r, s, s'⟩ → I (⟨t, c, r, s, s'⟩ :: l) s')
    (start : ∀ {w op s'}, I w.acts w.state → sys.start w op s' → I w.acts s')
    (env : ∀ {l s s'}, I l s → sys.env s s' → I l s')
    (crash : ∀ {l s s'}, I l s → sys.crash s s' → I l s') {p : sys.Running}
    (hp : sys.Reaches s p) : ∀ e earlier, p.state.Happened e earlier → I earlier e.before := by
  refine (hD.invariant (I := fun w => I w.acts w.state ∧
    ∀ e earlier, w.Happened e earlier → I earlier e.before)
    ⟨hI, fun _ _ ⟨_, h⟩ => by simp [Log.empty] at h⟩ (fun ⟨h, hall⟩ hm => ?_) hp).2
  cases hm with
  | put hop hrun hx hm =>
    refine ⟨put h hx hm, fun e earlier he => ?_⟩
    rcases happened_put he with ⟨rfl, rfl⟩ | he
    · exact h
    · exact hall e earlier he
  | finish => exact ⟨h, hall⟩
  | @start t op s' ht hown hend hstart =>
    have hnew := start h hstart
    exact ⟨hnew, hall⟩
  | env he => exact ⟨env h he, hall⟩
  | crash hc => exact ⟨crash h hc, hall⟩

theorem Followed.move {w w' : Log R Op σ ε α} (h : D.Followed w) (hm : D.Move w w') :
    D.Followed w' := by
  cases hm with
  | @put t op c r s' hop hrun hx hm =>
    intro e earlier he
    rcases happened_put he with ⟨rfl, rfl⟩ | he
    · exact ⟨op, hop, hx, hm⟩
    · exact h e earlier he
  | @start t op s' ht hown hend hs =>
    intro e earlier he
    obtain ⟨op', hop', hx, hm⟩ := h e earlier he
    have hne : e.thread ≠ t := fun heq => by simp [heq, ht] at hop'
    exact ⟨op', by simpa [hne] using hop', hx, hm⟩
  | finish => exact h
  | env => exact h
  | crash => exact h

/-- **Every act of every run is disciplined.** -/
theorem Valid.followed (hD : D.Valid) {s : σ} {p : sys.Running} (hp : sys.Reaches s p) :
    D.Followed p.state :=
  hD.invariant (fun _ _ ⟨_, h⟩ => by simp [Log.empty] at h) (fun h hm => h.move hm) hp

/-- **Every thread that ended has ended as it might.** -/
def Concluded (D : Discipline sys) (w : Log R Op σ ε α) : Prop :=
  ∀ t x, w.ended t = some (.done x) → ∃ op, w.ops t = some op ∧ D.ends t op (w.own t) x

theorem Concluded.move {w w' : Log R Op σ ε α} (h : D.Concluded w) (hm : D.Move w w') :
    D.Concluded w' := by
  cases hm with
  | @put t op c r s' hop hrun hx hm =>
    intro u x hu
    obtain ⟨op', hop', he⟩ := h u x hu
    have hne : t ≠ u := by
      rintro rfl
      simp [hrun] at hu
    exact ⟨op', hop', by rwa [Log.own_put_of_ne _ _ _ _ hne]⟩
  | @finish t op x hop hrun he =>
    intro u y hu
    rw [Log.finish_ended] at hu
    split at hu
    · next hut =>
      obtain rfl : x = y := by simpa using hu
      exact ⟨op, hut ▸ hop, hut ▸ he⟩
    · exact h u y hu
  | @start t op s' ht hown hend hs =>
    intro u x hu
    obtain ⟨op', hop', he⟩ := h u x hu
    have hne : u ≠ t := by
      rintro rfl
      simp [ht] at hop'
    exact ⟨op', by simpa [hne] using hop', he⟩
  | env => exact h
  | crash =>
    intro u x hu
    rw [Log.crash_ended] at hu
    split at hu
    · simp at hu
    · exact h u x hu

theorem Valid.concluded (hD : D.Valid) {s : σ} {p : sys.Running} (hp : sys.Reaches s p) :
    D.Concluded p.state :=
  hD.invariant (fun _ _ h => by simp [Log.empty] at h) (fun h hm => h.move hm) hp

/-- **What each thread does at most once** is done at most as often as there
were threads. -/
theorem Kept.count_le {p : sys.Running} (hp : D.Kept p) {f : Act R σ → Bool}
    (h : ∀ e earlier, p.state.Happened e earlier → f e = true →
      ∀ b ∈ earlier, b.thread = e.thread → f b = false) :
    p.state.acts.countP f ≤ p.next := by
  have hlt : ∀ e ∈ p.state.acts, e.thread < p.next := by
    intro e he
    by_contra hge
    have hown := (hp.bound (t := e.thread) (Nat.not_lt.mp hge)).2.1
    have hmem : e ∈ p.state.own e.thread := List.mem_filter.mpr ⟨he, by simp⟩
    simp [hown] at hmem
  have hnodup : ∀ l later, p.state.acts = later ++ l →
      ((l.filter f).map Act.thread).Nodup := by
    intro l
    induction l with
    | nil => exact fun _ _ => List.nodup_nil
    | cons e l ih =>
      intro later hl
      have hrest := ih (later ++ [e]) (by simp [hl])
      cases hf : f e with
      | false => simpa [List.filter_cons, hf] using hrest
      | true =>
        rw [List.filter_cons_of_pos hf, List.map_cons, List.nodup_cons]
        refine ⟨fun hmem => ?_, hrest⟩
        obtain ⟨b, hb, hbt⟩ := List.mem_map.mp hmem
        obtain ⟨hbl, hbf⟩ := List.mem_filter.mp hb
        simp [h e l ⟨later, hl⟩ hf b hbl hbt] at hbf
  have hsub : ((p.state.acts.filter f).map Act.thread).toFinset ⊆ Finset.range p.next := by
    intro t ht
    obtain ⟨e, he, rfl⟩ := List.mem_map.mp (List.mem_toFinset.mp ht)
    exact Finset.mem_range.mpr (hlt e (List.mem_filter.mp he).1)
  calc p.state.acts.countP f
      = ((p.state.acts.filter f).map Act.thread).length := by
        rw [List.length_map, List.countP_eq_length_filter]
    _ = ((p.state.acts.filter f).map Act.thread).toFinset.card :=
        (List.toFinset_card_of_nodup (hnodup _ [] rfl)).symm
    _ ≤ (Finset.range p.next).card := Finset.card_le_card hsub
    _ = p.next := Finset.card_range _

end Discipline

/-! ## Runs that are played

A listed run of a system whose commands are answered by a function. -/

/-- **How a system is played**: an answer to a command for each choice, and
what starts and happens outside. The number given with a start is a hint
for its check. -/
structure Player (sys : Threads R Op σ ε α) (κ ν : Type) where
  answer : Nat → (c : C) → κ → σ → Option (R c × σ)
  exec : ∀ {t c o s r s'}, answer t c o s = some (r, s') → sys.exec t c s r s'
  begin : Nat → Log R Op σ ε α → Op → Option σ
  start : ∀ {n w op s'}, begin n w op = some s' → sys.start w op s'
  outside : ν → σ → Option σ
  env : ∀ {x s s'}, outside x s = some s' → sys.env s s'

/-- A part of a listed run: an operation starts, a thread takes so many
steps, something happens outside. -/
inductive Play (Op κ ν : Type) where
  | start (hint : Nat) (op : Op)
  | run (t : Nat) (choice : κ) (steps : Nat)
  | outside (x : ν)

namespace Player

variable {sys : Threads R Op σ ε α} {κ ν : Type} (pl : Player sys κ ν)

/-- One step of a thread. -/
def step (t : Nat) (o : κ) (p : sys.Running) : Option sys.Running :=
  match p.threads t with
  | none => none
  | some (.ret a) =>
    some ⟨p.state.finish t (.ok a), Function.update p.threads t none, p.next⟩
  | some (.fail e) =>
    some ⟨p.state.finish t (.error e), Function.update p.threads t none, p.next⟩
  | some (.call c k) =>
    match pl.answer t c o p.state.state with
    | none => none
    | some (r, s') =>
      some ⟨p.state.put t c r s', Function.update p.threads t (some (k r)), p.next⟩

/-- So many steps of a thread, or as many as it takes. -/
def steps (t : Nat) (o : κ) : Nat → sys.Running → Option sys.Running
  | 0, p => some p
  | n + 1, p => if (p.threads t).isNone then some p else (pl.step t o p).bind (steps t o n)

/-- **Play a listed run.** -/
def play : List (Play Op κ ν) → sys.Running → Option sys.Running
  | [], p => some p
  | .start hint op :: l, p =>
    match pl.begin hint p.state op with
    | none => none
    | some s' => play l ⟨p.state.begin p.next op s',
        Function.update p.threads p.next (some (sys.program op)), p.next + 1⟩
  | .run t o n :: l, p => (pl.steps t o n p).bind (play l)
  | .outside x :: l, p =>
    match pl.outside x p.state.state with
    | none => none
    | some s' => play l ⟨p.state.move s', p.threads, p.next⟩

variable {pl} {p p' : sys.Running}

theorem step_sound {t : Nat} {o : κ} (h : pl.step t o p = some p') :
    Pool.Step sys.system p p' := by
  obtain ⟨w, T, n⟩ := p
  unfold step at h
  split at h
  · simp at h
  · next a hT =>
    obtain rfl := Option.some.inj h
    exact .thread hT .ret
  · next e hT =>
    obtain rfl := Option.some.inj h
    exact .thread hT .fail
  · next c k hT =>
    split at h
    · simp at h
    · next r s' hr =>
      obtain rfl := Option.some.inj h
      exact .thread hT (.put (pl.exec hr))

theorem steps_sound {t : Nat} {o : κ} {n : Nat} (h : pl.steps t o n p = some p') :
    Pool.Steps sys.system p p' := by
  induction n generalizing p with
  | zero =>
    obtain rfl := Option.some.inj h
    exact .refl
  | succ n ih =>
    rw [steps] at h
    split at h
    · obtain rfl := Option.some.inj h
      exact .refl
    · obtain ⟨q, hq, h⟩ := Option.bind_eq_some_iff.mp h
      exact .head (step_sound hq) (ih h)

/-- **What is played is a run.** -/
theorem play_sound {l : List (Play Op κ ν)} (h : pl.play l p = some p') :
    Pool.Steps sys.system p p' := by
  induction l generalizing p with
  | nil =>
    obtain rfl := Option.some.inj h
    exact .refl
  | cons x l ih =>
    obtain ⟨w, T, n⟩ := p
    cases x with
    | start hint op =>
      rw [play] at h
      split at h
      · simp at h
      · next s' hs => exact .head (.start ⟨op, s', pl.start hs, rfl, rfl⟩) (ih h)
    | run t o n =>
      obtain ⟨q, hq, h⟩ := Option.bind_eq_some_iff.mp h
      exact (steps_sound hq).trans (ih h)
    | outside x =>
      rw [play] at h
      split at h
      · simp at h
      · next s' hs => exact .head (.env ⟨s', pl.env hs, rfl⟩) (ih h)

end Player

end
