import Ferusa.Lib.Sequence

/-!
# Programs that remember what they did

What a program may do next often depends on what it did before: a value
may be shown only once it was asked for, a file replaced only once the
replacement was approved. Here the state of a program carries its
**past**, the commands it has put with the replies they got, the latest
first (`Recorded`), and the guarantee of a program is a condition on
each command it puts, given the state and the past at that moment
(`recordedLogic`). Remembering changes nothing: every run is the run of
a program that remembers (`Script.Steps.record`), and conversely
(`Script.Steps.forget`).

Much of a program is of no interest to such a condition. `Prog.Obeys`
says of a program that it puts listed commands only, as long as the
replies are of a listed kind; it mentions no state, and it is all that
has to be proved of such a part (`Prog.Obeys.safe`).
-/

/-- **A command with its reply.** -/
structure Event {C : Type} (R : C → Type) where
  command : C
  reply : R command

/-- **A state with its past**, the latest command first. -/
structure Recorded {C : Type} (R : C → Type) (σ : Type) where
  state : σ
  past : List (Event R)

section

variable {C D : Type} {R : C → Type} {S : D → Type} {σ τ ε δ α β : Type}

/-- What a command does to a state and its past. -/
def Recorded.exec (exec : (c : C) → σ → R c → σ → Prop) (c : C) (s : Recorded R σ) (r : R c)
    (s' : Recorded R σ) : Prop :=
  exec c s.state r s'.state ∧ s'.past = ⟨c, r⟩ :: s.past

/-- **A command was put that might be put.** -/
def Recorded.Performed (exec : (c : C) → σ → R c → σ → Prop) (may : C → Recorded R σ → Prop)
    (s s' : Recorded R σ) : Prop :=
  ∃ c r, Recorded.exec exec c s r s' ∧ may c s

/-- The command that was put is known from the past. -/
theorem Recorded.Performed.may {exec : (c : C) → σ → R c → σ → Prop}
    {may : C → Recorded R σ → Prop} {s s' : Recorded R σ} (h : Performed exec may s s') {c : C}
    {r : R c} (hpast : s'.past = ⟨c, r⟩ :: s.past) : may c s := by
  obtain ⟨c', r', ⟨-, hpast'⟩, hmay⟩ := h
  have hevent : (⟨c, r⟩ : Event R) = ⟨c', r'⟩ := (List.cons.inj (hpast.symm.trans hpast')).1
  cases hevent
  exact hmay

/-- **The setting of a program that remembers** and that nobody
interferes with: it keeps an invariant, and puts a command only when it
may. -/
def recordedLogic (exec : (c : C) → σ → R c → σ → Prop) (inv : Recorded R σ → Prop)
    (may : C → Recorded R σ → Prop) : Logic R (Recorded R σ) where
  exec := Recorded.exec exec
  inv := inv
  rely s s' := s' = s
  guar := Recorded.Performed exec may
  rely_refl _ := rfl
  rely_trans h h' := h'.trans h

/-- Without interference every assertion is stable. -/
theorem stable_recorded {exec : (c : C) → σ → R c → σ → Prop} {inv : Recorded R σ → Prop}
    {may : C → Recorded R σ → Prop} (P : Recorded R σ → Prop) :
    (recordedLogic exec inv may).Stable P := by
  rintro s s' - hP rfl -
  exact hP

/-- **What is known of the past stays known**, whatever the program
does. -/
theorem triple_past {exec : (c : C) → σ → R c → σ → Prop} {inv : Recorded R σ → Prop}
    {may : C → Recorded R σ → Prop} {P : Recorded R σ → Prop} {Q : α → Recorded R σ → Prop}
    {E : ε → Recorded R σ → Prop} {K : List (Event R) → Prop} (hK : ∀ e l, K l → K (e :: l))
    {p : Prog R ε α} (h : (recordedLogic exec inv may).Triple P p Q E) :
    (recordedLogic exec inv may).Triple (fun s => P s ∧ K s.past) p
      (fun a s => Q a s ∧ K s.past) E := by
  refine (h.frame (stable_recorded fun s => K s.past) ?_).conseq (fun _ _ hs => hs)
    (fun _ _ _ hs => hs) fun _ _ _ hs => hs.1
  rintro s s' - hs ⟨c, r, ⟨-, hpast⟩, -⟩
  exact hpast ▸ hK _ _ hs

/-! ## A program on its own -/

/-- **A run of a program**, up to any of its commands. -/
inductive Prog.Runs (exec : (c : C) → σ → R c → σ → Prop) (p : Prog R ε α) (s : σ) :
    Prog R ε α → σ → Prop
  | start : Runs exec p s p s
  | call {c k t r t'} (hrun : Runs exec p s (.call c k) t) (hx : exec c t r t') :
      Runs exec p s (k r) t'

/-- **The outcome with given answers** ends a run. -/
theorem Prog.Runs.replay {κ : Type} {exec : (c : C) → σ → R c → σ → Prop}
    {h : (c : C) → κ → σ → Option (R c × σ)}
    (hx : ∀ c o s r s', h c o s = some (r, s') → exec c s r s') {p p' : Prog R ε α} {l : List κ}
    {s s' s'' : σ} {a : α} (hrun : Prog.Runs exec p s p' s')
    (hp : p'.replay h l s' = some (.ok a, s'')) : Prog.Runs exec p s (.ret a) s'' := by
  induction p' generalizing l s' with
  | ret b =>
    obtain ⟨rfl, rfl⟩ : b = a ∧ s' = s'' := by simpa [Prog.replay] using hp
    exact hrun
  | fail e => simp [Prog.replay] at hp
  | call c k ih =>
    cases l with
    | nil => simp [Prog.replay] at hp
    | cons o l =>
      rw [Prog.replay] at hp
      split at hp
      · next r t hc => exact ih r (hrun.call (hx c o s' r t hc)) hp
      · simp at hp

/-- Every event is one that might be put, given those before it. -/
def Lawful (may : C → List (Event R) → Prop) : List (Event R) → Prop
  | [] => True
  | e :: past => may e.command past ∧ Lawful may past

/-- **A run of a safe program** puts what it may, and what is left of the
program is safe. -/
theorem Prog.Runs.safe {exec : (c : C) → σ → R c → σ → Prop} {may : C → List (Event R) → Prop}
    {Q : α → Recorded R σ → Prop} {E : ε → Recorded R σ → Prop} {p p' : Prog R ε α}
    {s s' : Recorded R σ} (hrun : Prog.Runs (Recorded.exec exec) p s p' s')
    (hsafe : (recordedLogic exec (fun _ => True) fun c s => may c s.past).Safe Q E p s)
    (hpast : Lawful may s.past) :
    (recordedLogic exec (fun _ => True) fun c s => may c s.past).Safe Q E p' s' ∧
      Lawful may s'.past := by
  induction hrun with
  | start => exact ⟨hsafe, hpast⟩
  | @call c k t r t' _ hx ih =>
    obtain ⟨hguar, hsafe'⟩ := ih.1 t rfl trivial r t' hx
    have hput : Recorded.Performed exec (fun c s => may c s.past) t t' := hguar
    have hmay : may c t.past := hput.may hx.2
    refine ⟨hsafe' trivial, ?_⟩
    rw [hx.2]
    exact ⟨hmay, ih.2⟩

/-! ## Parts that keep a discipline -/

namespace Prog

/-- **The program obeys**: it puts commands of `S` only, and returns
values of `Q` only, as long as the replies are as `A` says. -/
def Obeys (S : C → Prop) (A : (c : C) → R c → Prop) (Q : α → Prop) : Prog R ε α → Prop
  | ret a => Q a
  | fail _ => True
  | call c k => S c ∧ ∀ r, A c r → (k r).Obeys S A Q

variable {P : C → Prop} {A : (c : C) → R c → Prop} {Q : α → Prop}

theorem Obeys.mono {P' : C → Prop} {Q' : α → Prop} {p : Prog R ε α} (h : p.Obeys P A Q)
    (hP : ∀ c, P c → P' c) (hQ : ∀ a, Q a → Q' a) : p.Obeys P' A Q' := by
  induction p with
  | ret a => exact hQ a h
  | fail e => trivial
  | call c k ih => exact ⟨hP c h.1, fun r hr => ih r (h.2 r hr)⟩

/-- Only what is returned matters less. -/
theorem Obeys.post {Q' : α → Prop} {p : Prog R ε α} (h : p.Obeys P A Q)
    (hQ : ∀ a, Q a → Q' a) : p.Obeys P A Q' :=
  h.mono (fun _ hc => hc) hQ

theorem Obeys.bind {M : β → Prop} {p : Prog R ε β} {f : β → Prog R ε α} (hp : p.Obeys P A M)
    (hf : ∀ b, M b → (f b).Obeys P A Q) : (p >>= f).Obeys P A Q := by
  induction p with
  | ret b => exact hf b hp
  | fail e => trivial
  | call c k ih => exact ⟨hp.1, fun r hr => ih r (hp.2 r hr)⟩

/-- One command. -/
theorem Obeys.perform {c : C} {Q : R c → Prop} (hc : P c) (hQ : ∀ r, A c r → Q r) :
    (Prog.perform c : Prog R ε (R c)).Obeys P A Q :=
  ⟨hc, hQ⟩

theorem Obeys.ofExcept {x : Except ε α} (h : ∀ a, x = .ok a → Q a) :
    (Prog.ofExcept x : Prog R ε α).Obeys P A Q := by
  cases x with
  | ok a => exact h a rfl
  | error e => trivial

/-- Catching the outcome. -/
theorem Obeys.attempt {p : Prog R ε α} (h : p.Obeys P A Q) :
    (p.attempt : Prog R δ _).Obeys P A fun r => ∀ a, r = .ok a → Q a := by
  induction p with
  | ret a =>
    intro b hb
    obtain rfl := Except.ok.inj hb
    exact h
  | fail e => exact fun a ha => nomatch ha
  | call c k ih => exact ⟨h.1, fun r hr => ih r (h.2 r hr)⟩

theorem Obeys.mapError {g : ε → δ} {p : Prog R ε α} (h : p.Obeys P A Q) :
    (p.mapError g).Obeys P A Q := by
  induction p with
  | ret a => exact h
  | fail e => trivial
  | call c k ih => exact ⟨h.1, fun r hr => ih r (h.2 r hr)⟩

theorem Obeys.each {l : List β} {f : β → Prog R ε Unit}
    (h : ∀ b ∈ l, (f b).Obeys P A fun _ => True) : (Prog.each l f).Obeys P A fun _ => True := by
  induction l with
  | nil => trivial
  | cons b l ih =>
    exact (h b List.mem_cons_self).bind fun _ _ => ih fun b hb => h b (List.mem_cons_of_mem _ hb)

/-- **A part that obeys is safe in a larger setting** in which each of
the listed commands may be put and is answered as expected, and it
leaves alone what these commands do not break. -/
theorem Obeys.safe {L : Logic S τ} {f : C → D} {g : (c : C) → S (f c) → R c} {F : τ → Prop}
    (hF : L.Stable F)
    (hcmd : ∀ c s r s', L.inv s → F s → P c → L.exec (f c) s r s' →
      A c (g c r) ∧ L.guar s s' ∧ (L.inv s' → F s'))
    {p : Prog R ε α} (h : p.Obeys P A Q) {s : τ} (hi : L.inv s) (hs : F s) :
    L.Safe (fun a s => Q a ∧ F s) (fun _ s => F s) (p.hoist f g) s := by
  induction p generalizing s with
  | ret a => exact fun t ht hit => ⟨h, hF s t hi hs ht hit⟩
  | fail e => exact fun t ht hit => hF s t hi hs ht hit
  | call c k ih =>
    intro t ht hit r t' hx
    obtain ⟨hr, hg, hF'⟩ := hcmd c t r t' hit (hF s t hi hs ht hit) h.1 hx
    exact ⟨hg, fun hi' => ih _ (h.2 _ hr) hi' (hF' hi')⟩

end Prog

/-! ## Runs -/

namespace Script

variable {Op : Type}

/-- **A command is put and answered** by the operation under way. -/
structure Performs (script : Script R Op σ ε α) (c c' : Config R Op σ ε α) (op : Op) (cmd : C)
    (r : R cmd) : Prop where
  exec : script.exec cmd c.state r c'.state
  running : ∃ k, c.running = some (op, .call cmd k) ∧ c'.running = some (op, k r)

/-- **The script that remembers** what the operation under way has
done. -/
def recorded (script : Script R Op σ ε α) : Script R Op (Recorded R σ) ε α where
  exec := Recorded.exec script.exec
  program := script.program
  start op s s' := script.start op s.state s'.state ∧ s'.past = []
  finish op r s := ⟨script.finish op r s.state, s.past⟩
  stop s s' := script.stop s.state s'.state ∧ s'.past = []

variable {script : Script R Op σ ε α}

/-- A configuration without its past. -/
def Config.forget (c : Config R Op (Recorded R σ) ε α) : Config R Op σ ε α :=
  ⟨c.state.state, c.running⟩

/-- **Remembering changes nothing**: a run that remembers is a run. -/
theorem Steps.forget {c c' : Config R Op (Recorded R σ) ε α} (h : script.recorded.Steps c c') :
    script.Steps c.forget c'.forget := by
  induction h with
  | refl => exact .refl
  | tail _ hstep ih =>
    refine ih.tail ?_
    cases hstep with
    | start h => exact .start h.1
    | call h => exact .call h.1
    | ret => exact .ret
    | fail => exact .fail
    | stop h => exact .stop h.1

/-- **Every run can be remembered.** -/
theorem Steps.record {c c' : Config R Op σ ε α} (h : script.Steps c c')
    (past : List (Event R)) :
    ∃ past', script.recorded.Steps ⟨⟨c.state, past⟩, c.running⟩ ⟨⟨c'.state, past'⟩, c'.running⟩ := by
  induction h with
  | refl => exact ⟨past, .refl⟩
  | tail _ hstep ih =>
    obtain ⟨past', ih⟩ := ih
    cases hstep with
    | start h => exact ⟨[], ih.tail (.start ⟨h, rfl⟩)⟩
    | @call _ cmd _ _ r _ h => exact ⟨⟨cmd, r⟩ :: past', ih.tail (.call ⟨h, rfl⟩)⟩
    | ret => exact ⟨past', ih.tail .ret⟩
    | fail => exact ⟨past', ih.tail .fail⟩
    | stop h => exact ⟨[], ih.tail (.stop ⟨h, rfl⟩)⟩

/-- **A command that is put might be put**, in every configuration that
satisfies a certificate whose operations put a command only when they
may. -/
theorem Certificate.Holds.performs {cert : Certificate Op (Recorded R σ) ε α}
    {may : Op → C → Recorded R σ → Prop}
    (hmay : ∀ {op s s'}, cert.guar op s s' → Recorded.Performed script.exec (may op) s s')
    {c c' : Config R Op (Recorded R σ) ε α} (h : cert.Holds script.recorded c) {op : Op} {cmd : C}
    {r : R cmd} (hp : script.recorded.Performs c c' op cmd r) : may op cmd c.state := by
  obtain ⟨hexec, k, hrun, -⟩ := hp
  exact (hmay (h.safe op _ hrun _ rfl h.inv r _ hexec).1).may hexec.2

end Script

end
