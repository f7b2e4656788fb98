import Ferusa.Phone.AppState
import Ferusa.Phone.Play

/-!
# What locking leaves of the session

Any number of tasks run the operations of `AppState` side by side. A
**token** is the generation that an operation was told at its start; a
later operation is given a token that was issued, never one that was
made up. An operation **publishes** what it stores in one of the four
fields of the session.

The generation counts how often the session was cleared or opened, so a
token is still the generation only if neither has happened since it was
issued. Everything here follows from that, and from what the lock of the
generation keeps still.
-/

namespace Phone

/-- The fields of a session. -/
def sessionCells : List Cell :=
  [.secrets, .unlockedAt, .approvalKeyAuthenticatedAt, .pairingReplacementAuthorizedAt]

/-- **The operations of `AppState`.** -/
inductive StateOp where
  | lock
  | setForeground (foreground : Bool)
  | authenticationGeneration
  | markApprovalKeyAuthenticated (expected : Nat)
  | completeUnlock (expected : Nat) (secrets : AppSecrets)
  | beginPairingReplacement
  | completePairingReplacement (expected : Nat × Nat)
  | cancelPairingReplacement
  deriving DecidableEq

/-- What they return: a token, that of a replacement, the generation of
the session that was opened. -/
inductive StateOut where
  | done
  | token (generation : Nat)
  | replacement (token : Nat × Nat)
  | session (generation : Nat)
  deriving DecidableEq

/-- What an operation runs. -/
def StateOp.program : StateOp → AppProg StateOut
  | lock => do
    AppState.lock
    pure .done
  | setForeground foreground => do
    AppState.setForeground foreground
    pure .done
  | authenticationGeneration => do
    let token ← AppState.authenticationGeneration
    pure (.token token)
  | markApprovalKeyAuthenticated expected => do
    AppState.markApprovalKeyAuthenticated expected
    pure .done
  | completeUnlock expected secrets => do
    let session ← AppState.completeUnlock expected secrets
    pure (.session session)
  | beginPairingReplacement => do
    let token ← AppState.beginPairingReplacement
    pure (.replacement token)
  | completePairingReplacement expected => do
    AppState.completePairingReplacement expected
    pure .done
  | cancelPairingReplacement => do
    AppState.cancelPairingReplacement
    pure .done

/-- The token an operation is given. -/
def StateOp.given : StateOp → Option Nat
  | markApprovalKeyAuthenticated expected => some expected
  | completeUnlock expected _ => some expected
  | completePairingReplacement expected => some expected.1
  | _ => none

/-- An operation that clears the session. -/
def StateOp.clears : StateOp → Bool
  | lock => true
  | setForeground foreground => !foreground
  | _ => false

/-- The log of the tasks. -/
abbrev StateLog := Log AppCmd.Reply StateOp App AppError StateOut

/-- **A token that was issued**: an operation has returned it. -/
def Issued (w : StateLog) (token : Nat) : Prop :=
  ∃ u out, w.ended u = some (.done (.ok out)) ∧
    (out = .token token ∨ ∃ replacement, out = .replacement (token, replacement))

/-- **When an operation may start**: what it is given was issued. -/
def StateOp.MayStart (w : StateLog) : StateOp → Prop
  | markApprovalKeyAuthenticated expected => Issued w expected
  | completeUnlock expected _ => Issued w expected
  | completePairingReplacement expected =>
    ∃ u, w.ended u = some (.done (.ok (.replacement expected)))
  | _ => True

variable [Crypto]

/-- **The tasks.** -/
def stateThreads : Threads AppCmd.Reply StateOp App AppError StateOut where
  program := StateOp.program
  exec := App.Exec
  start w op s' := op.MayStart w ∧ s' = w.state
  env := App.Env
  crash _ _ := False

/-- **A token is issued** by the act that reads the generation for it, in
the foreground. -/
def Issues (token : Nat) (i : AppAct) : Prop :=
  i.command = .generation ∧ i.before.generation = token ∧ i.before.foreground = true

/-- **A replacement begins** with the act that counts it. -/
def Begins (token : Nat × Nat) (j : AppAct) : Prop :=
  j.command = .bumpReplacement ∧ j.before.generation = token.1 ∧ j.after.replacement = token.2

/-- A field is given a value. -/
def Writes (c : Cell) (e : AppAct) : Prop :=
  ∃ value, value ≠ c.initial ∧ e.command = .write c value

/-! ## The discipline of the operations -/

/-- **What an operation may publish**: it holds the lock, its token is the
generation, the app is in the foreground, and a replacement is the one
begun last. -/
structure Publishing (t : Nat) (op : StateOp) (c : Cell) (s : App) : Prop where
  guard : s.generationGuard = some t
  token : op.given = some s.generation
  foreground : s.foreground = true
  replacement : c = .pairingReplacementAuthorizedAt →
    op = .completePairingReplacement (s.generation, s.replacement)

/-- **What the operations do.** All but waiting and looking is done under
the lock, and a clearing is over when the lock is given back. -/
def stateMay (t : Nat) (op : StateOp) (l : List AppAct) (e : AppAct) : Prop :=
  match e.command with
  | .unlockGeneration => (∃ b ∈ l, b.command = .bumpGeneration) → op.clears = true →
      ∀ c ∈ sessionCells, e.before.cells c = c.initial
  | .bumpGeneration => e.before.generationGuard = some t ∧
      ∀ b ∈ l, b.command ≠ .bumpGeneration
  | .storeForeground _ => e.before.generationGuard = some t
  | .bumpReplacement => e.before.generationGuard = some t ∧
      (op = .beginPairingReplacement ∨ op = .cancelPairingReplacement) ∧
      ∀ b ∈ l, b.command ≠ .bumpReplacement
  | .write c value => c ∈ sessionCells → e.before.generationGuard = some t ∧
      (value = c.initial ∨ Publishing t op c e.before)
  | .take _ => False
  | _ => True

/-- What the others leave alone while a task holds the lock. -/
structure Guarded (s s' : App) : Prop where
  guard : s'.generationGuard = s.generationGuard
  generation : s'.generation = s.generation
  foreground : s'.foreground = s.foreground
  replacement : s'.replacement = s.replacement
  cells : ∀ c ∈ sessionCells, s'.cells c = s.cells c

/-- **An unlock has published the secrets**, and counted after that. -/
def Opened (op : StateOp) (l : List AppAct) : Prop :=
  ∀ expected secrets, op = .completeUnlock expected secrets →
    ∃ l₁ b l₂, l = l₁ ++ b :: l₂ ∧ b.command = .bumpGeneration ∧
      ∃ e ∈ l₂, e.command = .write .secrets (some secrets)

/-- **What an operation has done when it ends.** A token was read in the
foreground, that of a replacement with its number; a clearing was counted
before the lock was given back; and an unlock that succeeds has published. -/
structure Ends (op : StateOp) (l : List AppAct) (x : Except AppError StateOut) : Prop where
  token : ∀ token, x = .ok (.token token) → op = .authenticationGeneration ∧
    ∃ i ∈ l, Issues token i
  replacement : ∀ token, x = .ok (.replacement token) → op = .beginPairingReplacement ∧
    (∃ i ∈ l, Issues token.1 i) ∧ ∃ j ∈ l, Begins token j
  cleared : op.clears = true → ∃ u l', l = u :: l' ∧ u.command = .unlockGeneration ∧
    ∃ b ∈ l', b.command = .bumpGeneration
  opened : ∀ out, x = .ok out → Opened op l

/-- **The discipline of the operations.** -/
def stateDiscipline : Discipline stateThreads where
  may := stateMay
  ends _ := Ends
  rely t s s' := s.generationGuard = some t → Guarded s s'
  rely_refl _ _ _ := ⟨rfl, rfl, rfl, rfl, fun _ _ => rfl⟩
  rely_trans {t s s' s''} h h' hg := by
    have h₁ := h hg
    have h₂ := h' (h₁.guard.trans hg)
    exact ⟨h₂.guard.trans h₁.guard, h₂.generation.trans h₁.generation,
      h₂.foreground.trans h₁.foreground, h₂.replacement.trans h₁.replacement,
      fun c hc => (h₂.cells c hc).trans (h₁.cells c hc)⟩

/-! ## The operations keep the discipline -/

open Discipline AppState AppProg

variable {t : Nat} {op : StateOp} {l : List AppAct} {e : AppAct}

/-- **A command put under the lock**: what the others leave alone is as the
last act has left it. -/
theorem held_call {α : Type} {c : AppCmd} {k : c.Reply → AppProg α}
    {Q : Except AppError α → List AppAct → Prop} (hg : e.after.generationGuard = some t)
    (h : ∀ r s s', Guarded e.after s → App.Exec t c s r s' →
      stateMay t op (e :: l) ⟨t, c, r, s, s'⟩ ∧
        stateDiscipline.Keeps t op (⟨t, c, r, s, s'⟩ :: e :: l) (k r) Q) :
    stateDiscipline.Keeps t op (e :: l) (.call c k) Q :=
  Keeps.call fun r s s' hr hx => h r s s' (hr e rfl hg) hx

/-- What has to be left when the lock is given back. -/
def Closing (t : Nat) (op : StateOp) (l : List AppAct) : Prop :=
  ∃ e l', l = e :: l' ∧ e.after.generationGuard = some t ∧
    (op.clears = true → (∀ c ∈ sessionCells, e.after.cells c = c.initial) ∧
      ∃ b ∈ l, b.command = .bumpGeneration)

/-- **An operation that holds the lock.** -/
theorem withGeneration_keeps {α : Type} {p : AppProg α}
    {Q : Except AppError α → List AppAct → Prop}
    (hp : ∀ s s', s'.generationGuard = some t →
      stateDiscipline.Keeps t op [⟨t, .lockGeneration, (), s, s'⟩] p fun x l =>
        Closing t op l ∧ ∀ u, u.command = .unlockGeneration → Q x (u :: l)) :
    stateDiscipline.Keeps t op [] (withGeneration p) Q := by
  simp only [withGeneration, put, Prog.perform_bind]
  refine Keeps.call fun _ s s' _ hx => ⟨trivial, ?_⟩
  refine Keeps.attempt_bind (hp s s' ?_) fun x l hl => ?_
  · rw [(App.exec_lockGeneration.mp hx).2]
  · obtain ⟨⟨e, l, rfl, hg, hclear⟩, hQ⟩ := hl
    refine held_call hg fun _ s s' hs _ => ⟨fun _ hop c hc => ?_, Keeps.ofExcept (hQ _ rfl)⟩
    rw [hs.cells c hc]
    exact (hclear hop).1 c hc

/-- The lock is held, and the fields are cleared. -/
def HeldEmpty (t : Nat) (cells : List Cell) (e : AppAct) : Prop :=
  e.after.generationGuard = some t ∧ ∀ c ∈ cells, e.after.cells c = c.initial

/-- Clearing one more field. -/
theorem held_clear {α : Type} {c : Cell} {cells : List Cell} {k : Unit → AppProg α}
    {Q : Except AppError α → List AppAct → Prop} (he : HeldEmpty t cells e)
    (hcells : ∀ c ∈ cells, c ∈ sessionCells)
    (h : ∀ e', HeldEmpty t (c :: cells) e' → stateDiscipline.Keeps t op (e' :: e :: l) (k ()) Q) :
    stateDiscipline.Keeps t op (e :: l) (.call (.write c c.initial) k) Q := by
  refine held_call he.1 fun r s s' hs hx => ⟨fun _ => ⟨hs.guard.trans he.1, .inl rfl⟩, h _ ?_⟩
  obtain rfl := App.exec_write.mp hx
  refine ⟨hs.guard.trans he.1, fun c' hc' => ?_⟩
  by_cases hcc : c' = c
  · subst hcc
    exact App.withCell_cells_self _ _ _
  · have hmem : c' ∈ cells := (List.mem_cons.mp hc').resolve_left hcc
    show (s.withCell c c.initial).cells c' = c'.initial
    rw [App.withCell_cells _ _ _ _ hcc, hs.cells c' (hcells c' hmem)]
    exact he.2 c' hmem

/-- **Clearing the session** leaves nothing in its fields. -/
theorem clearSession_keeps (hg : e.after.generationGuard = some t)
    (hno : ∀ b ∈ e :: l, b.command ≠ .bumpGeneration) :
    stateDiscipline.Keeps t op (e :: l) clearSession fun _ l' => Closing t op l' := by
  simp only [clearSession, put, Prog.perform_bind]
  refine held_call hg fun _ s s' hs hx => ⟨⟨hs.guard.trans hg, hno⟩, ?_⟩
  obtain ⟨-, -, rfl⟩ := App.exec_bumpGeneration.mp hx
  refine held_clear (c := .secrets) (show HeldEmpty t [] _ from ⟨hs.guard.trans hg, by simp⟩)
    (by simp) fun e₁ h₁ => ?_
  refine held_clear (c := .pairingReplacementAuthorizedAt) h₁ (by simp [sessionCells])
    fun e₂ h₂ => ?_
  refine held_clear (c := .unlockedAt) h₂ (by simp [sessionCells]) fun e₃ h₃ => ?_
  refine held_clear (c := .approvalKeyAuthenticatedAt) h₃ (by simp [sessionCells])
    fun e₄ h₄ => ?_
  have hclosing : ∀ e' : AppAct, Guarded e₄.after e'.after → ∀ l',
      (∃ b ∈ l', b.command = .bumpGeneration) → Closing t op (e' :: l') := by
    rintro e' he' l' ⟨b, hb, hbump⟩
    refine ⟨e', l', rfl, he'.guard.trans h₄.1, fun _ => ⟨fun c hc => ?_,
      b, List.mem_cons_of_mem _ hb, hbump⟩⟩
    rw [he'.cells c hc]
    exact h₄.2 c (by simp [sessionCells] at hc ⊢; tauto)
  refine held_call h₄.1 fun setup s s' hs hx => ⟨trivial, ?_⟩
  obtain ⟨-, rfl⟩ := App.exec_read.mp hx
  by_cases hsetup : setup.1 = true
  · rw [if_pos hsetup]
    refine held_call (hs.guard.trans h₄.1) fun _ s₆ s₆' hs' hx' => ⟨fun h => ?_, Keeps.ret ?_⟩
    · simp [sessionCells] at h
    · obtain rfl := App.exec_write.mp hx'
      refine hclosing _ ⟨hs'.guard.trans hs.guard, hs'.generation.trans hs.generation,
        hs'.foreground.trans hs.foreground, hs'.replacement.trans hs.replacement,
        fun c hc => ?_⟩ _ (by simp)
      have hne : c ≠ .setupPairingCode := by
        rintro rfl
        simp [sessionCells] at hc
      exact (App.withCell_cells _ _ _ _ hne).trans ((hs'.cells c hc).trans (hs.cells c hc))
  · rw [if_neg hsetup]
    exact Keeps.pure (hclosing _ hs _ (by simp))

omit [Crypto] in
/-- An operation that does not clear may give the lock back at any
time. -/
theorem closing_of_held (hop : op.clears = false) (hg : e.after.generationGuard = some t) :
    Closing t op (e :: l) :=
  ⟨e, l, rfl, hg, fun h => by simp [hop] at h⟩

/-- **Checking the generation**: what follows is done under the generation
that was read, in the foreground. -/
theorem checked_keeps {α : Type} {g : Nat → Nat} {f : Nat → AppProg α}
    {Q : Except AppError α → List AppAct → Prop} (hop : op.clears = false)
    (hg : e.after.generationGuard = some t)
    (hQ : ∀ x l', Closing t op l' → Q (.error x) l')
    (h : ∀ i e', Issues e'.after.generation i → e'.command = .isForeground →
      g e'.after.generation = e'.after.generation → e'.after.generationGuard = some t →
      e'.after.foreground = true →
      stateDiscipline.Keeps t op (e' :: i :: e :: l) (f e'.after.generation) Q) :
    stateDiscipline.Keeps t op (e :: l) (do
      let generation ← put .generation
      checkAuthenticationGeneration (g generation) generation
      f generation) Q := by
  simp only [put, Prog.perform_bind]
  refine held_call hg fun generation s s' hs hx => ⟨trivial, ?_⟩
  obtain ⟨hgs, rfl, rfl⟩ := App.exec_generation.mp hx
  unfold checkAuthenticationGeneration
  by_cases hexp : g s'.generation = s'.generation
  · rw [if_neg (by simpa using hexp)]
    simp only [put, Prog.perform_bind, Prog.call_bind]
    refine held_call hgs fun foreground s₁ s₁' hs₁ hx₁ => ⟨trivial, ?_⟩
    obtain ⟨rfl, rfl⟩ := App.exec_isForeground.mp hx₁
    have hgen : s₁'.generation = s'.generation := hs₁.generation
    by_cases hfg : s₁'.foreground = true
    · rw [if_pos hfg]
      have hfg' : s'.foreground = true := hs₁.foreground.symm.trans hfg
      have hk := h ⟨t, .generation, s'.generation, s', s'⟩
        ⟨t, .isForeground, s₁'.foreground, s₁', s₁'⟩ ⟨rfl, hgen.symm, hfg'⟩ rfl
        (by simpa only [hgen] using hexp) (hs₁.guard.trans hgs) hfg
      simp only [hgen] at hk
      exact hk
    · rw [if_neg hfg]
      exact Keeps.fail (hQ _ _ (closing_of_held hop (hs₁.guard.trans hgs)))
  · rw [if_pos (by simpa using hexp)]
    exact Keeps.fail (hQ _ _ (closing_of_held hop hgs))

/-- **Publishing**: what allowed it still holds after it. -/
theorem held_publish {α : Type} {c : Cell} {value : c.Val} {k : Unit → AppProg α}
    {Q : Except AppError α → List AppAct → Prop} (he : Publishing t op c e.after)
    (h : ∀ e', e'.command = .write c value → (∀ c', Publishing t op c' e.after →
      Publishing t op c' e'.after) → stateDiscipline.Keeps t op (e' :: e :: l) (k ()) Q) :
    stateDiscipline.Keeps t op (e :: l) (.call (.write c value) k) Q := by
  refine held_call he.guard fun r s s' hs hx => ?_
  have hstill : ∀ c', Publishing t op c' e.after → Publishing t op c' s := by
    rintro c' ⟨guard, token, foreground, replacement⟩
    refine ⟨hs.guard.trans guard, by rw [hs.generation]; exact token,
      hs.foreground.trans foreground, fun hc => ?_⟩
    rw [hs.generation, hs.replacement]
    exact replacement hc
  refine ⟨fun _ => ⟨hs.guard.trans he.guard, .inr (hstill c he)⟩, h _ rfl fun c' hc' => ?_⟩
  obtain rfl := App.exec_write.mp hx
  have hp := hstill c' hc'
  exact ⟨hp.guard, hp.token, hp.foreground, hp.replacement⟩

/-- Publishing the current instant. -/
theorem writeNow_keeps {α : Type} {c : Cell} {value : Nat → c.Val} {f : Unit → AppProg α}
    {Q : Except AppError α → List AppAct → Prop} (he : Publishing t op c e.after)
    (h : ∀ e₁ e₂, e₁.command = .now → (∃ now, e₂.command = .write c (value now)) →
      (∀ c', Publishing t op c' e.after → Publishing t op c' e₂.after) →
      stateDiscipline.Keeps t op (e₂ :: e₁ :: e :: l) (f ()) Q) :
    stateDiscipline.Keeps t op (e :: l) (writeNow c value >>= f) Q := by
  simp only [writeNow, put, Prog.perform_bind, Prog.call_bind]
  refine held_call he.guard fun now s s' hs hx => ⟨trivial, ?_⟩
  obtain ⟨-, rfl⟩ := App.exec_now.mp hx
  have hstill : ∀ c', Publishing t op c' e.after → Publishing t op c' s' := by
    rintro c' ⟨guard, token, foreground, replacement⟩
    refine ⟨hs.guard.trans guard, by rw [hs.generation]; exact token,
      hs.foreground.trans foreground, fun hc => ?_⟩
    rw [hs.generation, hs.replacement]
    exact replacement hc
  refine held_publish (e := ⟨t, .now, now, s', s'⟩) (hstill c he) fun e₂ hc₂ hp₂ => ?_
  exact h _ e₂ rfl ⟨now, hc₂⟩ fun c' hc' => hp₂ c' (hstill c' hc')

omit [Crypto] in
/-- An operation that ends with an error, and clears nothing. -/
theorem Ends.of_error {e : AppError} (hop : op.clears = false) : Ends op l (.error e) :=
  ⟨nofun, nofun, fun h => absurd h (by simp [hop]), nofun⟩

omit [Crypto] in
/-- What was done stays done while the lock is given back. -/
theorem Opened.cons (h : Opened op l) : Opened op (e :: l) := by
  intro expected secrets hop
  obtain ⟨l₁, b, l₂, rfl, hrest⟩ := h expected secrets hop
  exact ⟨e :: l₁, b, l₂, rfl, hrest⟩

/-- An operation that returns no token. -/
theorem plain_keeps {α : Type} {p : AppProg α} {out : α → StateOut}
    (h₁ : ∀ a token, out a ≠ .token token) (h₂ : ∀ a token, out a ≠ .replacement token)
    (hp : ∀ s s', s'.generationGuard = some t →
      stateDiscipline.Keeps t op [⟨t, .lockGeneration, (), s, s'⟩] p fun x l =>
        Closing t op l ∧ ∀ a, x = .ok a → Opened op l) :
    stateDiscipline.Keeps t op [] (withGeneration p >>= fun a => pure (out a))
      fun x l => stateDiscipline.ends t op l x := by
  refine Keeps.bind (M := fun x l => (op.clears = true → ∃ u l', l = u :: l' ∧
      u.command = .unlockGeneration ∧ ∃ b ∈ l', b.command = .bumpGeneration) ∧
        ∀ a, x = .ok a → Opened op l) ?_ (fun a l h => Keeps.pure ?_) fun e l h => ?_
  · refine withGeneration_keeps fun s s' hg => (hp s s' hg).mono ?_
    rintro x l ⟨hclosing, hopened⟩
    refine ⟨hclosing, fun u hu => ⟨fun hop => ⟨u, l, rfl, hu, ?_⟩, fun a ha => (hopened a ha).cons⟩⟩
    obtain ⟨e, l', rfl, -, hclear⟩ := hclosing
    exact (hclear hop).2
  · exact ⟨fun token h => absurd (Except.ok.inj h) (h₁ a token),
      fun token h => absurd (Except.ok.inj h) (h₂ a token), h.1, fun _ _ => h.2 a rfl⟩
  · exact ⟨nofun, nofun, h.1, nofun⟩

/-- An operation that returns no token, and opens no session. -/
theorem quiet_keeps {α : Type} {p : AppProg α} {out : α → StateOut}
    (h₁ : ∀ a token, out a ≠ .token token) (h₂ : ∀ a token, out a ≠ .replacement token)
    (hop : ∀ expected secrets, op ≠ .completeUnlock expected secrets)
    (hp : ∀ s s', s'.generationGuard = some t →
      stateDiscipline.Keeps t op [⟨t, .lockGeneration, (), s, s'⟩] p fun _ l => Closing t op l) :
    stateDiscipline.Keeps t op [] (withGeneration p >>= fun a => pure (out a))
      fun x l => stateDiscipline.ends t op l x :=
  plain_keeps h₁ h₂ fun s s' hg => (hp s s' hg).mono fun _ _ h =>
    ⟨h, fun _ _ expected secrets heq => absurd heq (hop expected secrets)⟩

/-- An operation keeps the discipline. -/
abbrev KeepsState (t : Nat) (op : StateOp) : Prop :=
  stateDiscipline.Keeps t op [] op.program fun x l => stateDiscipline.ends t op l x

/-- `lock`. -/
theorem keepsState_lock : KeepsState t .lock :=
  quiet_keeps (by simp) (by simp) nofun fun s s' hg => clearSession_keeps hg (by simp)

/-- `set_foreground`. -/
theorem keepsState_setForeground (foreground : Bool) :
    KeepsState t (.setForeground foreground) := by
  refine quiet_keeps (by simp) (by simp) nofun fun s s' hg => ?_
  simp only [put, Prog.perform_bind]
  refine held_call hg fun _ s₁ s₁' hs hx => ⟨hs.guard.trans hg, ?_⟩
  obtain rfl := App.exec_storeForeground.mp hx
  cases foreground with
  | true => exact Keeps.pure (closing_of_held rfl (hs.guard.trans hg))
  | false => exact clearSession_keeps (hs.guard.trans hg) (by simp)

/-- `authentication_generation`: the token is one that was issued. -/
theorem keepsState_authenticationGeneration : KeepsState t .authenticationGeneration := by
  refine Keeps.bind (M := fun x l => ∀ token, x = .ok token → ∃ i ∈ l, Issues token i)
    (withGeneration_keeps fun s s' hg => ?_)
    (fun token l h => Keeps.pure ⟨?_, by simp, nofun, fun _ _ => nofun⟩)
    fun _ _ _ => Ends.of_error rfl
  · refine checked_keeps (g := id) rfl hg (fun x l h => ⟨h, by simp⟩) ?_
    intro i e' hi _ _ hg' _
    refine Keeps.pure ⟨closing_of_held rfl hg', fun e'' _ token ht => ⟨i, by simp, ?_⟩⟩
    exact Except.ok.inj ht ▸ hi
  · rintro _ ⟨⟩
    exact ⟨rfl, h token rfl⟩

/-- `mark_approval_key_authenticated`. -/
theorem keepsState_markApprovalKeyAuthenticated (expected : Nat) :
    KeepsState t (.markApprovalKeyAuthenticated expected) := by
  refine quiet_keeps (by simp) (by simp) nofun fun s s' hg => ?_
  refine checked_keeps (f := fun _ => writeNow .approvalKeyAuthenticatedAt some) rfl hg
    (fun _ _ h => h) ?_
  intro i e' _ _ hexp hg' hfg
  have hp : Publishing t (.markApprovalKeyAuthenticated expected)
      .approvalKeyAuthenticatedAt e'.after := ⟨hg', congrArg some hexp, hfg, nofun⟩
  refine writeNow_keeps (f := pure) hp fun e₁ e₂ _ _ h₂ => ?_
  exact Keeps.pure (closing_of_held rfl (h₂ _ hp).guard)

/-- **`complete_unlock`**: what is published is published before the
generation is added to. -/
theorem keepsState_completeUnlock (expected : Nat) (secrets : AppSecrets) :
    KeepsState t (.completeUnlock expected secrets) := by
  refine plain_keeps (by simp) (by simp) fun s s' hg => ?_
  refine checked_keeps (f := fun _ => do
    put (.write .secrets (some secrets))
    writeNow .unlockedAt some
    put .bumpGeneration) rfl hg (fun _ _ h => ⟨h, nofun⟩) ?_
  intro i e' hi hfgc hexp hg' hfg
  have hp : ∀ c, c ≠ .pairingReplacementAuthorizedAt →
      Publishing t (.completeUnlock expected secrets) c e'.after :=
    fun c hc => ⟨hg', congrArg some hexp, hfg, fun h => absurd h hc⟩
  simp only [put, Prog.perform_bind]
  refine held_publish (hp .secrets nofun) fun e₁ hc₁ h₁ => ?_
  have hp₁ := h₁ .unlockedAt (hp .unlockedAt nofun)
  refine writeNow_keeps hp₁ fun e₂ e₃ hc₂ hc₃ h₃ => ?_
  obtain ⟨now, hc₃⟩ := hc₃
  have hg₃ := (h₃ .unlockedAt hp₁).guard
  refine held_call hg₃ fun r s₄ s₄' hs₄ hx₄ => ⟨⟨hs₄.guard.trans hg₃, ?_⟩, Keeps.ret ?_⟩
  · simp [hc₁, hc₂, hc₃, hfgc, hi.1]
  · obtain ⟨-, -, rfl⟩ := App.exec_bumpGeneration.mp hx₄
    refine ⟨closing_of_held rfl (hs₄.guard.trans hg₃), ?_⟩
    rintro a - expected' secrets' hop
    obtain ⟨-, rfl⟩ := StateOp.completeUnlock.inj hop
    exact ⟨[], _, _, rfl, rfl, e₁, by simp, hc₁⟩

/-- `begin_pairing_replacement`: the token is of the replacement that was
begun. -/
theorem keepsState_beginPairingReplacement : KeepsState t .beginPairingReplacement := by
  refine Keeps.bind (M := fun x l => ∀ token, x = .ok token → (∃ i ∈ l, Issues token.1 i) ∧
      ∃ j ∈ l, Begins token j)
    (withGeneration_keeps fun s s' hg => ?_)
    (fun token l h => Keeps.pure ⟨by simp, ?_, nofun, fun _ _ => nofun⟩)
    fun _ _ _ => Ends.of_error rfl
  · refine checked_keeps (g := id) (f := fun generation => do
      put (.write .pairingReplacementAuthorizedAt none)
      let replacement ← put .bumpReplacement
      pure (generation, replacement)) rfl hg (fun x l h => ⟨h, by simp⟩) ?_
    intro i e' hi hfgc _ hg' _
    simp only [put, Prog.perform_bind]
    refine held_call hg' fun _ s₁ s₁' hs₁ hx₁ => ⟨fun _ => ⟨hs₁.guard.trans hg', .inl rfl⟩, ?_⟩
    obtain rfl := App.exec_write.mp hx₁
    refine held_call (hs₁.guard.trans hg') fun r s₂ s₂' hs₂ hx₂ =>
      ⟨⟨hs₂.guard.trans (hs₁.guard.trans hg'), .inl rfl, by simp [hfgc, hi.1]⟩, Keeps.pure ?_⟩
    obtain ⟨rfl, rfl⟩ := App.exec_bumpReplacement.mp hx₂
    refine ⟨closing_of_held rfl (hs₂.guard.trans (hs₁.guard.trans hg')),
      fun e'' _ token ht => ?_⟩
    obtain rfl := Except.ok.inj ht
    refine ⟨⟨i, by simp, hi⟩, _, List.mem_cons_of_mem _ List.mem_cons_self, rfl, ?_, rfl⟩
    exact hs₂.generation.trans hs₁.generation
  · rintro _ ⟨⟩
    exact ⟨rfl, h token rfl⟩

/-- `complete_pairing_replacement`. -/
theorem keepsState_completePairingReplacement (expected : Nat × Nat) :
    KeepsState t (.completePairingReplacement expected) := by
  refine quiet_keeps (by simp) (by simp) nofun fun s s' hg => ?_
  refine checked_keeps (f := fun _ => do
    let replacement ← put .replacement
    if replacement ≠ expected.2 then .fail .sessionExpired
    else writeNow .pairingReplacementAuthorizedAt some) rfl hg (fun _ _ h => h) ?_
  intro i e' hi hfgc hexp hg' hfg
  simp only [put, Prog.perform_bind]
  refine held_call hg' fun replacement s₁ s₁' hs₁ hx₁ => ⟨trivial, ?_⟩
  obtain ⟨rfl, rfl⟩ := App.exec_replacement.mp hx₁
  have hg₁ := hs₁.guard.trans hg'
  by_cases hr : s₁'.replacement = expected.2
  · rw [if_neg (by simpa using hr)]
    have hgen : expected.1 = s₁'.generation := hexp.trans hs₁.generation.symm
    have hp : Publishing t (.completePairingReplacement expected)
        .pairingReplacementAuthorizedAt s₁' :=
      ⟨hg₁, congrArg some hgen, hs₁.foreground.trans hfg, fun _ =>
        congrArg StateOp.completePairingReplacement (Prod.ext hgen hr.symm)⟩
    refine writeNow_keeps (e := ⟨t, .replacement, s₁'.replacement, s₁', s₁'⟩) (f := pure) hp
      fun e₂ e₃ _ _ h₃ => ?_
    exact Keeps.pure (closing_of_held rfl (h₃ _ hp).guard)
  · rw [if_pos (by simpa using hr)]
    exact Keeps.fail (closing_of_held rfl hg₁)

/-- `cancel_pairing_replacement`. -/
theorem keepsState_cancelPairingReplacement : KeepsState t .cancelPairingReplacement := by
  refine quiet_keeps (by simp) (by simp) nofun fun s s' hg => ?_
  simp only [put, Prog.perform_bind]
  refine held_call hg fun _ s₁ s₁' hs₁ hx₁ => ⟨⟨hs₁.guard.trans hg, .inr rfl, by simp⟩, ?_⟩
  obtain ⟨-, rfl⟩ := App.exec_bumpReplacement.mp hx₁
  have hg₁ := hs₁.guard.trans hg
  refine held_call hg₁ fun _ s₂ s₂' hs₂ hx₂ => ⟨fun _ => ⟨hs₂.guard.trans hg₁, .inl rfl⟩, ?_⟩
  obtain rfl := App.exec_write.mp hx₂
  have hg₂ := hs₂.guard.trans hg₁
  refine held_call hg₂ fun _ s₃ s₃' hs₃ hx₃ =>
    ⟨fun h => by simp [sessionCells] at h, Keeps.ret ?_⟩
  obtain rfl := App.exec_write.mp hx₃
  exact closing_of_held rfl (hs₃.guard.trans hg₂)

/-- **Every operation keeps the discipline.** -/
theorem operation_keeps (op : StateOp) : KeepsState t op := by
  cases op with
  | lock => exact keepsState_lock
  | setForeground foreground => exact keepsState_setForeground foreground
  | authenticationGeneration => exact keepsState_authenticationGeneration
  | markApprovalKeyAuthenticated expected => exact keepsState_markApprovalKeyAuthenticated expected
  | completeUnlock expected secrets => exact keepsState_completeUnlock expected secrets
  | beginPairingReplacement => exact keepsState_beginPairingReplacement
  | completePairingReplacement expected => exact keepsState_completePairingReplacement expected
  | cancelPairingReplacement => exact keepsState_cancelPairingReplacement

/-- **What one task does, the others may count on.** -/
theorem guarded_of_may {u : Nat} {c : AppCmd} {r : c.Reply} {s s' : App} (htu : t ≠ u)
    (hx : App.Exec t c s r s') (hm : stateMay t op l ⟨t, c, r, s, s'⟩)
    (hu : s.generationGuard = some u) : Guarded s s' := by
  have hne : s.generationGuard ≠ some t := fun h => htu (Option.some.inj (h.symm.trans hu))
  have hf := hx.framed
  refine ⟨hf.guard ?_ ?_, hf.generation ?_, hf.foreground ?_, hf.replacement ?_,
    fun cell hcell => hf.cells cell ?_ ?_⟩
  · rintro rfl
    simp [(App.exec_lockGeneration.mp hx).1] at hu
  · rintro rfl
    exact hne (App.exec_unlockGeneration.mp hx).1
  · rintro rfl
    exact hne hm.1
  · rintro foreground rfl
    exact hne hm
  · rintro rfl
    exact hne hm.1
  · rintro value rfl
    exact hne (hm hcell).1
  · rintro rfl
    exact hm

theorem stateDiscipline_valid : (stateDiscipline).Valid where
  keeps _ op := operation_keeps op
  put htu hx hm := guarded_of_may htu hx hm
  start hs _ := by
    rw [hs.2]
    exact ⟨rfl, rfl, rfl, rfl, fun _ _ => rfl⟩
  env h _ := by
    cases h with
    | bind => exact ⟨rfl, rfl, rfl, rfl, fun c hc => App.withCell_cells _ _ _ _ (by
        rintro rfl
        simp [sessionCells] at hc)⟩
    | _ => exact ⟨rfl, rfl, rfl, rfl, fun _ _ => rfl⟩

/-! ## What the counters count -/

/-- Whether the act adds to the session generation. -/
def addsGeneration (e : AppAct) : Bool :=
  match e.command with
  | .bumpGeneration => true
  | _ => false

/-- Whether the act adds to the replacement generation. -/
def addsReplacement (e : AppAct) : Bool :=
  match e.command with
  | .bumpReplacement => true
  | _ => false

/-- **The counters after the acts `l`.** -/
structure Counts (l : List AppAct) (s : App) : Prop where
  generation : s.generation = min (l.countP addsGeneration) u64Max
  replacement : s.replacement = l.countP addsReplacement % 2 ^ 64

theorem Counts.put {c : AppCmd} {r : c.Reply} {s s' : App} (h : Counts l s)
    (hx : App.Exec t c s r s') : Counts (⟨t, c, r, s, s'⟩ :: l) s' := by
  have hf := hx.framed
  refine ⟨?_, ?_⟩
  · by_cases hc : c = .bumpGeneration
    · subst hc
      obtain ⟨-, -, rfl⟩ := App.exec_bumpGeneration.mp hx
      rw [List.countP_cons_of_pos rfl]
      show saturatingAdd s.generation 1 = _
      rw [h.generation, saturatingAdd]
      omega
    · have hno : addsGeneration (⟨t, c, r, s, s'⟩ : AppAct) = false := by
        cases c <;> first | rfl | exact absurd rfl hc
      rw [hf.generation hc, h.generation, List.countP_cons_of_neg (by simp [hno])]
  · by_cases hc : c = .bumpReplacement
    · subst hc
      obtain ⟨-, rfl⟩ := App.exec_bumpReplacement.mp hx
      rw [List.countP_cons_of_pos rfl]
      show wrappingAdd s.replacement 1 = _
      rw [h.replacement, wrappingAdd, Nat.mod_add_mod]
    · have hno : addsReplacement (⟨t, c, r, s, s'⟩ : AppAct) = false := by
        cases c <;> first | rfl | exact absurd rfl hc
      rw [hf.replacement hc, h.replacement, List.countP_cons_of_neg (by simp [hno])]

/-! ## What holds of every log -/

/-- **The act that issued a token**, for an operation that returns one. -/
def IssuedBy (w : StateLog) (token : Nat) (i : AppAct) : Prop :=
  (w.ops i.thread = some .authenticationGeneration ∨
    w.ops i.thread = some .beginPairingReplacement) ∧ Issues token i

/-- The act that began a replacement. -/
def BegunBy (w : StateLog) (token : Nat × Nat) (j : AppAct) : Prop :=
  w.ops j.thread = some .beginPairingReplacement ∧ Begins token j

/-- **What an operation is given was issued** by one of the acts `l`. -/
structure Given (w : StateLog) (op : StateOp) (l : List AppAct) : Prop where
  token : ∀ token, op.given = some token → ∃ i ∈ l, IssuedBy w token i
  replacement : ∀ token, op = .completePairingReplacement token → ∃ j ∈ l, BegunBy w token j

omit [Crypto] in
theorem Given.mono {w w' : StateLog} {l' : List AppAct} (h : Given w op l)
    (hops : ∀ t op, w.ops t = some op → w'.ops t = some op) (hl : ∀ e ∈ l, e ∈ l') :
    Given w' op l' where
  token token ht := by
    obtain ⟨i, hi, hop, his⟩ := h.token token ht
    exact ⟨i, hl i hi, hop.imp (hops _ _) (hops _ _), his⟩
  replacement token ht := by
    obtain ⟨j, hj, hop, hjs⟩ := h.replacement token ht
    exact ⟨j, hl j hj, hops _ _ hop, hjs⟩

/-- **The session is cleared** by the act that adds to the generation. -/
def ClearsSession (w : StateLog) (b : AppAct) : Prop :=
  addsGeneration b = true ∧ ∃ op, w.ops b.thread = some op ∧ op.clears = true

/-- **Since it was cleared, the session is empty** but for what was written
after, once the lock is given back. -/
def EmptySince (w : StateLog) (later : List AppAct) (b : AppAct) : Prop :=
  w.state.generationGuard = some b.thread ∨ ∀ c ∈ sessionCells,
    w.state.cells c = c.initial ∨ ∃ l₁ e l₂, later = l₁ ++ e :: l₂ ∧ Writes c e

/-- **The invariant of the log.** -/
structure StateInv (w : StateLog) : Prop where
  followed : stateDiscipline.Followed w
  concluded : stateDiscipline.Concluded w
  counts : Counts w.acts w.state
  countsThen : ∀ e earlier, w.Happened e earlier → Counts earlier e.before
  given : ∀ t op, w.ops t = some op → Given w op w.acts
  givenThen : ∀ e earlier, w.Happened e earlier → ∀ op, w.ops e.thread = some op →
    Given w op earlier
  cleared : ∀ later b earlier, w.acts = later ++ b :: earlier → ClearsSession w b →
    EmptySince w later b
  holder : ∀ t, w.state.generationGuard = some t →
    ∃ e l, w.own t = e :: l ∧ e.command ≠ .unlockGeneration

/-- A log whose acts and operations stay, and whose session does. -/
theorem StateInv.stay {w w' : StateLog} (h : StateInv w) (hf : stateDiscipline.Followed w')
    (hc : stateDiscipline.Concluded w') (hops : w'.ops = w.ops) (hacts : w'.acts = w.acts)
    (hs : Guarded w.state w'.state) : StateInv w' where
  followed := hf
  concluded := hc
  counts := by
    rw [hacts]
    exact ⟨hs.generation.trans h.counts.generation, hs.replacement.trans h.counts.replacement⟩
  countsThen e earlier he := by
    rw [Log.Happened, hacts] at he
    exact h.countsThen e earlier he
  given t op ht := by
    rw [hops] at ht
    rw [hacts]
    exact (h.given t op ht).mono (fun _ _ hu => by rwa [hops]) fun _ he => he
  givenThen e earlier he op ht := by
    rw [Log.Happened, hacts] at he
    rw [hops] at ht
    exact (h.givenThen e earlier he op ht).mono (fun _ _ hu => by rwa [hops]) fun _ he => he
  cleared later b earlier hb hclear := by
    rw [hacts] at hb
    rw [ClearsSession, hops] at hclear
    refine (h.cleared later b earlier hb hclear).imp hs.guard.trans fun hcells c hc => ?_
    rw [hs.cells c hc]
    exact hcells c hc
  holder t ht := by
    rw [Log.own, hacts]
    exact h.holder t (hs.guard.symm.trans ht)

/-- What an act leaves in a field: what was there, nothing, or what it
writes there. -/
theorem cell_of_may {c : AppCmd} {r : c.Reply} {s s' : App} (hx : App.Exec t c s r s')
    (hm : stateMay t op l ⟨t, c, r, s, s'⟩) (cell : Cell) :
    s'.cells cell = s.cells cell ∨ s'.cells cell = cell.initial ∨
      Writes cell (⟨t, c, r, s, s'⟩ : AppAct) := by
  by_cases hw : ∃ value, c = .write cell value
  · obtain ⟨value, rfl⟩ := hw
    obtain rfl := App.exec_write.mp hx
    by_cases hv : value = cell.initial
    · exact .inr (.inl (by rw [App.withCell_cells_self, hv]))
    · exact .inr (.inr ⟨value, hv, rfl⟩)
  · refine .inl (hx.framed.cells cell (fun value hc => hw ⟨value, hc⟩) ?_)
    rintro rfl
    exact hm

/-- **The session stays empty** after one more act, but for what is
written. -/
theorem EmptySince.put {w : StateLog} {c : AppCmd} {r : c.Reply} {s' : App}
    {later : List AppAct} {b : AppAct} (h : EmptySince w later b) (hb : b ∈ w.acts)
    (hclear : ClearsSession w b) (hop : w.ops t = some op)
    (hx : App.Exec t c w.state r s') (hm : stateMay t op (w.own t) ⟨t, c, r, w.state, s'⟩) :
    EmptySince (w.put t c r s') (⟨t, c, r, w.state, s'⟩ :: later) b := by
  rcases h with hguard | hcells
  · by_cases hc : c = .unlockGeneration
    · -- the clearing is over: it has left the fields empty
      subst hc
      obtain ⟨hg, rfl⟩ := App.exec_unlockGeneration.mp hx
      have hbt : b.thread = t := Option.some.inj (hguard.symm.trans hg)
      obtain ⟨hadds, op', hop', hclears⟩ := hclear
      obtain rfl : op' = op := Option.some.inj (hop'.symm.trans (hbt ▸ hop))
      refine .inr fun cell hcell => .inl (hm ⟨b, ?_, ?_⟩ hclears cell hcell)
      · exact List.mem_filter.mpr ⟨hb, by simpa using hbt⟩
      · unfold addsGeneration at hadds
        split at hadds
        · assumption
        · cases hadds
    · refine .inl ((hx.framed.guard ?_ hc).trans hguard)
      rintro rfl
      simp [(App.exec_lockGeneration.mp hx).1] at hguard
  · refine .inr fun cell hcell => ?_
    rcases cell_of_may hx hm cell with hsame | hinit | hwrites
    · rcases hcells cell hcell with hcell' | ⟨l₁, e, l₂, rfl, he⟩
      · exact .inl (hsame.trans hcell')
      · exact .inr ⟨⟨t, c, r, w.state, s'⟩ :: l₁, e, l₂, rfl, he⟩
    · exact .inl hinit
    · exact .inr ⟨[], _, later, rfl, hwrites⟩

/-- **What may be given was issued** by an act of the operation that has
returned it. -/
theorem given_of_mayStart {w : StateLog} (h : StateInv w) (hs : op.MayStart w) :
    Given w op w.acts := by
  have hown : ∀ {u : Nat} {i : AppAct}, i ∈ w.own u → i ∈ w.acts ∧ i.thread = u := by
    intro u i hi
    obtain ⟨h₁, h₂⟩ := List.mem_filter.mp hi
    exact ⟨h₁, by simpa using h₂⟩
  have hreplacement : ∀ {u : Nat} {token : Nat × Nat},
      w.ended u = some (.done (.ok (.replacement token))) →
      (∃ i ∈ w.acts, IssuedBy w token.1 i) ∧ ∃ j ∈ w.acts, BegunBy w token j := by
    intro u token hu
    obtain ⟨op', hop', hends⟩ := h.concluded u _ hu
    obtain ⟨rfl, ⟨i, hi, his⟩, j, hj, hjs⟩ := hends.replacement token rfl
    obtain ⟨hi, hiu⟩ := hown hi
    obtain ⟨hj, hju⟩ := hown hj
    exact ⟨⟨i, hi, .inr (by rwa [hiu]), his⟩, j, hj, by rwa [hju], hjs⟩
  have htoken : ∀ token, Issued w token → ∃ i ∈ w.acts, IssuedBy w token i := by
    rintro token ⟨u, out, hu, rfl | ⟨replacement, rfl⟩⟩
    · obtain ⟨op', hop', hends⟩ := h.concluded u _ hu
      obtain ⟨rfl, i, hi, his⟩ := hends.token token rfl
      obtain ⟨hi, hiu⟩ := hown hi
      exact ⟨i, hi, .inl (by rwa [hiu]), his⟩
    · exact (hreplacement hu).1
  cases op with
  | markApprovalKeyAuthenticated expected =>
    exact ⟨by rintro _ ⟨⟩; exact htoken _ hs, by simp⟩
  | completeUnlock expected secrets =>
    exact ⟨by rintro _ ⟨⟩; exact htoken _ hs, by simp⟩
  | completePairingReplacement expected =>
    obtain ⟨u, hu⟩ := hs
    exact ⟨by rintro _ ⟨⟩; exact (hreplacement hu).1, by rintro _ ⟨⟩; exact (hreplacement hu).2⟩
  | _ => exact ⟨by simp [StateOp.given], by simp⟩

/-- **A move keeps the invariant.** -/
theorem StateInv.move {w w' : StateLog} (h : StateInv w) (hm : stateDiscipline.Move w w') :
    StateInv w' := by
  have hf := h.followed.move hm
  have hc := h.concluded.move hm
  cases hm with
  | @put t op c r s' hop hrun hx hmay =>
    refine ⟨hf, hc, h.counts.put hx, ?_, ?_, ?_, ?_, ?_⟩
    · intro e earlier he
      rcases happened_put he with ⟨rfl, rfl⟩ | he
      · exact h.counts
      · exact h.countsThen e earlier he
    · intro u op' hu
      exact (h.given u op' hu).mono (fun _ _ hv => hv) fun e he => List.mem_cons_of_mem _ he
    · intro e earlier he op' hop'
      rcases happened_put he with ⟨rfl, rfl⟩ | he
      · exact (h.given t op' hop').mono (fun _ _ hv => hv) fun _ he => he
      · exact (h.givenThen e earlier he op' hop').mono (fun _ _ hv => hv) fun _ he => he
    · intro later b earlier hb hclear
      cases later with
      | nil =>
        obtain ⟨rfl, -⟩ := List.cons.inj hb
        obtain ⟨hadds, -⟩ := hclear
        have hc : c = .bumpGeneration := by
          unfold addsGeneration at hadds
          split at hadds
          · assumption
          · cases hadds
        subst hc
        obtain ⟨hg, -, rfl⟩ := App.exec_bumpGeneration.mp hx
        exact .inl hg
      | cons e later =>
        obtain ⟨rfl, hb'⟩ := List.cons.inj
          (show ⟨t, c, r, w.state, s'⟩ :: w.acts = e :: (later ++ b :: earlier) from hb)
        exact (h.cleared later b earlier hb' hclear).put (by simp [hb']) hclear hop hx hmay
    · intro u hu
      have hunlock : c ≠ .unlockGeneration := by
        rintro rfl
        obtain ⟨-, rfl⟩ := App.exec_unlockGeneration.mp hx
        cases hu
      by_cases htu : t = u
      · subst htu
        exact ⟨_, _, Log.own_put_self _ _ _ _ _, hunlock⟩
      · rw [Log.own_put_of_ne _ _ _ _ htu]
        refine h.holder u ((hx.framed.guard ?_ hunlock).symm.trans hu)
        rintro rfl
        obtain ⟨-, rfl⟩ := App.exec_lockGeneration.mp hx
        exact htu (Option.some.inj hu)
  | finish => exact h.stay hf hc rfl rfl ⟨rfl, rfl, rfl, rfl, fun _ _ => rfl⟩
  | @start t op s' ht hown hend hs =>
    obtain ⟨hs, rfl⟩ := hs
    have hops : ∀ u op', w.ops u = some op' → (w.begin t op w.state).ops u = some op' := by
      intro u op' hu
      have hne : u ≠ t := by
        rintro rfl
        simp [ht] at hu
      simpa [hne] using hu
    have hacts : ∀ e ∈ w.acts, e.thread ≠ t := by
      rintro e he rfl
      have hmem : e ∈ w.own e.thread := List.mem_filter.mpr ⟨he, by simp⟩
      simp [hown] at hmem
    refine ⟨hf, hc, h.counts, h.countsThen, ?_, ?_, ?_, h.holder⟩
    · intro u op' hu
      by_cases hut : u = t
      · subst hut
        obtain rfl : op = op' := by simpa using hu
        exact (given_of_mayStart h hs).mono hops fun _ he => he
      · exact (h.given u op' (by simpa [hut] using hu)).mono hops fun _ he => he
    · intro e earlier he op' hop'
      obtain ⟨later, hl⟩ := he
      have hne := hacts e (hl ▸ by simp)
      exact (h.givenThen e earlier ⟨later, hl⟩ op' (by simpa [hne] using hop')).mono hops
        fun _ he => he
    · intro later b earlier hb ⟨hadds, op', hop', hclears⟩
      have hne := hacts b ((show w.acts = later ++ b :: earlier from hb) ▸ by simp)
      exact h.cleared later b earlier hb ⟨hadds, op', by simpa [hne] using hop', hclears⟩
  | @env s' henv =>
    refine h.stay hf hc rfl rfl ?_
    cases henv with
    | bind => exact ⟨rfl, rfl, rfl, rfl, fun c hc => App.withCell_cells _ _ _ _ (by
        rintro rfl
        simp [sessionCells] at hc)⟩
    | _ => exact ⟨rfl, rfl, rfl, rfl, fun _ _ => rfl⟩
  | crash h => exact absurd h id

/-! ## Stale tokens publish nothing -/

/-- **The act publishes** a field, for an operation that was given a token. -/
def Publishes (w : StateLog) (c : Cell) (token : Nat) (e : AppAct) : Prop :=
  c ∈ sessionCells ∧ Writes c e ∧ ∃ op, w.ops e.thread = some op ∧ op.given = some token

omit [Crypto] in
/-- Two numbers of acts that agree where the counter does not saturate. -/
theorem none_added {f : AppAct → Bool} {l₁ l₂ : List AppAct} {e : AppAct}
    (h : (l₁ ++ e :: l₂).countP f ≤ l₂.countP f) : ∀ b ∈ l₁, f b = false := by
  rw [List.countP_append] at h
  have hle : l₂.countP f ≤ (e :: l₂).countP f := (List.sublist_cons_self e l₂).countP_le
  have hzero : l₁.countP f = 0 := by omega
  simpa using List.countP_eq_zero.mp hzero

/-- **What locking leaves of the session.** -/
structure LockingInvalidates (w : StateLog) : Prop where
  /-- Once the session was cleared, a field is empty until it is published
  under a token that was issued since. -/
  cleared : ∀ later b earlier, w.acts = later ++ b :: earlier → ClearsSession w b →
    w.state.generationGuard ≠ some b.thread → ∀ c ∈ sessionCells,
    w.state.cells c ≠ c.initial →
    ∃ l₁ e l₂ token, later = l₁ ++ e :: l₂ ∧ Publishes w c token e ∧
      ∃ i ∈ l₂, IssuedBy w token i
  /-- The authorization is published by the replacement begun last, none
  having been cancelled since, in the generation it was begun in. -/
  replacement : ∀ later e earlier token, w.acts = later ++ e :: earlier →
    Publishes w .pairingReplacementAuthorizedAt token e →
    ∃ l₁ j l₂, earlier = l₁ ++ j :: l₂ ∧ BegunBy w (token, j.after.replacement) j ∧
      w.ops e.thread = some (.completePairingReplacement (token, j.after.replacement)) ∧
      e.before.generation = token ∧ ∀ b ∈ l₁, addsReplacement b = false
  /-- Whatever is published, its token was issued, and neither has the
  session been cleared nor an unlock succeeded since. -/
  stale : ∀ later e earlier c token, w.acts = later ++ e :: earlier → Publishes w c token e →
    (∃ i ∈ earlier, IssuedBy w token i) ∧
    ∀ l₁ i l₂, earlier = l₁ ++ i :: l₂ → IssuedBy w token i →
      ∀ b ∈ l₁, addsGeneration b = false
  /-- A lock or a move to the background that has ended has cleared the session
  itself: the fields were empty when it gave the lock back, and it holds it no
  more. -/
  locked : ∀ t op x, w.ops t = some op → op.clears = true → w.ended t = some (.done x) →
    w.state.generationGuard ≠ some t ∧
    ∃ later u mid b earlier, w.acts = later ++ u :: (mid ++ b :: earlier) ∧
      u.thread = t ∧ u.command = .unlockGeneration ∧ b.thread = t ∧ ClearsSession w b ∧
      ∀ c ∈ sessionCells, u.before.cells c = c.initial
  /-- An unlock that has succeeded has published the secrets under its token, and
  added to the generation after that. -/
  unlocked : ∀ t expected secrets out, w.ops t = some (.completeUnlock expected secrets) →
    w.ended t = some (.done (.ok out)) →
    ∃ later b mid e earlier, w.acts = later ++ b :: (mid ++ e :: earlier) ∧
      b.thread = t ∧ addsGeneration b = true ∧ e.thread = t ∧
      e.command = .write .secrets (some secrets) ∧ Publishes w .secrets expected e

/-- Each task adds to a counter at most once. -/
theorem adds_le {p : stateThreads.Running} (hp : stateDiscipline.Kept p)
    (hf : stateDiscipline.Followed p.state) :
    p.state.acts.countP addsGeneration ≤ p.next ∧
      p.state.acts.countP addsReplacement ≤ p.next := by
  have hmem : ∀ {e b : AppAct} {earlier : List AppAct}, b ∈ earlier → b.thread = e.thread →
      b ∈ earlier.filter fun e' => e'.thread = e.thread :=
    fun hb hbe => List.mem_filter.mpr ⟨hb, by simpa using hbe⟩
  refine ⟨hp.count_le fun e earlier he hadds b hb hbe => ?_,
    hp.count_le fun e earlier he hadds b hb hbe => ?_⟩
  · obtain ⟨op, -, -, hm⟩ := hf e earlier he
    have hm : stateMay e.thread op _ e := hm
    unfold addsGeneration at hadds
    split at hadds
    · next hc =>
      rw [stateMay, hc] at hm
      have hne := hm.2 b (hmem hb hbe)
      unfold addsGeneration
      split
      · contradiction
      · rfl
    · cases hadds
  · obtain ⟨op, -, -, hm⟩ := hf e earlier he
    have hm : stateMay e.thread op _ e := hm
    unfold addsReplacement at hadds
    split at hadds
    · next hc =>
      rw [stateMay, hc] at hm
      have hne := hm.2.2 b (hmem hb hbe)
      unfold addsReplacement
      split
      · contradiction
      · rfl
    · cases hadds

/-- What an act that publishes was allowed by. -/
theorem StateInv.publishing {w : StateLog} (h : StateInv w) {e : AppAct}
    {earlier : List AppAct} (he : w.Happened e earlier) {c : Cell} {token : Nat}
    (hp : Publishes w c token e) : ∃ op, w.ops e.thread = some op ∧ op.given = some token ∧
      Publishing e.thread op c e.before ∧ e.before.generation = token := by
  obtain ⟨hc, ⟨value, hv, hcmd⟩, op, hop, htoken⟩ := hp
  obtain ⟨op', hop', -, hm⟩ := h.followed e earlier he
  obtain rfl : op = op' := Option.some.inj (hop.symm.trans hop')
  have hm : stateMay e.thread op _ e := hm
  rw [stateMay, hcmd] at hm
  have hpub := (hm hc).2.resolve_left hv
  exact ⟨op, hop, htoken, hpub, Option.some.inj (hpub.token.symm.trans htoken)⟩

omit [Crypto] in
/-- Two acts of a thread, one after the other, are so among the acts of all. -/
theorem own_one_after_other {w : StateLog} {later earlier : List AppAct} {a : AppAct}
    (h : w.own t = later ++ a :: earlier) (ha : e ∈ earlier) : ∃ l₁ l₂ l₃,
      w.acts = l₁ ++ a :: (l₂ ++ e :: l₃) ∧ a.thread = t ∧ e.thread = t ∧
        earlier = (l₂ ++ e :: l₃).filter fun b => b.thread = t := by
  obtain ⟨l₁, rest, hacts, hthread, -, hearlier⟩ := Log.own_split h
  obtain ⟨hmem, he⟩ := List.mem_filter.mp (hearlier.symm ▸ ha)
  obtain ⟨l₂, l₃, rfl⟩ := List.append_of_mem hmem
  exact ⟨l₁, l₂, l₃, hacts, hthread, of_decide_eq_true he, hearlier.symm⟩

/-- **A clearing that has ended is done.** -/
theorem StateInv.locked {w : StateLog} (h : StateInv w) {x : Except AppError StateOut}
    (hop : w.ops t = some op) (hclears : op.clears = true) (hend : w.ended t = some (.done x)) :
    w.state.generationGuard ≠ some t ∧
    ∃ later u mid b earlier, w.acts = later ++ u :: (mid ++ b :: earlier) ∧
      u.thread = t ∧ u.command = .unlockGeneration ∧ b.thread = t ∧ ClearsSession w b ∧
      ∀ c ∈ sessionCells, u.before.cells c = c.initial := by
  obtain ⟨op', hop', hends⟩ := h.concluded t x hend
  obtain rfl : op = op' := Option.some.inj (hop.symm.trans hop')
  have hends : Ends op (w.own t) x := hends
  obtain ⟨u, l', hown, hu, b, hb, hbump⟩ := hends.cleared hclears
  constructor
  · intro hguard
    -- its last act has given the lock back
    obtain ⟨e, l, hown', he⟩ := h.holder t hguard
    obtain ⟨rfl, -⟩ := List.cons.inj (hown.symm.trans hown')
    exact he hu
  · obtain ⟨later, mid, earlier, hacts, hut, hbt, hl'⟩ :=
      own_one_after_other (hown.trans (List.nil_append _).symm) hb
    have hclearing : ClearsSession w b :=
      ⟨by simp [addsGeneration, hbump], op, by rwa [hbt], hclears⟩
    refine ⟨later, u, mid, b, earlier, hacts, hut, hu, hbt, hclearing, ?_⟩
    obtain ⟨op', hop', -, hm⟩ := h.followed u _ ⟨later, hacts⟩
    rw [hut] at hop'
    obtain rfl : op = op' := Option.some.inj (hop.symm.trans hop')
    have hm : stateMay u.thread op _ u := hm
    rw [stateMay, hu] at hm
    exact hm ⟨b, List.mem_filter.mpr ⟨by simp, by simp [hbt, hut]⟩, hbump⟩ hclears

/-- **An unlock that has succeeded is done.** -/
theorem StateInv.unlocked {w : StateLog} (h : StateInv w) {expected : Nat} {secrets : AppSecrets}
    {out : StateOut} (hop : w.ops t = some (.completeUnlock expected secrets))
    (hend : w.ended t = some (.done (.ok out))) :
    ∃ later b mid e earlier, w.acts = later ++ b :: (mid ++ e :: earlier) ∧
      b.thread = t ∧ addsGeneration b = true ∧ e.thread = t ∧
      e.command = .write .secrets (some secrets) ∧ Publishes w .secrets expected e := by
  obtain ⟨op', hop', hends⟩ := h.concluded t _ hend
  obtain rfl : _ = op' := Option.some.inj (hop.symm.trans hop')
  have hends : Ends _ (w.own t) _ := hends
  obtain ⟨l₁, b, l₂, hown, hbump, e, he, hwrite⟩ := hends.opened out rfl expected secrets rfl
  obtain ⟨later, mid, earlier, hacts, hbt, het, -⟩ := own_one_after_other hown he
  exact ⟨later, b, mid, e, earlier, hacts, hbt, by simp [addsGeneration, hbump], het, hwrite,
    by simp [sessionCells], ⟨some secrets, Option.some_ne_none _, hwrite⟩, _, by rwa [het], rfl⟩

/-- **What is known holds in every run.** -/
theorem stateInv {store : Store} {now epoch : Nat} {clock : ClockSnapshot}
    {usedUuids : List Uuid} {p : stateThreads.Running}
    (hp : stateThreads.Reaches (App.boot store now epoch clock usedUuids) p) :
    StateInv p.state := by
  refine stateDiscipline_valid.invariant ?_ (fun h hm => h.move hm) hp
  refine ⟨fun _ _ ⟨_, h⟩ => by simp [Log.empty] at h, fun _ _ h => by simp [Log.empty] at h,
    ⟨rfl, rfl⟩, fun _ _ ⟨_, h⟩ => by simp [Log.empty] at h, fun _ _ h => by simp [Log.empty] at h,
    fun _ _ ⟨_, h⟩ => by simp [Log.empty] at h, fun _ _ _ h => by simp [Log.empty] at h,
    nofun⟩

omit [Crypto] in
/-- What came before an act is among the acts. -/
theorem sublist_earlier {w : StateLog} {later earlier : List AppAct} {e : AppAct}
    (he : w.acts = later ++ e :: earlier) : earlier.Sublist w.acts := by
  rw [he]
  exact (List.sublist_cons_self e earlier).trans (List.sublist_append_right later _)

/-- **No token outlives a clearing or an unlock**, as long as the count has not
saturated. -/
theorem StateInv.stale {w : StateLog} (h : StateInv w)
    (hgen : w.acts.countP addsGeneration < u64Max) {later earlier : List AppAct} {e : AppAct}
    {c : Cell} {token : Nat} (he : w.acts = later ++ e :: earlier)
    (hpub : Publishes w c token e) :
    (∃ i ∈ earlier, IssuedBy w token i) ∧
      ∀ l₁ i l₂, earlier = l₁ ++ i :: l₂ → IssuedBy w token i →
        ∀ b ∈ l₁, addsGeneration b = false := by
  obtain ⟨op, hop, htoken, -, hbefore⟩ := h.publishing ⟨later, he⟩ hpub
  refine ⟨(h.givenThen e earlier ⟨later, he⟩ op hop).token token htoken, ?_⟩
  rintro l₁ i l₂ rfl ⟨-, -, hi, -⟩
  -- both counts are the token, and neither has saturated
  have h₁ := (h.countsThen e _ ⟨later, he⟩).generation
  have h₂ := (h.countsThen i l₂ ⟨later ++ e :: l₁, by simp [he]⟩).generation
  have hle := Nat.lt_of_le_of_lt (sublist_earlier he).countP_le hgen
  have hle' : l₂.countP addsGeneration ≤ (l₁ ++ i :: l₂).countP addsGeneration :=
    ((List.sublist_cons_self i l₂).trans (List.sublist_append_right l₁ _)).countP_le
  have hcount : (l₁ ++ i :: l₂).countP addsGeneration ≤ l₂.countP addsGeneration := by omega
  exact none_added hcount

/-- **A field that is not empty was published since the session was cleared**, under a
token that was issued since. -/
theorem StateInv.published_since {w : StateLog} (h : StateInv w)
    (hgen : w.acts.countP addsGeneration < u64Max) {later earlier : List AppAct} {b : AppAct}
    (hb : w.acts = later ++ b :: earlier) (hclear : ClearsSession w b)
    (hguard : w.state.generationGuard ≠ some b.thread) {c : Cell} (hc : c ∈ sessionCells)
    (hne : w.state.cells c ≠ c.initial) :
    ∃ l₁ e l₂ token, later = l₁ ++ e :: l₂ ∧ Publishes w c token e ∧
      ∃ i ∈ l₂, IssuedBy w token i := by
  have hempty := (h.cleared later b earlier hb hclear).resolve_left hguard
  obtain ⟨l₁, e, l₂, rfl, hwrites⟩ := (hempty c hc).resolve_left hne
  have he : w.acts = l₁ ++ e :: (l₂ ++ b :: earlier) := by simp [hb]
  obtain ⟨op, hop, -, hm⟩ := h.followed e _ ⟨l₁, he⟩
  have hm : stateMay e.thread op _ e := hm
  obtain ⟨value, hv, hcmd⟩ := hwrites
  rw [stateMay, hcmd] at hm
  have hpub : Publishes w c e.before.generation e :=
    ⟨hc, ⟨value, hv, hcmd⟩, op, hop, ((hm hc).2.resolve_left hv).token⟩
  obtain ⟨⟨i, hi, his⟩, hall⟩ := h.stale hgen he hpub
  refine ⟨l₁, e, l₂, _, rfl, hpub, i, ?_, his⟩
  -- an older token would have a clearing since
  rcases List.mem_append.mp hi with hi | hi
  · exact hi
  · exfalso
    rcases List.mem_cons.mp hi with rfl | hi
    · have hadds := hclear.1
      simp [addsGeneration, his.2.1] at hadds
    · obtain ⟨l₃, l₄, rfl⟩ := List.append_of_mem hi
      have hno := hall (l₂ ++ b :: l₃) i l₄ (by simp) his b (by simp)
      simp [hclear.1] at hno

/-- **The authorization is published by the replacement begun last**, as long as the
count of the replacements has not saturated. -/
theorem StateInv.begun_last {w : StateLog} (h : StateInv w)
    (hrep : w.acts.countP addsReplacement < u64Max) {later earlier : List AppAct} {e : AppAct}
    {token : Nat} (he : w.acts = later ++ e :: earlier)
    (hpub : Publishes w .pairingReplacementAuthorizedAt token e) :
    ∃ l₁ j l₂, earlier = l₁ ++ j :: l₂ ∧ BegunBy w (token, j.after.replacement) j ∧
      w.ops e.thread = some (.completePairingReplacement (token, j.after.replacement)) ∧
      e.before.generation = token ∧ ∀ b ∈ l₁, addsReplacement b = false := by
  obtain ⟨op, hop, htoken, hpub', hbefore⟩ := h.publishing ⟨later, he⟩ hpub
  have hcomplete := hpub'.replacement rfl
  rw [hbefore] at hcomplete
  obtain ⟨j, hj, hbegan⟩ :=
    (h.givenThen e earlier ⟨later, he⟩ op hop).replacement _ hcomplete
  obtain ⟨l₁, l₂, rfl⟩ := List.append_of_mem hj
  have hnumber : j.after.replacement = e.before.replacement := hbegan.2.2.2
  refine ⟨l₁, j, l₂, rfl, by rwa [hnumber], by rw [hnumber, hop, hcomplete], hbefore, ?_⟩
  have h₁ := (h.countsThen e _ ⟨later, he⟩).replacement
  have h₂ := (h.countsThen j l₂ ⟨later ++ e :: l₁, by simp [he]⟩).replacement
  obtain ⟨op', -, hx, -⟩ := h.followed j l₂ ⟨later ++ e :: l₁, by simp [he]⟩
  have hafter : j.after.replacement = wrappingAdd j.before.replacement 1 := by
    have hx : App.Exec j.thread j.command j.before j.reply j.after := hx
    obtain ⟨t, c, r, s, s'⟩ := j
    obtain rfl : c = .bumpReplacement := hbegan.2.1
    rw [(App.exec_bumpReplacement.mp hx).2]
  have hle := Nat.lt_of_le_of_lt (sublist_earlier he).countP_le hrep
  have hjadds : addsReplacement j = true := by simp [addsReplacement, hbegan.2.1]
  rw [List.countP_append, List.countP_cons_of_pos hjadds] at hle h₁
  rw [hnumber, h₁, h₂, wrappingAdd, Nat.mod_add_mod] at hafter
  have hmax : u64Max < 2 ^ 64 := by decide
  rw [Nat.mod_eq_of_lt (by omega), Nat.mod_eq_of_lt (by omega)] at hafter
  have hzero : l₁.countP addsReplacement = 0 := by omega
  simpa using List.countP_eq_zero.mp hzero

/-- **Locking invalidates everything started before it.** For every
interleaving of fewer than `u64::MAX` operations: a lock or a move to the
background that has ended has cleared the session, and from then on its
fields are empty until an operation publishes them under a token issued
since; the authorization of a replacement is published by the one begun
last and not cancelled; and an unlock that has succeeded has published,
and added to the generation, and no token outlives that, or a clearing of
the session. -/
theorem locking_invalidates {store : Store} {now epoch : Nat} {clock : ClockSnapshot}
    {usedUuids : List Uuid} {p : stateThreads.Running}
    (hp : stateThreads.Reaches (App.boot store now epoch clock usedUuids) p)
    (hfew : p.next < u64Max) : LockingInvalidates p.state := by
  have hinv := stateInv hp
  obtain ⟨hgen, hrep⟩ := adds_le (stateDiscipline_valid.kept hp) hinv.followed
  have hgen := Nat.lt_of_le_of_lt hgen hfew
  have hrep := Nat.lt_of_le_of_lt hrep hfew
  exact {
    cleared := fun later b earlier hb hclear hguard c hc hne =>
      hinv.published_since hgen hb hclear hguard hc hne
    replacement := fun later e earlier token he hpub => hinv.begun_last hrep he hpub
    stale := fun later e earlier c token he hpub => hinv.stale hgen he hpub
    locked := fun t op x hop hclears hend => hinv.locked hop hclears hend
    unlocked := fun t expected secrets out hop hend => hinv.unlocked hop hend }

/-! ## A session that is opened after a lock -/

/-- Whether a thread has returned the token. -/
def returned (w : StateLog) (u token : Nat) : Bool :=
  match w.ended u with
  | some (.done (.ok (.token g))) => g == token
  | some (.done (.ok (.replacement (g, _)))) => g == token
  | _ => false

omit [Crypto] in
theorem issued_of_returned {w : StateLog} {u token : Nat} (h : returned w u token = true) :
    Issued w token := by
  unfold returned at h
  split at h
  · next g hu => exact ⟨u, _, hu, .inl (by rw [eq_of_beq h])⟩
  · next g r hu => exact ⟨u, _, hu, .inr ⟨r, by rw [eq_of_beq h]⟩⟩
  · cases h

/-- Whether an operation may start, by the thread that has returned its
token. Replacements are not played. -/
def startsWith (u : Nat) (w : StateLog) : StateOp → Bool
  | .markApprovalKeyAuthenticated expected => returned w u expected
  | .completeUnlock expected _ => returned w u expected
  | .completePairingReplacement _ => false
  | _ => true

omit [Crypto] in
theorem mayStart_of_startsWith {u : Nat} {w : StateLog} {op : StateOp}
    (h : startsWith u w op = true) : op.MayStart w := by
  cases op with
  | markApprovalKeyAuthenticated => exact issued_of_returned h
  | completeUnlock => exact issued_of_returned h
  | completePairingReplacement => cases h
  | _ => trivial

/-- How the operations are played. -/
def statePlayer : Player stateThreads Answers EnvMove where
  answer t c o s := App.exec t c (o c s) s
  exec h := ⟨_, h⟩
  begin u w op := if startsWith u w op then some w.state else none
  start h := by
    split at h
    · next hs => exact ⟨mayStart_of_startsWith hs, (Option.some.inj h).symm⟩
    · simp at h
  outside x s := some (x.apply s)
  env {x s s'} h := by
    obtain rfl := Option.some.inj h
    exact x.env s

/-- A token is issued, the app is locked, and another token opens the
session. -/
def unlockAfterLock (secrets : AppSecrets) : List (Play StateOp Answers EnvMove) :=
  [.start 0 (.setForeground true), .run 0 willing 9,
    .start 0 .authenticationGeneration, .run 1 willing 9,
    .start 0 .lock, .run 2 willing 19,
    .start 0 .authenticationGeneration, .run 3 willing 9,
    .start 3 (.completeUnlock 1 secrets), .run 4 willing 19]

/-- The secrets of a pairing. -/
def somePairing : AppSecrets :=
  { pairingId := 1, approvalKeyAlias := ⟨1⟩, approvalPublicKeyDer := [7]
    phoneShare := Vector.replicate 32 0, pin4Hash := "1234", pin6Hash := "123456"
    cliNodeId := Vector.replicate 32 0 }

omit [Crypto] in
/-- The lock and the unlock have ended, and the session that is open after that
run was opened under a token that was issued since the lock. -/
theorem locking_invalidates_unlockAfterLock : ∃ w : StateLog,
    w.state.cells .secrets = some somePairing ∧ w.acts.countP addsGeneration = 2 ∧
      w.ops 2 = some .lock ∧ w.ended 2 = some (.done (.ok .done)) ∧
      w.ops 4 = some (.completeUnlock 1 somePairing) ∧
      w.ended 4 = some (.done (.ok (.session 2))) ∧ LockingInvalidates w := by
  let start := App.boot Store.empty 0 0 ⟨0, 0, Nat.zero_le _⟩ []
  let played := (@statePlayer Crypto.plain).play (unlockAfterLock somePairing)
    (Pool.idle (Log.empty start))
  have hsome : played.isSome := by decide +kernel
  obtain ⟨p, hp⟩ := Option.isSome_iff_exists.mp hsome
  have hresult : played.map (fun p => (p.state.state.cells .secrets,
      p.state.acts.countP addsGeneration, p.next)) = some (some somePairing, 2, 5) := by
    decide +kernel
  have hended : played.map (fun p => (p.state.ops 2, p.state.ended 2, p.state.ops 4,
      p.state.ended 4)) = some (some .lock, some (.done (.ok .done)),
        some (.completeUnlock 1 somePairing), some (.done (.ok (.session 2)))) := by decide +kernel
  rw [hp] at hresult hended
  obtain ⟨h₁, h₂, h₃⟩ : p.state.state.cells .secrets = some somePairing ∧
      p.state.acts.countP addsGeneration = 2 ∧ p.next = 5 := by simpa using hresult
  obtain ⟨h₄, h₅, h₆, h₇⟩ : p.state.ops 2 = some .lock ∧
      p.state.ended 2 = some (.done (.ok .done)) ∧
      p.state.ops 4 = some (.completeUnlock 1 somePairing) ∧
      p.state.ended 4 = some (.done (.ok (.session 2))) := by simpa using hended
  exact ⟨p.state, h₁, h₂, h₄, h₅, h₆, h₇, @locking_invalidates Crypto.plain _ _ _ _ _ p
    (Player.play_sound hp) (by rw [h₃]; decide)⟩

end Phone
