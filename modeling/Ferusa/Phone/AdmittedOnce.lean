import Ferusa.Phone.Release

/-!
# What is admitted once

The id of a request that was admitted is remembered for ten minutes, and
forgotten by the first message that comes into the free slot after that.
Admissions are dated under the lock of the session generation, so they
are dated in the order in which they happen.

The timestamp of a request is fresh for five minutes either way, ends
included: a message that is dated five minutes ahead is fresh for ten
minutes, and at the end of the tenth its id is forgotten already.
-/

namespace Phone

open Discipline AppProg

/-! ## Messages and admissions -/

/-- **A message comes to the slot.** -/
def Enters (e : AppAct) (pending : PendingRequest) : Prop :=
  e.command = .slot (.enter pending)

/-- **It is admitted.** -/
def Admits (e : AppAct) (pending : PendingRequest) : Prop :=
  ∃ t s s', e = ⟨t, .slot (.enter pending), .stored, s, s'⟩

/-- It is the same request: its id and its timestamp are. -/
def SameRequest (p q : PendingRequest) : Prop :=
  p.request.requestId = q.request.requestId ∧ p.request.timestamp = q.request.timestamp

/-- **One run of the process**, the clocks advancing together. -/
def Setting.steady : Setting := ⟨fun s s' => s'.epoch = s.epoch, fun _ _ => False⟩

/-- **No request is admitted twice**, and its id is forgotten by age alone. -/
structure AdmittedOnce (w : AppLog) : Prop where
  once : ∀ e earlier, w.Happened e earlier → ∀ q, Admits e q →
    ∀ d ∈ earlier, ∀ p, Admits d p → ¬ SameRequest p q
  /-- Whatever id is forgotten, and however many there are, is ten minutes
  old. -/
  forgets : ∀ e ∈ w.acts, ∀ x ∈ e.before.pending.recent, x ∉ e.after.pending.recent →
    ∃ q, Enters e q ∧ authSessionTtl ≤ q.identity.createdAt - x.2

/-- **No message is late**: whenever a message of a request that was admitted
comes to the free slot, less than ten minutes have passed since its
admission. -/
def NoneLate (w : AppLog) : Prop :=
  ∀ e earlier, w.Happened e earlier → ∀ q, Enters e q → e.before.pending.slot = none →
    ∀ d ∈ earlier, ∀ p, Admits d p → SameRequest p q →
      q.identity.createdAt - p.identity.createdAt < authSessionTtl

/-! ## The discipline of the admissions -/

/-- **The date of an admission** was read under the lock, just before. -/
def Dated (t : Nat) (l : List AppAct) (createdAt : Nat) : Prop :=
  ∃ e early, l = e :: early ∧ e.command = .now ∧ e.before.now = createdAt ∧
    e.after.generationGuard = some t

variable [Crypto] {Z : Setting} {t : Nat} {op : AppOp} {l : List AppAct}

/-- **The discipline of the admissions.** -/
def admissionDiscipline (Z : Setting) : Discipline (appThreads Z) where
  may t _ l e := ∀ pending, Enters e pending → Dated t l pending.identity.createdAt
  ends _ _ _ _ := True
  rely t s s' := s.generationGuard = some t → s'.generationGuard = some t
  rely_refl _ _ h := h
  rely_trans h h' hg := h' (h hg)

/-- **The lock of the session generation** is not taken from who holds it. -/
theorem generationGuard_kept {u : Nat} {c : AppCmd} {r : c.Reply} {s s' : App}
    (h : App.Exec u c s r s') (htu : t ≠ u) (hg : s.generationGuard = some t) :
    s'.generationGuard = some t := by
  by_cases hlock : c = .lockGeneration
  · subst hlock
    cases hg.symm.trans (App.exec_lockGeneration.mp h).1
  by_cases hunlock : c = .unlockGeneration
  · subst hunlock
    exact absurd (Option.some.inj (hg.symm.trans (App.exec_unlockGeneration.mp h).1)) htu
  · rw [h.framed.guard hlock hunlock, hg]

/-! ### The programs keep it -/

/-- **What admits nothing** may run at any time. -/
theorem follows_of_admitsNothing {ε α : Type} {parts : List Part} {p : Prog AppCmd.Reply ε α}
    (hp : Stays parts p) (h : Part.admission ∉ parts) : (admissionDiscipline Z).Follows p := by
  refine Follows.only hp fun t op l c r s s' hc _ pending he => ?_
  have he : c = .slot (.enter pending) := he
  subst he
  exact absurd hc h

/-- What is put under the lock. -/
theorem heldGuard_call {α : Type} {c : AppCmd} {k : c.Reply → AppProg α} {e : AppAct}
    {early : List AppAct} {Q : Except AppError α → List AppAct → Prop}
    (hg : e.after.generationGuard = some t) (hc : c.part ≠ .admission)
    (hk : ∀ r s s', s.generationGuard = some t → App.Exec t c s r s' →
      (admissionDiscipline Z).Keeps t op (⟨t, c, r, s, s'⟩ :: e :: early) (k r) Q) :
    (admissionDiscipline Z).Keeps t op (e :: early) (put c >>= k) Q := by
  refine Keeps.call fun r s s' hr hx => ⟨fun pending he => ?_, hk r s s' (hr e rfl hg) hx⟩
  have he : c = .slot (.enter pending) := he
  exact absurd (by rw [he]; rfl) hc

/-- **The admission of a request** is dated under the lock. -/
theorem admitRequest_follows (conn : Connection) (stream : Stream) (req : AuthRequest) :
    (admissionDiscipline Z).Follows (admitRequest conn stream req) := by
  intro t op l
  unfold admitRequest AppState.withGeneration
  have hrest : ∀ {α : Type} {parts : List Part} {p : AppProg α} (l : List AppAct),
      Stays parts p → Part.admission ∉ parts →
      (admissionDiscipline Z).Keeps t op l p fun _ _ => True :=
    fun l hp h => follows_of_admitsNothing hp h t op l
  refine Keeps.call fun _ s₁ s₁' _ hlock => ⟨nofun, ?_⟩
  obtain ⟨-, rfl⟩ := App.exec_lockGeneration.mp hlock
  refine Keeps.attempt_bind (M := fun _ _ => True) ?_ fun _ l' _ =>
    hrest l' (show Stays [.guard] _ from Prog.Only.bind (stays_put rfl) fun _ =>
      Prog.Only.ofExcept) (by decide)
  refine heldGuard_call rfl nofun fun foreground s₂ s₂' hg₂ hx₂ => ?_
  obtain ⟨-, rfl⟩ := App.exec_isForeground.mp hx₂
  split
  · exact hrest _ (show Stays [.ask] _ from Prog.Only.bind (stays_put rfl) fun _ =>
      Prog.Only.pure) (by decide)
  refine heldGuard_call hg₂ nofun fun instanceId s₃ s₃' hg₃ hx₃ => ?_
  obtain ⟨-, rfl⟩ := App.exec_newUuid.mp hx₃
  refine heldGuard_call hg₃ nofun fun sessionGeneration s₄ s₄' hg₄ hx₄ => ?_
  obtain ⟨-, -, rfl⟩ := App.exec_generation.mp hx₄
  refine heldGuard_call hg₄ nofun fun createdAt s₅ s₅' hg₅ hx₅ => ?_
  obtain ⟨rfl, rfl⟩ := App.exec_now.mp hx₅
  refine Keeps.bind (M := fun _ _ => True) ?_ (fun _ _ _ => Keeps.pure trivial)
    fun _ _ _ => trivial
  refine Keeps.call fun r s₆ s₆' _ _ => ⟨fun pending he => ?_, Keeps.ret trivial⟩
  obtain rfl := SlotOp.enter.inj (AppCmd.slot.inj he)
  exact ⟨_, _, rfl, rfl, rfl, hg₅⟩

/-! ### Connections -/

/-- **A discipline that admissions keep**, with what is known of the acts of a
thread, and whatever has not to do with the slot, with approvals or with the
foreground. -/
structure Admitting (D : Discipline (appThreads Z)) (I : List AppAct → Prop) : Prop where
  quiet : ∀ {ε α : Type} {parts : List Part} {p : Prog AppCmd.Reply ε α}, Stays parts p →
    parts.all (fun x => x ∉ [Part.foreground, .admission, .putBack, .approve, .slot]) = true →
      D.Preserves I p
  active : D.Preserves I ensureActiveSession
  admitting : ∀ conn stream req, D.Preserves I (admitRequest conn stream req)
  announce : ∀ approvalAlias identity, D.Preserves I (announceRequest approvalAlias identity)

namespace Admitting

section

variable {D : Discipline (appThreads Z)} {I : List AppAct → Prop} (h : Admitting D I)

include h

variable (conn : Connection) (deadline : Nat) (authenticated : Bool) (stream : Stream)

theorem serveAuthorizedRequest (req : AuthRequest) :
    D.Preserves I (serveAuthorizedRequest conn stream req) := by
  have hclose : ∀ reason, D.Preserves I (closeAndStop conn reason) :=
    fun reason => h.quiet (closeAndStop_stays _ _) rfl
  refine Preserves.bind (h.quiet (show Stays [.cell] _ from stays_put rfl)
    rfl) fun stored => ?_
  cases stored.1 with
  | none => exact hclose _
  | some secrets =>
    -- the request is of the pairing in memory, or the connection is closed
    refine Preserves.bind (h.quiet approvalKeyAuthenticated_stays rfl)
      fun _ => Preserves.ite (hclose _) ?_
    refine Preserves.bind (h.admitting conn stream req) fun admitted => ?_
    match admitted with
    | none => exact Preserves.pure
    | some (identity, .stored) =>
      exact Preserves.bind (h.announce _ _)
        fun _ => Preserves.pure
    | some (_, .busy _) =>
      exact Preserves.bind (h.quiet (denyRefused_stays _ _ _ _) rfl)
        fun _ => Preserves.pure
    | some (_, .reusedId) =>
      exact Preserves.bind (h.quiet (denyRefused_stays _ _ _ _) rfl)
        fun _ => Preserves.pure

theorem serveRequest (req : AuthRequest) :
    D.Preserves I
      (serveRequest conn deadline authenticated stream req) := by
  have hclose : ∀ reason, D.Preserves I (closeAndStop conn reason) :=
    fun reason => h.quiet (closeAndStop_stays _ _) rfl
  refine Preserves.bind (h.quiet (show Stays [.clock, .cell, .ask] _ from ?_)
    rfl) fun _ => Preserves.ite (hclose _) ?_
  · exact Prog.Only.bind ((hasTime_stays _ _).mono rfl) fun _ => Prog.Only.ite
      (Prog.Only.bind ((isAuthorizedAuthPeer_stays conn).mono rfl) fun _ =>
        Prog.Only.bind (stays_put rfl) fun _ => Prog.Only.pure) Prog.Only.pure
  refine Preserves.bind (h.quiet (show Stays [.clock] _ from stays_put rfl)
    rfl) fun nowMs => ?_
  cases validateAuthTimestamp req.timestamp nowMs with
  | error e => exact hclose _
  | ok u =>
    refine Preserves.bind (Preserves.attempt h.active) fun active => ?_
    cases active with
    | error e => exact hclose _
    | ok u => exact h.serveAuthorizedRequest conn stream req

theorem serveMessage (message : Except String FerusaMessage) :
    D.Preserves I
      (serveMessage conn deadline authenticated stream message) := by
  unfold Phone.serveMessage
  split
  -- one handler for each message, and one for what is no such message
  · exact h.quiet (servePing_stays _ _ _ _) rfl
  · exact h.quiet (servePairingCommit_stays _ _ _ _ _) rfl
  · exact h.quiet (servePairingActivate_stays _ _ _ _ _) rfl
  · exact h.serveRequest _ _ _ _ _
  · exact h.quiet (serveOther_stays _ _ _) rfl
  · exact h.quiet (serveOther_stays _ _ _) rfl

theorem serveStream :
    D.Preserves I (serveStream conn deadline authenticated) := by
  have hask : ∀ c : OutsideCmd, (AppCmd.ask c).part = .ask →
      D.Preserves I (ask c) := fun c hc =>
    h.quiet (show Stays [.ask] _ from Prog.Only.perform
      (List.mem_singleton.mpr hc)) rfl
  have hclose : ∀ reason, D.Preserves I (closeAndStop conn reason) :=
    fun reason => h.quiet (closeAndStop_stays _ _) rfl
  have htime : D.Preserves I (hasTime authenticated deadline) :=
    h.quiet (hasTime_stays _ _) rfl
  refine Preserves.bind htime fun _ => Preserves.ite (hclose _) ?_
  refine Preserves.bind (hask _ rfl) fun accepted => ?_
  cases accepted with
  | failed e => exact Preserves.pure
  | timedOut => exact hclose _
  | ok stream =>
    refine Preserves.bind htime fun _ => Preserves.ite (hclose _) ?_
    refine Preserves.bind (hask _ rfl) fun data => ?_
    cases data with
    | failed e => exact h.quiet (serveOther_stays _ _ _) rfl
    | timedOut => exact hclose _
    | ok message => exact h.serveMessage _ _ _ _ _

theorem serveStreams (streams : Nat) :
    D.Preserves I (serveStreams conn deadline streams authenticated) := by
  induction streams generalizing authenticated with
  | zero => exact Preserves.pure
  | succ streams ih =>
    refine Preserves.bind (h.serveStream conn deadline authenticated) fun served => ?_
    cases served with
    | stop => exact Preserves.pure
    | next authenticated => exact ih authenticated

/-- **A connection** keeps such a discipline. -/
theorem serveConnection (streams : Nat) : D.Preserves I (serveConnection conn streams) :=
  Preserves.bind (h.quiet (show Stays [.clock] _ from stays_put rfl) rfl) fun _ =>
    h.serveStreams conn _ false streams

end

end Admitting

/-- **The programs keep the discipline.** -/
theorem admissionDiscipline_valid (Z : Setting) : (admissionDiscipline Z).Valid where
  keeps t op := by
    by_cases hop : ∃ conn streams, op = .serve conn streams
    · obtain ⟨conn, streams, rfl⟩ := hop
      have h : Admitting (admissionDiscipline Z) fun _ => True := by
        refine ⟨fun hp hparts => (follows_of_admitsNothing hp fun hmem => ?_).preserves,
          (follows_of_admitsNothing ensureActiveSession_stays (by decide)).preserves,
          fun conn stream req => (admitRequest_follows conn stream req).preserves,
          fun _ _ => (follows_of_admitsNothing (announceRequest_stays _ _)
            (by decide)).preserves⟩
        exact of_decide_eq_true (List.all_eq_true.mp hparts _ hmem) (by decide)
      exact h.serveConnection conn streams t _ [] trivial
    · have hstays : Stays admitsNothing op.program :=
        AppOp.program_stays fun conn streams h => hop ⟨conn, streams, h⟩
      exact follows_of_admitsNothing hstays (by decide) t op []
  put htu hx _ hg := generationGuard_kept hx htu.symm hg
  start hstart hg := by
    obtain ⟨spawned, rfl⟩ := AppOp.Starts.spawned hstart
    exact hg
  env he hg := by
    obtain ⟨he, -⟩ := he
    cases he <;> exact hg

/-! ## What is remembered -/

omit [Crypto] in
theorem enter_apply (pending : PendingRequest) (now : Nat) (p : Pending) :
    (SlotOp.enter pending).apply now p =
      match p.slot with
      | some existing => (.busy existing.request.requestId, p)
      | none =>
        let (isNew, recent) :=
          rememberRequestId p.recent pending.request.requestId pending.identity.createdAt
        if isNew then (.stored, { slot := some pending, recent })
        else (.reusedId, { p with recent }) := rfl

omit [Crypto] in
/-- **What is remembered stays so** while it is young enough. -/
theorem rememberRequestId_recent {recent : List (Uuid × Nat)} {now : Nat} {x : Uuid × Nat}
    (id : Uuid) (hx : x ∈ recent) (hage : now - x.2 < authSessionTtl) :
    x ∈ (rememberRequestId recent id now).2 := by
  have hkept : x ∈ recent.filter fun x => now - x.2 < authSessionTtl :=
    List.mem_filter.mpr ⟨hx, decide_eq_true hage⟩
  unfold rememberRequestId
  dsimp only
  split
  · exact hkept
  · exact List.mem_cons_of_mem _ hkept

omit [Crypto] in
/-- **What is remembered is not new**, while it is young enough. -/
theorem rememberRequestId_old {recent : List (Uuid × Nat)} {now : Nat} {x : Uuid × Nat}
    (hx : x ∈ recent) (hage : now - x.2 < authSessionTtl) :
    (rememberRequestId recent x.1 now).1 = false := by
  have hkept : x.1 ∈ (recent.filter fun x => now - x.2 < authSessionTtl).map Prod.fst :=
    List.mem_map_of_mem (List.mem_filter.mpr ⟨hx, decide_eq_true hage⟩)
  unfold rememberRequestId
  dsimp only
  rw [if_pos (.inl hkept)]

omit [Crypto] in
/-- What is done to the slot otherwise forgets nothing. -/
theorem SlotOp.apply_recent {o : SlotOp} (h : ∀ q, o ≠ .enter q) (now : Nat) (p : Pending) :
    (o.apply now p).2.recent = p.recent := by
  cases o with
  | enter q => exact absurd rfl (h q)
  | takeVerified expected =>
    unfold SlotOp.apply
    dsimp only
    split
    · rfl
    · split <;> rfl
  | takeExpired expected =>
    unfold SlotOp.apply
    dsimp only
    split <;> rfl
  | takeInstance identity =>
    unfold SlotOp.apply
    dsimp only
    split <;> rfl
  | restore pending =>
    unfold SlotOp.apply
    dsimp only
    split <;> rfl
  | _ => rfl

/-- **Only age makes forget.** -/
theorem recent_kept {c : AppCmd} {r : c.Reply} {s s' : App} (h : App.Exec t c s r s')
    {x : Uuid × Nat} (hx : x ∈ s.pending.recent) : x ∈ s'.pending.recent ∨
      ∃ q, c = .slot (.enter q) ∧ authSessionTtl ≤ q.identity.createdAt - x.2 := by
  by_cases hslot : ∃ o, c = .slot o
  · obtain ⟨o, rfl⟩ := hslot
    obtain ⟨-, rfl⟩ := App.exec_slot.mp h
    by_cases henter : ∃ q, o = .enter q
    · obtain ⟨q, rfl⟩ := henter
      show x ∈ ((SlotOp.enter q).apply s.now s.pending).2.recent ∨ _
      rw [enter_apply]
      by_cases hage : q.identity.createdAt - x.2 < authSessionTtl
      · refine .inl ?_
        have hkept := rememberRequestId_recent q.request.requestId hx hage
        cases s.pending.slot with
        | some existing => exact hx
        | none =>
          dsimp only
          split <;> exact hkept
      · exact .inr ⟨q, rfl, Nat.le_of_not_lt hage⟩
    · left
      show x ∈ (o.apply s.now s.pending).2.recent
      rwa [SlotOp.apply_recent fun q hq => henter ⟨q, hq⟩]
  · left
    rwa [h.aside.pending fun o ho => hslot ⟨o, ho⟩]

/-- **What an admission is**: the slot was free, the id not remembered, and it
is remembered now. -/
theorem Admits.recent {e : AppAct} {q : PendingRequest} (h : Admits e q)
    (hx : App.Exec e.thread e.command e.before e.reply e.after) :
    e.before.pending.slot = none ∧
      (rememberRequestId e.before.pending.recent q.request.requestId
        q.identity.createdAt).1 = true ∧
      (q.request.requestId, q.identity.createdAt) ∈ e.after.pending.recent := by
  obtain ⟨t, s, s', rfl⟩ := h
  obtain ⟨hr, hs⟩ := App.exec_slot.mp hx
  have hr : Admission.stored = ((SlotOp.enter q).apply s.now s.pending).1 := hr
  have hs : s' = { s with pending := ((SlotOp.enter q).apply s.now s.pending).2 } := hs
  rw [enter_apply] at hr hs
  show s.pending.slot = none ∧ _ ∧ _ ∈ s'.pending.recent
  cases hslot : s.pending.slot with
  | some existing =>
    rw [hslot] at hr
    cases hr
  | none =>
    simp only [hslot] at hr hs
    by_cases hnew : (rememberRequestId s.pending.recent q.request.requestId
        q.identity.createdAt).1 = true
    · rw [if_pos hnew] at hs
      refine ⟨rfl, hnew, ?_⟩
      rw [hs]
      show _ ∈ (rememberRequestId s.pending.recent q.request.requestId
        q.identity.createdAt).2
      unfold rememberRequestId at hnew ⊢
      dsimp only at hnew ⊢
      split at hnew
      · cases hnew
      · next hroom =>
        rw [if_neg hroom]
        exact List.mem_cons_self
    · rw [if_neg hnew] at hr
      cases hr

omit [Crypto] in
theorem Admits.enters {e : AppAct} {q : PendingRequest} (h : Admits e q) : Enters e q := by
  obtain ⟨t, s, s', rfl⟩ := h
  rfl

/-- **What was admitted is remembered**, unless a message was late. -/
def Remembers (l : List AppAct) (s : App) : Prop :=
  ∀ d ∈ l, ∀ p, Admits d p → (p.request.requestId, p.identity.createdAt) ∈ s.pending.recent ∨
    ∃ b ∈ l, ∃ q, Enters b q ∧ authSessionTtl ≤ q.identity.createdAt - p.identity.createdAt

theorem Remembers.put {c : AppCmd} {r : c.Reply} {s s' : App} (h : Remembers l s)
    (hx : App.Exec t c s r s') : Remembers (⟨t, c, r, s, s'⟩ :: l) s' := by
  intro d hd p hp
  rcases List.mem_cons.mp hd with rfl | hd
  · exact .inl (hp.recent hx).2.2
  rcases h d hd p hp with hrec | ⟨b, hb, hlate⟩
  · rcases recent_kept hx hrec with hrec | ⟨q, hq, hage⟩
    · exact .inl hrec
    · exact .inr ⟨_, List.mem_cons_self, q, hq, hage⟩
  · exact .inr ⟨b, List.mem_cons_of_mem _ hb, hlate⟩

/-- **What is remembered before each act** of a run. -/
theorem remembers {s₀ : App} {p : (appThreads .steady).Running}
    (hp : (appThreads .steady).Reaches s₀ p) :
    ∀ e earlier, p.state.Happened e earlier → Remembers earlier e.before := by
  refine (admissionDiscipline_valid .steady).chronicle (I := Remembers)
    (fun d hd => absurd hd List.not_mem_nil) (fun h hx _ => h.put hx) ?_ ?_ ?_ hp
  · intro w op s' h hstart
    obtain ⟨spawned, rfl⟩ := AppOp.Starts.spawned hstart
    exact h
  · rintro l s s' h ⟨he, -⟩
    have hpending : s'.pending = s.pending := by cases he <;> rfl
    exact fun d hd q hq => hpending ▸ h d hd q hq
  · exact fun _ hcrash => hcrash.2.elim

/-! ## The order of the dates -/

/-- **Admissions are dated in their order**: a message that came before is
dated before, and so is one that came before a date that was just read. -/
structure DatesInv (w : AppLog) : Prop where
  past : ∀ d ∈ w.acts, ∀ p, Enters d p → p.identity.createdAt ≤ w.state.now
  reading : ∀ t createdAt, w.ended t = none → Dated t (w.own t) createdAt →
    w.state.generationGuard = some t ∧ createdAt ≤ w.state.now ∧
      ∀ d ∈ w.acts, ∀ p, Enters d p → p.identity.createdAt ≤ createdAt
  ordered : ∀ e earlier, w.Happened e earlier → ∀ q, Enters e q →
    ∀ d ∈ earlier, ∀ p, Enters d p → p.identity.createdAt ≤ q.identity.createdAt

/-- **Every move keeps it.** -/
theorem DatesInv.move {w w' : AppLog} (h : DatesInv w)
    (hm : (admissionDiscipline .steady).Move w w') : DatesInv w' := by
  cases hm with
  | @put t op c r s' hop hrun hx hm =>
    have hnow : s'.now = w.state.now := hx.aside.now
    have hdated : ∀ p, c = .slot (.enter p) → Dated t (w.own t) p.identity.createdAt := hm
    refine ⟨fun d hd p hp => ?_, fun u createdAt hend hread => ?_, fun e earlier he q hq d hd p
      hp => ?_⟩
    · show p.identity.createdAt ≤ s'.now
      rw [hnow]
      rcases List.mem_cons.mp hd with rfl | hd
      · exact (h.reading t _ hrun (hdated p hp)).2.1
      · exact h.past d hd p hp
    · show s'.generationGuard = some u ∧ createdAt ≤ s'.now ∧ _
      rw [hnow]
      by_cases hut : u = t
      · subst hut
        obtain ⟨e, early, heq, hc, hat, hg⟩ := hread
        rw [Log.own_put_self] at heq
        obtain ⟨rfl, rfl⟩ := List.cons.inj heq
        have hat : w.state.now = createdAt := hat
        refine ⟨hg, hat.ge, fun d hd p hp => ?_⟩
        rcases List.mem_cons.mp hd with rfl | hd
        · cases hc.symm.trans hp
        · exact (h.past d hd p hp).trans hat.le
      · rw [Log.own_put_of_ne _ _ _ _ (Ne.symm hut)] at hread
        obtain ⟨hg, hle, hall⟩ := h.reading u createdAt hend hread
        refine ⟨generationGuard_kept hx hut hg, hle, fun d hd p hp => ?_⟩
        rcases List.mem_cons.mp hd with rfl | hd
        · -- whoever enters holds the lock
          have hguard := (h.reading t _ hrun (hdated p hp)).1
          exact absurd (Option.some.inj (hg.symm.trans hguard)) hut
        · exact hall d hd p hp
    · rcases happened_put he with ⟨rfl, rfl⟩ | he
      · exact (h.reading t _ hrun (hdated q hq)).2.2 d hd p hp
      · exact h.ordered e earlier he q hq d hd p hp
  | @finish t op x hop hrun he =>
    refine ⟨h.past, fun u createdAt hend hread => ?_, h.ordered⟩
    rw [Log.finish_ended] at hend
    split at hend
    · cases hend
    · exact h.reading u createdAt hend hread
  | @start t op s' ht hown hend hstart =>
    obtain ⟨spawned, rfl⟩ := AppOp.Starts.spawned hstart
    exact ⟨h.past, h.reading, h.ordered⟩
  | @env s' he =>
    obtain ⟨hnow, hguard⟩ : w.state.now ≤ s'.now ∧
        s'.generationGuard = w.state.generationGuard := by
      obtain ⟨he, -⟩ := he
      cases he with
      | tick hle => exact ⟨hle, rfl⟩
      | _ => exact ⟨Nat.le_refl _, rfl⟩
    refine ⟨fun d hd p hp => (h.past d hd p hp).trans hnow, fun u createdAt hrun hread => ?_,
      h.ordered⟩
    obtain ⟨hg, hle, hall⟩ := h.reading u createdAt hrun hread
    exact ⟨hguard.trans hg, hle.trans hnow, hall⟩
  | crash hcrash => exact hcrash.2.elim

/-- **Admissions are dated in their order**, in every run. -/
theorem dates_ordered {s₀ : App} {p : (appThreads .steady).Running}
    (hp : (appThreads .steady).Reaches s₀ p) : DatesInv p.state := by
  refine (admissionDiscipline_valid .steady).invariant (I := DatesInv) ⟨?_, ?_, ?_⟩
    (fun h hm => h.move hm) hp
  · exact fun d hd => absurd hd List.not_mem_nil
  · rintro t createdAt - ⟨e, early, h, -⟩
    simp [Log.empty, Log.own] at h
  · rintro e early ⟨later, h⟩
    simp [Log.empty] at h

/-- **An id is forgotten by age alone**, in every run, however many there are. -/
theorem forgotten_by_age {s₀ : App} {p : (appThreads .steady).Running}
    (hp : (appThreads .steady).Reaches s₀ p) {e : AppAct} (he : e ∈ p.state.acts)
    {x : Uuid × Nat} (hx : x ∈ e.before.pending.recent) (hforgotten : x ∉ e.after.pending.recent) :
    ∃ q, Enters e q ∧ authSessionTtl ≤ q.identity.createdAt - x.2 := by
  obtain ⟨earlier, he⟩ := Log.happened_of_mem he
  obtain ⟨op, -, hexec, -⟩ := (admissionDiscipline_valid .steady).followed hp e earlier he
  rcases recent_kept hexec hx with hkept | ⟨q, hq, hage⟩
  · exact absurd hkept hforgotten
  · exact ⟨q, hq, hage⟩

/-- **No request is admitted twice**, if none of its messages is late. In every
run of one process, of any connections and any messages, commands and
tasks: once a request was admitted, no message with its id and its timestamp
is admitted again, provided that none of them comes to the free slot ten
minutes after the admission, or later. -/
theorem request_admitted_once {s₀ : App} {p : (appThreads .steady).Running}
    (hp : (appThreads .steady).Reaches s₀ p) (hlate : NoneLate p.state) :
    AdmittedOnce p.state := by
  have hfollowed := (admissionDiscipline_valid .steady).followed hp
  refine ⟨fun e earlier he q hq d hd p' hp' hsame => ?_,
    fun e he x hx hforgotten => forgotten_by_age hp he hx hforgotten⟩
  obtain ⟨op, -, hexec, -⟩ := hfollowed e earlier he
  obtain ⟨hfree, hnew, -⟩ := hq.recent hexec
  have hyoung := hlate e earlier he q hq.enters hfree d hd p' hp' hsame
  rcases remembers hp e earlier he d hd p' hp' with hrec | ⟨b, hb, q', hq', hage⟩
  · have hold := rememberRequestId_old hrec hyoung
    rw [hsame.1] at hold
    cases hnew.symm.trans hold
  · have hle := (dates_ordered hp).ordered e earlier he q hq.enters b hb q' hq'
    omega

/-! ## A request that is admitted twice -/

theorem App.env_of_tick : ∀ {duration : Nat} {s s' : App},
    some { s with now := s.now + duration } = some s' → (appThreads .steady).env s s' := by
  rintro duration s _ h
  obtain rfl := Option.some.inj h
  exact ⟨.tick (Nat.le_add_right _ _), rfl⟩

/-- How one process is played, the clocks advancing together. -/
def steadyPlayer : Player (appThreads .steady) Answers Nat where
  answer t c o s := App.exec t c (o c s) s
  exec := @App.exec_of_answer _ .steady
  begin _ w op := op.begin w.state
  start := @AppOp.start_of_begin _ .steady
  outside duration s := some { s with now := s.now + duration }
  env := @App.env_of_tick _

/-- A request that is dated five minutes ahead. -/
def datedAhead : AuthRequest := { shareRequest with timestamp := authTimestampMaxSkewMs }

/-- A request is admitted, the session is locked and, some time later, unlocked
again; and the same message comes in once more. -/
def replayAfter (duration : Nat) : List (Play AppOp Answers Nat) :=
  [.start 0 .checkSetup, .run 0 willing 200,
    .start 0 (.setAppForeground true), .run 1 willing 200,
    .start 0 .biometricUnlock, .run 2 willing 200,
    .start 0 (.serve desktop 1), .run 3 (bringing (.request datedAhead)) 200,
    .start 0 .lock, .run 4 willing 200, .outside duration,
    .start 0 .biometricUnlock, .run 5 willing 200,
    .start 0 (.serve desktop 1), .run 6 (bringing (.request datedAhead)) 200]

/-- A listed run over the store with the two pairings. -/
def playSteady (l : List (Play AppOp Answers Nat)) : Option (appThreads .steady).Running :=
  ((Bench.initial.play nextPairing).map Bench.store).bind fun store =>
    steadyPlayer.play l (Pool.idle (Log.empty (App.boot store 0 0 ⟨0, 0, Nat.zero_le _⟩ [])))

/-- What an act admits. -/
def AppAct.admitted : AppAct → Option PendingRequest
  | ⟨_, .slot (.enter pending), r, _, _⟩ => if r = .stored then some pending else none
  | _ => none

omit [Crypto] in
theorem AppAct.admitted_iff {e : AppAct} {pending : PendingRequest} :
    e.admitted = some pending ↔ Admits e pending := by
  refine ⟨fun h => ?_, fun ⟨t, s, s', h⟩ => by rw [h]; rfl⟩
  unfold AppAct.admitted at h
  split at h
  · next t pending' r s s' =>
    split at h
    · next hr =>
      obtain rfl := Option.some.inj h
      exact ⟨t, s, s', by rw [hr]⟩
    · cases h
  · cases h

omit [Crypto] in
/-- **A request is admitted twice**: dated five minutes ahead, it is fresh ten
minutes later, and its id is forgotten. -/
theorem readmitted_after_ten_minutes :
    ∃ (store : Store) (p : (@appThreads Crypto.plain .steady).Running),
      (@appThreads Crypto.plain .steady).Reaches
        (App.boot store 0 0 ⟨0, 0, Nat.zero_le _⟩ []) p ∧ ¬ AdmittedOnce p.state := by
  have hresult : (@playSteady Crypto.plain (replayAfter (seconds 600))).map (fun p =>
      (p.state.acts.filterMap AppAct.admitted).map PendingRequest.request) =
      some [datedAhead, datedAhead] := by decide +kernel
  obtain ⟨p, hp, hresult⟩ := Option.map_eq_some_iff.mp hresult
  obtain ⟨store, -, hp⟩ := Option.bind_eq_some_iff.mp hp
  refine ⟨store, p, Player.play_sound hp, fun h => ?_⟩
  obtain ⟨q, rest, hq, hqreq, hrest⟩ := List.map_eq_cons_iff.mp hresult
  obtain ⟨later, e, earlier, hacts, -, he, hearlier⟩ := List.filterMap_eq_cons_iff.mp hq
  obtain ⟨p', others, hrest, hpreq, -⟩ := List.map_eq_cons_iff.mp hrest
  have hmem : p' ∈ earlier.filterMap AppAct.admitted := by
    rw [hearlier, hrest]
    exact List.mem_cons_self
  obtain ⟨d, hd, hdp⟩ := List.mem_filterMap.mp hmem
  refine h.once e earlier ⟨later, hacts⟩ q (AppAct.admitted_iff.mp he) d hd p'
    (AppAct.admitted_iff.mp hdp) ?_
  rw [SameRequest, hpreq, hqreq]
  exact ⟨rfl, rfl⟩

/-- Whether a message that comes to the free slot is not late. -/
def inTimeFor (e : AppAct) (earlier : List AppAct) : Bool :=
  match e.command with
  | .slot (.enter q) =>
    e.before.pending.slot.isSome ||
      (earlier.filterMap AppAct.admitted).all fun p =>
        q.identity.createdAt - p.identity.createdAt < authSessionTtl
  | _ => true

omit [Crypto] in
theorem noneLate_of_checks {w : AppLog} (h : Log.checks inTimeFor w.acts = true) :
    NoneLate w := by
  intro e earlier he q hq hfree d hd p hp _
  have hcheck := Log.of_checks h he
  rw [inTimeFor, show e.command = .slot (.enter q) from hq] at hcheck
  rcases Bool.or_eq_true_iff.mp hcheck with hbusy | hall
  · rw [hfree] at hbusy
    cases hbusy
  · have hmem : p ∈ earlier.filterMap AppAct.admitted :=
      List.mem_filterMap.mpr ⟨d, hd, AppAct.admitted_iff.mpr hp⟩
    exact of_decide_eq_true (List.all_eq_true.mp hall p hmem)

omit [Crypto] in
/-- The same message, a second earlier. -/
theorem request_admitted_once_replayed : ∃ p : (@appThreads Crypto.plain .steady).Running,
    (p.state.acts.filterMap AppAct.admitted).length = 1 ∧ AdmittedOnce p.state := by
  have hresult : (@playSteady Crypto.plain (replayAfter (seconds 599))).map (fun p =>
      ((p.state.acts.filterMap AppAct.admitted).length, Log.checks inTimeFor p.state.acts)) =
      some (1, true) := by decide +kernel
  obtain ⟨p, hp, hresult⟩ := Option.map_eq_some_iff.mp hresult
  obtain ⟨store, -, hp⟩ := Option.bind_eq_some_iff.mp hp
  obtain ⟨hone, hcheck⟩ := Prod.mk.inj hresult
  exact ⟨p, hone, @request_admitted_once Crypto.plain _ _ (Player.play_sound hp)
    (noneLate_of_checks hcheck)⟩

end Phone
