import Ferusa.Phone.Parts
import Ferusa.Phone.StoreRuns

/-!
# What the expiry tasks end

Two kinds of tasks wait for something to expire. The one that waits for a
request looks at the slot and empties it under one lock: what it takes is
the request it was spawned for, and old enough.

The one that waits for the session looks at the generation under its lock,
gives the lock back, and takes it again only when it clears the session.
In between the session may be locked and opened again, and what is cleared
then is the session that was opened later. So it ends what it was spawned
for exactly when the generation has not changed in between.
-/

namespace Phone

open Discipline AppProg

/-! ## What the tasks may do -/

/-- Of the slot, what is expired may be taken. -/
def TakesExpired (identity : PendingIdentity) (c : AppCmd) : Prop :=
  ∀ o, c = .slot o → o = .takeExpired identity

/-- **The task has looked at the generation**, and has found the one it was
spawned for. -/
def LookedAt (generation : Nat) (i : AppAct) : Prop :=
  i.command = .generation ∧ i.before.generation = generation

/-- The session is cleared, which begins with a new generation. -/
def ClearsAt (e : AppAct) : Prop := e.command = .bumpGeneration

/-- **The task has seen its generation**, and no other. -/
def Seen (generation : Nat) (l : List AppAct) : Prop :=
  (∃ i ∈ l, LookedAt generation i) ∧
    ∀ i ∈ l, i.command = .generation → LookedAt generation i

/-- **What an expiry task may do**: take the request it was spawned for, once
it is expired, or clear the session, having seen its generation. -/
def expiryMay : AppOp → List AppAct → AppAct → Prop
  | .task (.pendingExpiry identity), _, e => TakesExpired identity e.command
  | .task (.sessionExpiry generation), l, e => ClearsAt e → Seen generation l
  | _, _, _ => True

section

/-- A program that has nothing to do with the slot. -/
theorem takesExpired_of_stays {ε α : Type} {identity : PendingIdentity} {parts : List Part}
    {p : Prog AppCmd.Reply ε α} (hp : Stays parts p) (h : Part.slot ∉ parts)
    (ha : Part.admission ∉ parts) (hb : Part.putBack ∉ parts) :
    p.Only (TakesExpired identity) := by
  refine Prog.Only.mono hp fun c hc o ho => ?_
  subst ho
  cases o with
  | enter pending => exact absurd hc ha
  | put pending => exact absurd hc hb
  | restore pending => exact absurd hc hb
  | _ => exact absurd hc h

/-- **The task of a request** takes nothing but that request. -/
theorem pendingExpiryTask_only (identity : PendingIdentity) :
    (pendingExpiryTask identity).Only (TakesExpired identity) := by
  unfold pendingExpiryTask
  refine Prog.Only.bind (takesExpired_of_stays (sleep_stays _) (by decide) (by decide)
    (by decide)) fun _ => ?_
  refine Prog.Only.bind
    (takesExpired_of_stays currentAuthenticatedApprovalAlias_stays (by decide) (by decide)
    (by decide))
    fun approvalAlias => ?_
  unfold takeAndDenyExpiredPending
  refine Prog.Only.bind (Prog.Only.perform fun o ho => ?_) fun taken =>
    takesExpired_of_stays (denyTaken_stays approvalAlias taken) (by decide) (by decide)
    (by decide)
  exact (AppCmd.slot.inj ho).symm

/-- What does not look at the generation. -/
def Blind (c : AppCmd) : Prop := c ≠ .generation

theorem blind_of_stays {ε α : Type} {parts : List Part} {p : Prog AppCmd.Reply ε α}
    (hp : Stays parts p) (h : Part.guard ∉ parts) : p.Only Blind := by
  refine Prog.Only.mono hp fun c hc hgen => ?_
  subst hgen
  exact absurd hc h

/-- **Ending the session** does not look at the generation any more. -/
theorem expireSession_blind : expireSession.Only Blind := by
  unfold expireSession
  refine Prog.Only.bind (blind_of_stays currentAuthenticatedApprovalAlias_stays (by decide))
    fun approvalAlias => ?_
  refine Prog.Only.bind (blind_of_stays (takeAndDenyPending_stays approvalAlias) (by decide))
    fun _ => ?_
  refine Prog.Only.bind ?_ fun _ => Prog.Only.bind (Prog.Only.perform nofun) fun _ =>
    Prog.Only.pure
  unfold AppState.lock AppState.withGeneration
  refine Prog.Only.bind (Prog.Only.perform nofun) fun _ => ?_
  refine Prog.Only.bind (Prog.Only.attempt (blind_of_stays AppState.clearSession_stays
    (by decide))) fun _ => ?_
  exact Prog.Only.bind (Prog.Only.perform nofun) fun _ => Prog.Only.ofExcept

end

variable [Crypto] {Z : Setting} {t generation : Nat} {l : List AppAct}

/-- **The discipline of the expiry tasks.** -/
def expiryDiscipline (Z : Setting) : Discipline (appThreads Z) where
  may _ := expiryMay
  ends _ _ _ _ := True
  rely _ _ _ := True
  rely_refl _ _ := trivial
  rely_trans _ _ := trivial

/-! ## The tasks keep it -/

omit [Crypto] in
theorem Seen.put (h : Seen generation l) {e : AppAct} (he : Blind e.command) :
    Seen generation (e :: l) := by
  obtain ⟨⟨i, hi, hlook⟩, hall⟩ := h
  refine ⟨⟨i, List.mem_cons_of_mem _ hi, hlook⟩, fun i' hi' hgen => ?_⟩
  rcases List.mem_cons.mp hi' with rfl | hi'
  · exact absurd hgen he
  · exact hall i' hi' hgen

/-- **Once the task has seen its generation**, and as long as it does not look
again, it may go on. -/
theorem Seen.keeps {ε α : Type} {p : Prog AppCmd.Reply ε α} (h : Seen generation l)
    (hp : p.Only Blind) : (expiryDiscipline Z).Keeps t (.task (.sessionExpiry generation)) l p
      fun _ _ => True := by
  induction p generalizing l with
  | ret a => exact Keeps.ret trivial
  | fail e => exact Keeps.fail trivial
  | call c k ih => exact Keeps.call fun r s s' _ _ => ⟨fun _ => h, ih r (h.put hp.1) (hp.2 r)⟩

/-- **Looking at the generation**, for the first time. -/
theorem look_keeps (hl : ∀ i ∈ l, Blind i.command) : (expiryDiscipline Z).Keeps t
    (.task (.sessionExpiry generation)) l (AppState.withGeneration (put .generation))
    fun x l' => ∀ current, x = .ok current → Seen current l' := by
  unfold AppState.withGeneration put
  simp only [Prog.perform_bind]
  refine Keeps.call fun _ s s' _ _ => ⟨nofun, ?_⟩
  refine Keeps.attempt_bind (M := fun x l' => ∀ current, x = .ok current → Seen current l') ?_
    fun x l' hx => ?_
  · refine Keeps.call fun current u u' _ hx => ⟨nofun, Keeps.ret fun current' hcurrent => ?_⟩
    obtain ⟨-, hr, -⟩ := App.exec_generation.mp hx
    obtain rfl := Except.ok.inj hcurrent
    refine ⟨⟨_, List.mem_cons_self, rfl, hr.symm⟩, fun i hi hgen => ?_⟩
    rcases List.mem_cons.mp hi with rfl | hi
    · exact ⟨rfl, hr.symm⟩
    · rcases List.mem_cons.mp hi with rfl | hi
      · cases hgen
      · exact absurd hgen (hl i hi)
  · refine Keeps.call fun _ u u' _ _ => ⟨nofun, Keeps.ofExcept fun current hcurrent => ?_⟩
    exact (hx current hcurrent).put nofun

/-- **The task of a session** clears it only after it has seen its
generation. -/
theorem sessionExpiryTask_keeps : (expiryDiscipline Z).Keeps t
    (.task (.sessionExpiry generation)) [] (sessionExpiryTask generation) fun _ _ => True := by
  unfold sessionExpiryTask
  refine Keeps.bind (M := fun _ l => ∀ i ∈ l, Blind i.command) ?_ ?_ fun _ _ _ => trivial
  · unfold sleep put
    simp only [Prog.perform_bind]
    refine Keeps.call fun now s s' _ _ => ⟨nofun, Keeps.call fun _ u u' _ _ => ⟨nofun, ?_⟩⟩
    refine Keeps.ret fun i hi => ?_
    simp only [List.mem_cons, List.not_mem_nil, or_false] at hi
    rcases hi with rfl | rfl <;> exact nofun
  · intro _ l hl
    refine Keeps.bind (look_keeps hl) (fun current l' hseen => ?_) fun _ _ _ => trivial
    unfold put
    simp only [Prog.perform_bind]
    refine Keeps.call fun unlockedAt s s' _ _ => ⟨nofun, ?_⟩
    split
    · next h =>
      obtain rfl := h.1
      have hread : Seen current (⟨t, .read .unlockedAt, unlockedAt, s, s'⟩ :: l') :=
        (hseen current rfl).put nofun
      exact hread.keeps expireSession_blind
    · exact Keeps.pure trivial

/-- **The programs keep the discipline.** -/
theorem expiryDiscipline_valid (Z : Setting) : (expiryDiscipline Z).Valid where
  keeps t op := by
    cases op with
    | task task =>
      cases task with
      | pendingExpiry identity =>
        exact (Keeps.only (pendingExpiryTask_only identity) fun _ _ _ _ _ hc _ => hc).mono
          fun _ _ _ => trivial
      | sessionExpiry generation => exact sessionExpiryTask_keeps
    | _ =>
      exact (Keeps.only (P := fun _ => True) (Prog.Only.of_forall fun _ => trivial)
        fun _ _ _ _ _ _ _ => trivial).mono fun _ _ _ => trivial
  put _ _ _ := trivial
  start _ := trivial
  env _ := trivial

/-! ## What a whole run keeps -/

/-- The generation has not changed. -/
def Unmoved (l : List AppAct) : Prop := ∀ b ∈ l, b.after.generation = b.before.generation

/-- **What is known of the generation since a thread has looked at it**: it is
not smaller, and the same only where it has not changed. -/
structure SinceLook (i : AppAct) (later : List AppAct) (generation : Nat) : Prop where
  le : i.before.generation ≤ generation
  same : generation = i.before.generation ↔ Unmoved later

omit [Crypto] in
/-- One more act, by whomever. -/
theorem SinceLook.put {i e : AppAct} {later : List AppAct}
    (h : SinceLook i later e.before.generation)
    (he : e.before.generation ≤ e.after.generation) :
    SinceLook i (e :: later) e.after.generation := by
  refine ⟨h.le.trans he, ?_⟩
  have hle := h.le
  rw [Unmoved, List.forall_mem_cons]
  refine ⟨fun hsame => ?_, fun ⟨hmoved, hrest⟩ => hmoved.trans (h.same.mpr hrest)⟩
  have hbefore : e.before.generation = i.before.generation := by omega
  exact ⟨hsame.trans hbefore.symm, h.same.mp hbefore⟩

/-- A command does not take the generation back. -/
theorem generation_le {c : AppCmd} {r : c.Reply} {s s' : App} (h : App.Exec t c s r s')
    (hs : s.generation ≤ u64Max) : s.generation ≤ s'.generation ∧ s'.generation ≤ u64Max := by
  by_cases hc : c = .bumpGeneration
  · subst hc
    obtain ⟨-, -, rfl⟩ := App.exec_bumpGeneration.mp h
    show s.generation ≤ saturatingAdd s.generation 1 ∧ saturatingAdd s.generation 1 ≤ u64Max
    unfold saturatingAdd
    omega
  · rw [h.framed.generation hc]
    exact ⟨Nat.le_refl _, hs⟩

/-- **What is known of every run** of the generation: since each look of a
running thread, and between a look and a later act of the same thread. -/
structure ExpiryInv (w : AppLog) : Prop where
  bounded : w.state.generation ≤ u64Max
  since : ∀ later i earlier, w.acts = later ++ i :: earlier → w.ended i.thread = none →
    i.command = .generation → SinceLook i later w.state.generation
  acted : ∀ e earlier, w.Happened e earlier → ∀ later i early, earlier = later ++ i :: early →
    i.thread = e.thread → i.command = .generation → SinceLook i later e.before.generation

/-- **Every move keeps it.** A crash ends every thread, and with it what is
known of its looks. -/
theorem ExpiryInv.move {w w' : AppLog} (h : ExpiryInv w) (hs : (expiryDiscipline Z).Followed w)
    (hm : (expiryDiscipline Z).Move w w') : ExpiryInv w' := by
  cases hm with
  | @put t op c r s' hop hrun hx hm =>
    obtain ⟨hle, hbounded⟩ := generation_le hx h.bounded
    refine ⟨hbounded, ?_, ?_⟩
    · intro later i earlier hacts hend hgen
      have hacts : (⟨t, c, r, w.state, s'⟩ : AppAct) :: w.acts = later ++ i :: earlier := hacts
      cases later with
      | nil =>
        have hi : (⟨t, c, r, w.state, s'⟩ : AppAct) = i := (List.cons.inj hacts).1
        subst hi
        have hc : c = .generation := hgen
        subst hc
        have hsame : s' = w.state := (App.exec_generation.mp hx).2.2
        subst hsame
        exact ⟨Nat.le_refl _, fun _ b hb => absurd hb List.not_mem_nil, fun _ => rfl⟩
      | cons e later =>
        have he : (⟨t, c, r, w.state, s'⟩ : AppAct) = e := (List.cons.inj hacts).1
        subst he
        exact (h.since later i earlier (List.cons.inj hacts).2 hend hgen).put hle
    · intro e earlier he later i early heq hthread hgen
      rcases happened_put he with ⟨rfl, rfl⟩ | he
      · exact h.since later i early heq (hthread ▸ hrun) hgen
      · exact h.acted e earlier he later i early heq hthread hgen
  | @finish t op x hop hrun he =>
    refine ⟨h.bounded, fun later i earlier hacts hend hgen => ?_, h.acted⟩
    rw [Log.finish_ended] at hend
    split at hend
    · cases hend
    · exact h.since later i earlier hacts hend hgen
  | @start t op s' ht hown hend hstart =>
    obtain ⟨spawned, rfl⟩ := AppOp.Starts.spawned hstart
    exact ⟨h.bounded, h.since, h.acted⟩
  | @env s' he =>
    have hgen : s'.generation = w.state.generation := by cases he.1 <;> rfl
    refine ⟨hgen ▸ h.bounded, fun later i earlier hacts hrun hlook => ?_, h.acted⟩
    exact hgen ▸ h.since later i earlier hacts hrun hlook
  | @crash s' hcrash =>
    obtain ⟨⟨now, epoch, clock, rfl, -⟩, -⟩ := hcrash
    refine ⟨Nat.zero_le _, fun later i earlier hacts hrun hlook => ?_, h.acted⟩
    -- whoever has looked was started
    have hmem : w.Happened i earlier := ⟨later, hacts⟩
    obtain ⟨op, hop, -, -⟩ := hs i earlier hmem
    rw [Log.crash_ended] at hrun
    split at hrun
    · cases hrun
    · next hnot => exact absurd ⟨by rw [hop]; rfl, hrun⟩ hnot

/-! ## What the tasks end -/

/-- The task a thread runs. -/
def RunsTask (w : AppLog) (e : AppAct) (task : Task) : Prop := w.ops e.thread = some (.task task)

/-- **The expiry tasks only end what they were spawned for.** -/
structure EndsItsOwn (w : AppLog) : Prop where
  /-- What the task of a request takes out of the slot is that request, and
  it is expired. -/
  pending : ∀ e ∈ w.acts, ∀ identity, RunsTask w e (.pendingExpiry identity) →
    e.after.pending ≠ e.before.pending →
    ∃ pending, e.before.pending.slot = some pending ∧ pending.identity = identity ∧
      pendingRequestTtl ≤ e.before.now - pending.identity.createdAt ∧
      e.after.pending.slot = none
  /-- The task of a session clears it in its generation. -/
  session : ∀ e ∈ w.acts, ∀ generation, RunsTask w e (.sessionExpiry generation) →
    ClearsAt e → e.before.generation = generation

/-- **The generation has not changed** between the look of a task at it and
the clearing that follows. -/
def Undisturbed (w : AppLog) : Prop :=
  ∀ e earlier, w.Happened e earlier → ∀ generation, RunsTask w e (.sessionExpiry generation) →
    ClearsAt e → ∀ later i early, earlier = later ++ i :: early → i.thread = e.thread →
      i.command = .generation → Unmoved later

omit [Crypto] in
theorem takeExpired_apply (identity : PendingIdentity) (now : Nat) (p : Pending) :
    (SlotOp.takeExpired identity).apply now p =
      if p.slot.any fun current => pendingRequestIsExpired current.identity identity now then
        (p.slot, { p with slot := none })
      else (none, p) := rfl

/-- **What the task of a request takes** is that request, once it is
expired. -/
theorem takes_expired {c : AppCmd} {r : c.Reply} {s s' : App} {identity : PendingIdentity}
    (hc : TakesExpired identity c) (h : App.Exec t c s r s') (hne : s'.pending ≠ s.pending) :
    ∃ pending, s.pending.slot = some pending ∧ pending.identity = identity ∧
      pendingRequestTtl ≤ s.now - pending.identity.createdAt ∧ s'.pending.slot = none := by
  by_cases hslot : ∃ o, c = .slot o
  · obtain ⟨o, rfl⟩ := hslot
    obtain rfl := hc o rfl
    obtain ⟨-, rfl⟩ := App.exec_slot.mp h
    have hne : ((SlotOp.takeExpired identity).apply s.now s.pending).2 ≠ s.pending := hne
    show ∃ pending, s.pending.slot = some pending ∧ pending.identity = identity ∧
      pendingRequestTtl ≤ s.now - pending.identity.createdAt ∧
      ((SlotOp.takeExpired identity).apply s.now s.pending).2.slot = none
    rw [takeExpired_apply] at hne ⊢
    cases hp : s.pending.slot with
    | none => simp [hp] at hne
    | some pending =>
      by_cases hexp : pendingRequestIsExpired pending.identity identity s.now = true
      · obtain ⟨hid, hold⟩ : pending.identity = identity ∧
            pendingRequestTtl ≤ s.now - pending.identity.createdAt := by
          simpa [pendingRequestIsExpired] using hexp
        exact ⟨pending, rfl, hid, hold, by simp [hexp]⟩
      · simp [hp, hexp] at hne
  · exact absurd (h.aside.pending fun o ho => hslot ⟨o, ho⟩) hne

/-- **The task of a request takes nothing but that request**, in every run, and only
when it has been there for its whole time. -/
theorem pendingExpiry_takes_own {store : Store} {now epoch : Nat} {clock : ClockSnapshot}
    {usedUuids : List Uuid} {p : (appThreads .any).Running}
    (hp : (appThreads .any).Reaches (App.boot store now epoch clock usedUuids) p) {e : AppAct}
    (he : e ∈ p.state.acts) {identity : PendingIdentity}
    (hrun : RunsTask p.state e (.pendingExpiry identity))
    (hne : e.after.pending ≠ e.before.pending) :
    ∃ pending, e.before.pending.slot = some pending ∧ pending.identity = identity ∧
      pendingRequestTtl ≤ e.before.now - pending.identity.createdAt ∧
      e.after.pending.slot = none := by
  obtain ⟨earlier, he⟩ := Log.happened_of_mem he
  obtain ⟨op, hop, hx, hmay⟩ := (expiryDiscipline_valid .any).followed hp e earlier he
  obtain rfl := Option.some.inj (hrun.symm.trans hop)
  exact takes_expired hmay hx hne

/-- **Expiry tasks and what they were spawned for.** In every run the task of
a request takes nothing but that request, and only when it has been there
for its whole time. The tasks of a session clear nothing but their own one
exactly if the generation never changes between the look at it and the
clearing. -/
theorem expiry_ends_its_own_iff {store : Store} {now epoch : Nat} {clock : ClockSnapshot}
    {usedUuids : List Uuid} {p : (appThreads .any).Running}
    (hp : (appThreads .any).Reaches (App.boot store now epoch clock usedUuids) p) :
    EndsItsOwn p.state ↔ Undisturbed p.state := by
  have hfollowed := (expiryDiscipline_valid .any).followed hp
  have hinv : ExpiryInv p.state := by
    refine ((expiryDiscipline_valid .any).invariant
      (I := fun w => (expiryDiscipline .any).Followed w ∧ ExpiryInv w) ⟨?_, ?_, ?_, ?_⟩ ?_ hp).2
    · rintro e early ⟨later, h⟩
      simp [Log.empty] at h
    · exact Nat.zero_le _
    · exact fun _ _ _ h => by simp [Log.empty] at h
    · rintro e early ⟨later, h⟩
      simp [Log.empty] at h
    · exact fun h hm => ⟨h.1.move hm, h.2.move h.1 hm⟩
  -- what a clearing was allowed by
  have hseen : ∀ e earlier, p.state.Happened e earlier → ∀ generation,
      RunsTask p.state e (.sessionExpiry generation) → ClearsAt e →
      Seen generation (earlier.filter fun e' => e'.thread = e.thread) := by
    intro e earlier he generation hrun hclear
    obtain ⟨op, hop, -, hmay⟩ := hfollowed e earlier he
    obtain rfl := Option.some.inj (hrun.symm.trans hop)
    exact hmay hclear
  refine ⟨fun h e earlier he generation hrun hclear later i early heq hthread hgen => ?_,
    fun h => ⟨fun e hmem identity => pendingExpiry_takes_own hp hmem,
      fun e hmem generation hrun hclear => ?_⟩⟩
  · obtain ⟨-, hall⟩ := hseen e earlier he generation hrun hclear
    have hi : i ∈ earlier.filter fun e' => e'.thread = e.thread :=
      List.mem_filter.mpr ⟨by simp [heq], by simpa using hthread⟩
    refine (hinv.acted e earlier he later i early heq hthread hgen).same.mp ?_
    rw [h.session e he.mem generation hrun hclear, (hall i hi hgen).2]
  · obtain ⟨earlier, he⟩ := Log.happened_of_mem hmem
    obtain ⟨⟨i, hi, hlook⟩, -⟩ := hseen e earlier he generation hrun hclear
    obtain ⟨hmem', hthread⟩ := List.mem_filter.mp hi
    obtain ⟨later, early, heq⟩ := List.append_of_mem hmem'
    have hthread : i.thread = e.thread := by simpa using hthread
    have hsame := (hinv.acted e earlier he later i early heq hthread hlook.1).same.mpr
      (h e earlier he generation hrun hclear later i early heq hthread hlook.1)
    exact hsame.trans hlook.2

/-! ## A session that was opened later -/

/-- The store after a first pairing. -/
def pairedStore : Option Store := (Bench.initial.play firstPairing).map Bench.store

/-- The session is unlocked; its task wakes up and looks at the generation;
the session is unlocked once more; and the task goes on. -/
def unlockBeforeExpiry : List (Play AppOp Answers EnvMove) :=
  [.start 0 (.setAppForeground true), .run 0 willing 20,
    .start 0 .biometricUnlock, .run 1 willing 200,
    .start 0 (.task (.sessionExpiry 1)), .run 2 willing 1, .outside (.tick (seconds 601)),
    .run 2 willing 5,
    .start 0 .biometricUnlock, .run 3 willing 200,
    .run 2 willing 50]

/-- The generations in which a thread has cleared the session. -/
def clearedBy (t : Nat) (acts : List AppAct) : List Nat :=
  acts.filterMap fun e =>
    match e.command with
    | .bumpGeneration => if e.thread = t then some e.before.generation else none
    | _ => none

omit [Crypto] in
theorem of_mem_clearedBy {t generation : Nat} {acts : List AppAct}
    (h : generation ∈ clearedBy t acts) :
    ∃ e ∈ acts, e.thread = t ∧ ClearsAt e ∧ e.before.generation = generation := by
  obtain ⟨e, he, h⟩ := List.mem_filterMap.mp h
  split at h
  · next hc =>
    split at h
    · next ht => exact ⟨e, he, ht, hc, Option.some.inj h⟩
    · cases h
  · cases h

/-- The task a thread was started with. -/
def taskOf : Option AppOp → Option Task
  | some (.task task) => some task
  | _ => none

omit [Crypto] in
theorem eq_of_taskOf {op : Option AppOp} {task : Task} (h : taskOf op = some task) :
    op = some (.task task) := by
  unfold taskOf at h
  split at h
  · rw [Option.some.inj h]
  · cases h

omit [Crypto] in
/-- That run: the task of the first session clears the second one. -/
theorem unlockBeforeExpiry_clears : ∃ (store : Store) (p : (@appThreads Crypto.plain .any).Running),
    (@appThreads Crypto.plain .any).Reaches (App.boot store 0 0 ⟨0, 0, Nat.zero_le _⟩ []) p ∧
    ∃ e ∈ p.state.acts, RunsTask p.state e (.sessionExpiry 1) ∧ ClearsAt e ∧
      e.before.generation = 2 := by
  let played := (@pairedStore Crypto.plain).bind fun store =>
    (@appPlayer Crypto.plain).play unlockBeforeExpiry
      (Pool.idle (Log.empty (App.boot store 0 0 ⟨0, 0, Nat.zero_le _⟩ [])))
  have hresult : played.map (fun p => (taskOf (p.state.ops 2), clearedBy 2 p.state.acts)) =
      some (some (.sessionExpiry 1), [2]) := by decide +kernel
  obtain ⟨p, hp, hresult⟩ := Option.map_eq_some_iff.mp hresult
  obtain ⟨store, -, hp⟩ := Option.bind_eq_some_iff.mp hp
  obtain ⟨htask, hcleared⟩ := Prod.mk.inj hresult
  have hmem : 2 ∈ clearedBy 2 p.state.acts := hcleared ▸ List.mem_singleton_self 2
  obtain ⟨e, he, hthread, hclear, hgen⟩ := of_mem_clearedBy hmem
  refine ⟨store, p, Player.play_sound hp, e, he, ?_, hclear, hgen⟩
  rw [RunsTask, hthread]
  exact eq_of_taskOf htask

omit [Crypto] in
/-- **A session that was opened later is ended**: the task of the session
before it clears it. -/
theorem expiry_ends_later_session :
    ∃ (store : Store) (p : (@appThreads Crypto.plain .any).Running),
      (@appThreads Crypto.plain .any).Reaches (App.boot store 0 0 ⟨0, 0, Nat.zero_le _⟩ []) p ∧
      ¬ EndsItsOwn p.state := by
  obtain ⟨store, p, hp, e, he, htask, hclear, hgen⟩ := unlockBeforeExpiry_clears
  refine ⟨store, p, hp, fun h => ?_⟩
  have hsame := h.session e he 1 htask hclear
  omega

omit [Crypto] in
/-- In that run the generation changes between the look and the clearing. -/
theorem expiry_ends_its_own_iff_laterSession :
    ∃ (store : Store) (p : (@appThreads Crypto.plain .any).Running),
      (@appThreads Crypto.plain .any).Reaches (App.boot store 0 0 ⟨0, 0, Nat.zero_le _⟩ []) p ∧
      ¬ Undisturbed p.state := by
  obtain ⟨store, p, hp, e, he, htask, hclear, hgen⟩ := unlockBeforeExpiry_clears
  refine ⟨store, p, hp, fun h => ?_⟩
  have hsame := ((@expiry_ends_its_own_iff Crypto.plain _ _ _ _ _ _ hp).mpr h).session e he 1
    htask hclear
  omega

end Phone
