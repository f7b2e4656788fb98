import Ferusa.Phone.Instances

/-!
# What is approved once

Every approval is of one instance of a request: the one that the command
has seen in the slot, verified a PIN for, and taken out while its session
lasted. No other approval is of that instance.

That the session is unlocked is checked before the slot is waited for.
While it is, the session may come of age: the instance that is taken out
then is approved all the same.
-/

namespace Phone

open Discipline AppProg

/-! ## The statement -/

/-- **The PIN was verified for the instance** by the thread, after it was
admitted. -/
def VerifiedSinceAdmission (t : Nat) (l : List AppAct) (p : PendingRequest) : Prop :=
  ∃ later v early, l = later ++ v :: early ∧ v.thread = t ∧
    VerifiesFor (early.filter fun b => b.thread = t) v p ∧
    ∃ d ∈ early, Admits d p ∧ d.before.generation = p.identity.sessionGeneration

/-- **The instance is the thread's to answer**: it was taken out in its session,
the unlock having been found current, and the PIN verified before; and it was
not put back since. -/
def TookToAnswer (t : Nat) (l : List AppAct) (p : PendingRequest) : Prop :=
  ∃ later k early, l = later ++ k :: early ∧ k.thread = t ∧ TakesInSession k p ∧
    (∀ b ∈ later, b.thread = t → ¬ PutsBack b p) ∧
    FoundUnlocked t (early.filter fun b => b.thread = t) ∧ VerifiedSinceAdmission t early p

/-- **An approval of the instance.** -/
structure ApprovalOf (w : AppLog) (e : AppAct) (earlier : List AppAct) (p : PendingRequest) :
    Prop where
  approves : ∃ op, w.ops e.thread = some op ∧ op.Approves
  took : TookToAnswer e.thread earlier p
  answers : ∃ resp, SendsApproval e resp ∧ AnswersFor resp p

/-- **Every approval is of one instance, and no instance is approved twice.** -/
structure ApprovedOnce (w : AppLog) : Prop where
  bound : ∀ e earlier, w.Happened e earlier → ∀ resp, SendsApproval e resp →
    ∃ p, ApprovalOf w e earlier p
  once : ∀ e earlier, w.Happened e earlier → ∀ p, ApprovalOf w e earlier p →
    ∀ d before later, earlier = later ++ d :: before → ¬ ApprovalOf w d before p

variable [Crypto] {Z : Setting} {t : Nat} {l : List AppAct} {w : AppLog}

/-! ## Where instances come from -/

/-- **Whatever is in the slot**, now or before an act, was admitted. -/
structure SlotAdmitted (l : List AppAct) (s : App) : Prop where
  now : ∀ p, s.pending.slot = some p → ∃ d ∈ l, Admits d p
  before : ∀ e ∈ l, ∀ p, e.before.pending.slot = some p → ∃ d ∈ l, Admits d p

/-- **One more act.** -/
theorem SlotAdmitted.put {op : AppOp} {c : AppCmd} {r : c.Reply} {s s' : App}
    (h : SlotAdmitted l s) (hx : App.Exec t c s r s')
    (hm : InstanceMay t op (l.filter fun e => e.thread = t) ⟨t, c, r, s, s'⟩) :
    SlotAdmitted (⟨t, c, r, s, s'⟩ :: l) s' := by
  have hbefore : ∀ p, (∃ d ∈ l, Admits d p) →
      ∃ d ∈ (⟨t, c, r, s, s'⟩ : AppAct) :: l, Admits d p :=
    fun p ⟨d, hd, hp⟩ => ⟨d, List.mem_cons_of_mem _ hd, hp⟩
  refine ⟨fun p hp => ?_, fun e he p hp => ?_⟩
  · rcases slot_cases hx with hsame | ⟨q, htakes⟩ | ⟨q, hq, hback | hadmits⟩
    · exact hbefore p (h.now p (hsame ▸ hp))
    · cases htakes.after.symm.trans hp
    · -- who puts an instance back has taken it out of the slot
      obtain rfl := Option.some.inj (hq.symm.trans hp)
      obtain ⟨⟨later, k, early, heq, htakes, -⟩, -⟩ := hm.puts q hback
      have hk : k ∈ l := (List.mem_filter.mp (heq ▸ List.mem_append_right _ List.mem_cons_self)).1
      exact hbefore q (h.before k hk q htakes.before)
    · obtain rfl := Option.some.inj (hq.symm.trans hp)
      exact ⟨_, List.mem_cons_self, hadmits⟩
  · rcases List.mem_cons.mp he with rfl | he
    · exact hbefore p (h.now p hp)
    · exact hbefore p (h.before e he p hp)

/-- **Ids are made once**: those that were made are used. -/
def MadeUsed (l : List AppAct) (s : App) : Prop :=
  ∀ e ∈ l, ∀ u id s₁ s₁', e = ⟨u, .newUuid, id, s₁, s₁'⟩ → id ∈ s.usedUuids

theorem MadeUsed.put {c : AppCmd} {r : c.Reply} {s s' : App} (h : MadeUsed l s)
    (hx : App.Exec t c s r s') : MadeUsed (⟨t, c, r, s, s'⟩ :: l) s' := by
  intro e he u id s₁ s₁' heq
  rcases List.mem_cons.mp he with rfl | he
  · cases heq
    obtain ⟨-, rfl⟩ := App.exec_newUuid.mp hx
    exact List.mem_cons_self
  · have hused := h e he u id s₁ s₁' heq
    by_cases hc : c = .newUuid
    · subst hc
      obtain ⟨-, rfl⟩ := App.exec_newUuid.mp hx
      exact List.mem_cons_of_mem _ hused
    · rwa [hx.aside.usedUuids hc]

/-- **No id was made twice.** -/
def MadeOnce (w : AppLog) : Prop :=
  ∀ e earlier, w.Happened e earlier → ∀ u id s s', e = ⟨u, .newUuid, id, s, s'⟩ →
    ∀ b ∈ earlier, ∀ u' s₁ s₁', b ≠ ⟨u', .newUuid, id, s₁, s₁'⟩

/-- **What is known of instances** in a run: who has one has it alone. -/
structure InstanceInv (Z : Setting) (w : AppLog) : Prop where
  followed : Followed (instanceDiscipline Z) w
  slot : SlotAdmitted w.acts w.state
  used : MadeUsed w.acts w.state
  madeOnce : MadeOnce w
  away : ∀ t p, Owns (w.own t) p → w.state.pending.slot ≠ some p
  owner : ∀ t u p, Owns (w.own t) p → Owns (w.own u) p → t = u

/-- **No instance enters twice**: its id was made once, and the thread that made it
lets one message in with it. -/
theorem entered_once (hfollowed : Followed (instanceDiscipline Z) w) (hmade : MadeOnce w)
    {e : AppAct} {earlier : List AppAct} (he : w.Happened e earlier) {p : PendingRequest}
    (hp : Enters e p) {d : AppAct} (hd : d ∈ earlier) {q : PendingRequest} (hq : Enters d q) :
    p.identity.instanceId ≠ q.identity.instanceId := by
  intro hsame
  obtain ⟨_, -, -, hmay⟩ := hfollowed e earlier he
  have hmay : InstanceMay _ _ _ _ := hmay
  obtain ⟨later₁, m₁, early₁, heq₁, ⟨s₁, s₁', hm₁⟩, hnone⟩ := (hmay.drafts p hp).drafting
  obtain ⟨l₁, l₂, hsplit, -, hlater, -⟩ := Log.own_split heq₁
  obtain ⟨k₁, k₂, hd'⟩ := List.append_of_mem hd
  obtain ⟨before, hbefore⟩ := he
  have hdhap : w.Happened d k₂ := ⟨before ++ e :: k₁, by rw [hbefore, hd']; simp⟩
  obtain ⟨_, -, -, hmay'⟩ := hfollowed d k₂ hdhap
  have hmay' : InstanceMay _ _ _ _ := hmay'
  obtain ⟨later₂, m₂, early₂, heq₂, ⟨s₂, s₂', hm₂⟩, -⟩ := (hmay'.drafts q hq).drafting
  have hmem₂ : m₂ ∈ k₂ :=
    (List.mem_filter.mp (heq₂ ▸ List.mem_append_right _ List.mem_cons_self)).1
  have hmhap : w.Happened m₁ l₂ := ⟨before ++ e :: l₁, by rw [hbefore, hsplit]; simp⟩
  rw [← hsame] at hm₂
  have hnotearly : m₂ ∉ l₂ := fun h => hmade m₁ l₂ hmhap _ _ _ _ hm₁ m₂ h _ _ _ hm₂
  have hne : m₁ ≠ d := by
    rintro rfl
    rw [hm₁] at hq
    cases hq
  -- the id of `q` was made after all that was before the id of `p`
  rcases List.append_eq_append_iff.mp (hsplit.symm.trans hd') with ⟨m, -, hm⟩ | ⟨m, hl₁, hm⟩
  · rcases List.cons_eq_append_iff.mp hm with ⟨-, hm⟩ | ⟨m', -, hm⟩
    · exact hne (List.cons.inj hm).1.symm
    · exact hnotearly (hm ▸ List.mem_append_right _ (List.mem_cons_of_mem _ hmem₂))
  · rcases List.cons_eq_append_iff.mp hm with ⟨-, hm⟩ | ⟨m', rfl, hk₂⟩
    · exact hne (List.cons.inj hm).1
    · rw [hk₂] at hmem₂
      rcases List.mem_append.mp hmem₂ with hlate | hmem₂
      · obtain ⟨n₁, n₂, rfl⟩ := List.append_of_mem hlate
        have hhap : w.Happened m₂ (n₂ ++ m₁ :: l₂) :=
          ⟨before ++ e :: (k₁ ++ d :: n₁), by rw [hbefore, hd', hk₂]; simp⟩
        exact hmade m₂ _ hhap _ _ _ _ hm₂ m₁ (List.mem_append_right _ List.mem_cons_self)
          _ _ _ hm₁
      · rcases List.mem_cons.mp hmem₂ with rfl | hmem₂
        · -- one thread made both, and has let one in already
          have hthread : d.thread = e.thread := by
            rw [hm₁] at hm₂
            exact (Act.mk.inj hm₂).1.symm
          refine hnone d ?_ q hq
          rw [← hlater, hl₁]
          exact List.mem_filter.mpr ⟨List.mem_append_right _ List.mem_cons_self,
            decide_eq_true hthread⟩
        · exact hnotearly hmem₂

omit [Crypto] in
/-- What an act makes of what its thread has. -/
theorem Owns.of_cons {e : AppAct} {p : PendingRequest} (h : Owns (e :: l) p) :
    Takes e p ∨ Owns l p ∧ ¬ PutsBack e p := by
  obtain ⟨later, k, early, heq, htakes, hback⟩ := h
  cases later with
  | nil => exact .inl ((List.cons.inj heq).1 ▸ htakes)
  | cons b later =>
    obtain ⟨rfl, rfl⟩ := List.cons.inj heq
    exact .inr ⟨⟨later, k, early, rfl, htakes, fun b hb => hback b (List.mem_cons_of_mem _ hb)⟩,
      hback e List.mem_cons_self⟩

omit [Crypto] in
/-- Who has an instance has taken it out. -/
theorem Owns.takes {p : PendingRequest} (h : Owns l p) : ∃ k ∈ l, Takes k p := by
  obtain ⟨later, k, early, rfl, htakes, -⟩ := h
  exact ⟨k, List.mem_append_right _ List.mem_cons_self, htakes⟩

omit [Crypto] in
/-- **What one more act makes of who has what.** -/
theorem InstanceInv.owns_put {c : AppCmd} {r : c.Reply} {s' : App} {u : Nat} {p : PendingRequest}
    (h : Owns ((w.put t c r s').own u) p) :
    u = t ∧ Takes ⟨t, c, r, w.state, s'⟩ p ∨
      Owns (w.own u) p ∧ (u = t → ¬ PutsBack ⟨t, c, r, w.state, s'⟩ p) := by
  by_cases hut : u = t
  · subst hut
    rw [Log.own_put_self] at h
    rcases h.of_cons with htakes | ⟨howns, hback⟩
    · exact .inl ⟨rfl, htakes⟩
    · exact .inr ⟨howns, fun _ => hback⟩
  · rw [Log.own_put_of_ne _ _ _ _ (Ne.symm hut)] at h
    exact .inr ⟨h, fun h => absurd h hut⟩

/-- **Every act keeps it.** -/
theorem InstanceInv.put {op : AppOp} {c : AppCmd} {r : c.Reply} {s' : App} (h : InstanceInv Z w)
    (hop : w.ops t = some op) (hx : App.Exec t c w.state r s')
    (hm : InstanceMay t op (w.own t) ⟨t, c, r, w.state, s'⟩) : InstanceInv Z (w.put t c r s') := by
  have hfollowed : Followed (instanceDiscipline Z) (w.put t c r s') := by
    intro e earlier he
    rcases happened_put he with ⟨rfl, rfl⟩ | he
    · exact ⟨op, hop, hx, hm⟩
    · exact h.followed e earlier he
  have hmade : MadeOnce (w.put t c r s') := by
    intro e earlier he u id s₁ s₁' heq b hb u' s₂ s₂' hbeq
    rcases happened_put he with ⟨rfl, rfl⟩ | he
    · cases heq
      exact (App.exec_newUuid.mp hx).1 (h.used b hb u' _ s₂ s₂' hbeq)
    · exact h.madeOnce e earlier he u id s₁ s₁' heq b hb u' s₂ s₂' hbeq
  refine ⟨hfollowed, h.slot.put hx hm, h.used.put hx, hmade, fun u p hu hp => ?_,
    fun u v p hu hv => ?_⟩
  · have hp : s'.pending.slot = some p := hp
    rcases InstanceInv.owns_put hu with ⟨-, htakes⟩ | ⟨howns, hnot⟩
    · cases htakes.after.symm.trans hp
    rcases slot_cases hx with hsame | ⟨q, htakes⟩ | ⟨q, hq, hback | hadmits⟩
    · exact h.away u p howns (hsame ▸ hp)
    · cases htakes.after.symm.trans hp
    · obtain rfl := Option.some.inj (hq.symm.trans hp)
      exact hnot (h.owner u t q howns (hm.puts q hback).1) hback
    · -- what is admitted is new, and what someone has is not
      obtain rfl := Option.some.inj (hq.symm.trans hp)
      obtain ⟨k, hk, htakes⟩ := howns.takes
      obtain ⟨d, hd, hadmits'⟩ := h.slot.before k (List.mem_filter.mp hk).1 q htakes.before
      exact entered_once hfollowed hmade ⟨[], rfl⟩ hadmits.enters hd hadmits'.enters rfl
  -- who takes an instance out finds it in the slot, so nobody had it
  · rcases InstanceInv.owns_put hu with ⟨rfl, htakes⟩ | ⟨hu₀, -⟩
    · rcases InstanceInv.owns_put hv with ⟨rfl, -⟩ | ⟨hv₀, -⟩
      · rfl
      · exact absurd htakes.before (h.away v p hv₀)
    · rcases InstanceInv.owns_put hv with ⟨rfl, htakes⟩ | ⟨hv₀, -⟩
      · exact absurd htakes.before (h.away u p hu₀)
      · exact h.owner u v p hu₀ hv₀

/-- **Every move keeps it.** -/
theorem InstanceInv.move {w' : AppLog} (h : InstanceInv Z w)
    (hm : (instanceDiscipline Z).Move w w') : InstanceInv Z w' := by
  have hfollowed := h.followed.move hm
  cases hm with
  | put hop hrun hx hm => exact h.put hop hx hm
  | finish hop hrun he => exact ⟨hfollowed, h.slot, h.used, h.madeOnce, h.away, h.owner⟩
  | @start t op s' ht hown hend hstart =>
    obtain ⟨spawned, rfl⟩ := AppOp.Starts.spawned hstart
    exact ⟨hfollowed, ⟨h.slot.now, h.slot.before⟩, h.used, h.madeOnce, h.away, h.owner⟩
  | @env s' he =>
    obtain ⟨hpending, hused⟩ : s'.pending = w.state.pending ∧ s'.usedUuids = w.state.usedUuids := by
      obtain ⟨he, -⟩ := he
      cases he <;> exact ⟨rfl, rfl⟩
    exact ⟨hfollowed, ⟨fun p hp => h.slot.now p (hpending ▸ hp), h.slot.before⟩,
      fun e he u id s₁ s₁' heq => hused ▸ h.used e he u id s₁ s₁' heq, h.madeOnce,
      fun t p howns hp => h.away t p howns (hpending ▸ hp), h.owner⟩
  | @crash s' hcrash =>
    -- the slot is empty after a start, and the ids stay used
    obtain ⟨⟨now, epoch, clock, rfl, -⟩, -⟩ := hcrash
    exact ⟨hfollowed, ⟨nofun, h.slot.before⟩, h.used, h.madeOnce,
      fun t p _ hp => Option.some_ne_none p hp.symm, h.owner⟩

/-- **It holds in every run.** -/
theorem instanceInv {store : Store} {now epoch : Nat} {clock : ClockSnapshot}
    {usedUuids : List Uuid} {p : (appThreads Z).Running}
    (hp : (appThreads Z).Reaches (App.boot store now epoch clock usedUuids) p) :
    InstanceInv Z p.state := by
  refine (instanceDiscipline_valid Z).invariant (I := InstanceInv Z) ?_ (fun h hm => h.move hm) hp
  have hnothing : ∀ {e : AppAct} {earlier : List AppAct},
      ¬ (Log.empty (App.boot store now epoch clock usedUuids) : AppLog).Happened e earlier := by
    rintro e earlier ⟨later, h⟩
    simp [Log.empty] at h
  have hnobody : ∀ t q, ¬ Owns ((Log.empty (App.boot store now epoch clock usedUuids) :
      AppLog).own t) q := by
    rintro t q h
    obtain ⟨k, hk, -⟩ := h.takes
    simp [Log.empty, Log.own] at hk
  exact ⟨fun _ _ he => absurd he hnothing,
    ⟨fun p hp => absurd hp (Option.some_ne_none p).symm, fun _ he => absurd he List.not_mem_nil⟩,
    fun _ he => absurd he List.not_mem_nil, fun _ _ he => absurd he hnothing,
    fun t q h => absurd h (hnobody t q), fun t _ q h => absurd h (hnobody t q)⟩

/-- **What is in the slot before an act** was admitted before it. -/
theorem slot_admitted {store : Store} {now epoch : Nat} {clock : ClockSnapshot}
    {usedUuids : List Uuid} {p : (appThreads Z).Running}
    (hp : (appThreads Z).Reaches (App.boot store now epoch clock usedUuids) p) :
    ∀ e earlier, p.state.Happened e earlier → SlotAdmitted earlier e.before := by
  refine (instanceDiscipline_valid Z).chronicle (I := SlotAdmitted)
    ⟨fun p hp => absurd hp (Option.some_ne_none p).symm, fun _ he => absurd he List.not_mem_nil⟩
    (fun h hx hm => h.put hx hm) ?_ ?_ ?_ hp
  · intro w op s' h hstart
    obtain ⟨spawned, rfl⟩ := AppOp.Starts.spawned hstart
    exact ⟨h.now, h.before⟩
  · rintro l s s' h ⟨he, -⟩
    have hpending : s'.pending = s.pending := by cases he <;> rfl
    exact ⟨fun p hp => h.now p (hpending ▸ hp), h.before⟩
  · rintro l s s' h ⟨⟨now, epoch, clock, rfl, -⟩, -⟩
    exact ⟨fun p hp => absurd hp (Option.some_ne_none p).symm, h.before⟩

/-! ## Approvals -/

/-- **An instance is one**: what was admitted with its id is it. -/
theorem admitted_unique (h : InstanceInv Z w) {d e : AppAct} {p q : PendingRequest}
    (hd : d ∈ w.acts) (hp : Admits d p) (he : e ∈ w.acts) (hq : Admits e q)
    (hid : p.identity = q.identity) : p = q := by
  by_cases heq : d = e
  · subst heq
    exact SlotOp.enter.inj (AppCmd.slot.inj (hp.enters.symm.trans hq.enters))
  · obtain ⟨l₁, l₂, hsplit⟩ := List.append_of_mem hd
    rw [hsplit] at he
    have hid : p.identity.instanceId = q.identity.instanceId := by rw [hid]
    rcases List.mem_append.mp he with he | he
    · obtain ⟨k₁, k₂, rfl⟩ := List.append_of_mem he
      exact absurd hid.symm (entered_once h.followed h.madeOnce
        ⟨k₁, by rw [hsplit]; simp; rfl⟩ hq.enters (List.mem_append_right k₂ List.mem_cons_self)
          hp.enters)
    · rcases List.mem_cons.mp he with rfl | he
      · exact absurd rfl heq
      · exact absurd hid (entered_once h.followed h.madeOnce ⟨l₁, hsplit⟩ hp.enters he hq.enters)

/-- **Who approves an instance has it for good.** -/
theorem ApprovalOf.owns (h : InstanceInv Z w) {e : AppAct} {earlier : List AppAct}
    (he : w.Happened e earlier) {p : PendingRequest} (happroval : ApprovalOf w e earlier p) :
    Owns (w.own e.thread) p := by
  obtain ⟨later, k, early, rfl, hk, htakes, hback, -⟩ := happroval.took
  obtain ⟨resp, hsends, -⟩ := happroval.answers
  obtain ⟨before, hacts⟩ := he
  refine ⟨(before ++ e :: later).filter fun b => b.thread = e.thread, k,
    early.filter fun b => b.thread = e.thread, ?_, htakes.toTakes, fun b hb => ?_⟩
  · rw [Log.own, hacts, ← List.filter_cons_of_pos (p := fun b : AppAct => b.thread = e.thread)
      (decide_eq_true hk), ← List.filter_append]
    simp
  · obtain ⟨hb, hthread⟩ := List.mem_filter.mp hb
    have hthread := of_decide_eq_true hthread
    rcases List.mem_append.mp hb with hb | hb
    · -- nothing is put back once an approval was sent
      intro hputs
      obtain ⟨b₁, b₂, rfl⟩ := List.append_of_mem hb
      obtain ⟨_, -, -, hmay⟩ := h.followed b (b₂ ++ e :: (later ++ k :: early))
        ⟨b₁, by rw [hacts]; simp⟩
      have hmay : InstanceMay _ _ _ _ := hmay
      refine (hmay.puts p hputs).2 e (List.mem_filter.mpr ⟨?_, ?_⟩) resp hsends
      · exact List.mem_append_right _ List.mem_cons_self
      · exact decide_eq_true hthread.symm
    · rcases List.mem_cons.mp hb with rfl | hb
      · obtain ⟨⟨stream, hc⟩, -⟩ := hsends
        rintro (hputs | hputs)
        · cases hc.symm.trans hputs
        · cases hc.symm.trans hputs
      · exact hback b hb hthread

/-- **An approval is bound to the verified instance.** In every run of the app, of
any connections, commands, tasks, crashes and passing of time: every approval
that is sent is of one instance of a request, which the same command has
verified a PIN for after the instance was admitted, and has taken out in the
session that it was admitted in; it carries the share only if the instance asks
for it, and no instance is approved twice. -/
theorem approval_bound {store : Store} {now epoch : Nat} {clock : ClockSnapshot}
    {usedUuids : List Uuid} {p : (appThreads Z).Running}
    (hp : (appThreads Z).Reaches (App.boot store now epoch clock usedUuids) p) :
    ApprovedOnce p.state := by
  have hinv := instanceInv hp
  refine ⟨fun e earlier he resp hsends => ?_, fun e earlier he q happroval d before later
    hd happroval' => ?_⟩
  · obtain ⟨op, hop, -, hmay⟩ := hinv.followed e earlier he
    have hmay : InstanceMay _ _ _ _ := hmay
    obtain ⟨happroves, ⟨seen, q, htook, hid, hanswers⟩, -⟩ := hmay.approves resp hsends
    obtain ⟨later, k, early, heq, htakes, hback, hunlocked, hverified⟩ := htook
    obtain ⟨l₁, l₂, rfl, hk, hlater, hearly⟩ := Log.own_split heq
    obtain ⟨later', v, early', heq', hverifies, i, hi, -, hslot⟩ := hverified
    obtain ⟨m₁, m₂, hsplit, hv, -, hearly'⟩ := Log.own_split (hearly.trans heq')
    obtain ⟨before, hacts⟩ := he
    -- what was seen was admitted before, and is what was taken out
    have hmem : i ∈ m₂ := (List.mem_filter.mp (hearly'.symm ▸ hi)).1
    obtain ⟨n₁, n₂, hn⟩ := List.append_of_mem hmem
    obtain ⟨d, hd, hadmits⟩ := (slot_admitted hp i n₂
      ⟨before ++ e :: (l₁ ++ k :: (m₁ ++ v :: n₁)), by rw [hacts, hsplit, hn]; simp⟩).now seen hslot
    have hd₂ : d ∈ m₂ := hn ▸ List.mem_append_right _ (List.mem_cons_of_mem _ hd)
    have hl₂ : ∀ b ∈ l₂, b ∈ p.state.acts := fun b hb => by
      rw [hacts]
      exact List.mem_append_right _ (List.mem_cons_of_mem _
        (List.mem_append_right _ (List.mem_cons_of_mem _ hb)))
    have hdl₂ : d ∈ l₂ := hsplit ▸ List.mem_append_right _ (List.mem_cons_of_mem _ hd₂)
    obtain ⟨d', hd', hadmits'⟩ := (slot_admitted hp k l₂
      ⟨before ++ e :: l₁, by rw [hacts]; simp⟩).now q htakes.before
    obtain rfl := admitted_unique hinv (hl₂ d hdl₂) hadmits (hl₂ d' hd') hadmits' hid
    obtain ⟨earlier', hdhap⟩ := Log.happened_of_mem (hl₂ d hdl₂)
    obtain ⟨_, -, -, hmay'⟩ := hinv.followed d earlier' hdhap
    have hmay' : InstanceMay _ _ _ _ := hmay'
    have hgeneration := (hmay'.drafts seen hadmits.enters).generation
    refine ⟨seen, ⟨op, hop, happroves⟩, ⟨l₁, k, l₂, rfl, hk, htakes, fun b hb hthread => ?_,
      hearly.symm ▸ hunlocked, m₁, v, m₂, hsplit, hv, hearly'.symm ▸ hverifies, d, hd₂, hadmits,
        hgeneration⟩, resp, hsends, hanswers⟩
    exact hback b (hlater ▸ List.mem_filter.mpr ⟨hb, decide_eq_true hthread⟩)
  · -- who approves has the instance, and nobody else has it
    obtain ⟨first, hacts⟩ := he
    have hdhap : p.state.Happened d before :=
      ⟨first ++ e :: later, by rw [hacts, hd]; simp⟩
    have hthread := hinv.owner _ _ q (happroval.owns hinv ⟨first, hacts⟩)
      (happroval'.owns hinv hdhap)
    obtain ⟨resp, hsends, -⟩ := happroval.answers
    obtain ⟨resp', hsends', -⟩ := happroval'.answers
    obtain ⟨_, -, -, hmay⟩ := hinv.followed e earlier ⟨first, hacts⟩
    have hmay : InstanceMay _ _ _ _ := hmay
    refine (hmay.approves resp hsends).2.2 d (List.mem_filter.mpr ⟨?_, ?_⟩) resp' hsends'
    · rw [hd]
      exact List.mem_append_right _ List.mem_cons_self
    · exact decide_eq_true hthread.symm

/-! ## A session that comes of age while the slot is waited for -/

/-- **The unlock is current when an instance is taken out** that is approved. -/
def ApprovedUnlocked (w : AppLog) : Prop :=
  ∀ e earlier, w.Happened e earlier → ∀ resp, SendsApproval e resp →
    ∃ k ∈ earlier, (∃ p, Takes k p ∧ AnswersFor resp p) ∧
      (k.before.cells .unlockedAt).any (authSessionIsCurrent k.before.now) = true

/-- A request that comes in near the end of a session. -/
def lateRequest : AuthRequest := { shareRequest with timestamp := 590000 }

/-- A session is unlocked, and a request comes in ten seconds before its end. Its
approval has checked the session when twenty seconds pass. -/
def lapsesMeanwhile : List (Play AppOp Answers EnvMove) :=
  [.start 0 .checkSetup, .run 0 willing 200,
    .start 0 (.setAppForeground true), .run 1 willing 200,
    .start 0 .biometricUnlock, .run 2 willing 200,
    .outside (.tick (seconds 590)), .outside (.setClock 590000),
    .start 0 (.serve desktop 1), .run 3 (bringing (.request lateRequest)) 200,
    .start 0 (.approveRequest (Uuid.toString 10) "7394"), .run 4 willing 35,
    .outside (.tick (seconds 20)), .run 4 willing 200]

/-- The approval that an act sends. -/
def AppAct.approval : AppAct → Option AuthResponse
  | ⟨_, .ask (.send _ (.response resp)), _, _, _⟩ => if resp.approved then some resp else none
  | _ => none

omit [Crypto] in
theorem AppAct.approval_eq_some {e : AppAct} {resp : AuthResponse}
    (h : e.approval = some resp) : SendsApproval e resp := by
  unfold AppAct.approval at h
  split at h
  · next stream resp' _ _ _ =>
    split at h
    · next happroved =>
      obtain rfl := Option.some.inj h
      exact ⟨⟨stream, rfl⟩, happroved⟩
    · cases h
  · cases h

/-- Whether an act takes out nothing, or does so after the session. -/
def takesLate (k : AppAct) : Bool :=
  !(k.before.pending.slot.isSome && k.after.pending.slot.isNone &&
    (k.before.cells .unlockedAt).any (authSessionIsCurrent k.before.now))

omit [Crypto] in
/-- **An instance is approved after the session**: the check of the unlock came
first. -/
theorem approved_after_session :
    ∃ (store : Store) (p : (@appThreads Crypto.plain .any).Running),
      (@appThreads Crypto.plain .any).Reaches
        (App.boot store 0 0 ⟨0, 0, Nat.zero_le _⟩ []) p ∧ ¬ ApprovedUnlocked p.state := by
  have hresult : (@playNext Crypto.plain lapsesMeanwhile).map (fun p =>
      ((p.state.acts.filterMap AppAct.approval).map AuthResponse.requestId,
        p.state.acts.all takesLate)) = some ([10], true) := by decide +kernel
  obtain ⟨p, hp, hresult⟩ := Option.map_eq_some_iff.mp hresult
  obtain ⟨store, -, hp⟩ := Option.bind_eq_some_iff.mp hp
  obtain ⟨hsent, hlate⟩ := Prod.mk.inj hresult
  refine ⟨store, p, Player.play_sound hp, fun h => ?_⟩
  obtain ⟨resp, rest, hresp, -, -⟩ := List.map_eq_cons_iff.mp hsent
  obtain ⟨before, e, earlier, hacts, -, he, -⟩ := List.filterMap_eq_cons_iff.mp hresp
  obtain ⟨k, hk, ⟨q, htakes, -⟩, hcurrent⟩ :=
    h e earlier ⟨before, hacts⟩ resp (AppAct.approval_eq_some he)
  have hmem : k ∈ p.state.acts := by
    rw [hacts]
    exact List.mem_append_right _ (List.mem_cons_of_mem _ hk)
  have hnot := List.all_eq_true.mp hlate k hmem
  rw [takesLate, htakes.before, htakes.after, hcurrent] at hnot
  cases hnot

omit [Crypto] in
/-- The approval of the request for the share, while the session lasts. -/
theorem approval_bound_played : ∃ p : (@appThreads Crypto.plain .any).Running,
    (p.state.acts.filterMap AppAct.approval).map AuthResponse.requestId = [10] ∧
      ApprovedOnce p.state := by
  have hresult : (@playNext Crypto.plain (approvalRuns 200)).map (fun p =>
      (p.state.acts.filterMap AppAct.approval).map AuthResponse.requestId) = some [10] := by
    decide +kernel
  obtain ⟨p, hp, hresult⟩ := Option.map_eq_some_iff.mp hresult
  obtain ⟨store, -, hp⟩ := Option.bind_eq_some_iff.mp hp
  exact ⟨p, hresult, @approval_bound Crypto.plain .any _ _ _ _ _ _ (Player.play_sound hp)⟩

end Phone
