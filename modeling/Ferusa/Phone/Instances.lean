import Ferusa.Phone.AdmittedOnce

/-!
# The instances of requests

Each admission of a request makes an **instance** of it, with an id of its
own. An instance is in the slot, or was taken out by one thread, which
may put it back; nobody else has it then. So who approves an instance has
taken it out, has not put it back, and never will: nobody approves it
again.

Whoever verifies a PIN has looked at the slot before, and takes out the
instance it has seen and no other. The checks of the session are made
under the lock of its generation, which is held until the instance is
out.
-/

namespace Phone

open Discipline AppProg

/-! ## What is done to instances -/

/-- An instance is taken out of the slot. -/
structure Takes (e : AppAct) (p : PendingRequest) : Prop where
  before : e.before.pending.slot = some p
  after : e.after.pending.slot = none

/-- An instance is put into the slot once more. -/
def PutsBack (e : AppAct) (p : PendingRequest) : Prop :=
  e.command = .slot (.put p) ∨ e.command = .slot (.restore p)

/-- **The thread has the instance**: it has taken it out, and has not put it
back since. -/
def Owns (l : List AppAct) (p : PendingRequest) : Prop :=
  ∃ later e early, l = later ++ e :: early ∧ Takes e p ∧ ∀ b ∈ later, ¬ PutsBack b p

/-- An approval is sent. -/
def SendsApproval (e : AppAct) (resp : AuthResponse) : Prop :=
  (∃ stream, e.command = .ask (.send stream (.response resp))) ∧ resp.approved = true

/-- **An id was made for an instance** that is not admitted yet. -/
def Drafting (t : Nat) (l : List AppAct) (id : Uuid) : Prop :=
  ∃ later e early, l = later ++ e :: early ∧ (∃ s s', e = ⟨t, .newUuid, id, s, s'⟩) ∧
    ∀ b ∈ later, ∀ q, ¬ Enters b q

/-- What is taken out verified is current. -/
theorem takeVerified_current {expected : PendingIdentity} {now : Nat} {p : Pending}
    {pending : PendingRequest}
    (h : ((SlotOp.takeVerified expected).apply now p).1 = .ok pending) :
    pending.identity.isCurrent expected now = true := by
  rw [takeVerified_apply] at h
  cases hp : p.slot with
  | none =>
    rw [hp] at h
    cases h
  | some current =>
    simp only [hp] at h
    split at h
    · cases h
    · next hc =>
      obtain rfl := Except.ok.inj h
      exact of_not_not fun hcurrent => hc (.inr hcurrent)

variable [Crypto] {t : Nat} {l : List AppAct}

omit [Crypto] in
/-- **What becomes of the slot.** -/
theorem apply_slot (o : SlotOp) (now : Nat) (p : Pending) :
    (o.apply now p).2.slot = p.slot ∨ (o.apply now p).2.slot = none ∨
      ∃ q, (o.apply now p).2.slot = some q ∧
        (o = .put q ∨ o = .restore q ∨ o = .enter q ∧ p.slot = none) := by
  unfold SlotOp.apply
  cases o with
  | peek => exact .inl rfl
  | take => exact .inr (.inl rfl)
  | takeVerified expected =>
    dsimp only
    split
    · exact .inl rfl
    · split
      · exact .inl rfl
      · exact .inr (.inl rfl)
  | takeExpired expected =>
    dsimp only
    split
    · exact .inr (.inl rfl)
    · exact .inl rfl
  | takeInstance identity =>
    dsimp only
    split
    · exact .inr (.inl rfl)
    · exact .inl rfl
  | put q => exact .inr (.inr ⟨q, rfl, .inl rfl⟩)
  | restore q =>
    dsimp only
    split
    · exact .inr (.inr ⟨q, rfl, .inr (.inl rfl)⟩)
    · exact .inl rfl
  | enter q =>
    dsimp only
    split
    · exact .inl rfl
    · next hnone =>
      split
      · exact .inr (.inr ⟨q, rfl, .inr (.inr ⟨rfl, hnone⟩)⟩)
      · exact .inl rfl

/-- **What becomes of the slot** by an act. -/
theorem slot_cases {c : AppCmd} {r : c.Reply} {s s' : App} (h : App.Exec t c s r s') :
    s'.pending.slot = s.pending.slot ∨ (∃ q, Takes ⟨t, c, r, s, s'⟩ q) ∨
      ∃ q, s'.pending.slot = some q ∧
        (PutsBack ⟨t, c, r, s, s'⟩ q ∨ Admits ⟨t, c, r, s, s'⟩ q) := by
  by_cases hslot : ∃ o, c = .slot o
  · obtain ⟨o, rfl⟩ := hslot
    obtain ⟨hr, rfl⟩ := App.exec_slot.mp h
    rcases apply_slot o s.now s.pending with hsame | hnone | ⟨q, hq, ho⟩
    · exact .inl hsame
    · cases hs : s.pending.slot with
      | none => exact .inl hnone
      | some q => exact .inr (.inl ⟨q, hs, hnone⟩)
    · refine .inr (.inr ⟨q, hq, ?_⟩)
      rcases ho with rfl | rfl | ⟨rfl, hfree⟩
      · exact .inl (.inl rfl)
      · exact .inl (.inr rfl)
      · obtain rfl : r = Admission.stored := by
          rw [hr]
          rw [enter_apply] at hq ⊢
          simp only [hfree] at hq ⊢
          split at hq
          · next hnew => rw [if_pos hnew]
          · cases hq
        exact .inr ⟨t, _, _, rfl⟩
  · left
    rw [h.aside.pending fun o ho => hslot ⟨o, ho⟩]

/-! ## The discipline of the instances -/

/-- **An instance is drafted**: its id was made, and the generation read, under
the lock. -/
structure Drafted (t : Nat) (l : List AppAct) (e : AppAct) (p : PendingRequest) : Prop where
  drafting : Drafting t l p.identity.instanceId
  generation : e.before.generation = p.identity.sessionGeneration

/-- A PIN was verified, of the kind that the request takes, with the secrets
that the thread has read. -/
def VerifiesFor (l : List AppAct) (e : AppAct) (p : PendingRequest) : Prop :=
  ∃ t pin secrets s s',
    e = ⟨t, .verifyPin pin (AppSecrets.pinHash secrets (pinKindForAction p.request.action)),
      .ok true, s, s'⟩ ∧
    ∃ b ∈ l, b.command = .read .secrets ∧ b.before.cells .secrets = some secrets

/-- The thread has looked at the slot, and seen the instance. -/
def HasSeen (l : List AppAct) (p : PendingRequest) : Prop :=
  ∃ e ∈ l, e.command = .slot .peek ∧ e.before.pending.slot = some p

/-- **A PIN was verified for the instance**, after it was seen. -/
def HasVerified (l : List AppAct) (p : PendingRequest) : Prop :=
  ∃ later e early, l = later ++ e :: early ∧ VerifiesFor early e p ∧ HasSeen early p

/-- **The instance is taken out in its session**: in its generation, in the
foreground, and before it expires. -/
structure TakesInSession (e : AppAct) (p : PendingRequest) : Prop extends Takes e p where
  generation : e.before.generation = p.identity.sessionGeneration
  foreground : e.before.foreground = true
  young : e.before.now - p.identity.createdAt < pendingRequestTtl

/-- The unlock was found current, the lock being held since. -/
def FoundUnlocked (t : Nat) (l : List AppAct) : Prop :=
  ∃ later e early, l = later ++ e :: early ∧ e.command = .read .unlockedAt ∧
    (∃ unlockedAt, e.before.cells .unlockedAt = some unlockedAt ∧
      authSessionIsCurrent e.before.now unlockedAt = true) ∧
    ∀ b ∈ later ++ [e], b.after.generationGuard = some t

/-- **The instance was taken out verified**: a PIN had been verified for the
instance that was seen, the session was checked under the lock, and it was not
put back since. -/
def TookVerified (t : Nat) (l : List AppAct) (seen p : PendingRequest) : Prop :=
  ∃ later e early, l = later ++ e :: early ∧ TakesInSession e p ∧
    (∀ b ∈ later, ¬ PutsBack b p) ∧ FoundUnlocked t early ∧ HasVerified early seen

/-- **What an approval answers**: the instance, and nothing that it does not ask
for. -/
structure AnswersFor (resp : AuthResponse) (p : PendingRequest) : Prop where
  pairingId : resp.pairingId = p.request.pairingId
  requestId : resp.requestId = p.request.requestId
  action : resp.action = p.request.action
  share : resp.unlockShare ≠ none → p.request.unlockShareRequested = true

/-- **What a thread may do** to instances. -/
structure InstanceMay (t : Nat) (op : AppOp) (l : List AppAct) (e : AppAct) : Prop where
  foreground : ∀ foreground, e.command = .storeForeground foreground →
    e.before.generationGuard = some t
  drafts : ∀ p, Enters e p → Drafted t l e p
  puts : ∀ p, PutsBack e p → Owns l p ∧ ∀ b ∈ l, ∀ resp, ¬ SendsApproval b resp
  approves : ∀ resp, SendsApproval e resp → op.Approves ∧
    (∃ seen p, TookVerified t l seen p ∧ seen.identity = p.identity ∧ AnswersFor resp p) ∧
      ∀ b ∈ l, ∀ resp, ¬ SendsApproval b resp

/-- **The discipline of the instances.** -/
def instanceDiscipline (Z : Setting) : Discipline (appThreads Z) where
  may := InstanceMay
  ends _ _ _ _ := True
  rely t s s' := s.generationGuard = some t → s'.generationGuard = some t ∧
    s'.generation = s.generation ∧ s'.foreground = s.foreground
  rely_refl _ _ h := ⟨h, rfl, rfl⟩
  rely_trans h h' hg := by
    obtain ⟨hg₁, hgen₁, hfore₁⟩ := h hg
    obtain ⟨hg₂, hgen₂, hfore₂⟩ := h' hg₁
    exact ⟨hg₂, hgen₂.trans hgen₁, hfore₂.trans hfore₁⟩

/-! ## Programs that leave instances alone -/

variable {Z : Setting} {op : AppOp}

/-- What neither stores the foreground nor puts a request into the slot, nor
approves one. -/
def Free (c : AppCmd) : Prop := c.part ∉ [Part.foreground, .admission, .putBack, .approve]

omit [Crypto] in
theorem free_of_part {c : AppCmd}
    (h : [Part.foreground, .admission, .putBack, .approve].contains c.part = false) : Free c :=
  part_notMem h

/-- Nothing but free acts has been added. -/
abbrev Freely (l l' : List AppAct) : Prop := Keeps.Since (fun e : AppAct => Free e.command) l l'

/-- No approval was sent. -/
def NoApproval (l : List AppAct) : Prop := ∀ b ∈ l, ∀ resp, ¬ SendsApproval b resp

omit [Crypto] in
theorem Free.not_putsBack {e : AppAct} (h : Free e.command) (p : PendingRequest) :
    ¬ PutsBack e p := by
  rintro (hc | hc)
  · rw [hc] at h
    exact h (List.contains_iff_mem.mp rfl)
  · rw [hc] at h
    exact h (List.contains_iff_mem.mp rfl)

omit [Crypto] in
theorem Free.not_sendsApproval {e : AppAct} (h : Free e.command) (resp : AuthResponse) :
    ¬ SendsApproval e resp := by
  rintro ⟨⟨stream, hc⟩, happroved⟩
  refine h ?_
  rw [hc]
  show (bif resp.approved then Part.approve else .ask) ∈ _
  rw [happroved]
  exact List.contains_iff_mem.mp rfl

omit [Crypto] in
theorem InstanceMay.of_free {e : AppAct} (h : Free e.command) : InstanceMay t op l e where
  foreground foreground hc := by
    rw [hc] at h
    exact absurd (List.contains_iff_mem.mp rfl) h
  drafts p hc := by
    rw [show e.command = .slot (.enter p) from hc] at h
    exact absurd (List.contains_iff_mem.mp rfl) h
  puts p hc := absurd hc (h.not_putsBack p)
  approves resp hc := absurd hc (h.not_sendsApproval resp)

omit [Crypto] in
theorem free_of_stays {ε α : Type} {parts : List Part} {p : Prog AppCmd.Reply ε α}
    (hp : Stays parts p)
    (h : parts.all (fun x => x ∉ [Part.foreground, .admission, .putBack, .approve]) = true) :
    p.Only Free :=
  hp.outside h

/-- **What leaves instances alone** may run at any time. -/
theorem keeps_of_free {ε α : Type} {p : Prog AppCmd.Reply ε α} (hp : p.Only Free) :
    (instanceDiscipline Z).Keeps t op l p fun _ l' => Freely l l' :=
  Keeps.only (D := instanceDiscipline Z) hp fun _ _ _ _ _ hc _ => InstanceMay.of_free hc

/-- One command that leaves instances alone. -/
theorem free_call {α : Type} {c : AppCmd} {k : c.Reply → AppProg α}
    {Q : Except AppError α → List AppAct → Prop} (hc : Free c)
    (hk : ∀ r s s', (∀ e, l.head? = some e → (instanceDiscipline Z).rely t e.after s) →
      App.Exec t c s r s' →
      (instanceDiscipline Z).Keeps t op (⟨t, c, r, s, s'⟩ :: l) (k r) Q) :
    (instanceDiscipline Z).Keeps t op l (put c >>= k) Q :=
  Keeps.call fun r s s' hs hx => ⟨InstanceMay.of_free hc, hk r s s' hs hx⟩

section

omit [Crypto]

variable {l' : List AppAct} {p : PendingRequest}

theorem Freely.refl (l : List AppAct) : Freely l l := ⟨[], rfl, by simp⟩

theorem Freely.cons {e : AppAct} (h : Freely l l') (he : Free e.command) :
    Freely l (e :: l') := by
  obtain ⟨m, rfl, hm⟩ := h
  exact ⟨e :: m, rfl, List.forall_mem_cons.mpr ⟨he, hm⟩⟩

theorem Freely.trans {l'' : List AppAct} (h : Freely l l') (h' : Freely l' l'') :
    Freely l l'' := by
  obtain ⟨m, rfl, hm⟩ := h
  obtain ⟨m', rfl, hm'⟩ := h'
  refine ⟨m' ++ m, by simp, fun e he => ?_⟩
  rcases List.mem_append.mp he with he | he
  · exact hm' e he
  · exact hm e he

theorem Freely.suffix (h : Freely l l') : l <:+ l' := by
  obtain ⟨m, rfl, -⟩ := h
  exact ⟨m, rfl⟩

theorem NoApproval.freely (h : NoApproval l) (hl : Freely l l') : NoApproval l' := by
  obtain ⟨m, rfl, hm⟩ := hl
  intro b hb resp
  rcases List.mem_append.mp hb with hb | hb
  · exact (hm b hb).not_sendsApproval resp
  · exact h b hb resp

theorem Owns.freely (h : Owns l p) (hl : Freely l l') : Owns l' p := by
  obtain ⟨later, e, early, rfl, htakes, hputs⟩ := h
  obtain ⟨m, rfl, hm⟩ := hl
  refine ⟨m ++ later, e, early, by simp, htakes, fun b hb => ?_⟩
  rcases List.mem_append.mp hb with hb | hb
  · exact (hm b hb).not_putsBack p
  · exact hputs b hb

theorem TookVerified.freely {seen : PendingRequest} (h : TookVerified t l seen p)
    (hl : Freely l l') : TookVerified t l' seen p := by
  obtain ⟨later, e, early, rfl, htakes, hputs, hrest⟩ := h
  obtain ⟨m, rfl, hm⟩ := hl
  refine ⟨m ++ later, e, early, by simp, htakes, fun b hb => ?_, hrest⟩
  rcases List.mem_append.mp hb with hb | hb
  · exact (hm b hb).not_putsBack p
  · exact hputs b hb

/-- What was taken out verified is the thread's. -/
theorem TookVerified.owns {seen : PendingRequest} (h : TookVerified t l seen p) : Owns l p := by
  obtain ⟨later, e, early, rfl, htakes, hputs, -⟩ := h
  exact ⟨later, e, early, rfl, htakes.toTakes, hputs⟩

theorem HasVerified.suffix (h : HasVerified l p) (hl : l <:+ l') : HasVerified l' p := by
  obtain ⟨later, e, early, rfl, hrest⟩ := h
  obtain ⟨m, rfl⟩ := hl
  exact ⟨m ++ later, e, early, by simp, hrest⟩

end

/-! ## Taking out and putting back -/

/-- **Under the lock**: what holds of the acts of a program holds with the lock
given back. -/
theorem underLock {α : Type} {p : AppProg α} {M : Except AppError α → List AppAct → Prop}
    (hM : ∀ x l' e, M x l' → Free e.command → M x (e :: l'))
    (h : ∀ s, (instanceDiscipline Z).Keeps t op
      (⟨t, .lockGeneration, (), s, { s with generationGuard := some t }⟩ :: l) p M) :
    (instanceDiscipline Z).Keeps t op l (AppState.withGeneration p) M := by
  refine free_call (free_of_part rfl) fun _ s s' _ hx => ?_
  obtain ⟨-, rfl⟩ := App.exec_lockGeneration.mp hx
  refine Keeps.attempt_bind (h s) fun x l' hx => ?_
  exact free_call (free_of_part rfl) fun _ u u' _ _ =>
    Keeps.ofExcept (hM x l' ⟨t, .unlockGeneration, (), u, u'⟩ hx (free_of_part rfl))

/-- **Taking out the instance that was seen**, the session being checked under the
lock. -/
theorem takeVerifiedPending_takes (seen : PendingRequest) (hno : NoApproval l) :
    (instanceDiscipline Z).Keeps t op l (takeVerifiedPending seen.identity) fun x l' =>
      NoApproval l' ∧ ∀ p, x = .ok p → Owns l' p ∧ seen.identity = p.identity ∧
        (HasVerified l seen → TookVerified t l' seen p) := by
  refine underLock (fun x l' e ⟨hno, htook⟩ he => ?_) fun s₁ => ?_
  · have hfree : Freely l' (e :: l') := (Freely.refl l').cons he
    refine ⟨hno.freely hfree, fun p hp => ?_⟩
    obtain ⟨howns, hid, htook⟩ := htook p hp
    exact ⟨howns.freely hfree, hid, fun hverified => (htook hverified).freely hfree⟩
  have h₁ : Freely l (⟨t, .lockGeneration, (), s₁, { s₁ with generationGuard := some t }⟩ :: l) :=
    (Freely.refl l).cons (free_of_part rfl)
  refine free_call (free_of_part rfl) fun generation s₂ s₂' hr₂ hx₂ => ?_
  obtain ⟨hg₂, -, -⟩ := hr₂ _ rfl rfl
  obtain ⟨-, hgen, rfl⟩ := App.exec_generation.mp hx₂
  have h₂ := h₁.cons (e := ⟨t, .generation, generation, s₂', s₂'⟩) (free_of_part rfl)
  split
  · exact Keeps.fail ⟨hno.freely h₂, nofun⟩
  next hsame =>
  refine free_call (free_of_part rfl) fun foreground s₃ s₃' hr₃ hx₃ => ?_
  obtain ⟨hg₃, hgen₃, -⟩ := hr₃ _ rfl hg₂
  obtain ⟨hfore, rfl⟩ := App.exec_isForeground.mp hx₃
  have h₃ := h₂.cons (e := ⟨t, .isForeground, foreground, s₃', s₃'⟩) (free_of_part rfl)
  split
  · exact Keeps.fail ⟨hno.freely h₃, nofun⟩
  next hforeground =>
  refine free_call (free_of_part rfl) fun unlockedAt s₄ s₄' hr₄ hx₄ => ?_
  obtain ⟨hg₄, hgen₄, hfore₄⟩ := hr₄ _ rfl hg₃
  obtain ⟨hread, rfl⟩ := App.exec_read.mp hx₄
  have h₄ := h₃.cons (e := ⟨t, .read .unlockedAt, unlockedAt, s₄', s₄'⟩) (free_of_part rfl)
  split
  · exact Keeps.fail ⟨hno.freely h₄, nofun⟩
  next hunlocked =>
  refine free_call (free_of_part rfl) fun r s₅ s₅' hr₅ hx₅ => ?_
  obtain ⟨hg₅, hgen₅, hfore₅⟩ := hr₅ _ rfl hg₄
  obtain ⟨hr, hs₅⟩ := App.exec_slot.mp hx₅
  have h₅ := h₄.cons (e := ⟨t, .slot (.takeVerified seen.identity), r, s₅, s₅'⟩) (free_of_part rfl)
  cases r with
  | error e => exact Keeps.fail ⟨hno.freely h₅, nofun⟩
  | ok p =>
    refine Keeps.ret ⟨hno.freely h₅, fun p' hp => ?_⟩
    obtain rfl := Except.ok.inj hp
    obtain ⟨hslot, hnone⟩ := takeVerified_apply_ok hr.symm
    have hcurrent := takeVerified_current hr.symm
    -- nothing has changed since the session was checked
    have hgeneration : s₅.generation = seen.identity.sessionGeneration := by
      rw [hgen₅, hgen₄, hgen₃, ← hgen]
      exact of_not_not hsame
    have hforeground₅ : s₅.foreground = true := by
      rw [hfore₅, hfore₄, ← hfore]
      exact of_not_not hforeground
    have hidentity : p.identity = seen.identity ∧
        s₅.now - p.identity.createdAt < pendingRequestTtl := of_decide_eq_true hcurrent
    have htakes : TakesInSession ⟨t, .slot (.takeVerified seen.identity), .ok p, s₅, s₅'⟩ p := by
      refine ⟨⟨hslot, ?_⟩, ?_, hforeground₅, hidentity.2⟩
      · show s₅'.pending.slot = none
        rw [hs₅]
        exact hnone
      · rw [hidentity.1]
        exact hgeneration
    refine ⟨⟨[], _, _, rfl, htakes.toTakes, List.forall_mem_nil _⟩, hidentity.1.symm,
      fun hverified => ⟨[], _, _, rfl, htakes, List.forall_mem_nil _, ?_,
        hverified.suffix h₄.suffix⟩⟩
    refine ⟨[], _, _, rfl, rfl, ?_, ?_⟩
    · obtain ⟨unlocked, hcell, hcurrent⟩ := (Option.any_eq_true _ _).mp (of_not_not hunlocked)
      rw [hread] at hcell hcurrent
      exact ⟨unlocked, hcell, hcurrent⟩
    · intro b hb
      obtain rfl := List.mem_singleton.mp hb
      exact hg₄

omit [Crypto] in
/-- What has an instance may put it back, where it has approved none. -/
theorem InstanceMay.of_puts {e : AppAct} {p : PendingRequest} (hc : PutsBack e p)
    (hown : Owns l p) (hno : NoApproval l) : InstanceMay t op l e where
  foreground foreground h := by
    rcases hc with hc | hc
    · cases hc.symm.trans h
    · cases hc.symm.trans h
  drafts q h := by
    rcases hc with hc | hc
    · cases hc.symm.trans h
    · cases hc.symm.trans h
  puts q h := by
    have heq : p = q := by
      rcases hc with hc | hc
      · rcases h with h | h
        · exact SlotOp.put.inj (AppCmd.slot.inj (hc.symm.trans h))
        · cases hc.symm.trans h
      · rcases h with h | h
        · cases hc.symm.trans h
        · exact SlotOp.restore.inj (AppCmd.slot.inj (hc.symm.trans h))
    exact ⟨heq ▸ hown, hno⟩
  approves resp h := by
    obtain ⟨⟨stream, h⟩, -⟩ := h
    rcases hc with hc | hc
    · cases hc.symm.trans h
    · cases hc.symm.trans h

/-- **Putting an instance back**, where the session is still its own. -/
theorem restore_keeps {p : PendingRequest} (hown : Owns l p) (hno : NoApproval l) :
    (instanceDiscipline Z).Keeps t op l (restorePendingAfterSignError p) fun _ _ => True := by
  refine underLock (fun _ _ _ _ _ => trivial) fun s₁ => ?_
  have h₁ : Freely l (⟨t, .lockGeneration, (), s₁, { s₁ with generationGuard := some t }⟩ :: l) :=
    (Freely.refl l).cons (free_of_part rfl)
  refine free_call (free_of_part rfl) fun generation s₂ s₂' _ _ => ?_
  have h₂ := h₁.cons (e := ⟨t, .generation, generation, s₂, s₂'⟩) (free_of_part rfl)
  split
  · exact Keeps.pure trivial
  refine free_call (free_of_part rfl) fun foreground s₃ s₃' _ _ => ?_
  have h₃ := h₂.cons (e := ⟨t, .isForeground, foreground, s₃, s₃'⟩) (free_of_part rfl)
  split
  · exact Keeps.pure trivial
  refine free_call (free_of_part rfl) fun now s₄ s₄' _ _ => ?_
  have h₄ := h₃.cons (e := ⟨t, .now, now, s₄, s₄'⟩) (free_of_part rfl)
  split
  · exact Keeps.pure trivial
  exact Keeps.call fun _ _ _ _ _ =>
    ⟨InstanceMay.of_puts (.inr rfl) (hown.freely h₄) (hno.freely h₄), Keeps.pure trivial⟩

/-- The key is forgotten, where the error says so, and the error is kept. -/
theorem handleSignedResponseError_instance (error : AppError) :
    (instanceDiscipline Z).Keeps t op l (handleSignedResponseError error) fun x l' =>
      Freely l l' ∧ ∀ e, x = .ok e → e = error := by
  have hclear : (if error.isApprovalKeyAuthRequired then clearApprovalKeyAuthenticated
      else pure () : AppProg Unit).Only Free :=
    Prog.Only.ite (Prog.Only.perform (free_of_part rfl)) Prog.Only.pure
  exact Keeps.bind (keeps_of_free hclear)
    (fun _ l' h => Keeps.pure ⟨h, fun e he => (Except.ok.inj he).symm⟩) fun _ _ h => ⟨h, nofun⟩

/-- What a failed answer leaves: where the key has to be authenticated, nothing
was sent. -/
def Unsent {α : Type} (l : List AppAct) (x : Except AppError α) (l' : List AppAct) : Prop :=
  ∀ e, x = .error e → e.isApprovalKeyAuthRequired = true → Freely l l'

/-- **An instance is answered, or put back.** -/
theorem answerOrRestore_keeps {p : PendingRequest} {approvalAlias : ApprovalAlias}
    {approved : Bool} {share : Option Bytes32} (hown : Owns l p) (hno : NoApproval l)
    (hsend : (instanceDiscipline Z).Keeps t op l
      (sendSignedResponse p.send approvalAlias p.request approved share) (Unsent l)) :
    (instanceDiscipline Z).Keeps t op l (answerOrRestore p approvalAlias approved share)
      fun _ _ => True := by
  refine Keeps.attempt_bind hsend fun r l₁ hr => ?_
  cases r with
  | ok u => exact Keeps.pure trivial
  | error e =>
    refine Keeps.bind (handleSignedResponseError_instance e) (fun error l₂ ⟨h₂, herror⟩ => ?_)
      fun _ _ _ => trivial
    obtain rfl := herror error rfl
    refine Keeps.bind (M := fun _ _ => True) ?_ (fun _ _ _ => Keeps.fail trivial)
      fun _ _ _ => trivial
    split
    · next hauth =>
      have hfree := (hr error rfl hauth).trans h₂
      exact restore_keeps (hown.freely hfree) (hno.freely hfree)
    · exact Keeps.pure trivial

/-- A denial is no approval. -/
theorem sendDenial_keeps (p : PendingRequest) (approvalAlias : ApprovalAlias) :
    (instanceDiscipline Z).Keeps t op l
      (sendSignedResponse p.send approvalAlias p.request false none) (Unsent l) :=
  (keeps_of_free (free_of_stays (sendSignedDenial_stays _ _ _ _) rfl)).mono
    fun _ _ h _ _ _ => h

/-- Going on with what has not failed. -/
theorem mapErr_goes {ε α β : Type} {D : Discipline (appThreads Z)} {g : ε → AppError}
    {x : Except ε α} {k : α → AppProg β} {Q : Except AppError β → List AppAct → Prop}
    (he : ∀ e, x = .error e → Q (.error (g e)) l)
    (hk : ∀ a, x = .ok a → D.Keeps t op l (k a) Q) : D.Keeps t op l (mapErr g x >>= k) Q := by
  cases x with
  | ok a => exact hk a rfl
  | error e => exact Keeps.fail (he e rfl)

/-- **An approval** may be sent where the instance was taken out verified. -/
theorem sendApproval_instance {seen p : PendingRequest} {approvalAlias : ApprovalAlias}
    {share : Option Bytes32} (hop : op.Approves) (htook : TookVerified t l seen p)
    (hid : seen.identity = p.identity) (hno : NoApproval l) :
    (instanceDiscipline Z).Keeps t op l
      (sendSignedResponse p.send approvalAlias p.request true share) (Unsent l) := by
  refine free_call (free_of_part rfl) fun timestamp s s' _ _ => ?_
  have h₁ : Freely l (⟨t, .currentTimeMs, timestamp, s, s'⟩ :: l) :=
    (Freely.refl l).cons (free_of_part rfl)
  refine mapErr_goes (fun _ _ _ _ _ => h₁) fun resp hb => ?_
  refine Keeps.bind (keeps_of_free (free_of_stays (stays_signApproval _ _) rfl))
    (fun r l₂ h₂ => ?_) fun _ l₂ h₂ _ _ _ => h₁.trans h₂
  have h₂ := h₁.trans h₂
  refine mapErr_goes (fun _ _ _ _ _ => h₂) fun signature hr => ?_
  refine Keeps.call fun sent u u' _ _ => ⟨?_, ?_⟩
  · refine ⟨nofun, nofun, fun q h => ?_, fun resp' ⟨⟨stream, hc⟩, _⟩ =>
      ⟨hop, ⟨seen, p, htook.freely h₂, hid, ?_⟩, hno.freely h₂⟩⟩
    · rcases h with h | h
      · cases h
      · cases h
    · obtain ⟨built, hbuilt, hresp⟩ := buildResponseForSigning_eq_ok hb
      have hresp' : { resp with signature := signature } = resp' :=
        FerusaMessage.response.inj (OutsideCmd.send.inj (AppCmd.ask.inj hc)).2
      subst hresp'
      rw [hresp]
      refine ⟨rfl, rfl, rfl, fun hshare => ?_⟩
      have hgiven := responseShare_approved hbuilt
      by_contra hnot
      rw [if_neg hnot] at hgiven
      exact hshare hgiven
  · -- what fails from here on has nothing to do with the key
    refine mapErr_goes (fun _ _ e he hauth => ?_) fun _ _ => ?_
    · rw [← Except.error.inj he] at hauth
      cases hauth
    refine free_call (free_of_part rfl) fun finished v v' _ _ => ?_
    cases finished with
    | ok u => exact Keeps.ret nofun
    | error e =>
      refine Keeps.fail fun e' he hauth => ?_
      rw [← Except.error.inj he] at hauth
      cases hauth

/-! ## The commands that answer -/

/-- What leaves instances alone, at the end of a program. -/
theorem freely_ends {α ε : Type} {p : Prog AppCmd.Reply ε α} (hp : p.Only Free) :
    (instanceDiscipline Z).Keeps t op l p fun _ _ => True :=
  (keeps_of_free hp).mono fun _ _ _ => trivial

/-- **The approval**, once the PIN was verified. -/
theorem approveVerified_instance {seen : PendingRequest} (approvalAlias : ApprovalAlias)
    (hop : op.Approves) (hverified : HasVerified l seen) (hno : NoApproval l) :
    (instanceDiscipline Z).Keeps t op l (approveVerified seen.identity approvalAlias)
      fun _ _ => True := by
  refine Keeps.bind (keeps_of_free (free_of_stays (ensureApprovalKeyAuth_stays _) rfl))
    (fun _ l₁ h₁ => ?_) fun _ _ _ => trivial
  refine Keeps.bind (takeVerifiedPending_takes seen (hno.freely h₁))
    (fun p l₂ ⟨hno₂, htaken⟩ => ?_) fun _ _ _ => trivial
  obtain ⟨-, hid, htook⟩ := htaken p rfl
  have htook := htook (hverified.suffix h₁.suffix)
  refine free_call (free_of_part rfl) fun foreground s s' _ _ => ?_
  have h₃ : Freely l₂ (⟨t, .isForeground, foreground, s, s'⟩ :: l₂) :=
    (Freely.refl l₂).cons (free_of_part rfl)
  split
  -- in the background the connection is closed, and nothing is sent
  · exact freely_ends (Prog.Only.bind (Prog.Only.perform (free_of_part rfl)) fun _ =>
      Prog.Only.bind (free_of_stays AppState.lock_stays rfl) fun _ => Prog.Only.fail)
  refine Keeps.bind (keeps_of_free (free_of_stays (copyUnlockShare_stays p) rfl))
    (fun share l₄ h₄ => ?_) fun _ _ _ => trivial
  refine free_call (free_of_part rfl) fun now u u' _ _ => ?_
  have h₅ := (h₃.trans h₄).cons (e := ⟨t, .now, now, u, u'⟩) (free_of_part rfl)
  split
  · exact freely_ends (Prog.Only.bind (Prog.Only.perform (free_of_part rfl)) fun _ =>
      Prog.Only.fail)
  exact answerOrRestore_keeps (htook.freely h₅).owns (hno₂.freely h₅)
    (sendApproval_instance hop (htook.freely h₅) hid (hno₂.freely h₅))

/-- The denial that a cooldown of the PIN leads to. The PIN was not verified, but
the instance is the thread's all the same. -/
theorem denyForCooldown_instance (seen : PendingRequest) (approvalAlias : ApprovalAlias)
    (error : AppError) (hno : NoApproval l) :
    (instanceDiscipline Z).Keeps t op l (denyForCooldown seen.identity approvalAlias error)
      fun _ _ => True := by
  refine Keeps.bind (keeps_of_free (free_of_stays (ensureApprovalKeyAuth_stays _) rfl))
    (fun _ l₁ h₁ => ?_) fun _ _ _ => trivial
  refine Keeps.bind (takeVerifiedPending_takes seen (hno.freely h₁))
    (fun p l₂ ⟨hno₂, htaken⟩ => ?_) fun _ _ _ => trivial
  refine Keeps.bind (answerOrRestore_keeps (htaken p rfl).1 hno₂ (sendDenial_keeps p _))
    (fun _ l₃ _ => ?_) fun _ _ _ => trivial
  exact freely_ends (Prog.Only.bind (free_of_stays AppState.lock_stays rfl) fun _ =>
    Prog.Only.bind (Prog.Only.bind (Prog.Only.perform (free_of_part rfl)) fun _ =>
      Prog.Only.pure) fun _ => Prog.Only.fail)

/-- **The verification of a PIN**: where it ends well, the check found the PIN
right. -/
def FoundRight (t : Nat) (pin pinHash : String) (l l' : List AppAct) : Prop :=
  ∃ later e early, l' = later ++ e :: early ∧ l <:+ early ∧
    ∃ s s', e = ⟨t, .verifyPin pin pinHash, .ok true, s, s'⟩

omit [Crypto] in
theorem FoundRight.suffix {pin pinHash : String} {l₁ l₂ : List AppAct}
    (h : FoundRight t pin pinHash l l₁) (hl : l₁ <:+ l₂) : FoundRight t pin pinHash l l₂ := by
  obtain ⟨later, e, early, rfl, hrest⟩ := h
  obtain ⟨m, rfl⟩ := hl
  exact ⟨m ++ later, e, early, by simp, hrest⟩

/-- What a verification comes to. -/
def VerifiesPin (t : Nat) (pin pinHash : String) (l : List AppAct)
    (x : Except AppError PinVerificationOutcome) (l' : List AppAct) : Prop :=
  Freely l l' ∧ (x = .ok .verified → FoundRight t pin pinHash l l')

/-- What follows the check for a cooldown. -/
theorem verifyAndRecord_instance (kind : PinKind) (pin pinHash : String) :
    (instanceDiscipline Z).Keeps t op l (verifyAndRecord kind pin pinHash)
      (VerifiesPin t pin pinHash l) := by
  refine free_call (free_of_part rfl) fun _ s s' _ _ => ?_
  have h₁ : Freely l (⟨t, .acquireArgon2, (), s, s'⟩ :: l) :=
    (Freely.refl l).cons (free_of_part rfl)
  refine free_call (free_of_part rfl) fun r u u' _ _ => ?_
  have h₂ := h₁.cons (e := ⟨t, .verifyPin pin pinHash, r, u, u'⟩) (free_of_part rfl)
  refine free_call (free_of_part rfl) fun _ v v' _ _ => ?_
  have h₃ := h₂.cons (e := ⟨t, .releaseArgon2, (), v, v'⟩) (free_of_part rfl)
  refine mapErr_goes (fun _ _ => ⟨h₃, nofun⟩) fun pinOk hr => ?_
  split
  · next hok =>
    have hright : FoundRight t pin pinHash l
        (⟨t, .releaseArgon2, (), v, v'⟩ :: ⟨t, .verifyPin pin pinHash, r, u, u'⟩ ::
          ⟨t, .acquireArgon2, (), s, s'⟩ :: l) :=
      ⟨[_], _, _, rfl, h₁.suffix, u, u', by rw [hr, hok]⟩
    have hrest : (storage (updatePinAttemptState kind fun _ => (.clear, ())) >>= fun r =>
        mapErr (keystoreError "delete") r >>= fun _ =>
          pure PinVerificationOutcome.verified : AppProg PinVerificationOutcome).Only Free :=
      Prog.Only.bind (free_of_stays stays_storage rfl) fun _ =>
        Prog.Only.bind (free_of_stays stays_mapErr rfl) fun _ => Prog.Only.pure
    exact (keeps_of_free hrest).mono fun _ _ h => ⟨h₃.trans h, fun _ => hright.suffix h.suffix⟩
  · refine Keeps.bind (keeps_of_free (free_of_stays (recordFailure_stays kind) rfl))
      (fun retryAfterMs l₄ h₄ => ?_) fun _ _ h₄ => ⟨h₃.trans h₄, nofun⟩
    cases retryAfterMs with
    | some ms => exact Keeps.pure ⟨h₃.trans h₄, nofun⟩
    | none => exact Keeps.pure ⟨h₃.trans h₄, nofun⟩

theorem verifyPinWithCooldown_instance (kind : PinKind) (pin pinHash : String) :
    (instanceDiscipline Z).Keeps t op l (verifyPinWithCooldown kind pin pinHash)
      (VerifiesPin t pin pinHash l) := by
  refine free_call (free_of_part rfl) fun _ s s' _ _ => ?_
  have h₁ : Freely l (⟨t, .lockGate kind, (), s, s'⟩ :: l) :=
    (Freely.refl l).cons (free_of_part rfl)
  refine Keeps.attempt_bind (M := VerifiesPin t pin pinHash l) ?_ fun x l' ⟨hl', hright⟩ => ?_
  · refine Keeps.bind (keeps_of_free (free_of_stays (checkCooldown_stays kind) rfl))
      (fun retryAfterMs l₂ h₂ => ?_) fun _ _ h₂ => ⟨h₁.trans h₂, nofun⟩
    cases retryAfterMs with
    | some ms => exact Keeps.pure ⟨h₁.trans h₂, nofun⟩
    | none =>
      refine (verifyAndRecord_instance kind pin pinHash).mono fun x l₃ ⟨h₃, hx⟩ =>
        ⟨(h₁.trans h₂).trans h₃, fun hv => ?_⟩
      obtain ⟨later, e, early, heq, hearly, hrest⟩ := hx hv
      exact ⟨later, e, early, heq, (h₁.trans h₂).suffix.trans hearly, hrest⟩
  · refine free_call (free_of_part rfl) fun _ u u' _ _ => Keeps.ofExcept ?_
    have hlast : Freely l' (⟨t, .unlockGate kind, (), u, u'⟩ :: l') :=
      (Freely.refl l').cons (free_of_part rfl)
    exact ⟨hl'.trans hlast, fun hv => (hright hv).suffix hlast.suffix⟩

omit [Crypto] in
theorem checkPending_eq_ok {requestId : String} {pending : Option PendingRequest} {now : Nat}
    {p : PendingRequest} (h : checkPending requestId pending now = .ok p) : pending = some p := by
  unfold checkPending at h
  split at h
  · cases h
  · split at h
    · cases h
    · split at h
      · cases h
      · exact congrArg some (Except.ok.inj h)

theorem unlockedSecrets_instance :
    (instanceDiscipline Z).Keeps t op l unlockedSecrets fun x l' => Freely l l' ∧
      ∀ secrets, x = .ok secrets →
        ∃ b ∈ l', b.command = .read .secrets ∧ b.before.cells .secrets = some secrets := by
  refine free_call (free_of_part rfl) fun stored s s' _ hx => ?_
  obtain ⟨rfl, -⟩ := App.exec_read.mp hx
  have h₁ : Freely l (⟨t, .read .secrets, (s.cells .secrets, s.now), s, s'⟩ :: l) :=
    (Freely.refl l).cons (free_of_part rfl)
  dsimp only
  split
  · next secrets hs =>
    refine Keeps.pure ⟨h₁, fun secrets' h => ⟨_, List.mem_cons_self, rfl, ?_⟩⟩
    exact hs.trans (congrArg some (Except.ok.inj h))
  · exact Keeps.fail ⟨h₁, nofun⟩

/-- **`approve_request`.** -/
theorem approveRequest_instance (requestId pin : String) :
    (instanceDiscipline Z).Keeps t (.approveRequest requestId pin) [] (approveRequest requestId pin)
      fun _ _ => True := by
  have hnone : NoApproval [] := fun b hb => absurd hb List.not_mem_nil
  refine Keeps.bind (keeps_of_free (free_of_stays ensureActiveSession_stays rfl))
    (fun _ l₁ h₁ => ?_) fun _ _ _ => trivial
  refine free_call (free_of_part rfl) fun slot s s' _ hx => ?_
  have h₂ := h₁.cons (e := ⟨t, .slot .peek, slot, s, s'⟩) (free_of_part rfl)
  refine Keeps.bind (Keeps.ofExcept (Q := fun x l' => x = _ ∧ l' = _) ⟨rfl, rfl⟩)
    (fun seen l₃ ⟨hseen, h₃⟩ => ?_) fun _ _ _ => trivial
  subst h₃
  have hslot := checkPending_eq_ok hseen.symm
  have hpeek : HasSeen (⟨t, .slot .peek, slot, s, s'⟩ :: l₁) seen := by
    refine ⟨_, List.mem_cons_self, rfl, ?_⟩
    obtain ⟨hr, -⟩ := App.exec_slot.mp hx
    rw [← hslot, hr]
    rfl
  refine Keeps.bind unlockedSecrets_instance (fun secrets l₅ ⟨h₅, hsecrets⟩ => ?_)
    fun _ _ _ => trivial
  obtain ⟨b, hb, hread⟩ := hsecrets secrets rfl
  refine Keeps.bind (Keeps.ofExcept (Q := fun _ l' => l' = l₅) rfl)
    (fun _ l₆ h₆ => ?_) fun _ _ _ => trivial
  subst h₆
  refine Keeps.bind (verifyPinWithCooldown_instance _ pin _)
    (fun outcome l₇ ⟨h₇, hright⟩ => ?_) fun _ _ _ => trivial
  have hno : NoApproval l₇ := ((hnone.freely h₂).freely h₅).freely h₇
  cases outcome with
  | verified =>
    -- the acts of the thread, latest first: the check, the secrets, the look
    refine approveVerified_instance _ ⟨requestId, pin, rfl⟩ ?_ hno
    obtain ⟨later, e, early, heq, hearly, v, v', he⟩ := hright rfl
    refine ⟨later, e, early, heq, ⟨t, pin, secrets, v, v', he, b, hearly.subset hb, hread⟩, ?_⟩
    obtain ⟨i, hi, hsaw⟩ := hpeek
    exact ⟨i, hearly.subset (h₅.suffix.subset hi), hsaw⟩
  | incorrect => exact Keeps.fail trivial
  | cooldownStarted ms => exact denyForCooldown_instance seen _ _ hno
  | cooldownActive ms => exact denyForCooldown_instance seen _ _ hno

/-- **`deny_request`.** -/
theorem denyRequest_instance (requestId : String) :
    (instanceDiscipline Z).Keeps t op [] (denyRequest requestId) fun _ _ => True := by
  have hnone : NoApproval [] := fun b hb => absurd hb List.not_mem_nil
  refine Keeps.bind (keeps_of_free (free_of_stays ensureActiveSession_stays rfl))
    (fun _ l₁ h₁ => ?_) fun _ _ _ => trivial
  refine Keeps.bind (keeps_of_free (free_of_stays unlockedSecrets_stays rfl))
    (fun secrets l₂ h₂ => ?_) fun _ _ _ => trivial
  refine Keeps.bind (keeps_of_free (free_of_stays (ensureApprovalKeyAuth_stays _) rfl))
    (fun _ l₃ h₃ => ?_) fun _ _ _ => trivial
  refine free_call (free_of_part rfl) fun taken s s' _ hx => ?_
  have h₄ := ((h₁.trans h₂).trans h₃).cons (e := ⟨t, .slot .take, taken, s, s'⟩)
    (free_of_part rfl)
  have hno := hnone.freely h₄
  cases taken with
  | none => exact Keeps.fail trivial
  | some p =>
    have hown : Owns (⟨t, .slot .take, some p, s, s'⟩ :: l₃) p := by
      obtain ⟨hr, hs⟩ := App.exec_slot.mp hx
      refine ⟨[], _, _, rfl, ⟨hr.symm, ?_⟩, List.forall_mem_nil _⟩
      show s'.pending.slot = none
      rw [hs]
      rfl
    dsimp only
    split
    -- another request was meant: this one is put back
    · exact Keeps.call fun _ _ _ _ _ =>
        ⟨InstanceMay.of_puts (.inl rfl) hown hno, Keeps.fail trivial⟩
    refine free_call (free_of_part rfl) fun foreground u u' _ _ => ?_
    have h₅ : Freely _ (⟨t, .isForeground, foreground, u, u'⟩ :: _) :=
      (Freely.refl (⟨t, .slot .take, some p, s, s'⟩ :: l₃)).cons (free_of_part rfl)
    split
    · exact freely_ends (Prog.Only.bind (Prog.Only.perform (free_of_part rfl)) fun _ =>
        Prog.Only.bind (free_of_stays AppState.lock_stays rfl) fun _ => Prog.Only.fail)
    refine Keeps.attempt_bind (sendDenial_keeps p _) fun r l₆ hr => ?_
    cases r with
    | ok v => exact Keeps.pure trivial
    | error e =>
      -- only a failed signature asks for the key, and then nothing was sent
      refine Keeps.bind (handleSignedResponseError_instance e) (fun error l₇ ⟨h₇, herror⟩ => ?_)
        fun _ _ _ => trivial
      obtain rfl := herror error rfl
      refine Keeps.bind (M := fun _ _ => True) ?_ (fun _ _ _ => Keeps.fail trivial)
        fun _ _ _ => trivial
      split
      · next hauth =>
        have hfree := h₅.trans ((hr error rfl hauth).trans h₇)
        exact Keeps.call fun _ _ _ _ _ =>
          ⟨InstanceMay.of_puts (.inl rfl) (hown.freely hfree) (hno.freely hfree), Keeps.ret trivial⟩
      · exact Keeps.pure trivial

/-- **`set_foreground`**, under the lock. -/
theorem setForeground_instance (foreground : Bool) : (instanceDiscipline Z).Keeps t op l
    (AppState.setForeground foreground) fun _ _ => True := by
  refine underLock (fun _ _ _ _ _ => trivial) fun s₁ => ?_
  refine Keeps.call fun _ s₂ s₂' hr₂ _ => ⟨⟨fun _ _ => (hr₂ _ rfl rfl).1, nofun, ?_, nofun⟩, ?_⟩
  · rintro p (h | h)
    · cases h
    · cases h
  · exact freely_ends (Prog.Only.ite Prog.Only.pure (free_of_stays AppState.clearSession_stays rfl))

/-- **The admission of a request**: the instance is made, and the generation read,
under the lock. -/
theorem admitRequest_instance (conn : Connection) (stream : Stream) (req : AuthRequest) :
    (instanceDiscipline Z).Keeps t op l (admitRequest conn stream req) fun _ _ => True := by
  refine underLock (fun _ _ _ _ _ => trivial) fun s₁ => ?_
  refine free_call (free_of_part rfl) fun foreground s₂ s₂' hr₂ hx₂ => ?_
  obtain ⟨hg₂, -, -⟩ := hr₂ _ rfl rfl
  obtain ⟨-, rfl⟩ := App.exec_isForeground.mp hx₂
  split
  · exact freely_ends (Prog.Only.bind (Prog.Only.perform (free_of_part rfl)) fun _ =>
      Prog.Only.pure)
  refine free_call (free_of_part rfl) fun instanceId s₃ s₃' hr₃ hx₃ => ?_
  obtain ⟨hg₃, -, -⟩ := hr₃ _ rfl hg₂
  obtain ⟨-, rfl⟩ := App.exec_newUuid.mp hx₃
  refine free_call (free_of_part rfl) fun generation s₄ s₄' hr₄ hx₄ => ?_
  obtain ⟨hg₄, -, -⟩ := hr₄ _ rfl hg₃
  obtain ⟨-, hgen, rfl⟩ := App.exec_generation.mp hx₄
  refine free_call (free_of_part rfl) fun createdAt s₅ s₅' hr₅ hx₅ => ?_
  obtain ⟨hg₅, hgen₅, -⟩ := hr₅ _ rfl hg₄
  obtain ⟨-, rfl⟩ := App.exec_now.mp hx₅
  refine Keeps.bind (M := fun _ _ => True) ?_ (fun _ _ _ => Keeps.pure trivial)
    fun _ _ _ => trivial
  refine Keeps.call fun r s₆ s₆' hr₆ _ => ⟨⟨nofun, fun p hp => ?_, ?_, nofun⟩, Keeps.ret trivial⟩
  · obtain rfl := SlotOp.enter.inj (AppCmd.slot.inj hp)
    obtain ⟨-, hgen₆, -⟩ := hr₆ _ rfl hg₅
    refine ⟨⟨[_, _], _, _, rfl, ⟨_, _, rfl⟩, ?_⟩, ?_⟩
    · intro b hb q hq
      rcases List.mem_cons.mp hb with rfl | hb
      · cases hq
      · obtain rfl := List.mem_singleton.mp hb
        cases hq
    · show s₆.generation = generation
      rw [hgen₆, hgen₅, hgen]
  · rintro p (h | h)
    · cases h
    · cases h

/-! ## The programs keep it -/

/-- **The generation is not changed** but by who holds its lock. -/
theorem generation_kept {u : Nat} {c : AppCmd} {r : c.Reply} {s s' : App}
    (hx : App.Exec u c s r s') (htu : t ≠ u) (hg : s.generationGuard = some t) :
    s'.generation = s.generation := by
  refine hx.framed.generation ?_
  rintro rfl
  exact absurd (Option.some.inj (hg.symm.trans (App.exec_bumpGeneration.mp hx).1)) htu

/-- The lock is not taken from who holds it, and neither the generation nor the
foreground is changed by another. -/
theorem session_kept {u : Nat} {c : AppCmd} {r : c.Reply} {s s' : App}
    (hx : App.Exec u c s r s') (hm : InstanceMay u op l ⟨u, c, r, s, s'⟩) (htu : t ≠ u)
    (hg : s.generationGuard = some t) : s'.generationGuard = some t ∧
      s'.generation = s.generation ∧ s'.foreground = s.foreground := by
  refine ⟨generationGuard_kept hx htu hg, generation_kept hx htu hg, hx.framed.foreground ?_⟩
  rintro foreground rfl
  exact absurd (Option.some.inj (hg.symm.trans (hm.foreground foreground rfl))) htu

/-- **The programs keep the discipline.** -/
theorem instanceDiscipline_valid (Z : Setting) : (instanceDiscipline Z).Valid where
  keeps t op := by
    have hfree : ∀ {ε α : Type} {parts : List Part} {p : Prog AppCmd.Reply ε α}
        {l : List AppAct}, Stays parts p →
        parts.all (fun x => x ∉ [Part.foreground, .admission, .putBack, .approve]) = true →
        (instanceDiscipline Z).Keeps t op l p fun _ _ => True :=
      fun hp hparts => freely_ends (free_of_stays hp hparts)
    cases op with
    | approveRequest requestId pin => exact approveRequest_instance requestId pin
    | denyRequest requestId => exact denyRequest_instance requestId
    | serve conn streams =>
      have h : Admitting (instanceDiscipline Z) fun _ => True := by
        refine ⟨fun hp hparts t op l _ => freely_ends (free_of_stays hp ?_),
          fun t op l _ => freely_ends (free_of_stays ensureActiveSession_stays rfl),
          fun conn stream req t op l _ => admitRequest_instance conn stream req,
          fun _ _ t op l _ => freely_ends (free_of_stays (announceRequest_stays _ _) rfl)⟩
        refine List.all_eq_true.mpr fun x hx => ?_
        have hx := of_decide_eq_true (List.all_eq_true.mp hparts x hx)
        have hsub := List.subset_append_left [Part.foreground, .admission, .putBack, .approve]
          [.slot]
        exact decide_eq_true fun hmem => hx (hsub hmem)
      exact h.serveConnection conn streams t _ [] trivial
    | setAppForeground foreground =>
      exact Keeps.bind (setForeground_instance foreground) (fun _ _ _ => freely_ends
        (Prog.Only.ite Prog.Only.pure (free_of_stays expireSession_stays rfl)))
        fun _ _ _ => trivial
    | setupComplete payload => exact hfree (setupComplete_stays payload) rfl
    | biometricUnlock => exact hfree biometricUnlock_stays rfl
    | setupPairingCode =>
      exact hfree (Prog.Only.bind setupPairingCode_stays fun _ => Prog.Only.pure) rfl
    | checkSetup => exact hfree (Prog.Only.bind checkSetup_stays fun _ => Prog.Only.pure) rfl
    | authorizePairingReplacement pin4 pin6 =>
      exact hfree (authorizePairingReplacement_stays pin4 pin6) rfl
    | cancelPairingReplacement => exact hfree AppState.cancelPairingReplacement_stays rfl
    | lock => exact hfree lock_stays rfl
    | pendingRequest =>
      exact hfree (Prog.Only.bind pendingRequest_stays fun _ => Prog.Only.pure) rfl
    | task task => exact hfree task.program_stays rfl
  put htu hx hm hg := session_kept hx hm htu.symm hg
  start hstart hg := by
    obtain ⟨spawned, rfl⟩ := AppOp.Starts.spawned hstart
    exact ⟨hg, rfl, rfl⟩
  env he hg := by
    obtain ⟨he, -⟩ := he
    cases he <;> exact ⟨hg, rfl, rfl⟩

end Phone
