import Ferusa.Phone.Parts
import Ferusa.Phone.StoreRuns
import Ferusa.Phone.Tracking

/-!
# Whose share is released

What the approval of a request is made of is read at three moments: the
alias of the approval key when the approval begins, the request when it
is taken out of the slot, the share after that. In between other threads
take their turns, and some store other secrets: an unlock, which adds one
to the session generation, and a setup, which does not.

As long as what is stored meanwhile is of the pairing of the request, and
what was stored before is too, the share and the signature are that
pairing's. Nothing else keeps them together: after the request was taken
out, the generation is not looked at any more.
-/

namespace Phone

open Discipline AppProg

/-! ## What the acts show -/

/-- **The store holds a record** of a generation. -/
def HoldsRecord (e : AppAct) (generation : PairingGeneration) : Prop :=
  e.before.store.secrets.gen generation.pairingId = some generation

/-- The secrets are those of a record that the store held. -/
def Loaded (l : List AppAct) (secrets : AppSecrets) : Prop :=
  ∃ e ∈ l, ∃ generation, HoldsRecord e generation ∧ secrets = generation.intoStateSecrets

/-- The secrets were stored by this act. -/
def StoresSecrets (e : AppAct) (secrets : AppSecrets) : Prop :=
  e.command = .write .secrets (some secrets)

/-- The thread has looked at the slot. -/
def LooksAtSlot (e : AppAct) : Prop := e.command = .slot .peek

/-- The secrets were read, after a look at the slot. -/
def ReadAfterLook (l : List AppAct) (secrets : AppSecrets) : Prop :=
  ∃ later e early, l = later ++ e :: early ∧ e.command = .read .secrets ∧
    e.before.cells .secrets = some secrets ∧ ∃ i ∈ early, LooksAtSlot i

/-- The request was taken out of the slot, verified. -/
def TakesVerified (e : AppAct) (pending : PendingRequest) : Prop :=
  (∃ identity, e.command = .slot (.takeVerified identity)) ∧
    e.before.pending.slot = some pending ∧ e.after.pending.slot = none

/-- This signature was made. -/
def SignsAs (e : AppAct) (keyAlias : ApprovalAlias) (payload : String) (signature : Bytes) :
    Prop :=
  ∃ t s s', e = ⟨t, .store (.sign keyAlias payload), .ok signature, s, s'⟩

/-- An approval is sent, with a share. -/
structure SendsShare (c : AppCmd) (resp : AuthResponse) (share : Bytes32) : Prop where
  sends : ∃ stream, c = .ask (.send stream (.response resp))
  approved : resp.approved = true
  share : resp.unlockShare = some share

/-- **What an approval with a share was made of**: a request that was taken
out, and secrets that were read once for the signature and once for the
share. -/
def MadeOf (l : List AppAct) (resp : AuthResponse) (share : Bytes32) : Prop :=
  ∃ pending, (∃ e ∈ l, TakesVerified e pending) ∧
    resp.pairingId = pending.request.pairingId ∧ resp.requestId = pending.request.requestId ∧
    (∃ secrets, ReadAfterLook l secrets ∧ ∃ e ∈ l, SignsAs e secrets.approvalKeyAlias
      (canonicalApprovalPayload pending.request resp) resp.signature) ∧
    ∃ secrets, ReadAfterLook l secrets ∧ share = secrets.phoneShare

/-- The thread approves a request. -/
def AppOp.Approves (op : AppOp) : Prop := ∃ requestId pin, op = .approveRequest requestId pin

/-- **What a thread may do** with secrets: store those that it has loaded, and
release a share from those that it has read. -/
structure ReleaseMay (op : AppOp) (l : List AppAct) (e : AppAct) : Prop where
  stores : ∀ secrets, StoresSecrets e secrets → Loaded l secrets
  releases : op.Approves → ∀ resp share, SendsShare e.command resp share → MadeOf l resp share

/-! ### They stay so -/

section

variable {l l' : List AppAct}

theorem ReadAfterLook.suffix {secrets : AppSecrets} (h : ReadAfterLook l secrets)
    (hl : l <:+ l') : ReadAfterLook l' secrets := by
  obtain ⟨later, e, early, rfl, he⟩ := h
  obtain ⟨m, rfl⟩ := hl
  exact ⟨m ++ later, e, early, by simp, he⟩

theorem exists_suffix {P : AppAct → Prop} (h : ∃ e ∈ l, P e) (hl : l <:+ l') : ∃ e ∈ l', P e := by
  obtain ⟨e, he, hP⟩ := h
  exact ⟨e, hl.subset he, hP⟩

end

/-! ## Programs that neither store secrets nor release a share -/

/-- No secrets are stored, and no approval is sent. -/
structure Harmless (c : AppCmd) : Prop where
  unlock : c.part ≠ .unlock
  approve : c.part ≠ .approve

/-- A program of parts that have nothing to do with either. -/
theorem harmless_of_stays {ε α : Type} {parts : List Part} {p : Prog AppCmd.Reply ε α}
    (hp : Stays parts p) (hu : Part.unlock ∉ parts) (ha : Part.approve ∉ parts) :
    p.Only Harmless :=
  Prog.Only.mono hp fun _ hc => ⟨fun h => hu (h ▸ hc), fun h => ha (h ▸ hc)⟩

/-- What is asked of the outside, other than to send an approval. -/
theorem harmless_ask {ε : Type} {c : OutsideCmd} (h : (AppCmd.ask c).part = .ask) :
    (Prog.perform (AppCmd.ask c) : Prog AppCmd.Reply ε _).Only Harmless :=
  Prog.Only.perform ⟨by rw [h]; nofun, by rw [h]; nofun⟩

/-! ## What is loaded is of a record -/

/-- **The acts of a thread on the store**, as its programs add to them. -/
def actLogic [Crypto] (t : Nat) : Logic StoreCmd.Reply (List AppAct) where
  exec c l r l' := ∃ s s', App.Exec t (.store c) s r s' ∧ l' = ⟨t, .store c, r, s, s'⟩ :: l
  inv _ := True
  rely l l' := l' = l
  guar l l' := l <:+ l'
  rely_refl _ := rfl
  rely_trans h h' := h'.trans h

section

open Logic StoreProg

variable [Crypto] {t : Nat} {α : Type}

theorem stable_acts {P : List AppAct → Prop} : (actLogic t).Stable P := by
  intro l l' _ h hr _
  rwa [show l' = l from hr]

/-- The acts are added to. -/
theorem actLogic_guar {c : StoreCmd} {l l' : List AppAct} {r : c.Reply}
    (h : (actLogic t).exec c l r l') : (actLogic t).guar l l' := by
  obtain ⟨s, s', -, rfl⟩ := h
  exact List.suffix_cons _ _

/-- Any program may run. -/
theorem any_acts {p : StoreProg α} :
    (actLogic t).Triple (fun _ => True) p (fun _ _ => True) fun _ _ => True := by
  induction p with
  | ret a => exact Triple.ret stable_acts fun _ _ _ => trivial
  | fail e => exact Triple.fail stable_acts fun _ _ _ => trivial
  | call c k ih =>
    exact Triple.call (M := fun _ _ => True) stable_acts
      (fun _ _ _ _ _ hx => ⟨actLogic_guar hx, trivial⟩) ih

/-- **What was done stays done**, whatever runs. -/
theorem done_stays {P : AppAct → Prop} {p : StoreProg α} :
    (actLogic t).Triple (fun l => ∃ e ∈ l, P e) p (fun _ l => ∃ e ∈ l, P e) fun _ _ => True :=
  (any_acts.frame stable_acts fun _ _ _ h hl => exists_suffix h hl).conseq
    (fun _ _ h => ⟨trivial, h⟩) (fun _ _ _ h => h.2) fun _ _ _ _ => trivial

/-- **What is read was there.** -/
theorem getEntry_acts (k : Key) : (actLogic t).Triple (fun _ => True) (getEntry k)
    (fun stored l => ∃ e ∈ l, stored = e.before.store.secrets k) fun _ _ => True := by
  refine Triple.perform_bind (M := fun r l => ∀ stored, r = .ok stored →
    ∃ e ∈ l, stored = e.before.store.secrets k) stable_acts ?_ fun r => ?_
  · intro l r l' _ _ hx
    refine ⟨actLogic_guar hx, fun stored hstored => ?_⟩
    obtain ⟨s, s', hx, rfl⟩ := hx
    obtain ⟨o, st, ho, -⟩ := App.exec_store.mp hx
    exact ⟨_, List.mem_cons_self, (exec_get_same ho).2 stored hstored⟩
  · cases r with
    | ok stored => exact Triple.ret stable_acts fun l _ h => h stored rfl
    | error e => exact Triple.fail stable_acts fun _ _ _ => trivial

theorem loadGeneration_acts (id : Uuid) : (actLogic t).Triple (fun _ => True)
    (loadGeneration id) (fun generation l => ∃ e ∈ l, HoldsRecord e generation)
    fun _ _ => True := by
  refine Triple.bind (Triple.mapError (getEntry_acts _)) fun stored => ?_
  cases stored with
  | none => exact Triple.fail stable_acts fun _ _ _ => trivial
  | some generation =>
    show (actLogic t).Triple _ (if generation.pairingId ≠ id then _ else _) _ _
    split
    · exact Triple.fail stable_acts fun _ _ _ => trivial
    · next hid =>
      refine Triple.pure stable_acts fun l _ ⟨e, he, hstored⟩ => ⟨e, he, ?_⟩
      rw [HoldsRecord, not_not.mp hid]
      exact hstored.symm

theorem loadKeyBoundGeneration_acts (id : Uuid) : (actLogic t).Triple (fun _ => True)
    (loadKeyBoundGeneration id) (fun generation l => ∃ e ∈ l, HoldsRecord e generation)
    fun _ _ => True := by
  refine Triple.bind (Triple.bind (loadGeneration_acts id) fun generation => ?_)
    fun generation => Triple.bind done_stays fun _ => Triple.pure stable_acts fun _ _ h => h
  exact Triple.bind done_stays fun _ => Triple.pure stable_acts fun _ _ h => h

/-- **`load_secrets`** answers with a record that the store holds. -/
theorem loadSecrets_acts : (actLogic t).Triple (fun _ => True) loadSecrets
    (fun generation l => ∃ e ∈ l, HoldsRecord e generation) fun _ _ => True := by
  refine Triple.bind any_acts fun _ => Triple.bind any_acts fun active => ?_
  cases active with
  | none => exact Triple.fail stable_acts fun _ _ _ => trivial
  | some id => exact Triple.mapError (loadKeyBoundGeneration_acts id)

/-- Under the lock, too. -/
theorem withStorageGuard_acts {P : α → AppAct → Prop} {p : StoreProg α}
    (h : (actLogic t).Triple (fun _ => True) p (fun a l => ∃ e ∈ l, P a e) fun _ _ => True) :
    (actLogic t).Triple (fun _ => True) (withStorageGuard p) (fun a l => ∃ e ∈ l, P a e)
      fun _ _ => True := by
  have hattempt : (actLogic t).Triple (fun _ => True) p.attempt
      (fun r l => ∀ a, r = .ok a → ∃ e ∈ l, P a e) fun (_ : Anyhow) _ => True := by
    refine Triple.attempt (h.conseq (fun _ _ h => h) (fun a l _ h a' hok => ?_) ?_)
    · rwa [← Except.ok.inj hok]
    · exact fun e l _ _ => nofun
  refine Triple.bind any_acts fun _ => Triple.bind hattempt fun r => ?_
  cases r with
  | error e =>
    exact Triple.bind (M := fun _ _ => True) (any_acts.pre fun _ _ _ => trivial) fun _ =>
      Triple.fail stable_acts fun _ _ _ => trivial
  | ok a =>
    refine Triple.bind (done_stays.pre fun l _ h => h a rfl) fun _ => ?_
    exact Triple.ret stable_acts fun _ _ h => h

end

/-! ## The discipline of the secrets -/

variable [Crypto] {Z : Setting} {t : Nat} {op : AppOp} {l : List AppAct}

/-- **The discipline of the secrets.** -/
def releaseDiscipline (Z : Setting) : Discipline (appThreads Z) where
  may _ := ReleaseMay
  ends _ _ _ _ := True
  rely _ _ _ := True
  rely_refl _ _ := trivial
  rely_trans _ _ := trivial

omit [Crypto] in
theorem ReleaseMay.of_harmless {e : AppAct} (h : Harmless e.command) : ReleaseMay op l e where
  stores secrets hs := absurd (show e.command.part = .unlock by rw [hs]; rfl) h.unlock
  releases _ resp share hsend := by
    obtain ⟨stream, hc⟩ := hsend.sends
    refine absurd ?_ h.approve
    rw [hc]
    show (bif resp.approved then Part.approve else .ask) = .approve
    rw [hsend.approved, cond_true]

/-- **What is harmless may run** at any time. -/
theorem keeps_of_harmless {ε α : Type} {p : Prog AppCmd.Reply ε α} (hp : p.Only Harmless) :
    (releaseDiscipline Z).Keeps t op l p fun _ l' => l <:+ l' :=
  (Keeps.only (D := releaseDiscipline Z) hp fun _ _ _ _ _ hc _ =>
    ReleaseMay.of_harmless hc).mono fun _ _ ⟨m, hl, _⟩ => ⟨m, hl.symm⟩

/-- **One command** that may be put. -/
theorem may_keeps {α : Type} {c : AppCmd} {k : c.Reply → AppProg α}
    {Q : Except AppError α → List AppAct → Prop}
    (hc : ∀ r s s', ReleaseMay op l ⟨t, c, r, s, s'⟩)
    (hk : ∀ r s s', App.Exec t c s r s' →
      (releaseDiscipline Z).Keeps t op (⟨t, c, r, s, s'⟩ :: l) (k r) Q) :
    (releaseDiscipline Z).Keeps t op l (put c >>= k) Q :=
  Keeps.call fun r s s' _ hx => ⟨hc r s s', hk r s s' hx⟩

/-- **One harmless command.** -/
theorem put_keeps {α : Type} {c : AppCmd} {k : c.Reply → AppProg α}
    {Q : Except AppError α → List AppAct → Prop} (hc : Harmless c)
    (hk : ∀ r s s', App.Exec t c s r s' →
      (releaseDiscipline Z).Keeps t op (⟨t, c, r, s, s'⟩ :: l) (k r) Q) :
    (releaseDiscipline Z).Keeps t op l (put c >>= k) Q :=
  may_keeps (fun _ _ _ => .of_harmless hc) hk

/-- **What stores no secrets** may run wherever no request is approved. -/
theorem keeps_of_stays {ε α : Type} {p : Prog AppCmd.Reply ε α} (hop : ¬ op.Approves)
    (hp : Stays storesNoSecrets p) :
    (releaseDiscipline Z).Keeps t op l p fun _ _ => True := by
  refine (Keeps.only (D := releaseDiscipline Z) hp fun l c r s s' hc _ => ⟨fun secrets hs => ?_,
    fun happroves => absurd happroves hop⟩).mono fun _ _ _ => trivial
  have hc : c.part ∈ storesNoSecrets := hc
  rw [show c = .write .secrets (some secrets) from hs] at hc
  exact absurd (show Part.unlock ∈ storesNoSecrets from hc) (by decide)

/-- A program of the store. -/
theorem keeps_hoist {ε α : Type} {p : Prog StoreCmd.Reply ε α} {Q : α → List AppAct → Prop}
    (h : (actLogic t).Triple (fun _ => True) p Q fun _ _ => True) :
    (releaseDiscipline Z).Keeps t op l (p.hoist AppCmd.store fun _ r => r)
      fun x l' => ∀ a, x = .ok a → Q a l' := by
  have hl : Keeps.Since (fun e : AppAct => ∃ c, True ∧ e.command = .store c) l l :=
    ⟨[], rfl, by simp⟩
  refine (Keeps.hoist (D := releaseDiscipline Z) (L := actLogic t) (fun l _ => l)
    (P := fun _ => True) (fun _ => trivial) (fun _ => rfl)
    (fun {_ _ _ s s'} hx => ⟨s, s', hx, rfl⟩) (fun {_ c _ _ _} _ _ _ _ _ => ?_) hl
    (Prog.Only.of_forall fun _ => trivial) fun _ _ => h l trivial trivial).mono ?_
  · refine ReleaseMay.of_harmless ⟨fun hu => ?_, fun ha => ?_⟩
    · cases c <;> cases hu
    · cases c <;> cases ha
  · rintro x l' ⟨-, hx⟩ a rfl
    exact hx (App.boot Store.empty 0 0 ⟨0, 0, Nat.zero_le _⟩ []) fun _ _ => trivial

/-- **What the session loads** is of a record of the store. -/
theorem loadSessionSecrets_keeps : (releaseDiscipline Z).Keeps t op l loadSessionSecrets
    fun x l' => ∀ stored, x = .ok stored → Loaded l' stored.intoStateSecrets := by
  refine Keeps.bind (M := fun x l' => ∀ r, x = .ok r → ∀ stored, r = .ok stored →
    ∃ e ∈ l', HoldsRecord e stored) ?_ (fun r l' hr => ?_) fun _ _ _ => nofun
  · refine Keeps.attempt ((keeps_hoist (withStorageGuard_acts
    loadSecrets_acts)).mono fun x l' h r hr stored hs => ?_)
    obtain rfl := Except.ok.inj hr
    exact h stored hs
  · cases r with
    | ok stored =>
      refine Keeps.pure fun stored' h => ?_
      obtain rfl := Except.ok.inj h
      obtain ⟨e, he, hrec⟩ := hr _ rfl _ rfl
      exact ⟨e, he, stored, hrec, rfl⟩
    | error e =>
      exact Keeps.bind (keeps_of_harmless (harmless_of_stays (handleSignedResponseError_stays _)
        (by decide) (by decide))) (fun _ _ _ => Keeps.fail nofun) fun _ _ _ => nofun

/-- **Storing what was loaded.** -/
theorem store_keeps {α : Type} {secrets : AppSecrets} {k : Unit → AppProg α}
    {Q : Except AppError α → List AppAct → Prop} (hop : ¬ op.Approves) (h : Loaded l secrets)
    (hk : ∀ l', (releaseDiscipline Z).Keeps t op l' (k ()) Q) :
    (releaseDiscipline Z).Keeps t op l (put (.write .secrets (some secrets)) >>= k) Q := by
  refine may_keeps (fun _ _ _ => ⟨fun secrets' hs => ?_, fun ha => absurd ha hop⟩)
    fun _ _ _ _ => hk _
  have hs : AppCmd.write .secrets (some secrets) = .write .secrets (some secrets') := hs
  rw [← Option.some.inj (eq_of_heq (AppCmd.write.inj hs).2)]
  exact h

/-! ## The programs keep it -/

theorem setupComplete_keeps (payload : SetupPayload) : (releaseDiscipline Z).Keeps t
    (.setupComplete payload) l (setupComplete payload) fun _ _ => True := by
  have hop : ¬ (AppOp.setupComplete payload).Approves := by
    rintro ⟨_, _, h⟩
    cases h
  have hquiet : ∀ {α β : Type} {p : AppProg α} {f : α → AppProg β} {l : List AppAct},
      Stays storesNoSecrets p →
      (∀ a l', (releaseDiscipline Z).Keeps t (.setupComplete payload) l' (f a) fun _ _ => True) →
      (releaseDiscipline Z).Keeps t (.setupComplete payload) l (p >>= f) fun _ _ => True :=
    fun hp hf => Keeps.bind (keeps_of_stays hop hp) (fun a l' _ => hf a l') fun _ _ _ => trivial
  refine hquiet (requireReplacementAuthorization_stays.mono rfl) fun _ _ => ?_
  refine hquiet Prog.Only.ofExcept fun cliNodeId _ => ?_
  refine hquiet (consumeSetupPairingCode_stays.mono rfl) fun pairingCode _ => ?_
  refine hquiet ((hashSetupPin_stays _).mono rfl) fun pin4Hash _ => ?_
  refine hquiet ((hashSetupPin_stays _).mono rfl) fun pin6Hash _ => ?_
  refine hquiet (acquireEndpoint_stays.mono rfl) fun _ _ => ?_
  refine hquiet ((stagePairing_stays _ _ _).mono rfl) fun staged _ => ?_
  refine hquiet ((signReady_stays staged).mono rfl) fun readySignature _ => ?_
  refine hquiet (Prog.Only.attempt (Stays.mono (pairWithCli_stays _ _ _) rfl)) fun paired _ => ?_
  refine hquiet (stays_mapErr.mono rfl) fun _ _ => ?_
  refine Keeps.bind loadSessionSecrets_keeps (fun stored l' hloaded => ?_) fun _ _ _ => trivial
  refine store_keeps hop (hloaded stored rfl) fun l' => ?_
  exact hquiet (stays_put rfl) fun _ _ => keeps_of_stays hop (AppState.lock_stays.mono rfl)

omit [Crypto] in
theorem Loaded.suffix {secrets : AppSecrets} {l' : List AppAct} (h : Loaded l secrets)
    (hl : l <:+ l') : Loaded l' secrets :=
  exists_suffix h hl

/-- **Under the lock of the session generation.** -/
theorem underGeneration_keeps {α : Type} {p : AppProg α}
    {Q : Except AppError α → List AppAct → Prop} (hQ : ∀ {x l l'}, Q x l → l <:+ l' → Q x l')
    (hp : ∀ l', l <:+ l' → (releaseDiscipline Z).Keeps t op l' p Q) :
    (releaseDiscipline Z).Keeps t op l (AppState.withGeneration p) Q := by
  unfold AppState.withGeneration
  refine put_keeps ⟨nofun, nofun⟩ fun _ s s' _ => ?_
  refine Keeps.attempt_bind (hp _ (List.suffix_cons _ _)) fun x l' hx => ?_
  refine put_keeps ⟨nofun, nofun⟩ fun _ s s' _ => ?_
  exact Keeps.ofExcept (hQ hx (List.suffix_cons _ _))

/-- **The end of an unlock.** -/
theorem completeUnlock_keeps {expected : Nat} {secrets : AppSecrets} (hop : ¬ op.Approves)
    (h : Loaded l secrets) : (releaseDiscipline Z).Keeps t op l
      (AppState.completeUnlock expected secrets) fun _ _ => True := by
  refine underGeneration_keeps (fun _ _ => trivial) fun l₁ h₁ => ?_
  refine put_keeps ⟨nofun, nofun⟩ fun generation s s' _ => ?_
  refine Keeps.bind (keeps_of_harmless (harmless_of_stays
    (AppState.checkAuthenticationGeneration_stays _ _) (by decide) (by decide)))
    (fun _ l₂ h₂ => ?_) fun _ _ _ => trivial
  have hl : l <:+ l₂ := h₁.trans ((List.suffix_cons _ _).trans h₂)
  refine store_keeps hop (h.suffix hl) fun l' => keeps_of_stays hop ?_
  exact Prog.Only.bind (Prog.Only.bind (stays_put rfl) fun _ => stays_put rfl)
    fun _ => stays_put rfl

theorem biometricUnlock_keeps :
    (releaseDiscipline Z).Keeps t .biometricUnlock l biometricUnlock fun _ _ => True := by
  have hop : ¬ AppOp.biometricUnlock.Approves := by
    rintro ⟨_, _, h⟩
    cases h
  refine Keeps.bind (keeps_of_stays hop (AppState.authenticationGeneration_stays.mono rfl))
    (fun generation l' _ => ?_) fun _ _ _ => trivial
  refine Keeps.bind (keeps_of_stays hop ((refreshApprovalKeyAuth_stays _ _).mono rfl))
    (fun _ l' _ => ?_) fun _ _ _ => trivial
  refine Keeps.bind loadSessionSecrets_keeps (fun stored l' hloaded => ?_) fun _ _ _ => trivial
  refine Keeps.bind (completeUnlock_keeps hop (hloaded stored rfl)) (fun _ l' _ => ?_)
    fun _ _ _ => trivial
  exact keeps_of_stays hop (Prog.Only.bind (stays_put rfl) fun _ => stays_put rfl)

/-! ### The approval -/

/-- A look at the secrets. -/
theorem readSecrets_keeps {α : Type} {k : Option AppSecrets × Nat → AppProg α}
    {Q : Except AppError α → List AppAct → Prop} (hlook : ∃ i ∈ l, LooksAtSlot i)
    (hk : ∀ r l', l <:+ l' → (∀ secrets, r.1 = some secrets → ReadAfterLook l' secrets) →
      (releaseDiscipline Z).Keeps t op l' (k r) Q) :
    (releaseDiscipline Z).Keeps t op l (put (.read .secrets) >>= k) Q := by
  refine Keeps.call fun r s s' _ hx => ⟨ReleaseMay.of_harmless ⟨nofun, nofun⟩,
    hk r _ (List.suffix_cons _ _) fun secrets hsecrets => ?_⟩
  obtain ⟨rfl, -⟩ := App.exec_read.mp hx
  exact ⟨[], _, l, rfl, rfl, hsecrets, hlook⟩

theorem unlockedSecrets_keeps (hlook : ∃ i ∈ l, LooksAtSlot i) :
    (releaseDiscipline Z).Keeps t op l unlockedSecrets fun x l' => l <:+ l' ∧
      ∀ secrets, x = .ok secrets → ReadAfterLook l' secrets := by
  refine readSecrets_keeps hlook fun r l' hl hread => ?_
  split
  · next secrets hr =>
    refine Keeps.pure ⟨hl, fun secrets' h => ?_⟩
    rw [← Except.ok.inj h]
    exact hread secrets hr
  · exact Keeps.fail ⟨hl, nofun⟩

/-- **The copy of the share.** -/
theorem copyUnlockShare_keeps (pending : PendingRequest) (hlook : ∃ i ∈ l, LooksAtSlot i) :
    (releaseDiscipline Z).Keeps t op l (copyUnlockShare pending) fun x l' => l <:+ l' ∧
      ∀ share, x = .ok (some share) →
        ∃ secrets, ReadAfterLook l' secrets ∧ share = secrets.phoneShare := by
  unfold copyUnlockShare
  split
  · refine readSecrets_keeps hlook fun r l' hl hread => ?_
    split
    · next secrets hr =>
      refine Keeps.pure ⟨hl, fun share h => ⟨secrets, hread secrets hr, ?_⟩⟩
      exact (Option.some.inj (Except.ok.inj h)).symm
    · exact Keeps.bind (keeps_of_harmless (harmless_ask rfl))
        (fun _ l'' hl' => Keeps.fail ⟨hl.trans hl', nofun⟩) fun _ _ hl' => ⟨hl.trans hl', nofun⟩
  · exact Keeps.pure ⟨List.suffix_refl l, fun share h => by cases h⟩

omit [Crypto] in
theorem takeVerified_apply (expected : PendingIdentity) (now : Nat) (p : Pending) :
    (SlotOp.takeVerified expected).apply now p =
      match p.slot with
      | none => (.error "missing", p)
      | some current =>
        if current.request.requestId ≠ expected.requestId ∨
            ¬ current.identity.isCurrent expected now then (.error "mismatch", p)
        else (.ok current, { p with slot := none }) := rfl

omit [Crypto] in
/-- What is taken out verified was in the slot. -/
theorem takeVerified_apply_ok {expected : PendingIdentity} {now : Nat} {p : Pending}
    {pending : PendingRequest}
    (h : ((SlotOp.takeVerified expected).apply now p).1 = .ok pending) :
    p.slot = some pending ∧ ((SlotOp.takeVerified expected).apply now p).2.slot = none := by
  rw [takeVerified_apply] at h ⊢
  cases hp : p.slot with
  | none =>
    rw [hp] at h
    cases h
  | some current =>
    simp only [hp] at h ⊢
    split at h
    · cases h
    · next hc =>
      rw [if_neg hc]
      exact ⟨congrArg some (Except.ok.inj h), rfl⟩

/-- **What is taken out** was in the slot. -/
theorem takeVerifiedPending_keeps (expected : PendingIdentity) :
    (releaseDiscipline Z).Keeps t op l (takeVerifiedPending expected) fun x l' => l <:+ l' ∧
      ∀ pending, x = .ok pending → ∃ e ∈ l', TakesVerified e pending := by
  refine underGeneration_keeps (fun ⟨hl, h⟩ hl' =>
    ⟨hl.trans hl', fun pending hp => exists_suffix (h pending hp) hl'⟩) fun l₁ h₁ => ?_
  refine put_keeps ⟨nofun, nofun⟩ fun generation s s' _ => ?_
  have h₂ := h₁.trans (List.suffix_cons ⟨t, .generation, generation, s, s'⟩ l₁)
  split
  · exact Keeps.fail ⟨h₂, nofun⟩
  refine put_keeps ⟨nofun, nofun⟩ fun foreground s s' _ => ?_
  have h₃ := h₂.trans (List.suffix_cons ⟨t, .isForeground, foreground, s, s'⟩ _)
  split
  · exact Keeps.fail ⟨h₃, nofun⟩
  refine put_keeps ⟨nofun, nofun⟩ fun unlockedAt s s' _ => ?_
  have h₄ := h₃.trans (List.suffix_cons ⟨t, .read .unlockedAt, unlockedAt, s, s'⟩ _)
  split
  · exact Keeps.fail ⟨h₄, nofun⟩
  refine put_keeps ⟨nofun, nofun⟩ fun r s s' hx => ?_
  have h₅ := h₄.trans (List.suffix_cons ⟨t, .slot (.takeVerified expected), r, s, s'⟩ _)
  obtain ⟨hr, hs⟩ := App.exec_slot.mp hx
  cases r with
  | error e => exact Keeps.fail ⟨h₅, nofun⟩
  | ok pending =>
    refine Keeps.ret ⟨h₅, fun pending' h => ?_⟩
    rw [← Except.ok.inj h]
    obtain ⟨hslot, hnone⟩ := takeVerified_apply_ok hr.symm
    exact ⟨_, List.mem_cons_self, ⟨expected, rfl⟩, hslot, by rw [hs]; exact hnone⟩

/-- Going on with what has not failed. -/
theorem mapErr_keeps {ε α β : Type} {g : ε → AppError} {x : Except ε α} {k : α → AppProg β}
    {Q : Except AppError β → List AppAct → Prop} (he : ∀ e, Q (.error (g e)) l)
    (hk : ∀ a, x = .ok a → (releaseDiscipline Z).Keeps t op l (k a) Q) :
    (releaseDiscipline Z).Keeps t op l (mapErr g x >>= k) Q := by
  cases x with
  | ok a => exact hk a rfl
  | error e => exact Keeps.fail (he e)

theorem signApproval_keeps (keyAlias : ApprovalAlias) (payload : String) :
    (releaseDiscipline Z).Keeps t op l (keystore (signApproval keyAlias payload)) fun x l' =>
      l <:+ l' ∧ ∀ signature, x = .ok (.ok signature) →
        ∃ e ∈ l', SignsAs e keyAlias payload signature := by
  refine Keeps.attempt ?_
  refine Keeps.call fun r s s' _ _ => ⟨ReleaseMay.of_harmless ⟨nofun, nofun⟩, ?_⟩
  cases r with
  | error e => exact Keeps.fail ⟨List.suffix_cons _ _, nofun⟩
  | ok bytes =>
    refine Keeps.ret ⟨List.suffix_cons _ _, fun signature h => ?_⟩
    obtain rfl := Except.ok.inj (Except.ok.inj h)
    exact ⟨_, List.mem_cons_self, t, s, s', rfl⟩

/-- **The signature**, and the response that goes out with it. -/
theorem sendApproval_keeps {pending : PendingRequest} {secrets : AppSecrets}
    {unlockShare : Option Bytes32} (hread : ReadAfterLook l secrets)
    (htaken : ∃ e ∈ l, TakesVerified e pending)
    (hshare : ∀ share, unlockShare = some share →
      ∃ secrets, ReadAfterLook l secrets ∧ share = secrets.phoneShare) :
    (releaseDiscipline Z).Keeps t op l (sendSignedResponse pending.send
      secrets.approvalKeyAlias pending.request true unlockShare) fun _ _ => True := by
  refine put_keeps ⟨nofun, nofun⟩ fun timestamp s s' _ => ?_
  refine mapErr_keeps (fun _ => trivial) fun resp hb => ?_
  refine Keeps.bind (signApproval_keeps _ _) (fun r l' ⟨hl', hsigned⟩ => ?_) fun _ _ _ => trivial
  refine mapErr_keeps (fun _ => trivial) fun signature hr => ?_
  have hl : l <:+ l' := (List.suffix_cons _ _).trans hl'
  refine may_keeps (fun _ _ _ => ⟨nofun, fun _ resp' share hsend => ?_⟩) fun sent u u' _ => ?_
  · obtain ⟨built, hbuilt, hresp⟩ := buildResponseForSigning_eq_ok hb
    obtain ⟨stream, hc⟩ := hsend.sends
    have hresp' : { resp with signature := signature } = resp' :=
      FerusaMessage.response.inj (OutsideCmd.send.inj (AppCmd.ask.inj hc)).2
    subst hresp'
    refine ⟨pending, exists_suffix htaken hl, by rw [hresp], by rw [hresp],
      ⟨secrets, hread.suffix hl, hsigned signature (congrArg Except.ok hr)⟩, ?_⟩
    have hsome : built = some share := by
      have h : resp.unlockShare = some share := hsend.share
      rw [hresp] at h
      exact h
    have hgiven := responseShare_approved hbuilt
    rw [hsome] at hgiven
    split at hgiven
    · obtain ⟨secrets', hread', hs⟩ := hshare share hgiven.symm
      exact ⟨secrets', hread'.suffix hl, hs⟩
    · cases hgiven
  · refine (keeps_of_harmless ?_).mono fun _ _ _ => trivial
    refine Prog.Only.bind (harmless_of_stays stays_mapErr (by decide) (by decide)) fun _ => ?_
    exact Prog.Only.bind (harmless_ask rfl) fun _ =>
      harmless_of_stays stays_mapErr (by decide) (by decide)

/-- **The approval**, once the PIN was verified. -/
theorem approveVerified_keeps {secrets : AppSecrets} (identity : PendingIdentity)
    (hread : ReadAfterLook l secrets) (hlook : ∃ i ∈ l, LooksAtSlot i) :
    (releaseDiscipline Z).Keeps t op l (approveVerified identity secrets.approvalKeyAlias)
      fun _ _ => True := by
  refine Keeps.bind (keeps_of_harmless (harmless_of_stays (ensureApprovalKeyAuth_stays _)
    (by decide) (by decide))) (fun _ l₁ h₁ => ?_)
    fun _ _ _ => trivial
  refine Keeps.bind (takeVerifiedPending_keeps identity) (fun pending l₂ ⟨h₂, htaken⟩ => ?_)
    fun _ _ _ => trivial
  refine put_keeps ⟨nofun, nofun⟩ fun foreground s s' _ => ?_
  have h₃ := (h₁.trans h₂).trans (List.suffix_cons ⟨t, .isForeground, foreground, s, s'⟩ l₂)
  have hquiet : ∀ {l : List AppAct} {p : AppProg Unit}, p.Only Harmless →
      (releaseDiscipline Z).Keeps t op l p fun _ _ => True :=
    fun hp => (keeps_of_harmless hp).mono fun _ _ _ => trivial
  split
  · refine hquiet (Prog.Only.bind (harmless_ask rfl) fun _ => Prog.Only.bind ?_ fun _ =>
      Prog.Only.fail)
    exact harmless_of_stays AppState.lock_stays (by decide) (by decide)
  refine Keeps.bind (copyUnlockShare_keeps pending (exists_suffix hlook h₃))
    (fun unlockShare l₄ ⟨h₄, hshare⟩ => ?_) fun _ _ _ => trivial
  refine put_keeps ⟨nofun, nofun⟩ fun now u u' _ => ?_
  have h₅ := h₄.trans (List.suffix_cons ⟨t, .now, now, u, u'⟩ l₄)
  split
  · exact hquiet (Prog.Only.bind (harmless_ask rfl) fun _ => Prog.Only.fail)
  refine Keeps.attempt_bind (sendApproval_keeps (hread.suffix (h₃.trans h₅))
    (exists_suffix (htaken pending rfl) ((List.suffix_cons _ _).trans h₅)) fun share hs => ?_)
    fun r l₆ _ => ?_
  · obtain ⟨secrets', hread', hs'⟩ := hshare share (congrArg Except.ok hs)
    exact ⟨secrets', hread'.suffix (List.suffix_cons _ _), hs'⟩
  · cases r with
    | ok u => exact Keeps.pure trivial
    | error e =>
      refine hquiet (Prog.Only.bind (harmless_of_stays (handleSignedResponseError_stays e)
        (by decide) (by decide)) fun error => Prog.Only.bind (Prog.Only.ite ?_ Prog.Only.pure)
          fun _ => Prog.Only.fail)
      exact harmless_of_stays (restorePendingAfterSignError_stays pending) (by decide) (by decide)

/-- **`approve_request`.** -/
theorem approveRequest_keeps (requestId pin : String) :
    (releaseDiscipline Z).Keeps t op l (approveRequest requestId pin) fun _ _ => True := by
  refine Keeps.bind (keeps_of_harmless (harmless_of_stays ensureActiveSession_stays
    (by decide) (by decide))) (fun _ l₁ _ => ?_)
    fun _ _ _ => trivial
  refine put_keeps ⟨nofun, nofun⟩ fun slot s s' _ => ?_
  have hlook : ∃ i ∈ (⟨t, .slot .peek, slot, s, s'⟩ : AppAct) :: l₁, LooksAtSlot i :=
    ⟨_, List.mem_cons_self, rfl⟩
  refine Keeps.bind (keeps_of_harmless Prog.Only.ofExcept) (fun pending l₂ h₂ => ?_)
    fun _ _ _ => trivial
  refine Keeps.bind (unlockedSecrets_keeps (exists_suffix hlook h₂))
    (fun secrets l₃ ⟨h₃, hread⟩ => ?_) fun _ _ _ => trivial
  refine Keeps.bind (keeps_of_harmless Prog.Only.ofExcept) (fun _ l₄ h₄ => ?_)
    fun _ _ _ => trivial
  refine Keeps.bind (keeps_of_harmless (harmless_of_stays (verifyPinWithCooldown_stays _ _ _)
    (by decide) (by decide))) (fun outcome l₅ h₅ => ?_) fun _ _ _ => trivial
  cases outcome with
  | verified =>
    exact approveVerified_keeps _ ((hread secrets rfl).suffix (h₄.trans h₅))
      (exists_suffix hlook (h₂.trans (h₃.trans (h₄.trans h₅))))
  | incorrect => exact Keeps.fail trivial
  | cooldownStarted ms =>
    exact (keeps_of_harmless (harmless_of_stays (denyForCooldown_stays _ _ _) (by decide)
      (by decide))).mono fun _ _ _ => trivial
  | cooldownActive ms =>
    exact (keeps_of_harmless (harmless_of_stays (denyForCooldown_stays _ _ _) (by decide)
      (by decide))).mono fun _ _ _ => trivial

/-- **The programs keep the discipline.** -/
theorem releaseDiscipline_valid (Z : Setting) : (releaseDiscipline Z).Valid where
  keeps t op := by
    have hquiet : ∀ {op : AppOp} {p : AppProg Unit},
        (∀ requestId pin, op ≠ .approveRequest requestId pin) → Stays storesNoSecrets p →
        (releaseDiscipline Z).Keeps t op [] p fun _ _ => True :=
      fun hop hp => keeps_of_stays (fun ⟨requestId, pin, h⟩ => hop requestId pin h) hp
    cases op with
    | setupComplete payload => exact setupComplete_keeps payload
    | biometricUnlock => exact biometricUnlock_keeps
    | approveRequest requestId pin => exact approveRequest_keeps requestId pin
    | setupPairingCode =>
      exact hquiet nofun (Prog.Only.bind (setupPairingCode_stays.mono rfl) fun _ =>
        Prog.Only.pure)
    | checkSetup => exact hquiet nofun (Prog.Only.bind (checkSetup_stays.mono rfl) fun _ =>
        Prog.Only.pure)
    | authorizePairingReplacement pin4 pin6 =>
      exact hquiet nofun ((authorizePairingReplacement_stays pin4 pin6).mono rfl)
    | cancelPairingReplacement =>
      exact hquiet nofun (AppState.cancelPairingReplacement_stays.mono rfl)
    | lock => exact hquiet nofun (lock_stays.mono rfl)
    | setAppForeground foreground =>
      exact hquiet nofun ((setAppForeground_stays foreground).mono rfl)
    | pendingRequest =>
      exact hquiet nofun (Prog.Only.bind (pendingRequest_stays.mono rfl) fun _ => Prog.Only.pure)
    | denyRequest requestId => exact hquiet nofun ((denyRequest_stays requestId).mono rfl)
    | serve conn streams =>
      exact hquiet nofun (Prog.Only.bind (stays_put rfl) fun _ => serveStreams_stays _ _ _ _)
    | task task => exact hquiet nofun (task.program_stays.mono rfl)
  put _ _ _ := trivial
  start _ := trivial
  env _ := trivial

/-! ## What is in memory -/

/-- **What is known of the secrets in memory**: they are of a record, and since
any look at the slot they have been there, or were stored. -/
structure SecretsKnown (l : List AppAct) (s : App) : Prop where
  loaded : ∀ secrets, s.cells .secrets = some secrets → Loaded l secrets
  since : ∀ later i earlier, l = later ++ i :: earlier → LooksAtSlot i →
    ∀ secrets, s.cells .secrets = some secrets →
      i.before.cells .secrets = some secrets ∨ ∃ b ∈ later, StoresSecrets b secrets

/-- Secrets that are in memory were there before, or are stored now. -/
theorem secrets_after {c : AppCmd} {r : c.Reply} {s s' : App} (h : App.Exec t c s r s')
    {secrets : AppSecrets} (hs : s'.cells .secrets = some secrets) :
    c = .write .secrets (some secrets) ∨ s.cells .secrets = some secrets := by
  by_cases hw : ∃ value, c = .write .secrets value
  · obtain ⟨value, rfl⟩ := hw
    obtain rfl := App.exec_write.mp h
    rw [App.withCell_cells_self] at hs
    exact .inl (by rw [hs])
  by_cases htake : c = .take .secrets
  · subst htake
    obtain ⟨-, rfl⟩ := App.exec_take.mp h
    rw [App.withCell_cells_self] at hs
    cases hs
  · rw [h.framed.cells .secrets (fun value hc => hw ⟨value, hc⟩) htake] at hs
    exact .inr hs

/-- **One more act.** -/
theorem SecretsKnown.put {c : AppCmd} {r : c.Reply} {s s' : App} (h : SecretsKnown l s)
    (hx : App.Exec t c s r s')
    (hm : ReleaseMay op (l.filter fun e => e.thread = t) ⟨t, c, r, s, s'⟩) :
    SecretsKnown (⟨t, c, r, s, s'⟩ :: l) s' := by
  refine ⟨fun secrets hs => ?_, fun later i earlier heq hlook secrets hs => ?_⟩
  · rcases secrets_after hx hs with hc | hs
    · obtain ⟨e, he, hrec⟩ := hm.stores secrets hc
      exact ⟨e, List.mem_cons_of_mem _ (List.mem_of_mem_filter he), hrec⟩
    · exact (h.loaded secrets hs).suffix (List.suffix_cons _ _)
  · cases later with
    | nil =>
      obtain rfl := (List.cons.inj heq).1
      rcases secrets_after hx hs with hc | hs
      · cases hc.symm.trans hlook
      · exact .inl hs
    | cons e later =>
      obtain ⟨rfl, rfl⟩ := List.cons.inj heq
      rcases secrets_after hx hs with hc | hs
      · exact .inr ⟨_, List.mem_cons_self, hc⟩
      · rcases h.since later i earlier rfl hlook secrets hs with hbefore | ⟨b, hb, hstore⟩
        · exact .inl hbefore
        · exact .inr ⟨b, List.mem_cons_of_mem _ hb, hstore⟩

omit [Crypto] in
/-- What leaves the secrets in memory alone. -/
theorem SecretsKnown.congr {s s' : App} (h : SecretsKnown l s)
    (hs : s'.cells .secrets = s.cells .secrets) : SecretsKnown l s' :=
  ⟨fun secrets hx => h.loaded secrets (hs ▸ hx), fun later i earlier heq hlook secrets hx =>
    h.since later i earlier heq hlook secrets (hs ▸ hx)⟩

omit [Crypto] in
theorem SecretsKnown.of_none {s : App} (hs : s.cells .secrets = none) : SecretsKnown l s :=
  ⟨fun _ hx => absurd (hs.symm.trans hx) nofun,
    fun _ _ _ _ _ _ hx => absurd (hs.symm.trans hx) nofun⟩

/-- **What is known of the secrets before each act** of a run. -/
theorem secrets_known {store : Store} {now epoch : Nat} {clock : ClockSnapshot}
    {usedUuids : List Uuid} {p : (appThreads .any).Running}
    (hp : (appThreads .any).Reaches (App.boot store now epoch clock usedUuids) p) :
    ∀ e earlier, p.state.Happened e earlier → SecretsKnown earlier e.before := by
  refine (releaseDiscipline_valid .any).chronicle (I := SecretsKnown) (.of_none rfl)
    (fun h hx hm => h.put hx hm) ?_ ?_ ?_ hp
  · intro w op s' h hstart
    obtain ⟨spawned, rfl⟩ := AppOp.Starts.spawned hstart
    exact h.congr rfl
  · rintro l s s' h ⟨he, -⟩
    refine h.congr ?_
    cases he with
    | bind => exact App.withCell_cells _ _ _ _ nofun
    | _ => rfl
  · rintro l s s' - ⟨⟨now, epoch, clock, rfl, -⟩, -⟩
    exact .of_none rfl

/-! ## What an approval releases -/

/-- **The share and the signature are of the pairing that asked.** -/
structure BelongsTo (request : AuthRequest) (resp : AuthResponse) (share : Bytes32)
    (t : Nat) (earlier : List AppAct) : Prop where
  pairingId : resp.pairingId = request.pairingId
  requestId : resp.requestId = request.requestId
  /-- The store has held a record of that generation with that share. -/
  share : ∃ b ∈ earlier, ∃ generation, HoldsRecord b generation ∧
    generation.pairingId = request.pairingId ∧ share = generation.phoneShare
  /-- The thread has signed the response with the approval key of that
  generation. -/
  signature : ∃ b ∈ earlier, b.thread = t ∧ SignsAs b (approvalKeyAlias request.pairingId)
    (canonicalApprovalPayload request resp) resp.signature

/-- The thread of an act approves a request. -/
def Approving (w : AppLog) (e : AppAct) : Prop := ∃ op, w.ops e.thread = some op ∧ op.Approves

/-- **A released share belongs to the pairing that asked**: whenever
`approve_request` sends an approval with a share, it has taken out a
request, and both the share and the signature are of its pairing. -/
def ReleasesOwn (w : AppLog) : Prop :=
  ∀ e earlier, w.Happened e earlier → Approving w e → ∀ resp share,
    SendsShare e.command resp share → ∃ pending,
      (∃ b ∈ earlier, b.thread = e.thread ∧ TakesVerified b pending) ∧
      BelongsTo pending.request resp share e.thread earlier

/-- **No other pairing comes in between**: when an approval looks at the slot,
any secrets in memory are of the pairing of the request that it takes out,
and so are all that are stored before it has read the secrets for the last
time. -/
def PairingStays (w : AppLog) : Prop :=
  ∀ e earlier, w.Happened e earlier → Approving w e → e.command = .read .secrets →
    ∀ later i early, earlier = later ++ i :: early → i.thread = e.thread → LooksAtSlot i →
    ∀ b ∈ w.acts, b.thread = e.thread → ∀ pending, TakesVerified b pending →
      (∀ secrets, i.before.cells .secrets = some secrets →
        secrets.pairingId = pending.request.pairingId) ∧
      ∀ a ∈ later, ∀ secrets, StoresSecrets a secrets →
        secrets.pairingId = pending.request.pairingId

omit [Crypto] in
/-- An act of a thread, as an act of the run. -/
theorem exists_of_filter {t : Nat} {earlier later early : List AppAct} {e : AppAct}
    (h : earlier.filter (fun e' => e'.thread = t) = later ++ e :: early) :
    ∃ earlier', (∃ later', earlier = later' ++ e :: earlier') ∧ e.thread = t ∧
      earlier'.filter (fun e' => e'.thread = t) = early := by
  obtain ⟨l₁, l₂, rfl, -, h₂⟩ := List.filter_eq_append_iff.mp h
  obtain ⟨l₃, l₄, rfl, -, he, h₄⟩ := List.filter_eq_cons_iff.mp h₂
  exact ⟨l₄, ⟨l₁ ++ l₃, by simp⟩, by simpa using he, h₄⟩

/-- **What an approval has read** is of its own pairing, and of a record. -/
theorem read_belongs {p : (appThreads .any).Running}
    (hknown : ∀ e earlier, p.state.Happened e earlier → SecretsKnown earlier e.before)
    (hstays : PairingStays p.state) {e : AppAct} {earlier : List AppAct}
    (he : p.state.Happened e earlier) (happroves : Approving p.state e) {b : AppAct}
    (hb : b ∈ earlier) (hbt : b.thread = e.thread) {pending : PendingRequest}
    (htaken : TakesVerified b pending) {secrets : AppSecrets}
    (hread : ReadAfterLook (earlier.filter fun e' => e'.thread = e.thread) secrets) :
    ∃ a ∈ earlier, ∃ generation, HoldsRecord a generation ∧
      generation.pairingId = pending.request.pairingId ∧
      secrets = generation.intoStateSecrets := by
  obtain ⟨later, r, early, heq, hcommand, hcell, i, hi, hlook⟩ := hread
  obtain ⟨earlier', ⟨later', rfl⟩, hrt, rfl⟩ := exists_of_filter heq
  obtain ⟨hi, hit⟩ := List.mem_filter.mp hi
  have hit : i.thread = r.thread := (of_decide_eq_true hit).trans hrt.symm
  obtain ⟨m, first, rfl⟩ := List.append_of_mem hi
  obtain ⟨l, hl⟩ := he
  have hr : p.state.Happened r (m ++ i :: first) := ⟨l ++ e :: later', by simp [hl]⟩
  have hk := hknown r _ hr
  obtain ⟨hbefore, hstored⟩ := hstays r _ hr (by rwa [Approving, hrt]) hcommand m i first rfl hit
    hlook b (by rw [hl]; exact List.mem_append_right _ (List.mem_cons_of_mem _ hb))
    (hbt.trans hrt.symm) pending htaken
  obtain ⟨a, ha, generation, hrec, rfl⟩ := hk.loaded secrets hcell
  refine ⟨a, List.mem_append_right _ (List.mem_cons_of_mem _ ha), generation, hrec, ?_, rfl⟩
  rcases hk.since m i first rfl hlook _ hcell with h | ⟨a', ha', h⟩
  · exact hbefore _ h
  · exact hstored a' ha' _ h

/-- **Released shares and their pairings.** In every run of all commands,
connections and tasks of the app, over any store and with any failures of
the keystore: if no other pairing comes in between, whatever share an
approval releases is that of the pairing that asked, and the signature is
made with that pairing's approval key. -/
theorem share_belongs {store : Store} {now epoch : Nat} {clock : ClockSnapshot}
    {usedUuids : List Uuid} {p : (appThreads .any).Running}
    (hp : (appThreads .any).Reaches (App.boot store now epoch clock usedUuids) p)
    (hstays : PairingStays p.state) : ReleasesOwn p.state := by
  intro e earlier he happroves resp share hsend
  have hknown := secrets_known hp
  obtain ⟨op, hop, -, hmay⟩ := (releaseDiscipline_valid .any).followed hp e earlier he
  obtain ⟨op', hop', ha⟩ := happroves
  obtain rfl := Option.some.inj (hop.symm.trans hop')
  obtain ⟨pending, ⟨b, hb, htaken⟩, hpairing, hrequest, ⟨secrets, hread, c, hc, hsigns⟩,
    secrets', hread', rfl⟩ := ReleaseMay.releases hmay ha resp share hsend
  obtain ⟨hb, hbt⟩ := List.mem_filter.mp hb
  obtain ⟨hc, hct⟩ := List.mem_filter.mp hc
  have hbt : b.thread = e.thread := of_decide_eq_true hbt
  have happroves : Approving p.state e := ⟨op, hop, ha⟩
  obtain ⟨a, -, generation, -, hgen, rfl⟩ :=
    read_belongs hknown hstays he happroves hb hbt htaken hread
  obtain ⟨a', ha', generation', hrec', hgen', rfl⟩ :=
    read_belongs hknown hstays he happroves hb hbt htaken hread'
  refine ⟨pending, ⟨b, hb, hbt, htaken⟩, hpairing, hrequest,
    ⟨a', ha', generation', hrec', hgen', rfl⟩, c, hc, of_decide_eq_true hct, ?_⟩
  rw [← hgen]
  exact hsigns

/-! ## A share that is released to another pairing -/

/-- An outside that brings a message on each stream. -/
def OutsideCmd.bringing (message : FerusaMessage) : (c : OutsideCmd) → c.Reply
  | acceptBi _ => .ok 0
  | readToEnd _ => .ok (.ok message)
  | c => c.willing

/-- **A message comes in**, and no approval key can be deleted. -/
def bringing (message : FerusaMessage) : Answers
  | .ask c, _ => c.bringing message
  | .store (.deleteApprovalKey _), _ => .fail "busy"
  | c, s => willing c s

/-- A request of the first pairing, for its share. -/
def shareRequest : AuthRequest :=
  { pairingId := 1, requestId := 10, correlationCode := 0, action := .unlock, entryTitle := none
    unlockShareRequested := true, timestamp := 0 }

/-- The connection of the desktop. -/
def desktop : Connection := ⟨0, Vector.replicate 32 0⟩

/-- The session is unlocked, a request comes in, and an approval runs for so
many steps, as thread 4. -/
def approvalRuns (steps : Nat) : List (Play AppOp Answers EnvMove) :=
  [.start 0 .checkSetup, .run 0 willing 200,
    .start 0 (.setAppForeground true), .run 1 willing 200,
    .start 0 .biometricUnlock, .run 2 willing 200,
    .start 0 (.serve desktop 1), .run 3 (bringing (.request shareRequest)) 200,
    .start 0 (.approveRequest (Uuid.toString 10) "7394"), .run 4 willing steps]

/-- The approval has taken out the request; the next pairing is activated and
unlocked; and the approval goes on. -/
def replacedMeanwhile : List (Play AppOp Answers EnvMove) :=
  approvalRuns 27 ++
    [.start 0 (.serve desktop 1), .run 5 (bringing (.pairingActivate 2)) 200,
      .start 0 .biometricUnlock, .run 6 (bringing .ping) 200, .run 4 willing 20]

/-- A listed run over the store with the two pairings. -/
def playNext (l : List (Play AppOp Answers EnvMove)) : Option (appThreads .any).Running :=
  ((Bench.initial.play nextPairing).map Bench.store).bind fun store =>
    appPlayer.play l (Pool.idle (Log.empty (App.boot store 0 0 ⟨0, 0, Nat.zero_le _⟩ [])))

/-- The shares that a thread has released, and for which pairings. -/
def releasedBy (t : Nat) (acts : List AppAct) : List (Uuid × Bytes32) :=
  acts.filterMap fun e =>
    match e.command with
    | .ask (.send _ (.response resp)) =>
      if e.thread = t ∧ resp.approved = true then
        resp.unlockShare.map fun share => (resp.pairingId, share)
      else none
    | _ => none

omit [Crypto] in
theorem of_mem_releasedBy {t : Nat} {acts : List AppAct} {id : Uuid} {share : Bytes32}
    (h : (id, share) ∈ releasedBy t acts) : ∃ e ∈ acts, e.thread = t ∧
      ∃ resp, SendsShare e.command resp share ∧ resp.pairingId = id := by
  obtain ⟨e, he, h⟩ := List.mem_filterMap.mp h
  split at h
  · next stream resp hc =>
    split at h
    · next hsent =>
      obtain ⟨share', hshare, heq⟩ := Option.map_eq_some_iff.mp h
      obtain ⟨rfl, rfl⟩ := Prod.mk.inj heq
      exact ⟨e, he, hsent.1, resp, ⟨⟨stream, hc⟩, hsent.2, hshare⟩, rfl⟩
    · cases h
  · cases h

/-- Whether an approval was started. -/
def approves : Option AppOp → Bool
  | some (.approveRequest _ _) => true
  | _ => false

omit [Crypto] in
theorem approving_of_approves {w : AppLog} {e : AppAct} (h : approves (w.ops e.thread) = true) :
    Approving w e := by
  unfold approves at h
  split at h
  · next requestId pin hop => exact ⟨_, hop, requestId, pin, rfl⟩
  · cases h

/-- Whether no record of a generation was ever there with this share. -/
def neverShare (id : Uuid) (share : Bytes32) (acts : List AppAct) : Bool :=
  acts.all fun e => (e.before.store.secrets.gen id).all fun generation =>
    generation.phoneShare ≠ share

omit [Crypto] in
/-- **A share is released to another pairing**: the share of the second pairing
goes out in answer to a request of the first one. -/
theorem replaced_releases_other :
    ∃ (store : Store) (p : (@appThreads Crypto.plain .any).Running),
      (@appThreads Crypto.plain .any).Reaches (App.boot store 0 0 ⟨0, 0, Nat.zero_le _⟩ []) p ∧
      ¬ ReleasesOwn p.state := by
  have hresult : (@playNext Crypto.plain replacedMeanwhile).map (fun p =>
      (approves (p.state.ops 4), releasedBy 4 p.state.acts,
        neverShare 1 (Vector.replicate 32 1) p.state.acts)) =
      some (true, [(1, Vector.replicate 32 1)], true) := by decide +kernel
  obtain ⟨p, hp, hresult⟩ := Option.map_eq_some_iff.mp hresult
  obtain ⟨store, -, hp⟩ := Option.bind_eq_some_iff.mp hp
  obtain ⟨happroves, hreleased, hnever⟩ : approves (p.state.ops 4) = true ∧
      releasedBy 4 p.state.acts = [(1, Vector.replicate 32 1)] ∧
      neverShare 1 (Vector.replicate 32 1) p.state.acts = true := by simpa using hresult
  refine ⟨store, p, Player.play_sound hp, fun h => ?_⟩
  obtain ⟨e, he, ht, resp, hsend, hid⟩ :=
    of_mem_releasedBy (hreleased ▸ List.mem_singleton_self (1, Vector.replicate 32 1))
  obtain ⟨earlier, hhapp⟩ := Log.happened_of_mem he
  obtain ⟨pending, -, hbelongs⟩ := h e earlier hhapp
    (approving_of_approves (by rwa [ht])) resp _ hsend
  -- the record of that generation would have to be there with this share
  obtain ⟨b, hb, generation, hrec, hgen, hshare⟩ := hbelongs.share
  have hmem : b ∈ p.state.acts := by
    obtain ⟨later, heq⟩ := hhapp
    rw [heq]
    exact List.mem_append_right _ (List.mem_cons_of_mem _ hb)
  have hother := List.all_eq_true.mp hnever b hmem
  rw [HoldsRecord, hgen, ← hbelongs.pairingId, hid] at hrec
  rw [hrec] at hother
  exact of_decide_eq_true hother hshare.symm

/-- Whether all secrets, and all requests that were taken out, are of one
pairing. -/
def onlyPairing (id : Uuid) (acts : List AppAct) : Bool :=
  acts.all fun e =>
    (e.before.cells .secrets).all (fun secrets => secrets.pairingId = id) &&
      match e.command with
      | .write .secrets (some secrets) => secrets.pairingId = id
      | .slot (.takeVerified _) =>
        e.before.pending.slot.all fun pending => pending.request.pairingId = id
      | _ => true

omit [Crypto] in
theorem pairingStays_of_onlyPairing {w : AppLog} {id : Uuid}
    (h : onlyPairing id w.acts = true) : PairingStays w := by
  have hall := List.all_eq_true.mp h
  intro e earlier he _ _ later i early heq _ _ b hb _ pending htaken
  obtain ⟨l, hl⟩ := he
  have hmem : ∀ a ∈ later ++ i :: early, a ∈ w.acts := fun a ha => by
    rw [hl, heq]
    exact List.mem_append_right _ (List.mem_cons_of_mem _ ha)
  obtain ⟨⟨identity, hcommand⟩, hslot, -⟩ := htaken
  have hb := (Bool.and_eq_true_iff.mp (hall b hb)).2
  rw [hcommand, hslot] at hb
  have hpending : pending.request.pairingId = id := of_decide_eq_true hb
  refine ⟨fun secrets hs => ?_, fun a ha secrets hstores => ?_⟩
  · have hi := (Bool.and_eq_true_iff.mp (hall i (hmem i (by simp)))).1
    rw [hs] at hi
    exact (of_decide_eq_true hi).trans hpending.symm
  · have ha := (Bool.and_eq_true_iff.mp (hall a (hmem a (List.mem_append_left _ ha)))).2
    rw [show a.command = .write .secrets (some secrets) from hstores] at ha
    exact (of_decide_eq_true ha).trans hpending.symm

omit [Crypto] in
/-- An approval of which nothing is replaced. -/
theorem share_belongs_undisturbed : ∃ p : (@appThreads Crypto.plain .any).Running,
    releasedBy 4 p.state.acts = [(1, Vector.replicate 32 0)] ∧ ReleasesOwn p.state := by
  have hresult : (@playNext Crypto.plain (approvalRuns 200)).map (fun p =>
      (releasedBy 4 p.state.acts, onlyPairing 1 p.state.acts)) =
      some ([(1, Vector.replicate 32 0)], true) := by decide +kernel
  obtain ⟨p, hp, hresult⟩ := Option.map_eq_some_iff.mp hresult
  obtain ⟨store, -, hp⟩ := Option.bind_eq_some_iff.mp hp
  obtain ⟨hreleased, honly⟩ := Prod.mk.inj hresult
  exact ⟨p, hreleased, @share_belongs Crypto.plain _ _ _ _ _ _ (Player.play_sound hp)
    (pairingStays_of_onlyPairing honly)⟩

end Phone
