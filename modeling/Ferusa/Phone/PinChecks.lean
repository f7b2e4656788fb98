import Ferusa.Phone.PinGate
import Ferusa.Phone.Replacing

/-!
# Which PIN is checked behind which gate

Two operations check PINs. `approve_request` checks one, of the kind that the
action of the request takes; `authorize_pairing_replacement` checks one of each
kind. The gate and the counter of a kind limit how often its PIN is guessed, so
a PIN has to be checked behind the gate of its own kind: against the hash of
that kind, in the secrets of the session or in the record of the active pairing
(`checkDiscipline`).
-/

namespace Phone

open Prog AppProg Discipline

/-- The PIN of a kind, of the two. -/
def pinOfKind (pin4 pin6 : String) : PinKind → String
  | .fourDigit => pin4
  | .sixDigit => pin6

/-- **An approval checks its PIN**, of the kind that the request takes which it
has seen, against the hash of the secrets that it has read. -/
def ApprovalChecks (op : AppOp) (l : List AppAct) (kind : PinKind) (pin hash : String) : Prop :=
  ∃ requestId pending secrets, op = .approveRequest requestId pin ∧ HasSeen l pending ∧
    kind = pinKindForAction pending.request.action ∧
    (∃ e ∈ l, e.command = .read .secrets ∧ e.before.cells .secrets = some secrets) ∧
    hash = AppSecrets.pinHash secrets kind

/-- **A replacement checks one of its PINs** against the hash of the kind in the
record that was found active. -/
def ReplacementChecks (op : AppOp) (l : List AppAct) (kind : PinKind) (pin hash : String) :
    Prop :=
  ∃ pin4 pin6 stored, op = .authorizePairingReplacement pin4 pin6 ∧
    pin = pinOfKind pin4 pin6 kind ∧ (∃ e ∈ l, HoldsRecord e stored) ∧
    (∃ e ∈ l, FindsActive stored.pairingId e) ∧
    hash = AppSecrets.pinHash stored.intoStateSecrets kind

/-- **A PIN is checked as one of its kind.** -/
def ChecksAsKind (op : AppOp) (l : List AppAct) (kind : PinKind) (pin hash : String) : Prop :=
  ApprovalChecks op l kind pin hash ∨ ReplacementChecks op l kind pin hash

theorem ChecksAsKind.suffix {op : AppOp} {l l' : List AppAct} {kind : PinKind} {pin hash : String}
    (h : ChecksAsKind op l kind pin hash) (hl : l <:+ l') : ChecksAsKind op l' kind pin hash := by
  rcases h with ⟨id, p, secrets, hop, hseen, hkind, hread, hhash⟩ |
    ⟨pin4, pin6, stored, hop, hpin, hrecord, hactive, hhash⟩
  · exact .inl ⟨id, p, secrets, hop, exists_suffix hseen hl, hkind, exists_suffix hread hl, hhash⟩
  · exact .inr ⟨pin4, pin6, stored, hop, hpin, exists_suffix hrecord hl, exists_suffix hactive hl,
      hhash⟩

section

variable [Crypto] {Z : Setting} {kind : PinKind} {t : Nat} {op : AppOp} {l : List AppAct}
  {α ε : Type} {pin pinHash : String}

/-- **A PIN is checked behind the gate of its kind.** -/
def checkDiscipline (Z : Setting) : Discipline (appThreads Z) where
  may _ op l e := ∀ pin hash, e.command = .verifyPin pin hash →
    ∃ kind, phaseOf kind l ≠ .outside ∧ ChecksAsKind op l kind pin hash
  ends _ _ _ _ := True
  rely _ _ _ := True
  rely_refl _ _ := trivial
  rely_trans _ _ := trivial

/-- What has nothing to do with a PIN. -/
theorem checks_calm {p : Prog AppCmd.Reply ε α} (hp : p.Only Calm) :
    (checkDiscipline Z).Keeps t op l p fun _ l' => l <:+ l' := by
  refine (Keeps.only (D := checkDiscipline Z) hp fun l c r s s' hc _ pin hash hverify => ?_).mono
    fun _ _ ⟨m, hl, _⟩ => ⟨m, hl.symm⟩
  rw [show c = .verifyPin pin hash from hverify] at hc
  exact hc.elim

/-- One command that has nothing to do with a PIN. -/
theorem checks_call {c : AppCmd} (hc : Calm c) {k : c.Reply → AppProg α}
    {Q : Except AppError α → List AppAct → Prop}
    (hk : ∀ r s s', App.Exec t c s r s' →
      (checkDiscipline Z).Keeps t op (⟨t, c, r, s, s'⟩ :: l) (k r) Q) :
    (checkDiscipline Z).Keeps t op l (put c >>= k) Q := by
  refine Keeps.call fun r s s' _ hx => ⟨fun pin hash hverify => ?_, hk r s s' hx⟩
  rw [show c = .verifyPin pin hash from hverify] at hc
  exact hc.elim

/-- What is put behind a gate is put there, and checks no PIN but the given
one. -/
theorem checks_behind {p : Prog AppCmd.Reply ε α} (hp : p.Only (Behind kind pin pinHash))
    (hl : phaseOf kind l ≠ .outside) (hcheck : ChecksAsKind op l kind pin pinHash) :
    (checkDiscipline Z).Keeps t op l p fun _ l' => l <:+ l' ∧ phaseOf kind l' ≠ .outside := by
  induction p generalizing l with
  | ret a => exact Keeps.ret ⟨List.suffix_rfl, hl⟩
  | fail e => exact Keeps.fail ⟨List.suffix_rfl, hl⟩
  | call c k ih =>
    refine Keeps.call fun r s s' _ _ => ⟨fun pin' hash' hverify => ?_, ?_⟩
    · have hbehind := hp.1
      rw [show c = .verifyPin pin' hash' from hverify] at hbehind
      cases hbehind
      exact ⟨kind, hl, hcheck⟩
    · have hsuffix := List.suffix_cons (⟨t, c, r, s, s'⟩ : AppAct) l
      have hc : c ≠ .lockGate kind ∧ c ≠ .unlockGate kind := by
        cases hp.1 <;> exact ⟨nofun, nofun⟩
      refine (ih r (hp.2 r) ?_ (hcheck.suffix hsuffix)).mono fun _ _ h =>
        ⟨hsuffix.trans h.1, h.2⟩
      show (phaseOf kind l).next kind _ ≠ _
      rw [ne_eq, Phase.next_outside hc.1 hc.2]
      exact hl

/-- The verification checks its PIN behind the gate of its kind. -/
theorem checks_verifyPinWithCooldown (h : ChecksAsKind op l kind pin pinHash) :
    (checkDiscipline Z).Keeps t op l (verifyPinWithCooldown kind pin pinHash)
      fun _ l' => l <:+ l' := by
  refine Keeps.call fun r s s' _ _ => ⟨nofun, ?_⟩
  have hl : l <:+ ⟨t, .lockGate kind, r, s, s'⟩ :: l := List.suffix_cons _ _
  have hbehind : phaseOf kind (⟨t, .lockGate kind, r, s, s'⟩ :: l) ≠ .outside := by
    rw [show phaseOf kind (⟨t, .lockGate kind, r, s, s'⟩ :: l) = .entered from if_pos rfl]
    nofun
  refine Keeps.attempt_bind (M := fun _ l' => l <:+ l') ?_ fun x l' hl' => ?_
  · refine Keeps.bind (checks_behind (behind_checkCooldown pin pinHash) hbehind
      (h.suffix hl)) (fun retry l₁ ⟨h₁, hbehind₁⟩ => ?_) fun _ _ h₁ => hl.trans h₁.1
    cases retry with
    | some retry => exact Keeps.ret (hl.trans h₁)
    | none =>
      exact (checks_behind behind_verifyAndRecord hbehind₁ (h.suffix (hl.trans h₁))).mono
        fun _ _ h₂ => (hl.trans h₁).trans h₂.1
  · exact Keeps.call fun _ _ _ _ _ =>
      ⟨nofun, Keeps.ofExcept (hl'.trans (List.suffix_cons _ _))⟩

/-- The secrets of the session are those that were read. -/
theorem checks_unlockedSecrets : (checkDiscipline Z).Keeps t op l unlockedSecrets fun x l' =>
    l <:+ l' ∧ ∀ secrets, x = .ok secrets →
      ∃ e ∈ l', e.command = .read .secrets ∧ e.before.cells .secrets = some secrets := by
  refine checks_call (c := .read .secrets) trivial fun stored s s' hx => ?_
  obtain ⟨rfl, -⟩ := App.exec_read.mp hx
  dsimp only
  split
  · next secrets hs =>
    refine Keeps.pure ⟨List.suffix_cons _ _, fun secrets' h => ⟨_, List.mem_cons_self, rfl, ?_⟩⟩
    exact hs.trans (congrArg some (Except.ok.inj h))
  · exact Keeps.fail ⟨List.suffix_cons _ _, nofun⟩

/-- **`approve_request`.** -/
theorem approveRequest_checks (requestId pin : String) :
    (checkDiscipline Z).Keeps t (.approveRequest requestId pin) l (approveRequest requestId pin)
      fun _ _ => True := by
  refine Keeps.bind (checks_calm (calm_of_stays ensureActiveSession_stays rfl rfl))
    (fun _ l₁ h₁ => ?_) fun _ _ _ => trivial
  refine checks_call (c := .slot .peek) trivial fun slot s s' hx => ?_
  refine Keeps.bind (Keeps.ofExcept (Q := fun x l' => x = _ ∧ l' = _) ⟨rfl, rfl⟩)
    (fun pending l₂ ⟨hpending, h₂⟩ => ?_) fun _ _ _ => trivial
  subst h₂
  have hseen : HasSeen (⟨t, .slot .peek, slot, s, s'⟩ :: l₁) pending := by
    refine ⟨_, List.mem_cons_self, rfl, ?_⟩
    obtain ⟨hr, -⟩ := App.exec_slot.mp hx
    rw [← checkPending_eq_ok hpending.symm, hr]
    rfl
  refine Keeps.bind checks_unlockedSecrets (fun secrets l₃ ⟨h₃, hread⟩ => ?_) fun _ _ _ => trivial
  refine Keeps.bind (Keeps.ofExcept (Q := fun _ l' => l' = l₃) rfl) (fun _ l₄ h₄ => ?_)
    fun _ _ _ => trivial
  subst h₄
  have hcheck : ChecksAsKind (.approveRequest requestId pin) l₄
      (pinKindForAction pending.request.action) pin
      (AppSecrets.pinHash secrets (pinKindForAction pending.request.action)) :=
    .inl ⟨requestId, pending, secrets, rfl, exists_suffix hseen h₃, rfl, hread secrets rfl, rfl⟩
  refine Keeps.bind (checks_verifyPinWithCooldown hcheck) (fun outcome l₅ _ => ?_)
    fun _ _ _ => trivial
  have hrest : ∀ {p : AppProg Unit}, p.Only Calm →
      (checkDiscipline Z).Keeps t (.approveRequest requestId pin) l₅ p fun _ _ => True :=
    fun hp => (checks_calm hp).mono fun _ _ _ => trivial
  cases outcome with
  | verified => exact hrest (calm_of_stays (approveVerified_stays _ _) rfl rfl)
  | incorrect => exact Keeps.fail trivial
  | cooldownStarted ms => exact hrest (calm_of_stays (denyForCooldown_stays _ _ _) rfl rfl)
  | cooldownActive ms => exact hrest (calm_of_stays (denyForCooldown_stays _ _ _) rfl rfl)

/-- **What is loaded** is the record of the active pairing. -/
theorem checks_loadSessionSecrets : (checkDiscipline Z).Keeps t op l loadSessionSecrets
    fun x l' => l <:+ l' ∧ ∀ stored, x = .ok stored →
      (∃ e ∈ l', HoldsRecord e stored) ∧ ∃ e ∈ l', FindsActive stored.pairingId e := by
  refine Keeps.bind (storage_keeps (D := checkDiscipline Z) (K := fun _ => True)
    (P := fun _ => True) (fun _ _ _ _ _ _ _ _ => nofun) (Prog.Only.of_forall fun _ => trivial)
    (fun _ _ _ _ => trivial) (fun _ _ _ h hl => ⟨exists_suffix h.1 hl, exists_suffix h.2 hl⟩)
    loadSecrets_named trivial) (fun r l₁ ⟨⟨m, hl, _⟩, hr⟩ => ?_)
    fun _ _ ⟨⟨m, hl, _⟩, _⟩ => ⟨⟨m, hl.symm⟩, nofun⟩
  have h₁ : l <:+ l₁ := ⟨m, hl.symm⟩
  cases r with
  | ok stored =>
    refine Keeps.pure ⟨h₁, fun stored' h => ?_⟩
    obtain rfl := Except.ok.inj h
    exact hr _ rfl stored rfl
  | error e =>
    refine Keeps.bind (checks_calm (calm_of_stays (handleSignedResponseError_stays _) rfl rfl))
      (fun _ l₂ h₂ => Keeps.fail ⟨h₁.trans h₂, nofun⟩) fun _ _ h₂ => ⟨h₁.trans h₂, nofun⟩

/-- One PIN of a replacement. -/
theorem checks_verifyReplacementPin (h : ChecksAsKind op l kind pin pinHash) :
    (checkDiscipline Z).Keeps t op l (verifyReplacementPin kind pin pinHash)
      fun _ l' => l <:+ l' := by
  refine Keeps.bind (checks_verifyPinWithCooldown h) (fun outcome l₁ h₁ => ?_) fun _ _ h₁ => h₁
  cases outcome with
  | verified => exact Keeps.ret h₁
  | incorrect => exact Keeps.fail h₁
  | cooldownStarted ms =>
    exact (checks_calm (Only.bind (calm_of_stays expireSession_stays rfl rfl) fun _ =>
      Only.fail)).mono fun _ _ h₂ => h₁.trans h₂
  | cooldownActive ms => exact Keeps.fail h₁

/-- **`authorize_pairing_replacement`.** -/
theorem authorizePairingReplacement_checks (pin4 pin6 : String) :
    (checkDiscipline Z).Keeps t (.authorizePairingReplacement pin4 pin6) l
      (authorizePairingReplacement pin4 pin6) fun _ _ => True := by
  refine Keeps.bind (checks_calm (calm_of_stays AppState.beginPairingReplacement_stays rfl rfl))
    (fun generation l₁ _ => ?_) fun _ _ _ => trivial
  refine Keeps.bind (Keeps.ofExcept (Q := fun _ _ => True) trivial) (fun _ l₂ _ => ?_)
    fun _ _ _ => trivial
  refine Keeps.bind (Keeps.ofExcept (Q := fun _ _ => True) trivial) (fun _ l₃ _ => ?_)
    fun _ _ _ => trivial
  refine Keeps.bind (checks_calm (calm_of_stays (refreshApprovalKeyAuth_stays _ _) rfl rfl))
    (fun _ l₄ _ => ?_) fun _ _ _ => trivial
  refine Keeps.bind checks_loadSessionSecrets (fun stored l₅ ⟨_, h₅⟩ => ?_) fun _ _ _ => trivial
  obtain ⟨hrecord, hactive⟩ := h₅ stored rfl
  have hcheck : ∀ kind, ChecksAsKind (.authorizePairingReplacement pin4 pin6) l₅ kind
      (pinOfKind pin4 pin6 kind) (AppSecrets.pinHash stored.intoStateSecrets kind) :=
    fun kind => .inr ⟨pin4, pin6, stored, rfl, rfl, hrecord, hactive, rfl⟩
  refine Keeps.bind (checks_verifyReplacementPin (hcheck .fourDigit)) (fun _ l₆ h₆ => ?_)
    fun _ _ _ => trivial
  refine Keeps.bind (checks_verifyReplacementPin ((hcheck .sixDigit).suffix h₆)) (fun _ l₇ _ => ?_)
    fun _ _ _ => trivial
  exact (checks_calm (calm_of_stays (AppState.completePairingReplacement_stays _) rfl rfl)).mono
    fun _ _ _ => trivial

theorem checkDiscipline_valid (Z : Setting) : (checkDiscipline Z).Valid where
  keeps t op := by
    by_cases ha : ∃ requestId pin, op = .approveRequest requestId pin
    · obtain ⟨requestId, pin, rfl⟩ := ha
      exact approveRequest_checks requestId pin
    by_cases hr : ∃ pin4 pin6, op = .authorizePairingReplacement pin4 pin6
    · obtain ⟨pin4, pin6, rfl⟩ := hr
      exact authorizePairingReplacement_checks pin4 pin6
    · exact (checks_calm (AppOp.program_calm (fun requestId pin h => ha ⟨requestId, pin, h⟩)
        fun pin4 pin6 h => hr ⟨pin4, pin6, h⟩)).mono fun _ _ _ => trivial
  put _ _ _ := trivial
  start _ := trivial
  env _ := trivial

end

end Phone
