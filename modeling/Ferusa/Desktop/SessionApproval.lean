import Ferusa.Desktop.Session

/-!
# Approval within a session

An approval is asked for on two paths. Before there is a session, the
response is compared with the request (`validateResponse`). Within one,
the request is registered in a map of pending requests, and the response
is compared with what is registered under the id **that the response
names**.

The two paths accept the same responses, except for one kind: a response
of the right pairing that names another pending request. The comparison
with the request refuses it. The session path takes the other request's
registration out of the map, and compares with that.
-/

namespace Desktop

open DeskProg

/-- What is forgotten is not found. -/
theorem SessionState.lookup_forget (s : SessionState) (id id' : Uuid) :
    (s.forget id).pendingRequests.lookup id' =
      if id' = id then none else s.pendingRequests.lookup id' := by
  unfold forget
  induction s.pendingRequests with
  | nil => simp
  | cons x l ih =>
    by_cases hx : x.1 = id
    · rw [List.filter_cons_of_neg (by simp [hx]), ih]
      by_cases hid : id' = id
      · rw [if_pos hid, if_pos hid]
      · have hne : (id' == x.1) = false := by
          rw [hx]
          exact beq_eq_false_iff_ne.mpr hid
        rw [if_neg hid, if_neg hid, List.lookup_cons, hne]
    · rw [List.filter_cons_of_pos (by simp [hx]), List.lookup_cons, List.lookup_cons, ih]
      by_cases hid : id' = id
      · have hne : (id' == x.1) = false := by
          rw [hid]
          exact beq_eq_false_iff_ne.mpr (Ne.symm hx)
        rw [hne]
      · rw [if_neg hid, if_neg hid]

/-! ## One exchange -/

/-- **One exchange of a session**: the request that is sent, the session
it is sent from, the response that comes back and the clock it is judged
by. -/
structure Exchange where
  req : AuthRequest
  opened : SessionState
  pairing : PairingData
  resp : AuthResponse
  nowMs : Nat
  paired : opened.pairing = some pairing
  reachable : opened.endpoint = true
  /-- The request is registered. -/
  registered : opened.pendingRequests.lookup req.requestId =
    some { correlationCode := req.correlationCode, action := req.action }

namespace Exchange

variable (X : Exchange)

/-- How the commands are answered in the exchange: the request by the
response, the clock by its reading, and the session is that of the
process. -/
inductive Exec : (c : DeskCmd) → Option SessionState → c.Reply → Option SessionState → Prop
  | send {node s} : Exec (.env (.sendAuthRequest node X.req)) s (.ok X.resp) s
  | clock {s} : Exec (.env .nowMs) s X.nowMs s
  | get {s} : Exec .getSession s s s
  | set {s s'} : Exec (.setSession s') s () s'

/-! ## The path, command by command -/

section Exec

variable {X}

theorem send_iff {node : Bytes32} {s s' : Option SessionState}
    {r : Except String AuthResponse} :
    X.Exec (.env (.sendAuthRequest node X.req)) s r s' ↔ r = .ok X.resp ∧ s' = s := by
  constructor
  · intro h
    cases h
    exact ⟨rfl, rfl⟩
  · rintro ⟨rfl, rfl⟩
    exact .send

theorem clock_iff {s s' : Option SessionState} {r : Nat} :
    X.Exec (.env .nowMs) s r s' ↔ r = X.nowMs ∧ s' = s := by
  constructor
  · intro h
    cases h
    exact ⟨rfl, rfl⟩
  · rintro ⟨rfl, rfl⟩
    exact .clock

theorem get_iff {s s' r : Option SessionState} :
    X.Exec .getSession s r s' ↔ r = s ∧ s' = s := by
  constructor
  · intro h
    cases h
    exact ⟨rfl, rfl⟩
  · rintro ⟨rfl, rfl⟩
    exact .get

theorem set_iff {s s' t : Option SessionState} {r : Unit} :
    X.Exec (.setSession t) s r s' ↔ r = () ∧ s' = t := by
  constructor
  · intro h
    cases h
    exact ⟨rfl, rfl⟩
  · rintro ⟨-, rfl⟩
    exact .set

theorem session_call_iff {α : Type} {f : SessionState → DeskProg α} {s₀ : SessionState}
    {x : Except Anyhow α} {s' : Option SessionState} :
    Prog.Outcome X.Exec (session >>= f) (some s₀) x s' ↔
      Prog.Outcome X.Exec (f s₀) (some s₀) x s' := by
  show Prog.Outcome X.Exec (Prog.call .getSession _) _ _ _ ↔ _
  rw [Prog.Outcome.call_iff fun _ _ => get_iff]
  exact Iff.rfl

/-- A judgement is handed on, with the error in its text. -/
theorem ofExcept_iff {α : Type} {y : Except TwofaError α} {x : Except Anyhow α}
    {s s' : Option SessionState} :
    Prog.Outcome X.Exec (Prog.ofExcept (y.mapError TwofaError.intoAnyhow)) s x s' ↔
      x = y.mapError TwofaError.intoAnyhow ∧ s' = s := by
  cases y with
  | ok a => exact Prog.Outcome.ret_iff
  | error e => exact Prog.Outcome.fail_iff

end Exec

end Exchange

variable [Crypto]

/-- **What `request_approval_for_session` does once its request is
registered**: it sends the request, judges the response, and cleans up. -/
def settleRequest (req : AuthRequest) : DeskProg ApprovalResult := do
  let result ← (exchangeForSession req).attempt
  cleanPendingRequest req.requestId
  Prog.ofExcept result

/-- The first part of `request_approval_for_session`: a request is made up
and registered. -/
def registerRequest (action : VaultAction) (entryTitle : Option String)
    (unlockShareRequested : Bool) : DeskProg AuthRequest := do
  let requestId ← ask .newUuid
  let correlationCode ← ask .correlationCode
  let timestamp ← ask .nowMs
  let s ← session
  let pairing ← Prog.okOr "session missing pairing data" s.pairing
  let s ← session
  setSession (some { s with
    pendingRequests := (requestId, { correlationCode, action }) :: s.pendingRequests })
  pure (issueRequest pairing requestId correlationCode action entryTitle unlockShareRequested
    timestamp)

/-- The last part of the exchange: a response is judged. -/
def judgeResponse (req : AuthRequest) (pairing : PairingData) (resp : AuthResponse) :
    DeskProg ApprovalResult := do
  Prog.ofExcept ((ensurePairingGeneration pairing.pairingId req.pairingId
    resp.pairingId).mapError TwofaError.intoAnyhow)
  let s ← session
  match s.pendingRequests.lookup resp.requestId with
  | none => .fail TwofaError.unknownRequest.intoAnyhow
  | some pending => do
    setSession (some (s.forget resp.requestId))
    let now ← ask .nowMs
    Prog.ofExcept ((validatePendingResponse req pairing resp pending now).mapError
      TwofaError.intoAnyhow)

/-- **`request_approval_for_session` registers a request and settles it.** -/
theorem requestApprovalForSession_eq (action : VaultAction) (entryTitle : Option String)
    (unlockShareRequested : Bool) :
    requestApprovalForSession action entryTitle unlockShareRequested =
      registerRequest action entryTitle unlockShareRequested >>= settleRequest := by
  unfold registerRequest
  simp only [Prog.bind_assoc, Prog.pure_bind']
  rfl

/-- The exchange sends the request and judges the response. -/
theorem exchangeForSession_eq (req : AuthRequest) : exchangeForSession req = (do
    let s ← session
    let pairing ← Prog.okOr "session missing pairing data" s.pairing
    Prog.ensure (s.endpoint = true) "real 2FA endpoint unavailable"
    let r ← ask (.sendAuthRequest pairing.phoneNodeId req)
    let resp ← answer "iroh send_auth_request" r
    judgeResponse req pairing resp) := rfl

namespace Exchange

variable (X : Exchange)

/-- **How the session path ends.** -/
def Ends (x : Except Anyhow ApprovalResult) (s : Option SessionState) : Prop :=
  Prog.Outcome X.Exec (settleRequest X.req) (some X.opened) x s

/-- **The session path agrees with `validateResponse`**: it has an end, and
however it ends, it accepts what `validateResponse` accepts, with the same
share; the registration of its request is gone, and every other one is as
it was. -/
structure Agrees : Prop where
  ends : ∃ x s, X.Ends x s
  accepts : ∀ x s, X.Ends x s → ∀ share, x = .ok { unlockShare := share } ↔
    validateResponse X.req X.pairing X.resp X.nowMs = .ok () ∧ share = X.resp.unlockShare
  gone : ∀ x s, X.Ends x s → ∃ s', s = some s' ∧
    s'.pendingRequests.lookup X.req.requestId = none
  others : ∀ x s, X.Ends x s → ∃ s', s = some s' ∧ ∀ id, id ≠ X.req.requestId →
    s'.pendingRequests.lookup id = X.opened.pendingRequests.lookup id

/-- **The response is of the right pairing and names another pending
request.** -/
def NamesAnother : Prop :=
  X.req.pairingId = X.pairing.pairingId ∧ X.resp.pairingId = X.pairing.pairingId ∧
    X.resp.requestId ≠ X.req.requestId ∧
    (X.opened.pendingRequests.lookup X.resp.requestId).isSome = true

/-- **The judgement of the session path**, and the session it leaves. -/
def judge : Except TwofaError ApprovalResult × SessionState :=
  match ensurePairingGeneration X.pairing.pairingId X.req.pairingId X.resp.pairingId with
  | .error e => (.error e, X.opened)
  | .ok () =>
    match X.opened.pendingRequests.lookup X.resp.requestId with
    | none => (.error .unknownRequest, X.opened)
    | some pending =>
      (validatePendingResponse X.req X.pairing X.resp pending X.nowMs,
        X.opened.forget X.resp.requestId)

section Ends

variable {X}

/-- **The exchange ends as it is judged.** -/
theorem exchange_iff {x : Except Anyhow ApprovalResult} {s : Option SessionState} :
    Prog.Outcome X.Exec (exchangeForSession X.req) (some X.opened) x s ↔
      x = X.judge.1.mapError TwofaError.intoAnyhow ∧ s = some X.judge.2 := by
  unfold exchangeForSession
  rw [session_call_iff, X.paired, X.reachable]
  show Prog.Outcome X.Exec (Prog.call _ _) _ _ _ ↔ _
  rw [Prog.Outcome.call_iff fun _ _ => send_iff]
  show Prog.Outcome X.Exec (Prog.ofExcept (Except.mapError TwofaError.intoAnyhow _) >>= _) _ _ _ ↔ _
  unfold judge
  cases ensurePairingGeneration X.pairing.pairingId X.req.pairingId X.resp.pairingId with
  | error e => exact Prog.Outcome.fail_iff
  | ok u =>
    show Prog.Outcome X.Exec (session >>= _) _ _ _ ↔ _
    rw [session_call_iff]
    cases X.opened.pendingRequests.lookup X.resp.requestId with
    | none => exact Prog.Outcome.fail_iff
    | some pending =>
      show Prog.Outcome X.Exec (Prog.call _ _) _ _ _ ↔ _
      rw [Prog.Outcome.call_iff fun _ _ => set_iff]
      show Prog.Outcome X.Exec (Prog.call _ _) _ _ _ ↔ _
      rw [Prog.Outcome.call_iff fun _ _ => clock_iff]
      exact ofExcept_iff

/-- **The session path ends as it is judged**, and forgets its request. -/
theorem ends_iff {x : Except Anyhow ApprovalResult} {s : Option SessionState} :
    X.Ends x s ↔ x = X.judge.1.mapError TwofaError.intoAnyhow ∧
      s = some (X.judge.2.forget X.req.requestId) := by
  unfold Ends settleRequest
  rw [Prog.Outcome.attempt_bind_iff]
  constructor
  · rintro ⟨y, t, hy, h⟩
    obtain ⟨rfl, rfl⟩ := exchange_iff.mp hy
    have h : Prog.Outcome X.Exec (Prog.call _ _) _ _ _ := h
    rw [Prog.Outcome.call_iff fun _ _ => get_iff] at h
    have h : Prog.Outcome X.Exec (Prog.call _ _) _ _ _ := h
    rw [Prog.Outcome.call_iff fun _ _ => set_iff] at h
    exact ofExcept_iff.mp h
  · intro h
    refine ⟨_, _, exchange_iff.mpr ⟨rfl, rfl⟩, ?_⟩
    show Prog.Outcome X.Exec (Prog.call _ _) _ _ _
    rw [Prog.Outcome.call_iff fun _ _ => get_iff]
    show Prog.Outcome X.Exec (Prog.call _ _) _ _ _
    rw [Prog.Outcome.call_iff fun _ _ => set_iff]
    exact ofExcept_iff.mpr h

end Ends

end Exchange

/-- **What the session path checks** once the request is found. -/
theorem validatePendingResponse_eq_ok_iff {req : AuthRequest} {pairing : PairingData}
    {resp : AuthResponse} {pending : PendingRequest} {nowMs : Nat} {a : ApprovalResult} :
    validatePendingResponse req pairing resp pending nowMs = .ok a ↔
      (verifyApprovalSignature pairing.approvalPublicKeyDer req resp = true ∧
        validateAuthTimestamp req.timestamp nowMs = .ok () ∧
        validateAuthTimestamp resp.timestamp nowMs = .ok () ∧
        resp.correlationCode = pending.correlationCode ∧ resp.action = pending.action ∧
        resp.approved = true) ∧ a = { unlockShare := resp.unlockShare } := by
  unfold validatePendingResponse
  rw [bind_eq_ok, bind_eq_ok, bind_eq_ok, bind_eq_ok, bind_eq_ok]
  rw [validateAuthExchange_eq_ok_iff, require_eq_ok, require_eq_ok, require_eq_ok, require_eq_ok]
  show _ ∧ _ ∧ _ ∧ _ ∧ _ ∧ Except.ok _ = Except.ok _ ↔ _
  rw [Except.ok.injEq, eq_comm (b := a)]
  tauto

namespace Exchange

variable {X : Exchange}

omit [Crypto] in
/-- A response of the right pairing passes the first check. -/
theorem ensure_iff : ensurePairingGeneration X.pairing.pairingId X.req.pairingId
    X.resp.pairingId = .ok () ↔
      X.req.pairingId = X.pairing.pairingId ∧ X.resp.pairingId = X.pairing.pairingId := by
  unfold ensurePairingGeneration
  exact require_eq_ok

/-- **The judgements agree** on a response that does not name another
pending request. -/
theorem judge_ok_iff (hnot : ¬ X.NamesAnother) {a : ApprovalResult} :
    X.judge.1 = .ok a ↔ validateResponse X.req X.pairing X.resp X.nowMs = .ok () ∧
      a = { unlockShare := X.resp.unlockShare } := by
  rw [validateResponse_eq_ok_iff]
  unfold judge
  cases hgen : ensurePairingGeneration X.pairing.pairingId X.req.pairingId X.resp.pairingId with
  | error e =>
    have hno : ¬ (X.req.pairingId = X.pairing.pairingId ∧
        X.resp.pairingId = X.pairing.pairingId) := by
      rw [← ensure_iff, hgen]
      exact nofun
    exact ⟨nofun, fun h => absurd ⟨h.1.1, h.1.2.1⟩ hno⟩
  | ok u =>
    have hids := ensure_iff.mp hgen
    by_cases hreq : X.resp.requestId = X.req.requestId
    · have hfound := X.registered
      rw [← hreq] at hfound
      rw [hfound]
      show validatePendingResponse _ _ _ _ _ = _ ↔ _
      rw [validatePendingResponse_eq_ok_iff]
      tauto
    · have hnone : X.opened.pendingRequests.lookup X.resp.requestId = none := by
        by_contra hsome
        exact hnot ⟨hids.1, hids.2, hreq, Option.isSome_iff_ne_none.mpr hsome⟩
      rw [hnone]
      exact ⟨nofun, fun h => absurd h.1.2.2.1 hreq⟩

/-- What is left pending when no other request is named. -/
theorem judge_lookup (hnot : ¬ X.NamesAnother) {id : Uuid} (hid : id ≠ X.req.requestId) :
    X.judge.2.pendingRequests.lookup id = X.opened.pendingRequests.lookup id := by
  unfold judge
  cases hgen : ensurePairingGeneration X.pairing.pairingId X.req.pairingId X.resp.pairingId with
  | error e => rfl
  | ok u =>
    have hids := ensure_iff.mp hgen
    cases hfound : X.opened.pendingRequests.lookup X.resp.requestId with
    | none => rfl
    | some pending =>
      have hreq : X.resp.requestId = X.req.requestId := by
        by_contra hne
        exact hnot ⟨hids.1, hids.2, hne, by rw [hfound]; rfl⟩
      show (X.opened.forget X.resp.requestId).pendingRequests.lookup id = _
      rw [SessionState.lookup_forget, if_neg (hreq ▸ hid)]

/-- **The request that a response names is gone**, another one too. -/
theorem NamesAnother.judge_lookup (h : X.NamesAnother) :
    X.judge.2.pendingRequests.lookup X.resp.requestId = none := by
  unfold judge
  rw [ensure_iff.mpr ⟨h.1, h.2.1⟩]
  obtain ⟨pending, hfound⟩ := Option.isSome_iff_exists.mp h.2.2.2
  rw [hfound]
  show (X.opened.forget X.resp.requestId).pendingRequests.lookup _ = _
  rw [SessionState.lookup_forget, if_pos rfl]

/-- The registration of the request that is named is lost. -/
theorem NamesAnother.not_agrees (hanother : X.NamesAnother) : ¬ X.Agrees := by
  intro h
  obtain ⟨s', hs', hothers⟩ := h.others _ _ (ends_iff.mpr ⟨rfl, rfl⟩)
  obtain rfl := Option.some.inj hs'
  have hlost := hothers X.resp.requestId hanother.2.2.1
  rw [SessionState.lookup_forget, if_neg hanother.2.2.1, hanother.judge_lookup] at hlost
  have hfound := hanother.2.2.2
  rw [← hlost] at hfound
  cases hfound

/-- **The session path agrees with `validateResponse` exactly when the
response does not name another pending request.** -/
theorem agrees_iff_not_namesAnother (X : Exchange) : X.Agrees ↔ ¬ X.NamesAnother := by
  constructor
  · intro h hanother
    exact hanother.not_agrees h
  · intro hnot
    refine ⟨⟨_, _, ends_iff.mpr ⟨rfl, rfl⟩⟩, fun x s h share => ?_, fun x s h => ?_,
      fun x s h => ?_⟩
    · rw [(ends_iff.mp h).1, mapError_eq_ok_iff, judge_ok_iff hnot, ApprovalResult.mk.injEq]
    · refine ⟨_, (ends_iff.mp h).2, ?_⟩
      rw [SessionState.lookup_forget, if_pos rfl]
    · refine ⟨_, (ends_iff.mp h).2, fun id hid => ?_⟩
      rw [SessionState.lookup_forget, if_neg hid, judge_lookup hnot hid]

/-- The request to unlock of a session in which a read is pending too. -/
def crossedRequest : AuthRequest :=
  { pairingId := 1, requestId := 10, correlationCode := 4711, action := .read,
    entryTitle := none, unlockShareRequested := true, timestamp := 0 }

/-- A paired phone. -/
def crossedPairing : PairingData :=
  { pairingId := 1, phoneNodeId := Vector.replicate 32 1, approvalPublicKeyDer := [7],
    createdAtMs := 0 }

/-- **A response that names the other one**, correctly signed and approved. -/
def crossed : Exchange where
  req := crossedRequest
  opened :=
    { vault := Vault.default, localSecret := deriveKeys "" (Vector.replicate 16 0),
      vaultKey := combineVaultKey (deriveKeys "" (Vector.replicate 16 0)) (Vector.replicate 32 0),
      phoneShare := Vector.replicate 32 0, vaultSalt := Vector.replicate 16 0,
      pairing := some crossedPairing, endpoint := true,
      pendingRequests := [(10, ⟨4711, .read⟩), (11, ⟨4711, .read⟩)] }
  pairing := crossedPairing
  resp :=
    { pairingId := 1, requestId := 11, correlationCode := 4711, action := .read,
      unlockShare := none, approved := true, timestamp := 0, signature := [7] }
  nowMs := 0
  paired := rfl
  reachable := rfl
  registered := by decide

omit [Crypto] in
/-- **A response that names another pending request takes its
registration.** -/
theorem crossed_not_agrees : ¬ ∀ X : Exchange, @Agrees Crypto.plain X := by
  intro h
  have hanother : crossed.NamesAnother := by
    unfold NamesAnother
    decide
  exact @NamesAnother.not_agrees Crypto.plain crossed hanother (h crossed)

end Exchange

end Desktop
