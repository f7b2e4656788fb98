import Ferusa.Desktop.HistoryRules

/-!
# What the commands do, given what they have done

Each command of the desktop, from a process in which no request waits:
it puts a command only when it may, and when it is done no request
waits. The argument is the same for all of them. Unlocking asks the
phone to approve the command's own action; where the session was open
already, the command asks before it goes on; and after that only the
session's vault is looked at, changed and saved.
-/

namespace Desktop

open Logic DeskProg

variable {α : Type} {G : Vault → Prop} {op : DeskOp} {P F : History → Prop}

/-- **No request waits.** -/
def Quiet (s : History) : Prop :=
  ∀ s₀, s.state.session = some s₀ → s₀.pendingRequests = []

variable [Crypto]

/-- **The session is open and no request waits**; if the command has
opened it, the phone has approved its action. -/
def Entered (request : VaultAction × Option String) (status : UnlockStatus) (s : History) :
    Prop :=
  ∃ s₀, s₀.pendingRequests = [] ∧
    On (some s₀) (fun past => status = .newlyUnlocked → s₀.Granted request past) s

/-- **The session is open, no request waits, and the phone has
approved.** -/
def Cleared (request : VaultAction × Option String) (s : History) : Prop :=
  ∃ s₀, s₀.pendingRequests = [] ∧ On (some s₀) (s₀.Granted request) s

omit [Crypto] in
theorem On.quiet {s₀ : SessionState} {K : List (Event DeskCmd.Reply) → Prop} {s : History}
    (h : On (some s₀) K s) (hp : s₀.pendingRequests = []) : Quiet s := by
  intro s₁ hs₁
  obtain rfl := Option.some.inj (h.1.symm.trans hs₁)
  exact hp

omit [Crypto] in
theorem On.quiet_none {K : List (Event DeskCmd.Reply) → Prop} {s : History}
    (h : On none K s) : Quiet s := by
  intro s₁ hs₁
  cases h.1.symm.trans hs₁

/-- That no request waits lasts while the session is not replaced. -/
theorem Lasting.quiet : Lasting G op Quiet := by
  intro c s r s' hx hm hc hs s₀ hs₀
  have hbefore : On s.state.session (fun _ => True) s := ⟨rfl, trivial⟩
  have hafter : On s.state.session (fun _ => True) s' :=
    Lasting.on .true c s r s' hx hm hc hbefore
  exact hs s₀ (hafter.1.symm.trans hs₀)

theorem Entered.quiet {request : VaultAction × Option String} {status : UnlockStatus}
    {s : History} (h : Entered request status s) : Quiet s := by
  obtain ⟨s₀, hp, hs⟩ := h
  exact hs.quiet hp

theorem Cleared.quiet {request : VaultAction × Option String} {s : History}
    (h : Cleared request s) : Quiet s := by
  obtain ⟨s₀, hp, hs⟩ := h
  exact hs.quiet hp

/-! ## Asking -/

/-- What may always be asked. -/
theorem hist_ask_any {c : EnvCmd} (hP : Lasting G op P)
    (hmay : ∀ s, May G op (.env c) s) : HistRuns G op P P (ask c) (fun _ => P) :=
  (hist_ask hP fun s _ => hmay s).post fun _ _ _ hs => hs.1

theorem hist_answer_any {message : String} {r : Except String α} :
    HistRuns G op P P (answer message r) (fun _ => P) :=
  (hist_answer fun _ hs => hs).post fun _ _ _ hs => hs.2

theorem hist_promptPassword {message : String} (hP : Lasting G op P) :
    HistRuns G op P P (promptPassword message) (fun _ => P) :=
  Triple.bind (hist_ask_any hP fun _ => trivial) fun _ => hist_answer_any

/-- The line that is read is the one that was answered. -/
theorem hist_readAnswer {message : String} (hP : Lasting G op P) :
    HistRuns G op P P (readLine message) (fun line s =>
      (⟨.env .readLine, .ok line⟩ : Event DeskCmd.Reply) ∈ s.past ∧ P s) := by
  refine Triple.bind (hist_ask hP fun _ _ => trivial) fun r => ?_
  refine (hist_answer fun _ hs => hs.1).post fun line s _ hs => ?_
  obtain ⟨rfl, hs, hmem⟩ := hs
  exact ⟨hmem, hs⟩

theorem hist_readLine {message : String} (hP : Lasting G op P) :
    HistRuns G op P P (readLine message) (fun _ => P) :=
  (hist_readAnswer hP).post fun _ _ _ hs => hs.2

theorem hist_ensure_any {check : Prop} [Decidable check] {message : String} :
    HistRuns G op P P (Prog.ensure check message) (fun _ s => check ∧ P s) :=
  hist_ensure fun _ hs => hs

theorem hist_upkeep_any {p : FileProg α} (h : Disciplined G (Upkeep G) (fun _ => True) p)
    (hP : Lasting G op P) : HistRuns G op P P (files p) (fun _ => P) :=
  (hist_upkeep h hP fun _ hs => hs).post fun _ _ _ hs => hs.2

/-- The key of the endpoint. -/
theorem hist_loadPeerKey (hP : Lasting G op P) :
    HistRuns G op P P loadPeerKey (fun _ => P) := by
  refine Triple.bind (hist_upkeep_any (disciplined_pathExists _) hP) fun present => ?_
  cases present with
  | true =>
    refine Triple.bind (hist_upkeep_any ?_ hP) fun _ => ?_
    · exact .mapError (disciplined_quiet trivial)
    refine Triple.bind (hist_upkeep_any ?_ hP) fun contents => ?_
    · exact (disciplined_readFile _ _).post fun _ _ => trivial
    cases contents with
    | bytes raw => exact hist_ensure_any.post fun _ _ _ hs => hs.2
    | _ => exact hist_fail fun _ hs => hs
  | false =>
    refine Triple.bind (hist_ask_any hP fun _ => trivial) fun key => hist_upkeep_any ?_ hP
    exact .mapError (disciplined_writePrivateFile ⟨trivial, nofun, nofun, nofun, nofun⟩)

theorem hist_initPeer (hP : Lasting G op P) : HistRuns G op P P initPeer (fun _ => P) :=
  Triple.bind (hist_loadPeerKey hP) fun _ =>
    Triple.bind (hist_ask_any hP fun _ => trivial) fun _ => hist_answer_any

/-! ## Approval -/

/-- **A response that is accepted approves the request.** -/
theorem acceptResponse_approves {req : AuthRequest} {pairing : PairingData} {resp : AuthResponse}
    {nowMs : Nat} {result : ApprovalResult}
    (h : acceptResponse req pairing resp nowMs = .ok result) : Approves pairing req resp := by
  unfold acceptResponse at h
  cases hv : validateResponse req pairing resp nowMs with
  | error e =>
    rw [hv] at h
    cases h
  | ok u =>
    obtain ⟨hreq, hresp, hid, hsig, -, -, hcode, haction, happroved⟩ :=
      validateResponse_eq_ok_iff.mp hv
    exact ⟨⟨hreq, hresp⟩, hid, hsig, hcode, haction, happroved⟩

/-- **`request_approval_over_endpoint`** returns when the phone has
approved. -/
theorem hist_requestApprovalOverEndpoint (hP : Lasting G op P) (pairing : PairingData)
    (action : VaultAction) (entryTitle : Option String) (unlockShareRequested : Bool) :
    HistRuns G op P P
      (requestApprovalOverEndpoint pairing action entryTitle unlockShareRequested)
      (fun _ s => P s ∧ Accepted pairing action entryTitle s.past) := by
  have hP' (req : AuthRequest) (r : Except String AuthResponse) : Lasting G op fun s => P s ∧
      (⟨.env (.sendAuthRequest pairing.phoneNodeId req), r⟩ : Event DeskCmd.Reply) ∈ s.past :=
    hP.and (.event _)
  refine Triple.bind (hist_ask_any hP fun _ => trivial) fun requestId => ?_
  refine Triple.bind (hist_ask_any hP fun _ => trivial) fun correlationCode => ?_
  refine Triple.bind (hist_ask_any hP fun _ => trivial) fun timestamp => ?_
  refine Triple.bind (hist_ask hP fun _ _ => trivial) fun r => ?_
  refine Triple.bind (hist_answer fun _ hs => hs.1) fun resp => Triple.given ?_
  rintro rfl
  refine Triple.bind (hist_error (hist_ask_any (hP' _ _) fun _ => trivial) fun _ hs => hs.1)
    fun now => ?_
  refine (hist_ofExcept fun _ hs => hs.1).post fun result s _ hs => ?_
  obtain ⟨haccept, hPs, hmem⟩ := hs
  exact ⟨hPs, _, resp, hmem, rfl, rfl, acceptResponse_approves (mapError_eq_ok_iff.mp haccept)⟩

theorem hist_requestUnlockShare (hP : Lasting G op P) (pairing : PairingData)
    (action : VaultAction) (entryTitle : Option String) :
    HistRuns G op P P (requestUnlockShare pairing action entryTitle)
      (fun _ s => P s ∧ Accepted pairing action entryTitle s.past) := by
  refine Triple.bind (hist_requestApprovalOverEndpoint hP _ _ _ _) fun result => ?_
  cases result.unlockShare with
  | some share => exact hist_pure fun _ hs => hs
  | none => exact hist_fail fun _ hs => hs.1

/-- What a response to a waiting request passes. -/
theorem validatePendingResponse_eq_ok {req : AuthRequest} {pairing : PairingData}
    {resp : AuthResponse} {pending : PendingRequest} {nowMs : Nat} {result : ApprovalResult}
    (h : validatePendingResponse req pairing resp pending nowMs = .ok result) :
    verifyApprovalSignature pairing.approvalPublicKeyDer req resp = true ∧
      resp.correlationCode = pending.correlationCode ∧ resp.action = pending.action ∧
      resp.approved = true := by
  have hchecks : (do
      require (verifyApprovalSignature pairing.approvalPublicKeyDer req resp) .signatureMismatch
      validateAuthExchange req resp nowMs
      require (resp.correlationCode = pending.correlationCode) .correlationCodeMismatch
      require (resp.action = pending.action) .actionMismatch
      require resp.approved .denied : Except TwofaError Unit) = .ok () := by
    unfold validatePendingResponse at h
    generalize require (verifyApprovalSignature pairing.approvalPublicKeyDer req resp = true)
      .signatureMismatch = c₁ at h ⊢
    generalize validateAuthExchange req resp nowMs = c₂ at h ⊢
    generalize require (resp.correlationCode = pending.correlationCode) .correlationCodeMismatch
      = c₃ at h ⊢
    generalize require (resp.action = pending.action) .actionMismatch = c₄ at h ⊢
    generalize require (resp.approved = true) .denied = c₅ at h ⊢
    cases c₁ <;> cases c₂ <;> cases c₃ <;> cases c₄ <;> cases c₅ <;> first | rfl | cases h
  rw [bind_eq_ok, bind_eq_ok, bind_eq_ok, bind_eq_ok, require_eq_ok, require_eq_ok, require_eq_ok,
    require_eq_ok] at hchecks
  obtain ⟨hsig, -, hcode, haction, happroved⟩ := hchecks
  exact ⟨hsig, hcode, haction, happroved⟩

/-- **At most one request waits**, of a session that is otherwise
known. -/
def Waiting (s₀ : SessionState) (requestId : Uuid) (pending : PendingRequest)
    (K : List (Event DeskCmd.Reply) → Prop) (s : History) : Prop :=
  ∃ l, (l = [(requestId, pending)] ∨ l = []) ∧
    On (some { s₀ with pendingRequests := l }) K s

variable {K : List (Event DeskCmd.Reply) → Prop} {s₀ : SessionState} {pairing : PairingData}

omit [Crypto] in
theorem On.waiting {requestId : Uuid} {pending : PendingRequest} {s : History}
    (h : On (some { s₀ with pendingRequests := [(requestId, pending)] }) K s) :
    Waiting s₀ requestId pending K s :=
  ⟨_, .inl rfl, h⟩

/-- **The exchange of `request_approval_for_session`** returns when the
phone has approved. -/
theorem hist_exchangeForSession (hK : Grows K) (hpair : s₀.pairing = some pairing)
    (requestId : Uuid) (correlationCode : Nat) (action : VaultAction)
    (entryTitle : Option String) (unlockShareRequested : Bool) (timestamp : Nat) :
    HistRuns G op (Waiting s₀ requestId { correlationCode, action } K)
      (On (some { s₀ with pendingRequests := [(requestId, { correlationCode, action })] }) K)
      (exchangeForSession (issueRequest pairing requestId correlationCode action entryTitle
        unlockShareRequested timestamp))
      (fun _ s => Waiting s₀ requestId { correlationCode, action } K s ∧
        Accepted pairing action entryTitle s.past) := by
  generalize hreq : issueRequest pairing requestId correlationCode action entryTitle
    unlockShareRequested timestamp = req
  have hon : Lasting G op (On (some { s₀ with
      pendingRequests := [(requestId, { correlationCode, action })] }) K) := .on hK
  have hevent (r : Except String AuthResponse) : Grows fun past => K past ∧
      (⟨.env (.sendAuthRequest pairing.phoneNodeId req), r⟩ : Event DeskCmd.Reply) ∈ past :=
    fun e l h => ⟨hK e l h.1, List.mem_cons_of_mem _ h.2⟩
  refine hist_session hon (fun _ hs => hs.1) ?_
  refine Triple.bind (hist_okOr fun _ hs => hs.waiting) fun pairing' => Triple.given fun hp => ?_
  obtain rfl : pairing = pairing' := Option.some.inj (hpair.symm.trans hp)
  refine Triple.bind (hist_ensure fun _ hs => hs.waiting) fun _ => Triple.given fun _ => ?_
  refine Triple.bind (hist_ask hon fun _ _ => trivial) fun r => ?_
  refine Triple.bind (hist_answer fun _ hs => hs.1.waiting) fun resp => Triple.given ?_
  rintro rfl
  refine Triple.bind (hist_ofExcept fun _ hs => hs.1.waiting) fun _ => Triple.given fun hgen => ?_
  have hgen : req.pairingId = pairing.pairingId ∧ resp.pairingId = pairing.pairingId :=
    require_eq_ok.mp (mapError_eq_ok_iff.mp hgen)
  refine hist_pre (On (some { s₀ with
    pendingRequests := [(requestId, { correlationCode, action })] }) fun past => K past ∧
      (⟨.env (.sendAuthRequest pairing.phoneNodeId req), .ok resp⟩ : Event DeskCmd.Reply) ∈ past)
    ?_ fun s hs => ⟨hs.1.1, hs.1.2, hs.2⟩
  refine hist_session (.on (hevent _)) (fun _ hs => hs.1) ?_
  by_cases hid : resp.requestId = requestId
  · have hlookup : List.lookup resp.requestId
        [(requestId, ({ correlationCode, action } : PendingRequest))] =
        some { correlationCode, action } := by
      simp [hid]
    simp only [hlookup]
    refine Triple.bind (hist_setSession_same (hevent _) rfl) fun _ => ?_
    have hforget : SessionState.forget { s₀ with
        pendingRequests := [(requestId, { correlationCode, action })] } resp.requestId =
        { s₀ with pendingRequests := [] } := by
      simp [SessionState.forget, hid]
    rw [hforget]
    have hwaiting : ∀ s, On (some { s₀ with pendingRequests := [] }) (fun past => K past ∧
        (⟨.env (.sendAuthRequest pairing.phoneNodeId req), .ok resp⟩ : Event DeskCmd.Reply) ∈ past)
        s → Waiting s₀ requestId { correlationCode, action } K s :=
      fun s hs => ⟨[], .inr rfl, hs.1, hs.2.1⟩
    refine Triple.bind (hist_error (hist_ask_any (.on (hevent _)) fun _ => trivial) hwaiting)
      fun now => ?_
    refine (hist_ofExcept hwaiting).post fun result s _ hs => ⟨hwaiting s hs.2, req, resp,
      hs.2.2.2, ?_⟩
    obtain ⟨hsig, hcode, haction, happroved⟩ :=
      validatePendingResponse_eq_ok (mapError_eq_ok_iff.mp hs.1)
    subst hreq
    exact ⟨rfl, rfl, hgen, hid, hsig, hcode, haction, happroved⟩
  · have hlookup : List.lookup resp.requestId
        [(requestId, ({ correlationCode, action } : PendingRequest))] = none := by
      simp [List.lookup_cons, beq_eq_false_iff_ne.mpr hid]
    simp only [hlookup]
    exact hist_fail fun s hs => ⟨_, .inl rfl, hs.1, hs.2.1⟩

/-- **`request_approval_for_session`** returns when the phone has
approved; the session is what it was. -/
theorem hist_requestApprovalForSession (hpending : s₀.pendingRequests = [])
    (action : VaultAction) (entryTitle : Option String) (unlockShareRequested : Bool) :
    HistRuns G op (On (some s₀) fun _ => True) (On (some s₀) fun _ => True)
      (requestApprovalForSession action entryTitle unlockShareRequested)
      (fun _ => On (some s₀) (s₀.Granted (action, entryTitle))) := by
  have hon : Lasting G op (On (some s₀) fun _ => True) := .on .true
  refine Triple.bind (hist_ask_any hon fun _ => trivial) fun requestId => ?_
  refine Triple.bind (hist_ask_any hon fun _ => trivial) fun correlationCode => ?_
  refine Triple.bind (hist_ask_any hon fun _ => trivial) fun timestamp => ?_
  refine hist_session hon (fun _ hs => hs.1) ?_
  refine Triple.bind (hist_okOr fun _ hs => hs) fun pairing => Triple.given fun hpair => ?_
  refine hist_session hon (fun _ hs => hs.1) ?_
  rw [hpending]
  refine Triple.bind (hist_setSession_same .true rfl) fun _ => ?_
  refine Triple.bind (Triple.attempt (M := fun r s => Waiting s₀ requestId
    { correlationCode, action } (fun _ => True) s ∧
      ∀ a, r = .ok a → Accepted pairing action entryTitle s.past) ?_) fun result => ?_
  · refine (hist_exchangeForSession .true hpair _ _ _ _ _ _).conseq (fun _ _ hs => hs)
      (fun _ _ _ hs => ⟨hs.1, fun _ _ => hs.2⟩) fun _ _ _ hs => ⟨hs, nofun⟩
  -- what waited is forgotten, and the session is what it was
  refine Triple.bind (M := fun _ s => On (some s₀) (fun past => ∀ a, result = .ok a →
    Accepted pairing action entryTitle past) s) ?_ fun _ => ?_
  · refine hist_pre (fun s => ∃ l, (l = [(requestId, { correlationCode, action })] ∨ l = []) ∧
      On (some { s₀ with pendingRequests := l }) (fun past => ∀ a, result = .ok a →
        Accepted pairing action entryTitle past) s) ?_ ?_
    · refine Triple.exists fun l => Triple.given fun hl => ?_
      have hgrows : Grows fun past => ∀ a, result = .ok a →
          Accepted pairing action entryTitle past := by
        rintro e past h a ha
        obtain ⟨req, resp, hmem, hrest⟩ := h a ha
        exact ⟨req, resp, List.mem_cons_of_mem _ hmem, hrest⟩
      refine hist_getSession (.on hgrows) (fun _ hs => hs.1) ?_
      have hforget : SessionState.forget { s₀ with pendingRequests := l } requestId = s₀ :=
        calc SessionState.forget { s₀ with pendingRequests := l } requestId
            = { s₀ with pendingRequests := [] } := by
              obtain rfl | rfl := hl <;> simp [SessionState.forget]
          _ = s₀ := by rw [← hpending]
      show HistRuns G op _ _ (setSession (some (SessionState.forget _ _))) _
      rw [hforget]
      exact hist_setSession_same hgrows rfl
    · rintro s ⟨⟨l, hl, hs⟩, hacc⟩
      exact ⟨l, hl, hs.1, hacc⟩
  · refine (hist_ofExcept fun s hs => ⟨hs.1, trivial⟩).post fun a s _ hs => ?_
    exact ⟨hs.2.1, pairing, hpair, hs.2.2 a hs.1⟩

/-! ## Unlocking -/

theorem Accepted.title {action : VaultAction} {title title' : Option String}
    {past : List (Event DeskCmd.Reply)} (h : Accepted pairing action title past)
    (ht : title.map trim = title'.map trim) : Accepted pairing action title' past := by
  obtain ⟨req, resp, hmem, haction, htitle, happroves⟩ := h
  exact ⟨req, resp, hmem, haction, htitle.trans ht, happroves⟩

/-- **`approved_action`**: the phone has approved, whichever way the
session was opened. -/
theorem hist_approvedAction (hpending : s₀.pendingRequests = []) (status : UnlockStatus)
    {request : VaultAction × Option String} {action : VaultAction} {entryTitle : Option String}
    (haction : request.1 = action) (htitle : entryTitle.map trim = request.2.map trim) :
    HistRuns G op Quiet
      (On (some s₀) fun past => status = .newlyUnlocked → s₀.Granted request past)
      (approvedAction status action entryTitle)
      (fun _ => On (some s₀) (s₀.Granted request)) := by
  have hon : Lasting G op (On (some s₀) fun _ => True) := .on .true
  have hquiet : ∀ s, On (some s₀) (fun _ => True) s → Quiet s := fun s hs => hs.quiet hpending
  cases status with
  | newlyUnlocked => exact hist_pure fun s hs => ⟨hs.1, hs.2 rfl⟩
  | alreadyUnlocked =>
    refine hist_pre (On (some s₀) fun _ => True) ?_ fun s hs => ⟨hs.1, trivial⟩
    refine Triple.bind (hist_error (hist_upkeep_any disciplined_pairingStatus hon) hquiet)
      fun status => ?_
    cases status with
    | ready =>
      refine Triple.bind (hist_error (hist_requestApprovalForSession hpending _ _ _) hquiet)
        fun _ => hist_pure fun s hs => ⟨hs.1, ?_⟩
      obtain ⟨pairing, hpair, hacc⟩ := hs.2
      subst haction
      exact ⟨pairing, hpair, hacc.title htitle⟩
    | _ => exact hist_fail hquiet

omit [Crypto] in
theorem files_bind {β : Type} (p : FileProg β) (f : β → FileProg α) :
    files (p >>= f) = files p >>= fun b => files (f b) :=
  Prog.hoist_bind ..

/-- **A pairing that is read is recorded.** -/
theorem hist_readPairingData (hP : Lasting G op P) :
    HistRuns G op P P (files readPairingData) (fun _ s => P s ∧ s.state.Paired) := by
  unfold readPairingData
  rw [files_bind]
  refine Triple.bind (M := fun b s => P s ∧ (b = true → s.state.Paired)) ?_ fun b => ?_
  · refine Triple.perform (stable_recorded P) (fun _ => stable_recorded _) ?_
    intro s r s' _ hs hx
    have hs' := hP _ s r s' hx trivial nofun hs
    refine ⟨⟨_, r, hx, trivial⟩, hs', ?_⟩
    obtain ⟨⟨o, ho⟩, -⟩ := hx
    obtain ⟨⟨r', f⟩, hf, hrf⟩ := Option.map_eq_some_iff.mp ho
    obtain ⟨rfl, hdesk⟩ := Prod.mk.inj hrf
    rintro rfl
    have hpaired : s.state.Paired := (Files.exec_exists hf).symm
    have hmay : May G op (.file (FileCmd.exists .pairingState)) s := trivial
    exact hpaired.exec ⟨o, ho⟩ hmay
  · cases b with
    | true =>
      have hP' : Lasting G op fun s => P s ∧ s.state.Paired := hP.and .paired
      refine hist_pre (fun s => P s ∧ s.state.Paired) ?_ fun s hs => ⟨hs.1, hs.2 rfl⟩
      refine hist_error (hist_upkeep_any ?_ hP') fun _ hs => hs.1
      exact .bind disciplined_readPairingDataFromState fun _ _ => .ofExcept fun _ _ => trivial
    | false => exact hist_fail fun _ hs => hs.1

/-- A message is sent. -/
theorem hist_sendMessage (hP : Lasting G op P) (message : String) (conn : Conn)
    (m : FerusaMessage) : HistRuns G op P P (sendMessage message conn m) (fun _ => P) :=
  Triple.bind (hist_ask_any hP fun _ => trivial) fun _ => hist_answer_any

/-- A message is received. -/
theorem hist_readFerusaMessage (hP : Lasting G op P) (message : String) (conn : Conn) :
    HistRuns G op P P (readFerusaMessage message conn) (fun _ => P) :=
  Triple.bind (hist_ask_any hP fun _ => trivial) fun _ => hist_answer_any

theorem hist_sendRecoveryTransition (hP : Lasting G op P) (request expected : FerusaMessage) :
    HistRuns G op P P (sendRecoveryTransition request expected) (fun _ => P) := by
  refine Triple.bind (hist_upkeep_any disciplined_readRecoveryPairing hP) fun pairing => ?_
  refine Triple.bind (hist_initPeer hP) fun _ => ?_
  refine Triple.bind (hist_ask_any hP fun _ => trivial) fun r => ?_
  refine Triple.bind hist_answer_any fun conn => ?_
  refine Triple.bind (hist_sendMessage hP _ _ _) fun _ => ?_
  refine Triple.bind (hist_ask_any hP fun _ => trivial) fun r => ?_
  refine Triple.bind hist_answer_any fun _ => ?_
  refine Triple.bind (hist_readFerusaMessage hP _ _) fun response => ?_
  exact hist_ensure_any.post fun _ _ _ hs => hs.2

theorem hist_recoveryRound (hP : Lasting G op P) (txn : PairingTxnFile) :
    HistRuns G op P P (recoveryRound txn) (fun _ => P) := by
  unfold recoveryRound
  cases txn.phase with
  | prepared =>
    refine Triple.bind (Triple.context (hist_sendRecoveryTransition hP _ _)) fun _ => ?_
    exact hist_upkeep_any (disciplined_advancePairingTransaction _ nofun) hP
  | phoneCommitted => exact hist_pure fun _ hs => hs
  | locallyActivated =>
    refine Triple.bind (Triple.context (hist_sendRecoveryTransition hP _ _)) fun _ => ?_
    exact hist_upkeep_any (disciplined_advancePairingTransaction _ nofun) hP
  | fullyActivated => exact hist_pure fun _ hs => hs

/-- **Recovery leaves the session alone**, and writes nothing that needs
an approval. -/
theorem hist_reconcilePairingTransaction (hP : Lasting G op P) :
    HistRuns G op P P reconcilePairingTransaction (fun _ => P) := by
  have hloop : ∀ rounds, HistRuns G op P P (reconcileLoop rounds) (fun _ => P) := by
    intro rounds
    induction rounds with
    | zero => exact hist_fail fun _ hs => hs
    | succ rounds ih =>
      refine Triple.bind (hist_upkeep_any (disciplined_pathExists _) hP) fun present => ?_
      cases present with
      | true =>
        refine Triple.bind (hist_upkeep_any disciplined_readPairingTransaction hP) fun txn => ?_
        refine Triple.bind (hist_recoveryRound hP txn) fun _ => ?_
        exact Triple.bind (hist_upkeep_any disciplined_recoverPairingTransaction hP) fun _ => ih
      | false => exact hist_pure fun _ hs => hs
  refine Triple.bind (hist_upkeep_any ?_ hP) fun _ => hloop 4
  exact .mapError disciplined_recoverPairingTransaction

/-- **A file is read**: its contents are what the system call has
replied, and a vault among them has the property. -/
theorem hist_readFile (hP : Lasting G op P) (message : String) (f : FileName) :
    HistRuns G op P P (files (readFile message f)) (fun contents s => contents.Holds G ∧
      (⟨.file (.read f), .ok contents⟩ : Event DeskCmd.Reply) ∈ s.past ∧ P s) := by
  unfold readFile
  rw [files_bind]
  refine Triple.bind (M := fun r s => (∀ contents, r = .ok contents → contents.Holds G) ∧
    (⟨.file (.read f), r⟩ : Event DeskCmd.Reply) ∈ s.past ∧ P s) ?_ fun r => ?_
  · refine Triple.perform (stable_recorded P) (fun _ => stable_recorded _) ?_
    intro s r s' hi hs hx
    refine ⟨⟨_, r, hx, trivial⟩, exec_answers hi hx, ?_, hP _ s r s' hx trivial nofun hs⟩
    rw [hx.2]
    exact List.mem_cons_self
  · cases r with
    | ok contents => exact hist_pure fun s hs => ⟨hs.1 contents rfl, hs.2⟩
    | error e => exact hist_fail fun s hs => hs.2.2

/-- **A vault is loaded** from its place, and has the property. -/
theorem hist_loadVaultBlob (hP : Lasting G op P) :
    HistRuns G op P P (files loadVaultBlob) (fun blob s => G blob.plaintext ∧
      (⟨.file (.read .vaultEnc), .ok (.vault blob)⟩ : Event DeskCmd.Reply) ∈ s.past ∧ P s) := by
  unfold loadVaultBlob
  rw [files_bind]
  refine Triple.bind (hist_readFile hP _ _) fun contents => Triple.given fun hgood => ?_
  cases contents with
  | vault blob =>
    have hread : Lasting G op fun s =>
        (⟨.file (.read .vaultEnc), .ok (.vault blob)⟩ : Event DeskCmd.Reply) ∈ s.past ∧ P s :=
      (Lasting.event _).and hP
    have hsize : Disciplined G (Upkeep G) (fun b => b = blob) (do
        Prog.ensure (encryptedLength blob ≤ maxVaultEncryptedBytes)
          s!"vault.enc exceeds the {maxVaultEncryptedBytes}-byte encrypted size limit"
        pure blob) := .bind disciplined_ensure fun _ _ => rfl
    refine (hist_upkeep hsize hread fun _ hs => hs.2).post fun b s _ hs => ?_
    obtain ⟨rfl, hs⟩ := hs
    exact ⟨hgood, hs⟩
  | _ => exact hist_fail fun _ hs => hs.2

/-- **The vault a command finds**: that of the session, or, where none is
open, one that it has loaded from its place. -/
structure Found (sess : Option SessionState) (vault : Vault)
    (past : List (Event DeskCmd.Reply)) : Prop where
  session : ∀ s₀, sess = some s₀ → vault = s₀.vault
  loaded : sess = none → ∃ blob, vault = blob.plaintext ∧
    (⟨.file (.read .vaultEnc), .ok (.vault blob)⟩ : Event DeskCmd.Reply) ∈ past

omit [Crypto] in
theorem Grows.found {sess : Option SessionState} {vault : Vault} : Grows (Found sess vault) :=
  fun _ _ h => ⟨h.session, fun hs => (h.loaded hs).imp fun _ h =>
    ⟨h.1, List.mem_cons_of_mem _ h.2⟩⟩

/-- **A vault is unlocked** once the phone has approved the action. -/
theorem hist_unlockPaired (action : VaultAction) (entryTitle : Option String) :
    HistRuns G op Quiet (On none fun _ => True) (unlockPaired action entryTitle)
      (fun _ s => ∃ s₀, s₀.pendingRequests = [] ∧ On (some s₀) (fun past =>
        s₀.Granted (action, entryTitle) past ∧ Found none s₀.vault past) s) := by
  have hbefore : Lasting G op (On none fun _ => True) := .on .true
  refine Triple.bind (hist_error (hist_promptPassword hbefore) fun s hs => hs.quiet_none)
    fun password => ?_
  refine Triple.bind (hist_error (hist_loadVaultBlob hbefore) fun s hs => hs.quiet_none)
    fun blob => Triple.given fun hgood => ?_
  refine hist_pre (On none (Found none blob.plaintext)) ?_ fun s hs =>
    ⟨hs.2.1, nofun, fun _ => ⟨blob, rfl, hs.1⟩⟩
  have hon : Lasting G op (On none (Found none blob.plaintext)) := .on .found
  have hquiet : ∀ s, On none (Found none blob.plaintext) s → Quiet s := fun s hs => hs.quiet_none
  have hon' : Lasting G op fun s => On none (Found none blob.plaintext) s ∧ s.state.Paired :=
    hon.and .paired
  refine Triple.bind (hist_error (hist_upkeep_any disciplined_pairingStatus hon) hquiet)
    fun status => ?_
  cases status with
  | ready =>
    refine Triple.bind (hist_error (hist_initPeer hon) hquiet) fun _ => ?_
    rw [files_context]
    refine Triple.bind (Triple.context (hist_error (hist_readPairingData hon) hquiet))
      fun pairing => ?_
    refine Triple.bind (hist_error (hist_requestUnlockShare hon' pairing action entryTitle)
      fun s hs => hquiet s hs.1) fun phoneShare => ?_
    refine Triple.bind (hist_ofExcept fun s hs => hquiet s hs.1.1) fun vault =>
      Triple.given fun hvault => ?_
    obtain ⟨-, rfl, -⟩ := decryptVaultBlob_eq_ok_iff.mp hvault
    refine hist_setSession (fun s hi hs s₁ hs₁ => ?_) fun s s' hs hs' ⟨e, he⟩ => ?_
    · obtain rfl := Option.some.inj hs₁
      refine ⟨hgood, hs.1.2, fun s₀ hs₀ => ?_⟩
      cases hs.1.1.1.symm.trans hs₀
    · have hsession : s'.state.session = some (openSession blob blob.plaintext
          (deriveKeys password blob.salt) phoneShare pairing) := by rw [hs']
      obtain ⟨req, resp, hmem, hrest⟩ := hs.2
      exact ⟨_, rfl, hsession,
        ⟨pairing, rfl, req, resp, he ▸ List.mem_cons_of_mem _ hmem, hrest⟩,
        he ▸ Grows.found _ _ hs.1.1.2⟩
  | _ => exact hist_fail hquiet

/-- **A command starts** with the session and no request waiting. -/
def Starts (sess : Option SessionState) (s : History) : Prop :=
  Quiet s ∧ s.state.session = sess

/-- Whatever session a command starts with. -/
theorem starts_any {p : DeskProg α} {Q : Option SessionState → α → History → Prop}
    {Q' : α → History → Prop} (h : ∀ sess, HistRuns G op Quiet (Starts sess) p (Q sess))
    (hQ : ∀ sess a s, Q sess a s → Q' a s) : HistRuns G op Quiet Quiet p Q' :=
  fun s hi hs => (h s.state.session s hi ⟨hs, rfl⟩).mono (fun a s' _ hs' => hQ _ a s' hs')
    fun _ _ _ hs' => hs'

/-- **`ensure_unlocked_for`**: the session is open with the vault that the
command finds, and if it was opened here the phone has approved. -/
theorem hist_ensureUnlockedFor_found (sess : Option SessionState) (action : VaultAction)
    (entryTitle : Option String) :
    HistRuns G op Quiet (Starts sess) (ensureUnlockedFor action entryTitle)
      (fun status s => ∃ s₀, s₀.pendingRequests = [] ∧ On (some s₀) (fun past =>
        (status = .newlyUnlocked → s₀.Granted (action, entryTitle) past) ∧
        Found sess s₀.vault past) s) := by
  have hon : Lasting G op (On none fun _ => True) := .on .true
  have hquiet : ∀ s, On none (fun _ => True) s → Quiet s := fun s hs => hs.quiet_none
  cases sess with
  | some s₀ =>
    have hstart : Lasting G op fun s => Quiet s ∧ On (some s₀) (fun _ => True) s :=
      Lasting.quiet.and (.on .true)
    refine hist_pre (fun s => Quiet s ∧ On (some s₀) (fun _ => True) s) ?_
      fun s hs => ⟨hs.1, hs.2, trivial⟩
    refine hist_getSession hstart (fun _ hs => hs.2.1) ?_
    refine hist_pure fun s hs => ⟨s₀, hs.1 s₀ hs.2.1, hs.2.1, nofun, ?_, nofun⟩
    rintro s₁ ⟨⟩
    rfl
  | none =>
    refine hist_pre (On none fun _ => True) ?_ fun s hs => ⟨hs.2, trivial⟩
    refine hist_getSession hon (fun _ hs => hs.1) ?_
    refine Triple.bind (hist_error (hist_upkeep_any ?_ hon) hquiet) fun _ => ?_
    · exact .mapError (disciplined_quiet trivial)
    refine Triple.bind (hist_error (hist_upkeep_any ?_ hon) hquiet) fun _ => ?_
    · exact .mapError (disciplined_quiet trivial)
    refine Triple.bind (Triple.context (hist_error (hist_reconcilePairingTransaction hon) hquiet))
      fun _ => ?_
    refine Triple.bind (hist_error (hist_upkeep_any disciplined_ensureNotDev2faStubVault hon)
      hquiet) fun _ => ?_
    refine Triple.bind (hist_error (hist_upkeep_any (disciplined_pathExists _) hon) hquiet)
      fun present => ?_
    refine Triple.bind (hist_ensure hquiet) fun _ => Triple.given fun _ => ?_
    refine Triple.bind (hist_unlockPaired action entryTitle) fun _ => hist_pure ?_
    rintro s ⟨s₀, hp, hs⟩
    exact ⟨s₀, hp, hs.1, fun _ => hs.2.1, hs.2.2⟩

/-- The same, whatever session there is. -/
theorem hist_ensureUnlockedFor (action : VaultAction) (entryTitle : Option String) :
    HistRuns G op Quiet Quiet (ensureUnlockedFor action entryTitle)
      (fun status => Entered (action, entryTitle) status) := by
  refine starts_any (fun sess => hist_ensureUnlockedFor_found sess action entryTitle) ?_
  rintro sess status s ⟨s₀, hp, hs⟩
  exact ⟨s₀, hp, hs.1, hs.2.1⟩

end Desktop
