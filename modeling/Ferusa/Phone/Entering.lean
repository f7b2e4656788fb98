import Ferusa.Phone.ApprovedOnce

/-!
# Whose requests are shown

Anybody may open a connection to the phone and send whatever they like.
What reaches the user is a request in the slot; and each message is judged
anew, however the connection was authenticated before, and whatever was
sent on it. Between two of the checks anything may happen: the session may
be locked, the pairing replaced.

So it is the acts of the thread that tell: since the frame with the
request was read, from the stream that it will be answered on, the thread
has found the phone set up, the secrets in memory to name the node at the
other end, the timestamp fresh, the session unlocked, the secrets to be of
the pairing that the request names, and the app in the foreground.
-/

namespace Phone

open Discipline AppProg

/-! ## What is found -/

/-- A frame is read. -/
def ReadsFrame (c : AppCmd) : Prop := ∃ stream, c = .ask (.readToEnd stream)

/-- **The frame brings the request.** -/
def BringsRequest (stream : Stream) (req : AuthRequest) (e : AppAct) : Prop :=
  ∃ t s s', e = ⟨t, .ask (.readToEnd stream), .ok (.ok (.request req)), s, s'⟩

/-- The phone is found set up. -/
def FindsSetUp (e : AppAct) : Prop := e.before.cells .isSetup = true

/-- The secrets in memory are found to name the node. -/
def FindsNode (node : Bytes32) (e : AppAct) : Prop :=
  ∃ secrets, e.before.cells .secrets = some secrets ∧ secrets.cliNodeId = node

/-- The timestamp is found fresh. -/
def FindsFresh (timestamp : Nat) (e : AppAct) : Prop :=
  validateAuthTimestamp timestamp e.before.wallMs = .ok ()

/-- The unlock is found current. -/
def FindsCurrent (e : AppAct) : Prop :=
  ∃ unlockedAt, e.before.cells .unlockedAt = some unlockedAt ∧
    authSessionIsCurrent e.before.now unlockedAt = true

/-- The secrets in memory are found to be of the pairing. -/
def FindsPairing (pairingId : Uuid) (e : AppAct) : Prop :=
  ∃ secrets, e.before.cells .secrets = some secrets ∧ secrets.pairingId = pairingId

/-- The app is found in the foreground, under the lock of the session
generation. -/
def FindsForeground (e : AppAct) : Prop :=
  e.before.foreground = true ∧ e.before.generationGuard = some e.thread

/-- **Acts of these kinds are among the acts**, in this order, the latest
first. -/
def Preceded : List (AppAct → Prop) → List AppAct → Prop
  | [], _ => True
  | P :: kinds, l => ∃ later e early, l = later ++ e :: early ∧ P e ∧ Preceded kinds early

/-- **Since the frame with the request was read**, and no other since,
acts of these kinds were done. -/
def Judging (stream : Stream) (req : AuthRequest) (kinds : List (AppAct → Prop))
    (l : List AppAct) : Prop :=
  ∃ m e early, l = m ++ e :: early ∧ BringsRequest stream req e ∧
    (∀ b ∈ m, ¬ ReadsFrame b.command) ∧ Preceded kinds m

/-- What is found of a request until it is admitted, the latest first. -/
def foundOf (q : PendingRequest) : List (AppAct → Prop) :=
  [FindsForeground, FindsPairing q.request.pairingId, FindsCurrent,
    FindsFresh q.request.timestamp, FindsNode q.conn.remoteId, FindsSetUp]

/-- **A request comes to the slot rightly**: from the connection that the
thread serves, judged since its frame was read. -/
def EntersRightly (op : AppOp) (l : List AppAct) (q : PendingRequest) : Prop :=
  (∃ streams, op = .serve q.conn streams) ∧ Judging q.send q.request (foundOf q) l

variable {kinds : List (AppAct → Prop)} {l : List AppAct} {e : AppAct} {P : AppAct → Prop}
  {stream : Stream} {req : AuthRequest}

theorem Preceded.cons (h : Preceded kinds l) (e : AppAct) : Preceded kinds (e :: l) := by
  cases kinds with
  | nil => trivial
  | cons P kinds =>
    obtain ⟨later, d, early, rfl, hd, hearly⟩ := h
    exact ⟨e :: later, d, early, rfl, hd, hearly⟩

/-- Of the kinds, the ones found first. -/
theorem Preceded.tail (h : Preceded (P :: kinds) l) : Preceded kinds l := by
  obtain ⟨later, d, early, rfl, -, hearly⟩ := h
  induction later with
  | nil => exact hearly.cons d
  | cons b later ih => exact ih.cons b

theorem Judging.cons (h : Judging stream req kinds l) (he : ¬ ReadsFrame e.command) :
    Judging stream req kinds (e :: l) := by
  obtain ⟨m, d, early, rfl, hd, hm, hkinds⟩ := h
  exact ⟨e :: m, d, early, rfl, hd, List.forall_mem_cons.mpr ⟨he, hm⟩, hkinds.cons e⟩

theorem Judging.found (h : Judging stream req kinds l) (he : ¬ ReadsFrame e.command) (hP : P e) :
    Judging stream req (P :: kinds) (e :: l) := by
  obtain ⟨m, d, early, rfl, hd, hm, hkinds⟩ := h
  exact ⟨e :: m, d, early, rfl, hd, List.forall_mem_cons.mpr ⟨he, hm⟩, [], e, m, rfl, hP, hkinds⟩

theorem Judging.drop (h : Judging stream req (P :: kinds) l) : Judging stream req kinds l := by
  obtain ⟨m, d, early, rfl, hd, hm, hkinds⟩ := h
  exact ⟨m, d, early, rfl, hd, hm, hkinds.tail⟩

/-- What is found first is among the acts since the frame was read. -/
theorem Preceded.mem {Q : AppAct → Prop} (h : Preceded kinds l) (hQ : Q ∈ kinds) :
    ∃ d ∈ l, Q d := by
  induction kinds generalizing l with
  | nil => cases hQ
  | cons P kinds ih =>
    obtain ⟨later, d, early, rfl, hd, hearly⟩ := h
    obtain rfl | hQ := List.mem_cons.mp hQ
    · exact ⟨d, List.mem_append_right _ List.mem_cons_self, hd⟩
    · obtain ⟨b, hb, hQb⟩ := ih hearly hQ
      exact ⟨b, List.mem_append_right _ (List.mem_cons_of_mem _ hb), hQb⟩

/-! ## The discipline of the messages -/

variable [Crypto] {Z : Setting} {t : Nat} {op : AppOp}

/-- **The discipline of the messages.** The lock of the session generation is
not taken from who holds it. -/
def messageDiscipline (Z : Setting) : Discipline (appThreads Z) where
  may _ op l e := ∀ q, Enters e q → EntersRightly op l q
  ends _ _ _ _ := True
  rely := (admissionDiscipline Z).rely
  rely_refl := (admissionDiscipline Z).rely_refl
  rely_trans := (admissionDiscipline Z).rely_trans

/-- **What admits nothing** may run at any time. -/
theorem messages_of_admitsNothing {ε α : Type} {parts : List Part} {p : Prog AppCmd.Reply ε α}
    (hp : Stays parts p) (h : Part.admission ∉ parts) : (messageDiscipline Z).Follows p := by
  refine Follows.only hp fun t op l c r s s' hc _ q he => ?_
  have he : c = .slot (.enter q) := he
  subst he
  exact absurd hc h

/-- **A command is put while a request is judged.** -/
theorem judged_call {α : Type} {c : AppCmd} {k : c.Reply → AppProg α}
    {Q : Except AppError α → List AppAct → Prop} (h : Judging stream req kinds l)
    (hc : c.part ≠ .admission) (hread : ¬ ReadsFrame c)
    (hk : ∀ r s s', (∀ e, l.head? = some e → e.after.generationGuard = some t →
        s.generationGuard = some t) → App.Exec t c s r s' →
      Judging stream req kinds (⟨t, c, r, s, s'⟩ :: l) →
      (messageDiscipline Z).Keeps t op (⟨t, c, r, s, s'⟩ :: l) (k r) Q) :
    (messageDiscipline Z).Keeps t op l (put c >>= k) Q := by
  refine Keeps.call fun r s s' hr hx => ⟨fun q he => ?_, hk r s s' hr hx (h.cons hread)⟩
  have he : c = .slot (.enter q) := he
  exact absurd (by rw [he]; rfl) hc

/-- What is asked of the outside. -/
theorem asked_call {α : Type} {c : OutsideCmd} {k : c.Reply → AppProg α}
    {Q : Except AppError α → List AppAct → Prop}
    (hk : ∀ r s s', (messageDiscipline Z).Keeps t op (⟨t, .ask c, r, s, s'⟩ :: l) (k r) Q) :
    (messageDiscipline Z).Keeps t op l (ask c >>= k) Q :=
  Keeps.call fun r s s' _ _ => ⟨nofun, hk r s s'⟩

/-! ### The checks -/

/-- **The peer is authorized** by the secrets in memory. -/
theorem isAuthorizedAuthPeer_judged (conn : Connection) (h : Judging stream req [] l) :
    (messageDiscipline Z).Keeps t op l (isAuthorizedAuthPeer conn) fun x l' =>
      x = .ok true → Judging stream req [FindsNode conn.remoteId, FindsSetUp] l' := by
  refine judged_call h nofun nofun fun isSetup s s' _ hx _ => ?_
  obtain ⟨rfl, rfl⟩ := App.exec_read.mp hx
  split
  · exact Keeps.pure nofun
  next hsetup =>
  have hset : s'.cells .isSetup = true := by simpa using hsetup
  have hfound : FindsSetUp ⟨t, .read .isSetup, (s'.cells .isSetup, s'.now), s', s'⟩ := hset
  refine judged_call (h.found (by nofun) hfound) nofun nofun fun secrets u u' _ hx _ => ?_
  obtain ⟨rfl, rfl⟩ := App.exec_read.mp hx
  refine Keeps.pure fun hany => (h.found (by nofun) hfound).found (by nofun) ?_
  obtain ⟨secrets, hsome, hnode⟩ := (Option.any_eq_true _ _).mp (Except.ok.inj hany)
  exact ⟨secrets, hsome, (of_decide_eq_true hnode).symm⟩

theorem hasTime_judged (authenticated : Bool) (deadline : Nat)
    (h : Judging stream req kinds l) :
    (messageDiscipline Z).Keeps t op l (hasTime authenticated deadline) fun _ l' =>
      Judging stream req kinds l' := by
  unfold hasTime
  split
  · exact Keeps.pure h
  · exact judged_call h nofun nofun fun _ _ _ _ _ h₁ => Keeps.pure h₁

/-- **A check of the peer that passed was made**, however the connection
was authenticated. -/
theorem authorize_judged (conn : Connection) (authenticated : Bool) (deadline : Nat)
    (h : Judging stream req [] l) :
    (messageDiscipline Z).Keeps t op l
      (authorize authenticated deadline (isAuthorizedAuthPeer conn)) fun x l' =>
        x = .ok true → Judging stream req [FindsNode conn.remoteId, FindsSetUp] l' := by
  refine Keeps.bind (hasTime_judged authenticated deadline h) (fun time l₁ h₁ => ?_)
    fun _ _ _ => nofun
  split
  · refine Keeps.bind (isAuthorizedAuthPeer_judged conn h₁) (fun passed l₂ h₂ => ?_)
      fun _ _ _ => nofun
    cases passed with
    | false =>
      exact asked_call fun late s s' => Keeps.pure nofun
    | true =>
      refine judged_call (h₂ rfl) nofun nofun fun late s s' _ _ h₃ => Keeps.pure fun _ => h₃
  · exact Keeps.pure nofun

/-- **The session is found active**, or it is ended. -/
theorem ensureActiveSession_judged (h : Judging stream req kinds l) :
    (messageDiscipline Z).Keeps t op l ensureActiveSession fun x l' =>
      x = .ok () → Judging stream req (FindsCurrent :: kinds) l' := by
  refine judged_call h nofun nofun fun foreground s s' _ _ h₁ => ?_
  refine Keeps.bind (M := fun x l' => x = .ok true → Judging stream req (FindsCurrent :: kinds) l')
    ?_ (fun active l₂ h₂ => ?_) fun _ _ _ => nofun
  · split
    · refine judged_call h₁ nofun nofun fun unlockedAt u u' _ hx _ => ?_
      obtain ⟨rfl, rfl⟩ := App.exec_read.mp hx
      split
      · next hcurrent =>
        refine judged_call (h₁.found (by nofun) ?_) nofun nofun fun _ v v' _ _ h₃ =>
          Keeps.pure fun _ => h₃
        exact (Option.any_eq_true _ _).mp hcurrent
      · exact Keeps.pure nofun
    · exact Keeps.pure nofun
  · split
    · next hactive =>
      obtain rfl : active = true := hactive
      exact Keeps.pure fun _ => h₂ rfl
    · refine Keeps.bind (M := fun _ _ => True)
        (messages_of_admitsNothing expireSession_stays (by decide) t op l₂) (fun _ _ _ => ?_)
        fun _ _ _ => nofun
      exact Keeps.fail nofun

/-! ### The messages -/

/-- What is left to do admits nothing. -/
theorem admitsNothing_keeps {α : Type} {parts : List Part} {p : AppProg α} (hp : Stays parts p)
    (hparts : Part.admission ∉ parts) : (messageDiscipline Z).Keeps t op l p fun _ _ => True :=
  messages_of_admitsNothing hp hparts t op l

/-- **A request is admitted** where it was judged. -/
theorem admitRequest_judged {conn : Connection} {streams : Nat}
    (h : Judging stream req [FindsPairing req.pairingId, FindsCurrent, FindsFresh req.timestamp,
      FindsNode conn.remoteId, FindsSetUp] l) :
    (messageDiscipline Z).Keeps t (.serve conn streams) l (admitRequest conn stream req)
      fun _ _ => True := by
  refine judged_call h nofun nofun fun _ s₁ s₁' _ hlock h₁ => ?_
  obtain ⟨-, rfl⟩ := App.exec_lockGeneration.mp hlock
  refine Keeps.attempt_bind (M := fun _ _ => True) ?_ fun _ l' _ =>
    admitsNothing_keeps (show Stays [.guard] _ from Prog.Only.bind (stays_put rfl) fun _ =>
      Prog.Only.ofExcept) (by decide)
  refine judged_call h₁ nofun nofun fun foreground s₂ s₂' hr₂ hx₂ _ => ?_
  obtain ⟨rfl, rfl⟩ := App.exec_isForeground.mp hx₂
  split
  · exact admitsNothing_keeps (show Stays [.ask] _ from Prog.Only.bind (stays_put rfl) fun _ =>
      Prog.Only.pure) (by decide)
  next hforeground =>
  -- the foreground is looked at under the lock
  have hfound : FindsForeground ⟨t, .isForeground, s₂'.foreground, s₂', s₂'⟩ :=
    ⟨of_not_not hforeground, hr₂ _ rfl rfl⟩
  refine judged_call (h₁.found (by nofun) hfound) nofun nofun fun instanceId s₃ s₃' _ _ h₃ => ?_
  refine judged_call h₃ nofun nofun fun sessionGeneration s₄ s₄' _ _ h₄ => ?_
  refine judged_call h₄ nofun nofun fun createdAt s₅ s₅' _ _ h₅ => ?_
  refine Keeps.bind (M := fun _ _ => True) ?_ (fun _ _ _ => Keeps.pure trivial)
    fun _ _ _ => trivial
  refine Keeps.call fun r s₆ s₆' _ _ => ⟨fun q he => ?_, Keeps.ret trivial⟩
  obtain rfl := SlotOp.enter.inj (AppCmd.slot.inj he)
  exact ⟨⟨streams, rfl⟩, h₅⟩

/-- **A request of an authorized peer** is judged before it is admitted. -/
theorem serveAuthorizedRequest_judged {conn : Connection} {streams : Nat}
    (h : Judging stream req [FindsCurrent, FindsFresh req.timestamp, FindsNode conn.remoteId,
      FindsSetUp] l) :
    (messageDiscipline Z).Keeps t (.serve conn streams) l (serveAuthorizedRequest conn stream req)
      fun _ _ => True := by
  refine judged_call h nofun nofun fun stored s s' _ hx _ => ?_
  obtain ⟨rfl, rfl⟩ := App.exec_read.mp hx
  cases hstored : s'.cells .secrets with
  | none => exact admitsNothing_keeps (closeAndStop_stays _ _) (by decide)
  | some secrets =>
    by_cases hpairing : secrets.pairingId = req.pairingId
    · have hfound : FindsPairing req.pairingId
          ⟨t, .read .secrets, (some secrets, s'.now), s', s'⟩ := ⟨secrets, hstored, hpairing⟩
      refine Keeps.bind (M := fun x l' => Judging stream req [FindsPairing req.pairingId,
          FindsCurrent, FindsFresh req.timestamp, FindsNode conn.remoteId, FindsSetUp] l')
        (judged_call (h.found (by nofun) hfound) nofun nofun fun _ _ _ _ _ h₂ => Keeps.pure h₂)
        (fun keyAuthenticated l₂ h₂ => ?_) fun _ _ _ => trivial
      rw [if_neg (not_not_intro hpairing)]
      refine Keeps.bind (admitRequest_judged h₂) (fun admitted l₃ _ => ?_) fun _ _ _ => trivial
      match admitted with
      | none => exact Keeps.pure trivial
      | some (identity, .stored) =>
        exact Keeps.bind (M := fun _ _ => True) (admitsNothing_keeps (announceRequest_stays _ _)
          (by decide)) (fun _ _ _ => Keeps.pure trivial) fun _ _ _ => trivial
      | some (_, .busy _) =>
        exact Keeps.bind (M := fun _ _ => True) (admitsNothing_keeps (denyRefused_stays _ _ _ _)
          (by decide)) (fun _ _ _ => Keeps.pure trivial) fun _ _ _ => trivial
      | some (_, .reusedId) =>
        exact Keeps.bind (M := fun _ _ => True) (admitsNothing_keeps (denyRefused_stays _ _ _ _)
          (by decide)) (fun _ _ _ => Keeps.pure trivial) fun _ _ _ => trivial
    · -- of another pairing: the connection is closed
      refine Keeps.bind (M := fun _ _ => True)
        (admitsNothing_keeps approvalKeyAuthenticated_stays (by decide)) (fun _ l₂ _ => ?_)
        fun _ _ _ => trivial
      rw [if_pos hpairing]
      exact admitsNothing_keeps (closeAndStop_stays _ _) (by decide)

/-- **A request** is judged from its frame on. -/
theorem serveRequest_judged {conn : Connection} {streams : Nat} (deadline : Nat)
    (authenticated : Bool) (h : Judging stream req [] l) :
    (messageDiscipline Z).Keeps t (.serve conn streams) l
      (serveRequest conn deadline authenticated stream req) fun _ _ => True := by
  refine Keeps.bind (authorize_judged conn authenticated deadline h) (fun authorized l₁ h₁ => ?_)
    fun _ _ _ => trivial
  cases authorized with
  | false => exact admitsNothing_keeps (closeAndStop_stays _ _) (by decide)
  | true =>
    rw [if_neg (not_not_intro rfl)]
    refine judged_call (h₁ rfl) nofun nofun fun nowMs s s' _ hx _ => ?_
    obtain ⟨rfl, rfl⟩ := App.exec_currentTimeMs.mp hx
    cases hfresh : validateAuthTimestamp req.timestamp s'.wallMs with
    | error e => exact admitsNothing_keeps (closeAndStop_stays _ _) (by decide)
    | ok u =>
      have hfound : FindsFresh req.timestamp ⟨t, .currentTimeMs, s'.wallMs, s', s'⟩ := hfresh
      refine Keeps.attempt_bind (ensureActiveSession_judged ((h₁ rfl).found (by nofun) hfound))
        fun active l₃ h₃ => ?_
      cases active with
      | error e => exact admitsNothing_keeps (closeAndStop_stays _ _) (by decide)
      | ok u => exact serveAuthorizedRequest_judged (h₃ rfl)

/-- **One message**: a request is judged, and nothing else enters. -/
theorem serveMessage_judged {conn : Connection} {streams : Nat} (deadline : Nat)
    (authenticated : Bool) (message : Except String FerusaMessage)
    (h : ∀ req, message = .ok (.request req) → Judging stream req [] l) :
    (messageDiscipline Z).Keeps t (.serve conn streams) l
      (serveMessage conn deadline authenticated stream message) fun _ _ => True := by
  unfold serveMessage
  split
  · exact admitsNothing_keeps (servePing_stays _ _ _ _) (by decide)
  · exact admitsNothing_keeps (servePairingCommit_stays _ _ _ _ _) (by decide)
  · exact admitsNothing_keeps (servePairingActivate_stays _ _ _ _ _) (by decide)
  · next req => exact serveRequest_judged deadline authenticated (h req rfl)
  · exact admitsNothing_keeps (serveOther_stays _ _ _) (by decide)
  · exact admitsNothing_keeps (serveOther_stays _ _ _) (by decide)

/-- **A stream**: what was read from it is what is judged. -/
theorem serveStream_judged {conn : Connection} {streams : Nat} (deadline : Nat)
    (authenticated : Bool) :
    (messageDiscipline Z).Keeps t (.serve conn streams) l
      (serveStream conn deadline authenticated) fun _ _ => True := by
  have htime : ∀ l, (messageDiscipline Z).Keeps t (.serve conn streams) l
      (hasTime authenticated deadline) fun _ _ => True :=
    fun l => admitsNothing_keeps (hasTime_stays _ _) (by decide)
  refine Keeps.bind (htime l) (fun time l₁ _ => ?_) fun _ _ _ => trivial
  split
  · exact admitsNothing_keeps (closeAndStop_stays _ _) (by decide)
  refine asked_call fun accepted s s' => ?_
  cases accepted with
  | failed e => exact Keeps.pure trivial
  | timedOut => exact admitsNothing_keeps (closeAndStop_stays _ _) (by decide)
  | ok stream =>
    refine Keeps.bind (htime _) (fun time l₂ _ => ?_) fun _ _ _ => trivial
    split
    · exact admitsNothing_keeps (closeAndStop_stays _ _) (by decide)
    refine asked_call fun data u u' => ?_
    cases data with
    | failed e => exact admitsNothing_keeps (serveOther_stays _ _ _) (by decide)
    | timedOut => exact admitsNothing_keeps (closeAndStop_stays _ _) (by decide)
    | ok message =>
      refine serveMessage_judged deadline authenticated message fun req hmessage => ?_
      subst hmessage
      exact ⟨[], _, _, rfl, ⟨t, u, u', rfl⟩, List.forall_mem_nil _, trivial⟩

theorem serveStreams_judged {conn : Connection} {streams : Nat} (deadline : Nat) (left : Nat)
    (authenticated : Bool) :
    (messageDiscipline Z).Keeps t (.serve conn streams) l
      (serveStreams conn deadline left authenticated) fun _ _ => True := by
  induction left generalizing l authenticated with
  | zero => exact Keeps.pure trivial
  | succ left ih =>
    refine Keeps.bind (serveStream_judged deadline authenticated) (fun served l₁ _ => ?_)
      fun _ _ _ => trivial
    cases served with
    | stop => exact Keeps.pure trivial
    | next authenticated => exact ih authenticated

/-- **The programs keep the discipline.** -/
theorem messageDiscipline_valid (Z : Setting) : (messageDiscipline Z).Valid where
  keeps t op := by
    by_cases hop : ∃ conn streams, op = .serve conn streams
    · obtain ⟨conn, streams, rfl⟩ := hop
      refine Keeps.bind (M := fun _ _ => True)
        (admitsNothing_keeps (show Stays [.clock] _ from stays_put rfl) (by decide))
        (fun now l₁ _ => ?_) fun _ _ _ => trivial
      exact serveStreams_judged _ streams false
    · have hstays : Stays admitsNothing op.program :=
        AppOp.program_stays fun conn streams h => hop ⟨conn, streams, h⟩
      exact messages_of_admitsNothing hstays (by decide) t op []
  put htu hx _ hg := generationGuard_kept hx htu.symm hg
  start hstart hg := by
    obtain ⟨spawned, rfl⟩ := AppOp.Starts.spawned hstart
    exact hg
  env he hg := by
    obtain ⟨he, -⟩ := he
    cases he <;> exact hg

/-! ## Whose requests enter -/

/-- **A request is the desktop's**: it was sent by the node that a record of
the store names, and names the pairing of a record itself; both were in
memory when the thread looked. -/
structure OfDesktop (earlier : List AppAct) (q : PendingRequest) : Prop where
  node : ∃ e ∈ earlier, ∃ generation, HoldsRecord e generation ∧
    generation.cliNodeId = q.conn.remoteId
  pairing : ∃ e ∈ earlier, ∃ generation, HoldsRecord e generation ∧
    generation.pairingId = q.request.pairingId

omit [Crypto] in
/-- **What a thread has found in memory** was loaded from a record. -/
theorem loaded_record {w : AppLog} (hknown : ∀ e earlier, w.Happened e earlier →
      SecretsKnown earlier e.before) {e d : AppAct} {earlier : List AppAct} {t : Nat}
    (he : w.Happened e earlier) (hd : d ∈ earlier.filter fun b => b.thread = t)
    {secrets : AppSecrets} (hs : d.before.cells .secrets = some secrets) :
    ∃ b ∈ earlier, ∃ generation, HoldsRecord b generation ∧
      secrets = generation.intoStateSecrets := by
  obtain ⟨later, hacts⟩ := he
  obtain ⟨m, early, hearlier⟩ := List.append_of_mem (List.mem_of_mem_filter hd)
  have hhappened : w.Happened d early := ⟨later ++ e :: m, by rw [hacts, hearlier]; simp⟩
  obtain ⟨b, hb, generation, hrecord, hsecrets⟩ := (hknown d early hhappened).loaded secrets hs
  refine ⟨b, ?_, generation, hrecord, hsecrets⟩
  rw [hearlier]
  exact List.mem_append_right _ (List.mem_cons_of_mem _ hb)

omit [Crypto] in
/-- What was found of a request was found by an act of the thread. -/
theorem Judging.mem (h : Judging stream req kinds l)
    {P : AppAct → Prop} (hP : P ∈ kinds) : ∃ d ∈ l, P d := by
  obtain ⟨m, d, early, rfl, -, -, hfound⟩ := h
  obtain ⟨b, hb, hPb⟩ := hfound.mem hP
  exact ⟨b, List.mem_append_left _ hb, hPb⟩

/-- **Only the desktop's requests are shown**, whoever connects and whatever
is sent, and whatever else goes on: whenever a request comes to the slot,
the thread serves the connection it came by, and since the frame with it
was read, from the stream that it will be answered on, has found the phone
set up, the secrets in memory to name the node at the other end, the
timestamp fresh, the session unlocked, the secrets of the pairing that is
asked for, and the app in the foreground, in this order. The request is
dated to the session generation there is, and the secrets were those of
records in the store. -/
theorem only_desktop_requests {store : Store} {now epoch : Nat} {clock : ClockSnapshot}
    {usedUuids : List Uuid} {p : (appThreads .any).Running}
    (hp : (appThreads .any).Reaches (App.boot store now epoch clock usedUuids) p) {e : AppAct}
    {earlier : List AppAct} (he : p.state.Happened e earlier) {q : PendingRequest}
    (hq : Enters e q) :
    (∃ streams, p.state.ops e.thread = some (.serve q.conn streams)) ∧
      Judging q.send q.request (foundOf q) (earlier.filter fun d => d.thread = e.thread) ∧
      e.before.generation = q.identity.sessionGeneration ∧ OfDesktop earlier q := by
  obtain ⟨op, hop, -, hmay⟩ := (messageDiscipline_valid .any).followed hp e earlier he
  obtain ⟨⟨streams, rfl⟩, hjudged⟩ := hmay q hq
  obtain ⟨op', -, -, hinstance⟩ := (instanceDiscipline_valid .any).followed hp e earlier he
  obtain ⟨a, ha, secrets, hs, hnode⟩ := hjudged.mem (P := FindsNode q.conn.remoteId)
    (by simp [foundOf])
  obtain ⟨b, hb, other, hother, hpairing⟩ := hjudged.mem (P := FindsPairing q.request.pairingId)
    (by simp [foundOf])
  refine ⟨⟨streams, hop⟩, hjudged, (hinstance.drafts q hq).generation, ?_, ?_⟩
  · obtain ⟨c, hc, generation, hrecord, rfl⟩ := loaded_record (secrets_known hp) he ha hs
    exact ⟨c, hc, generation, hrecord, hnode⟩
  · obtain ⟨c, hc, generation, hrecord, rfl⟩ := loaded_record (secrets_known hp) he hb hother
    exact ⟨c, hc, generation, hrecord, hpairing⟩

omit [Crypto] in
/-- A request of the desktop is shown, while somebody else sends the same
one. -/
theorem only_desktop_requests_shown : ∃ p : (@appThreads Crypto.plain .any).Running,
    (p.state.acts.filterMap AppAct.admitted).map PendingRequest.request = [shareRequest] ∧
    ∀ e earlier, p.state.Happened e earlier → ∀ q, Enters e q → OfDesktop earlier q := by
  have hresult : (@playNext Crypto.plain [.start 0 .checkSetup, .run 0 willing 200,
      .start 0 (.setAppForeground true), .run 1 willing 200,
      .start 0 .biometricUnlock, .run 2 willing 200,
      .start 0 (.serve ⟨1, Vector.replicate 32 9⟩ 1), .run 3 (bringing (.request shareRequest)) 200,
      .start 0 (.serve desktop 1), .run 4 (bringing (.request shareRequest)) 200]).map (fun p =>
        (p.state.acts.filterMap AppAct.admitted).map PendingRequest.request) =
      some [shareRequest] := by decide +kernel
  obtain ⟨p, hp, hresult⟩ := Option.map_eq_some_iff.mp hresult
  obtain ⟨store, -, hp⟩ := Option.bind_eq_some_iff.mp hp
  refine ⟨p, hresult, fun e earlier he q hq => ?_⟩
  exact (@only_desktop_requests Crypto.plain _ _ _ _ _ _ (Player.play_sound hp) _ _ he _ hq).2.2.2

/-! ## Messages that are late -/

/-- **The wall clock goes with the other one**, in a run of one process. -/
theorem epoch_kept {s₀ : App} {p : (appThreads .steady).Running}
    (hp : (appThreads .steady).Reaches s₀ p) :
    ∀ e earlier, p.state.Happened e earlier → e.before.epoch = s₀.epoch := by
  refine (messageDiscipline_valid .steady).chronicle (I := fun _ s => s.epoch = s₀.epoch)
    rfl (fun h hx _ => hx.aside.epoch.trans h) ?_ ?_ ?_ hp
  · intro w op s' h hstart
    obtain ⟨spawned, rfl⟩ := AppOp.Starts.spawned hstart
    exact h
  · exact fun h he => he.2.trans h
  · exact fun _ hcrash => hcrash.2.elim

omit [Crypto] in
/-- A timestamp is fresh for ten minutes, and for what is left of a
millisecond. -/
theorem FindsFresh.near {timestamp : Nat} {a b : AppAct} (ha : FindsFresh timestamp a)
    (hb : FindsFresh timestamp b) (hepoch : b.before.epoch = a.before.epoch) :
    b.before.now < a.before.now + authSessionTtl + 10 ^ 6 := by
  obtain ⟨-, hfuture⟩ := validateAuthTimestamp_eq_ok_iff.mp ha
  obtain ⟨hold, -⟩ := validateAuthTimestamp_eq_ok_iff.mp hb
  have hwall : b.before.wallMs ≤ a.before.wallMs + 2 * authTimestampMaxSkewMs := by omega
  have hdivided : (b.before.now + b.before.epoch) / 10 ^ 6 ≤
      (a.before.now + a.before.epoch) / 10 ^ 6 + 2 * (5 * 60 * 1000) := hwall
  show b.before.now < a.before.now + 10 * 60 * 10 ^ 9 + 10 ^ 6
  omega

/-- **When a message can be late**: only if, from the moment at which its
timestamp was found fresh, it has waited for the slot as long as the
message that was admitted had, but for a millisecond. -/
theorem late_waited {s₀ : App} {p : (appThreads .steady).Running}
    (hp : (appThreads .steady).Reaches s₀ p) {e d : AppAct} {earlier early : List AppAct}
    (he : p.state.Happened e earlier) (hd : p.state.Happened d early) {q q' : PendingRequest}
    (hq : Enters e q) (hq' : Admits d q') (hsame : SameRequest q' q)
    (hlate : authSessionTtl ≤ q.identity.createdAt - q'.identity.createdAt) :
    ∃ a ∈ early, ∃ b ∈ earlier, a.thread = d.thread ∧ b.thread = e.thread ∧
      FindsFresh q'.request.timestamp a ∧ FindsFresh q.request.timestamp b ∧
      q'.identity.createdAt - a.before.now < q.identity.createdAt - b.before.now + 10 ^ 6 := by
  have hfound : ∀ {e : AppAct} {earlier : List AppAct} {q : PendingRequest},
      p.state.Happened e earlier → Enters e q →
      ∃ b ∈ earlier, b.thread = e.thread ∧ FindsFresh q.request.timestamp b ∧
        b.before.epoch = s₀.epoch := by
    intro e earlier q he hq
    obtain ⟨op, -, -, hmay⟩ := (messageDiscipline_valid .steady).followed hp e earlier he
    obtain ⟨b, hb, hfresh⟩ := (hmay q hq).2.mem (P := FindsFresh q.request.timestamp)
      (by simp [foundOf])
    obtain ⟨hb, hthread⟩ := List.mem_filter.mp hb
    obtain ⟨later, hacts⟩ := he
    have hmem : b ∈ p.state.acts := by
      rw [hacts]
      exact List.mem_append_right _ (List.mem_cons_of_mem _ hb)
    obtain ⟨before, hbefore⟩ := Log.happened_of_mem hmem
    exact ⟨b, hb, of_decide_eq_true hthread, hfresh, epoch_kept hp b before hbefore⟩
  obtain ⟨a, ha, hat, hafresh, haepoch⟩ := hfound hd hq'.enters
  obtain ⟨b, hb, hbt, hbfresh, hbepoch⟩ := hfound he hq
  have hnear := hafresh.near (hsame.2 ▸ hbfresh) (hbepoch.trans haepoch.symm)
  have hpositive : 0 < authSessionTtl := by decide
  exact ⟨a, ha, b, hb, hat, hbt, hafresh, hbfresh, by omega⟩

end Phone
