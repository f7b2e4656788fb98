import Ferusa.Lib.History
import Ferusa.Joint.Framing
import Ferusa.Desktop.SessionApproval

/-!
# How a request reaches the phone

Within a session a request goes over the persistent connection, when
there is one, and over a connection of its own otherwise. A persistent
connection may be stale, and then the phone is dialled anew and the
request put a second time. What decides is a flag, set **before** the
write: an attempt that failed with the flag down has written nothing.

Every await may end well, with an error, by the timeout of its stage, or
by the total deadline of the attempt it is in, which cuts the attempt
off wherever it stands.
-/

namespace Desktop

/-! ## Awaiting -/

/-- A stream of a connection, by number. -/
abbrev Stream := Nat

/-- How a stage ends that is not cut off. -/
inductive Staged (α : Type) where
  | done (a : α)
  | failed (e : String)
  | timedOut

/-- What a program asks of the network, next to what it asks as any
program of the desktop. -/
inductive NetCmd where
  | desk (c : DeskCmd)
  | phoneConn
  | setPhoneConn (conn : Option Conn)
  | dialPhone (node : Bytes32)
  | connect (node : Bytes32)
  | openBi (conn : Conn)
  | writeAll (stream : Stream) (bytes : Bytes)
  | finish (stream : Stream)
  | recvAll (stream : Stream)
  | setDeliveryStarted (started : Bool)
  | deliveryStarted

/-- What the network answers. Within an attempt with a total deadline
nothing is the answer of a stage that the deadline cuts off. -/
abbrev NetCmd.Reply : NetCmd → Type
  | desk c => c.Reply
  | phoneConn => Option Conn
  | setPhoneConn _ => Unit
  | dialPhone _ => Staged Conn
  | connect _ => Option (Staged Conn)
  | openBi _ => Option (Staged Stream)
  | writeAll _ _ => Option (Staged Unit)
  | finish _ => Except String Unit
  | recvAll _ => Option (Staged Bytes)
  | setDeliveryStarted _ => Unit
  | deliveryStarted => Bool

/-- A program that talks to the phone over the network. -/
abbrev NetProg (ε α : Type) := Prog NetCmd.Reply ε α

/-- Why an attempt ends without a response. -/
inductive Cut where
  | failed (e : Anyhow)
  | deadline

namespace NetProg

variable {ε α : Type}

/-- Ask the network. -/
def net (c : NetCmd) : NetProg ε c.Reply :=
  Prog.perform c

/-- A part that does not use the network. -/
def desk (p : DeskProg α) : NetProg Anyhow α :=
  p.hoist NetCmd.desk fun _ r => r

/-- What comes of a stage, with the messages of its timeout and of its own
error. -/
def stage (message : String) (context : List String) : Option (Staged α) → NetProg Cut α
  | none => .fail .deadline
  | some (.done a) => .ret a
  | some (.failed e) => .fail (.failed (context ++ [e]))
  | some .timedOut => .fail (.failed [message, "deadline has elapsed"])

end NetProg

open NetProg

/-! ## One attempt -/

/-- `PersistentApprovalError`. -/
inductive PersistentApprovalError where
  | beforeDelivery (source : Anyhow)
  | deliveryUncertain (source : Anyhow)

namespace PersistentApprovalError

/-- `retry_is_safe`. -/
def retryIsSafe : PersistentApprovalError → Bool
  | beforeDelivery _ => true
  | deliveryUncertain _ => false

/-- `from_delivery_state`. -/
def fromDeliveryState (deliveryStarted : Bool) (source : Anyhow) : PersistentApprovalError :=
  if deliveryStarted then deliveryUncertain source else beforeDelivery source

/-- The error and its source, as a chain. -/
def toAnyhow : PersistentApprovalError → Anyhow
  | beforeDelivery source =>
    ("persistent approval failed before request delivery: " ++ ": ".intercalate source) :: source
  | deliveryUncertain source =>
    ("persistent approval failed after request delivery may have started: " ++
      ": ".intercalate source) :: source

end PersistentApprovalError

variable (serde : SerdeJson) (usizeMax : Nat)

/-- The encoded request. -/
def encodeAuthRequest (req : AuthRequest) : NetProg Cut Bytes :=
  Prog.ofExcept (((FerusaMessage.request req).encode serde).mapError fun e =>
    .failed ["encode AuthRequest", e.toString])

/-- What is read from a stream, as a response. -/
def decodeAuthResponse (unexpected : String) (received : Bytes) : NetProg Cut AuthResponse :=
  match FerusaMessage.decode serde usizeMax received with
  | .ok (.response resp) => .ret resp
  | .ok _ => .fail (.failed [unexpected])
  | .error (.failed e) => .fail (.failed ["decode AuthResponse", e.toString])
  | .error .panicked => .fail (.failed ["decode AuthResponse"])

/-- The request is written and the response read, on a stream that is
open. -/
def exchangeOnStream (finishMessage unexpected : String) (stream : Stream) (bytes : Bytes) :
    NetProg Cut AuthResponse := do
  let r ← net (.writeAll stream bytes)
  stage "timed out sending AuthRequest (10s)" [] r
  let r : Except String Unit ← net (.finish stream)
  Prog.ofExcept (r.mapError fun e => .failed [finishMessage, e])
  let r ← net (.recvAll stream)
  let received ← stage "timed out waiting for phone response (60s)" ["read recv stream"] r
  decodeAuthResponse serde usizeMax unexpected received

/-- What `PhoneConnection::request_approval` does within its total
deadline. -/
def attemptApproval (conn : Conn) (req : AuthRequest) : NetProg Cut AuthResponse := do
  let r ← net (.openBi conn)
  let stream ← stage "timed out opening auth stream (10s)" [] r
  let bytes ← encodeAuthRequest serde req
  net (.setDeliveryStarted true)
  exchangeOnStream serde usizeMax "finish auth send" "phone sent a non-response message" stream
    bytes

/-- The error of an attempt, with the message of its total deadline. -/
def Cut.source (message : String) : Cut → Anyhow
  | failed e => e
  | deadline => [message, "deadline has elapsed"]

/-- **`PhoneConnection::request_approval`.** -/
def PhoneConnection.requestApproval (conn : Conn) (req : AuthRequest) :
    NetProg PersistentApprovalError AuthResponse := do
  net (.setDeliveryStarted false)
  let result ← (attemptApproval serde usizeMax conn req).attempt
  match result with
  | .ok resp => .ret resp
  | .error cut => do
    let started ← net .deliveryStarted
    .fail (PersistentApprovalError.fromDeliveryState started
      (cut.source "approval request exceeded the total 70s deadline"))

/-- `CliPeer::send_auth_request_on_with_path_report`. -/
def sendAuthRequestOn (node : Bytes32) (req : AuthRequest) : NetProg Anyhow AuthResponse :=
  Prog.mapError
    (Cut.source "authentication request exceeded the total 75s deadline") do
    let r ← net (.connect node)
    let conn ← stage "timed out connecting to phone (15s)" [] r
    let r ← net (.openBi conn)
    let stream ← stage "timed out opening bidirectional stream (10s)" [] r
    let bytes ← encodeAuthRequest serde req
    exchangeOnStream serde usizeMax "finish send stream" "phone sent a non-Response message" stream
      bytes

/-- `session_conn::dial_phone`. -/
def dialPhone (node : Bytes32) : NetProg Anyhow Conn := do
  let r : Staged Conn ← net (.dialPhone node)
  match r with
  | .done conn => .ret conn
  | .failed e => .fail ["connect to phone", e]
  | .timedOut => .fail ["timed out connecting to phone", "deadline has elapsed"]

/-! ## The session -/

/-- The stale connection is dropped from the session, unless it was
replaced already. -/
def dropPhoneConn (conn : Conn) : NetProg Anyhow Unit := do
  let s : Option SessionState ← net (.desk .getSession)
  match s with
  | some _ => do
    let stored : Option Conn ← net .phoneConn
    if stored = some conn then net (.setPhoneConn none) else .ret ()
  | none => .ret ()

/-- The phone is dialled anew, and the request put again. -/
def redial (node : Bytes32) (req : AuthRequest) : NetProg Anyhow AuthResponse := do
  let replacement ← (dialPhone node).mapError fun e =>
    "redial phone after stale persistent connection" :: e
  let resp ← (PhoneConnection.requestApproval serde usizeMax replacement req).mapError fun e =>
    "iroh redialed persistent request_approval" :: e.toAnyhow
  let _ ← desk DeskProg.session
  net (.setPhoneConn (some replacement))
  .ret resp

/-- **The request is sent** over the connection there is, as
`request_approval_for_session` does. -/
def sendForSession (phoneConn : Option Conn) (node : Bytes32) (req : AuthRequest) :
    NetProg Anyhow AuthResponse :=
  match phoneConn with
  | some conn => do
    let result ← (PhoneConnection.requestApproval serde usizeMax conn req).attempt
    match result with
    | .ok resp => .ret resp
    | .error e =>
      if e.retryIsSafe = true then do
        dropPhoneConn conn
        redial serde usizeMax node req
      else .fail ("iroh persistent request_approval" :: e.toAnyhow)
  | none =>
    (sendAuthRequestOn serde usizeMax node req).mapError fun e => "iroh send_auth_request" :: e

section

variable [Crypto]

/-- The exchange of `request_approval_for_session`, over the network. -/
def exchangeOverConnection (req : AuthRequest) : NetProg Anyhow ApprovalResult := do
  let s ← desk DeskProg.session
  let pairing ← Prog.okOr "session missing pairing data" s.pairing
  let phoneConn : Option Conn ← net .phoneConn
  Prog.ensure (s.endpoint = true) "real 2FA endpoint unavailable"
  let resp ← sendForSession serde usizeMax phoneConn pairing.phoneNodeId req
  desk (judgeResponse req pairing resp)

/-- **`request_approval_for_session`**, over the network. -/
def requestApprovalOverConnection (action : VaultAction) (entryTitle : Option String)
    (unlockShareRequested : Bool) : NetProg Anyhow ApprovalResult := do
  let req ← desk (registerRequest action entryTitle unlockShareRequested)
  let result ← (exchangeOverConnection serde usizeMax req).attempt
  desk (cleanPendingRequest req.requestId)
  Prog.ofExcept result

end

/-! ## What the network does -/

/-- What a command does to the flag. -/
def NetCmd.exec : (c : NetCmd) → Bool → c.Reply → Bool → Prop
  | .setDeliveryStarted started, _, _, s' => s' = started
  | .deliveryStarted, s, r, s' => r = s ∧ s' = s
  | _, s, _, s' => s' = s

/-- **The request is handed over** by the command. -/
def NetCmd.Sends : NetCmd → Prop
  | .writeAll _ _ => True
  | .desk (.env (.sendAuthRequest _ _)) => True
  | _ => False

/-- **The command opens the way** to hand the request over. -/
def NetCmd.Opens : NetCmd → Prop
  | .dialPhone _ => True
  | .connect _ => True
  | .openBi _ => True
  | _ => False

/-- Nothing was handed over. -/
def Unsent (past : List (Event NetCmd.Reply)) : Prop :=
  ∀ e ∈ past, ¬ e.command.Sends

/-- **What may be put when**: nothing is handed over, and no way to do so
opened, after something was. -/
def MayPut (c : NetCmd) (past : List (Event NetCmd.Reply)) : Prop :=
  c.Sends ∨ c.Opens → Unsent past

/-- The flag, and what was put so far. -/
abbrev NetState := Recorded NetCmd.Reply Bool

/-- The setting of a program on the network. -/
abbrev netLogic : Logic NetCmd.Reply NetState :=
  recordedLogic NetCmd.exec (fun _ => True) fun c s => MayPut c s.past

variable {ε α : Type}

/-- **One command.** -/
theorem net_runs {c : NetCmd} {P : NetState → Prop} {Q : c.Reply → NetState → Prop}
    {E : ε → NetState → Prop} (hmay : ∀ s, P s → MayPut c s.past)
    (hQ : ∀ s r s', P s → c.exec s.state r s'.state → s'.past = ⟨c, r⟩ :: s.past → Q r s') :
    netLogic.Triple P (net c) Q E :=
  Logic.Triple.perform (stable_recorded P) (fun _ => stable_recorded _) fun s r s' _ hP hx =>
    ⟨⟨c, r, hx, hmay s hP⟩, hQ s r s' hP hx.1 hx.2⟩

/-- A stage returns what it was answered. -/
theorem netStage_runs {message : String} {context : List String} {r : Option (Staged α)}
    {P : NetState → Prop} :
    netLogic.Triple P (stage message context r) (fun a s => r = some (.done a) ∧ P s)
      fun _ => P := by
  have hst : netLogic.Stable P := stable_recorded P
  unfold stage
  split
  · exact .fail hst fun _ _ h => h
  · exact .ret hst fun _ _ h => ⟨rfl, h⟩
  · exact .fail hst fun _ _ h => h
  · exact .fail hst fun _ _ h => h

/-! ## One attempt -/

/-- **A response to the request was received** on the stream it was written
to. -/
def Answered (req : AuthRequest) (resp : AuthResponse) (past : List (Event NetCmd.Reply)) : Prop :=
  ∃ stream bytes written received,
    (FerusaMessage.request req).encode serde = .ok bytes ∧
    (⟨.writeAll stream bytes, written⟩ : Event NetCmd.Reply) ∈ past ∧
    (⟨.recvAll stream, some (.done received)⟩ : Event NetCmd.Reply) ∈ past ∧
    FerusaMessage.decode serde usizeMax received = .ok (.response resp)

variable {serde usizeMax}

theorem Answered.cons {req : AuthRequest} {resp : AuthResponse} {past : List (Event NetCmd.Reply)}
    (h : Answered serde usizeMax req resp past) (e : Event NetCmd.Reply) :
    Answered serde usizeMax req resp (e :: past) := by
  obtain ⟨stream, bytes, written, received, henc, hw, hr, hdec⟩ := h
  exact ⟨stream, bytes, written, received, henc, List.mem_cons_of_mem _ hw,
    List.mem_cons_of_mem _ hr, hdec⟩

theorem Unsent.cons {past : List (Event NetCmd.Reply)} (h : Unsent past)
    {e : Event NetCmd.Reply} (he : ¬ e.command.Sends) : Unsent (e :: past) := by
  intro e' he'
  cases he' with
  | head => exact he
  | tail _ hmem => exact h e' hmem

/-- **The exchange on a stream**: a response is to what was written. The
flag stays as it is. -/
theorem exchangeOnStream_runs {finishMessage unexpected : String} {stream : Stream}
    {bytes : Bytes} {req : AuthRequest} {b : Bool}
    (henc : (FerusaMessage.request req).encode serde = .ok bytes) :
    netLogic.Triple (fun s => Unsent s.past ∧ s.state = b)
      (exchangeOnStream serde usizeMax finishMessage unexpected stream bytes)
      (fun resp s => Answered serde usizeMax req resp s.past) fun _ s => s.state = b := by
  let Written : NetState → Prop := fun s => s.state = b ∧
    ∃ r, (⟨.writeAll stream bytes, r⟩ : Event NetCmd.Reply) ∈ s.past
  let Received : Bytes → NetState → Prop := fun received s => Written s ∧
    (⟨.recvAll stream, some (.done received)⟩ : Event NetCmd.Reply) ∈ s.past
  have hkept : ∀ (s s' : NetState) (e : Event NetCmd.Reply), Written s → s'.state = s.state →
      s'.past = e :: s.past → Written s' := by
    rintro s s' e ⟨hstate, r, hmem⟩ hstate' hpast
    exact ⟨hstate'.trans hstate, r, by rw [hpast]; exact List.mem_cons_of_mem _ hmem⟩
  unfold exchangeOnStream
  refine .bind (M := fun _ => Written) (net_runs (fun s h _ => h.1) ?_) fun r => ?_
  · intro s r s' h hx hpast
    exact ⟨Eq.trans hx h.2, r, by rw [hpast]; exact List.mem_cons_self⟩
  refine .bind (M := fun _ => Written) (netStage_runs.conseq (fun _ _ h => h) (fun _ _ _ h => h.2)
    fun _ _ _ h => h.1) fun _ => ?_
  refine .bind (M := fun _ => Written) (net_runs (fun s _ h => ?_) ?_) fun r => ?_
  · exact absurd h (by simp [NetCmd.Sends, NetCmd.Opens])
  · intro s r s' h hx hpast
    exact hkept s s' _ h hx hpast
  refine .bind (M := fun _ => Written) (.ofExcept (stable_recorded _) (fun _ _ _ _ h => h)
    fun _ _ _ _ h => h.1) fun _ => ?_
  refine .bind (M := fun r s => Written s ∧
      (⟨.recvAll stream, r⟩ : Event NetCmd.Reply) ∈ s.past) (net_runs (fun s _ h => ?_) ?_)
    fun r => ?_
  · exact absurd h (by simp [NetCmd.Sends, NetCmd.Opens])
  · intro s r s' h hx hpast
    exact ⟨hkept s s' _ h hx hpast, by rw [hpast]; exact List.mem_cons_self⟩
  refine .bind (M := Received) (netStage_runs.conseq (fun _ _ h => h) ?_ fun _ _ _ h => h.1.1)
    fun received => ?_
  · rintro received s - ⟨rfl, h⟩
    exact h
  unfold decodeAuthResponse
  split
  · next resp hdec =>
    refine .ret (stable_recorded _) fun s _ h => ?_
    obtain ⟨⟨-, written, hw⟩, hr⟩ := h
    exact ⟨stream, bytes, written, received, henc, hw, hr, hdec⟩
  · exact .fail (stable_recorded _) fun _ _ h => h.1.1
  · exact .fail (stable_recorded _) fun _ _ h => h.1.1
  · exact .fail (stable_recorded _) fun _ _ h => h.1.1

/-- A request that is encoded. -/
theorem encodeAuthRequest_runs {req : AuthRequest} {P : NetState → Prop} :
    netLogic.Triple P (encodeAuthRequest serde req)
      (fun bytes s => (FerusaMessage.request req).encode serde = .ok bytes ∧ P s)
      fun _ => P := by
  unfold encodeAuthRequest
  cases (FerusaMessage.request req).encode serde with
  | ok bytes => exact .ret (stable_recorded _) fun _ _ h => ⟨rfl, h⟩
  | error e => exact .fail (stable_recorded _) fun _ _ h => h

/-- **An attempt that fails with the flag down has handed nothing over.** -/
theorem attemptApproval_runs {conn : Conn} {req : AuthRequest} :
    netLogic.Triple (fun s => Unsent s.past ∧ s.state = false)
      (attemptApproval serde usizeMax conn req)
      (fun resp s => Answered serde usizeMax req resp s.past)
      fun _ s => s.state = false → Unsent s.past := by
  unfold attemptApproval
  refine .bind (M := fun _ s => Unsent s.past ∧ s.state = false)
    (net_runs (fun s h _ => h.1) ?_) fun r => ?_
  · intro s r s' h hx hpast
    refine ⟨?_, Eq.trans hx h.2⟩
    rw [hpast]
    exact h.1.cons (by simp [NetCmd.Sends])
  refine .bind (M := fun _ s => Unsent s.past ∧ s.state = false)
    (netStage_runs.conseq (fun _ _ h => h) (fun _ _ _ h => h.2) fun _ _ _ h _ => h.1) fun stream => ?_
  refine .bind (encodeAuthRequest_runs.conseq (fun _ _ h => h) (fun _ _ _ h => h)
    fun _ _ _ h _ => h.1) fun bytes => ?_
  refine .given fun henc => ?_
  refine .bind (M := fun _ s => Unsent s.past ∧ s.state = true)
    (net_runs (fun s h _ => h.1) ?_) fun _ => ?_
  · intro s r s' h hx hpast
    refine ⟨?_, hx⟩
    rw [hpast]
    exact h.1.cons (by simp [NetCmd.Sends])
  exact (exchangeOnStream_runs henc).conseq (fun _ _ h => h) (fun _ _ _ h => h)
    fun _ s _ h hdown => Bool.noConfusion (h.symm.trans hdown)

/-- **`request_approval` answers, or says whether anything was handed
over.** -/
theorem requestApproval_runs {conn : Conn} {req : AuthRequest} :
    netLogic.Triple (fun s => Unsent s.past)
      (PhoneConnection.requestApproval serde usizeMax conn req)
      (fun resp s => Answered serde usizeMax req resp s.past)
      fun e s => e.retryIsSafe = true → Unsent s.past := by
  unfold PhoneConnection.requestApproval
  refine .bind (M := fun _ s => Unsent s.past ∧ s.state = false) (net_runs (fun s h _ => h) ?_)
    fun _ => ?_
  · intro s r s' h hx hpast
    refine ⟨?_, hx⟩
    rw [hpast]
    exact h.cons (by simp [NetCmd.Sends])
  refine .bind (M := fun result s => match result with
    | .ok resp => Answered serde usizeMax req resp s.past
    | .error _ => s.state = false → Unsent s.past)
    (.attempt (attemptApproval_runs)) fun result => ?_
  cases result with
  | ok resp => exact .ret (stable_recorded _) fun _ _ h => h
  | error cut =>
    refine .bind (M := fun started s => started = false → Unsent s.past)
      (net_runs (fun s _ h => ?_) ?_) fun started => ?_
    · exact absurd h (by simp [NetCmd.Sends, NetCmd.Opens])
    · intro s started s' h hx hpast hdown
      rw [hpast]
      exact (h (hx.1.symm.trans hdown)).cons (by simp [NetCmd.Sends])
    · refine .fail (stable_recorded _) fun s _ h hretry => h ?_
      cases started with
      | false => rfl
      | true => cases hretry

/-- The attempt over a connection of its own. -/
theorem sendAuthRequestOn_runs {node : Bytes32} {req : AuthRequest} :
    netLogic.Triple (fun s => Unsent s.past) (sendAuthRequestOn serde usizeMax node req)
      (fun resp s => Answered serde usizeMax req resp s.past) fun _ _ => True := by
  unfold sendAuthRequestOn
  refine .mapError ?_
  have hopen : ∀ {c : NetCmd}, ¬ c.Sends → netLogic.Triple (fun s => Unsent s.past)
      (net c : NetProg Cut c.Reply) (fun _ s => Unsent s.past) fun _ _ => True := by
    intro c hc
    refine net_runs (fun s h _ => h) fun s r s' h _ hpast => ?_
    rw [hpast]
    exact h.cons hc
  have hstage : ∀ {α : Type} {message : String} {r : Option (Staged α)},
      netLogic.Triple (fun s => Unsent s.past) (stage message [] r) (fun _ s => Unsent s.past)
        fun _ _ => True :=
    netStage_runs.conseq (fun _ _ h => h) (fun _ _ _ h => h.2) fun _ _ _ _ => trivial
  refine .bind (hopen (by simp [NetCmd.Sends])) fun r => ?_
  refine .bind hstage fun conn => ?_
  refine .bind (hopen (by simp [NetCmd.Sends])) fun r => ?_
  refine .bind hstage fun stream => ?_
  refine .bind (encodeAuthRequest_runs.conseq (fun _ _ h => h) (fun _ _ _ h => h)
    fun _ _ _ _ => trivial) fun bytes => ?_
  refine .given fun henc => ?_
  intro s hi h
  exact ((exchangeOnStream_runs (b := s.state) henc).conseq (fun _ _ h => h)
    (fun _ _ _ h => h) fun _ _ _ _ => trivial) s hi ⟨h, rfl⟩

/-! ## The retry -/

/-- **A part that asks the phone for nothing**: its commands neither hand a
request over nor open a way to. -/
def DeskCmd.Quiet : DeskCmd → Prop
  | .env (.sendAuthRequest _ _) => False
  | _ => True

/-- A part that is quiet and returns values of `Q` only. -/
abbrev QuietProg (Q : α → Prop) (p : DeskProg α) : Prop :=
  p.Obeys DeskCmd.Quiet (fun _ _ => True) Q

/-- **A quiet part** keeps what no event of its own can break. -/
theorem desk_runs {Q : α → Prop} {p : DeskProg α} (hp : QuietProg Q p) {F : NetState → Prop}
    (hF : ∀ s c r s', DeskCmd.Quiet c → F s → s'.past = ⟨.desk c, r⟩ :: s.past → F s') :
    netLogic.Triple F (desk p) (fun a s => Q a ∧ F s) fun _ => F := by
  intro s hi h
  unfold desk
  induction p generalizing s with
  | ret a => exact Logic.Triple.ret (stable_recorded F) (fun _ _ h => ⟨hp, h⟩) s hi h
  | fail e => exact Logic.Triple.fail (stable_recorded F) (fun _ _ h => h) s hi h
  | call c k ih =>
    intro t ht _ r s' hx
    subst ht
    refine ⟨⟨.desk c, r, hx, ?_⟩, fun hi' => ih r (hp.2 r trivial) s' hi' (hF t c r s' hp.1 h hx.2)⟩
    rintro (hs | hs)
    · cases c with
      | env c =>
        cases c with
        | sendAuthRequest node req => exact absurd hp.1 id
        | _ => exact absurd hs id
      | _ => exact absurd hs id
    · exact absurd hs id

/-- A quiet command hands nothing over. -/
theorem DeskCmd.Quiet.not_sends {c : DeskCmd} (h : c.Quiet) : ¬ (NetCmd.desk c).Sends := by
  cases c with
  | env c =>
    cases c with
    | sendAuthRequest node req => exact absurd h id
    | _ => exact id
  | _ => exact id

/-- A quiet part hands nothing over. -/
theorem desk_unsent {Q : α → Prop} {p : DeskProg α} (hp : QuietProg Q p) :
    netLogic.Triple (fun s => Unsent s.past) (desk p) (fun a s => Q a ∧ Unsent s.past)
      fun _ s => Unsent s.past :=
  desk_runs hp fun s c r s' hc h hpast => by
    rw [hpast]
    exact h.cons hc.not_sends

/-- A quiet part leaves the answer there is. -/
theorem desk_answered {Q : α → Prop} {p : DeskProg α} (hp : QuietProg Q p) {req : AuthRequest}
    {resp : AuthResponse} :
    netLogic.Triple (fun s => Answered serde usizeMax req resp s.past) (desk p)
      (fun a s => Q a ∧ Answered serde usizeMax req resp s.past)
      fun _ s => Answered serde usizeMax req resp s.past :=
  desk_runs hp fun s c r s' hc h hpast => by
    rw [hpast]
    exact h.cons _

/-- Looking at the session asks the phone for nothing. -/
theorem session_quiet : QuietProg (fun _ => True) DeskProg.session := by
  refine ⟨trivial, fun s _ => ?_⟩
  cases s <;> trivial

/-- Dialling hands nothing over. -/
theorem dialPhone_runs {node : Bytes32} :
    netLogic.Triple (fun s => Unsent s.past) (dialPhone node) (fun _ s => Unsent s.past)
      fun _ _ => True := by
  unfold dialPhone
  refine .bind (M := fun _ s => Unsent s.past) (net_runs (fun s h _ => h) ?_) fun r => ?_
  · intro s r s' h hx hpast
    rw [hpast]
    exact h.cons (by simp [NetCmd.Sends])
  split
  · exact .ret (stable_recorded _) fun _ _ h => h
  · exact .fail (stable_recorded _) fun _ _ _ => trivial
  · exact .fail (stable_recorded _) fun _ _ _ => trivial

/-- Dropping a connection hands nothing over. -/
theorem dropPhoneConn_runs {conn : Conn} :
    netLogic.Triple (fun s => Unsent s.past) (dropPhoneConn conn) (fun _ s => Unsent s.past)
      fun _ _ => True := by
  have hnet : ∀ {c : NetCmd}, ¬ c.Sends → netLogic.Triple (fun s => Unsent s.past)
      (net c : NetProg Anyhow c.Reply) (fun _ s => Unsent s.past) fun _ _ => True := by
    intro c hc
    refine net_runs (fun s h _ => h) fun s r s' h _ hpast => ?_
    rw [hpast]
    exact h.cons hc
  have hret : netLogic.Triple (fun s => Unsent s.past) (.ret () : NetProg Anyhow Unit)
      (fun _ s => Unsent s.past) fun _ _ => True :=
    .ret (stable_recorded _) fun _ _ h => h
  unfold dropPhoneConn
  refine .bind (hnet (by simp [NetCmd.Sends])) fun s => ?_
  cases s with
  | none => exact hret
  | some s =>
    refine .bind (hnet (by simp [NetCmd.Sends])) fun stored => ?_
    show netLogic.Triple _ (if stored = some conn then _ else _) _ _
    split
    · exact hnet (by simp [NetCmd.Sends])
    · exact hret

/-- **The second attempt**, where nothing was handed over by the first. -/
theorem redial_runs {node : Bytes32} {req : AuthRequest} :
    netLogic.Triple (fun s => Unsent s.past) (redial serde usizeMax node req)
      (fun resp s => Answered serde usizeMax req resp s.past) fun _ _ => True := by
  unfold redial
  refine .bind (.mapError dialPhone_runs) fun replacement => ?_
  refine .bind (.mapError ((requestApproval_runs).conseq (fun _ _ h => h)
    (fun _ _ _ h => h) fun _ _ _ _ => trivial)) fun resp => ?_
  refine .bind ((desk_answered session_quiet).conseq (fun _ _ h => h) (fun _ _ _ h => h.2)
    fun _ _ _ _ => trivial) fun s => ?_
  refine .bind (net_runs (fun s _ h => ?_) ?_) fun _ => .ret (stable_recorded _) fun _ _ h => h
  · exact absurd h (by simp [NetCmd.Sends, NetCmd.Opens])
  · intro s r s' h _ hpast
    rw [hpast]
    exact h.cons _

/-- **The request is sent**: what is returned answers it. -/
theorem sendForSession_runs {phoneConn : Option Conn} {node : Bytes32} {req : AuthRequest} :
    netLogic.Triple (fun s => Unsent s.past) (sendForSession serde usizeMax phoneConn node req)
      (fun resp s => Answered serde usizeMax req resp s.past) fun _ _ => True := by
  unfold sendForSession
  cases phoneConn with
  | none => exact .mapError (sendAuthRequestOn_runs)
  | some conn =>
    refine .bind (M := fun result s => match result with
      | .ok resp => Answered serde usizeMax req resp s.past
      | .error e => e.retryIsSafe = true → Unsent s.past)
      (.attempt (requestApproval_runs)) fun result => ?_
    cases result with
    | ok resp => exact .ret (stable_recorded _) fun _ _ h => h
    | error e =>
      show netLogic.Triple (fun s => e.retryIsSafe = true → Unsent s.past)
        (if e.retryIsSafe = true then _ else _) _ _
      by_cases hretry : e.retryIsSafe = true
      · rw [if_pos hretry]
        have hrun : netLogic.Triple (fun s => Unsent s.past)
            (dropPhoneConn conn >>= fun _ => redial serde usizeMax node req)
            (fun resp s => Answered serde usizeMax req resp s.past) fun _ _ => True :=
          .bind dropPhoneConn_runs fun _ => redial_runs
        exact hrun.pre fun s _ h => h hretry
      · rw [if_neg hretry]
        exact .fail (stable_recorded _) fun _ _ _ => trivial

/-! ## The whole exchange -/

/-- Registering asks the phone for nothing. -/
theorem registerRequest_quiet (action : VaultAction) (entryTitle : Option String)
    (unlockShareRequested : Bool) :
    QuietProg (fun _ => True) (registerRequest action entryTitle unlockShareRequested) := by
  have hask : ∀ {c : DeskCmd}, c.Quiet → QuietProg (fun _ => True) (Prog.perform c) :=
    fun h => ⟨h, fun _ _ => trivial⟩
  unfold registerRequest
  refine .bind (hask trivial) fun _ _ => ?_
  refine .bind (hask trivial) fun _ _ => ?_
  refine .bind (hask trivial) fun _ _ => ?_
  refine .bind session_quiet fun s _ => ?_
  refine .bind (M := fun _ => True) (by cases s.pairing <;> trivial) fun _ _ => ?_
  refine .bind session_quiet fun s _ => ?_
  exact .bind (hask trivial) fun _ _ => trivial

/-- Cleaning up asks the phone for nothing. -/
theorem cleanPendingRequest_quiet (requestId : Uuid) :
    QuietProg (fun _ => True) (cleanPendingRequest requestId) := by
  refine ⟨trivial, fun s _ => ?_⟩
  cases s with
  | none => trivial
  | some s => exact ⟨trivial, fun _ _ => trivial⟩

section

variable [Crypto]

/-- **Judging asks the phone for nothing**, and accepts what passes every
check. -/
theorem judgeResponse_quiet (req : AuthRequest) (pairing : PairingData) (resp : AuthResponse) :
    QuietProg (fun a => ∃ pending now, validatePendingResponse req pairing resp pending now = .ok a)
      (judgeResponse req pairing resp) := by
  unfold judgeResponse
  refine .bind (M := fun _ => True) (.ofExcept fun _ _ => trivial) fun _ _ => ?_
  refine .bind session_quiet fun s _ => ?_
  cases s.pendingRequests.lookup resp.requestId with
  | none => trivial
  | some pending =>
    refine ⟨trivial, fun _ _ => ⟨trivial, fun now _ => .ofExcept fun a h => ⟨pending, now, ?_⟩⟩⟩
    exact mapError_eq_ok_iff.mp h

variable (serde usizeMax) in
/-- **A response was accepted**: it was received on the stream the request
was written to, and passed every check. -/
def ResponseAccepted (a : ApprovalResult) (past : List (Event NetCmd.Reply)) : Prop :=
  ∃ req resp pairing pending now, Answered serde usizeMax req resp past ∧
    validatePendingResponse req pairing resp pending now = .ok a

/-- The exchange over the network. -/
theorem exchangeOverConnection_runs {req : AuthRequest} :
    netLogic.Triple (fun s => Unsent s.past) (exchangeOverConnection serde usizeMax req)
      (fun a s => ResponseAccepted serde usizeMax a s.past) fun _ _ => True := by
  unfold exchangeOverConnection
  refine .bind ((desk_unsent session_quiet).conseq (fun _ _ h => h) (fun _ _ _ h => h.2)
    fun _ _ _ _ => trivial) fun s => ?_
  refine .bind (.okOr (stable_recorded _) fun _ _ _ _ => trivial) fun pairing => ?_
  refine .given fun _ => ?_
  refine .bind (M := fun _ s => Unsent s.past) (net_runs (fun s h _ => h) ?_) fun phoneConn => ?_
  · intro s r s' h _ hpast
    rw [hpast]
    exact h.cons (by simp [NetCmd.Sends])
  refine .bind (.ensure (stable_recorded _) fun _ _ _ _ => trivial) fun _ => ?_
  refine .given fun _ => ?_
  refine .bind sendForSession_runs fun resp => ?_
  refine (desk_answered (judgeResponse_quiet req pairing resp)).conseq (fun _ _ h => h) ?_
    fun _ _ _ _ => trivial
  rintro a s - ⟨⟨pending, now, hvalid⟩, hanswered⟩
  exact ⟨req, resp, pairing, pending, now, hanswered, hvalid⟩

/-- **A whole request.** -/
theorem requestApprovalOverConnection_runs {action : VaultAction} {entryTitle : Option String}
    {unlockShareRequested : Bool} :
    netLogic.Triple (fun s => Unsent s.past)
      (requestApprovalOverConnection serde usizeMax action entryTitle unlockShareRequested)
      (fun a s => ResponseAccepted serde usizeMax a s.past) fun _ _ => True := by
  unfold requestApprovalOverConnection
  refine .bind ((desk_unsent (registerRequest_quiet _ _ _)).conseq (fun _ _ h => h)
    (fun _ _ _ h => h.2) fun _ _ _ _ => trivial) fun req => ?_
  refine .bind (M := fun result s => ∀ a, result = .ok a → ResponseAccepted serde usizeMax a s.past)
    (.attempt (exchangeOverConnection_runs.conseq (fun _ _ h => h) ?_ ?_)) fun result => ?_
  · rintro a s - h _ ⟨rfl⟩
    exact h
  · rintro e s - - _ ⟨⟩
  refine .bind (M := fun _ s => ∀ a, result = .ok a → ResponseAccepted serde usizeMax a s.past)
    ((desk_runs (cleanPendingRequest_quiet _) ?_).conseq (fun _ _ h => h) (fun _ _ _ h => h.2)
      fun _ _ _ _ => trivial) fun _ => ?_
  · intro s c r s' _ h hpast a ha
    obtain ⟨req, resp, pairing, pending, now, hanswered, hvalid⟩ := h a ha
    rw [hpast]
    exact ⟨req, resp, pairing, pending, now, hanswered.cons _, hvalid⟩
  · exact .ofExcept (stable_recorded _) (fun a ha s _ h => h a ha) fun _ _ _ _ _ => trivial

omit [Crypto] in
/-- What may be put comes before anything is handed over. -/
theorem pairwise_of_lawful {past : List (Event NetCmd.Reply)} (h : Lawful MayPut past) :
    past.Pairwise fun later earlier =>
      later.command.Sends ∨ later.command.Opens → ¬ earlier.command.Sends := by
  induction past with
  | nil => exact .nil
  | cons e past ih => exact .cons (fun e' he' hput => h.1 hput e' he') (ih h.2)

/-- **A request is handed over at most once.** In every run, with any
outcome at each await, no event that hands it over and none that opens a
way to do so comes after one that does; and a run that returns has had a
response accepted that came on the stream the request was written to. -/
theorem delivered_at_most_once (action : VaultAction) (entryTitle : Option String)
    (unlockShareRequested flag : Bool) (p : NetProg Anyhow ApprovalResult) (s : NetState)
    (hrun : Prog.Runs (Recorded.exec NetCmd.exec)
      (requestApprovalOverConnection serde usizeMax action entryTitle unlockShareRequested)
      ⟨flag, []⟩ p s) :
    (s.past.Pairwise fun later earlier =>
      later.command.Sends ∨ later.command.Opens → ¬ earlier.command.Sends) ∧
    ∀ a, p = .ret a → ResponseAccepted serde usizeMax a s.past := by
  obtain ⟨hsafe, hlawful⟩ := hrun.safe
    (requestApprovalOverConnection_runs _ trivial fun e he => absurd he List.not_mem_nil) trivial
  refine ⟨pairwise_of_lawful hlawful, ?_⟩
  rintro a rfl
  exact hsafe s rfl trivial

end

/-! ## A stale connection -/

/-- The request of the run below. -/
def staleRequest : AuthRequest := { Exchange.crossedRequest with unlockShareRequested := false }

/-- The response to it. -/
def staleResponse : AuthResponse := { Exchange.crossed.resp with requestId := 10 }

/-- The two of them as bytes, and nothing else. -/
def twoMessages : SerdeJson where
  toVec m :=
    if m = .request staleRequest then .ok [1]
    else if m = .response staleResponse then .ok [2]
    else .error "not a message of this run"
  fromSlice json :=
    if json = [1] then .ok (.request staleRequest)
    else if json = [2] then .ok (.response staleResponse)
    else .error "expected value"

example : twoMessages.RoundTrips (.request staleRequest) [1] ∧
    twoMessages.RoundTrips (.response staleResponse) [2] := by
  unfold SerdeJson.RoundTrips
  decide

/-- **The answers around a stale connection**: its stream is not opened
before the deadline; the phone is dialled, and answers on the new
connection. -/
def staleAnswer : (c : NetCmd) → Bool → Option (c.Reply × Bool)
  | .desk (.env .newUuid), flag => some ((10 : Uuid), flag)
  | .desk (.env .correlationCode), flag => some ((4711 : Nat), flag)
  | .desk (.env .nowMs), flag => some ((0 : Nat), flag)
  | .desk .getSession, flag => some (some Exchange.crossed.opened, flag)
  | .desk (.setSession _), flag => some ((), flag)
  | .phoneConn, flag => some (some 0, flag)
  | .setPhoneConn _, flag => some ((), flag)
  | .dialPhone _, flag => some (.done 1, flag)
  | .openBi conn, flag => some (if conn = 0 then none else some (.done 7), flag)
  | .writeAll _ _, flag => some (some (.done ()), flag)
  | .finish _, flag => some (.ok (), flag)
  | .recvAll _, flag => some (some (.done [1, 0, 0, 0, 2]), flag)
  | .setDeliveryStarted started, _ => some ((), started)
  | .deliveryStarted, flag => some (flag, flag)
  | _, _ => none

/-- The answers are those of a network. -/
theorem staleAnswer_exec {c : NetCmd} {flag : Bool} {x : c.Reply × Bool}
    (h : staleAnswer c flag = some x) : c.exec flag x.1 x.2 := by
  cases c with
  | desk c =>
    cases c with
    | env c => cases c <;> cases h <;> rfl
    | file c => cases h
    | getSession => cases h; rfl
    | setSession s => cases h; rfl
  | deliveryStarted => cases h; exact ⟨rfl, rfl⟩
  | connect node => cases h
  | _ => cases h; rfl

/-- The answers with the past. -/
def staleStep (c : NetCmd) (_ : Unit) (s : NetState) : Option (c.Reply × NetState) :=
  (staleAnswer c s.state).map fun x => (x.1, ⟨x.2, ⟨c, x.1⟩ :: s.past⟩)

theorem staleStep_exec (c : NetCmd) (o : Unit) (s : NetState) (r : c.Reply) (s' : NetState)
    (h : staleStep c o s = some (r, s')) : Recorded.exec NetCmd.exec c s r s' := by
  unfold staleStep at h
  obtain ⟨x, hx, heq⟩ := Option.map_eq_some_iff.mp h
  cases heq
  exact ⟨staleAnswer_exec hx, rfl⟩

/-- How the run around a stale connection ends. -/
def staleEnd : Option (Except Anyhow ApprovalResult × NetState) :=
  (@requestApprovalOverConnection twoMessages (2 ^ 64) Crypto.plain .read none false).replay
    staleStep (List.replicate 40 ()) ⟨false, []⟩

theorem staleEnd_returns : ∃ s, staleEnd = some (.ok { unlockShare := none }, s) := by
  refine ⟨?_, ?_⟩
  rotate_left
  · rfl

/-- The phone is dialled anew, and the request accepted. -/
theorem delivered_at_most_once_redialled : ∃ s : NetState,
    staleEnd = some (.ok { unlockShare := none }, s) ∧
    (s.past.Pairwise fun later earlier =>
      later.command.Sends ∨ later.command.Opens → ¬ earlier.command.Sends) ∧
    ∀ a, (.ret { unlockShare := none } : NetProg Anyhow ApprovalResult) = .ret a →
      @ResponseAccepted twoMessages (2 ^ 64) Crypto.plain a s.past := by
  obtain ⟨s, hs⟩ := staleEnd_returns
  exact ⟨s, hs, @delivered_at_most_once twoMessages (2 ^ 64) Crypto.plain .read none false false _ s
    (Prog.Runs.replay staleStep_exec .start hs)⟩

end Desktop
