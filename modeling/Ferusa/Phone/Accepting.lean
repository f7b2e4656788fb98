import Mathlib.Data.Multiset.Bind
import Mathlib.Tactic.Abel
import Ferusa.Core.Types
import Ferusa.Phone.Sources

/-!
# The accept loop

One endpoint takes every inbound connection, of the paired desktop and of
anybody else. The loop refuses what it has no room for, and each
connection it takes is a task of its own, which goes on being counted:
against the source it came from for as long as it lives, against the
handshakes until its handshake is done, then against the handlers of its
kind, and against its peer while it is served.

The tasks run side by side with the loop, and each of them touches the
semaphores and the two maps between its awaits. What is taken is given
back by the task that took it, one permit at a time, in the reverse order
of the bindings. One thing is not: the count of a peer is taken down by a
statement after `serve_connection`, which a handler that panics never
reaches.
-/

namespace Phone

open Tally

/-! ## What arrives -/

/-- `IncomingAddr`, with the texts its variants print. -/
inductive IncomingAddr where
  | ip (address : String) (port : Nat)
  | relay (url : String) (endpointId : Bytes32)
  | custom (text : String)
  | other (text : String)
  deriving DecidableEq

/-- **`inbound_source_key`.** A port is not part of it, nor the endpoint a
relay speaks for. -/
def inboundSourceKey : IncomingAddr → String
  | .ip address _ => "ip:" ++ address
  | .relay url _ => "relay:" ++ url
  | .custom text => "custom:" ++ text
  | .other text => "other:" ++ text

/-- **`inbound_claimed_endpoint_id`.** -/
def inboundClaimedEndpointId : IncomingAddr → Option Bytes32
  | .relay _ endpointId => some endpointId
  | _ => none

def maxInboundHandshakes : Nat := 8
def maxUntrustedConnectionHandlers : Nat := 8
def maxPairedConnectionHandlers : Nat := 4
def maxInboundConnectionsPerPeer : Nat := 4
def maxInboundConnectionsPerSource : Nat := 4

/-- Which of the two handler semaphores a connection is counted against. -/
inductive HandlerKind where
  | paired
  | untrusted
  deriving DecidableEq

/-- What the semaphore of a kind of handlers starts with. -/
def HandlerKind.capacity : HandlerKind → Nat
  | paired => maxPairedConnectionHandlers
  | untrusted => maxUntrustedConnectionHandlers

/-- The semaphore that the answer of `is_referenced_pairing_peer` selects. -/
def HandlerKind.of (isReferencedPeer : Bool) : HandlerKind :=
  if isReferencedPeer then .paired else .untrusted

/-- **Where a connection's task is.** -/
inductive TaskPhase where
  /-- At the handshake, under its timeout. -/
  | handshaking
  /-- At `is_referenced_pairing_peer`, of the authenticated id. -/
  | classifying
  /-- Before the lock of the map of the peers. -/
  | counting
  /-- In `serve_connection`. -/
  | serving
  /-- Served, and before the lock again. -/
  | leaving
  /-- At its end: what it holds is dropped. -/
  | closing
  deriving DecidableEq

/-- **The task of one connection**, with its place and the permits it
holds. -/
structure ConnTask where
  phase : TaskPhase
  remoteId : Option Bytes32
  source : Option SourceAdmissionPermit
  handshake : Bool
  handler : Option HandlerKind
  deriving DecidableEq

/-- **Where the loop is.** -/
inductive AcceptLoop where
  | accepting
  /-- At `is_referenced_pairing_peer`, of the id the relay claims. -/
  | claiming (addr : IncomingAddr)
  | limiting (addr : IncomingAddr) (claimsReferencedPeer : Bool)
  /-- Before the semaphore of the handshakes. -/
  | shaking (permit : Option SourceAdmissionPermit)
  /-- Refused there: the permit of the source is dropped. -/
  | refusing (permit : Option SourceAdmissionPermit)
  deriving DecidableEq

/-- **The semaphores, the maps, the loop and the tasks.** The last field
is nothing the app has: the peers whose handler panicked. -/
structure Accepting where
  inboundHandshakes : Nat
  /-- `paired_handlers` and `untrusted_handlers`. -/
  handlers : HandlerKind → Nat
  sourceLimiter : SourceAdmissionLimiter
  inboundPeerCounts : Bytes32 → Option Nat
  loop : AcceptLoop
  tasks : Multiset ConnTask
  panicked : Multiset Bytes32

/-- What happens next, in the loop or in one of the tasks. -/
inductive AcceptEvent where
  | accept (addr : IncomingAddr)
  | claimJudged (referenced : Bool)
  | tryAcquireSource
  | tryAcquireHandshake
  | dropRefused
  | connected (task : ConnTask) (remoteId : Bytes32)
  | handshakeFailed (task : ConnTask)
  | classified (task : ConnTask) (isReferencedPeer : Bool)
  | count (task : ConnTask)
  | served (task : ConnTask)
  | panicked (task : ConnTask)
  | uncount (task : ConnTask)
  | dropNext (task : ConnTask)

namespace Accepting

/-- The endpoint is bound, nothing has arrived. -/
def start : Accepting where
  inboundHandshakes := maxInboundHandshakes
  handlers := HandlerKind.capacity
  sourceLimiter := .new maxInboundConnectionsPerSource
  inboundPeerCounts := fun _ => none
  loop := .accepting
  tasks := 0
  panicked := 0

/-- The permit of a source is dropped, if there is one. -/
def dropPermit (limiter : SourceAdmissionLimiter) :
    Option SourceAdmissionPermit → SourceAdmissionLimiter
  | none => limiter
  | some permit => limiter.drop permit

/-- A task goes on. -/
def advance (w : Accepting) (task task' : ConnTask) : Accepting :=
  { w with tasks := task' ::ₘ w.tasks.erase task }

/-- **What the loop does next.** -/
def loopStep (w : Accepting) : AcceptEvent → Option Accepting
  | .accept addr =>
    match w.loop with
    | .accepting => some { w with loop :=
        match inboundClaimedEndpointId addr with
        | some _ => .claiming addr
        | none => .limiting addr false }
    | _ => none
  | .claimJudged referenced =>
    match w.loop with
    | .claiming addr => some { w with loop := .limiting addr referenced }
    | _ => none
  | .tryAcquireSource =>
    match w.loop with
    | .limiting _ true => some { w with loop := .shaking none }
    | .limiting addr false =>
      match w.sourceLimiter.tryAcquire (inboundSourceKey addr) with
      | (some permit, sourceLimiter) =>
        some { w with sourceLimiter, loop := .shaking (some permit) }
      -- `incoming.refuse()`
      | (none, sourceLimiter) => some { w with sourceLimiter, loop := .accepting }
    | _ => none
  | .tryAcquireHandshake =>
    match w.loop with
    | .shaking source =>
      if w.inboundHandshakes = 0 then some { w with loop := .refusing source }
      else some { w with
        inboundHandshakes := w.inboundHandshakes - 1
        loop := .accepting
        tasks := ⟨.handshaking, none, source, true, none⟩ ::ₘ w.tasks }
    | _ => none
  | .dropRefused =>
    match w.loop with
    | .refusing permit => some { w with
        sourceLimiter := dropPermit w.sourceLimiter permit
        loop := .accepting }
    | _ => none
  | _ => none

/-- **What a task does next**, at its place. -/
def taskStep (w : Accepting) : AcceptEvent → Option Accepting
  | .connected task remoteId =>
    if task.phase = .handshaking then
      -- `drop(handshake_permit)`
      some { w.advance task { task with
          phase := .classifying, remoteId := some remoteId, handshake := false } with
        inboundHandshakes := w.inboundHandshakes + 1 }
    else none
  | .handshakeFailed task =>
    if task.phase = .handshaking then some (w.advance task { task with phase := .closing })
    else none
  | .classified task isReferencedPeer =>
    if task.phase = .classifying then
      let kind := HandlerKind.of isReferencedPeer
      if w.handlers kind = 0 then some (w.advance task { task with phase := .closing })
      else some { w.advance task { task with phase := .counting, handler := some kind } with
        handlers := Function.update w.handlers kind (w.handlers kind - 1) }
    else none
  | .count task =>
    match task.phase, task.remoteId with
    | .counting, some remoteId =>
      let count := (w.inboundPeerCounts remoteId).getD 0
      -- `entry(..).or_insert(0)` leaves its entry in the map, also where it is refused
      let counts := Function.update w.inboundPeerCounts remoteId (some count)
      if count ≥ maxInboundConnectionsPerPeer then
        some { w.advance task { task with phase := .closing } with inboundPeerCounts := counts }
      else some { w.advance task { task with phase := .serving } with
        inboundPeerCounts := Function.update counts remoteId (some (count + 1)) }
    | _, _ => none
  | .served task =>
    if task.phase = .serving then some (w.advance task { task with phase := .leaving })
    else none
  | .panicked task =>
    match task.phase, task.remoteId with
    | .serving, some remoteId =>
      -- what the task holds is dropped, its peer stays counted
      some { w.advance task { task with phase := .closing } with
        panicked := remoteId ::ₘ w.panicked }
    | _, _ => none
  | .uncount task =>
    match task.phase, task.remoteId with
    | .leaving, some remoteId =>
      some { w.advance task { task with phase := .closing } with
        inboundPeerCounts :=
          match w.inboundPeerCounts remoteId with
          | none => w.inboundPeerCounts
          | some count =>
            if count - 1 = 0 then Function.update w.inboundPeerCounts remoteId none
            else Function.update w.inboundPeerCounts remoteId (some (count - 1)) }
    | _, _ => none
  | .dropNext task =>
    if task.phase = .closing then
      match task.handler with
      | some kind => some { w.advance task { task with handler := none } with
          handlers := Function.update w.handlers kind (w.handlers kind + 1) }
      | none =>
        if task.handshake then some { w.advance task { task with handshake := false } with
          inboundHandshakes := w.inboundHandshakes + 1 }
        else
          match task.source with
          | some permit => some { w.advance task { task with source := none } with
              sourceLimiter := w.sourceLimiter.drop permit }
          | none => some { w with tasks := w.tasks.erase task }
    else none
  | _ => none

/-- The task an event is about. -/
def task : AcceptEvent → Option ConnTask
  | .connected task _ | .handshakeFailed task | .classified task _ | .count task
  | .served task | .panicked task | .uncount task | .dropNext task => some task
  | _ => none

/-- **What an event does**, of the loop or of a task there is. -/
def step (w : Accepting) (e : AcceptEvent) : Option Accepting :=
  match task e with
  | none => w.loopStep e
  | some task => if task ∈ w.tasks then w.taskStep e else none

/-- What a sequence of events does. -/
def run (w : Accepting) : List AcceptEvent → Option Accepting
  | [] => some w
  | e :: events => (w.step e).bind fun w' => run w' events

/-! ## What is held -/

end Accepting

/-- The permit of a source a task holds. -/
def ConnTask.permits (task : ConnTask) : Multiset SourceAdmissionPermit :=
  task.source.elim 0 fun permit => {permit}

/-- The peer a task is counted against, between the two statements that
count it. -/
def ConnTask.slot (task : ConnTask) : Multiset Bytes32 :=
  if task.phase = .serving ∨ task.phase = .leaving then
    task.remoteId.elim 0 fun remoteId => {remoteId}
  else 0

/-- **What a task holds at its place**: the permit of the handshakes until
the handshake is done, that of a handler from its classification on. -/
def ConnTask.Formed (task : ConnTask) : Prop :=
  match task.phase with
  | .handshaking => task.handshake = true ∧ task.handler = none
  | .classifying => task.handshake = false ∧ task.handler = none ∧ task.remoteId.isSome = true
  | .counting | .serving | .leaving =>
    task.handshake = false ∧ task.handler.isSome = true ∧ task.remoteId.isSome = true
  | .closing => True

/-- The permit of a source the loop holds. -/
def AcceptLoop.permits : AcceptLoop → Multiset SourceAdmissionPermit
  | .shaking permit | .refusing permit => permit.elim 0 fun permit => {permit}
  | _ => 0

namespace Accepting

/-- The permits of the sources, with the loop or with a task. -/
def permits (w : Accepting) : Multiset SourceAdmissionPermit :=
  w.loop.permits + w.tasks.bind ConnTask.permits

/-- The peers as they are counted, those of a panicked handler with
them. -/
def slots (w : Accepting) : Multiset Bytes32 := w.tasks.bind ConnTask.slot + w.panicked

/-- How many tasks hold a permit of the handshakes. -/
def handshaking (w : Accepting) : Nat := w.tasks.countP fun task => task.handshake = true

/-- How many tasks hold a permit of a kind of handlers. -/
def handling (w : Accepting) (kind : HandlerKind) : Nat :=
  w.tasks.countP fun task => task.handler = some kind

/-- The limiter with the permits it gave. -/
def admission (w : Accepting) : SourceAdmission := ⟨w.sourceLimiter, w.permits⟩

/-- **What is free and what is held make up the capacity**, in each of the
semaphores and the two maps. -/
structure Accounted (w : Accepting) : Prop where
  handshakes : w.inboundHandshakes + w.handshaking = maxInboundHandshakes
  handlers : ∀ kind, w.handlers kind + w.handling kind = kind.capacity
  sources : w.admission.Counted maxInboundConnectionsPerSource
  slots : Tallies w.inboundPeerCounts w.slots
  peers : ∀ remoteId, w.slots.count remoteId ≤ maxInboundConnectionsPerPeer
  formed : ∀ task ∈ w.tasks, task.Formed

variable {w w' : Accepting} {task task' : ConnTask} {e : AcceptEvent}

theorem Accounted.start : start.Accounted where
  handshakes := rfl
  handlers _ := rfl
  sources := .start _
  slots := .empty
  peers _ := Nat.zero_le _
  formed := nofun

/-! ## One task goes on

What is held by all of them is held by the others and by the one. -/

theorem bind_advance {κ : Type} (task' : ConnTask) (f : ConnTask → Multiset κ)
    (ht : task ∈ w.tasks) :
    (task' ::ₘ w.tasks.erase task).bind f + f task = w.tasks.bind f + f task' := by
  obtain ⟨others, hothers⟩ := Multiset.exists_cons_of_mem ht
  rw [hothers, Multiset.erase_cons_head, Multiset.cons_bind, Multiset.cons_bind]
  abel

/-- What the one takes is held by all of them from then on, -/
theorem bind_gain {κ : Type} {f : ConnTask → Multiset κ} (ht : task ∈ w.tasks)
    (hbefore : f task = 0) {k : κ} (hafter : f task' = {k}) (rest : Multiset κ) :
    (task' ::ₘ w.tasks.erase task).bind f + rest = k ::ₘ (w.tasks.bind f + rest) := by
  have hbind := bind_advance task' f ht
  rw [hbefore, hafter, add_zero] at hbind
  rw [hbind, add_right_comm, add_comm _ ({k} : Multiset κ), Multiset.singleton_add]

/-- and what it gives up is not. -/
theorem bind_loss {κ : Type} {f : ConnTask → Multiset κ} (ht : task ∈ w.tasks) {k : κ}
    (hbefore : f task = {k}) (hafter : f task' = 0) (rest : Multiset κ) :
    w.tasks.bind f + rest = k ::ₘ ((task' ::ₘ w.tasks.erase task).bind f + rest) := by
  have hbind := bind_advance task' f ht
  rw [hbefore, hafter, add_zero] at hbind
  rw [← hbind, add_right_comm, add_comm _ ({k} : Multiset κ), Multiset.singleton_add]

theorem countP_advance (task' : ConnTask) (p : ConnTask → Prop) [DecidablePred p]
    (ht : task ∈ w.tasks) :
    (task' ::ₘ w.tasks.erase task).countP p + (if p task then 1 else 0) =
      w.tasks.countP p + (if p task' then 1 else 0) := by
  obtain ⟨others, hothers⟩ := Multiset.exists_cons_of_mem ht
  rw [hothers, Multiset.erase_cons_head, Multiset.countP_cons, Multiset.countP_cons]
  omega

theorem formed_advance (h : ∀ task ∈ w.tasks, task.Formed) (hf : task'.Formed) :
    ∀ t ∈ task' ::ₘ w.tasks.erase task, t.Formed := by
  intro t ht
  obtain rfl | ht := Multiset.mem_cons.mp ht
  · exact hf
  · exact h t (Multiset.mem_of_mem_erase ht)

/-- **A task goes on**, and gives up or takes the permits of the
semaphores that it holds less or more afterwards. -/
theorem Accounted.advance (h : w.Accounted) (ht : task ∈ w.tasks)
    (htasks : w'.tasks = task' ::ₘ w.tasks.erase task)
    (hhandshake : w'.inboundHandshakes + (if task'.handshake = true then 1 else 0) =
      w.inboundHandshakes + (if task.handshake = true then 1 else 0))
    (hhandler : ∀ kind, w'.handlers kind + (if task'.handler = some kind then 1 else 0) =
      w.handlers kind + (if task.handler = some kind then 1 else 0))
    (hsources : w'.admission.Counted maxInboundConnectionsPerSource)
    (hslots : Tallies w'.inboundPeerCounts w'.slots)
    (hpeers : ∀ remoteId, w'.slots.count remoteId ≤ maxInboundConnectionsPerPeer)
    (hformed : task'.Formed) : w'.Accounted where
  handshakes := by
    have hcount := countP_advance task' (fun task => task.handshake = true) ht
    have hbefore := h.handshakes
    unfold handshaking at hbefore ⊢
    rw [htasks]
    omega
  handlers kind := by
    have hcount := countP_advance task' (fun task => task.handler = some kind) ht
    have hbefore := h.handlers kind
    have hkind := hhandler kind
    unfold handling at hbefore ⊢
    rw [htasks]
    omega
  sources := hsources
  slots := hslots
  peers := hpeers
  formed := htasks ▸ formed_advance h.formed hformed

/-- The permits of the sources stay where they are. -/
theorem permits_advance (ht : task ∈ w.tasks) (htasks : w'.tasks = task' ::ₘ w.tasks.erase task)
    (hloop : w'.loop = w.loop) (hsource : task'.source = task.source) :
    w'.permits = w.permits := by
  have hbind := bind_advance task' ConnTask.permits ht
  have hsame : task'.permits = task.permits := by rw [ConnTask.permits, hsource, ConnTask.permits]
  rw [hsame] at hbind
  rw [permits, permits, htasks, hloop, add_right_cancel hbind]

/-- The peers stay counted as they are. -/
theorem slots_advance (ht : task ∈ w.tasks) (htasks : w'.tasks = task' ::ₘ w.tasks.erase task)
    (hpanicked : w'.panicked = w.panicked) (hslot : task'.slot = task.slot) :
    w'.slots = w.slots := by
  have hbind := bind_advance task' ConnTask.slot ht
  rw [hslot] at hbind
  rw [slots, slots, htasks, hpanicked, add_right_cancel hbind]

/-- **The limiter agrees with the permits** where both stay as they
are. -/
theorem Accounted.counted_advance (h : w.Accounted) (ht : task ∈ w.tasks)
    (htasks : w'.tasks = task' ::ₘ w.tasks.erase task) (hloop : w'.loop = w.loop)
    (hlimiter : w'.sourceLimiter = w.sourceLimiter) (hsource : task'.source = task.source) :
    w'.admission.Counted maxInboundConnectionsPerSource := by
  rw [admission, permits_advance ht htasks hloop hsource, hlimiter]
  exact h.sources

/-- **A task goes on, and the two maps are left alone.** -/
theorem Accounted.advance_semaphores (h : w.Accounted) (ht : task ∈ w.tasks)
    (htasks : w'.tasks = task' ::ₘ w.tasks.erase task) (hloop : w'.loop = w.loop)
    (hlimiter : w'.sourceLimiter = w.sourceLimiter)
    (hcounts : w'.inboundPeerCounts = w.inboundPeerCounts) (hpanicked : w'.panicked = w.panicked)
    (hhandshake : w'.inboundHandshakes + (if task'.handshake = true then 1 else 0) =
      w.inboundHandshakes + (if task.handshake = true then 1 else 0))
    (hhandler : ∀ kind, w'.handlers kind + (if task'.handler = some kind then 1 else 0) =
      w.handlers kind + (if task.handler = some kind then 1 else 0))
    (hsource : task'.source = task.source) (hslot : task'.slot = task.slot)
    (hformed : task'.Formed) : w'.Accounted := by
  have hslots : w'.slots = w.slots := slots_advance ht htasks hpanicked hslot
  refine h.advance ht htasks hhandshake hhandler ?_ ?_ ?_ hformed
  · exact h.counted_advance ht htasks hloop hlimiter hsource
  · rw [hcounts, hslots]
    exact h.slots
  · rw [hslots]
    exact h.peers

/-! ## What every event keeps -/

/-- A permit that is dropped is one that was held. -/
theorem Counted.dropped_of_add {limiter : SourceAdmissionLimiter}
    {permits permits' : Multiset SourceAdmissionPermit} {permit : SourceAdmissionPermit}
    (h : SourceAdmission.Counted maxInboundConnectionsPerSource ⟨limiter, permits⟩)
    (hpermits : permits = permits' + {permit}) :
    SourceAdmission.Counted maxInboundConnectionsPerSource ⟨limiter.drop permit, permits'⟩ := by
  have hmem : permit ∈ permits := by simp [hpermits]
  have hrest : permits.erase permit = permits' := by
    rw [hpermits, add_comm, Multiset.singleton_add, Multiset.erase_cons_head]
  have hstep : SourceAdmission.step ⟨limiter, permits⟩ (.drop permit) =
      some ⟨limiter.drop permit, permits.erase permit⟩ := if_pos hmem
  exact hrest ▸ h.step (by decide) hstep

/-- **The loop goes on**, with the permits it holds, and no task is
touched. -/
theorem Accounted.looped (h : w.Accounted) (htasks : w'.tasks = w.tasks)
    (hhandshakes : w'.inboundHandshakes = w.inboundHandshakes)
    (hhandlers : w'.handlers = w.handlers) (hcounts : w'.inboundPeerCounts = w.inboundPeerCounts)
    (hpanicked : w'.panicked = w.panicked)
    (hsources : w'.admission.Counted maxInboundConnectionsPerSource) : w'.Accounted where
  handshakes := by
    rw [hhandshakes, handshaking, htasks]
    exact h.handshakes
  handlers kind := by
    rw [hhandlers, handling, htasks]
    exact h.handlers kind
  sources := hsources
  slots := by
    rw [hcounts, Accepting.slots, htasks, hpanicked]
    exact h.slots
  peers := by
    rw [Accepting.slots, htasks, hpanicked]
    exact h.peers
  formed := htasks ▸ h.formed

/-- **A connection gets a permit of its source**, or is dropped without one. -/
theorem Accounted.limits (h : w.Accounted)
    (hs : w.loopStep .tryAcquireSource = some w') : w'.Accounted := by
  have hpermits : w.permits = w.loop.permits + w.tasks.bind ConnTask.permits := rfl
  have hsources : SourceAdmission.Counted maxInboundConnectionsPerSource
      ⟨w.sourceLimiter, w.permits⟩ := h.sources
  cases hloop : w.loop with
  | limiting addr claims =>
    have hnone : w.permits = w.tasks.bind ConnTask.permits := by
      rw [hpermits, hloop]
      exact zero_add _
    cases claims with
    | true =>
      simp only [Accepting.loopStep, hloop, Option.some.injEq] at hs
      subst hs
      refine h.looped rfl rfl rfl rfl rfl ?_
      rw [hpermits, hloop] at hsources
      exact hsources
    | false =>
      cases htry : w.sourceLimiter.tryAcquire (inboundSourceKey addr) with
      | mk permit limiter =>
        have hstep : w.admission.step (.tryAcquire (inboundSourceKey addr)) =
            match permit, limiter with
            | some permit, limiter => some ⟨limiter, permit ::ₘ w.permits⟩
            | none, limiter => some ⟨limiter, w.permits⟩ := by
          simp only [SourceAdmission.step, admission, htry]
          cases permit <;> rfl
        cases permit with
        | none =>
          simp only [Accepting.loopStep, hloop, htry, Option.some.injEq] at hs
          subst hs
          refine h.looped rfl rfl rfl rfl rfl ?_
          have hafter := h.sources.step (by decide) hstep
          rw [hnone] at hafter
          simpa [admission, permits, AcceptLoop.permits] using hafter
        | some permit =>
          simp only [Accepting.loopStep, hloop, htry, Option.some.injEq] at hs
          subst hs
          refine h.looped rfl rfl rfl rfl rfl ?_
          have hafter := h.sources.step (by decide) hstep
          rw [hnone] at hafter
          simpa [admission, permits, AcceptLoop.permits] using hafter
  | _ => simp [Accepting.loopStep, hloop] at hs

/-- **A task is spawned with a permit to shake hands**, or the connection is refused. -/
theorem Accounted.spawns (h : w.Accounted)
    (hs : w.loopStep .tryAcquireHandshake = some w') : w'.Accounted := by
  have hpermits : w.permits = w.loop.permits + w.tasks.bind ConnTask.permits := rfl
  have hsources : SourceAdmission.Counted maxInboundConnectionsPerSource
      ⟨w.sourceLimiter, w.permits⟩ := h.sources
  cases hloop : w.loop with
  | shaking source =>
    simp only [Accepting.loopStep, hloop] at hs
    split at hs
    · obtain rfl := Option.some.inj hs
      refine h.looped rfl rfl rfl rfl rfl ?_
      rw [hpermits, hloop] at hsources
      exact hsources
    · next hfree =>
      obtain rfl := Option.some.inj hs
      -- the permit of the source goes from the loop to the new task
      have hmoved : w.permits =
          (⟨.handshaking, none, source, true, none⟩ ::ₘ w.tasks : Multiset ConnTask).bind
            ConnTask.permits := by
        rw [hpermits, hloop, Multiset.cons_bind]
        rfl
      exact {
        handshakes := by
          have hbefore := h.handshakes
          simp only [handshaking, Multiset.countP_cons] at hbefore ⊢
          simp
          omega
        handlers := fun kind => by
          have hbefore := h.handlers kind
          simpa [handling, Multiset.countP_cons] using hbefore
        sources := by
          rw [hmoved] at hsources
          simpa [admission, permits, AcceptLoop.permits] using hsources
        slots := by simpa [Accepting.slots, ConnTask.slot] using h.slots
        peers := by simpa [Accepting.slots, ConnTask.slot] using h.peers
        formed := by
          intro t ht
          obtain rfl | ht := Multiset.mem_cons.mp ht
          · exact ⟨rfl, rfl⟩
          · exact h.formed t ht }
  | _ => simp [Accepting.loopStep, hloop] at hs

/-- **What the loop does keeps the account.** -/
theorem Accounted.loopStep (h : w.Accounted) (hs : w.loopStep e = some w') : w'.Accounted := by
  have hpermits : w.permits = w.loop.permits + w.tasks.bind ConnTask.permits := rfl
  have hsources : SourceAdmission.Counted maxInboundConnectionsPerSource
      ⟨w.sourceLimiter, w.permits⟩ := h.sources
  cases e with
  | accept addr =>
    cases hloop : w.loop with
    | accepting =>
      simp only [Accepting.loopStep, hloop, Option.some.injEq] at hs
      subst hs
      refine h.looped rfl rfl rfl rfl rfl ?_
      rw [hpermits, hloop] at hsources
      cases haddr : inboundClaimedEndpointId addr <;>
        simpa [admission, permits, haddr, AcceptLoop.permits] using hsources
    | _ => simp [Accepting.loopStep, hloop] at hs
  | claimJudged referenced =>
    cases hloop : w.loop with
    | claiming addr =>
      simp only [Accepting.loopStep, hloop, Option.some.injEq] at hs
      subst hs
      refine h.looped rfl rfl rfl rfl rfl ?_
      rw [hpermits, hloop] at hsources
      exact hsources
    | _ => simp [Accepting.loopStep, hloop] at hs
  | tryAcquireSource => exact h.limits hs
  | tryAcquireHandshake => exact h.spawns hs
  | dropRefused =>
    cases hloop : w.loop with
    | refusing permit =>
      simp only [Accepting.loopStep, hloop, Option.some.injEq] at hs
      subst hs
      refine h.looped rfl rfl rfl rfl rfl ?_
      rw [hpermits, hloop] at hsources
      cases permit with
      | none => exact hsources
      | some permit =>
        refine Counted.dropped_of_add hsources ?_
        simp [permits, AcceptLoop.permits, add_comm]
    | _ => simp [Accepting.loopStep, hloop] at hs
  | _ => simp [Accepting.loopStep] at hs

/-- **A task ends** that holds nothing more. -/
theorem Accounted.ended (h : w.Accounted) (ht : task ∈ w.tasks) (hphase : task.phase = .closing)
    (hhandler : task.handler = none) (hhandshake : task.handshake = false)
    (hsource : task.source = none) :
    Accounted { w with tasks := w.tasks.erase task } := by
  obtain ⟨others, hothers⟩ := Multiset.exists_cons_of_mem ht
  have herase : w.tasks.erase task = others := by rw [hothers, Multiset.erase_cons_head]
  have hslots : Accepting.slots { w with tasks := w.tasks.erase task } = w.slots := by
    simp [Accepting.slots, hothers, ConnTask.slot, hphase]
  have hpermits : Accepting.permits { w with tasks := w.tasks.erase task } = w.permits := by
    simp [permits, hothers, ConnTask.permits, hsource]
  exact {
    handshakes := by
      have hbefore := h.handshakes
      simpa [handshaking, herase, hothers, Multiset.countP_cons, hhandshake] using hbefore
    handlers := fun kind => by
      have hbefore := h.handlers kind
      simpa [handling, herase, hothers, Multiset.countP_cons, hhandler] using hbefore
    sources := by
      rw [admission, hpermits]
      exact h.sources
    slots := by
      rw [hslots]
      exact h.slots
    peers := by
      rw [hslots]
      exact h.peers
    formed := fun t ht => h.formed t (Multiset.mem_of_mem_erase ht) }

/-- **A peer is counted**, or it has its connections and is refused. -/
theorem Accounted.counts (h : w.Accounted) (ht : task ∈ w.tasks)
    (hs : w.taskStep (.count task) = some w') : w'.Accounted := by
  have hformed := h.formed task ht
  obtain ⟨phase, remote, source, handshake, handler⟩ := task
  cases phase with
  | counting =>
    obtain ⟨rfl, hhandler, hremote⟩ := hformed
    obtain ⟨remoteId, rfl⟩ := Option.isSome_iff_exists.mp hremote
    have hcount : (w.inboundPeerCounts remoteId).getD 0 = w.slots.count remoteId :=
      h.slots.getD remoteId
    simp only [Accepting.taskStep, hcount] at hs
    split at hs
    · next hfull =>
      obtain rfl := Option.some.inj hs
      -- the entry is there already, and stays as it is
      have hmem : remoteId ∈ w.slots :=
        Multiset.count_pos.mp (Nat.lt_of_lt_of_le (by decide) hfull)
      have hsame : Function.update w.inboundPeerCounts remoteId
          (some (w.slots.count remoteId)) = w.inboundPeerCounts := by
        rw [Function.update_eq_self_iff, h.slots.of_mem hmem]
      exact h.advance_semaphores ht rfl rfl rfl hsame rfl rfl (fun _ => rfl) rfl rfl trivial
    · next hfree =>
      obtain rfl := Option.some.inj hs
      have hslots : (ConnTask.mk .serving (some remoteId) source false handler ::ₘ
          w.tasks.erase ⟨.counting, some remoteId, source, false, handler⟩).bind
            ConnTask.slot + w.panicked = remoteId ::ₘ w.slots :=
        bind_gain (f := ConnTask.slot) ht rfl rfl w.panicked
      refine h.advance ht rfl rfl (fun _ => rfl) ?_ ?_ ?_ ⟨rfl, hhandler, rfl⟩
      · exact h.counted_advance ht rfl rfl rfl rfl
      · show Tallies _ (_ + w.panicked)
        refine hslots ▸ ?_
        rw [Function.update_idem]
        have hcons := h.slots.cons remoteId
        rwa [hcount] at hcons
      · intro r
        show Multiset.count r (_ + w.panicked) ≤ _
        refine hslots ▸ ?_
        by_cases hr : r = remoteId
        · subst hr
          rw [Multiset.count_cons_self]
          omega
        · rw [Multiset.count_cons_of_ne hr]
          exact h.peers r
  | _ => cases hs

/-- **A handler panics**, and its peer stays counted. -/
theorem Accounted.panics (h : w.Accounted) (ht : task ∈ w.tasks)
    (hs : w.taskStep (.panicked task) = some w') : w'.Accounted := by
  have hformed := h.formed task ht
  obtain ⟨phase, remote, source, handshake, handler⟩ := task
  cases phase with
  | serving =>
    obtain ⟨rfl, hhandler, hremote⟩ := hformed
    obtain ⟨remoteId, rfl⟩ := Option.isSome_iff_exists.mp hremote
    obtain rfl := Option.some.inj hs
    -- the peer goes from the task to those that stay counted
    have hslots : (ConnTask.mk .closing (some remoteId) source false handler ::ₘ
        w.tasks.erase ⟨.serving, some remoteId, source, false, handler⟩).bind
          ConnTask.slot + remoteId ::ₘ w.panicked = w.slots := by
      rw [Multiset.add_cons]
      exact (bind_loss (f := ConnTask.slot) ht rfl rfl w.panicked).symm
    refine h.advance ht rfl rfl (fun _ => rfl) ?_ ?_ ?_ trivial
    · exact h.counted_advance ht rfl rfl rfl rfl
    · have hkept := h.slots
      rw [← hslots] at hkept
      exact hkept
    · have hkept := h.peers
      rw [← hslots] at hkept
      exact hkept
  | _ => cases hs

/-- **A peer is no longer counted**, and the last one's entry goes. -/
theorem Accounted.uncounts (h : w.Accounted) (ht : task ∈ w.tasks)
    (hs : w.taskStep (.uncount task) = some w') : w'.Accounted := by
  have hformed := h.formed task ht
  obtain ⟨phase, remote, source, handshake, handler⟩ := task
  cases phase with
  | leaving =>
    obtain ⟨rfl, hhandler, hremote⟩ := hformed
    obtain ⟨remoteId, rfl⟩ := Option.isSome_iff_exists.mp hremote
    have hmem : remoteId ∈ w.slots :=
      Multiset.mem_add.mpr (.inl (Multiset.mem_bind.mpr ⟨_, ht, Multiset.mem_singleton_self _⟩))
    simp only [Accepting.taskStep, h.slots.of_mem hmem, Option.some.injEq] at hs
    have hslots : (ConnTask.mk .closing (some remoteId) source false handler ::ₘ
        w.tasks.erase ⟨.leaving, some remoteId, source, false, handler⟩).bind
          ConnTask.slot + w.panicked = w.slots.erase remoteId := by
      have hsum : w.slots = remoteId ::ₘ ((ConnTask.mk .closing (some remoteId) source false
          handler ::ₘ w.tasks.erase _).bind ConnTask.slot + w.panicked) :=
        bind_loss (f := ConnTask.slot) ht rfl rfl w.panicked
      rw [hsum, Multiset.erase_cons_head]
    have hdown := h.slots.erase hmem
    subst hs
    refine h.advance ht rfl rfl (fun _ => rfl) ?_ ?_ ?_ trivial
    · exact h.counted_advance ht rfl rfl rfl rfl
    · show Tallies _ (_ + w.panicked)
      refine hslots.symm ▸ ?_
      convert hdown using 1
      split <;> rfl
    · intro r
      show Multiset.count r (_ + w.panicked) ≤ _
      refine hslots.symm ▸ ?_
      exact (Multiset.count_le_of_le r (Multiset.erase_le ..)).trans (h.peers r)
  | _ => cases hs

/-- **A permit is dropped**, or the task ends. -/
theorem Accounted.drops (h : w.Accounted) (ht : task ∈ w.tasks)
    (hs : w.taskStep (.dropNext task) = some w') : w'.Accounted := by
  simp only [Accepting.taskStep] at hs
  split at hs
  · next hphase =>
    have hslot : ∀ task' : ConnTask, task'.phase = .closing → task'.slot = task.slot := by
      intro task' hphase'
      simp [ConnTask.slot, hphase, hphase']
    split at hs
    · next kind hhandler =>
      obtain rfl := Option.some.inj hs
      refine h.advance_semaphores ht rfl rfl rfl rfl rfl rfl (fun kind' => ?_) rfl
        (hslot _ hphase) (by simp [ConnTask.Formed, hphase])
      by_cases hkind : kind' = kind
      · subst hkind
        simp [hhandler]
      · simp [hhandler, hkind, Ne.symm hkind]
    · next hhandler =>
      split at hs
      · next hhandshake =>
        obtain rfl := Option.some.inj hs
        refine h.advance_semaphores ht rfl rfl rfl rfl rfl ?_ (fun _ => rfl) rfl
          (hslot _ hphase) (by simp [ConnTask.Formed, hphase])
        simp [hhandshake]
      · next hhandshake =>
        cases hsource : task.source with
        | some permit =>
          simp only [hsource, Option.some.injEq] at hs
          subst hs
          have hslots : Accepting.slots { w.advance task { task with source := none } with
              sourceLimiter := w.sourceLimiter.drop permit } = w.slots :=
            slots_advance ht rfl rfl (hslot _ hphase)
          have hbind := bind_advance { task with source := none } ConnTask.permits ht
          have hbefore : task.permits = {permit} := by simp [ConnTask.permits, hsource]
          have hafter : ConnTask.permits { task with source := none } = 0 := rfl
          rw [hbefore, hafter, add_zero] at hbind
          refine h.advance ht rfl rfl (fun _ => rfl) ?_ (hslots ▸ h.slots) (hslots ▸ h.peers)
            (by simp [ConnTask.Formed, hphase])
          refine Counted.dropped_of_add h.sources ?_
          show w.loop.permits + _ = w.loop.permits + _ + _
          rw [← hbind, add_assoc]
          rfl
        | none =>
          simp only [hsource, Option.some.injEq] at hs
          subst hs
          exact h.ended ht hphase hhandler (by simpa using hhandshake) hsource
  · cases hs

/-- **What a task does keeps the account.** -/
theorem Accounted.taskStep (h : w.Accounted) (ht : task ∈ w.tasks)
    (he : Accepting.task e = some task)
    (hs : w.taskStep e = some w') : w'.Accounted := by
  have hformed := h.formed task ht
  cases e with
  | connected t remoteId =>
    obtain rfl : t = task := Option.some.inj he
    simp only [Accepting.taskStep] at hs
    split at hs
    · next hphase =>
      obtain rfl := Option.some.inj hs
      simp only [ConnTask.Formed, hphase] at hformed
      refine h.advance_semaphores ht rfl rfl rfl rfl rfl ?_ (fun _ => rfl) rfl ?_ ?_
      · simp [hformed.1]
      · simp [ConnTask.slot, hphase]
      · exact ⟨rfl, hformed.2, rfl⟩
    · cases hs
  | handshakeFailed t =>
    obtain rfl : t = task := Option.some.inj he
    simp only [Accepting.taskStep] at hs
    split at hs
    · next hphase =>
      obtain rfl := Option.some.inj hs
      refine h.advance_semaphores ht rfl rfl rfl rfl rfl rfl (fun _ => rfl) rfl ?_ trivial
      simp [ConnTask.slot, hphase]
    · cases hs
  | classified t isReferencedPeer =>
    obtain rfl : t = task := Option.some.inj he
    simp only [Accepting.taskStep] at hs
    split at hs
    · next hphase =>
      simp only [ConnTask.Formed, hphase] at hformed
      split at hs
      · obtain rfl := Option.some.inj hs
        refine h.advance_semaphores ht rfl rfl rfl rfl rfl rfl (fun _ => rfl) rfl ?_ trivial
        simp [ConnTask.slot, hphase]
      · next hfree =>
        obtain rfl := Option.some.inj hs
        refine h.advance_semaphores ht rfl rfl rfl rfl rfl rfl (fun kind => ?_) rfl ?_ ?_
        · by_cases hkind : kind = HandlerKind.of isReferencedPeer
          · subst hkind
            simp [hformed.2.1]
            omega
          · simp [hformed.2.1, hkind, Ne.symm hkind]
        · simp [ConnTask.slot, hphase]
        · exact ⟨hformed.1, rfl, hformed.2.2⟩
    · cases hs
  | count t =>
    obtain rfl : t = task := Option.some.inj he
    exact h.counts ht hs
  | served t =>
    obtain rfl : t = task := Option.some.inj he
    simp only [Accepting.taskStep] at hs
    split at hs
    · next hphase =>
      obtain rfl := Option.some.inj hs
      simp only [ConnTask.Formed, hphase] at hformed
      refine h.advance_semaphores ht rfl rfl rfl rfl rfl rfl (fun _ => rfl) rfl ?_ hformed
      simp [ConnTask.slot, hphase]
    · cases hs
  | panicked t =>
    obtain rfl : t = task := Option.some.inj he
    exact h.panics ht hs
  | uncount t =>
    obtain rfl : t = task := Option.some.inj he
    exact h.uncounts ht hs
  | dropNext t =>
    obtain rfl : t = task := Option.some.inj he
    exact h.drops ht hs
  | _ => cases he

/-- **Every event keeps the account.** -/
theorem Accounted.step (h : w.Accounted) (hs : w.step e = some w') : w'.Accounted := by
  unfold Accepting.step at hs
  split at hs
  · exact h.loopStep hs
  · next task he =>
    split at hs
    · next ht => exact h.taskStep ht he hs
    · cases hs

/-- **Every run keeps the account.** -/
theorem Accounted.run (h : w.Accounted) {events : List AcceptEvent}
    (hr : w.run events = some w') : w'.Accounted := by
  induction events generalizing w with
  | nil => exact Option.some.inj hr ▸ h
  | cons e events ih =>
    obtain ⟨u, hu, hr⟩ := Option.bind_eq_some_iff.mp hr
    exact ih (h.step hu) hr

/-! ## Admission is exact, and nothing leaks -/

/-- **What is exact of the accept loop at one moment.** -/
structure Exact (w : Accepting) : Prop where
  /-- The connections at each place are within its limit. -/
  handshaking : w.handshaking ≤ maxInboundHandshakes
  handling : ∀ kind, w.handling kind ≤ kind.capacity
  source : ∀ source, w.admission.live source ≤ maxInboundConnectionsPerSource
  peer : ∀ remoteId, w.slots.count remoteId ≤ maxInboundConnectionsPerPeer
  /-- A connection is refused for its source when that has its connections,
  and only then. -/
  source_refused : ∀ addr, w.loop = .limiting addr false →
    ((∃ w', w.step .tryAcquireSource = some w' ∧ w'.loop = .accepting) ↔
      w.admission.live (inboundSourceKey addr) = maxInboundConnectionsPerSource)
  /-- So it is with the handshakes, -/
  handshake_refused : ∀ permit, w.loop = .shaking permit →
    (w.step .tryAcquireHandshake = some { w with loop := .refusing permit } ↔
      w.handshaking = maxInboundHandshakes)
  /-- with the handlers of its kind, -/
  handler_refused : ∀ task ∈ w.tasks, task.phase = .classifying → ∀ referenced,
    (w.step (.classified task referenced) =
        some (w.advance task { task with phase := .closing }) ↔
      w.handling (.of referenced) = (HandlerKind.of referenced).capacity)
  /-- and with its peer. -/
  peer_refused : ∀ task ∈ w.tasks, task.phase = .counting →
    ∀ remoteId, task.remoteId = some remoteId →
      (w.step (.count task) = some (w.advance task { task with phase := .closing }) ↔
        w.slots.count remoteId = maxInboundConnectionsPerPeer)

/-- The two outcomes of an admission are told apart by the phase of the
task. -/
theorem advance_ne (hne : task' ≠ task) {t : ConnTask}
    (htasks : w'.tasks = task ::ₘ w.tasks.erase t) :
    w' ≠ w.advance t task' := by
  intro heq
  have hcons : task ::ₘ w.tasks.erase t = task' ::ₘ w.tasks.erase t := by
    rw [← htasks, heq]
    rfl
  exact hne ((Multiset.cons_inj_left _).mp hcons).symm

theorem Accounted.exact (h : w.Accounted) : w.Exact where
  handshaking := by
    have := h.handshakes
    omega
  handling kind := by
    have := h.handlers kind
    omega
  source := h.sources.bounded
  peer := h.peers
  source_refused addr hloop := by
    have hstep : w.step .tryAcquireSource = w.loopStep .tryAcquireSource := rfl
    have hbound := h.sources.bounded (inboundSourceKey addr)
    rw [hstep]
    by_cases hfree : w.admission.live (inboundSourceKey addr) < maxInboundConnectionsPerSource
    · have htry : w.sourceLimiter.tryAcquire (inboundSourceKey addr) = _ :=
        h.sources.admitted hfree
      simp only [Accepting.loopStep, hloop, htry, Option.some.injEq]
      constructor
      · rintro ⟨w', rfl, hloop'⟩
        cases hloop'
      · intro hfull
        omega
    · have htry : w.sourceLimiter.tryAcquire (inboundSourceKey addr) = _ :=
        h.sources.refused (by decide) (Nat.not_lt.mp hfree)
      simp only [Accepting.loopStep, hloop, htry, Option.some.injEq]
      constructor
      · intro _
        omega
      · intro _
        exact ⟨_, rfl, rfl⟩
  handshake_refused permit hloop := by
    have hcount := h.handshakes
    have hstep : w.step .tryAcquireHandshake = w.loopStep .tryAcquireHandshake := rfl
    rw [hstep]
    by_cases hfull : w.inboundHandshakes = 0
    · simp only [Accepting.loopStep, hloop, hfull, if_true, true_iff]
      omega
    · simp only [Accepting.loopStep, hloop, hfull, if_false, Option.some.injEq]
      constructor
      · intro heq
        have hloops := congrArg Accepting.loop heq
        cases hloops
      · intro hcap
        omega
  handler_refused task ht hphase referenced := by
    have hcount := h.handlers (.of referenced)
    have hstep : w.step (.classified task referenced) = w.taskStep (.classified task referenced) :=
      if_pos ht
    rw [hstep]
    by_cases hfull : w.handlers (.of referenced) = 0
    · simp only [Accepting.taskStep, hphase, hfull, if_true, true_iff]
      omega
    · simp only [Accepting.taskStep, hphase, hfull, if_true, if_false, Option.some.injEq]
      constructor
      · intro heq
        refine absurd heq (advance_ne (fun hsame => ?_) rfl)
        have hphases := congrArg ConnTask.phase hsame
        cases hphases
      · intro hcap
        omega
  peer_refused task ht hphase remoteId hremote := by
    have hcount : (w.inboundPeerCounts remoteId).getD 0 = w.slots.count remoteId :=
      h.slots.getD remoteId
    have hbound := h.peers remoteId
    have hstep : w.step (.count task) = w.taskStep (.count task) := if_pos ht
    rw [hstep]
    obtain ⟨phase, remote, source, handshake, handler⟩ := task
    obtain rfl : phase = .counting := hphase
    obtain rfl : remote = some remoteId := hremote
    simp only [Accepting.taskStep, hcount]
    by_cases hfull : maxInboundConnectionsPerPeer ≤ w.slots.count remoteId
    · have hmem : remoteId ∈ w.slots :=
        Multiset.count_pos.mp (Nat.lt_of_lt_of_le (by decide) hfull)
      have hsame : Function.update w.inboundPeerCounts remoteId
          (some (w.slots.count remoteId)) = w.inboundPeerCounts := by
        rw [Function.update_eq_self_iff, h.slots.of_mem hmem]
      rw [if_pos hfull, hsame]
      constructor
      · intro _
        omega
      · intro _
        rfl
    · rw [if_neg hfull]
      constructor
      · intro heq
        refine absurd (Option.some.inj heq) (advance_ne (fun hsame => ?_) rfl)
        have hphases := congrArg ConnTask.phase hsame
        cases hphases
      · intro hcap
        omega

/-- **The accept loop is exact.** Whatever arrives, fails, is served or
panics, in whichever order: no more connections are at the handshake,
handled, or served for one source or one peer than the limits say, and a
connection is refused where a limit is reached, never before. -/
theorem accept_loop_exact {events : List AcceptEvent} (hr : start.run events = some w) :
    w.Exact :=
  (Accounted.start.run hr).exact

/-- The peer of the handler an event panics. -/
def lost : AcceptEvent → Multiset Bytes32
  | .panicked task => task.remoteId.elim 0 fun remoteId => {remoteId}
  | _ => 0

/-- **Only a panic leaves a peer counted.** -/
theorem panicked_step (hs : w.step e = some w') : w'.panicked = lost e + w.panicked := by
  cases e with
  | panicked task =>
    obtain ⟨phase, remote, source, handshake, handler⟩ := task
    unfold step at hs
    split at hs
    · next he => cases he
    · next t he =>
      obtain rfl := Option.some.inj he
      split at hs
      · cases phase <;> cases remote <;> cases hs
        rfl
      · cases hs
  | _ =>
    show w'.panicked = 0 + w.panicked
    rw [zero_add]
    simp only [step, task, loopStep, taskStep] at hs
    grind [advance]

theorem panicked_run {events : List AcceptEvent} (hr : w.run events = some w') :
    w'.panicked = (events.map lost).sum + w.panicked := by
  induction events generalizing w with
  | nil => simp [← Option.some.inj hr]
  | cons e events ih =>
    obtain ⟨u, hu, hr⟩ := Option.bind_eq_some_iff.mp hr
    rw [ih hr, panicked_step hu, List.map_cons, List.sum_cons]
    abel

/-- **Nothing leaks but the count of a handler that panics.** Once the
loop waits and no task is left, the semaphores and the map of the sources
are as they were at the start, whatever has been refused, has failed or
timed out in between. The map of the peers names those whose handlers
panicked, each with the number of its panics: four of them lock a peer
out until the app is started again. -/
theorem accept_loop_leaks {events : List AcceptEvent} (hr : start.run events = some w)
    (hloop : w.loop = .accepting) (htasks : w.tasks = 0) :
    w.inboundHandshakes = start.inboundHandshakes ∧ w.handlers = start.handlers ∧
      w.sourceLimiter = start.sourceLimiter ∧
      Tallies w.inboundPeerCounts (events.map lost).sum := by
  have h : w.Accounted := Accounted.start.run hr
  have hpanicked : w.panicked = (events.map lost).sum := by
    rw [panicked_run hr]
    exact add_zero _
  refine ⟨?_, ?_, ?_, ?_⟩
  · have hcount := h.handshakes
    rwa [handshaking, htasks, Multiset.countP_zero] at hcount
  · funext kind
    have hcount := h.handlers kind
    rwa [handling, htasks, Multiset.countP_zero] at hcount
  · have hnone : w.permits = 0 := by rw [permits, hloop, htasks]; rfl
    have hcounts : w.sourceLimiter.counts = fun _ => none := by
      funext source
      have hcount := h.sources.tallies source
      rwa [SourceAdmission.sources, admission, hnone, if_neg (by simp)] at hcount
    have hmax : w.sourceLimiter.maxPerSource = maxInboundConnectionsPerSource :=
      h.sources.maximum
    show SourceAdmissionLimiter.mk w.sourceLimiter.maxPerSource w.sourceLimiter.counts = _
    rw [hmax, hcounts]
    rfl
  · have hslots := h.slots
    rw [slots, htasks, hpanicked] at hslots
    simpa using hslots

/-! ## Strangers take no room from the paired desktop -/

/-- **The answers agree with a set of peers**, those the store and the
session refer to. -/
def AgreesWith (peers : Bytes32 → Bool) : AcceptEvent → Bool
  | .classified task referenced =>
    task.remoteId.all fun remoteId => referenced == peers remoteId
  | _ => true

/-- The task holds a handler's permit, for one of the peers. -/
def HandledFor (peers : Bytes32 → Bool) (task : ConnTask) : Bool :=
  task.handler.isSome && (task.remoteId.map peers).getD false

/-- **The handlers of the two kinds are those of the peers and of the
strangers.** -/
def KindsAgree (peers : Bytes32 → Bool) (w : Accepting) : Prop :=
  ∀ task ∈ w.tasks, ∀ kind, task.handler = some kind →
    ∃ remoteId, task.remoteId = some remoteId ∧ kind = .of (peers remoteId)

theorem KindsAgree.advance {peers : Bytes32 → Bool} (h : w.KindsAgree peers)
    (htasks : w'.tasks = task' ::ₘ w.tasks.erase task)
    (hkind : ∀ kind, task'.handler = some kind →
      ∃ remoteId, task'.remoteId = some remoteId ∧ kind = .of (peers remoteId)) :
    w'.KindsAgree peers := by
  intro t ht
  rw [htasks] at ht
  obtain rfl | ht := Multiset.mem_cons.mp ht
  · exact hkind
  · exact h t (Multiset.mem_of_mem_erase ht)

/-- The loop adds a task without a handler, if any. -/
theorem loopStep_tasks (hs : w.loopStep e = some w') (ht : task ∈ w'.tasks) :
    task ∈ w.tasks ∨ task.handler = none := by
  cases e with
  | tryAcquireHandshake =>
    simp only [loopStep] at hs
    split at hs
    · split at hs
      · obtain rfl := Option.some.inj hs
        exact .inl ht
      · obtain rfl := Option.some.inj hs
        obtain rfl | ht := Multiset.mem_cons.mp ht
        · exact .inr rfl
        · exact .inl ht
    · cases hs
  | _ =>
    refine .inl ?_
    simp only [loopStep] at hs
    grind

/-- **Every event keeps the kinds apart**: a handler's permit is taken
where the peer is classified. -/
theorem KindsAgree.step {peers : Bytes32 → Bool} (h : w.KindsAgree peers) (ha : w.Accounted)
    (he : AgreesWith peers e) (hs : w.step e = some w') : w'.KindsAgree peers := by
  unfold Accepting.step at hs
  split at hs
  · intro t ht kind hkind
    obtain ht | hnone := loopStep_tasks hs ht
    · exact h t ht kind hkind
    · rw [hnone] at hkind
      cases hkind
  · next task hetask =>
    split at hs
    · next ht =>
      have hformed := ha.formed task ht
      have hbefore := h task ht
      cases e with
      | classified t referenced =>
        obtain rfl : t = task := Option.some.inj hetask
        simp only [taskStep] at hs
        split at hs
        · next hphase =>
          simp only [ConnTask.Formed, hphase] at hformed
          obtain ⟨remoteId, hremote⟩ := Option.isSome_iff_exists.mp hformed.2.2
          split at hs
          · obtain rfl := Option.some.inj hs
            exact h.advance rfl hbefore
          · obtain rfl := Option.some.inj hs
            refine h.advance rfl fun kind hkind => ⟨remoteId, hremote, ?_⟩
            have hanswer : referenced = peers remoteId := by
              simpa [AgreesWith, hremote] using he
            rw [← hanswer]
            exact (Option.some.inj hkind).symm
        · cases hs
      | connected t remoteId =>
        obtain rfl : t = task := Option.some.inj hetask
        simp only [taskStep] at hs
        split at hs
        · next hphase =>
          simp only [ConnTask.Formed, hphase] at hformed
          obtain rfl := Option.some.inj hs
          refine h.advance rfl fun kind hkind => ?_
          rw [hformed.2] at hkind
          cases hkind
        · cases hs
      | dropNext t =>
        obtain rfl : t = task := Option.some.inj hetask
        simp only [taskStep] at hs
        split at hs
        · split at hs
          · obtain rfl := Option.some.inj hs
            exact h.advance rfl nofun
          · next hhandler =>
            split at hs
            · obtain rfl := Option.some.inj hs
              exact h.advance rfl hbefore
            · split at hs
              · obtain rfl := Option.some.inj hs
                exact h.advance rfl hbefore
              · obtain rfl := Option.some.inj hs
                exact fun t ht => h t (Multiset.mem_of_mem_erase ht)
        · cases hs
      | handshakeFailed t | served t =>
        obtain rfl : t = task := Option.some.inj hetask
        simp only [taskStep] at hs
        split at hs
        · obtain rfl := Option.some.inj hs
          exact h.advance rfl hbefore
        · cases hs
      | count t =>
        obtain rfl : t = task := Option.some.inj hetask
        simp only [taskStep] at hs
        split at hs
        · next hremote =>
          split at hs
          · obtain rfl := Option.some.inj hs
            exact h.advance rfl hbefore
          · obtain rfl := Option.some.inj hs
            exact h.advance rfl hbefore
        · cases hs
      | panicked t | uncount t =>
        obtain rfl : t = task := Option.some.inj hetask
        simp only [taskStep] at hs
        split at hs
        · obtain rfl := Option.some.inj hs
          exact h.advance rfl hbefore
        · cases hs
      | _ => cases hetask
    · cases hs

/-- **Every run keeps the kinds apart.** -/
theorem KindsAgree.run {peers : Bytes32 → Bool} (h : w.KindsAgree peers) (ha : w.Accounted)
    {events : List AcceptEvent} (he : ∀ e ∈ events, AgreesWith peers e)
    (hr : w.run events = some w') : w'.KindsAgree peers := by
  induction events generalizing w with
  | nil => exact Option.some.inj hr ▸ h
  | cons e events ih =>
    obtain ⟨u, hu, hr⟩ := Option.bind_eq_some_iff.mp hr
    exact ih (h.step ha (he e (List.mem_cons_self ..)) hu) (ha.step hu)
      (fun e he' => he e (List.mem_cons_of_mem _ he')) hr

/-- The node of the paired desktop, and one of somebody else. -/
def desktopNode : Bytes32 := .replicate 32 1
def strangerNode : Bytes32 := .replicate 32 2

/-- One connection from its arrival to the count of its peer, its source
limited or not. -/
def opened (addr : IncomingAddr) (remoteId : Bytes32) (referenced : Bool) : List AcceptEvent :=
  let source := if referenced then none else some ⟨inboundSourceKey addr⟩
  (match inboundClaimedEndpointId addr with
    | some _ => [.accept addr, .claimJudged referenced]
    | none => [.accept addr]) ++
  [.tryAcquireSource, .tryAcquireHandshake,
    .connected ⟨.handshaking, none, source, true, none⟩ remoteId,
    .classified ⟨.classifying, some remoteId, source, false, none⟩ referenced,
    .count ⟨.counting, some remoteId, source, false, some (.of referenced)⟩]

/-- Four connections of a stranger to be served, and one of the desktop on
the relay they came by. -/
def floodedRelay : List AcceptEvent :=
  (List.replicate 4 (opened (.relay "relay" strangerNode) strangerNode false)).flatten ++
    opened (.relay "relay" desktopNode) desktopNode true

/-- A handler that panics, and what its task drops. -/
def panickedHandler : List AcceptEvent :=
  opened (.relay "relay" desktopNode) desktopNode true ++
    [.panicked ⟨.serving, some desktopNode, none, false, some .paired⟩,
      .dropNext ⟨.closing, some desktopNode, none, false, some .paired⟩,
      .dropNext ⟨.closing, some desktopNode, none, false, none⟩]

/-- **Strangers cannot keep the paired desktop out.** While the answers of
`is_referenced_pairing_peer` agree with a set of peers, a connection of
one of them that has done its handshake is refused a handler only when
four handlers are busy with these peers, and its count only when four of
its own connections are counted or were lost to a panic; whatever everybody
else has opened. -/
theorem strangers_leave_room {peers : Bytes32 → Bool} {events : List AcceptEvent}
    (he : ∀ e ∈ events, AgreesWith peers e) (hr : start.run events = some w) {remoteId : Bytes32}
    (hpeer : peers remoteId = true) (ht : task ∈ w.tasks)
    (hremote : task.remoteId = some remoteId) :
    (task.phase = .classifying →
      (w.step (.classified task (peers remoteId)) =
          some (w.advance task { task with phase := .closing }) ↔
        w.tasks.countP (HandledFor peers ·) = maxPairedConnectionHandlers)) ∧
    (task.phase = .counting →
      (w.step (.count task) = some (w.advance task { task with phase := .closing }) ↔
        (w.tasks.bind ConnTask.slot).count remoteId + ((events.map lost).sum).count remoteId =
          maxInboundConnectionsPerPeer)) := by
  have h : w.Accounted := Accounted.start.run hr
  have hkinds : w.KindsAgree peers :=
    KindsAgree.run (fun _ ht => absurd ht (Multiset.notMem_zero _)) Accounted.start he hr
  have hpanicked : w.panicked = (events.map lost).sum := by
    rw [panicked_run hr]
    exact add_zero _
  constructor
  · intro hphase
    have hhandling : w.handling .paired = w.tasks.countP (HandledFor peers ·) := by
      refine Multiset.countP_congr rfl fun t ht => propext ?_
      constructor
      · intro hkind
        obtain ⟨r, hr, hof⟩ := hkinds t ht _ hkind
        cases hp : peers r with
        | true => simp [HandledFor, hkind, hr, hp]
        | false => simp [HandlerKind.of, hp] at hof
      · intro hhandled
        obtain ⟨hsome, hpeer⟩ := Bool.and_eq_true_iff.mp hhandled
        obtain ⟨kind, hkind⟩ := Option.isSome_iff_exists.mp hsome
        obtain ⟨r, hr, rfl⟩ := hkinds t ht _ hkind
        simp only [hr, Option.map_some, Option.getD_some] at hpeer
        rw [hkind, hpeer]
        rfl
    rw [← hhandling, hpeer]
    exact h.exact.handler_refused task ht hphase true
  · intro hphase
    rw [h.exact.peer_refused task ht hphase remoteId hremote, slots, Multiset.count_add, hpanicked]

theorem accept_loop_exact_flooded : ∃ w, start.run floodedRelay = some w ∧ w.Exact := by
  have hrun : (start.run floodedRelay).isSome = true := by decide +kernel
  obtain ⟨w, hw⟩ := Option.isSome_iff_exists.mp hrun
  exact ⟨w, hw, accept_loop_exact hw⟩

theorem accept_loop_leaks_panicked : ∃ w, start.run panickedHandler = some w ∧
    Tallies w.inboundPeerCounts {desktopNode} := by
  have hrun : ((start.run panickedHandler).filter fun w =>
      w.loop = .accepting ∧ w.tasks = 0).isSome = true := by decide +kernel
  obtain ⟨w, hw⟩ := Option.isSome_iff_exists.mp hrun
  obtain ⟨hw, hidle⟩ := Option.filter_eq_some_iff.mp hw
  obtain ⟨hloop, htasks⟩ := of_decide_eq_true hidle
  exact ⟨w, hw, (accept_loop_leaks hw hloop htasks).2.2.2⟩

/-- Here the desktop's connection is about to be classified, and a
stranger's flood has taken all that its relay may have. -/
theorem strangers_leave_room_flooded : ∃ w task, start.run (floodedRelay.take 33) = some w ∧
    task ∈ w.tasks ∧ task.phase = .classifying ∧
    (w.step (.classified task true) = some (w.advance task { task with phase := .closing }) ↔
      w.tasks.countP (HandledFor (· = desktopNode) ·) = maxPairedConnectionHandlers) := by
  have hrun : ((start.run (floodedRelay.take 33)).filter fun w =>
      ConnTask.mk .classifying (some desktopNode) none false none ∈ w.tasks).isSome = true := by
    decide +kernel
  obtain ⟨w, hw⟩ := Option.isSome_iff_exists.mp hrun
  obtain ⟨hw, hmem⟩ := Option.filter_eq_some_iff.mp hw
  have ht := of_decide_eq_true hmem
  have he : ∀ e ∈ floodedRelay.take 33, AgreesWith (· = desktopNode) e := by decide +kernel
  exact ⟨w, _, hw, ht, rfl, (strangers_leave_room he hw (by decide) ht rfl).1 rfl⟩

end Accepting

end Phone
