import Ferusa.Lib.Sequence
import Ferusa.Phone.Integrity

/-!
# Runs of the store operations

Any sequence of store operations on one phone store, each command of
which may fail, applied or not, and the process dying after any of
them. The operations come in the order `setup_complete` gives them: a
pairing id is begun once; its handshake starts when its record has been
stored, its approval key has just signed and verified, and it has not
been aborted; it is aborted before its handshake only, and committed or
activated after it only.
-/

namespace Phone

open Logic StoreProg

/-- **The store with its history**, and which operations it has seen. -/
structure Bench where
  store : Store
  history : History
  begun : List Uuid
  stored : List Uuid
  aborted : List Uuid

/-- The store operations, and the handshake of a pairing. -/
inductive BenchOp where
  | begin (id : Uuid)
  | generate (id : Uuid)
  | store (id : Uuid) (keyAlias : ApprovalAlias) (der : Bytes) (share : Bytes32)
      (pin4Hash pin6Hash : String) (node : Bytes32)
  | abort (id : Uuid)
  | handshake (id : Uuid) (der : Bytes)
  | commit (id : Uuid)
  | activate (id : Uuid)
  | finalize
  | cleanupRetiring
  | isSetup
  | loadSecrets

/-- What the commands of an operation are put for. -/
def BenchOp.op : BenchOp → StoreOp
  | begin id => .begin id
  | generate id => .generate id
  | store id _ _ _ _ _ _ => .store id
  | abort id => .abort id
  | commit id => .commit id
  | activate id => .activate id
  | _ => .read

/-- A program whose value is dropped. -/
def StoreProg.dropValue {α : Type} (p : StoreProg α) : StoreProg Unit := do
  let _ ← p
  pure ()

variable [Crypto]

/-- The start of a handshake: the approval key signs, and the signature
verifies. -/
def startHandshake (id : Uuid) (der : Bytes) : StoreProg Unit := do
  let signature ← signApproval (approvalKeyAlias id) (canonicalPairingReadyPayload id)
  if verifyPairingReadySignature der id signature then pure ()
  else bail "approval key does not match generated public key"

/-- **The program of an operation**, under the storage lock but for the
approval key, which is generated and signs without it. -/
def BenchOp.program : BenchOp → StoreProg Unit
  | begin id => withStorageGuard (beginPendingPairing id)
  | generate id => dropValue (generateApprovalKey (approvalKeyAlias id))
  | store id keyAlias der share pin4Hash pin6Hash node =>
    withStorageGuard
      (storePendingPairingGeneration id keyAlias der share pin4Hash pin6Hash node)
  | abort id => withStorageGuard (abortUnstartedPairing id)
  | handshake id der => startHandshake id der
  | commit id => withStorageGuard (commitPendingGeneration id)
  | activate id => withStorageGuard (dropValue (activateGeneration id))
  | finalize => withStorageGuard finalizeActiveActivation
  | cleanupRetiring => withStorageGuard cleanupRetiringGeneration
  | isSetup => withStorageGuard (dropValue isSetupInStore)
  | loadSecrets => withStorageGuard (dropValue Phone.loadSecrets)

namespace Bench

/-- **When an operation may start** – the order `setup_complete` gives
the operations of one pairing. -/
def Allowed (b : Bench) : BenchOp → Prop
  | .begin id => id ∉ b.begun
  | .generate id => id ∈ b.begun ∧ id ∉ b.history.handshaken
  | .store id _ _ _ _ _ _ => id ∈ b.begun ∧ id ∉ b.history.handshaken
  | .abort id => id ∈ b.begun ∧ id ∉ b.history.handshaken
  | .handshake id _ => id ∈ b.stored ∧ id ∉ b.aborted
  | .commit id => id ∈ b.history.handshaken
  | .activate id => id ∈ b.history.handshaken
  | _ => True

/-- What is noted when an operation starts. -/
def noteStart (b : Bench) : BenchOp → Bench
  | .begin id => { b with begun := id :: b.begun }
  | .abort id => { b with aborted := id :: b.aborted }
  | _ => b

/-- What is noted when an operation returns. -/
def noteReturn (b : Bench) : BenchOp → Bench
  | .store id _ _ _ _ _ _ => { b with stored := id :: b.stored }
  | .handshake id _ => { b with history := b.history.noteHandshake id }
  | _ => b

/-- What is noted when an operation ends. -/
def noteEnd (b : Bench) (bop : BenchOp) : Except Anyhow Unit → Bench
  | .ok _ => b.noteReturn bop
  | .error _ => b

/-- The store after a command. -/
def withStore (b : Bench) (store : Store) : Bench :=
  { b with store, history := b.history.note b.store store }

/-- The lock is gone with the process. -/
def restart (b : Bench) : Bench :=
  { b with store := { b.store with guard := none } }

/-- A store that was never used. -/
def initial : Bench :=
  { store := .empty, history := .empty, begun := [], stored := [],
    aborted := [] }

end Bench

/-- **The runs**: allowed operations one after the other, each command
answered in any of the ways the keystore may answer, the process dying
at any moment. -/
def benchScript : Script StoreCmd.Reply BenchOp Bench Anyhow Unit where
  exec c b r b' := ∃ o s, Store.exec 0 c o b.store = some (r, s) ∧ b' = b.withStore s
  program := BenchOp.program
  start bop b b' := b.Allowed bop ∧ b' = b.noteStart bop
  finish bop r b := b.noteEnd bop r
  stop b b' := b' = b.restart

/-! ## The invariant -/

/-- **The invariant of the runs**: the store is intact, and a generation
that was stored and not aborted is pending, or was active. -/
structure Bench.Inv (b : Bench) : Prop where
  intact : Integrity b.store b.history
  storedPending : ∀ id, id ∈ b.stored → id ∉ b.aborted →
    (b.store.secrets.ptr .pending = some id ∧ b.store.secrets.gen id ≠ none) ∨
      id ∈ b.history.actives
  handshakenBegun : ∀ id, id ∈ b.history.handshaken → id ∈ b.begun
  storedBegun : ∀ id, id ∈ b.stored → id ∈ b.begun

/-- What an operation relies on while it runs. -/
structure Bench.Running (b : Bench) (bop : BenchOp) : Prop where
  permitted : b.history.Permitted bop.op
  aborted : ∀ id, bop.op = .abort id → id ∈ b.aborted
  begun : ∀ id, bop.op = .store id → id ∈ b.begun
  stored : ∀ id der, bop = .handshake id der → id ∈ b.stored ∧ id ∉ b.aborted

/-- What an operation has established when it returns. -/
def Bench.Done (b : Bench) : BenchOp → Prop
  | .store id _ _ _ _ _ _ =>
    b.store.secrets.ptr .pending = some id ∧ b.store.secrets.gen id ≠ none ∧ id ∈ b.begun
  | .handshake id _ =>
    id ∈ b.stored ∧ id ∉ b.aborted ∧ b.store.keys (approvalKeyAlias id) ≠ none
  | _ => True

/-- **The certificate of the runs.** -/
def benchCertificate : Script.Certificate BenchOp Bench Anyhow Unit where
  inv := Bench.Inv
  idle _ := True
  guar bop b b' := b' = b.withStore b'.store ∧ b.Running bop ∧
    StoreStep 0 bop.op b.store b'.store
  post bop _ b := b.Done bop
  error _ _ _ := True

namespace Bench

variable {b b' : Bench} {bop : BenchOp} {id : Uuid} {s : Store}

/-- **A command** put for an operation that may make it. -/
theorem Inv.withStore (hi : b.Inv) (hr : b.Running bop) (hs : StoreStep 0 bop.op b.store s) :
    (b.withStore s).Inv where
  intact := hi.intact.step hr.permitted hs
  storedPending id hst hab := by
    by_cases hid : id ∈ b.history.actives
    · exact .inr (History.note_actives hid)
    obtain ⟨hp, hg⟩ := (hi.storedPending id hst hab).resolve_right hid
    have hop : bop.op ≠ .abort id := fun h => hab (hr.aborted id h)
    obtain ⟨hp', hg', -⟩ := hi.intact.pending_kept hs hp hid hop
    refine .inl ⟨hp', ?_⟩
    rcases hg' with hg' | hg'
    · exact hg' ▸ hg
    · exact hg'.2
  handshakenBegun id hh := hi.handshakenBegun id (History.note_handshaken ▸ hh)
  storedBegun := hi.storedBegun

omit [Crypto] in
theorem Running.withStore (hr : b.Running bop) : (b.withStore s).Running bop :=
  { hr with permitted := History.permitted_note.mpr hr.permitted }

/-- The setting of an operation. -/
abbrev logic (bop : BenchOp) : Logic StoreCmd.Reply Bench :=
  benchCertificate.logic benchScript bop

/-- Nobody interferes. -/
theorem stable (P : Bench → Prop) : (logic bop).Stable P := by
  rintro b b' - hP rfl -
  exact hP

/-- A command that makes a store step keeps the guarantee. -/
theorem guar_withStore (hr : b.Running bop) (hs : StoreStep 0 bop.op b.store s) :
    (logic bop).guar b (b.withStore s) := ⟨rfl, hr, hs⟩

/-- A program of the store does here what it does on the store. -/
theorem triple_hoist (bop : BenchOp) {p : StoreProg Unit} {P : Store → Prop}
    {Q : Unit → Store → Prop} {E : Anyhow → Store → Prop} (h : (storeLogic 0 bop.op).Triple P p Q E) :
    (logic bop).Triple (fun b => P b.store ∧ b.Running bop) p
      (fun a b => Q a b.store ∧ b.Running bop) (fun e b => E e b.store ∧ b.Running bop) := by
  have h' := Triple.hoist (logic bop) Bench.store (fun c => c) (fun _ r => r)
    (fun b => b.Running bop) (fun _ _ => trivial) ?_ (stable _) ?_ h
  · rwa [Prog.hoist_id] at h'
  · rintro b b' - rfl -
    exact (storeLogic 0 bop.op).rely_refl _
  · rintro c b r b' - hr ⟨o, s, ho, rfl⟩
    exact ⟨⟨o, ho⟩, fun hs => ⟨guar_withStore hr hs, hr.withStore⟩⟩

/-- **An operation under the lock.** -/
theorem triple_guarded (bop : BenchOp) {p : StoreProg Unit} {Q : Secrets → Prop}
    (h : ∀ v, Runs 0 bop.op Anything (Snapshot 0 v) p
      (fun _ s => ∃ v, Q v ∧ Snapshot 0 v s)) :
    (logic bop).Triple (fun b => b.Running bop) (withStorageGuard p)
      (fun _ b => Q b.store.secrets ∧ b.Running bop) (fun _ _ => True) := by
  have hbody := triple_hoist bop (runs_held h)
  let M : Except Anyhow Unit → Bench → Prop := fun r b =>
    (r = .ok () → Q b.store.secrets) ∧ b.Running bop
  suffices h' : (logic bop).Triple (fun b => b.Running bop)
      ((withStorageGuard p).hoist (fun c => c) (fun _ r => r)) (fun a => M (.ok a))
      (fun e => M (.error e)) by
    rw [Prog.hoist_id] at h'
    exact h'.conseq (fun _ _ hb => hb) (fun _ b _ hb => ⟨hb.1 rfl, hb.2⟩)
      (fun _ _ _ _ => trivial)
  refine withStorageGuard_triple (fun c => c) (fun _ r => r)
    (fun b => Held 0 b.store ∧ b.Running bop) M M (stable _) ?_ ?_
    (fun _ => stable _) ?_ (fun _ => stable _)
  · rintro b r b' - hr ⟨o, s, ho, rfl⟩
    obtain ⟨hg, rfl⟩ := Store.exec_acquireGuard ho
    exact ⟨guar_withStore hr (.acquire hg), rfl, hr.withStore⟩
  · rw [Prog.hoist_id]
    exact hbody.conseq (fun _ _ hb => hb)
      (fun _ b _ ⟨⟨v, hv, hs⟩, hr⟩ => ⟨fun _ => hs.2 ▸ hv, hr⟩)
      (fun _ b _ hb => ⟨by simp, hb.2⟩)
  · rintro r b u b' - ⟨hq, hr⟩ ⟨o, s, ho, rfl⟩
    obtain ⟨hg, rfl⟩ := Store.exec_releaseGuard ho
    exact ⟨guar_withStore hr (.release hg), hq, hr.withStore⟩

/-- The operations under the lock of which nothing is needed at their
end. -/
theorem triple_guarded' {p : StoreProg Unit}
    (h : ∀ v, Runs 0 bop.op Anything (Snapshot 0 v) p (fun _ => Held 0)) :
    (logic bop).Triple (fun b => b.Running bop) (withStorageGuard p)
      (fun _ _ => True) (fun _ _ => True) :=
  (triple_guarded bop (Q := fun _ => True) fun v =>
    (h v).post fun _ s _ hs => ⟨s.secrets, trivial, hs.snapshot⟩).post
      fun _ _ _ _ => trivial

/-- An operation under the lock whose value is dropped. -/
theorem runs_dropValue {α : Type} {p : StoreProg α} {op : StoreOp} {v : Secrets}
    {Q : α → Secrets → Prop}
    (h : Runs 0 op Anything (Snapshot 0 v) p (fun a s => ∃ v, Q a v ∧ Snapshot 0 v s)) :
    Runs 0 op Anything (Snapshot 0 v) (dropValue p) (fun _ => Held 0) :=
  Triple.bind h fun _ => runs_where fun _ _ => runs_pure fun _ hs => hs.held

/-- The key that has signed exists. -/
theorem handshake_triple (id : Uuid) (der : Bytes) :
    (logic (.handshake id der)).Triple (fun b => b.Running (.handshake id der))
      (startHandshake id der) (fun _ b => b.Done (.handshake id der)) (fun _ _ => True) := by
  refine Triple.bind (M := fun _ b => b.Done (.handshake id der)) ?_ fun signature => ?_
  · refine Triple.perform_bind (M := fun r b => (∃ a, r = .ok a) → b.Done (.handshake id der))
      (stable _) ?_ fun r => ?_
    · rintro b r b' - hr ⟨o, s, ho, rfl⟩
      cases o with
      | ok a =>
        obtain ⟨hk, rfl, rfl⟩ : (b.store.keys (approvalKeyAlias id)).isSome ∧
            Except.ok a = r ∧ b.store = s := by simpa [Store.exec] using ho
        obtain ⟨hst, hab⟩ := hr.stored id der rfl
        exact ⟨guar_withStore hr .same, fun _ => ⟨hst, hab, Option.isSome_iff_ne_none.mp hk⟩⟩
      | fail e =>
        obtain ⟨rfl, rfl⟩ : Except.error e = r ∧ b.store = s := by simpa [Store.exec] using ho
        exact ⟨guar_withStore hr .same, by simp⟩
      | failApplied a e => simp [Store.exec] at ho
    · cases r with
      | ok a => exact Triple.ret (stable _) fun b _ hb => hb ⟨a, rfl⟩
      | error e => exact Triple.fail (stable _) fun _ _ _ => trivial
  · split
    · exact Triple.pure (stable _) fun _ _ hb => hb
    · exact Triple.fail (stable _) fun _ _ _ => trivial

/-- **Every operation is safe** while it may run. -/
theorem program_triple (bop : BenchOp) :
    (logic bop).Triple (fun b => b.Running bop) bop.program (fun _ b => b.Done bop)
      (fun _ _ => True) := by
  cases bop with
  | begin id =>
    exact triple_guarded' fun v => (beginPendingPairing_runs id).post
      fun _ _ _ ⟨_, _, hs⟩ => hs.held
  | generate id =>
    have hgen : (storeLogic 0 (.generate id)).Triple (fun _ => True)
        (dropValue (generateApprovalKey (approvalKeyAlias id))) (fun _ _ => True)
        (fun _ _ => True) :=
      Triple.bind (generateApprovalKey_triple rfl) fun _ =>
        Triple.pure (Stable.const _ _) fun _ _ _ => trivial
    exact (triple_hoist (.generate id) hgen).conseq (fun _ _ hb => ⟨trivial, hb⟩)
      (fun _ _ _ _ => trivial) (fun _ _ _ _ => trivial)
  | store id keyAlias der share pin4Hash pin6Hash node =>
    refine (triple_guarded (.store id keyAlias der share pin4Hash pin6Hash node)
      (Q := fun v => v.ptr .pending = some id ∧ v.gen id ≠ none) fun v =>
        (storePendingPairingGeneration_runs id keyAlias der share pin4Hash pin6Hash
          node).post ?_).post fun _ b _ hb => ⟨hb.1.1, hb.1.2, hb.2.begun id rfl⟩
    rintro _ s - ⟨v, g, ⟨hp, hg, -⟩, hs⟩
    exact ⟨v, ⟨hp, by simp [hg]⟩, hs⟩
  | abort id => exact triple_guarded' fun v => abortUnstartedPairing_runs id
  | handshake id der => exact handshake_triple id der
  | commit id =>
    exact triple_guarded' fun v => (commitPendingGeneration_runs id).post
      fun _ _ _ ⟨_, _, hs⟩ => hs.held
  | activate id =>
    exact triple_guarded' fun v => runs_dropValue ((activateGeneration_runs id))
  | finalize =>
    exact triple_guarded' fun v => (runs_error finalizeActiveActivation_runs
      fun _ _ => trivial).post fun _ _ _ ⟨_, _, hs⟩ => hs.held
  | cleanupRetiring =>
    exact triple_guarded' fun v => (runs_error cleanupRetiringGeneration_runs
      fun _ _ => trivial).post fun _ _ _ ⟨_, _, hs⟩ => hs.held
  | isSetup => exact triple_guarded' fun v => runs_dropValue isSetupInStore_runs
  | loadSecrets => exact triple_guarded' fun v => runs_dropValue loadSecrets_runs

omit [Crypto] in
/-- Starting an operation that is allowed. -/
theorem Inv.start (hi : b.Inv) (ha : b.Allowed bop) :
    (b.noteStart bop).Inv ∧ (b.noteStart bop).Running bop := by
  obtain ⟨intact, storedPending, handshakenBegun, storedBegun⟩ := hi
  cases bop with
  | begin id =>
    refine ⟨⟨intact, storedPending, fun z hz => List.mem_cons_of_mem _ (handshakenBegun z hz),
      fun z hz => List.mem_cons_of_mem _ (storedBegun z hz)⟩, ?_⟩
    refine ⟨fun hh => ha (handshakenBegun id hh), ?_, ?_, ?_⟩ <;> simp [BenchOp.op]
  | abort id =>
    refine ⟨⟨intact, fun z hz hab => storedPending z hz fun h => hab (List.mem_cons_of_mem _ h),
      handshakenBegun, storedBegun⟩, ?_⟩
    refine ⟨ha.2, ?_, ?_, ?_⟩ <;> simp [BenchOp.op, noteStart]
  | store id keyAlias der share pin4Hash pin6Hash node =>
    refine ⟨⟨intact, storedPending, handshakenBegun, storedBegun⟩, ⟨ha.2, ?_, ?_, ?_⟩⟩
    · simp [BenchOp.op]
    · rintro z hz
      obtain rfl : id = z := by simpa [BenchOp.op] using hz
      exact ha.1
    · simp
  | handshake id der =>
    refine ⟨⟨intact, storedPending, handshakenBegun, storedBegun⟩, ⟨trivial, ?_, ?_, ?_⟩⟩
    · simp [BenchOp.op]
    · simp [BenchOp.op]
    · rintro z d hz
      obtain ⟨rfl, -⟩ : id = z ∧ der = d := by simpa using hz
      exact ha
  | commit id =>
    exact ⟨⟨intact, storedPending, handshakenBegun, storedBegun⟩,
      ⟨ha, by simp [BenchOp.op], by simp [BenchOp.op], by simp⟩⟩
  | activate id =>
    exact ⟨⟨intact, storedPending, handshakenBegun, storedBegun⟩,
      ⟨ha, by simp [BenchOp.op], by simp [BenchOp.op], by simp⟩⟩
  | _ =>
    exact ⟨⟨intact, storedPending, handshakenBegun, storedBegun⟩,
      ⟨trivial, by simp [BenchOp.op], by simp [BenchOp.op], by simp⟩⟩

omit [Crypto] in
/-- An operation that returns has established what is noted of it. -/
theorem Inv.noteReturn (hi : b.Inv) (hd : b.Done bop) : (b.noteReturn bop).Inv := by
  cases bop with
  | store id keyAlias der share pin4Hash pin6Hash node =>
    obtain ⟨hp, hg, hb⟩ := hd
    refine ⟨hi.intact, fun z hz hab => ?_, hi.handshakenBegun, fun z hz => ?_⟩
    · rcases List.mem_cons.mp hz with rfl | hz
      · exact .inl ⟨hp, hg⟩
      · exact hi.storedPending z hz hab
    · rcases List.mem_cons.mp hz with rfl | hz
      · exact hb
      · exact hi.storedBegun z hz
  | handshake id der =>
    obtain ⟨hst, hab, hk⟩ := hd
    refine ⟨?_, hi.storedPending, fun z hz => ?_, hi.storedBegun⟩
    · rcases hi.storedPending id hst hab with ⟨hp, hg⟩ | hact
      · exact hi.intact.handshake hp hg hk
      · have hh := hi.intact.activeHandshaken id hact
        exact hi.intact.handshake_again hh
    · rcases List.mem_cons.mp hz with rfl | hz
      · exact hi.storedBegun z hst
      · exact hi.handshakenBegun z hz
  | _ => exact hi

omit [Crypto] in
theorem Inv.initial : initial.Inv :=
  ⟨Integrity.empty, fun _ h => by simp [Bench.initial] at h,
    fun _ h => by simp [Bench.initial, History.empty] at h,
    fun _ h => by simp [Bench.initial] at h⟩

end Bench

/-- **The certificate is one.** -/
theorem benchCertificate_valid : benchCertificate.Valid benchScript where
  start hi _ hs := by
    obtain ⟨ha, rfl⟩ := hs
    obtain ⟨hi', hr⟩ := Bench.Inv.start hi ha
    exact ⟨hi', Bench.program_triple _ _ hi' hr⟩
  guar := by
    rintro bop b b' hi ⟨hb, hr, hs⟩
    rw [hb]
    exact Bench.Inv.withStore hi hr hs
  ret hi hd := ⟨Bench.Inv.noteReturn hi hd, trivial⟩
  fail hi _ := ⟨hi, trivial⟩
  stop := by
    rintro b b' ⟨intact, storedPending, handshakenBegun, storedBegun⟩ rfl
    exact ⟨⟨{ intact with }, storedPending, handshakenBegun, storedBegun⟩, trivial⟩

/-! ## What holds throughout -/

/-- A run of the store operations. -/
abbrev BenchConfig := Script.Config StoreCmd.Reply BenchOp Bench Anyhow Unit

/-- **The runs from a store that was never used.** -/
def BenchReachable (c : BenchConfig) : Prop :=
  benchScript.Steps ⟨Bench.initial, none⟩ c

theorem BenchReachable.holds {c : BenchConfig} (hc : BenchReachable c) :
    benchCertificate.Holds benchScript c :=
  benchCertificate_valid.reachable (Script.Certificate.holds_idle Bench.Inv.initial trivial) hc

/-- Handshakes are never forgotten. -/
theorem BenchReachable.handshaken {c c' : BenchConfig} (hc : BenchReachable c)
    (hs : benchScript.Steps c c') {id : Uuid} (hid : id ∈ c.state.history.handshaken) :
    id ∈ c'.state.history.handshaken := by
  induction hs with
  | refl => exact hid
  | @tail c₁ c₂ hs₁ hstep ih =>
    have hc₁ : BenchReachable c₁ := Relation.ReflTransGen.trans hc hs₁
    rcases hc₁.holds.cases hstep with ⟨bop, -, h⟩ | ⟨bop, h, -⟩ | ⟨bop, r, h⟩ | h
    · rw [h]
      cases bop <;> exact ih
    · rw [h]
      show id ∈ (c₁.state.history.note _ _).handshaken
      rw [History.note_handshaken]
      exact ih
    · rw [h]
      cases r with
      | error e => exact ih
      | ok a =>
        cases bop with
        | handshake x der => exact List.mem_cons_of_mem _ ih
        | _ => exact ih
    · rw [h]
      exact ih

/-- **What a step of a run does to the active pointer.** -/
theorem BenchReachable.active_step {c c' : BenchConfig} (hc : BenchReachable c)
    (hs : benchScript.Step c c') :
    c'.state.store.secrets.ptr .active = c.state.store.secrets.ptr .active ∨
      ∃ id, c'.state.store.secrets.ptr .active = some id ∧
        c.state.store.secrets.ptr .committed = some id := by
  rcases hc.holds.cases hs with ⟨bop, -, h⟩ | ⟨bop, -, -, h⟩ | ⟨bop, r, h⟩ | h
  · rw [h]
    cases bop <;> exact .inl rfl
  · exact h.active
  · rw [h]
    cases r with
    | error e => exact .inl rfl
    | ok a => cases bop <;> exact .inl rfl
  · rw [h]
    exact .inl rfl

/-- **Integrity of the phone store.** At every moment of every run, the
active and the committed generation have record and key, the committed
one being pending or active; the active pointer is never cleared and
changes to the committed generation only; and a generation that was
active or committed loses its record or key only when a newer one is
active. -/
theorem phone_store_integrity {c : BenchConfig} (hc : BenchReachable c) :
    (∀ id, c.state.store.secrets.ptr .active = some id →
      c.state.store.secrets.gen id ≠ none ∧
        c.state.store.keys (approvalKeyAlias id) ≠ none) ∧
    (∀ id, c.state.store.secrets.ptr .committed = some id →
      (c.state.store.secrets.gen id ≠ none ∧
        c.state.store.keys (approvalKeyAlias id) ≠ none) ∧
      (c.state.store.secrets.ptr .pending = some id ∨
        c.state.store.secrets.ptr .active = some id)) ∧
    (∀ c', benchScript.Step c c' →
      c'.state.store.secrets.ptr .active = c.state.store.secrets.ptr .active ∨
        ∃ id, c'.state.store.secrets.ptr .active = some id ∧
          c.state.store.secrets.ptr .committed = some id) ∧
    ∀ c', benchScript.Steps c c' → ∀ id,
      c.state.store.secrets.ptr .active = some id ∨
        c.state.store.secrets.ptr .committed = some id →
      c'.state.store.secrets.gen id = none ∨
        c'.state.store.keys (approvalKeyAlias id) = none →
      ∃ id', c'.state.store.secrets.ptr .active = some id' ∧
        c'.state.history.Older id id' := by
  have hi : Integrity c.state.store c.state.history := hc.holds.inv.intact
  have hactive : ∀ id, c.state.store.secrets.ptr .active = some id →
      id ∈ c.state.history.handshaken := fun id ha =>
    hi.activeHandshaken id (hi.active_mem ha)
  refine ⟨fun id ha => hi.kept id (hactive id ha) fun _ => ha, fun id hid => ?_,
    fun c' hs => hc.active_step hs, fun c' hs id hid hlost => ?_⟩
  · have hcom := hi.committed id hid
    refine ⟨hi.kept id (hi.committedHandshaken id hid) fun hmem => ?_, ?_⟩
    · rcases hcom with hcom | hcom
      · exact absurd hmem hcom.2
      · exact hcom.1
    · exact hcom.imp (fun h => h.1) (fun h => h.1)
  · have hh : id ∈ c.state.history.handshaken := hid.elim (hactive id) (hi.committedHandshaken id)
    have hc' : BenchReachable c' := Relation.ReflTransGen.trans hc hs
    exact hc'.holds.inv.intact.newer_active (hc.handshaken hs hh) hlost

instance (b : Bench) : (bop : BenchOp) → Decidable (b.Allowed bop)
  | .begin id => inferInstanceAs (Decidable (id ∉ b.begun))
  | .generate id => inferInstanceAs (Decidable (id ∈ b.begun ∧ id ∉ b.history.handshaken))
  | .store id _ _ _ _ _ _ =>
    inferInstanceAs (Decidable (id ∈ b.begun ∧ id ∉ b.history.handshaken))
  | .abort id => inferInstanceAs (Decidable (id ∈ b.begun ∧ id ∉ b.history.handshaken))
  | .handshake id _ => inferInstanceAs (Decidable (id ∈ b.stored ∧ id ∉ b.aborted))
  | .commit id => inferInstanceAs (Decidable (id ∈ b.history.handshaken))
  | .activate id => inferInstanceAs (Decidable (id ∈ b.history.handshaken))
  | .finalize => inferInstanceAs (Decidable True)
  | .cleanupRetiring => inferInstanceAs (Decidable True)
  | .isSetup => inferInstanceAs (Decidable True)
  | .loadSecrets => inferInstanceAs (Decidable True)

/-- The bench after allowed operations whose commands are answered as
listed. -/
def Bench.play (b : Bench) : List (BenchOp × List StoreChoice) → Option Bench
  | [] => some b
  | (bop, l) :: ops =>
    if b.Allowed bop then
      match Prog.replay (fun c o (b : Bench) =>
          (Store.exec 0 c o b.store).map fun x => (x.1, b.withStore x.2))
        l bop.program (b.noteStart bop) with
      | some (r, b') => (b'.noteEnd bop r).play ops
      | none => none
    else none

theorem BenchReachable.play {b b' : Bench} {ops : List (BenchOp × List StoreChoice)}
    (hc : BenchReachable ⟨b, none⟩) (hp : b.play ops = some b') :
    BenchReachable ⟨b', none⟩ := by
  induction ops generalizing b with
  | nil =>
    obtain rfl : b = b' := by simpa [Bench.play] using hp
    exact hc
  | cons x ops ih =>
    obtain ⟨bop, l⟩ := x
    rw [Bench.play] at hp
    split at hp
    · next ha =>
      split at hp
      · next r b₁ hr =>
        refine ih (b := b₁.noteEnd bop r) ?_ hp
        refine (Relation.ReflTransGen.tail hc (.start ⟨ha, rfl⟩)).trans
          (Script.Steps.replay ?_ hr)
        intro c o b r b₁ hx
        obtain ⟨⟨r', s⟩, hs, hrs⟩ := Option.map_eq_some_iff.mp hx
        obtain ⟨rfl, rfl⟩ : r' = r ∧ b.withStore s = b₁ := by simpa using hrs
        exact ⟨o, s, hs, rfl⟩
      · simp at hp
    · simp at hp

/-- A first pairing, from its begin to its activation, then a second one
whose begin is cut short. -/
def firstPairing : List (BenchOp × List StoreChoice) :=
  let node : Bytes32 := Vector.replicate 32 0
  let ok : List StoreChoice := List.replicate 40 (.ok [7])
  [(.begin 1, ok), (.generate 1, ok),
    (.store 1 (approvalKeyAlias 1) [7] node "1234" "123456" node, ok),
    (.handshake 1 [7], ok), (.commit 1, ok), (.activate 1, ok),
    (.begin 2, [.ok [], .fail "get", .ok []])]

/-- One pairing that is active, and the next one, committed. -/
def nextPairing : List (BenchOp × List StoreChoice) :=
  let node : Bytes32 := Vector.replicate 32 0
  let ok : List StoreChoice := List.replicate 60 (.ok [7])
  [(.begin 1, ok), (.generate 1, ok),
    (.store 1 (approvalKeyAlias 1) [7] (Vector.replicate 32 0) "7394" "739418" node, ok),
    (.handshake 1 [7], ok), (.commit 1, ok), (.activate 1, ok),
    (.begin 2, ok), (.generate 2, ok),
    (.store 2 (approvalKeyAlias 2) [7] (Vector.replicate 32 1) "7394" "739418" node, ok),
    (.handshake 2 [7], ok), (.commit 2, ok)]

omit [Crypto] in
/-- The record and the key of the first pairing after that run. -/
theorem phone_store_integrity_firstPairing : ∃ b : Bench,
    b.store.secrets.ptr .active = some 1 ∧ b.store.secrets.gen 1 ≠ none ∧
      b.store.keys (approvalKeyAlias 1) ≠ none := by
  let play := @Bench.play Crypto.plain Bench.initial firstPairing
  have hsome : play.isSome := by decide +kernel
  have hactive : play.map (fun b => b.store.secrets.ptr .active) = some (some 1) := by
    decide +kernel
  obtain ⟨b, hb⟩ := Option.isSome_iff_exists.mp hsome
  rw [hb] at hactive
  have ha : b.store.secrets.ptr .active = some 1 := by simpa using hactive
  have hc := @BenchReachable.play Crypto.plain _ _ _ .refl hb
  exact ⟨b, ha, (@phone_store_integrity Crypto.plain _ hc).1 1 ha⟩

end Phone
