import Mathlib.Tactic.Tauto
import Ferusa.Lib.RelyGuarantee
import Ferusa.Phone.Store

/-!
# What one command of the phone store can do

The programs of `Ferusa.Phone.Store` change the store one command at a
time, each command chosen from what the earlier ones read. `StoreStep`
lists every change any of them can make, each with the pointers it is
made under – what the program has read and, holding the lock, still
knows. It is stated once, and every invariant of the store is derived
from it.

Under `STORAGE_LOCK` nobody else changes what is stored
(`storeLogic`), so a program knows the whole of it (`Snapshot`) from
what it has read and written. The approval keys are outside: a key is
generated without the lock.
-/

namespace Phone

variable [Crypto]

/-- The operation a command is put for. -/
inductive StoreOp where
  | begin (id : Uuid)
  | generate (id : Uuid)
  | store (id : Uuid)
  | abort (id : Uuid)
  | commit (id : Uuid)
  | activate (id : Uuid)
  | pinAttempts
  | read
  deriving DecidableEq

/-- A record that may be loaded as that of `id`. -/
def ValidFor (id : Uuid) (generation : PairingGeneration) : Prop :=
  generation.pairingId = id ∧ validateGenerationMetadata generation = .ok ()

/-- **An operation may discard what is staged or pending** when it is the
begin of a pairing with none pending, or the abort of the only one
there is. -/
def StoreOp.MayDiscard : StoreOp → Secrets → Prop
  | .begin _, v => v.ptr .pending = none
  | .abort id, v =>
    (∀ z, v.ptr .staging = some z → z = id) ∧ (∀ z, v.ptr .pending = some z → z = id)
  | _, _ => False

/-- **A generation an operation may delete**: the retired one, or what is
staged or pending with nothing committed – never the active one. -/
def Deletable (op : StoreOp) (v : Secrets) (id : Uuid) : Prop :=
  v.ptr .active ≠ some id ∧
    (v.ptr .retiring = some id ∨
      (v.ptr .committed = none ∧ op.MayDiscard v ∧
        (v.ptr .staging = some id ∨ v.ptr .pending = some id)))

/-- **The changes of the store**: what one command put for `op` by thread
`t` can do. -/
inductive StoreStep (t : Nat) (op : StoreOp) : Store → Store → Prop
  /-- A read, a signature, a command that failed. -/
  | same {s} : StoreStep t op s s
  | acquire {s} (h : s.guard = none) : StoreStep t op s { s with guard := some t }
  | release {s} (h : s.guard = some t) : StoreStep t op s { s with guard := none }
  /-- The approval key is generated without the lock. -/
  | generate {s id der} (hop : op = .generate id) :
      StoreStep t op s (s.putKey (approvalKeyAlias id) der)
  | stage {s id} (hop : op = .begin id) (hg : s.guard = some t)
      (hp : s.secrets.ptr .pending = none) (hc : s.secrets.ptr .committed = none)
      (hs : s.secrets.ptr .staging = none) :
      StoreStep t op s (s.save (.pointer .staging) id)
  | record {s id g} (hop : op = .store id) (hg : s.guard = some t)
      (hs : s.secrets.ptr .staging = some id) (hv : ValidFor id g) :
      StoreStep t op s (s.save (.generation id) g)
  | publish {s id g} (hop : op = .store id) (hg : s.guard = some t)
      (hs : s.secrets.ptr .staging = some id)
      (hr : s.secrets.gen id = some g) (hv : ValidFor id g) :
      StoreStep t op s (s.save (.pointer .pending) id)
  | commit {s id g} (hop : op = .commit id) (hg : s.guard = some t)
      (ha : s.secrets.ptr .active ≠ some id)
      (hp : s.secrets.ptr .pending = some id)
      (hr : s.secrets.gen id = some g) (hv : ValidFor id g) :
      StoreStep t op s (s.save (.pointer .committed) id)
  | retire {s id old} (hop : op = .activate id) (hg : s.guard = some t)
      (ha : s.secrets.ptr .active = some old) (hne : old ≠ id)
      (hp : s.secrets.ptr .pending = some id)
      (hc : s.secrets.ptr .committed = some id) :
      StoreStep t op s (s.save (.pointer .retiring) old)
  /-- The active pointer flips, the old generation being marked. -/
  | flip {s id} (hop : op = .activate id) (hg : s.guard = some t)
      (ha : s.secrets.ptr .active ≠ some id)
      (hold : ∀ old, s.secrets.ptr .active = some old →
        s.secrets.ptr .retiring = some old)
      (hp : s.secrets.ptr .pending = some id)
      (hc : s.secrets.ptr .committed = some id) :
      StoreStep t op s (s.save (.pointer .active) id)
  /-- A pointer is cleared after activation, the committed one last. -/
  | finalize {s p id} (hg : s.guard = some t)
      (hpt : p = .staging ∨ p = .pending ∨ p = .committed)
      (ha : s.secrets.ptr .active = some id)
      (hc : s.secrets.ptr .committed = some id)
      (hp : s.secrets.ptr p = some id)
      (hlast : p = .committed →
        s.secrets.ptr .staging ≠ some id ∧ s.secrets.ptr .pending ≠ some id) :
      StoreStep t op s (s.delete (.pointer p))
  | deleteKey {s id} (hg : s.guard = some t) (hd : Deletable op s.secrets id) :
      StoreStep t op s (s.deleteKey (approvalKeyAlias id))
  | deleteRecord {s id} (hg : s.guard = some t) (hd : Deletable op s.secrets id) :
      StoreStep t op s (s.delete (.generation id))
  | clearRetiring {s} (hg : s.guard = some t) :
      StoreStep t op s (s.delete (.pointer .retiring))
  | discard {s p} (hg : s.guard = some t) (hpt : p = .staging ∨ p = .pending)
      (hc : s.secrets.ptr .committed = none) (hd : op.MayDiscard s.secrets) :
      StoreStep t op s (s.delete (.pointer p))
  | clearAttempts {s kind} (hop : (∃ id, op = .activate id) ∨ op = .pinAttempts)
      (hg : s.guard = some t) : StoreStep t op s (s.delete (.pinAttempts kind))
  | saveAttempts {s kind v} (hop : op = .pinAttempts) (hg : s.guard = some t) :
      StoreStep t op s (s.save (.pinAttempts kind) v)

/-! ## The logic of the store -/

/-- **The setting of a store program**: the others leave what is stored
alone while this thread holds the lock. -/
def storeLogic (t : Nat) (op : StoreOp) : Logic StoreCmd.Reply Store where
  exec c s r s' := ∃ o, Store.exec t c o s = some (r, s')
  inv _ := True
  rely s s' := s.guard = some t → s'.guard = some t ∧ s'.secrets = s.secrets
  guar := StoreStep t op
  rely_refl _ h := ⟨h, rfl⟩
  rely_trans h₁ h₂ h :=
    ⟨(h₂ (h₁ h).1).1, (h₂ (h₁ h).1).2.trans (h₁ h).2⟩

/-- The thread holds the lock. -/
def Held (t : Nat) (s : Store) : Prop := s.guard = some t

/-- **The thread holds the lock and knows what is stored.** -/
def Snapshot (t : Nat) (v : Secrets) (s : Store) : Prop :=
  s.guard = some t ∧ s.secrets = v

variable {t : Nat} {op : StoreOp} {v : Secrets}

omit [Crypto] in
theorem Snapshot.held {s : Store} (h : Snapshot t v s) : Held t s := h.1

omit [Crypto] in
theorem Held.snapshot {s : Store} (h : Held t s) : Snapshot t s.secrets s := ⟨h, rfl⟩

theorem stable_snapshot (v : Secrets) : (storeLogic t op).Stable (Snapshot t v) :=
  fun _ _ _ h hr _ => ⟨(hr h.1).1, (hr h.1).2.trans h.2⟩

/-- Two assertions about what is stored that both follow from holding the
lock with some contents. -/
theorem stable_snapshot_where (P : Secrets → Prop) :
    (storeLogic t op).Stable (fun s => ∃ v, P v ∧ Snapshot t v s) :=
  Logic.Stable.exists fun v => (Logic.Stable.const _ _).and (stable_snapshot v)

/-! ## The single commands

A command that fails may have been applied, so what a program leaves
behind on an error is less than what it leaves on a return: `X` below is
what is known of the store after an error, and each command asks that it
hold before and, for a save or a deletion, also after. -/

open Logic StoreProg

/-- **A program run under the lock**: from `P` it keeps to the store
steps of `op`, returns with `Q`, or fails with a store satisfying `X`;
it holds the lock at either end. -/
abbrev Runs {α : Type} (t : Nat) (op : StoreOp) (X : Secrets → Prop)
    (P : Store → Prop) (p : StoreProg α) (Q : α → Store → Prop) : Prop :=
  (storeLogic t op).Triple P p Q (fun _ s => ∃ v, X v ∧ Snapshot t v s)

/-- Nothing is known of the store after an error. -/
abbrev Anything : Secrets → Prop := fun _ => True

variable {α : Type} {X : Secrets → Prop}

theorem runs_context {P : Store → Prop} {p : StoreProg α}
    {Q : α → Store → Prop} {message : String} (h : Runs t op X P p Q) :
    Runs t op X P (context message p) Q :=
  Triple.mapError h

/-- A program started with the lock may be started with a snapshot. -/
theorem runs_held {p : StoreProg α} {Q : α → Store → Prop}
    (h : ∀ v, Runs t op X (Snapshot t v) p Q) : Runs t op X (Held t) p Q :=
  fun s hi hs => h s.secrets s hi hs.snapshot

/-- A program started from one of several snapshots. -/
theorem runs_where {P : Secrets → Prop} {p : StoreProg α}
    {Q : α → Store → Prop} (h : ∀ v, P v → Runs t op X (Snapshot t v) p Q) :
    Runs t op X (fun s => ∃ v, P v ∧ Snapshot t v s) p Q :=
  Triple.exists fun v => Triple.given (h v)

/-- What is known after an error may be weakened. -/
theorem runs_error {X' : Secrets → Prop} {P : Store → Prop} {p : StoreProg α}
    {Q : α → Store → Prop} (h : Runs t op X P p Q) (hX : ∀ v, X v → X' v) :
    Runs t op X' P p Q :=
  h.conseq (fun _ _ hs => hs) (fun _ _ _ hs => hs)
    (fun _ _ _ ⟨v, hv, hs⟩ => ⟨v, hX v hv, hs⟩)

theorem runs_pure {a : α} {Q : α → Store → Prop}
    (h : ∀ s, Snapshot t v s → Q a s) : Runs t op X (Snapshot t v) (pure a) Q :=
  Triple.pure (stable_snapshot v) fun s _ hs => h s hs

theorem runs_bail {message : String} {Q : α → Store → Prop} (hX : X v) :
    Runs t op X (Snapshot t v) (bail message) Q :=
  Triple.fail (stable_snapshot v) fun _ _ hs => ⟨v, hX, hs⟩

theorem runs_ofExcept {x : Except Anyhow α} (hX : X v) :
    Runs t op X (Snapshot t v) (Prog.ofExcept x)
      (fun a s => x = .ok a ∧ Snapshot t v s) :=
  Triple.ofExcept (stable_snapshot v) (fun _ ha _ _ hs => ⟨ha, hs⟩)
    (fun _ _ _ _ hs => ⟨v, hX, hs⟩)

/-- The reply of a command that may fail. -/
theorem runs_fallible {message : String} {r : Except String α}
    {P : Store → Prop} {Q : α → Store → Prop}
    (hP : (storeLogic t op).Stable P) (hok : ∀ a, r = .ok a → ∀ s, P s → Q a s)
    (herr : ∀ s, P s → ∃ v, X v ∧ Snapshot t v s) :
    Runs t op X P (fallible message r) Q := by
  cases r with
  | ok a => exact Triple.ret hP fun s _ hs => hok a rfl s hs
  | error e => exact Triple.fail hP fun s _ hs => herr s hs

/-- **Reading** leaves the snapshot and returns what it says. -/
theorem getEntry_runs (k : Key) (hX : X v) :
    Runs t op X (Snapshot t v) (getEntry k) (fun a s => a = v k ∧ Snapshot t v s) := by
  refine Triple.perform_bind (M := fun r s => (∀ a, r = .ok a → a = v k) ∧ Snapshot t v s)
    (stable_snapshot v) ?_ ?_
  · rintro s r s' - hs ⟨o, ho⟩
    cases o with
    | ok b =>
      obtain ⟨rfl, rfl⟩ : Except.ok (s.secrets k) = r ∧ s = s' := by
        simpa [Store.exec] using ho
      exact ⟨.same, fun a ha => by rw [← Except.ok.inj ha, hs.2], hs⟩
    | fail e =>
      obtain ⟨rfl, rfl⟩ : Except.error e = r ∧ s = s' := by
        simpa [Store.exec] using ho
      exact ⟨.same, by simp, hs⟩
    | failApplied b e => simp [Store.exec] at ho
  · intro r
    exact runs_fallible ((Stable.const _ _).and (stable_snapshot v))
      (fun a ha s hs => ⟨hs.1 a ha, hs.2⟩) (fun s hs => ⟨v, hX, hs.2⟩)

/-- What a save or a deletion leaves: the new contents if it is
acknowledged, the old or the new ones otherwise. -/
theorem stable_written {r : Except String Unit} {v' : Secrets} :
    (storeLogic t op).Stable (fun s => (r = .ok () → Snapshot t v' s) ∧
      (Snapshot t v s ∨ Snapshot t v' s)) :=
  (Stable.imp fun _ => stable_snapshot v').and
    ((stable_snapshot v).or (stable_snapshot v'))

theorem runs_written {message : String} {r : Except String Unit} {v' : Secrets}
    (hX : X v) (hX' : X v') :
    Runs t op X (fun s => (r = .ok () → Snapshot t v' s) ∧
      (Snapshot t v s ∨ Snapshot t v' s)) (fallible message r)
      (fun _ => Snapshot t v') := by
  refine runs_fallible stable_written (fun a ha s hs => hs.1 ha) (fun s hs => ?_)
  rcases hs.2 with h | h
  · exact ⟨v, hX, h⟩
  · exact ⟨v', hX', h⟩

/-- **A save** that the guarantee allows. -/
theorem saveEntry_runs {k : Key} {value : k.Val} (hX : X v) (hX' : X (v.put k value))
    (h : ∀ s, Snapshot t v s → StoreStep t op s (s.save k value)) :
    Runs t op X (Snapshot t v) (saveEntry k value)
      (fun _ => Snapshot t (v.put k value)) := by
  refine Triple.perform_bind (M := fun r s => (r = .ok () → Snapshot t (v.put k value) s) ∧
    (Snapshot t v s ∨ Snapshot t (v.put k value) s)) (stable_snapshot v) ?_
    fun r => runs_written hX hX'
  rintro s r s' - hs ⟨o, ho⟩
  have hsave : Snapshot t (v.put k value) (s.save k value) := ⟨hs.1, by simp [hs.2]⟩
  cases o with
  | ok b =>
    obtain ⟨rfl, rfl⟩ : Except.ok () = r ∧ s.save k value = s' := by
      simpa [Store.exec] using ho
    exact ⟨h s hs, fun _ => hsave, .inr hsave⟩
  | fail e =>
    obtain ⟨rfl, rfl⟩ : Except.error e = r ∧ s = s' := by
      simpa [Store.exec] using ho
    exact ⟨.same, by simp, .inl hs⟩
  | failApplied b e =>
    obtain ⟨rfl, rfl⟩ : Except.error e = r ∧ s.save k value = s' := by
      simpa [Store.exec] using ho
    exact ⟨h s hs, by simp, .inr hsave⟩

/-- **A deletion** that the guarantee allows. -/
theorem deleteEntry_runs {k : Key} (hX : X v) (hX' : X (v.remove k))
    (h : ∀ s, Snapshot t v s → StoreStep t op s (s.delete k)) :
    Runs t op X (Snapshot t v) (deleteEntry k) (fun _ => Snapshot t (v.remove k)) := by
  refine Triple.perform_bind (M := fun r s => (r = .ok () → Snapshot t (v.remove k) s) ∧
    (Snapshot t v s ∨ Snapshot t (v.remove k) s)) (stable_snapshot v) ?_
    fun r => runs_written hX hX'
  rintro s r s' - hs ⟨o, ho⟩
  have hdel : Snapshot t (v.remove k) (s.delete k) := ⟨hs.1, by simp [hs.2]⟩
  cases o with
  | ok b =>
    obtain ⟨rfl, rfl⟩ : Except.ok () = r ∧ s.delete k = s' := by
      simpa [Store.exec] using ho
    exact ⟨h s hs, fun _ => hdel, .inr hdel⟩
  | fail e =>
    obtain ⟨rfl, rfl⟩ : Except.error e = r ∧ s = s' := by
      simpa [Store.exec] using ho
    exact ⟨.same, by simp, .inl hs⟩
  | failApplied b e =>
    obtain ⟨rfl, rfl⟩ : Except.error e = r ∧ s.delete k = s' := by
      simpa [Store.exec] using ho
    exact ⟨h s hs, by simp, .inr hdel⟩

/-- Deleting an approval key leaves the snapshot. -/
theorem deleteApprovalKey_runs {keyAlias : ApprovalAlias} (hX : X v)
    (h : ∀ s, Snapshot t v s → StoreStep t op s (s.deleteKey keyAlias)) :
    Runs t op X (Snapshot t v) (deleteApprovalKey keyAlias) (fun _ => Snapshot t v) := by
  refine Triple.perform_bind (M := fun _ => Snapshot t v) (stable_snapshot v) ?_ ?_
  · rintro s r s' - hs ⟨o, ho⟩
    cases o with
    | ok b =>
      obtain ⟨rfl, rfl⟩ : Except.ok () = r ∧ s.deleteKey keyAlias = s' := by
        simpa [Store.exec] using ho
      exact ⟨h s hs, hs⟩
    | fail e =>
      obtain ⟨rfl, rfl⟩ : Except.error e = r ∧ s = s' := by
        simpa [Store.exec] using ho
      exact ⟨.same, hs⟩
    | failApplied b e =>
      obtain ⟨rfl, rfl⟩ : Except.error e = r ∧ s.deleteKey keyAlias = s' := by
        simpa [Store.exec] using ho
      exact ⟨h s hs, hs⟩
  · intro r
    exact runs_fallible (stable_snapshot v) (fun _ _ _ hs => hs) (fun _ hs => ⟨v, hX, hs⟩)

/-- Signing leaves the snapshot. -/
theorem signApproval_runs {keyAlias : ApprovalAlias} {payload : String} (hX : X v) :
    Runs t op X (Snapshot t v) (signApproval keyAlias payload)
      (fun _ => Snapshot t v) := by
  refine Triple.perform_bind (M := fun _ => Snapshot t v) (stable_snapshot v) ?_ ?_
  · rintro s r s' - hs ⟨o, ho⟩
    cases o with
    | ok b =>
      obtain ⟨-, -, rfl⟩ : (s.keys keyAlias).isSome ∧ Except.ok b = r ∧ s = s' := by
        simpa [Store.exec] using ho
      exact ⟨.same, hs⟩
    | fail e =>
      obtain ⟨-, rfl⟩ : Except.error e = r ∧ s = s' := by
        simpa [Store.exec] using ho
      exact ⟨.same, hs⟩
    | failApplied b e => simp [Store.exec] at ho
  · intro r
    exact runs_fallible (stable_snapshot v) (fun _ _ _ hs => hs) (fun _ hs => ⟨v, hX, hs⟩)

/-- **The approval key is generated** without the lock. -/
theorem generateApprovalKey_triple {id : Uuid} (hop : op = .generate id) :
    (storeLogic t op).Triple (fun _ => True) (generateApprovalKey (approvalKeyAlias id))
      (fun _ _ => True) (fun _ _ => True) := by
  refine Triple.perform_bind (M := fun _ _ => True) (Stable.const _ _) ?_ fun r => ?_
  · rintro s r s' - - ⟨o, ho⟩
    refine ⟨?_, trivial⟩
    cases o with
    | ok b =>
      obtain ⟨-, rfl⟩ : Except.ok b = r ∧ s.putKey (approvalKeyAlias id) b = s' := by
        simpa [Store.exec] using ho
      exact .generate hop
    | fail e =>
      obtain ⟨-, rfl⟩ : Except.error e = r ∧ s = s' := by simpa [Store.exec] using ho
      exact .same
    | failApplied b e =>
      obtain ⟨-, rfl⟩ : Except.error e = r ∧ s.putKey (approvalKeyAlias id) b = s' := by
        simpa [Store.exec] using ho
      exact .generate hop
  · cases r with
    | ok a => exact Triple.ret (Stable.const _ _) fun _ _ _ => trivial
    | error e => exact Triple.fail (Stable.const _ _) fun _ _ _ => trivial

omit [Crypto] in
/-- **The lock is held for the time of a program**, in whatever larger
setting: what its body needs is there once the lock is taken, and what
it leaves has to survive the release. -/
theorem withStorageGuard_triple {D : Type} {S : D → Type} {τ : Type} {L : Logic S τ}
    (f : StoreCmd → D) (g : (c : StoreCmd) → S (f c) → c.Reply) {p : StoreProg α}
    {P : τ → Prop} (P₁ : τ → Prop) (M N : Except Anyhow α → τ → Prop) (hP : L.Stable P)
    (hacq : ∀ s r s', L.inv s → P s → L.exec (f .acquireGuard) s r s' →
      L.guar s s' ∧ P₁ s')
    (hbody : L.Triple P₁ (p.hoist f g) (fun a => M (.ok a)) (fun e => M (.error e)))
    (hM : ∀ r, L.Stable (M r))
    (hrel : ∀ r s u s', L.inv s → M r s → L.exec (f .releaseGuard) s u s' →
      L.guar s s' ∧ N r s')
    (hN : ∀ r, L.Stable (N r)) :
    L.Triple P ((withStorageGuard p).hoist f g) (fun a => N (.ok a))
      (fun e => N (.error e)) := by
  unfold withStorageGuard
  simp only [Prog.perform_bind, Prog.hoist_call, Prog.hoist_bind, Prog.hoist_attempt,
    Prog.hoist_ofExcept]
  refine Triple.call hP hacq fun _ => Triple.bind (Triple.attempt hbody) fun r => ?_
  refine Triple.call (hM r) (hrel r) fun _ => ?_
  exact Triple.ofExcept (hN r) (fun a ha s _ hs => ha ▸ hs) (fun e he s _ hs => he ▸ hs)

end Phone
