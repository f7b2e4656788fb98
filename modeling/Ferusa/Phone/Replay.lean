import Ferusa.Phone.StoreRuns

/-!
# Commit and activate, put again

The desktop may send the commit and the activation of a pairing again
when it has not seen the answer. Where the store does what it is asked,
both programs compute a function of the store (`commitPendingGeneration_calm`,
`activateGeneration_calm`), and the laws are proved of that function:
the second time changes nothing, and once the generation is active no
other one is touched, nor a PIN attempt counter.
-/

namespace Phone

open StoreProg

/-! ## A store that does what it is asked -/

/-- **How the store answers** when nothing fails. -/
def Store.calm : (c : StoreCmd) → Store → c.Reply × Store
  | .acquireGuard, s => ((), s)
  | .releaseGuard, s => ((), s)
  | .save k value, s => (.ok (), s.save k value)
  | .get k, s => (.ok (s.secrets k), s)
  | .delete k, s => (.ok (), s.delete k)
  | .sign _ _, s => (.ok [], s)
  | .generateApprovalKey keyAlias, s => (.ok [], s.putKey keyAlias [])
  | .deleteApprovalKey keyAlias, s => (.ok (), s.deleteKey keyAlias)

/-- The commands that read and write what is stored. -/
def StoreCmd.OfData : StoreCmd → Prop
  | .save _ _ => True
  | .get _ => True
  | .delete _ => True
  | .deleteApprovalKey _ => True
  | _ => False

/-- **These are answers of the keystore.** -/
theorem Store.calm_exec {c : StoreCmd} (hc : c.OfData) (t : Nat) (s : Store) :
    Store.exec t c (.ok []) s = some (Store.calm c s) := by
  cases c with
  | save k value => rfl
  | get k => rfl
  | delete k => rfl
  | deleteApprovalKey keyAlias => rfl
  | _ => exact absurd hc id

/-- A program run on a store that does what it is asked. -/
abbrev calmly {α : Type} (p : StoreProg α) (s : Store) : Except Anyhow α × Store :=
  p.run Store.calm s

section

variable {α β : Type} {s : Store}

/-- A part that returns, and what comes after. -/
theorem calmly_bind {p : StoreProg α} {f : α → StoreProg β} {a : α} {s' : Store}
    (h : calmly p s = (.ok a, s')) : calmly (p >>= f) s = calmly (f a) s' :=
  Prog.run_bind_ok _ h

/-- A part that fails. -/
theorem calmly_bind_error {p : StoreProg α} {f : α → StoreProg β} {e : Anyhow} {s' : Store}
    (h : calmly p s = (.error e, s')) : calmly (p >>= f) s = (.error e, s') := by
  unfold calmly at h ⊢
  rw [Prog.run_bind, h]

theorem loadGenerationId_calm (p : Pointer) (s : Store) :
    calmly (loadGenerationId p) s = (.ok (s.secrets.ptr p), s) := rfl

theorem saveGenerationId_calm (p : Pointer) (id : Uuid) (s : Store) :
    calmly (saveGenerationId p id) s = (.ok (), s.save (.pointer p) id) := rfl

theorem deleteEntry_calm (k : Key) (message : String) (s : Store) :
    calmly (context message (deleteEntry k)) s = (.ok (), s.delete k) := rfl

end

/-! ## What the programs compute -/

/-- The store without a pointer that names a generation. -/
def Store.clearIf (s : Store) (p : Pointer) (id : Uuid) : Store :=
  if s.secrets.ptr p = some id then s.delete (.pointer p) else s

/-- The store after `cleanup_retiring_generation`. -/
def Store.cleanedRetiring (s : Store) : Store :=
  match s.secrets.ptr .retiring with
  | none => s
  | some retiring =>
    if s.secrets.ptr .active = some retiring then s
    else ((s.deleteKey (approvalKeyAlias retiring)).delete (.generation retiring)).delete
      (.pointer .retiring)

/-- The store after `cleanup_activation_metadata`. -/
def Store.cleanedMetadata (s : Store) (id : Uuid) : Store :=
  (((s.clearIf .staging id).clearIf .pending id).clearIf .committed id).cleanedRetiring

/-- The store after `finalize_active_activation`. -/
def Store.finalized (s : Store) : Store :=
  match s.secrets.ptr .active, s.secrets.ptr .committed with
  | some active, some committed => if active = committed then s.cleanedMetadata active else s
  | _, _ => s

/-- The cleanup ends with the store cleaned; it refuses an active
generation. -/
theorem cleanupRetiringGeneration_calm (s : Store) :
    ∃ r, calmly cleanupRetiringGeneration s = (r, s.cleanedRetiring) ∧
      (∀ retiring, s.secrets.ptr .retiring = some retiring →
        s.secrets.ptr .active ≠ some retiring → r = .ok ()) := by
  unfold cleanupRetiringGeneration Store.cleanedRetiring
  rw [calmly_bind (loadGenerationId_calm .retiring s)]
  cases hr : s.secrets.ptr .retiring with
  | none => exact ⟨_, rfl, nofun⟩
  | some retiring =>
    show ∃ r, calmly (loadGenerationId .active >>= _ : StoreProg Unit) s = _ ∧ _
    rw [calmly_bind (loadGenerationId_calm .active s)]
    show ∃ r, _ = (r, if s.secrets.ptr .active = some retiring then _ else _) ∧ _
    by_cases ha : s.secrets.ptr .active = some retiring
    · rw [if_pos ha, if_pos ha]
      refine ⟨_, rfl, fun x hx hne => ?_⟩
      obtain rfl := Option.some.inj hx
      exact absurd ha hne
    · rw [if_neg ha, if_neg ha]
      exact ⟨_, rfl, fun _ _ _ => rfl⟩

/-- One turn of the loop of `cleanup_activation_metadata`. -/
theorem clearIf_calm (p : Pointer) (id : Uuid) (message : String) (s : Store) :
    calmly (do
      let stored ← loadGenerationId p
      if stored = some id then context message (deleteEntry (.pointer p)) else pure ()) s =
      (.ok (), s.clearIf p id) := by
  rw [calmly_bind (loadGenerationId_calm p s)]
  unfold Store.clearIf
  by_cases h : s.secrets.ptr p = some id
  · rw [if_pos h, if_pos h]
    exact deleteEntry_calm _ _ s
  · rw [if_neg h, if_neg h]
    rfl

theorem cleanupActivationMetadata_calm (id : Uuid) (s : Store) :
    calmly (cleanupActivationMetadata id) s = (.ok (), s.cleanedMetadata id) := by
  unfold cleanupActivationMetadata
  have hloop : calmly (Prog.each [Pointer.staging, .pending, .committed] fun p => do
      let stored ← loadGenerationId p
      if stored = some id then
        context s!"finalize activation by clearing {p.name}" (deleteEntry (.pointer p))
      else pure ()) s = (.ok (), ((s.clearIf .staging id).clearIf .pending id).clearIf .committed id) := by
    unfold Prog.each
    rw [calmly_bind (clearIf_calm .staging id _ s)]
    unfold Prog.each
    rw [calmly_bind (clearIf_calm .pending id _ _)]
    unfold Prog.each
    rw [calmly_bind (clearIf_calm .committed id _ _)]
    rfl
  rw [calmly_bind hloop]
  obtain ⟨r, hr, -⟩ := cleanupRetiringGeneration_calm
    (((s.clearIf .staging id).clearIf .pending id).clearIf .committed id)
  have hattempt : calmly cleanupRetiringGeneration.attempt
      (((s.clearIf .staging id).clearIf .pending id).clearIf .committed id) =
        (.ok r, s.cleanedMetadata id) := by
    unfold calmly
    rw [Prog.run_attempt]
    unfold calmly at hr
    rw [hr]
    rfl
  rw [calmly_bind hattempt]
  rfl

/-- **`finalize_active_activation`.** -/
theorem finalizeActiveActivation_calm (s : Store) :
    calmly finalizeActiveActivation s = (.ok (), s.finalized) := by
  unfold finalizeActiveActivation Store.finalized
  rw [calmly_bind (loadGenerationId_calm .active s),
    calmly_bind (loadGenerationId_calm .committed s)]
  cases s.secrets.ptr .active with
  | none => rfl
  | some active =>
    cases s.secrets.ptr .committed with
    | none => rfl
    | some committed =>
      show calmly (if active = committed then _ else _ : StoreProg Unit) s =
        (.ok (), if active = committed then _ else _)
      by_cases h : active = committed
      · rw [if_pos h, if_pos h]
        exact cleanupActivationMetadata_calm active s
      · rw [if_neg h, if_neg h]
        rfl

/-- The retiring pointer is set to the generation that was active, an older
retired one being removed. -/
def Store.retired (s : Store) : Option Uuid → Store
  | none => s
  | some oldActive =>
    (if (s.secrets.ptr .retiring).any (· ≠ oldActive) then s.cleanedRetiring else s).save
      (.pointer .retiring) oldActive

/-- The store after `flip_active`, where another generation was active. -/
def Store.flipped (s : Store) (id : Uuid) : Store :=
  (((s.retired (s.secrets.ptr .active)).save (.pointer .active) id).delete
    (.pinAttempts .fourDigit)).delete (.pinAttempts .sixDigit)

theorem retireActive_calm (s : Store) :
    calmly (retireActive (s.secrets.ptr .active)) s =
      (.ok (), s.retired (s.secrets.ptr .active)) := by
  cases ha : s.secrets.ptr .active with
  | none => rfl
  | some oldActive =>
    unfold retireActive Store.retired
    rw [calmly_bind (loadGenerationId_calm .retiring s)]
    show _ = (Except.ok (), Store.save (if (s.secrets.ptr .retiring).any (· ≠ oldActive) then _
      else _) _ _)
    by_cases hr : (s.secrets.ptr .retiring).any (· ≠ oldActive) = true
    · rw [if_pos hr, if_pos hr]
      obtain ⟨r, hclean, hok⟩ := cleanupRetiringGeneration_calm s
      obtain ⟨retiring, hretiring, hne⟩ := (Option.any_eq_true _ _).mp hr
      have hne : retiring ≠ oldActive := of_decide_eq_true hne
      obtain rfl : r = .ok () := by
        refine hok retiring hretiring fun h => hne ?_
        exact (Option.some.inj (ha.symm.trans h)).symm
      have hcontext : calmly (context "clean older retired generation before activation"
          cleanupRetiringGeneration) s = (.ok (), s.cleanedRetiring) :=
        Prog.run_mapError_ok _ hclean
      rw [calmly_bind hcontext]
      rfl
    · rw [if_neg hr, if_neg hr]
      rfl

/-- **The active pointer flips**, and the attempt counters are cleared. -/
theorem flipActive_calm {id : Uuid} {s : Store} (ha : s.secrets.ptr .active ≠ some id) :
    calmly (flipActive id) s = (.ok (), s.flipped id) := by
  unfold flipActive
  rw [calmly_bind (loadGenerationId_calm .active s), if_neg ha,
    calmly_bind (retireActive_calm s)]
  rfl

/-! ## What they leave alone -/

section

variable {s : Store} {p q : Pointer} {id y : Uuid} {kind : PinKind}

theorem Secrets.attempts_remove_pointer (v : Secrets) :
    v.remove (.pointer p) (.pinAttempts kind) = v (.pinAttempts kind) := by
  simp [remove]

theorem Secrets.attempts_remove_generation (v : Secrets) :
    v.remove (.generation id) (.pinAttempts kind) = v (.pinAttempts kind) := by
  simp [remove]

theorem Store.clearIf_ptr : (s.clearIf p id).secrets.ptr q =
    if q = p ∧ s.secrets.ptr p = some id then none else s.secrets.ptr q := by
  unfold clearIf
  by_cases h : s.secrets.ptr p = some id
  · rw [if_pos h, delete_secrets, Secrets.ptr_remove_pointer]
    simp [h]
  · rw [if_neg h, if_neg fun hq => h hq.2]

theorem Store.clearIf_gen : (s.clearIf p id).secrets.gen y = s.secrets.gen y := by
  unfold clearIf
  split
  · exact Secrets.gen_remove_pointer ..
  · rfl

theorem Store.clearIf_keys : (s.clearIf p id).keys = s.keys := by
  unfold clearIf
  split <;> rfl

theorem Store.clearIf_attempts :
    (s.clearIf p id).secrets (.pinAttempts kind) = s.secrets (.pinAttempts kind) := by
  unfold clearIf
  split
  · rw [delete_secrets, Secrets.attempts_remove_pointer]
  · rfl

/-- The cleanup removes the retiring generation, unless that is active. -/
def Store.Removes (s : Store) (y : Uuid) : Prop :=
  s.secrets.ptr .retiring = some y ∧ s.secrets.ptr .active ≠ some y

theorem Store.cleanedRetiring_ptr (hq : q ≠ .retiring) :
    s.cleanedRetiring.secrets.ptr q = s.secrets.ptr q := by
  unfold cleanedRetiring
  split
  · rfl
  · split
    · rfl
    · simp [hq]

theorem Store.cleanedRetiring_gen (h : ¬ s.Removes y) :
    s.cleanedRetiring.secrets.gen y = s.secrets.gen y := by
  unfold cleanedRetiring
  split
  · rfl
  · next retiring hr =>
    split
    · rfl
    · next ha =>
      have hne : y ≠ retiring := by
        rintro rfl
        exact h ⟨hr, ha⟩
      simp [hne]

theorem Store.cleanedRetiring_keys (h : ¬ s.Removes y) :
    s.cleanedRetiring.keys (approvalKeyAlias y) = s.keys (approvalKeyAlias y) := by
  unfold cleanedRetiring
  split
  · rfl
  · next retiring hr =>
    split
    · rfl
    · next ha =>
      have hne : approvalKeyAlias y ≠ approvalKeyAlias retiring := by
        intro halias
        obtain rfl : y = retiring := congrArg ApprovalAlias.pairingId halias
        exact h ⟨hr, ha⟩
      simp [hne]

theorem Store.cleanedRetiring_attempts :
    s.cleanedRetiring.secrets (.pinAttempts kind) = s.secrets (.pinAttempts kind) := by
  unfold cleanedRetiring
  split
  · rfl
  · split
    · rfl
    · rw [delete_secrets, delete_secrets, Secrets.attempts_remove_pointer,
        Secrets.attempts_remove_generation]
      rfl

/-- The three pointers an activation clears. -/
def Pointer.Finalized (p : Pointer) : Prop := p = .staging ∨ p = .pending ∨ p = .committed

theorem Store.cleanedMetadata_ptr (hp : p.Finalized) : (s.cleanedMetadata id).secrets.ptr p =
    if s.secrets.ptr p = some id then none else s.secrets.ptr p := by
  unfold cleanedMetadata
  have hr : p ≠ .retiring := by
    rintro rfl
    simp [Pointer.Finalized] at hp
  rw [cleanedRetiring_ptr hr]
  obtain rfl | rfl | rfl := hp
  · simp [clearIf_ptr]
  · simp [clearIf_ptr]
  · simp [clearIf_ptr]

theorem Store.cleanedMetadata_active :
    (s.cleanedMetadata id).secrets.ptr .active = s.secrets.ptr .active := by
  unfold cleanedMetadata
  rw [cleanedRetiring_ptr (by decide : Pointer.active ≠ .retiring)]
  simp [clearIf_ptr]

/-- The pointers that decide what the cleanup removes stay. -/
theorem Store.removes_clearIf (hp : p.Finalized) : (s.clearIf p id).Removes y ↔ s.Removes y := by
  unfold Removes
  rw [clearIf_ptr, clearIf_ptr]
  obtain rfl | rfl | rfl := hp
  · simp
  · simp
  · simp

theorem Store.removes_cleared :
    (((s.clearIf .staging id).clearIf .pending id).clearIf .committed id).Removes y ↔
      s.Removes y := by
  rw [removes_clearIf (.inr (.inr rfl)), removes_clearIf (.inr (.inl rfl)),
    removes_clearIf (.inl rfl)]

theorem Store.cleanedMetadata_gen (h : ¬ s.Removes y) :
    (s.cleanedMetadata id).secrets.gen y = s.secrets.gen y := by
  unfold cleanedMetadata
  rw [cleanedRetiring_gen fun hr => h (removes_cleared.mp hr), clearIf_gen, clearIf_gen,
    clearIf_gen]

theorem Store.cleanedMetadata_keys (h : ¬ s.Removes y) :
    (s.cleanedMetadata id).keys (approvalKeyAlias y) = s.keys (approvalKeyAlias y) := by
  unfold cleanedMetadata
  rw [cleanedRetiring_keys fun hr => h (removes_cleared.mp hr), clearIf_keys, clearIf_keys,
    clearIf_keys]

theorem Store.cleanedMetadata_attempts :
    (s.cleanedMetadata id).secrets (.pinAttempts kind) = s.secrets (.pinAttempts kind) := by
  unfold cleanedMetadata
  rw [cleanedRetiring_attempts, clearIf_attempts, clearIf_attempts, clearIf_attempts]

/-- Where the active generation is not committed, there is nothing to
finish. -/
theorem Store.finalized_of_ne (ha : s.secrets.ptr .active = some id)
    (hc : s.secrets.ptr .committed ≠ some id) : s.finalized = s := by
  unfold finalized
  rw [ha]
  cases hcom : s.secrets.ptr .committed with
  | none => rfl
  | some committed =>
    show (if id = committed then _ else _) = s
    rw [if_neg]
    rintro rfl
    exact hc hcom

theorem Store.finalized_of_eq (ha : s.secrets.ptr .active = some id)
    (hc : s.secrets.ptr .committed = some id) : s.finalized = s.cleanedMetadata id := by
  unfold finalized
  rw [ha, hc]
  show (if id = id then _ else _) = _
  rw [if_pos rfl]

/-- What is finished has nothing more to finish. -/
theorem Store.cleanedMetadata_finalized (ha : s.secrets.ptr .active = some id) :
    (s.cleanedMetadata id).finalized = s.cleanedMetadata id := by
  refine finalized_of_ne (cleanedMetadata_active.trans ha) ?_
  rw [cleanedMetadata_ptr (.inr (.inr rfl))]
  split
  · exact nofun
  · next h => exact h

/-- **Finishing an activation twice is finishing it once.** -/
theorem Store.finalized_finalized (ha : s.secrets.ptr .active = some id) :
    s.finalized.finalized = s.finalized := by
  by_cases hc : s.secrets.ptr .committed = some id
  · rw [finalized_of_eq ha hc]
    exact cleanedMetadata_finalized ha
  · rw [finalized_of_ne ha hc, finalized_of_ne ha hc]

theorem Store.finalized_active (ha : s.secrets.ptr .active = some id) :
    s.finalized.secrets.ptr .active = some id := by
  by_cases hc : s.secrets.ptr .committed = some id
  · rw [finalized_of_eq ha hc, cleanedMetadata_active, ha]
  · rw [finalized_of_ne ha hc, ha]

/-- **The active generation and the attempt counters stay** when an
activation is finished, and every generation but the retiring one. -/
theorem Store.finalized_gen (ha : s.secrets.ptr .active = some id) (h : ¬ s.Removes y) :
    s.finalized.secrets.gen y = s.secrets.gen y := by
  by_cases hc : s.secrets.ptr .committed = some id
  · rw [finalized_of_eq ha hc, cleanedMetadata_gen h]
  · rw [finalized_of_ne ha hc]

theorem Store.finalized_keys (ha : s.secrets.ptr .active = some id) (h : ¬ s.Removes y) :
    s.finalized.keys (approvalKeyAlias y) = s.keys (approvalKeyAlias y) := by
  by_cases hc : s.secrets.ptr .committed = some id
  · rw [finalized_of_eq ha hc, cleanedMetadata_keys h]
  · rw [finalized_of_ne ha hc]

theorem Store.finalized_attempts (ha : s.secrets.ptr .active = some id) :
    s.finalized.secrets (.pinAttempts kind) = s.secrets (.pinAttempts kind) := by
  by_cases hc : s.secrets.ptr .committed = some id
  · rw [finalized_of_eq ha hc, cleanedMetadata_attempts]
  · rw [finalized_of_ne ha hc]

theorem Store.finalized_ptr (ha : s.secrets.ptr .active = some id) (hp : p.Finalized)
    (hy : s.secrets.ptr p = some y) (hne : y ≠ id) : s.finalized.secrets.ptr p = some y := by
  by_cases hc : s.secrets.ptr .committed = some id
  · rw [finalized_of_eq ha hc, cleanedMetadata_ptr hp, hy, if_neg]
    exact fun h => hne (Option.some.inj h)
  · rw [finalized_of_ne ha hc, hy]

theorem Store.retired_gen {oldActive : Option Uuid} (h : ¬ s.Removes y) :
    (s.retired oldActive).secrets.gen y = s.secrets.gen y := by
  unfold retired
  split
  · rfl
  · rw [save_secrets, Secrets.gen_put_pointer]
    split
    · exact cleanedRetiring_gen h
    · rfl

theorem Store.flipped_active : (s.flipped id).secrets.ptr .active = some id := by
  unfold flipped
  rw [delete_secrets, delete_secrets, Secrets.ptr_remove_pinAttempts,
    Secrets.ptr_remove_pinAttempts, save_secrets, Secrets.ptr_put_pointer, if_pos rfl]

theorem Store.flipped_gen (h : ¬ s.Removes y) :
    (s.flipped id).secrets.gen y = s.secrets.gen y := by
  unfold flipped
  rw [delete_secrets, delete_secrets, Secrets.gen_remove_pinAttempts,
    Secrets.gen_remove_pinAttempts, save_secrets, Secrets.gen_put_pointer, retired_gen h]

/-- The flip clears both attempt counters. -/
theorem Store.flipped_attempts : (s.flipped id).secrets (.pinAttempts kind) = none := by
  unfold flipped
  rw [delete_secrets, delete_secrets]
  unfold Secrets.remove
  cases kind with
  | fourDigit =>
    rw [Function.update_of_ne (by decide)]
    exact Function.update_self ..
  | sixDigit => exact Function.update_self ..

end

variable [Crypto]

/-- What loading a generation gives. -/
def Secrets.loaded (v : Secrets) (id : Uuid) : Except Anyhow PairingGeneration :=
  match v.gen id with
  | none => .error [s!"pairing generation {Uuid.toString id} not in store"]
  | some generation =>
    if generation.pairingId ≠ id then .error ["pairing generation id mismatch"]
    else (validateGenerationMetadata generation).map fun _ => generation

theorem loadMetadataValidatedGeneration_calm (id : Uuid) (s : Store) :
    calmly (loadMetadataValidatedGeneration id) s = (s.secrets.loaded id, s) := by
  have hget : calmly (context s!"load generation {Uuid.toString id}" (getEntry (.generation id)))
      s = (.ok (s.secrets.gen id), s) := rfl
  unfold loadMetadataValidatedGeneration Secrets.loaded
  cases hg : s.secrets.gen id with
  | none =>
    have hload : calmly (loadGeneration id) s =
        (.error [s!"pairing generation {Uuid.toString id} not in store"], s) := by
      unfold loadGeneration
      rw [calmly_bind hget, hg]
      rfl
    rw [calmly_bind_error hload]
  | some generation =>
    by_cases hid : generation.pairingId = id
    · have hload : calmly (loadGeneration id) s = (.ok generation, s) := by
        unfold loadGeneration
        rw [calmly_bind hget, hg]
        show calmly (if generation.pairingId ≠ id then _ else _) s = _
        rw [if_neg (not_not.mpr hid)]
        rfl
      rw [calmly_bind hload]
      show _ = (if generation.pairingId ≠ id then _ else _, s)
      rw [if_neg (not_not.mpr hid)]
      cases validateGenerationMetadata generation with
      | error e => rfl
      | ok u => rfl
    · have hload : calmly (loadGeneration id) s =
          (.error ["pairing generation id mismatch"], s) := by
        unfold loadGeneration
        rw [calmly_bind hget, hg]
        show calmly (if generation.pairingId ≠ id then _ else _) s = _
        rw [if_pos hid]
        rfl
      rw [calmly_bind_error hload]
      show _ = (if generation.pairingId ≠ id then _ else _, s)
      rw [if_pos hid]

/-- Loading under a context. -/
theorem loadUnder_calm (message : String) (id : Uuid) (s : Store) :
    calmly (context message (loadMetadataValidatedGeneration id)) s =
      ((s.secrets.loaded id).mapError (message :: ·), s) := by
  unfold calmly context
  rw [Prog.run_mapError]
  have hload := loadMetadataValidatedGeneration_calm id s
  unfold calmly at hload
  rw [hload]

/-! ## Commit and activate -/

variable {s s' : Store} {x : Uuid}

/-- **Committing the active generation** finishes its activation. -/
theorem commit_of_active (ha : s.secrets.ptr .active = some x) :
    calmly (commitPendingGeneration x) s = match s.secrets.loaded x with
      | .ok _ => (.ok (), s.finalized)
      | .error e => (.error ("validate active generation" :: e), s) := by
  unfold commitPendingGeneration
  rw [calmly_bind (loadGenerationId_calm .active s), if_pos ha]
  have hload := loadUnder_calm "validate active generation" x s
  cases hl : s.secrets.loaded x with
  | error e =>
    rw [hl] at hload
    rw [calmly_bind_error hload]
  | ok g =>
    rw [hl] at hload
    rw [calmly_bind hload]
    exact finalizeActiveActivation_calm s

/-- **Committing the committed generation** does nothing. -/
theorem commit_of_committed (ha : s.secrets.ptr .active ≠ some x)
    (hc : s.secrets.ptr .committed = some x) :
    calmly (commitPendingGeneration x) s = match s.secrets.loaded x with
      | .ok _ => (.ok (), s)
      | .error e => (.error ("validate committed generation" :: e), s) := by
  unfold commitPendingGeneration
  rw [calmly_bind (loadGenerationId_calm .active s), if_neg ha,
    calmly_bind (loadGenerationId_calm .committed s), if_pos hc]
  have hload := loadUnder_calm "validate committed generation" x s
  cases hl : s.secrets.loaded x with
  | error e =>
    rw [hl] at hload
    rw [calmly_bind_error hload]
  | ok g =>
    rw [hl] at hload
    rw [calmly_bind hload]
    rfl

/-- **Committing the pending generation** sets the pointer. -/
theorem commit_of_pending (ha : s.secrets.ptr .active ≠ some x)
    (hc : s.secrets.ptr .committed ≠ some x) (hp : s.secrets.ptr .pending = some x) :
    calmly (commitPendingGeneration x) s = match s.secrets.loaded x with
      | .ok _ => (.ok (), s.save (.pointer .committed) x)
      | .error e => (.error ("validate pending generation" :: e), s) := by
  unfold commitPendingGeneration
  rw [calmly_bind (loadGenerationId_calm .active s), if_neg ha,
    calmly_bind (loadGenerationId_calm .committed s), if_neg hc,
    calmly_bind (loadGenerationId_calm .pending s), if_neg (not_not.mpr hp)]
  have hload := loadUnder_calm "validate pending generation" x s
  cases hl : s.secrets.loaded x with
  | error e =>
    rw [hl] at hload
    rw [calmly_bind_error hload]
  | ok g =>
    rw [hl] at hload
    rw [calmly_bind hload]
    exact saveGenerationId_calm .committed x s

/-- Any other generation is refused. -/
theorem commit_of_other (ha : s.secrets.ptr .active ≠ some x)
    (hc : s.secrets.ptr .committed ≠ some x) (hp : s.secrets.ptr .pending ≠ some x) :
    calmly (commitPendingGeneration x) s =
      (.error ["pending pairing id mismatch while marking committed"], s) := by
  unfold commitPendingGeneration
  rw [calmly_bind (loadGenerationId_calm .active s), if_neg ha,
    calmly_bind (loadGenerationId_calm .committed s), if_neg hc,
    calmly_bind (loadGenerationId_calm .pending s), if_pos hp]
  rfl

/-- **Activating the active generation** finishes its activation. -/
theorem activate_of_active (ha : s.secrets.ptr .active = some x) :
    calmly (activateGeneration x) s = match s.secrets.loaded x with
      | .ok g => (.ok g, s.finalized)
      | .error e => (.error ("validate active generation" :: e), s) := by
  unfold activateGeneration
  rw [calmly_bind (loadGenerationId_calm .active s), if_pos ha]
  have hload := loadUnder_calm "validate active generation" x s
  cases hl : s.secrets.loaded x with
  | error e =>
    rw [hl] at hload
    rw [calmly_bind_error hload]
  | ok g =>
    rw [hl] at hload
    rw [calmly_bind hload, calmly_bind (finalizeActiveActivation_calm s)]
    rfl

/-- **Activating the committed generation** flips the pointer and cleans
up. -/
theorem activate_of_committed (ha : s.secrets.ptr .active ≠ some x)
    (hp : s.secrets.ptr .pending = some x) (hc : s.secrets.ptr .committed = some x) :
    calmly (activateGeneration x) s = match s.secrets.loaded x with
      | .ok g => (.ok g, (s.flipped x).cleanedMetadata x)
      | .error e => (.error ("validate committed generation" :: e), s) := by
  unfold activateGeneration
  rw [calmly_bind (loadGenerationId_calm .active s), if_neg ha,
    calmly_bind (loadGenerationId_calm .pending s), hp]
  show calmly (loadGenerationId .committed >>= _) s = _
  rw [calmly_bind (loadGenerationId_calm .committed s), hc]
  show calmly (if x ≠ x ∨ x ≠ x then _ else _) s = _
  rw [if_neg (by simp)]
  have hload := loadUnder_calm "validate committed generation" x s
  cases hl : s.secrets.loaded x with
  | error e =>
    rw [hl] at hload
    rw [calmly_bind_error hload]
  | ok g =>
    rw [hl] at hload
    rw [calmly_bind hload, calmly_bind (flipActive_calm ha),
      calmly_bind (cleanupActivationMetadata_calm x _)]
    rfl

/-- Any other generation is refused. -/
theorem activate_of_other (ha : s.secrets.ptr .active ≠ some x)
    (h : ¬ (s.secrets.ptr .pending = some x ∧ s.secrets.ptr .committed = some x)) :
    ∃ e, calmly (activateGeneration x) s = (.error e, s) := by
  unfold activateGeneration
  rw [calmly_bind (loadGenerationId_calm .active s), if_neg ha,
    calmly_bind (loadGenerationId_calm .pending s)]
  cases hp : s.secrets.ptr .pending with
  | none => exact ⟨_, rfl⟩
  | some pending =>
    show ∃ e, calmly (loadGenerationId .committed >>= _) s = _
    rw [calmly_bind (loadGenerationId_calm .committed s)]
    cases hc : s.secrets.ptr .committed with
    | none => exact ⟨_, rfl⟩
    | some committed =>
      show ∃ e, calmly (if pending ≠ committed ∨ committed ≠ x then _ else _) s = _
      rw [if_pos]
      · exact ⟨_, rfl⟩
      · by_contra hno
        rw [not_or, not_not, not_not] at hno
        obtain ⟨rfl, rfl⟩ := hno
        exact h ⟨hp, hc⟩

/-! ## Any run, then the replay -/

/-- **A store of a run**: its pointers, records and keys are those at some
moment of a run; the PIN attempt counters, which the storage operations
of a run do not read, may be any. -/
def StoreReachable (s : Store) : Prop :=
  ∃ c : BenchConfig, BenchReachable c ∧ s.keys = c.state.store.keys ∧
    (∀ p, s.secrets.ptr p = c.state.store.secrets.ptr p) ∧
    ∀ id, s.secrets.gen id = c.state.store.secrets.gen id

/-- **What is staged, pending or committed and not active is not what the
cleanup removes.** -/
theorem StoreReachable.not_removes (hs : StoreReachable s) {p : Pointer} (hp : p.Finalized)
    {y : Uuid} (hy : s.secrets.ptr p = some y) : ¬ s.Removes y := by
  rintro ⟨hr, ha⟩
  obtain ⟨c, hc, -, hptr, -⟩ := hs
  have hi : Integrity c.state.store c.state.history := hc.holds.inv.intact
  rw [hptr] at hr ha hy
  have hactive : y ∈ c.state.history.actives := hi.retiringActive y hr
  obtain rfl | rfl | rfl := hp
  · exact ha (hi.stagingActive y hy hactive).1
  · exact ha (hi.pendingActive y hy hactive).1
  · obtain ⟨-, hno⟩ | ⟨hyes, -⟩ := hi.committed y hy
    · exact hno hactive
    · exact ha hyes

omit [Crypto] in
/-- A store that keeps the pointers' other generations and the counters. -/
structure Untouched (x : Uuid) (s s' : Store) : Prop where
  pointers : ∀ p : Pointer, p.Finalized → ∀ y, y ≠ x → s.secrets.ptr p = some y →
    s'.secrets.ptr p = some y ∧ s'.secrets.gen y = s.secrets.gen y ∧
      s'.keys (approvalKeyAlias y) = s.keys (approvalKeyAlias y)
  attempts : ∀ kind, s'.secrets (.pinAttempts kind) = s.secrets (.pinAttempts kind)

/-- What is put again. -/
inductive Replayed where
  | commit
  | activate

/-- The store after it. -/
def Replayed.store (r : Replayed) (x : Uuid) (s : Store) : Store :=
  match r with
  | commit => (calmly (commitPendingGeneration x) s).2
  | activate => (calmly (activateGeneration x) s).2

/-- **For the active generation it finishes the activation**, or does
nothing. -/
theorem Replayed.store_eq (r : Replayed) (ha : s.secrets.ptr .active = some x) :
    r.store x s = s ∨ r.store x s = s.finalized := by
  cases r with
  | commit =>
    unfold store
    rw [commit_of_active ha]
    cases s.secrets.loaded x with
    | error e => exact .inl rfl
    | ok g => exact .inr rfl
  | activate =>
    unfold store
    rw [activate_of_active ha]
    cases s.secrets.loaded x with
    | error e => exact .inl rfl
    | ok g => exact .inr rfl

/-- **Any number of times, in any order.** -/
theorem Replayed.foldl_store (l : List Replayed) (ha : s.secrets.ptr .active = some x) :
    l.foldl (fun s r => r.store x s) s = s ∨ l.foldl (fun s r => r.store x s) s = s.finalized := by
  induction l generalizing s with
  | nil => exact .inl rfl
  | cons r l ih =>
    obtain h | h := r.store_eq ha
    · rw [List.foldl_cons, h]
      exact ih ha
    · rw [List.foldl_cons, h]
      have hagain := ih (Store.finalized_active ha)
      rw [Store.finalized_finalized ha, or_self] at hagain
      exact .inr hagain

/-- Finishing the activation touches nothing else. -/
theorem StoreReachable.untouched_finalized (hs : StoreReachable s)
    (ha : s.secrets.ptr .active = some x) : Untouched x s s.finalized where
  pointers _ hp _ hne hy :=
    ⟨Store.finalized_ptr ha hp hy hne, Store.finalized_gen ha (hs.not_removes hp hy),
      Store.finalized_keys ha (hs.not_removes hp hy)⟩
  attempts _ := Store.finalized_attempts ha

/-- What loading gives is decided by the record. -/
theorem loaded_congr (h : s'.secrets.gen x = s.secrets.gen x) :
    s'.secrets.loaded x = s.secrets.loaded x := by
  unfold Secrets.loaded
  rw [h]

omit [Crypto] in
/-- The active generation is never what the cleanup removes. -/
theorem not_removes_active (ha : s.secrets.ptr .active = some x) : ¬ s.Removes x :=
  fun h => h.2 ha

/-- **Committing twice is committing once.** -/
theorem commit_twice {s₁ : Store} (h : calmly (commitPendingGeneration x) s = (.ok (), s₁)) :
    calmly (commitPendingGeneration x) s₁ = (.ok (), s₁) := by
  by_cases ha : s.secrets.ptr .active = some x
  · rw [commit_of_active ha] at h
    cases hl : s.secrets.loaded x with
    | error e =>
      rw [hl] at h
      cases h
    | ok g =>
      rw [hl] at h
      cases h
      rw [commit_of_active (Store.finalized_active ha),
        loaded_congr (Store.finalized_gen ha (not_removes_active ha)), hl,
        Store.finalized_finalized ha]
  by_cases hc : s.secrets.ptr .committed = some x
  · have hsame := h
    rw [commit_of_committed ha hc] at h
    cases hl : s.secrets.loaded x with
    | error e =>
      rw [hl] at h
      cases h
    | ok g =>
      rw [hl] at h
      cases h
      exact hsame
  by_cases hp : s.secrets.ptr .pending = some x
  · rw [commit_of_pending ha hc hp] at h
    cases hl : s.secrets.loaded x with
    | error e =>
      rw [hl] at h
      cases h
    | ok g =>
      rw [hl] at h
      cases h
      have ha' : (s.save (.pointer .committed) x).secrets.ptr .active ≠ some x := by
        rw [Store.save_secrets, Secrets.ptr_put_pointer, if_neg (by decide)]
        exact ha
      have hc' : (s.save (.pointer .committed) x).secrets.ptr .committed = some x := by
        rw [Store.save_secrets, Secrets.ptr_put_pointer, if_pos rfl]
      have hgen : (s.save (.pointer .committed) x).secrets.gen x = s.secrets.gen x := by
        rw [Store.save_secrets, Secrets.gen_put_pointer]
      rw [commit_of_committed ha' hc', loaded_congr hgen, hl]
  · rw [commit_of_other ha hc hp] at h
    cases h

/-- **How an activation ends that returns**: it finishes that of the active
generation, or it makes the committed one active. -/
theorem activate_ok {g : PairingGeneration} {s₁ : Store}
    (h : calmly (activateGeneration x) s = (.ok g, s₁)) :
    s.secrets.loaded x = .ok g ∧
      ((s.secrets.ptr .active = some x ∧ s₁ = s.finalized) ∨
        (s.secrets.ptr .active ≠ some x ∧ s.secrets.ptr .pending = some x ∧
          s.secrets.ptr .committed = some x ∧ s₁ = (s.flipped x).cleanedMetadata x)) := by
  by_cases ha : s.secrets.ptr .active = some x
  · rw [activate_of_active ha] at h
    cases hl : s.secrets.loaded x with
    | error e =>
      rw [hl] at h
      cases h
    | ok g =>
      rw [hl] at h
      cases h
      exact ⟨rfl, .inl ⟨ha, rfl⟩⟩
  by_cases hpc : s.secrets.ptr .pending = some x ∧ s.secrets.ptr .committed = some x
  · rw [activate_of_committed ha hpc.1 hpc.2] at h
    cases hl : s.secrets.loaded x with
    | error e =>
      rw [hl] at h
      cases h
    | ok g =>
      rw [hl] at h
      cases h
      exact ⟨rfl, .inr ⟨ha, hpc.1, hpc.2, rfl⟩⟩
  · obtain ⟨e, he⟩ := activate_of_other ha hpc
    rw [he] at h
    cases h

/-- **Activating twice is activating once**, with the same secrets. -/
theorem activate_twice (hs : StoreReachable s) {g : PairingGeneration} {s₁ : Store}
    (h : calmly (activateGeneration x) s = (.ok g, s₁)) :
    calmly (activateGeneration x) s₁ = (.ok g, s₁) := by
  obtain ⟨hl, ⟨ha, rfl⟩ | ⟨ha, hp, hc, rfl⟩⟩ := activate_ok h
  · rw [activate_of_active (Store.finalized_active ha),
      loaded_congr (Store.finalized_gen ha (not_removes_active ha)), hl,
      Store.finalized_finalized ha]
  · have hactive : ((s.flipped x).cleanedMetadata x).secrets.ptr .active = some x :=
      Store.cleanedMetadata_active.trans Store.flipped_active
    have hgen : ((s.flipped x).cleanedMetadata x).secrets.gen x = s.secrets.gen x := by
      rw [Store.cleanedMetadata_gen (not_removes_active Store.flipped_active),
        Store.flipped_gen (hs.not_removes (.inr (.inl rfl)) hp)]
    rw [activate_of_active hactive, loaded_congr hgen, hl,
      Store.cleanedMetadata_finalized Store.flipped_active]

/-- **An activation clears the attempt counters exactly when it moves the
active pointer.** -/
theorem activate_attempts {r : Except Anyhow PairingGeneration} {s₁ : Store}
    (h : calmly (activateGeneration x) s = (r, s₁)) :
    (s.secrets.ptr .active ≠ some x ∧ s₁.secrets.ptr .active = some x ∧
      ∀ kind, s₁.secrets (.pinAttempts kind) = none) ∨
    (s₁.secrets.ptr .active = s.secrets.ptr .active ∧
      ∀ kind, s₁.secrets (.pinAttempts kind) = s.secrets (.pinAttempts kind)) := by
  cases r with
  | ok g =>
    obtain ⟨-, ⟨ha, rfl⟩ | ⟨ha, -, -, rfl⟩⟩ := activate_ok h
    · exact .inr ⟨(Store.finalized_active ha).trans ha.symm, fun _ => Store.finalized_attempts ha⟩
    · exact .inl ⟨ha, Store.cleanedMetadata_active.trans Store.flipped_active, fun _ =>
        Store.cleanedMetadata_attempts.trans Store.flipped_attempts⟩
  | error e =>
    have hsame : s₁ = s := by
      by_cases ha : s.secrets.ptr .active = some x
      · rw [activate_of_active ha] at h
        cases hl : s.secrets.loaded x with
        | error e =>
          rw [hl] at h
          cases h
          rfl
        | ok g =>
          rw [hl] at h
          cases h
      by_cases hpc : s.secrets.ptr .pending = some x ∧ s.secrets.ptr .committed = some x
      · rw [activate_of_committed ha hpc.1 hpc.2] at h
        cases hl : s.secrets.loaded x with
        | error e =>
          rw [hl] at h
          cases h
          rfl
        | ok g =>
          rw [hl] at h
          cases h
      · obtain ⟨e, he⟩ := activate_of_other ha hpc
        rw [he] at h
        cases h
        rfl
    rw [hsame]
    exact .inr ⟨rfl, fun _ => rfl⟩

/-- **Commit and activate may be put again**, from any store of a run.
Twice is once, with the same secrets. Put again for the active generation,
any number of times and in any order, they touch no other generation that
is staged, pending or committed and no attempt counter, which an activation
clears exactly when it moves the active pointer. -/
theorem replay_harmless (s : Store) (hs : StoreReachable s) (x : Uuid) :
    (∀ s₁, calmly (commitPendingGeneration x) s = (.ok (), s₁) →
      calmly (commitPendingGeneration x) s₁ = (.ok (), s₁)) ∧
    (∀ g s₁, calmly (activateGeneration x) s = (.ok g, s₁) →
      calmly (activateGeneration x) s₁ = (.ok g, s₁)) ∧
    (s.secrets.ptr .active = some x → ∀ l : List Replayed,
      Untouched x s (l.foldl (fun s r => r.store x s) s)) ∧
    ∀ r s₁, calmly (activateGeneration x) s = (r, s₁) →
      (s.secrets.ptr .active ≠ some x ∧ s₁.secrets.ptr .active = some x ∧
        ∀ kind, s₁.secrets (.pinAttempts kind) = none) ∨
      (s₁.secrets.ptr .active = s.secrets.ptr .active ∧
        ∀ kind, s₁.secrets (.pinAttempts kind) = s.secrets (.pinAttempts kind)) := by
  refine ⟨fun s₁ h => commit_twice h, fun g s₁ h => activate_twice hs h, fun ha l => ?_,
    fun r s₁ h => activate_attempts h⟩
  obtain h | h := Replayed.foldl_store l ha
  · rw [h]
    exact ⟨fun p hp y hne hy => ⟨hy, rfl, rfl⟩, fun kind => rfl⟩
  · rw [h]
    exact hs.untouched_finalized ha

omit [Crypto] in
/-- While the next pairing is committed, and after a wrong PIN, the commit and the
activation of the active one are put again. -/
theorem replay_harmless_nextPairing : ∃ s : Store, s.secrets.ptr .active = some 1 ∧
    s.secrets.ptr .committed = some 2 ∧
    s.secrets (.pinAttempts .fourDigit) = some { failedAttempts := 1 } ∧
    @Untouched 1 s ([Replayed.commit, .activate, .commit].foldl
      (fun s r => @Replayed.store Crypto.plain r 1 s) s) := by
  have hplay : (@Bench.play Crypto.plain Bench.initial nextPairing).map (fun b =>
      (b.store.secrets.ptr .active, b.store.secrets.ptr .committed)) = some (some 1, some 2) := by
    decide +kernel
  obtain ⟨b, hb, hptr⟩ := Option.map_eq_some_iff.mp hplay
  obtain ⟨ha, hcommitted⟩ := Prod.mk.inj hptr
  have hs : @StoreReachable Crypto.plain (b.store.save (.pinAttempts .fourDigit)
      { failedAttempts := 1 }) :=
    ⟨⟨b, none⟩, @BenchReachable.play Crypto.plain _ _ _ .refl hb, rfl,
      fun p => Secrets.ptr_put_pinAttempts .., fun id => Secrets.gen_put_pinAttempts ..⟩
  have ha' : (b.store.save (.pinAttempts .fourDigit) { failedAttempts := 1 }).secrets.ptr
      .active = some 1 := by
    rw [Store.save_secrets, Secrets.ptr_put_pinAttempts, ha]
  have hc' : (b.store.save (.pinAttempts .fourDigit) { failedAttempts := 1 }).secrets.ptr
      .committed = some 2 := by
    rw [Store.save_secrets, Secrets.ptr_put_pinAttempts, hcommitted]
  exact ⟨_, ha', hc', by simp [Secrets.put], (@replay_harmless Crypto.plain _ hs 1).2.2.1 ha' _⟩

end Phone
