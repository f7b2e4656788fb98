import Ferusa.Phone.StoreStep

/-!
# The operations of the phone store keep to its steps

One statement for each program of `Ferusa.Phone.Store`: started with the
lock, every command it puts is a `StoreStep`, and it ends holding the
lock, with what its callers need to know of the store.
-/

namespace Phone

open Logic StoreProg

variable [Crypto] {t : Nat} {op : StoreOp} {v : Secrets} {X : Secrets → Prop}

/-! ## Reading -/

theorem loadGenerationId_runs (p : Pointer) (hX : X v) :
    Runs t op X (Snapshot t v) (loadGenerationId p)
      (fun a s => a = v.ptr p ∧ Snapshot t v s) :=
  runs_context (getEntry_runs _ hX)

/-- A loaded record is the stored one and carries its own id. -/
theorem loadGeneration_runs (id : Uuid) (hX : X v) :
    Runs t op X (Snapshot t v) (loadGeneration id)
      (fun g s => (v.gen id = some g ∧ g.pairingId = id) ∧ Snapshot t v s) := by
  refine Triple.bind (runs_context (getEntry_runs _ hX)) fun stored =>
    Triple.given fun hst => ?_
  cases stored with
  | none => exact runs_bail hX
  | some g =>
    show Runs t op X _ (if g.pairingId ≠ id then _ else _) _
    split
    · exact runs_bail hX
    · next hid => exact runs_pure fun s hs => ⟨⟨hst.symm, not_not.mp hid⟩, hs⟩

/-- **A validated record** is the stored one and valid for its id. -/
theorem loadMetadataValidatedGeneration_runs (id : Uuid) (hX : X v) :
    Runs t op X (Snapshot t v) (loadMetadataValidatedGeneration id)
      (fun g s => (v.gen id = some g ∧ ValidFor id g) ∧ Snapshot t v s) := by
  refine Triple.bind (loadGeneration_runs id hX) fun g => Triple.given fun hg => ?_
  refine Triple.bind (runs_ofExcept hX) fun _ => Triple.given fun hv => ?_
  exact runs_pure fun s hs => ⟨⟨hg.1, hg.2, hv⟩, hs⟩

theorem validateGenerationKeyBinding_runs (g : PairingGeneration) (hX : X v) :
    Runs t op X (Snapshot t v) (validateGenerationKeyBinding g)
      (fun _ => Snapshot t v) := by
  refine Triple.bind (runs_ofExcept hX) fun _ => Triple.given fun _ => ?_
  refine Triple.bind (runs_context (signApproval_runs hX)) fun signature => ?_
  split
  · exact runs_pure fun s hs => hs
  · exact runs_bail hX

theorem loadKeyBoundGeneration_runs (id : Uuid) (hX : X v) :
    Runs t op X (Snapshot t v) (loadKeyBoundGeneration id)
      (fun g s => (v.gen id = some g ∧ ValidFor id g) ∧ Snapshot t v s) := by
  refine Triple.bind (loadMetadataValidatedGeneration_runs id hX) fun g =>
    Triple.given fun hg => ?_
  refine Triple.bind (validateGenerationKeyBinding_runs g hX) fun _ => ?_
  exact runs_pure fun s hs => ⟨hg, hs⟩

/-! ## Deleting generations -/

/-- **`remove_generation`** of a generation that may be deleted leaves the
pointers alone. -/
theorem removeGeneration_runs {id : Uuid} (hd : Deletable op v id) (hX : X v)
    (hX' : X (v.remove (.generation id))) :
    Runs t op X (Snapshot t v) (removeGeneration id)
      (fun _ => Snapshot t (v.remove (.generation id))) := by
  refine Triple.bind (runs_context (deleteApprovalKey_runs hX fun s hs => ?_)) fun _ => ?_
  · exact .deleteKey hs.1 (hs.2 ▸ hd)
  · exact runs_context (deleteEntry_runs hX hX' fun s hs => .deleteRecord hs.1 (hs.2 ▸ hd))

/-- The pointers other than the retiring one are as in `v`. -/
def SameButRetiring (v v' : Secrets) : Prop :=
  ∀ p, p ≠ .retiring → v'.ptr p = v.ptr p

/-- **`cleanup_retiring_generation`** leaves the other pointers as they
were, and no retiring pointer if it returns. -/
theorem cleanupRetiringGeneration_runs :
    Runs t op (SameButRetiring v) (Snapshot t v) cleanupRetiringGeneration
      (fun _ s => ∃ v', (v'.ptr .retiring = none ∧ SameButRetiring v v') ∧
        Snapshot t v' s) := by
  have hrefl : SameButRetiring v v := fun _ _ => rfl
  refine Triple.bind (loadGenerationId_runs .retiring hrefl) fun r =>
    Triple.given fun hr => ?_
  cases r with
  | none => exact runs_pure fun s hs => ⟨v, ⟨hr.symm, hrefl⟩, hs⟩
  | some retiring =>
    refine Triple.bind (loadGenerationId_runs .active hrefl) fun a =>
      Triple.given fun ha => ?_
    split
    · exact runs_bail hrefl
    · next hne =>
      have hd : Deletable op v retiring := ⟨fun h => hne (ha.trans h), .inl hr.symm⟩
      have hrec : SameButRetiring v (v.remove (.generation retiring)) :=
        fun p _ => by simp
      have hptr : SameButRetiring v
          ((v.remove (.generation retiring)).remove (.pointer .retiring)) :=
        fun p hp => by simp [hp]
      refine Triple.bind (removeGeneration_runs hd hrefl hrec) fun _ => ?_
      refine (runs_context (deleteEntry_runs hrec hptr fun s hs => .clearRetiring hs.1)).post
        fun _ s _ hs => ⟨_, ⟨by simp, hptr⟩, hs⟩

/-- The cleanup may fail where it is only attempted. -/
theorem cleanupRetiringGeneration_attempt_runs :
    Runs t op X (Snapshot t v) cleanupRetiringGeneration.attempt
      (fun _ s => ∃ v', SameButRetiring v v' ∧ Snapshot t v' s) := by
  refine Triple.attempt ?_
  exact cleanupRetiringGeneration_runs.post fun _ s _ ⟨v', hv', hs⟩ => ⟨v', hv'.2, hs⟩

/-! ## Finishing an activation -/

/-- **Pointers are only cleared** going from `v` to `v'`, and the active
one not at all. -/
def Cleared (v v' : Secrets) : Prop :=
  v'.ptr .active = v.ptr .active ∧
    ∀ p, p = .staging ∨ p = .pending ∨ p = .committed →
      v'.ptr p = v.ptr p ∨ v'.ptr p = none

omit [Crypto] in
theorem Cleared.refl (v : Secrets) : Cleared v v := ⟨rfl, fun _ _ => .inl rfl⟩

omit [Crypto] in
theorem Cleared.remove {v₀ v : Secrets} (h : Cleared v₀ v) {p : Pointer}
    (hp : p ≠ .active) : Cleared v₀ (v.remove (.pointer p)) := by
  refine ⟨?_, fun q hq => ?_⟩
  · simpa [hp.symm] using h.1
  · by_cases hpq : q = p
    · exact .inr (by simp [hpq])
    · simpa [hpq] using h.2 q hq

omit [Crypto] in
theorem Cleared.same {v₀ v v' : Secrets} (h : Cleared v₀ v)
    (h' : SameButRetiring v v') : Cleared v₀ v' := by
  refine ⟨(h' _ (by simp)).trans h.1, fun p hp => ?_⟩
  rw [h' p (by rcases hp with rfl | rfl | rfl <;> simp)]
  exact h.2 p hp

omit [Crypto] in
/-- What may be discarded still may after pointers were cleared. -/
theorem StoreOp.MayDiscard.cleared {v v' : Secrets} (h : op.MayDiscard v)
    (hc : Cleared v v') : op.MayDiscard v' := by
  have hs := hc.2 .staging (.inl rfl)
  have hp := hc.2 .pending (.inr (.inl rfl))
  cases op with
  | begin id =>
    show v'.ptr .pending = none
    rcases hp with hp | hp
    · exact hp.trans h
    · exact hp
  | abort id =>
    refine ⟨fun z hz => ?_, fun z hz => ?_⟩
    · rcases hs with hs | hs
      · exact h.1 z (hs ▸ hz)
      · simp [hs] at hz
    · rcases hp with hp | hp
      · exact h.2 z (hp ▸ hz)
      · simp [hp] at hz
  | _ => exact h.elim

/-- One turn of the loop of `cleanup_activation_metadata`. -/
theorem clearFinalized_runs {v₀ : Secrets} {id : Uuid} {p : Pointer} {message : String}
    {P : Secrets → Prop} (hX : Cleared v₀ v)
    (hpt : p = .staging ∨ p = .pending ∨ p = .committed)
    (ha : v.ptr .active = some id) (hc : v.ptr .committed = some id)
    (hlast : p = .committed → v.ptr .staging ≠ some id ∧ v.ptr .pending ≠ some id)
    (hkeep : v.ptr p ≠ some id → P v) (hclear : P (v.remove (.pointer p))) :
    Runs t op (Cleared v₀) (Snapshot t v)
      (do
        let stored ← loadGenerationId p
        if stored = some id then context message (deleteEntry (.pointer p))
        else pure ())
      (fun _ s => ∃ v', (Cleared v₀ v' ∧ P v') ∧ Snapshot t v' s) := by
  have hX' : Cleared v₀ (v.remove (.pointer p)) :=
    hX.remove (by rcases hpt with rfl | rfl | rfl <;> simp)
  refine Triple.bind (loadGenerationId_runs p hX) fun stored => Triple.given fun hst => ?_
  split
  · next h =>
    refine (runs_context (deleteEntry_runs hX hX' fun s hs => ?_)).post
      fun _ s _ hs => ⟨_, ⟨hX', hclear⟩, hs⟩
    obtain ⟨hg, rfl⟩ := hs
    exact .finalize hg hpt ha hc (hst.symm.trans h) hlast
  · next h =>
    exact runs_pure fun s hs => ⟨v, ⟨hX, hkeep fun h' => h (hst.trans h')⟩, hs⟩

/-- **`cleanup_activation_metadata`** of the active and committed
generation only clears pointers. -/
theorem cleanupActivationMetadata_runs {id : Uuid}
    (ha : v.ptr .active = some id) (hc : v.ptr .committed = some id) :
    Runs t op (Cleared v) (Snapshot t v) (cleanupActivationMetadata id)
      (fun _ s => ∃ v', Cleared v v' ∧ Snapshot t v' s) := by
  unfold cleanupActivationMetadata
  refine Triple.bind (M := fun _ s => ∃ v', Cleared v v' ∧ Snapshot t v' s) ?_
    fun _ => runs_where fun v' hv' => ?_
  · simp only [Prog.each]
    refine Triple.bind (clearFinalized_runs (.refl v)
      (P := fun w => w.ptr .active = some id ∧ w.ptr .committed = some id ∧
        w.ptr .staging ≠ some id) (.inl rfl) ha hc (by simp)
      (fun h => ⟨ha, hc, h⟩) (by simp [ha, hc])) fun _ => runs_where fun v₁ h₁ => ?_
    obtain ⟨hcl₁, ha₁, hc₁, hs₁⟩ := h₁
    refine Triple.bind (clearFinalized_runs hcl₁
      (P := fun w => w.ptr .active = some id ∧ w.ptr .committed = some id ∧
        w.ptr .staging ≠ some id ∧ w.ptr .pending ≠ some id) (.inr (.inl rfl))
      ha₁ hc₁ (by simp) (fun h => ⟨ha₁, hc₁, hs₁, h⟩)
      (by simp [ha₁, hc₁, hs₁])) fun _ => runs_where fun v₂ h₂ => ?_
    obtain ⟨hcl₂, ha₂, hc₂, hs₂, hp₂⟩ := h₂
    refine Triple.bind (clearFinalized_runs hcl₂ (P := fun _ => True) (.inr (.inr rfl))
      ha₂ hc₂ (fun _ => ⟨hs₂, hp₂⟩) (fun _ => trivial) trivial)
      fun _ => runs_where fun v₃ h₃ => runs_pure fun s hs => ⟨v₃, h₃.1, hs⟩
  · refine Triple.bind cleanupRetiringGeneration_attempt_runs fun _ =>
      runs_where fun v'' hv'' => runs_pure fun s hs => ⟨v'', hv'.same hv'', hs⟩

/-- **`finalize_active_activation`** only clears pointers. -/
theorem finalizeActiveActivation_runs :
    Runs t op (Cleared v) (Snapshot t v) finalizeActiveActivation
      (fun _ s => ∃ v', Cleared v v' ∧ Snapshot t v' s) := by
  refine Triple.bind (loadGenerationId_runs .active (.refl v)) fun a =>
    Triple.given fun ha => ?_
  refine Triple.bind (loadGenerationId_runs .committed (.refl v)) fun c =>
    Triple.given fun hc => ?_
  have hdone : Runs t op (Cleared v) (Snapshot t v) (pure ())
      (fun _ s => ∃ v', Cleared v v' ∧ Snapshot t v' s) :=
    runs_pure fun s hs => ⟨v, .refl v, hs⟩
  match a, c with
  | some active, some committed =>
    show Runs t op _ _ (if active = committed then _ else _) _
    split
    · next h => exact cleanupActivationMetadata_runs ha.symm (h ▸ hc.symm)
    · exact hdone
  | none, _ => exact hdone
  | some _, none => exact hdone

/-! ## Discarding what is staged or pending -/

omit [Crypto] in
/-- The candidates for discarding are what is staged or pending. -/
theorem mem_pushUniqueGeneration {ids : List Uuid} {id z : Uuid} :
    z ∈ pushUniqueGeneration ids id ↔ z ∈ ids ∨ z = id := by
  unfold pushUniqueGeneration
  split
  · next h =>
    constructor
    · exact .inl
    · rintro (h' | rfl)
      · exact h'
      · exact h
  · simp

/-- **`clear_uncommitted_pending`**, where the operation may discard, ends
with nothing staged, pending or committed. -/
theorem clearUncommittedPending_runs (hd : op.MayDiscard v) :
    Runs t op Anything (Snapshot t v) clearUncommittedPending
      (fun _ s => ∃ v', (v'.ptr .staging = none ∧ v'.ptr .pending = none ∧
        v'.ptr .committed = none) ∧ Snapshot t v' s) := by
  unfold clearUncommittedPending
  refine Triple.bind (runs_error finalizeActiveActivation_runs fun _ _ => trivial)
    fun _ => runs_where fun w hw => ?_
  have hdw : op.MayDiscard w := hd.cleared hw
  refine Triple.bind (loadGenerationId_runs .committed trivial) fun c =>
    Triple.given fun hc => ?_
  split
  · exact runs_bail trivial
  next hcn =>
  have hcw : w.ptr .committed = none := by
    rw [← hc]
    simpa using hcn
  refine Triple.bind (loadGenerationId_runs .active trivial) fun a =>
    Triple.given fun ha => ?_
  refine Triple.bind (M := fun candidates s => (∀ z ∈ candidates,
      w.ptr .staging = some z ∨ w.ptr .pending = some z) ∧ Snapshot t w s) ?_
    fun candidates => Triple.given fun hcand => ?_
  · simp only [Prog.fold]
    refine Triple.bind (M := fun candidates s => (∀ z ∈ candidates,
      w.ptr .staging = some z ∨ w.ptr .pending = some z) ∧ Snapshot t w s) ?_
      fun candidates => Triple.given fun hcand => ?_
    · refine Triple.bind (loadGenerationId_runs .staging trivial) fun x =>
        Triple.given fun hx => ?_
      cases x with
      | none => exact runs_pure fun s hs => ⟨by simp, hs⟩
      | some x =>
        exact runs_pure fun s hs => ⟨by simp [pushUniqueGeneration, ← hx], hs⟩
    · refine Triple.bind (M := fun candidates s => (∀ z ∈ candidates,
        w.ptr .staging = some z ∨ w.ptr .pending = some z) ∧ Snapshot t w s) ?_
        fun candidates => Triple.given fun hcand => runs_pure fun s hs => ⟨hcand, hs⟩
      refine Triple.bind (loadGenerationId_runs .pending trivial) fun x =>
        Triple.given fun hx => ?_
      cases x with
      | none => exact runs_pure fun s hs => ⟨hcand, hs⟩
      | some x =>
        refine runs_pure fun s hs => ⟨fun z hz => ?_, hs⟩
        rcases mem_pushUniqueGeneration.mp hz with hz | rfl
        · exact hcand z hz
        · exact .inr hx.symm
  · -- while generations are removed, the pointers stay as in `w`
    have hptr : ∀ w' : Secrets, (∀ p, w'.ptr p = w.ptr p) →
        Cleared w w' := fun w' h => ⟨h _, fun p _ => .inl (h p)⟩
    refine Triple.bind (M := fun _ s => ∃ w', (∀ p, w'.ptr p = w.ptr p) ∧
      Snapshot t w' s) ?_ fun _ => runs_where fun w₁ hw₁ => ?_
    · refine (Triple.each (I := fun l s => (∀ z ∈ l, z ∈ candidates) ∧
        ∃ w', (∀ p, w'.ptr p = w.ptr p) ∧ Snapshot t w' s)
        (fun l => (Stable.const _ _).and (stable_snapshot_where _)) ?_ candidates).conseq
        (fun s _ hs => ⟨fun z hz => hz, w, fun _ => rfl, hs⟩)
        (fun _ s _ hs => hs.2) (fun _ s _ hs => hs)
      intro z l
      refine Triple.given fun hzl => runs_where fun w' hw' => ?_
      split
      · next hza =>
        have hdel : Deletable op w' z := by
          refine ⟨fun h => hza ?_, .inr ⟨(hw' _).trans hcw, hdw.cleared (hptr w' hw'), ?_⟩⟩
          · rw [ha, ← hw', h]
          · rw [hw', hw']
            exact hcand z (hzl z (by simp))
        refine (removeGeneration_runs hdel trivial trivial).post fun _ s _ hs =>
          ⟨fun y hy => hzl y (by simp [hy]), _, fun p => ?_, hs⟩
        simpa using hw' p
      · exact runs_pure fun s hs => ⟨fun y hy => hzl y (by simp [hy]), w', hw', hs⟩
    · -- then both pointers are deleted
      have hd₁ : op.MayDiscard w₁ := hdw.cleared (hptr w₁ hw₁)
      have hc₁ : w₁.ptr .committed = none := (hw₁ _).trans hcw
      simp only [Prog.each]
      refine Triple.bind (runs_context (deleteEntry_runs trivial trivial fun s hs => ?_))
        fun _ => ?_
      · obtain ⟨hg, rfl⟩ := hs
        exact .discard hg (.inl rfl) hc₁ hd₁
      have hd₂ : op.MayDiscard (w₁.remove (.pointer .staging)) :=
        hd₁.cleared ((Cleared.refl w₁).remove (by simp))
      refine Triple.bind (runs_context (deleteEntry_runs trivial trivial fun s hs => ?_))
        fun _ => runs_pure fun s hs => ⟨_, ⟨by simp, by simp, by simpa using hc₁⟩, hs⟩
      obtain ⟨hg, hs⟩ := hs
      exact .discard hg (.inr rfl) (by simp [hs, hc₁]) (hs ▸ hd₂)

/-! ## The operations -/

/-- **`begin_pending_pairing`** ends with the new generation staged and
nothing pending or committed. -/
theorem beginPendingPairing_runs (id : Uuid) :
    Runs t (.begin id) Anything (Snapshot t v) (beginPendingPairing id)
      (fun _ s => ∃ v', (v'.ptr .staging = some id ∧ v'.ptr .pending = none ∧
        v'.ptr .committed = none) ∧ Snapshot t v' s) := by
  refine Triple.bind (runs_error finalizeActiveActivation_runs fun _ _ => trivial)
    fun _ => runs_where fun w hw => ?_
  refine Triple.bind (loadGenerationId_runs .pending trivial) fun p =>
    Triple.given fun hp => ?_
  split
  · exact runs_bail trivial
  next hpn =>
  have hpw : w.ptr .pending = none := by
    rw [← hp]
    simpa using hpn
  refine Triple.bind (clearUncommittedPending_runs hpw) fun _ => runs_where fun x hx => ?_
  obtain ⟨hs, hp, hc⟩ := hx
  refine (runs_context (saveEntry_runs trivial trivial fun s hsn => ?_)).post
    fun _ s _ hs => ⟨_, ⟨by simp, by simp [hp], by simp [hc]⟩, hs⟩
  obtain ⟨hg, rfl⟩ := hsn
  exact .stage rfl hg hp hc hs

/-- **`store_pending_pairing_generation`** ends with the record stored and
the generation pending. -/
theorem storePendingPairingGeneration_runs (id : Uuid) (keyAlias : ApprovalAlias)
    (der : Bytes) (share : Bytes32) (pin4Hash pin6Hash : String) (node : Bytes32) :
    Runs t (.store id) Anything (Snapshot t v)
      (storePendingPairingGeneration id keyAlias der share pin4Hash pin6Hash node)
      (fun _ s => ∃ v' g, (v'.ptr .pending = some id ∧ v'.gen id = some g ∧
        ValidFor id g ∧ g.approvalPublicKeyDer = der ∧ g.phoneShare = share ∧
        g.cliNodeId = node) ∧ Snapshot t v' s) := by
  refine Triple.bind (loadGenerationId_runs .staging trivial) fun st =>
    Triple.given fun hst => ?_
  split
  · exact runs_bail trivial
  next hst' =>
  split
  · exact runs_bail trivial
  refine Triple.bind (runs_ofExcept trivial) fun _ => Triple.given fun hv => ?_
  have hsv : v.ptr .staging = some id := by
    rw [← hst]
    exact not_not.mp hst'
  have hvalid : ValidFor id ⟨pairingGenerationVersion, id, der, share, pin4Hash,
    pin6Hash, node⟩ := ⟨rfl, hv⟩
  refine Triple.bind (runs_context (saveEntry_runs trivial trivial fun s hs => ?_))
    fun _ => ?_
  · obtain ⟨hg, rfl⟩ := hs
    exact .record rfl hg hsv hvalid
  refine Triple.bind (runs_context (loadMetadataValidatedGeneration_runs id trivial))
    fun g => Triple.given fun _ => ?_
  refine (runs_context (saveEntry_runs trivial trivial fun s hs => ?_)).post
    fun _ s _ hs => ⟨_, _, ⟨by simp, by simp, hvalid, rfl, rfl, rfl⟩, hs⟩
  obtain ⟨hg, hs⟩ := hs
  exact .publish rfl hg (by simp [hs, hsv]) (by simp [hs]) hvalid

/-- **`commit_pending_generation`** ends with the generation committed or
active. -/
theorem commitPendingGeneration_runs (id : Uuid) :
    Runs t (.commit id) Anything (Snapshot t v) (commitPendingGeneration id)
      (fun _ s => ∃ v', (v'.ptr .active = some id ∨ v'.ptr .committed = some id) ∧
        Snapshot t v' s) := by
  refine Triple.bind (loadGenerationId_runs .active trivial) fun a =>
    Triple.given fun ha => ?_
  split
  · next h =>
    refine Triple.bind (runs_context (loadMetadataValidatedGeneration_runs id trivial))
      fun g => Triple.given fun _ => ?_
    refine (runs_error finalizeActiveActivation_runs fun _ _ => trivial).post
      fun _ s _ ⟨v', hv', hs⟩ => ⟨v', .inl ?_, hs⟩
    rw [hv'.1, ← ha, h]
  next hna =>
  refine Triple.bind (loadGenerationId_runs .committed trivial) fun c =>
    Triple.given fun hc => ?_
  split
  · next h =>
    refine Triple.bind (runs_context (loadMetadataValidatedGeneration_runs id trivial))
      fun g => Triple.given fun _ => ?_
    exact runs_pure fun s hs => ⟨v, .inr (hc.symm.trans h), hs⟩
  refine Triple.bind (loadGenerationId_runs .pending trivial) fun p =>
    Triple.given fun hp => ?_
  split
  · exact runs_bail trivial
  next hp' =>
  refine Triple.bind (runs_context (loadMetadataValidatedGeneration_runs id trivial))
    fun g => Triple.given fun hg => ?_
  refine (runs_context (saveEntry_runs trivial trivial fun s hs => ?_)).post
    fun _ s _ hs => ⟨_, .inr (by simp), hs⟩
  obtain ⟨hgd, rfl⟩ := hs
  exact .commit rfl hgd (fun h => hna (ha.trans h)) (hp.symm.trans (not_not.mp hp')) hg.1 hg.2

/-- **`abort_unstarted_pairing`** refuses when anything else is staged or
pending. -/
theorem abortUnstartedPairing_runs (id : Uuid) :
    Runs t (.abort id) Anything (Snapshot t v) (abortUnstartedPairing id)
      (fun _ => Held t) := by
  unfold abortUnstartedPairing
  have hloop : ∀ p (k : Option Uuid → StoreProg Unit), k none = pure () →
      (∀ x, k (some x) = if x ≠ id then
        bail "refusing to clear a different pairing generation" else pure ()) →
      Runs t (.abort id) Anything (Snapshot t v) (loadGenerationId p >>= k)
        (fun _ s => (∀ z, v.ptr p = some z → z = id) ∧ Snapshot t v s) := by
    intro p k hnone hsome
    refine Triple.bind (loadGenerationId_runs p trivial) fun x => Triple.given fun hx => ?_
    cases x with
    | none =>
      rw [hnone]
      exact runs_pure fun s hs => ⟨by simp [← hx], hs⟩
    | some x =>
      rw [hsome]
      split
      · exact runs_bail trivial
      · next h =>
        refine runs_pure fun s hs => ⟨fun z hz => ?_, hs⟩
        rw [← hx] at hz
        exact (Option.some.inj hz).symm.trans (not_not.mp h)
  refine Triple.bind (M := fun _ s => StoreOp.MayDiscard (.abort id) v ∧ Snapshot t v s) ?_
    fun _ => Triple.given fun hd => (clearUncommittedPending_runs hd).post ?_
  · simp only [Prog.each]
    refine Triple.bind (hloop .staging _ rfl fun _ => rfl) fun _ => Triple.given fun h₁ => ?_
    refine Triple.bind (hloop .pending _ rfl fun _ => rfl) fun _ => Triple.given fun h₂ => ?_
    exact runs_pure fun s hs => ⟨⟨h₁, h₂⟩, hs⟩
  · rintro _ s - ⟨w, -, hs⟩
    exact hs.held

/-- A deletion whose failure is ignored. -/
theorem deleteEntryIfPresent_runs {k : Key}
    (h : ∀ s, Snapshot t v s → StoreStep t op s (s.delete k)) :
    Runs t op X (Snapshot t v) (deleteEntryIfPresent k)
      (fun _ s => ∃ v', (v' = v ∨ v' = v.remove k) ∧ Snapshot t v' s) := by
  refine Triple.bind (M := fun _ s => ∃ v', (v' = v ∨ v' = v.remove k) ∧ Snapshot t v' s)
    (Triple.attempt ((deleteEntry_runs (.inl rfl) (.inr rfl) h).post
      fun _ s _ hs => ⟨_, .inr rfl, hs⟩))
    fun _ => Triple.pure (stable_snapshot_where _) fun s _ hs => hs

/-- **The flip** ends with the generation active and still committed. -/
theorem flipActive_runs {id : Uuid} (hp : v.ptr .pending = some id)
    (hc : v.ptr .committed = some id) :
    Runs t (.activate id) Anything (Snapshot t v) (flipActive id)
      (fun _ s => ∃ v', (v'.ptr .active = some id ∧ v'.ptr .committed = some id) ∧
        Snapshot t v' s) := by
  refine Triple.bind (loadGenerationId_runs .active trivial) fun a =>
    Triple.given fun ha => ?_
  split
  · next h => exact runs_pure fun s hs => ⟨v, ⟨ha.symm.trans h, hc⟩, hs⟩
  next hna =>
  -- from here on the old generation, if any, is marked as retiring
  refine Triple.bind (M := fun _ s => ∃ w, (w.ptr .active = v.ptr .active ∧
      w.ptr .pending = some id ∧ w.ptr .committed = some id ∧
      ∀ old, w.ptr .active = some old → w.ptr .retiring = some old) ∧ Snapshot t w s) ?_
    fun _ => runs_where fun w hw => ?_
  · cases a with
    | none =>
      exact runs_pure fun s hs => ⟨v, ⟨rfl, hp, hc, by simp [← ha]⟩, hs⟩
    | some old =>
      refine Triple.bind (loadGenerationId_runs .retiring trivial) fun r =>
        Triple.given fun hr => ?_
      refine Triple.bind (M := fun _ s => ∃ w, SameButRetiring v w ∧ Snapshot t w s) ?_
        fun _ => runs_where fun w hw => ?_
      · split
        · exact (runs_error (runs_context cleanupRetiringGeneration_runs)
            fun _ _ => trivial).post fun _ s _ ⟨v', hv', hs⟩ => ⟨v', hv'.2, hs⟩
        · exact runs_pure fun s hs => ⟨v, fun _ _ => rfl, hs⟩
      · have hwa : w.ptr .active = some old := (hw _ (by simp)).trans ha.symm
        have hwp : w.ptr .pending = some id := (hw _ (by simp)).trans hp
        have hwc : w.ptr .committed = some id := (hw _ (by simp)).trans hc
        refine (runs_context (saveEntry_runs trivial trivial fun s hs => ?_)).post
          fun _ s _ hs => ⟨_, ⟨?_, ?_, ?_, ?_⟩, hs⟩
        · obtain ⟨hg, rfl⟩ := hs
          exact .retire rfl hg hwa (fun h => hna (by rw [h])) hwp hwc
        · simpa using hw .active (by simp)
        · simp [hwp]
        · simp [hwc]
        · simp [hwa]
  · obtain ⟨hwa, hwp, hwc, hold⟩ := hw
    refine Triple.bind (runs_context (runs_context (saveEntry_runs trivial trivial
      fun s hs => ?_))) fun _ => ?_
    · obtain ⟨hg, rfl⟩ := hs
      exact .flip rfl hg (fun h => hna (ha.trans (hwa.symm.trans h))) hold hwp hwc
    · have hkinds : ∀ (kind : PinKind) (x : Secrets), x.ptr .active = some id →
          x.ptr .committed = some id →
          Runs t (.activate id) Anything (Snapshot t x)
            (deleteEntryIfPresent (.pinAttempts kind))
            (fun _ s => ∃ v', (v'.ptr .active = some id ∧ v'.ptr .committed = some id) ∧
              Snapshot t v' s) := by
        intro kind x hxa hxc
        refine (deleteEntryIfPresent_runs fun s hs =>
          .clearAttempts (.inl ⟨id, rfl⟩) hs.1).post fun _ s _ ⟨v', hv', hs⟩ => ⟨v', ?_, hs⟩
        rcases hv' with rfl | rfl
        · exact ⟨hxa, hxc⟩
        · simp [hxa, hxc]
      simp only [Prog.each]
      refine Triple.bind (hkinds _ _ (by simp) (by simp [hwc])) fun _ =>
        runs_where fun x hx => ?_
      refine Triple.bind (hkinds _ _ hx.1 hx.2) fun _ => ?_
      exact Triple.ret (stable_snapshot_where _) fun s _ hs => hs

/-- **`activate_generation`** ends with the generation active. -/
theorem activateGeneration_runs (id : Uuid) :
    Runs t (.activate id) Anything (Snapshot t v) (activateGeneration id)
      (fun _ s => ∃ v', v'.ptr .active = some id ∧ Snapshot t v' s) := by
  refine Triple.bind (loadGenerationId_runs .active trivial) fun a =>
    Triple.given fun ha => ?_
  split
  · next h =>
    refine Triple.bind (runs_context (loadMetadataValidatedGeneration_runs id trivial))
      fun g => Triple.given fun _ => ?_
    refine Triple.bind (runs_error finalizeActiveActivation_runs fun _ _ => trivial)
      fun _ => runs_where fun v' hv' => runs_pure fun s hs => ⟨v', ?_, hs⟩
    rw [hv'.1, ← ha, h]
  refine Triple.bind (loadGenerationId_runs .pending trivial) fun p =>
    Triple.given fun hp => ?_
  cases p with
  | none => exact runs_bail trivial
  | some pending =>
    refine Triple.bind (loadGenerationId_runs .committed trivial) fun c =>
      Triple.given fun hc => ?_
    cases c with
    | none => exact runs_bail trivial
    | some committed =>
      show Runs t _ _ _ (if _ then _ else _) _
      split
      · exact runs_bail trivial
      next hne =>
      obtain ⟨rfl, rfl⟩ : pending = committed ∧ committed = id := by
        simpa [not_or] using hne
      refine Triple.bind (runs_context (loadMetadataValidatedGeneration_runs _ trivial))
        fun g => Triple.given fun _ => ?_
      refine Triple.bind (flipActive_runs hp.symm hc.symm) fun _ => runs_where fun w hw => ?_
      refine Triple.bind (runs_error (cleanupActivationMetadata_runs hw.1 hw.2)
        fun _ _ => trivial) fun _ => runs_where fun x hx => runs_pure fun s hs => ⟨x, ?_, hs⟩
      rw [hx.1, hw.1]

/-- `pairing_generation_cli_node_id` names the desktop of a generation
that a pointer names. -/
theorem pairingGenerationCliNodeId_runs (id : Uuid) :
    Runs t .read Anything (Snapshot t v) (pairingGenerationCliNodeId id)
      (fun node s => ∃ v', (∀ n, node = some n → ∃ g, v'.gen id = some g ∧
        g.cliNodeId = n) ∧ Snapshot t v' s) := by
  refine Triple.bind (runs_error finalizeActiveActivation_runs fun _ _ => trivial)
    fun _ => runs_where fun w hw => ?_
  refine Triple.bind (M := fun _ => Snapshot t w) ?_ fun referenced => ?_
  · have hstep : ∀ (ids : List Uuid) (p : Pointer), Runs t .read Anything (Snapshot t w)
        (do let stored ← loadGenerationId p; pure (ids ++ stored.toList))
        (fun _ => Snapshot t w) := fun ids p =>
      Triple.bind (loadGenerationId_runs p trivial) fun x => Triple.given fun _ =>
        runs_pure fun s hs => hs
    simp only [Prog.fold]
    refine Triple.bind (hstep _ _) fun _ => Triple.bind (hstep _ _) fun _ =>
      Triple.bind (hstep _ _) fun _ => runs_pure fun s hs => hs
  · split
    · refine Triple.bind (loadGeneration_runs id trivial) fun g => Triple.given fun hg => ?_
      exact runs_pure fun s hs => ⟨w, fun n hn => ⟨g, hg.1, Option.some.inj hn⟩, hs⟩
    · exact runs_pure fun s hs => ⟨w, by simp, hs⟩

/-- **`load_secrets`** returns the record of the active generation. -/
theorem loadSecrets_runs :
    Runs t .read Anything (Snapshot t v) loadSecrets
      (fun g s => ∃ v', (∃ id, v'.ptr .active = some id ∧ v'.gen id = some g ∧
        ValidFor id g) ∧ Snapshot t v' s) := by
  refine Triple.bind cleanupRetiringGeneration_attempt_runs fun _ =>
    runs_where fun w _ => ?_
  refine Triple.bind (loadGenerationId_runs .active trivial) fun a =>
    Triple.given fun ha => ?_
  cases a with
  | none => exact runs_bail trivial
  | some id =>
    exact (runs_context (loadKeyBoundGeneration_runs id trivial)).post
      fun g s _ hs => ⟨w, ⟨id, ha.symm, hs.1.1, hs.1.2⟩, hs.2⟩

/-- `is_setup` says whether a generation is active. -/
theorem isSetupInStore_runs :
    Runs t .read Anything (Snapshot t v) isSetupInStore
      (fun b s => ∃ v', (b = (v'.ptr .active).isSome) ∧ Snapshot t v' s) := by
  refine Triple.bind (runs_error finalizeActiveActivation_runs fun _ _ => trivial)
    fun _ => runs_where fun w _ => ?_
  refine Triple.bind cleanupRetiringGeneration_attempt_runs fun _ =>
    runs_where fun w _ => ?_
  refine Triple.bind (loadGenerationId_runs .active trivial) fun a =>
    Triple.given fun ha => ?_
  cases a with
  | none => exact runs_pure fun s hs => ⟨w, by simp [← ha], hs⟩
  | some id =>
    refine Triple.bind (runs_context (loadMetadataValidatedGeneration_runs id trivial))
      fun g => Triple.given fun _ => ?_
    exact runs_pure fun s hs => ⟨w, by simp [← ha], hs⟩

end Phone
