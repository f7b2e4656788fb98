import Ferusa.Phone.Tracking

/-!
# The operations of the store track what they store

One statement for each program of `Ferusa.Phone.Store`: every pointer it
drops or saves over is one it may. What a program knows of the pointers it
has read itself.
-/

namespace Phone

open Logic StoreProg

variable {t : Nat} {v : Secrets} {d : List Uuid}

/-! ## Reading -/

theorem loadGenerationId_tracks (p : Pointer) : Tracks t (Knows t v d) (loadGenerationId p)
    fun a x => a = v.ptr p ∧ Knows t v d x :=
  tracks_context (getEntry_tracks _)

theorem loadGeneration_tracks (id : Uuid) :
    Tracks t (Knows t v d) (loadGeneration id) fun _ => Knows t v d := by
  refine Triple.bind (tracks_context (getEntry_tracks _)) fun stored => Triple.given fun _ => ?_
  cases stored with
  | none => exact tracks_bail
  | some g =>
    show Tracks t _ (if g.pairingId ≠ id then _ else _) _
    split
    · exact tracks_bail
    · exact tracks_pure fun x hx => hx

section

variable [Crypto]

theorem loadMetadataValidatedGeneration_tracks (id : Uuid) :
    Tracks t (Knows t v d) (loadMetadataValidatedGeneration id) fun _ => Knows t v d := by
  refine Triple.bind (loadGeneration_tracks id) fun g => ?_
  refine Triple.bind tracks_ofExcept fun _ => Triple.given fun _ => ?_
  exact tracks_pure fun x hx => hx

theorem loadKeyBoundGeneration_tracks (id : Uuid) :
    Tracks t (Knows t v d) (loadKeyBoundGeneration id) fun _ => Knows t v d := by
  refine Triple.bind (loadMetadataValidatedGeneration_tracks id) fun g => ?_
  refine Triple.bind (M := fun _ => Knows t v d) ?_ fun _ => tracks_pure fun x hx => hx
  refine Triple.bind tracks_ofExcept fun _ => Triple.given fun _ => ?_
  refine Triple.bind (tracks_context signApproval_tracks) fun signature => ?_
  split
  · exact tracks_pure fun x hx => hx
  · exact tracks_bail

end

/-! ## Deleting generations -/

/-- **`remove_generation`** leaves neither record nor key. -/
theorem removeGeneration_tracks (id : Uuid) :
    Tracks t (Knows t v d) (removeGeneration id)
      fun _ => Knows t (v.remove (.generation id)) (id :: d) := by
  refine Triple.bind (tracks_context (deleteApprovalKey_tracks id)) fun _ => ?_
  exact tracks_context (deleteEntry_tracks fun x hx => .deleteRecord hx.guard)

/-- **`cleanup_retiring_generation`** drops the retiring pointer of a generation
that was removed, and leaves the other pointers as they were. -/
theorem cleanupRetiringGeneration_tracks :
    Tracks t (Knows t v d) cleanupRetiringGeneration fun _ x => ∃ v' d',
      (v'.ptr .retiring = none ∧ ∀ p, p ≠ .retiring → v'.ptr p = v.ptr p) ∧ Knows t v' d' x := by
  refine Triple.bind (loadGenerationId_tracks .retiring) fun r => Triple.given fun hr => ?_
  cases r with
  | none => exact tracks_pure fun x hx => ⟨v, d, ⟨hr.symm, fun _ _ => rfl⟩, hx⟩
  | some retiring =>
    refine Triple.bind (loadGenerationId_tracks .active) fun a => Triple.given fun _ => ?_
    split
    · exact tracks_bail
    · refine Triple.bind (removeGeneration_tracks retiring) fun _ => ?_
      refine (tracks_context (deleteEntry_tracks fun x hx => ?_)).post fun _ x _ hx =>
        ⟨_, _, ⟨by simp, fun p hp => by simp [hp]⟩, hx⟩
      refine .drop hx.guard (by simp) (fun z hz => .inr ?_) (by simp)
      rw [hx.secrets] at hz ⊢
      have hz : z = retiring := by simpa [← hr, eq_comm] using hz
      exact ⟨by simp [hz], by simp [hx.swept, hz]⟩

/-! ## Finishing an activation -/

/-- One turn of the loop of `cleanup_activation_metadata`: the generation is
named by the active pointer. -/
theorem clearFinalized_tracks {id : Uuid} {p : Pointer} {message : String} (hpa : p ≠ .active)
    (ha : v.ptr .active = some id)
    (hc : p = .pending → v.ptr .committed = some id) :
    Tracks t (Knows t v d)
      (do
        let stored ← loadGenerationId p
        if stored = some id then context message (deleteEntry (.pointer p))
        else pure ())
      fun _ x => ∃ v' d', (∀ q, q ≠ p → v'.ptr q = v.ptr q) ∧ Knows t v' d' x := by
  refine Triple.bind (loadGenerationId_tracks p) fun stored => Triple.given fun hst => ?_
  split
  · next h =>
    refine (tracks_context (deleteEntry_tracks fun x hx => ?_)).post fun _ x _ hx =>
      ⟨_, _, fun q hq => by simp [hq], hx⟩
    refine .drop hx.guard hpa (fun z hz => .inl ⟨.active, hpa.symm, ?_⟩) fun hp y hy => ?_
    · rw [hx.secrets] at hz ⊢
      rw [ha, ← h, hst, hz]
    · rw [hx.secrets] at hy ⊢
      rw [ha, ← hc hp, hy]
  · exact tracks_pure fun x hx => ⟨v, d, fun _ _ => rfl, hx⟩

/-- **`cleanup_activation_metadata`** of the active generation, which is
committed. -/
theorem cleanupActivationMetadata_tracks {id : Uuid} (ha : v.ptr .active = some id)
    (hc : v.ptr .committed = some id) :
    Tracks t (Knows t v d) (cleanupActivationMetadata id) fun _ => Holds t := by
  unfold cleanupActivationMetadata
  refine Triple.bind (M := fun _ => Holds t) ?_ fun _ => tracks_holds fun v' d' => ?_
  · simp only [Prog.each]
    refine Triple.bind (clearFinalized_tracks (by simp) ha (by simp)) fun _ =>
      tracks_where fun v₁ d₁ h₁ => ?_
    have ha₁ : v₁.ptr .active = some id := (h₁ _ (by simp)).trans ha
    have hc₁ : v₁.ptr .committed = some id := (h₁ _ (by simp)).trans hc
    refine Triple.bind (clearFinalized_tracks (by simp) ha₁ fun _ => hc₁) fun _ =>
      tracks_where fun v₂ d₂ h₂ => ?_
    have ha₂ : v₂.ptr .active = some id := (h₂ _ (by simp)).trans ha₁
    refine Triple.bind (clearFinalized_tracks (by simp) ha₂ (by simp)) fun _ =>
      tracks_where fun v₃ d₃ _ => tracks_pure fun x hx => hx.holds
  · refine Triple.bind (M := fun _ => Holds t) (tracks_attempt
      (cleanupRetiringGeneration_tracks.post fun _ x _ ⟨_, _, _, hx⟩ => hx.holds)) fun _ => ?_
    exact Triple.pure stable_holds fun x _ hx => hx

/-- **`finalize_active_activation`.** -/
theorem finalizeActiveActivation_tracks :
    Tracks t (Knows t v d) finalizeActiveActivation fun _ => Holds t := by
  refine Triple.bind (loadGenerationId_tracks .active) fun a => Triple.given fun ha => ?_
  refine Triple.bind (loadGenerationId_tracks .committed) fun c => Triple.given fun hc => ?_
  have hdone : Tracks t (Knows t v d) (pure ()) fun _ => Holds t :=
    tracks_pure fun x hx => hx.holds
  match a, c with
  | some active, some committed =>
    show Tracks t _ (if active = committed then _ else _) _
    split
    · next h => exact cleanupActivationMetadata_tracks ha.symm (h ▸ hc.symm)
    · exact hdone
  | none, _ => exact hdone
  | some _, none => exact hdone

/-! ## Discarding what is staged or pending -/

/-- The candidates for discarding are all that is staged or pending. -/
theorem candidates_tracks : Tracks t (Knows t v d)
    (Prog.fold [Pointer.staging, .pending] [] fun candidates p => do
      match ← loadGenerationId p with
      | some pairingId => pure (pushUniqueGeneration candidates pairingId)
      | none => pure candidates)
    fun candidates x => (∀ p, p = .staging ∨ p = .pending → ∀ z, v.ptr p = some z →
      z ∈ candidates) ∧ Knows t v d x := by
  have hpush : ∀ {ids : List Uuid} {id z : Uuid},
      z ∈ ids ∨ z = id → z ∈ pushUniqueGeneration ids id := by
    intro ids id z h
    unfold pushUniqueGeneration
    split
    · next hid => exact h.elim (fun h => h) fun h => h ▸ hid
    · exact List.mem_append.mpr (h.imp_right List.mem_singleton.mpr)
  have hstep : ∀ (candidates : List Uuid) (p : Pointer), Tracks t (Knows t v d)
      (do match ← loadGenerationId p with
          | some pairingId => pure (pushUniqueGeneration candidates pairingId)
          | none => pure candidates)
      fun candidates' x => ((∀ z ∈ candidates, z ∈ candidates') ∧
        ∀ z, v.ptr p = some z → z ∈ candidates') ∧ Knows t v d x := by
    intro candidates p
    refine Triple.bind (loadGenerationId_tracks p) fun a => Triple.given fun ha => ?_
    cases a with
    | none => exact tracks_pure fun x hx => ⟨⟨fun z hz => hz, by simp [← ha]⟩, hx⟩
    | some id =>
      refine tracks_pure fun x hx => ⟨⟨fun z hz => hpush (.inl hz), fun z hz => ?_⟩, hx⟩
      exact hpush (.inr (Option.some.inj (hz.symm.trans ha.symm)))
  simp only [Prog.fold]
  refine Triple.bind (hstep [] .staging) fun c₁ => Triple.given fun h₁ => ?_
  refine Triple.bind (hstep c₁ .pending) fun c₂ => Triple.given fun h₂ => ?_
  refine tracks_pure fun x hx => ⟨fun p hp z hz => ?_, hx⟩
  rcases hp with rfl | rfl
  · exact h₂.1 z (h₁.2 z hz)
  · exact h₂.2 z hz

/-- What the discarding of some candidates leaves: the pointers as in `w`, and
of each candidate that is not left the active generation or nothing. -/
def Discarded (w : Secrets) (candidates left : List Uuid) (v : Secrets) (d : List Uuid) : Prop :=
  (∀ p, v.ptr p = w.ptr p) ∧ ∀ z ∈ candidates,
    z ∈ left ∨ w.ptr .active = some z ∨ (v.gen z = none ∧ z ∈ d)

/-- **Removing the candidates.** -/
theorem discard_tracks {w : Secrets} {active : Option Uuid} (ha : active = w.ptr .active)
    (candidates : List Uuid) :
    Tracks t (Knows t w d)
      (Prog.each candidates fun pairingId =>
        if some pairingId ≠ active then removeGeneration pairingId else pure ())
      fun _ x => ∃ v' d', Discarded w candidates [] v' d' ∧ Knows t v' d' x := by
  refine (Triple.each (I := fun left x => ∃ v' d', Discarded w candidates left v' d' ∧
    Knows t v' d' x) (fun _ => stable_knows_where _) ?_ candidates).pre fun x _ hx =>
      ⟨w, d, ⟨fun _ => rfl, fun z hz => .inl hz⟩, hx⟩
  refine fun z left => tracks_where fun v' d' h => ?_
  split
  · refine (removeGeneration_tracks z).post fun _ x _ hx =>
      ⟨_, _, ⟨fun p => by simpa using h.1 p, fun y hy => ?_⟩, hx⟩
    by_cases hyz : y = z
    · exact .inr (.inr ⟨by simp [hyz], by simp [hyz]⟩)
    · refine (h.2 y hy).imp (fun hl => (List.mem_cons.mp hl).resolve_left hyz)
        (Or.imp_right fun hgone => ?_)
      exact ⟨by simp [hyz, hgone.1], List.mem_cons_of_mem _ hgone.2⟩
  · next hza =>
    refine tracks_pure fun x hx => ⟨v', d', ⟨h.1, fun y hy => ?_⟩, hx⟩
    have hza : w.ptr .active = some z := by rw [← ha, ← not_not.mp hza]
    by_cases hyz : y = z
    · exact .inr (.inl (hyz ▸ hza))
    · exact (h.2 y hy).imp_left fun hl => (List.mem_cons.mp hl).resolve_left hyz

/-- **`clear_uncommitted_pending`** ends with nothing staged or pending. -/
theorem clearUncommittedPending_tracks :
    Tracks t (Knows t v d) clearUncommittedPending fun _ x => ∃ v' d',
      (v'.ptr .staging = none ∧ v'.ptr .pending = none) ∧ Knows t v' d' x := by
  unfold clearUncommittedPending
  refine Triple.bind finalizeActiveActivation_tracks fun _ => tracks_holds fun w d => ?_
  refine Triple.bind (loadGenerationId_tracks .committed) fun c => Triple.given fun hc => ?_
  split
  · exact tracks_bail
  next hcn =>
  have hcw : w.ptr .committed = none := by
    rw [← hc]
    simpa using hcn
  refine Triple.bind (loadGenerationId_tracks .active) fun a => Triple.given fun ha => ?_
  refine Triple.bind candidates_tracks fun candidates => Triple.given fun hcand => ?_
  refine Triple.bind (discard_tracks ha candidates) fun _ => tracks_where fun w₁ d₁ h₁ => ?_
  -- whatever is staged or pending is active, or was removed
  have hgone : ∀ p, p = .staging ∨ p = .pending → ∀ z, w₁.ptr p = some z →
      w₁.ptr .active = some z ∨ (w₁.gen z = none ∧ z ∈ d₁) := by
    intro p hp z hz
    rw [h₁.1] at hz ⊢
    exact (h₁.2 z (hcand p hp z hz)).resolve_left List.not_mem_nil
  have hc₁ : w₁.ptr .committed = none := (h₁.1 _).trans hcw
  simp only [Prog.each]
  refine Triple.bind (tracks_context (deleteEntry_tracks fun x hx => ?_)) fun _ => ?_
  · refine .drop hx.guard (by simp) (fun z hz => ?_) (by simp)
    rw [hx.secrets] at hz ⊢
    exact (hgone .staging (.inl rfl) z hz).imp (fun h => ⟨.active, by simp, h⟩)
      fun h => ⟨h.1, hx.swept ▸ h.2⟩
  refine Triple.bind (tracks_context (deleteEntry_tracks fun x hx => ?_)) fun _ =>
    tracks_pure fun x hx => ⟨_, _, ⟨by simp, by simp⟩, hx⟩
  refine .drop hx.guard (by simp) (fun z hz => ?_) fun _ y hy => ?_
  · rw [hx.secrets] at hz ⊢
    have hz : w₁.ptr .pending = some z := by simpa using hz
    exact (hgone .pending (.inr rfl) z hz).imp (fun h => ⟨.active, by simp, by simpa using h⟩)
      fun h => ⟨by simpa using h.1, hx.swept ▸ h.2⟩
  · rw [hx.secrets] at hy
    simp [hc₁] at hy

/-! ## The operations -/

/-- **`begin_pending_pairing`.** -/
theorem beginPendingPairing_tracks (id : Uuid) :
    Tracks t (Knows t v d) (beginPendingPairing id) fun _ => Holds t := by
  refine Triple.bind finalizeActiveActivation_tracks fun _ => tracks_holds fun w d => ?_
  refine Triple.bind (loadGenerationId_tracks .pending) fun p => Triple.given fun _ => ?_
  split
  · exact tracks_bail
  refine Triple.bind clearUncommittedPending_tracks fun _ => tracks_where fun u d hu => ?_
  refine (tracks_context (saveEntry_tracks fun x hx => ?_)).post fun _ x _ hx => hx.holds
  exact .stage hx.guard (by rw [hx.secrets, hu.1]) (by rw [hx.secrets, hu.2])

/-- **`abort_unstarted_pairing`.** -/
theorem abortUnstartedPairing_tracks (id : Uuid) :
    Tracks t (Knows t v d) (abortUnstartedPairing id) fun _ => Holds t := by
  unfold abortUnstartedPairing
  refine Triple.bind (M := fun _ => Knows t v d) ?_ fun _ =>
    clearUncommittedPending_tracks.post fun _ x _ ⟨_, _, _, hx⟩ => hx.holds
  refine Triple.each (I := fun _ => Knows t v d) (fun _ => stable_knows v d) (fun p _ => ?_) _
    |>.conseq (fun _ _ h => h) (fun _ _ _ h => h) fun _ _ _ h => h
  refine Triple.bind (loadGenerationId_tracks p) fun a => Triple.given fun _ => ?_
  cases a with
  | none => exact tracks_pure fun x hx => hx
  | some stored =>
    show Tracks t _ (if stored ≠ id then _ else _) _
    split
    · exact tracks_bail
    · exact tracks_pure fun x hx => hx

section

variable [Crypto]

/-- **`store_pending_pairing_generation`.** -/
theorem storePendingPairingGeneration_tracks (id : Uuid) (keyAlias : ApprovalAlias)
    (der : Bytes) (share : Bytes32) (pin4Hash pin6Hash : String) (node : Bytes32) :
    Tracks t (Knows t v d)
      (storePendingPairingGeneration id keyAlias der share pin4Hash pin6Hash node)
      fun _ => Holds t := by
  refine Triple.bind (loadGenerationId_tracks .staging) fun st => Triple.given fun hst => ?_
  split
  · exact tracks_bail
  next hst' =>
  have hsv : v.ptr .staging = some id := by rw [← hst, not_not.mp hst']
  split
  · exact tracks_bail
  refine Triple.bind tracks_ofExcept fun _ => Triple.given fun _ => ?_
  refine Triple.bind (tracks_context (saveEntry_tracks fun x hx => ?_)) fun _ => ?_
  · exact .record hx.guard (by rw [hx.secrets, hsv])
  refine Triple.bind (tracks_context (loadMetadataValidatedGeneration_tracks id)) fun g => ?_
  refine (tracks_context (saveEntry_tracks fun x hx => ?_)).post fun _ x _ hx => hx.holds
  exact .publish hx.guard (by simp [hx.secrets, hsv])

/-- **`commit_pending_generation`.** -/
theorem commitPendingGeneration_tracks (id : Uuid) :
    Tracks t (Knows t v d) (commitPendingGeneration id) fun _ => Holds t := by
  have hvalidate : ∀ {message : String}, Tracks t (Knows t v d)
      (context message (loadMetadataValidatedGeneration id)) fun _ => Knows t v d :=
    tracks_context (loadMetadataValidatedGeneration_tracks id)
  refine Triple.bind (loadGenerationId_tracks .active) fun a => Triple.given fun _ => ?_
  split
  · exact Triple.bind hvalidate fun g => finalizeActiveActivation_tracks
  refine Triple.bind (loadGenerationId_tracks .committed) fun c => Triple.given fun _ => ?_
  split
  · exact Triple.bind hvalidate fun g => tracks_pure fun x hx => hx.holds
  refine Triple.bind (loadGenerationId_tracks .pending) fun p => Triple.given fun hp => ?_
  split
  · exact tracks_bail
  next hp' =>
  refine Triple.bind hvalidate fun g => ?_
  refine (tracks_context (saveEntry_tracks fun x hx => ?_)).post fun _ x _ hx => hx.holds
  exact .commit hx.guard (by rw [hx.secrets, ← hp, not_not.mp hp'])

end

/-- A deletion of an attempt counter whose failure is ignored leaves the
pointers as they were. -/
theorem deleteAttempts_tracks (kind : PinKind) :
    Tracks t (Knows t v d) (deleteEntryIfPresent (.pinAttempts kind)) fun _ x =>
      ∃ v' d', (∀ p, v'.ptr p = v.ptr p) ∧ Knows t v' d' x := by
  have hst := stable_knows_where (t := t) fun v' _ => ∀ p, v'.ptr p = v.ptr p
  refine Triple.bind (M := fun _ x => ∃ v' d', (∀ p, v'.ptr p = v.ptr p) ∧ Knows t v' d' x)
    (Triple.attempt (M := fun _ x => ∃ v' d', (∀ p, v'.ptr p = v.ptr p) ∧ Knows t v' d' x) ?_)
    fun _ => Triple.pure hst fun x _ hx => hx
  refine Triple.perform_bind (M := fun _ x => ∃ v' d', (∀ p, v'.ptr p = v.ptr p) ∧
    Knows t v' d' x) (stable_knows v d) ?_ fun r => ?_
  · rintro ⟨s, d₁⟩ r ⟨s', d₂⟩ - hx ⟨⟨o, ho⟩, hd⟩
    have hd : d₂ = d₁ := hd
    subst hd
    rcases exec_delete_cases ho with hs | ⟨hs, -⟩
    · have hs : s' = s.delete (.pinAttempts kind) := hs
      subst hs
      exact ⟨.deleteAttempts hx.guard, v.remove (.pinAttempts kind), d₂, fun p => by simp,
        hx.guard, congrArg (Secrets.remove · (.pinAttempts kind)) hx.secrets, rfl⟩
    · have hs : s' = s := hs
      subst hs
      exact ⟨.same, v, d, fun _ => rfl, hx⟩
  · cases r with
    | ok u => exact Triple.ret hst fun x _ hx => hx
    | error e => exact Triple.fail hst fun x _ hx => hx

/-- **Marking the old generation** as retiring, which leaves no other one
there. -/
theorem retireActive_tracks (oldActive : Option Uuid) :
    Tracks t (Knows t v d) (retireActive oldActive) fun _ x => ∃ v' d',
      ((∀ p, p ≠ .retiring → v'.ptr p = v.ptr p) ∧
        ∀ z, oldActive = some z → v'.ptr .retiring = some z) ∧ Knows t v' d' x := by
  cases oldActive with
  | none => exact tracks_pure fun x hx => ⟨v, d, ⟨fun _ _ => rfl, nofun⟩, hx⟩
  | some old =>
    refine Triple.bind (loadGenerationId_tracks .retiring) fun r => Triple.given fun hr => ?_
    refine Triple.bind (M := fun _ x => ∃ v' d', ((∀ p, p ≠ .retiring → v'.ptr p = v.ptr p) ∧
      ∀ z, v'.ptr .retiring = some z → z = old) ∧ Knows t v' d' x) ?_ fun _ =>
        tracks_where fun w d hw => ?_
    · split
      · refine (tracks_context cleanupRetiringGeneration_tracks).post
          fun _ x _ ⟨v', d', h, hx⟩ => ⟨v', d', ⟨h.2, fun z hz => ?_⟩, hx⟩
        simp [h.1] at hz
      · next hany =>
        refine tracks_pure fun x hx => ⟨v, d, ⟨fun _ _ => rfl, fun z hz => ?_⟩, hx⟩
        simpa [hr, hz] using hany
    · refine (tracks_context (saveEntry_tracks fun x hx => ?_)).post fun _ x _ hx =>
        ⟨_, _, ⟨fun p hp => by simpa [hp] using hw.1 p hp, fun z hz => by simp [hz]⟩, hx⟩
      exact .retire hx.guard fun z hz => hw.2 z (hx.secrets ▸ hz)

/-- **The flip** ends with the generation active and still committed. -/
theorem flipActive_tracks {id : Uuid} (hc : v.ptr .committed = some id) :
    Tracks t (Knows t v d) (flipActive id) fun _ x => ∃ v' d',
      (v'.ptr .active = some id ∧ v'.ptr .committed = some id) ∧ Knows t v' d' x := by
  refine Triple.bind (loadGenerationId_tracks .active) fun a => Triple.given fun ha => ?_
  split
  · next h => exact tracks_pure fun x hx => ⟨v, d, ⟨ha.symm.trans h, hc⟩, hx⟩
  refine Triple.bind (retireActive_tracks a) fun _ => tracks_where fun w d hw => ?_
  have hwa : w.ptr .active = a := (hw.1 _ (by simp)).trans ha.symm
  have hwc : w.ptr .committed = some id := (hw.1 _ (by simp)).trans hc
  refine Triple.bind (tracks_context (tracks_context (saveEntry_tracks fun x hx => ?_)))
    fun _ => ?_
  · refine .flip hx.guard (hx.secrets ▸ hwc) fun z hz => ?_
    rw [hx.secrets] at hz ⊢
    exact hw.2 z (hwa.symm.trans hz)
  · -- the counters are not pointers
    have hkind : ∀ (kind : PinKind), Tracks t
        (fun x => ∃ v' d', (v'.ptr .active = some id ∧ v'.ptr .committed = some id) ∧
          Knows t v' d' x)
        (deleteEntryIfPresent (.pinAttempts kind))
        fun _ x => ∃ v' d', (v'.ptr .active = some id ∧ v'.ptr .committed = some id) ∧
          Knows t v' d' x := by
      refine fun kind => tracks_where fun u d hu => (deleteAttempts_tracks kind).post
        fun _ x _ ⟨v', d', h, hx⟩ => ⟨v', d', ⟨?_, ?_⟩, hx⟩
      · rw [h, hu.1]
      · rw [h, hu.2]
    simp only [Prog.each]
    refine Triple.bind ((hkind _).pre fun x _ hx => ⟨_, _, ⟨by simp, by simp [hwc]⟩, hx⟩)
      fun _ => Triple.bind (hkind _) fun _ => ?_
    exact Triple.ret (stable_knows_where _) fun x _ hx => hx

section

variable [Crypto]

/-- **`activate_generation`.** -/
theorem activateGeneration_tracks (id : Uuid) :
    Tracks t (Knows t v d) (activateGeneration id) fun _ => Holds t := by
  refine Triple.bind (loadGenerationId_tracks .active) fun a => Triple.given fun _ => ?_
  split
  · refine Triple.bind (tracks_context (loadMetadataValidatedGeneration_tracks id)) fun g => ?_
    refine Triple.bind finalizeActiveActivation_tracks fun _ => ?_
    exact Triple.pure stable_holds fun x _ hx => hx
  refine Triple.bind (loadGenerationId_tracks .pending) fun p => Triple.given fun _ => ?_
  cases p with
  | none => exact tracks_bail
  | some pending =>
    refine Triple.bind (loadGenerationId_tracks .committed) fun c => Triple.given fun hc => ?_
    cases c with
    | none => exact tracks_bail
    | some committed =>
      show Tracks t _ (if _ then _ else _) _
      split
      · exact tracks_bail
      refine Triple.bind (tracks_context (loadMetadataValidatedGeneration_tracks _)) fun g => ?_
      refine Triple.bind (flipActive_tracks hc.symm) fun _ => tracks_where fun w d hw => ?_
      refine Triple.bind (cleanupActivationMetadata_tracks hw.1 hw.2) fun _ => ?_
      exact Triple.pure stable_holds fun x _ hx => hx

omit [Crypto] in
/-- What is attempted before `load_secrets` and `is_setup` look. -/
theorem attemptCleanup_tracks : Tracks t (Knows t v d) cleanupRetiringGeneration.attempt
    fun _ => Holds t :=
  tracks_attempt (cleanupRetiringGeneration_tracks.post fun _ _ _ ⟨_, _, _, hx⟩ => hx.holds)

/-- **`load_secrets`.** -/
theorem loadSecrets_tracks : Tracks t (Knows t v d) loadSecrets fun _ => Holds t := by
  refine Triple.bind attemptCleanup_tracks fun _ => tracks_holds fun w d => ?_
  refine Triple.bind (loadGenerationId_tracks .active) fun a => Triple.given fun _ => ?_
  cases a with
  | none => exact tracks_bail
  | some id =>
    exact (tracks_context (loadKeyBoundGeneration_tracks id)).post fun _ x _ hx => hx.holds

/-- **`is_setup`.** -/
theorem isSetupInStore_tracks : Tracks t (Knows t v d) isSetupInStore fun _ => Holds t := by
  refine Triple.bind finalizeActiveActivation_tracks fun _ => tracks_holds fun w d => ?_
  refine Triple.bind attemptCleanup_tracks fun _ => tracks_holds fun w d => ?_
  refine Triple.bind (loadGenerationId_tracks .active) fun a => Triple.given fun _ => ?_
  cases a with
  | none => exact tracks_pure fun x hx => hx.holds
  | some id =>
    refine Triple.bind (tracks_context (loadMetadataValidatedGeneration_tracks id)) fun g => ?_
    exact tracks_pure fun x hx => hx.holds

end

/-- **`pairing_generation_cli_node_id`.** -/
theorem pairingGenerationCliNodeId_tracks (id : Uuid) :
    Tracks t (Knows t v d) (pairingGenerationCliNodeId id) fun _ => Holds t := by
  refine Triple.bind finalizeActiveActivation_tracks fun _ => tracks_holds fun w d => ?_
  refine Triple.bind (M := fun _ => Knows t w d) ?_ fun referenced => ?_
  · have hstep : ∀ (ids : List Uuid) (p : Pointer), Tracks t (Knows t w d)
        (do let stored ← loadGenerationId p; pure (ids ++ stored.toList))
        fun _ => Knows t w d := fun ids p =>
      Triple.bind (loadGenerationId_tracks p) fun a => Triple.given fun _ =>
        tracks_pure fun x hx => hx
    simp only [Prog.fold]
    refine Triple.bind (hstep _ _) fun _ => Triple.bind (hstep _ _) fun _ =>
      Triple.bind (hstep _ _) fun _ => tracks_pure fun x hx => hx
  · split
    · refine Triple.bind (loadGeneration_tracks id) fun g => ?_
      exact tracks_pure fun x hx => hx.holds
    · exact tracks_pure fun x hx => hx.holds

/-- **`update_pin_attempt_state_with`.** -/
theorem updatePinAttemptState_tracks {α : Type} (kind : PinKind)
    (update : PinAttemptState → PinAttemptStateWrite × α) :
    Tracks t (Knows t v d) (updatePinAttemptState kind update) fun _ => Holds t := by
  refine Triple.bind (M := fun _ => Knows t v d) ?_ fun state => ?_
  · refine Triple.bind (getEntry_tracks _) fun stored => Triple.given fun _ => ?_
    cases stored with
    | none => exact tracks_pure fun x hx => hx
    | some state => exact tracks_pure fun x hx => hx
  · generalize update state = written
    obtain ⟨write, result⟩ := written
    cases write with
    | save state =>
      exact Triple.bind (tracks_context (saveEntry_tracks fun x hx => .saveAttempts hx.guard))
        fun _ => tracks_pure fun x hx => hx.holds
    | clear =>
      exact Triple.bind
        (tracks_context (deleteEntry_tracks fun x hx => .deleteAttempts hx.guard))
        fun _ => tracks_pure fun x hx => hx.holds

/-- **Under the lock**: a program that tracks what it stores may run at any
time. -/
theorem withStorageGuard_tracks {α : Type} {p : StoreProg α}
    (h : ∀ v, Tracks t (Knows t v []) p fun _ => Holds t) :
    (trackLogic t).Triple (fun _ => True) (withStorageGuard p) (fun _ _ => True)
      fun _ _ => True := by
  refine Triple.perform_bind (M := fun _ => fun x => ∃ v, Knows t v [] x) (Stable.const _ _) ?_
    fun _ => ?_
  · rintro ⟨s, d⟩ r ⟨s', d'⟩ - - ⟨⟨o, ho⟩, hd⟩
    obtain ⟨hg, hs⟩ := Store.exec_acquireGuard ho
    have hs : s' = _ := hs
    have hd : d' = [] := hd
    subst hs hd
    exact ⟨.acquire hg, s.secrets, rfl, rfl, rfl⟩
  refine Triple.bind (M := fun _ => Holds t)
    (Triple.attempt (M := fun _ => Holds t) (Triple.exists h)) fun r => ?_
  refine Triple.perform_bind (M := fun _ _ => True) stable_holds ?_ fun _ =>
    Triple.ofExcept (Stable.const _ _) (fun _ _ _ _ _ => trivial) fun _ _ _ _ _ => trivial
  rintro ⟨s, d⟩ u ⟨s', d'⟩ - hx ⟨⟨o, ho⟩, hd⟩
  obtain ⟨hg, hs⟩ := Store.exec_releaseGuard ho
  have hs : s' = { s with guard := none } := hs
  have hd : d' = d := hd
  rw [hs, hd]
  exact ⟨.release hg, trivial⟩

end Phone
