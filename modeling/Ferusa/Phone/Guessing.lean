import Ferusa.Phone.Cooldown
import Ferusa.Phone.Expiry
import Ferusa.Phone.PinChecks

/-!
# Guessing a PIN

How often a PIN can be checked. What the threads do at the gate of a PIN
is a sequence of events (`PinEvent`), each of which moves the phase of the
thread that holds the gate and the stored counter (`PinView.Step`). Over any
such sequence the counter says how many PINs were checked (`PinView.Counts`),
and a PIN is checked only after the cooldown of the groups that are complete
has been waited for.
-/

namespace Phone

/-! ## Counters -/

section

variable {f₀ L m : Nat} {readings : List ClockSnapshot} {state : PinAttemptState}
  {c : ClockSnapshot}

theorem Counted.toPlausible (h : Counted f₀ L m readings state) : Plausible state where
  failed := by
    rw [h.failed]
    exact Nat.mod_lt _ (by omega)
  level := by
    rw [h.level]
    exact Nat.min_le_right _ _
  free hne := by
    refine h.free ?_
    rw [← h.failed]
    exact hne

theorem Plausible.empty : Plausible {} := ⟨Nat.zero_lt_succ 2, Nat.zero_le _, fun _ => rfl⟩

theorem Plausible.getD {stored : Option PinAttemptState}
    (h : ∀ state, stored = some state → Plausible state) : Plausible (stored.getD {}) := by
  cases stored with
  | none => exact .empty
  | some state => exact h state rfl

/-- Looking for a cooldown keeps a counter plausible, and where it finds none,
none is recorded. -/
theorem Plausible.check (h : Plausible state) :
    Plausible (activeCooldownRemainingMs state c).1 ∧
      ((activeCooldownRemainingMs state c).2 = none →
        recordedDurationMs (activeCooldownRemainingMs state c).1 = none) := by
  obtain ⟨hcounted, hadmitted⟩ := (h.counted.read (c := c)).check List.mem_cons_self
  exact ⟨hcounted.toPlausible, fun hn => (hadmitted hn).none⟩

/-- So does recording a failure, where no cooldown is recorded. -/
theorem Plausible.record (h : Plausible state) (hn : recordedDurationMs state = none) :
    Plausible (recordPinFailureState state c).1 :=
  (h.counted.admitted hn).record.toPlausible

theorem Admitted.read (h : Admitted f₀ L m readings state) :
    Admitted f₀ L m (c :: readings) state where
  toCounted := h.toCounted.read
  none := h.none
  passed hg := (h.passed hg).mono (List.subset_cons_self _ _)

end

/-! ## Events -/

/-- **What happens at the gate of a PIN.** -/
inductive PinEvent where
  | quiet
  | enter
  | leave
  | read (r : Except String ClockSnapshot)
  | load (r : Except String (Option PinAttemptState))
  | save (value : PinAttemptState) (r : Except String Unit)
  | delete
  | check (r : Except Anyhow Bool)
  /-- The process dies. -/
  | died

/-- **What there is to see of a PIN**: how far the thread has got that holds
its gate, the counter that is stored, and the clock. -/
structure PinView where
  phase : Phase
  counter : Option PinAttemptState
  clock : ClockSnapshot

namespace PinView

/-- **What an event does.** -/
inductive Step : PinView → PinEvent → PinView → Prop
  | quiet {ph n clock clock'} (h : clock.Before clock') :
    Step ⟨ph, n, clock⟩ .quiet ⟨ph, n, clock'⟩
  | enter {n clock} : Step ⟨.outside, n, clock⟩ .enter ⟨.entered, n, clock⟩
  | leave {ph n clock} (h : ¬ ph.Midway) : Step ⟨ph, n, clock⟩ .leave ⟨.outside, n, clock⟩
  | read {ph n clock r} (hph : ph = .entered ∨ ph = .failed)
    (h : r = .ok clock ∨ ∃ e, r = .error e) : Step ⟨ph, n, clock⟩ (.read r) ⟨ph.read r, n, clock⟩
  | load {ph n clock r} (h : r = .ok n ∨ ∃ e, r = .error e) :
    Step ⟨ph, n, clock⟩ (.load r) ⟨ph.load r, n, clock⟩
  | save {ph n n' clock value r} (hph : ph.Saves value) (hok : r = .ok () → n' = some value)
    (h : n' = some value ∨ n' = n) : Step ⟨ph, n, clock⟩ (.save value r) ⟨ph.save r, n', clock⟩
  | delete {ph n n' clock} (h : n' = none ∨ n' = n) :
    Step ⟨ph, n, clock⟩ .delete ⟨ph, n', clock⟩
  | check {n clock r} : Step ⟨.free, n, clock⟩ (.check r) ⟨Phase.free.check r, n, clock⟩
  | died {ph n clock clock'} (h : clock.Before clock') :
    Step ⟨ph, n, clock⟩ .died ⟨.outside, n, clock'⟩

end PinView

/-! ## The counter is plausible -/

/-- What a counter is like in a phase. -/
def Phase.Sound (stored : Option PinAttemptState) : Phase → Prop
  | loaded _ state => Plausible state
  | free => recordedDurationMs (stored.getD {}) = none
  | failed => recordedDurationMs (stored.getD {}) = none
  | clockedFailure _ => recordedDurationMs (stored.getD {}) = none
  | loadedFailure _ state => Plausible state ∧ recordedDurationMs state = none
  | _ => True

/-- **The stored counter is plausible**, and where a PIN may be checked it
records no cooldown. -/
structure PinView.Sound (v : PinView) : Prop where
  counter : ∀ state, v.counter = some state → Plausible state
  phase : v.phase.Sound v.counter

/-- **Every event keeps the counter plausible.** -/
theorem PinView.Step.sound {v v' : PinView} {ev : PinEvent} (hs : PinView.Step v ev v')
    (h : v.Sound) : v'.Sound := by
  obtain ⟨hn, hph⟩ := h
  cases hs with
  | quiet _ => exact ⟨hn, hph⟩
  | enter => exact ⟨hn, trivial⟩
  | leave _ => exact ⟨hn, trivial⟩
  | died _ => exact ⟨hn, trivial⟩
  | @read ph n clock r hread hr =>
    refine ⟨hn, ?_⟩
    obtain rfl | rfl := hread
    · cases r <;> trivial
    · cases r with
      | ok clock => exact hph
      | error e => trivial
  | @load ph n clock r hr =>
    refine ⟨hn, ?_⟩
    have hgood : ∀ stored, r = .ok stored → Plausible (stored.getD {}) := by
      rintro stored rfl
      refine Plausible.getD fun state hstate => hn state ?_
      rcases hr with hr | ⟨e, hr⟩
      · rw [← hstate]
        exact (Except.ok.inj hr).symm
      · cases hr
    cases ph with
    | clocked clock =>
      cases r with
      | ok stored => exact hgood stored rfl
      | error e => trivial
    | clockedFailure clock =>
      cases r with
      | ok stored =>
        refine ⟨hgood stored rfl, ?_⟩
        rcases hr with hr | ⟨e, hr⟩
        · rw [Except.ok.inj hr]
          exact hph
        · cases hr
      | error e => trivial
    | _ => exact hph
  | @save ph n n' clock value r hsaves hok hn' =>
    have hnew : Plausible value → ∀ state, n' = some state → Plausible state := by
      intro hvalue state hstate
      rcases hn' with rfl | rfl
      · exact Option.some.inj hstate ▸ hvalue
      · exact hn state hstate
    cases ph with
    | loaded clock state =>
      obtain rfl := hsaves
      obtain ⟨hgood, hnone⟩ := Plausible.check (c := clock) hph
      refine ⟨hnew hgood, ?_⟩
      cases r with
      | error e => trivial
      | ok u =>
        show Phase.Sound n' (if _ then _ else _)
        split
        · next hfree =>
          rw [hok rfl]
          exact hnone hfree
        · trivial
    | loadedFailure clock state =>
      obtain rfl := hsaves
      refine ⟨hnew (Plausible.record hph.1 hph.2), ?_⟩
      cases r <;> trivial
    | _ => exact hsaves.elim
  | @delete ph n n' clock hn' =>
    rcases hn' with rfl | rfl
    · refine ⟨nofun, ?_⟩
      cases ph with
      | loaded clock state => exact hph
      | loadedFailure clock state => exact hph
      | free => exact rfl
      | failed => exact rfl
      | clockedFailure clock => exact rfl
      | _ => trivial
    · exact ⟨hn, hph⟩
  | @check n clock r =>
    refine ⟨hn, ?_⟩
    match r with
    | .ok false => exact hph
    | .ok true => trivial
    | .error e => trivial

/-! ## The tally -/

/-- **A tally of the checks**: how many PINs were checked and found wrong, and
how the clock was read at the gate since the last such failure was recorded,
latest first. -/
structure PinTally where
  checks : Nat := 0
  readings : List ClockSnapshot := []
  /-- A PIN was found wrong, and the clock not read since. -/
  failing : Bool := false

/-- The tally after an event. -/
def PinTally.next (T : PinTally) : PinEvent → PinTally
  | .check (.ok false) => { T with checks := T.checks + 1, failing := true }
  | .read (.ok clock) =>
    if T.failing then { T with readings := [clock], failing := false }
    else { T with readings := clock :: T.readings }
  | _ => T

/-- **Nothing goes wrong at the gate**: the clock and the store answer, the
counter is not deleted, and no PIN is found right. -/
def PinEvent.Smooth : PinEvent → Prop
  | read r => ∃ clock, r = .ok clock
  | load r => ∃ stored, r = .ok stored
  | save _ r => r = .ok ()
  | delete => False
  | check r => r ≠ .ok true
  | _ => True

/-- What the counter says in a phase, after `f₀` failures at the level `L` and
those that were tallied. -/
def Phase.Counts (f₀ L : Nat) (T : PinTally) (state : PinAttemptState) : Phase → Prop
  | clocked clock => T.failing = false ∧ Counted f₀ L T.checks T.readings state ∧
      clock ∈ T.readings
  | loaded clock loadedState => T.failing = false ∧ Counted f₀ L T.checks T.readings state ∧
      clock ∈ T.readings ∧ loadedState = state
  | free => T.failing = false ∧ Admitted f₀ L T.checks T.readings state
  | failed => T.failing = true ∧ ∃ m, T.checks = m + 1 ∧ Admitted f₀ L m T.readings state
  | clockedFailure clock => T.failing = false ∧ T.readings = [clock] ∧
      ∃ m readings, T.checks = m + 1 ∧ Admitted f₀ L m readings state
  | loadedFailure clock loadedState => T.failing = false ∧ T.readings = [clock] ∧
      loadedState = state ∧ ∃ m readings, T.checks = m + 1 ∧ Admitted f₀ L m readings state
  | lost => False
  | _ => T.failing = false ∧ Counted f₀ L T.checks T.readings state

/-- **The counter says how many PINs were checked.** -/
structure PinView.Counts (f₀ L : Nat) (T : PinTally) (v : PinView) : Prop where
  order : InOrder T.readings
  past : ∀ b ∈ T.readings, b.Before v.clock
  phase : v.phase.Counts f₀ L T (v.counter.getD {})

section

variable {f₀ L : Nat} {T : PinTally} {state : PinAttemptState} {v v' : PinView} {ev : PinEvent}

/-- Where no failure is waiting to be recorded, the gate may be left. -/
theorem Phase.Counts.leave {ph : Phase} (h : ph.Counts f₀ L T state) (hm : ¬ ph.Midway) :
    Phase.outside.Counts f₀ L T state := by
  cases ph with
  | outside => exact h
  | entered => exact h
  | clocked clock => exact ⟨h.1, h.2.1⟩
  | loaded clock st => exact ⟨h.1, h.2.1⟩
  | free => exact ⟨h.1, h.2.toCounted⟩
  | failed => exact absurd trivial hm
  | clockedFailure clock => exact absurd trivial hm
  | loadedFailure clock st => exact absurd trivial hm
  | lost => exact h.elim
  | settled => exact h

/-- **Every smooth event keeps the count**, where the process does not die
before a failure is recorded. -/
theorem PinView.Step.counts (hs : PinView.Step v ev v') (hsmooth : ev.Smooth)
    (hdied : ev = .died → ¬ v.phase.Midway) (h : v.Counts f₀ L T) :
    v'.Counts f₀ L (T.next ev) := by
  obtain ⟨horder, hpast, hph⟩ := h
  cases hs with
  | quiet hclock => exact ⟨horder, fun b hb => (hpast b hb).trans hclock, hph⟩
  | enter => exact ⟨horder, hpast, hph⟩
  | leave hm => exact ⟨horder, hpast, hph.leave hm⟩
  | died hclock =>
    exact ⟨horder, fun b hb => (hpast b hb).trans hclock, hph.leave (hdied rfl)⟩
  | @read ph n clock r hread hr =>
    obtain ⟨clock', rfl⟩ := hsmooth
    obtain rfl : clock' = clock := by
      rcases hr with hr | ⟨e, hr⟩
      · exact Except.ok.inj hr
      · cases hr
    obtain rfl | rfl := hread
    · -- the clock is read before a check
      obtain ⟨hfailing, hcounted⟩ := hph
      have hnext : T.next (.read (.ok clock')) =
          { T with readings := clock' :: T.readings } := by
        unfold PinTally.next
        simp only [hfailing, Bool.false_eq_true, if_false]
      rw [hnext]
      refine ⟨List.pairwise_cons.mpr ⟨hpast, horder⟩, ?_, hfailing, hcounted.read,
        List.mem_cons_self⟩
      exact List.forall_mem_cons.mpr ⟨.refl _, hpast⟩
    · -- the clock is read to record a failure
      obtain ⟨hfailing, m, hm, hadmitted⟩ := hph
      have hnext : T.next (.read (.ok clock')) =
          { T with readings := [clock'], failing := false } := by
        unfold PinTally.next
        simp only [hfailing, if_true]
      rw [hnext]
      exact ⟨List.pairwise_singleton _ _,
        fun b hb => List.mem_singleton.mp hb ▸ .refl _, rfl, rfl, m, T.readings, hm, hadmitted⟩
  | @load ph n clock r hr =>
    obtain ⟨stored, rfl⟩ := hsmooth
    obtain rfl : stored = n := by
      rcases hr with hr | ⟨e, hr⟩
      · exact Except.ok.inj hr
      · cases hr
    refine ⟨horder, hpast, ?_⟩
    cases ph with
    | clocked clock =>
      obtain ⟨hfailing, hcounted, hmem⟩ := hph
      exact ⟨hfailing, hcounted, hmem, rfl⟩
    | clockedFailure clock =>
      obtain ⟨hfailing, hreadings, hadmitted⟩ := hph
      exact ⟨hfailing, hreadings, rfl, hadmitted⟩
    | _ => exact hph
  | @save ph n n' clock value r hsaves hok hn' =>
    obtain rfl := hsmooth
    obtain rfl := hok rfl
    refine ⟨horder, hpast, ?_⟩
    cases ph with
    | loaded clock loadedState =>
      obtain rfl := hsaves
      obtain ⟨hfailing, hcounted, hmem, hstate⟩ := hph
      replace hstate : loadedState = n.getD {} := hstate
      subst hstate
      obtain ⟨hcounted, hadmitted⟩ := hcounted.check hmem
      show Phase.Counts f₀ L T _ (if _ then _ else _)
      split
      · next hfree => exact ⟨hfailing, hadmitted hfree⟩
      · exact ⟨hfailing, hcounted⟩
    | loadedFailure clock loadedState =>
      obtain rfl := hsaves
      obtain ⟨hfailing, hreadings, hstate, m, readings, hm, hadmitted⟩ := hph
      replace hstate : loadedState = n.getD {} := hstate
      subst hstate
      refine ⟨hfailing, ?_⟩
      show Counted f₀ L T.checks T.readings _
      rw [hm, hreadings]
      exact hadmitted.record
    | _ => exact hsaves.elim
  | delete _ => exact hsmooth.elim
  | @check n clock r =>
    obtain ⟨hfailing, hadmitted⟩ := hph
    match r with
    | .ok false => exact ⟨horder, hpast, rfl, T.checks, rfl, hadmitted⟩
    | .ok true => exact absurd rfl hsmooth
    | .error e => exact ⟨horder, hpast, hfailing, hadmitted.toCounted⟩

end

/-! ## What a command does to a PIN -/

/-- The stored counter of a PIN. -/
abbrev pinCounter (kind : PinKind) (s : App) : Option PinAttemptState :=
  s.store.secrets (.pinAttempts kind)

section

variable {kind : PinKind} {t : Nat}

/-- Only saving or deleting a counter changes what is stored of it. -/
theorem Store.counter_of_exec {c : StoreCmd} {o : StoreChoice} {s s' : Store} {r : c.Reply}
    (h : Store.exec t c o s = some (r, s')) (hsave : ∀ v, c ≠ .save (.pinAttempts kind) v)
    (hdelete : c ≠ .delete (.pinAttempts kind)) :
    s'.secrets (.pinAttempts kind) = s.secrets (.pinAttempts kind) := by
  cases c with
  | acquireGuard => rw [(Store.exec_acquireGuard h).2]
  | releaseGuard => rw [(Store.exec_releaseGuard h).2]
  | save k value =>
    have hk : Key.pinAttempts kind ≠ k := by
      rintro rfl
      exact hsave value rfl
    have hput : (s.save k value).secrets (.pinAttempts kind) = s.secrets (.pinAttempts kind) :=
      Function.update_of_ne hk _ _
    cases o with
    | fail e => rw [← (Prod.mk.inj (Option.some.inj h)).2]
    | _ => rw [← (Prod.mk.inj (Option.some.inj h)).2, hput]
  | delete k =>
    have hk : Key.pinAttempts kind ≠ k := by
      rintro rfl
      exact hdelete rfl
    have hremove : (s.delete k).secrets (.pinAttempts kind) = s.secrets (.pinAttempts kind) :=
      Function.update_of_ne hk _ _
    cases o with
    | fail e => rw [← (Prod.mk.inj (Option.some.inj h)).2]
    | _ => rw [← (Prod.mk.inj (Option.some.inj h)).2, hremove]
  | get k =>
    cases o with
    | failApplied b e => cases h
    | _ => rw [← (Prod.mk.inj (Option.some.inj h)).2]
  | sign keyAlias payload =>
    cases o with
    | ok b =>
      replace h : (if (s.keys keyAlias).isSome then some (Except.ok b, s) else none) =
        some (r, s') := h
      split at h
      · rw [← (Prod.mk.inj (Option.some.inj h)).2]
      · cases h
    | fail e => rw [← (Prod.mk.inj (Option.some.inj h)).2]
    | failApplied b e => cases h
  | generateApprovalKey keyAlias =>
    cases o <;> rw [← (Prod.mk.inj (Option.some.inj h)).2] <;> rfl
  | deleteApprovalKey keyAlias =>
    cases o <;> rw [← (Prod.mk.inj (Option.some.inj h)).2] <;> rfl

variable [Crypto] {s s' : App}

theorem pinCounter_of_exec {c : AppCmd} {r : c.Reply} (h : App.Exec t c s r s')
    (hsave : ∀ v, c ≠ .store (.save (.pinAttempts kind) v))
    (hdelete : c ≠ .store (.delete (.pinAttempts kind))) :
    pinCounter kind s' = pinCounter kind s := by
  by_cases hc : ∃ c', c = .store c'
  · obtain ⟨c, rfl⟩ := hc
    obtain ⟨o, st, hst, rfl⟩ := App.exec_store.mp h
    refine Store.counter_of_exec hst (fun v hv => hsave v ?_) fun hd => hdelete ?_
    · rw [hv]
    · rw [hd]
  · show s'.store.secrets _ = _
    rw [h.aside.store fun c' hc' => hc ⟨c', hc'⟩]

theorem pinCounter_get {r : Except String (Option PinAttemptState)}
    (h : App.Exec t (.store (.get (.pinAttempts kind))) s r s') :
    r = .ok (pinCounter kind s) ∨ ∃ e, r = .error e := by
  obtain ⟨o, st, hst, rfl⟩ := App.exec_store.mp h
  cases o with
  | ok b => exact .inl (Prod.mk.inj (Option.some.inj hst)).1.symm
  | fail e => exact .inr ⟨e, (Prod.mk.inj (Option.some.inj hst)).1.symm⟩
  | failApplied b e => cases hst

theorem pinCounter_save {v : PinAttemptState} {r : Except String Unit}
    (h : App.Exec t (.store (.save (.pinAttempts kind) v)) s r s') :
    (r = .ok () → pinCounter kind s' = some v) ∧
      (pinCounter kind s' = some v ∨ pinCounter kind s' = pinCounter kind s) := by
  obtain ⟨o, st, hst, rfl⟩ := App.exec_store.mp h
  have hput : (s.store.save (.pinAttempts kind) v).secrets (.pinAttempts kind) = some v :=
    Function.update_self _ _ _
  cases o with
  | ok b =>
    obtain ⟨-, rfl⟩ := Prod.mk.inj (Option.some.inj hst)
    exact ⟨fun _ => hput, .inl hput⟩
  | fail e =>
    obtain ⟨rfl, rfl⟩ := Prod.mk.inj (Option.some.inj hst)
    exact ⟨nofun, .inr rfl⟩
  | failApplied b e =>
    obtain ⟨rfl, rfl⟩ := Prod.mk.inj (Option.some.inj hst)
    exact ⟨nofun, .inl hput⟩

theorem pinCounter_delete {r : Except String Unit}
    (h : App.Exec t (.store (.delete (.pinAttempts kind))) s r s') :
    pinCounter kind s' = none ∨ pinCounter kind s' = pinCounter kind s := by
  obtain ⟨o, st, hst, rfl⟩ := App.exec_store.mp h
  have hremove : (s.store.delete (.pinAttempts kind)).secrets (.pinAttempts kind) = none :=
    Function.update_self _ _ _
  cases o with
  | fail e =>
    obtain ⟨-, rfl⟩ := Prod.mk.inj (Option.some.inj hst)
    exact .inr rfl
  | _ =>
    obtain ⟨-, rfl⟩ := Prod.mk.inj (Option.some.inj hst)
    exact .inl hremove

variable (kind) in
/-- What a command does to a gate. -/
theorem gate_of_exec {c : AppCmd} {r : c.Reply} (h : App.Exec t c s r s') :
    (c = .lockGate kind ∧ s.gates kind = none ∧ s'.gates kind = some t) ∨
      (c = .unlockGate kind ∧ s.gates kind = some t ∧ s'.gates kind = none) ∨
      (c ≠ .lockGate kind ∧ c ≠ .unlockGate kind ∧ s'.gates kind = s.gates kind) := by
  cases c with
  | lockGate k =>
    obtain ⟨hfree, rfl⟩ := App.exec_lockGate.mp h
    by_cases hk : k = kind
    · subst hk
      exact .inl ⟨rfl, hfree, Function.update_self _ _ _⟩
    · refine .inr (.inr ⟨fun heq => hk (AppCmd.lockGate.inj heq), nofun, ?_⟩)
      exact Function.update_of_ne (Ne.symm hk) _ _
  | unlockGate k =>
    obtain ⟨hheld, rfl⟩ := App.exec_unlockGate.mp h
    by_cases hk : k = kind
    · subst hk
      exact .inr (.inl ⟨rfl, hheld, Function.update_self _ _ _⟩)
    · refine .inr (.inr ⟨nofun, fun heq => hk (AppCmd.unlockGate.inj heq), ?_⟩)
      exact Function.update_of_ne (Ne.symm hk) _ _
  | _ => exact .inr (.inr ⟨nofun, nofun, congrFun (h.aside.gates fun _ => ⟨nofun, nofun⟩) kind⟩)

end

/-! ## The thread that holds the gate -/

/-- **What an act is at the gate of a PIN.** A reading of the clock and a check
count where their thread holds the gate. -/
def PinEvent.of (kind : PinKind) : AppAct → PinEvent
  | ⟨_, .lockGate k, _, _, _⟩ => if k = kind then enter else quiet
  | ⟨_, .unlockGate k, _, _, _⟩ => if k = kind then leave else quiet
  | ⟨t, .clockSnapshot, r, s, _⟩ => if s.gates kind = some t then read r else quiet
  | ⟨t, .verifyPin _ _, r, s, _⟩ => if s.gates kind = some t then check r else quiet
  | ⟨t, .store (.get (.pinAttempts k)), r, s, _⟩ =>
    if k = kind ∧ s.gates kind = some t then load r else quiet
  | ⟨_, .store (.save (.pinAttempts k) v), r, _, _⟩ => if k = kind then save v r else quiet
  | ⟨_, .store (.delete (.pinAttempts k)), _, _, _⟩ => if k = kind then delete else quiet
  | _ => quiet

/-- What there is to see of a PIN in a log. -/
def pinView (kind : PinKind) (w : AppLog) : PinView where
  phase := (w.state.gates kind).elim .outside fun t => phaseOf kind (w.own t)
  counter := pinCounter kind w.state
  clock := w.state.clock

/-- **The gate is held by the thread that is behind it.** -/
structure GateHeld (kind : PinKind) (w : AppLog) : Prop where
  idle : ∀ t, w.ops t = none → w.own t = []
  held : ∀ t, w.state.gates kind = some t ↔
    w.ended t = none ∧ phaseOf kind (w.own t) ≠ .outside

section

variable {kind : PinKind} {t : Nat} {w w' : AppLog}

/-- What passes by itself leaves the gates and the store alone. -/
theorem App.Env.aside {s s' : App} (h : App.Env s s') :
    s'.gates = s.gates ∧ s'.store = s.store ∧ s.clock.Before s'.clock := by
  cases h with
  | elapse h => exact ⟨rfl, rfl, h⟩
  | _ => exact ⟨rfl, rfl, .refl _⟩

variable [Crypto] {Z : Setting}

/-- **It stays so with every move.** -/
theorem GateHeld.move (h : GateHeld kind w) (hm : (gateDiscipline Z kind).Move w w') :
    GateHeld kind w' := by
  obtain ⟨hidle, hheld⟩ := h
  cases hm with
  | @put t op c r s' hop hrun hx hmay =>
    refine ⟨fun u hu => ?_, fun u => ?_⟩
    · have hne : t ≠ u := by
        rintro rfl
        rw [Log.put_ops, hop] at hu
        cases hu
      rw [Log.own_put_of_ne _ _ _ _ hne]
      exact hidle u hu
    · show s'.gates kind = some u ↔ w.ended u = none ∧ _
      obtain ⟨rfl, hfree, hnew⟩ | ⟨rfl, hmine, hnew⟩ | ⟨hlock, hunlock, hsame⟩ :=
        gate_of_exec kind hx
      · rw [hnew]
        by_cases hut : u = t
        · subst hut
          rw [Log.own_put_self]
          have henter : phaseOf kind (⟨u, .lockGate kind, r, w.state, s'⟩ :: w.own u) = .entered :=
            if_pos rfl
          rw [henter]
          exact ⟨fun _ => ⟨hrun, nofun⟩, fun _ => rfl⟩
        · rw [Log.own_put_of_ne _ _ _ _ (Ne.symm hut), ← hheld u, hfree]
          exact ⟨fun h => absurd (Option.some.inj h).symm hut, nofun⟩
      · rw [hnew]
        by_cases hut : u = t
        · subst hut
          rw [Log.own_put_self]
          exact ⟨nofun, fun h => absurd (if_pos rfl) h.2⟩
        · rw [Log.own_put_of_ne _ _ _ _ (Ne.symm hut), ← hheld u, hmine]
          exact ⟨nofun, fun h => absurd (Option.some.inj h).symm hut⟩
      · rw [hsame]
        by_cases hut : u = t
        · subst hut
          rw [Log.own_put_self, hheld u]
          show _ ↔ _ ∧ (phaseOf kind (w.own u)).next kind _ ≠ .outside
          rw [ne_eq, ne_eq, Phase.next_outside hlock hunlock]
        · rw [Log.own_put_of_ne _ _ _ _ (Ne.symm hut)]
          exact hheld u
  | @finish t op x hop hrun hends =>
    refine ⟨hidle, fun u => ?_⟩
    rw [Log.finish_own, Log.finish_ended, Log.finish_state, hheld u]
    by_cases hut : u = t
    · subst hut
      rw [if_pos rfl]
      exact ⟨fun h => absurd hends h.2, fun h => by cases h.1⟩
    · rw [if_neg hut]
  | @start t op s' hop hown hend hstart =>
    obtain ⟨spawned, rfl⟩ := AppOp.Starts.spawned hstart
    refine ⟨fun u hu => ?_, fun u => ?_⟩
    · rw [Log.begin_own]
      refine hidle u ?_
      rw [Log.begin_ops] at hu
      split at hu
      · cases hu
      · exact hu
    · rw [Log.begin_own, Log.begin_ended, Log.begin_state]
      exact hheld u
  | @env s' henv =>
    refine ⟨hidle, fun u => ?_⟩
    rw [Log.move_own, Log.move_ended, Log.move_state, (App.Env.aside henv.1).1]
    exact hheld u
  | @crash s' hcrash =>
    refine ⟨hidle, fun u => ?_⟩
    obtain ⟨⟨now, epoch, clock, rfl, -⟩, -⟩ := hcrash
    rw [Log.crash_own, Log.crash_ended, Log.crash_state]
    refine ⟨nofun, fun ⟨hend, hph⟩ => absurd ?_ hph⟩
    split at hend
    · cases hend
    · next hdead =>
      have hop : w.ops u = none := by
        by_contra hop
        exact hdead ⟨Option.isSome_iff_ne_none.mpr hop, hend⟩
      rw [hidle u hop]
      rfl

/-- What is of no concern to the PIN changes nothing of it. -/
theorem pinView_quiet {c : AppCmd} {r : c.Reply} {s' : App}
    (hx : App.Exec t c w.state r s') (hgate : s'.gates kind = w.state.gates kind)
    (hnext : (phaseOf kind (w.own t)).next kind ⟨t, c, r, w.state, s'⟩ = phaseOf kind (w.own t))
    (hcounter : pinCounter kind s' = pinCounter kind w.state) :
    PinView.Step (pinView kind w) .quiet (pinView kind (w.put t c r s')) := by
  have hview : pinView kind (w.put t c r s') = pinView kind w := by
    unfold pinView
    rw [Log.put_state, hgate, hcounter, hx.aside.clock]
    cases hg : w.state.gates kind with
    | none => rfl
    | some u =>
      by_cases hut : u = t
      · subst hut
        rw [Option.elim_some, Option.elim_some, Log.own_put_self]
        exact congrArg (fun ph => PinView.mk ph _ _) hnext
      · rw [Option.elim_some, Option.elim_some, Log.own_put_of_ne _ _ _ _ (Ne.symm hut)]
  rw [hview]
  exact .quiet (.refl _)

omit [Crypto] in
theorem PinView.Step.of_eq {v v' : PinView} {ev ev' : PinEvent} (h : ev' = ev)
    (hs : PinView.Step v ev v') : PinView.Step v ev' v' :=
  h ▸ hs

/-- **What the thread does that holds the gate.** -/
theorem pinView_mine {c : AppCmd} {r : c.Reply} {s' : App} (hx : App.Exec t c w.state r s')
    (hmay : (phaseOf kind (w.own t)).May kind ⟨t, c, r, w.state, s'⟩)
    (hmine : w.state.gates kind = some t) (hbehind : phaseOf kind (w.own t) ≠ .outside) :
    PinView.Step (pinView kind w) (.of kind ⟨t, c, r, w.state, s'⟩)
      (pinView kind (w.put t c r s')) := by
  have hview : pinView kind w =
      ⟨phaseOf kind (w.own t), pinCounter kind w.state, w.state.clock⟩ := by
    unfold pinView
    rw [hmine, Option.elim_some]
  have hview' : s'.gates kind = w.state.gates kind → pinView kind (w.put t c r s') =
      ⟨(phaseOf kind (w.own t)).next kind ⟨t, c, r, w.state, s'⟩, pinCounter kind s',
        w.state.clock⟩ := by
    intro hgate
    unfold pinView
    rw [Log.put_state, hgate, hmine, Option.elim_some, Log.own_put_self, hx.aside.clock]
    rfl
  cases c with
  | lockGate k =>
    obtain ⟨hfree, rfl⟩ := App.exec_lockGate.mp hx
    have hk : k ≠ kind := by
      rintro rfl
      rw [hmine] at hfree
      cases hfree
    refine .of_eq (if_neg hk) ?_
    exact pinView_quiet hx (Function.update_of_ne (Ne.symm hk) _ _) (if_neg hk) rfl
  | unlockGate k =>
    obtain ⟨hheld, rfl⟩ := App.exec_unlockGate.mp hx
    by_cases hk : k = kind
    · subst hk
      have hleft : pinView k (w.put t (.unlockGate k) r
          { w.state with gates := Function.update w.state.gates k none }) =
            ⟨.outside, pinCounter k w.state, w.state.clock⟩ := by
        unfold pinView
        rw [Log.put_state]
        show PinView.mk (Option.elim (Function.update w.state.gates k none k) _ _) _ _ = _
        rw [Function.update_self, Option.elim_none]
      refine .of_eq (if_pos rfl) ?_
      rw [hview, hleft]
      exact .leave (hmay rfl)
    · refine .of_eq (if_neg hk) ?_
      exact pinView_quiet hx (Function.update_of_ne (Ne.symm hk) _ _) (if_neg hk) rfl
  | clockSnapshot =>
    obtain ⟨hr, rfl⟩ := App.exec_clockSnapshot.mp hx
    refine .of_eq (if_pos hmine) ?_
    rw [hview, hview' rfl]
    exact .read (hmay.resolve_left hbehind) hr
  | verifyPin pin hash =>
    obtain ⟨-, rfl⟩ := App.exec_verifyPin.mp hx
    refine .of_eq (if_pos hmine) ?_
    rw [hview, hview' rfl]
    show PinView.Step _ _ ⟨(phaseOf kind (w.own t)).check r, _, _⟩
    rw [hmay.resolve_left hbehind]
    exact .check
  | store c =>
    have hgate : s'.gates kind = w.state.gates kind :=
      congrFun (hx.aside.gates fun _ => ⟨nofun, nofun⟩) kind
    cases c with
    | get key =>
      cases key with
      | pinAttempts k =>
        by_cases hk : k = kind
        · subst hk
          refine .of_eq (if_pos ⟨rfl, hmine⟩) ?_
          rw [hview, hview' hgate,
            pinCounter_of_exec hx nofun nofun]
          show PinView.Step _ _ ⟨if k = k then (phaseOf k (w.own t)).load r else _, _, _⟩
          rw [if_pos rfl]
          exact .load (pinCounter_get hx)
        · refine .of_eq (if_neg fun h => hk h.1) ?_
          exact pinView_quiet hx hgate (if_neg hk) (pinCounter_of_exec hx nofun nofun)
      | _ => exact pinView_quiet hx hgate rfl (pinCounter_of_exec hx nofun nofun)
    | save key v =>
      cases key with
      | pinAttempts k =>
        by_cases hk : k = kind
        · subst hk
          refine .of_eq (if_pos rfl) ?_
          rw [hview, hview' hgate]
          show PinView.Step _ _ ⟨if k = k then (phaseOf k (w.own t)).save r else _, _, _⟩
          rw [if_pos rfl]
          exact .save (hmay rfl) (pinCounter_save hx).1 (pinCounter_save hx).2
        · refine .of_eq (if_neg hk) ?_
          refine pinView_quiet hx hgate (if_neg hk) (pinCounter_of_exec hx (fun v' hv => hk ?_)
            nofun)
          exact Key.pinAttempts.inj (StoreCmd.save.inj (AppCmd.store.inj hv)).1
      | _ => exact pinView_quiet hx hgate rfl (pinCounter_of_exec hx nofun nofun)
    | delete key =>
      cases key with
      | pinAttempts k =>
        by_cases hk : k = kind
        · subst hk
          refine .of_eq (if_pos rfl) ?_
          rw [hview, hview' hgate]
          exact .delete (pinCounter_delete hx)
        · refine .of_eq (if_neg hk) ?_
          refine pinView_quiet hx hgate rfl (pinCounter_of_exec hx nofun fun hd => hk ?_)
          exact Key.pinAttempts.inj (StoreCmd.delete.inj (AppCmd.store.inj hd))
      | _ => exact pinView_quiet hx hgate rfl (pinCounter_of_exec hx nofun nofun)
    | _ => exact pinView_quiet hx hgate rfl (pinCounter_of_exec hx nofun nofun)
  | _ =>
    exact pinView_quiet hx (congrFun (hx.aside.gates fun _ => ⟨nofun, nofun⟩) kind) rfl
      (pinCounter_of_exec hx nofun nofun)

/-- **What a thread does that does not hold the gate**: it takes it, it deletes
the counter, or it is of no concern. -/
theorem pinView_other {c : AppCmd} {r : c.Reply} {s' : App} (hx : App.Exec t c w.state r s')
    (hmay : (phaseOf kind (w.own t)).May kind ⟨t, c, r, w.state, s'⟩)
    (hother : w.state.gates kind ≠ some t) (houtside : phaseOf kind (w.own t) = .outside) :
    PinView.Step (pinView kind w) (.of kind ⟨t, c, r, w.state, s'⟩)
      (pinView kind (w.put t c r s')) := by
  have hnext : c ≠ .lockGate kind → c ≠ .unlockGate kind →
      (phaseOf kind (w.own t)).next kind ⟨t, c, r, w.state, s'⟩ = phaseOf kind (w.own t) := by
    intro hlock hunlock
    rw [houtside]
    exact (Phase.next_outside hlock hunlock).mpr rfl
  cases c with
  | lockGate k =>
    obtain ⟨hfree, rfl⟩ := App.exec_lockGate.mp hx
    by_cases hk : k = kind
    · subst hk
      have hview : pinView k w = ⟨.outside, pinCounter k w.state, w.state.clock⟩ := by
        unfold pinView
        rw [hfree, Option.elim_none]
      have hentered : pinView k (w.put t (.lockGate k) r
          { w.state with gates := Function.update w.state.gates k (some t) }) =
            ⟨.entered, pinCounter k w.state, w.state.clock⟩ := by
        unfold pinView
        rw [Log.put_state]
        show PinView.mk (Option.elim (Function.update w.state.gates k (some t) k) _ _) _ _ = _
        rw [Function.update_self, Option.elim_some, Log.own_put_self]
        exact congrArg (fun ph => PinView.mk ph _ _) (if_pos rfl)
      refine .of_eq (if_pos rfl) ?_
      rw [hview, hentered]
      exact .enter
    · refine .of_eq (if_neg hk) ?_
      exact pinView_quiet hx (Function.update_of_ne (Ne.symm hk) _ _) (if_neg hk) rfl
  | unlockGate k =>
    obtain ⟨hheld, rfl⟩ := App.exec_unlockGate.mp hx
    have hk : k ≠ kind := by
      rintro rfl
      exact hother hheld
    refine .of_eq (if_neg hk) ?_
    exact pinView_quiet hx (Function.update_of_ne (Ne.symm hk) _ _) (if_neg hk) rfl
  | clockSnapshot =>
    obtain ⟨-, rfl⟩ := App.exec_clockSnapshot.mp hx
    refine .of_eq (if_neg hother) ?_
    exact pinView_quiet hx rfl (hnext nofun nofun) rfl
  | verifyPin pin hash =>
    obtain ⟨-, rfl⟩ := App.exec_verifyPin.mp hx
    refine .of_eq (if_neg hother) ?_
    exact pinView_quiet hx rfl (hnext nofun nofun) rfl
  | store c =>
    have hgate : s'.gates kind = w.state.gates kind :=
      congrFun (hx.aside.gates fun _ => ⟨nofun, nofun⟩) kind
    cases c with
    | get key =>
      have hquiet := pinView_quiet hx hgate (hnext nofun nofun)
        (pinCounter_of_exec hx nofun nofun)
      cases key with
      | pinAttempts k => exact .of_eq (if_neg fun h => hother h.2) hquiet
      | _ => exact hquiet
    | save key v =>
      cases key with
      | pinAttempts k =>
        have hk : k ≠ kind := by
          rintro rfl
          have hsaves := hmay rfl
          rw [houtside] at hsaves
          exact hsaves
        refine .of_eq (if_neg hk) ?_
        refine pinView_quiet hx hgate (if_neg hk) (pinCounter_of_exec hx (fun v' hv => hk ?_)
          nofun)
        exact Key.pinAttempts.inj (StoreCmd.save.inj (AppCmd.store.inj hv)).1
      | _ => exact pinView_quiet hx hgate rfl (pinCounter_of_exec hx nofun nofun)
    | delete key =>
      cases key with
      | pinAttempts k =>
        by_cases hk : k = kind
        · subst hk
          have hview : pinView k (w.put t (.store (.delete (.pinAttempts k))) r s') =
              ⟨(pinView k w).phase, pinCounter k s', w.state.clock⟩ := by
            unfold pinView
            rw [Log.put_state, hgate, hx.aside.clock]
            cases hg : w.state.gates k with
            | none => rfl
            | some u =>
              have hut : t ≠ u := by
                rintro rfl
                exact hother hg
              rw [Option.elim_some, Option.elim_some, Log.own_put_of_ne _ _ _ _ hut]
          refine .of_eq (if_pos rfl) ?_
          rw [hview]
          exact .delete (pinCounter_delete hx)
        · refine .of_eq (if_neg hk) ?_
          refine pinView_quiet hx hgate rfl (pinCounter_of_exec hx nofun fun hd => hk ?_)
          exact Key.pinAttempts.inj (StoreCmd.delete.inj (AppCmd.store.inj hd))
      | _ => exact pinView_quiet hx hgate rfl (pinCounter_of_exec hx nofun nofun)
    | _ => exact pinView_quiet hx hgate rfl (pinCounter_of_exec hx nofun nofun)
  | _ =>
    exact pinView_quiet hx (congrFun (hx.aside.gates fun _ => ⟨nofun, nofun⟩) kind) rfl
      (pinCounter_of_exec hx nofun nofun)

/-- **Every move of a log is an event at the gate**, that of its act where a
command was put. -/
theorem GateHeld.step (h : GateHeld kind w) (hm : (gateDiscipline Z kind).Move w w') :
    (∃ e, w'.acts = e :: w.acts ∧ e.before = w.state ∧
      PinView.Step (pinView kind w) (.of kind e) (pinView kind w')) ∨
    (w'.acts = w.acts ∧ (PinView.Step (pinView kind w) .quiet (pinView kind w') ∨
      PinView.Step (pinView kind w) .died (pinView kind w') ∧
        ∀ t, w.state.gates kind = some t → w.ended t = none ∧ w'.ended t = some .killed)) := by
  obtain ⟨hidle, hheld⟩ := h
  cases hm with
  | @put t op c r s' hop hrun hx hmay =>
    refine .inl ⟨_, rfl, rfl, ?_⟩
    by_cases hmine : w.state.gates kind = some t
    · exact pinView_mine hx hmay hmine ((hheld t).mp hmine).2
    · refine pinView_other hx hmay hmine ?_
      by_contra hph
      exact hmine ((hheld t).mpr ⟨hrun, hph⟩)
  | @finish t op x hop hrun hends =>
    exact .inr ⟨rfl, .inl (.quiet (.refl _))⟩
  | @start t op s' hop hown hend hstart =>
    refine .inr ⟨rfl, .inl ?_⟩
    obtain ⟨spawned, rfl⟩ := AppOp.Starts.spawned hstart
    exact .quiet (.refl _)
  | @env s' henv =>
    refine .inr ⟨rfl, .inl ?_⟩
    obtain ⟨hgates, hstore, hclock⟩ := App.Env.aside henv.1
    have hview : pinView kind (w.move s') = { pinView kind w with clock := s'.clock } := by
      unfold pinView pinCounter
      rw [Log.move_state, hgates, hstore]
      rfl
    rw [hview]
    exact .quiet hclock
  | @crash s' hcrash =>
    obtain ⟨⟨now, epoch, clock, rfl, hclock⟩, -⟩ := hcrash
    refine .inr ⟨rfl, .inr ⟨.died hclock, fun t ht => ?_⟩⟩
    obtain ⟨hend, hph⟩ := (hheld t).mp ht
    have hop : (w.ops t).isSome := by
      refine Option.isSome_iff_ne_none.mpr fun hop => hph ?_
      rw [hidle t hop]
      rfl
    rw [Log.crash_ended, if_pos ⟨hop, hend⟩]
    exact ⟨hend, rfl⟩

end

/-! ## A run of attempts -/

/-- **Attempts and nothing else** lead from one log to another: these acts were
put, nothing went wrong at the gate, and no thread was killed before the
failure of its PIN was recorded. -/
structure Attempts (kind : PinKind) (w w' : AppLog) (acts : List AppAct) : Prop where
  acts_eq : w'.acts = acts ++ w.acts
  smooth : ∀ e ∈ acts, (PinEvent.of kind e).Smooth
  recorded : ∀ t, w.ended t = none → w'.ended t = some .killed →
    ¬ (phaseOf kind (w'.own t)).Midway

/-- What the acts tally to. -/
def pinTally (kind : PinKind) (acts : List AppAct) : PinTally :=
  acts.foldr (fun e T => T.next (.of kind e)) {}

/-- **A PIN is checked against its hash**, behind the gate. -/
def ChecksPin (kind : PinKind) : AppAct → Prop
  | ⟨t, .verifyPin _ _, r, s, _⟩ => s.gates kind = some t ∧ ∃ b, r = .ok b
  | _ => False

/-- **A PIN may be checked**: the counter says how many PINs were checked since
it was `start`, and where they make up groups of three, the cooldown after
the last one has been waited for. -/
structure GuessAllowed (start : PinAttemptState) (T : PinTally) (state : PinAttemptState) :
    Prop where
  failed : state.failedAttempts = (start.failedAttempts + T.checks) % 3
  level : state.cooldownLevel =
    min (start.cooldownLevel + (start.failedAttempts + T.checks) / 3) 255
  none : recordedDurationMs state = none
  waited : CompletesGroup start.failedAttempts T.checks →
    HasWaited (cooldownAfter start.cooldownLevel ((start.failedAttempts + T.checks) / 3))
      T.readings

section

variable {kind : PinKind} {w w' w'' : AppLog} {acts : List AppAct} {start : PinAttemptState}

theorem ChecksPin.event {e : AppAct} (h : ChecksPin kind e) :
    ∃ b, PinEvent.of kind e = .check (.ok b) := by
  unfold ChecksPin at h
  split at h
  · obtain ⟨hheld, b, rfl⟩ := h
    exact ⟨b, if_pos hheld⟩
  · exact h.elim

theorem PinEvent.of_ne_died (e : AppAct) : PinEvent.of kind e ≠ .died := by
  unfold PinEvent.of
  split
  · split <;> nofun
  · split <;> nofun
  · split <;> nofun
  · split <;> nofun
  · split <;> nofun
  · split <;> nofun
  · split <;> nofun
  · nofun

/-- A check is made where the gate says it may be. -/
theorem PinView.Counts.allowed {T : PinTally} {v v' : PinView} {b : Bool}
    (h : v.Counts start.failedAttempts start.cooldownLevel T)
    (hs : PinView.Step v (.check (.ok b)) v') : GuessAllowed start T (v.counter.getD {}) := by
  obtain ⟨horder, -, hph⟩ := h
  cases hs with
  | check =>
    obtain ⟨-, hadmitted⟩ := hph
    exact ⟨hadmitted.failed, hadmitted.level, hadmitted.none,
      fun hg => (hadmitted.passed hg).hasWaited horder⟩

variable [Crypto] {Z : Setting}

/-- A thread that has ended stays as it is. -/
theorem ended_of_move {D : Discipline (appThreads Z)} (hm : D.Move w w') {t : Nat}
    {x : Ending AppError Unit} (h : w.ended t = some x) :
    w'.ended t = some x ∧ w'.own t = w.own t := by
  cases hm with
  | @put u op c r s' hop hrun hx hmay =>
    refine ⟨h, Log.own_put_of_ne _ _ _ _ ?_⟩
    rintro rfl
    rw [hrun] at h
    cases h
  | @finish u op y hop hrun hends =>
    refine ⟨?_, rfl⟩
    rw [Log.finish_ended, if_neg]
    · exact h
    · rintro rfl
      rw [hrun] at h
      cases h
  | start => exact ⟨h, rfl⟩
  | env => exact ⟨h, rfl⟩
  | crash =>
    refine ⟨?_, rfl⟩
    rw [Log.crash_ended, if_neg]
    · exact h
    · rintro ⟨-, hnone⟩
      rw [hnone] at h
      cases h

/-- What was done up to the last move. -/
theorem Attempts.init {D : Discipline (appThreads Z)} {acts' : List AppAct}
    (h : Attempts kind w w'' acts') (hm : D.Move w' w'') (hacts : w'.acts = acts ++ w.acts)
    (hsub : acts ⊆ acts') : Attempts kind w w' acts where
  acts_eq := hacts
  smooth e he := h.smooth e (hsub he)
  recorded t hend hkilled := by
    obtain ⟨hended, hown⟩ := ended_of_move hm hkilled
    rw [← hown]
    exact h.recorded t hend hended

/-- What is known after a run of attempts. -/
structure Guessed (kind : PinKind) (start : PinAttemptState) (acts : List AppAct) (w : AppLog) :
    Prop where
  counts : (pinView kind w).Counts start.failedAttempts start.cooldownLevel (pinTally kind acts)
  allowed : ∀ later e earlier, acts = later ++ e :: earlier → ChecksPin kind e →
    GuessAllowed start (pinTally kind earlier) ((pinCounter kind e.before).getD {})

/-- **One more move** of a run of attempts. -/
theorem Guessed.move {acts' : List AppAct} (h : Guessed kind start acts w')
    (hgate : GateHeld kind w') (hm : (gateDiscipline Z kind).Move w' w'')
    (hacts : w'.acts = acts ++ w.acts) (hrun : Attempts kind w w'' acts')
    (hend : ∀ t x, w.ended t = some x → w'.ended t = some x) : Guessed kind start acts' w'' := by
  obtain ⟨hcounts, hallowed⟩ := h
  obtain ⟨e, heq, hbefore, hstep⟩ | ⟨heq, hstep⟩ := hgate.step hm
  · obtain rfl : acts' = e :: acts := by
      have h := hrun.acts_eq.symm.trans heq
      rw [hacts, ← List.cons_append] at h
      exact List.append_cancel_right h
    have hsmooth := hrun.smooth e List.mem_cons_self
    refine ⟨hstep.counts hsmooth ?_ hcounts, fun later e' earlier hsplit hcheck => ?_⟩
    · exact fun hdied => absurd hdied (PinEvent.of_ne_died e)
    · cases later with
      | nil =>
        obtain ⟨rfl, rfl⟩ := List.cons.inj hsplit
        obtain ⟨b, hevent⟩ := hcheck.event
        rw [hevent] at hstep
        rw [hbefore]
        exact hcounts.allowed hstep
      | cons e'' later => exact hallowed later e' earlier (List.cons.inj hsplit).2 hcheck
  · obtain rfl : acts' = acts := by
      have h := hrun.acts_eq.symm.trans heq
      rw [hacts] at h
      exact List.append_cancel_right h
    refine ⟨?_, hallowed⟩
    rcases hstep with hstep | ⟨hstep, hkilled⟩
    · exact hstep.counts trivial nofun hcounts
    · refine hstep.counts trivial (fun _ => ?_) hcounts
      show ¬ ((w'.state.gates kind).elim .outside fun t => phaseOf kind (w'.own t)).Midway
      cases hg : w'.state.gates kind with
      | none => exact id
      | some t =>
        obtain ⟨hrunning, hkilled⟩ := hkilled t hg
        have hrunning' : w.ended t = none := by
          by_contra hne
          obtain ⟨x, hx⟩ := Option.ne_none_iff_exists'.mp hne
          rw [hend t x hx] at hrunning
          cases hrunning
        have hown : w''.own t = w'.own t := by
          unfold Log.own
          rw [heq]
        rw [Option.elim_some, ← hown]
        exact hrun.recorded t hrunning' hkilled

/-- **Every run of attempts** is counted, and its checks are allowed. -/
theorem guessed_of_moves {acts : List AppAct} (hgate : GateHeld kind w)
    (hfree : w.state.gates kind = none)
    (hgood : Plausible ((pinCounter kind w.state).getD {}))
    (hm : (gateDiscipline Z kind).Moves w w') (hrun : Attempts kind w w' acts) :
    Guessed kind ((pinCounter kind w.state).getD {}) acts w' := by
  have hall : GateHeld kind w' ∧ (∀ t x, w.ended t = some x → w'.ended t = some x) ∧
      ∃ acts, w'.acts = acts ++ w.acts ∧ (Attempts kind w w' acts →
        Guessed kind ((pinCounter kind w.state).getD {}) acts w') := by
    clear hrun
    induction hm with
    | refl =>
      refine ⟨hgate, fun _ _ h => h, [], rfl, fun _ => ⟨?_, fun later e earlier h => ?_⟩⟩
      · refine ⟨List.Pairwise.nil, nofun, ?_⟩
        unfold pinView
        rw [hfree, Option.elim_none]
        exact ⟨rfl, hgood.counted⟩
      · cases later <;> cases h
    | @tail w₁ w₂ hsteps hmove ih =>
      obtain ⟨hgate₁, hend₁, acts₁, hacts₁, hguessed₁⟩ := ih
      refine ⟨hgate₁.move hmove, fun t x h => (ended_of_move hmove (hend₁ t x h)).1, ?_⟩
      have hnext : ∀ acts₂, w₂.acts = acts₂ ++ w.acts → acts₁ ⊆ acts₂ → ∃ acts,
          w₂.acts = acts ++ w.acts ∧ (Attempts kind w w₂ acts →
            Guessed kind ((pinCounter kind w.state).getD {}) acts w₂) := fun acts₂ h hsub =>
        ⟨acts₂, h, fun hrun => (hguessed₁ (hrun.init hmove hacts₁ hsub)).move hgate₁ hmove
          hacts₁ hrun hend₁⟩
      obtain ⟨e, heq, -⟩ | ⟨heq, -⟩ := hgate₁.step hmove
      · refine hnext (e :: acts₁) ?_ (List.subset_cons_self _ _)
        rw [heq, hacts₁, List.cons_append]
      · exact hnext acts₁ (heq.trans hacts₁) (List.Subset.refl _)
  obtain ⟨-, -, acts', hacts', hguessed⟩ := hall
  obtain rfl : acts' = acts :=
    List.append_cancel_right (hacts'.symm.trans hrun.acts_eq)
  exact hguessed hrun

/-- **The gate is held, and the counter plausible**, in every run. -/
theorem gateHeld_of_reaches {s₀ : App} {p : (appThreads Z).Running}
    (hp : (appThreads Z).Reaches s₀ p) (hgate : s₀.gates kind = none)
    (hcounter : ∀ state, pinCounter kind s₀ = some state → Plausible state) :
    GateHeld kind p.state ∧ (pinView kind p.state).Sound := by
  refine (gateDiscipline_valid Z kind).invariant
    (I := fun w => GateHeld kind w ∧ (pinView kind w).Sound) ?_ (fun ⟨hheld, hsound⟩ hm => ?_) hp
  · refine ⟨⟨fun _ _ => rfl, fun t => ?_⟩, hcounter, ?_⟩
    · show s₀.gates kind = some t ↔ _
      rw [hgate]
      exact ⟨nofun, fun h => absurd rfl h.2⟩
    · show Phase.Sound _ ((s₀.gates kind).elim _ _)
      rw [hgate]
      trivial
  · refine ⟨hheld.move hm, ?_⟩
    obtain ⟨e, -, -, hstep⟩ | ⟨-, hstep | ⟨hstep, -⟩⟩ := hheld.step hm
    · exact hstep.sound hsound
    · exact hstep.sound hsound
    · exact hstep.sound hsound

/-- Who is behind the gate holds it, at every act. -/
theorem held_of_happened {s₀ : App} {p : (appThreads Z).Running}
    (hp : (appThreads Z).Reaches s₀ p) (hgate : s₀.gates kind = none) :
    ∀ e earlier, p.state.Happened e earlier →
      phaseOf kind (earlier.filter fun b => b.thread = e.thread) ≠ .outside →
        e.before.gates kind = some e.thread := by
  refine ((gateDiscipline_valid Z kind).invariant (I := fun w => GateHeld kind w ∧
    ∀ e earlier, w.Happened e earlier →
      phaseOf kind (earlier.filter fun b => b.thread = e.thread) ≠ .outside →
        e.before.gates kind = some e.thread) ?_ (fun ⟨hheld, hall⟩ hm => ?_) hp).2
  · refine ⟨⟨fun _ _ => rfl, fun t => ?_⟩, fun e earlier ⟨later, h⟩ => ?_⟩
    · show s₀.gates kind = some t ↔ _
      rw [hgate]
      exact ⟨nofun, fun h => absurd rfl h.2⟩
    · cases later <;> cases h
  · refine ⟨hheld.move hm, ?_⟩
    cases hm with
    | put hop hrun hx hmay =>
      intro e earlier he hph
      rcases Discipline.happened_put he with ⟨rfl, rfl⟩ | he
      · exact (hheld.held _).mpr ⟨hrun, hph⟩
      · exact hall e earlier he hph
    | finish => exact hall
    | start => exact hall
    | env => exact hall
    | crash => exact hall

/-- **A PIN is checked behind the gate of its kind**: by a thread that holds the
gate, against the hash of that kind in the secrets or in the record that it has
read. -/
def ChecksBehindGate (w : AppLog) (e : AppAct) (pin hash : String) : Prop :=
  ∃ kind op earlier, e.before.gates kind = some e.thread ∧ w.ops e.thread = some op ∧
    w.Happened e earlier ∧
    ChecksAsKind op (earlier.filter fun b => b.thread = e.thread) kind pin hash

/-- **Every PIN is**, in every run. -/
theorem checked_behind_gate {store : Store} {now epoch : Nat} {clock : ClockSnapshot}
    {usedUuids : List Uuid} {p : (appThreads Z).Running}
    (hp : (appThreads Z).Reaches (App.boot store now epoch clock usedUuids) p) :
    ∀ e ∈ p.state.acts, ∀ pin hash, e.command = .verifyPin pin hash →
      ChecksBehindGate p.state e pin hash := by
  intro e he pin hash hverify
  obtain ⟨earlier, hhappened⟩ := Log.happened_of_mem he
  obtain ⟨op, hop, -, hmay⟩ := (checkDiscipline_valid Z).followed hp e earlier hhappened
  obtain ⟨kind, hph, hcheck⟩ := hmay pin hash hverify
  exact ⟨kind, op, earlier, held_of_happened hp rfl e earlier hhappened hph, hop, hhappened,
    hcheck⟩

/-- **Guessing a PIN is limited.** From any state that is reached with the gate
free, whatever the threads do, as long as the clock and the store answer, no
PIN is found right, the counter is not deleted and no thread is killed before
the failure of its PIN is recorded, the PINs that are checked come in groups
of three, those that failed before the start included. A PIN that follows a
group is checked only after the cooldown of the group has been waited for,
and within a group none is recorded. Every PIN is checked behind the gate of its
own kind: against the hash of that kind, in the secrets of the session for a
request whose action takes the kind, or in the record of the active pairing. And
the durations fit their types. -/
theorem pin_guesses_limited {store : Store} {now epoch : Nat} {clock : ClockSnapshot}
    {usedUuids : List Uuid} {p p' : (appThreads Z).Running} {acts : List AppAct}
    (hcounter : ∀ state, store.secrets (.pinAttempts kind) = some state → Plausible state)
    (hp : (appThreads Z).Reaches (App.boot store now epoch clock usedUuids) p)
    (hfree : p.state.state.gates kind = none) (hp' : Pool.Steps (appThreads Z).system p p')
    (hrun : Attempts kind p.state p'.state acts) :
    (∀ later e earlier, acts = later ++ e :: earlier → ChecksPin kind e →
      GuessAllowed ((pinCounter kind p.state.state).getD {}) (pinTally kind earlier)
        ((pinCounter kind e.before).getD {})) ∧
    (p'.state.state.gates kind = none →
      Counted ((pinCounter kind p.state.state).getD {}).failedAttempts
        ((pinCounter kind p.state.state).getD {}).cooldownLevel (pinTally kind acts).checks
        (pinTally kind acts).readings ((pinCounter kind p'.state.state).getD {})) ∧
    (∀ e ∈ acts, ∀ pin hash, e.command = .verifyPin pin hash →
      ChecksBehindGate p'.state e pin hash) ∧
    ∀ level clock, pinCooldownBaseMs *
        (if level - 1 < 32 then 2 ^ (level - 1) else 2 ^ 32 - 1) ≤ u64Max ∧
      ClockSnapshot.elapsedRealtimeMs clock + cooldownDurationMs level ≤ u64Max := by
  have hvalid := gateDiscipline_valid Z kind
  obtain ⟨hgate, hsound⟩ := gateHeld_of_reaches hp rfl hcounter
  have hmoves := ((hvalid.kept hp).moves hvalid hp').1
  have hguessed := guessed_of_moves hgate hfree (Plausible.getD hsound.counter) hmoves hrun
  refine ⟨hguessed.allowed, fun hfree' => ?_, fun e he => ?_, cooldown_no_overflow⟩
  · have hph := hguessed.counts.phase
    unfold pinView at hph
    rw [hfree', Option.elim_none] at hph
    exact hph.2
  · refine checked_behind_gate (hp.trans hp') e ?_
    rw [hrun.acts_eq]
    exact List.mem_append_left _ he

end

/-! ## Five tries -/

instance PinEvent.decidableSmooth : DecidablePred PinEvent.Smooth
  | .read (.ok clock) => .isTrue ⟨clock, rfl⟩
  | .read (.error _) => .isFalse fun ⟨_, h⟩ => by cases h
  | .load (.ok stored) => .isTrue ⟨stored, rfl⟩
  | .load (.error _) => .isFalse fun ⟨_, h⟩ => by cases h
  | .save _ (.ok ()) => .isTrue rfl
  | .save _ (.error _) => .isFalse nofun
  | .check (.ok true) => .isFalse fun h => h rfl
  | .check (.ok false) => .isTrue nofun
  | .check (.error _) => .isTrue nofun
  | .delete => .isFalse id
  | .quiet => .isTrue trivial
  | .enter => .isTrue trivial
  | .leave => .isTrue trivial
  | .died => .isTrue trivial

/-- Whether a thread was killed. -/
def wasKilled : Option (Ending AppError Unit) → Bool
  | some .killed => true
  | _ => false

/-- A first pairing with PINs that the phone does not find too weak. -/
def strongPairing : List (BenchOp × List StoreChoice) :=
  let node : Bytes32 := Vector.replicate 32 0
  let ok : List StoreChoice := List.replicate 40 (.ok [7])
  [(.begin 1, ok), (.generate 1, ok),
    (.store 1 (approvalKeyAlias 1) [7] node "7394" "739418" node, ok),
    (.handshake 1 [7], ok), (.commit 1, ok), (.activate 1, ok)]

/-- The pairing is to be replaced, with a wrong PIN of the kind. -/
def wrongPin (kind : PinKind) (n : Nat) : List (Play AppOp Answers EnvMove) :=
  [.start 0 (.authorizePairingReplacement (if kind = .fourDigit then "5820" else "7394")
      "582016"), .run n willing 200]

/-- Three wrong PINs, one more that meets the cooldown, and one after it. -/
def fiveTries (kind : PinKind) : List (Play AppOp Answers EnvMove) :=
  [.start 0 (.setAppForeground true), .run 0 willing 20] ++ wrongPin kind 1 ++ wrongPin kind 2 ++
    wrongPin kind 3 ++ wrongPin kind 4 ++ [.outside (.elapse 30000)] ++ wrongPin kind 5

/-- The five tries, from the store of a pairing. -/
def playedTries (kind : PinKind) :
    Option (Store × (@appThreads Crypto.plain .any).Running) :=
  (@Bench.play Crypto.plain Bench.initial strongPairing).bind fun bench =>
    ((@appPlayer Crypto.plain).play (fiveTries kind)
      (Pool.idle (Log.empty (App.boot bench.store 0 0 ⟨0, 0, Nat.zero_le _⟩ [])))).map
        (bench.store, ·)

/-- What is seen of them: no counter at the start, everything smooth at the gate,
no thread killed, and four PINs checked. -/
def triesGoOut (kind : PinKind) : Option (Option PinAttemptState × Bool × Bool × Nat × Nat) :=
  (playedTries kind).map fun x => (x.1.secrets (.pinAttempts kind),
    x.2.state.acts.all fun e => (PinEvent.of kind e).Smooth,
    (List.range 6).any fun t => wasKilled (x.2.state.ended t), x.2.next,
    (pinTally kind x.2.state.acts).checks)

/-- A run of five tries, of which four are checked, each allowed and behind the
gate of its kind. -/
def LimitsTries (kind : PinKind) : Prop :=
  ∃ (store : Store) (p : (@appThreads Crypto.plain .any).Running),
    (@appThreads Crypto.plain .any).Reaches (App.boot store 0 0 ⟨0, 0, Nat.zero_le _⟩ []) p ∧
    (pinTally kind p.state.acts).checks = 4 ∧
    (∀ later e earlier, p.state.acts = later ++ e :: earlier → ChecksPin kind e →
      GuessAllowed {} (pinTally kind earlier) ((pinCounter kind e.before).getD {})) ∧
    ∀ e ∈ p.state.acts, ∀ pin hash, e.command = .verifyPin pin hash →
      ChecksBehindGate p.state e pin hash

/-- That run, for the PIN of either kind. -/
theorem pin_guesses_limited_fiveTries : LimitsTries .fourDigit ∧ LimitsTries .sixDigit := by
  have hfour : triesGoOut .fourDigit = some (none, true, false, 6, 4) := by decide +kernel
  have hsix : triesGoOut .sixDigit = some (none, true, false, 6, 4) := by decide +kernel
  have hlimits : ∀ kind, triesGoOut kind = some (none, true, false, 6, 4) →
      LimitsTries kind := by
    intro kind hresult
    obtain ⟨⟨store, p⟩, hplayed, hresult⟩ := Option.map_eq_some_iff.mp hresult
    obtain ⟨bench, -, hstored⟩ := Option.bind_eq_some_iff.mp hplayed
    obtain ⟨p', hplay, heq⟩ := Option.map_eq_some_iff.mp hstored
    obtain ⟨rfl, rfl⟩ := Prod.mk.inj heq
    obtain ⟨hcounter, hresult⟩ := Prod.mk.inj hresult
    obtain ⟨hsmooth, hresult⟩ := Prod.mk.inj hresult
    obtain ⟨hkilled, hresult⟩ := Prod.mk.inj hresult
    obtain ⟨hnext, hchecks⟩ := Prod.mk.inj hresult
    have hsteps := Player.play_sound hplay
    have hcounter : bench.store.secrets (.pinAttempts kind) = none := hcounter
    have hnone : (pinCounter kind (App.boot bench.store 0 0 ⟨0, 0, Nat.zero_le _⟩ [])).getD {} =
        {} := by
      show (bench.store.secrets (.pinAttempts kind)).getD {} = _
      rw [hcounter]
      rfl
    have hattempts : Attempts kind (Log.empty (App.boot bench.store 0 0 ⟨0, 0, Nat.zero_le _⟩ []))
        p'.state p'.state.acts := by
      refine ⟨(List.append_nil _).symm, fun e he => ?_, fun t _ ht => ?_⟩
      · exact of_decide_eq_true (List.all_eq_true.mp hsmooth e he)
      · have hlt : t < 6 := by
          by_contra hge
          have hkept := (@gateDiscipline_valid Crypto.plain .any kind).kept hsteps
          have hended := (hkept.bound (t := t) (hnext ▸ Nat.not_lt.mp hge)).2.2
          rw [ht] at hended
          cases hended
        have hthread := List.any_eq_false.mp hkilled t (List.mem_range.mpr hlt)
        rw [ht] at hthread
        exact absurd rfl hthread
    obtain ⟨hlimited, -, hbehind, -⟩ := @pin_guesses_limited kind Crypto.plain .any bench.store 0 0
      ⟨0, 0, Nat.zero_le _⟩ [] _ p' p'.state.acts (fun state h => by rw [hcounter] at h; cases h)
      .refl rfl hsteps hattempts
    refine ⟨bench.store, p', hsteps, hchecks, fun later e earlier hsplit hcheck => ?_, hbehind⟩
    have h : GuessAllowed ((pinCounter kind
        (App.boot bench.store 0 0 ⟨0, 0, Nat.zero_le _⟩ [])).getD {}) _ _ :=
      hlimited later e earlier hsplit hcheck
    rw [hnone] at h
    exact h
  exact ⟨hlimits .fourDigit hfour, hlimits .sixDigit hsix⟩

end Phone
