import Mathlib.Data.List.Basic
import Ferusa.Phone.Pin

/-!
# The cooldown over a sequence of attempts

What the counter of failed attempts says after any number of them. The
attempts come in groups of three; each group that is complete raises the
level, and starts a cooldown that has to be waited for on one clock, from
its start to its end within one boot (`HasWaited`).

Nothing here is about threads: a sequence of attempts is the number of
PINs that were checked and the readings of the clock since the last one,
latest first. `Counted` is what the stored counter then says, and it is
kept by the two updates the code makes.
-/

namespace Phone

/-! ## How long a cooldown is -/

/-- **The cooldown after the `n`-th group**, from a level `L`, as a formula
with no bound on the exponent. -/
def cooldownAfter (L n : Nat) : Nat :=
  min (30 * 1000 * 2 ^ (min (L + n) 255 - 1)) (30 * 60 * 1000)

/-- The multiplier of `cooldown_duration_ms` is cut off only where the
cooldown is at its maximum anyway. -/
theorem cooldownDurationMs_eq {level : Nat} (h : 0 < level) :
    cooldownDurationMs level = min (30 * 1000 * 2 ^ (level - 1)) (30 * 60 * 1000) := by
  unfold cooldownDurationMs pinCooldownBaseMs pinCooldownMaxMs
  rw [if_neg (Nat.ne_of_gt h)]
  by_cases hs : level - 1 < 32
  · rw [if_pos hs]
  · have hpow : 2 ^ 32 ≤ 2 ^ (level - 1) := Nat.pow_le_pow_right (by omega) (by omega)
    rw [if_neg hs]
    show min (30 * 1000 * (2 ^ 32 - 1)) _ = _
    omega

theorem cooldownDurationMs_le (level : Nat) : cooldownDurationMs level ≤ 30 * 60 * 1000 := by
  unfold cooldownDurationMs
  split
  · exact Nat.zero_le _
  · exact Nat.min_le_right _ _

theorem cooldownDurationMs_eq_after {L n : Nat} (h : 0 < n) :
    cooldownDurationMs (min (L + n) 255) = cooldownAfter L n :=
  cooldownDurationMs_eq (by omega)

/-- **No overflow**: the product of `cooldown_duration_ms` fits a `u64`,
whatever the level, and so does the end of a cooldown, whatever the
clock. -/
theorem cooldown_no_overflow (level : Nat) (clock : ClockSnapshot) :
    pinCooldownBaseMs * (if level - 1 < 32 then 2 ^ (level - 1) else 2 ^ 32 - 1) ≤ u64Max ∧
      clock.elapsedRealtimeMs + cooldownDurationMs level ≤ u64Max := by
  constructor
  · have hm : (if level - 1 < 32 then 2 ^ (level - 1) else 2 ^ 32 - 1) ≤ 2 ^ 32 := by
      split
      · exact Nat.pow_le_pow_right (by omega) (by omega)
      · exact Nat.sub_le _ _
    calc pinCooldownBaseMs * (if level - 1 < 32 then 2 ^ (level - 1) else 2 ^ 32 - 1)
        ≤ pinCooldownBaseMs * 2 ^ 32 := Nat.mul_le_mul_left _ hm
      _ ≤ u64Max := by
        unfold pinCooldownBaseMs u64Max
        omega
  · have hd := cooldownDurationMs_le level
    have hc := clock.isLong
    unfold elapsedRealtimeMax at hc
    unfold u64Max
    omega

/-! ## Waiting -/

/-- **So much time was seen to pass within one boot**, between two readings
of the clock. -/
def Passed (durationMs : Nat) (readings : List ClockSnapshot) : Prop :=
  ∃ b ∈ readings, ∃ c ∈ readings, b.bootCount = c.bootCount ∧
    b.elapsedRealtimeMs + durationMs ≤ c.elapsedRealtimeMs

theorem Passed.mono {durationMs : Nat} {readings readings' : List ClockSnapshot}
    (h : Passed durationMs readings) (hsub : readings ⊆ readings') :
    Passed durationMs readings' := by
  obtain ⟨b, hb, c, hc, h⟩ := h
  exact ⟨b, hsub hb, c, hsub hc, h⟩

/-- **The cooldown was waited for**: at some reading, so much time had
passed since the first reading of the same boot. The readings are listed
latest first. -/
def HasWaited (durationMs : Nat) (readings : List ClockSnapshot) : Prop :=
  ∃ c ∈ readings, ∃ b,
    readings.reverse.find? (fun x => x.bootCount = c.bootCount) = some b ∧
      b.elapsedRealtimeMs + durationMs ≤ c.elapsedRealtimeMs

/-- The readings of a clock that does not go back, latest first. -/
abbrev InOrder (readings : List ClockSnapshot) : Prop :=
  readings.Pairwise fun c b => b.Before c

/-- Time that has passed since some reading has passed since the first one
of that boot. -/
theorem Passed.hasWaited {durationMs : Nat} {readings : List ClockSnapshot}
    (h : Passed durationMs readings) (ho : InOrder readings) : HasWaited durationMs readings := by
  obtain ⟨b, hb, c, hc, hboot, hle⟩ := h
  refine ⟨c, hc, ?_⟩
  obtain ⟨b₀, hb₀⟩ : ∃ b₀, readings.reverse.find? (fun x => x.bootCount = c.bootCount) =
      some b₀ := by
    refine Option.isSome_iff_exists.mp (List.find?_isSome.mpr ⟨b, ?_, ?_⟩)
    · exact List.mem_reverse.mpr hb
    · exact decide_eq_true hboot
  refine ⟨b₀, hb₀, ?_⟩
  -- the first reading of the boot is not later than the one the time passed since
  obtain ⟨hboot₀, later, earlier, heq, hnone⟩ := List.find?_eq_some_iff_append.mp hb₀
  have hboot₀ : b₀.bootCount = c.bootCount := of_decide_eq_true hboot₀
  have hmem : b ∈ later ++ b₀ :: earlier := heq ▸ List.mem_reverse.mpr hb
  have hord : (later ++ b₀ :: earlier).Pairwise fun b c => b.Before c :=
    heq ▸ List.pairwise_reverse.mpr ho
  rcases List.mem_append.mp hmem with hmem | hmem
  · have := hnone b hmem
    simp [hboot] at this
  · rcases List.mem_cons.mp hmem with rfl | hmem
    · exact hle
    · have hbef := (List.pairwise_cons.mp (List.pairwise_append.mp hord).2.1).1 b hmem
      unfold ClockSnapshot.Before at hbef
      omega

/-! ## The counter -/

/-- **A cooldown is recorded**, started at one of the readings. -/
def Cooling (durationMs : Nat) (readings : List ClockSnapshot) (state : PinAttemptState) :
    Prop :=
  recordedDurationMs state = some durationMs ∧
    ∃ b ∈ readings, state.cooldownStartedElapsedMs = some b.elapsedRealtimeMs ∧
      state.cooldownBootCount = some b.bootCount

/-- **A counter that can be found stored**: that of three failures is never
stored, and where there are failures there is no cooldown. -/
structure Plausible (state : PinAttemptState) : Prop where
  failed : state.failedAttempts < 3
  level : state.cooldownLevel ≤ 255
  free : state.failedAttempts ≠ 0 → recordedDurationMs state = none

variable {f₀ L m : Nat} {readings : List ClockSnapshot} {state : PinAttemptState}
  {c : ClockSnapshot}

/-- The checked PINs make up a number of groups, the last of which is
complete. -/
def CompletesGroup (f₀ m : Nat) : Prop := 0 < (f₀ + m) / 3 ∧ (f₀ + m) % 3 = 0

/-- **What the counter says** after `m` failures that followed `f₀` of them
at the level `L`, with the readings of the clock since the last one. -/
structure Counted (f₀ L m : Nat) (readings : List ClockSnapshot) (state : PinAttemptState) :
    Prop where
  failed : state.failedAttempts = (f₀ + m) % 3
  level : state.cooldownLevel = min (L + (f₀ + m) / 3) 255
  free : (f₀ + m) % 3 ≠ 0 → recordedDurationMs state = none
  cooling : CompletesGroup f₀ m →
    Passed (cooldownAfter L ((f₀ + m) / 3)) readings ∨
      Cooling (cooldownAfter L ((f₀ + m) / 3)) readings state

/-- **A PIN may be checked**: no cooldown is recorded, and one there was has
been waited for. -/
structure Admitted (f₀ L m : Nat) (readings : List ClockSnapshot) (state : PinAttemptState) :
    Prop extends Counted f₀ L m readings state where
  none : recordedDurationMs state = none
  passed : CompletesGroup f₀ m → Passed (cooldownAfter L ((f₀ + m) / 3)) readings

theorem Plausible.counted (h : Plausible state) :
    Counted state.failedAttempts state.cooldownLevel 0 [] state where
  failed := (Nat.mod_eq_of_lt h.failed).symm
  level := by
    have := h.failed
    have := h.level
    omega
  free hne := by
    refine h.free fun h₀ => hne ?_
    omega
  cooling hg := by
    have := h.failed
    have := hg.1
    omega

/-- The clock is read once more. -/
theorem Counted.read (h : Counted f₀ L m readings state) :
    Counted f₀ L m (c :: readings) state where
  failed := h.failed
  level := h.level
  free := h.free
  cooling hg := by
    rcases h.cooling hg with hp | ⟨hd, b, hb, hs⟩
    · exact .inl (hp.mono (List.subset_cons_self _ _))
    · exact .inr ⟨hd, b, List.mem_cons_of_mem _ hb, hs⟩

/-- With no cooldown recorded, the one there was has been waited for. -/
theorem Counted.admitted (h : Counted f₀ L m readings state)
    (hn : recordedDurationMs state = none) : Admitted f₀ L m readings state where
  toCounted := h
  none := hn
  passed hg := by
    rcases h.cooling hg with hp | ⟨hd, -⟩
    · exact hp
    · rw [hn] at hd
      cases hd

/-- A cooldown that is started again, at a reading of the clock. -/
theorem Counted.restart {durationMs : Nat} (h : Counted f₀ L m readings state)
    (hc : c ∈ readings) (hd : recordedDurationMs state = some durationMs) :
    Counted f₀ L m readings
      (activeCooldownRemainingMs.restart state c durationMs).1 where
  failed := h.failed
  level := h.level
  free hne := by
    rw [h.free hne] at hd
    cases hd
  cooling hg := by
    rcases h.cooling hg with hp | ⟨hd', -⟩
    · exact .inl hp
    · obtain rfl := Option.some.inj (hd.symm.trans hd')
      exact .inr ⟨rfl, c, hc, rfl, rfl⟩

/-- **Looking for a cooldown keeps the count**, and lets a PIN be checked
only when it may be. -/
theorem Counted.check (h : Counted f₀ L m readings state) (hc : c ∈ readings) :
    Counted f₀ L m readings (activeCooldownRemainingMs state c).1 ∧
      ((activeCooldownRemainingMs state c).2 = none →
        Admitted f₀ L m readings (activeCooldownRemainingMs state c).1) := by
  unfold activeCooldownRemainingMs
  cases hd : recordedDurationMs state with
  | none => exact ⟨h, fun _ => h.admitted hd⟩
  | some durationMs =>
    cases hs : state.cooldownStartedElapsedMs with
    | none => exact ⟨h.restart hc hd, fun hn => by cases hn⟩
    | some started =>
      by_cases hb : state.cooldownBootCount = some c.bootCount
      · simp only [hb, ne_eq, not_true_eq_false, if_false]
        by_cases hr : saturatingAdd started durationMs - c.elapsedRealtimeMs = 0
        · simp only [hr, if_true]
          -- the cooldown is over: it was started in this boot, so long ago
          have hadm : Admitted f₀ L m readings { state with
              cooldownStartedElapsedMs := none, cooldownBootCount := none,
              cooldownDurationMs := none, cooldownUntilMs := none } := by
            have hp : CompletesGroup f₀ m →
                Passed (cooldownAfter L ((f₀ + m) / 3)) readings := by
              intro hg
              rcases h.cooling hg with hp | ⟨hd', b, hbm, hbs, hbb⟩
              · exact hp
              · obtain rfl := Option.some.inj (hd.symm.trans hd')
                obtain rfl := Option.some.inj (hs.symm.trans hbs)
                refine ⟨b, hbm, c, hc, Option.some.inj (hbb.symm.trans hb), ?_⟩
                have hlong := c.isLong
                unfold elapsedRealtimeMax at hlong
                unfold saturatingAdd u64Max at hr
                omega
            exact ⟨⟨h.failed, h.level, fun _ => rfl, fun hg => .inl (hp hg)⟩, rfl, hp⟩
          exact ⟨hadm.toCounted, fun _ => hadm⟩
        · simp only [hr, if_false]
          exact ⟨h, fun hn => by cases hn⟩
      · simp only [ne_eq, hb, not_false_eq_true, if_true]
        exact ⟨h.restart hc hd, fun hn => by cases hn⟩

/-- **Recording a failure counts it**, and starts the cooldown of a group
that it completes. -/
theorem Admitted.record (h : Admitted f₀ L m readings state) :
    Counted f₀ L (m + 1) [c] (recordPinFailureState state c).1 := by
  have hf : saturatingSuccU8 state.failedAttempts = (f₀ + m) % 3 + 1 := by
    rw [h.failed]
    unfold saturatingSuccU8
    omega
  unfold recordPinFailureState pinFailuresBeforeCooldown
  simp only [hf]
  by_cases hlt : (f₀ + m) % 3 + 1 < 3
  · simp only [hlt, if_true]
    refine ⟨?_, ?_, fun _ => h.none, fun hg => ?_⟩
    · show (f₀ + m) % 3 + 1 = _
      omega
    · show state.cooldownLevel = _
      rw [h.level]
      omega
    · have := hg.2
      omega
  · simp only [hlt, if_false]
    have hlevel : max (saturatingSuccU8 state.cooldownLevel) 1 =
        min (L + (f₀ + (m + 1)) / 3) 255 := by
      rw [h.level]
      unfold saturatingSuccU8
      omega
    refine ⟨?_, hlevel, ?_, fun hg => .inr ⟨?_, c, List.mem_singleton_self c, rfl, rfl⟩⟩
    · show 0 = _
      omega
    · intro hne
      omega
    · show some (cooldownDurationMs (max (saturatingSuccU8 state.cooldownLevel) 1)) = _
      rw [hlevel, cooldownDurationMs_eq_after hg.1]

end Phone
