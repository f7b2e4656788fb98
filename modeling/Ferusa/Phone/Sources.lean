import Mathlib.Data.Multiset.MapFold
import Ferusa.Lib.Tally

/-!
# Admission per source

Before a connection is looked at, it takes a permit of the source it comes
from; the permit is given back when it is dropped. The limiter holds a
number for each source, which one function counts up and another counts
down, and which has to agree with the permits there are: a number left
behind would lock a relay out for good, a lost one would disable the limit.

Each of the two functions holds the lock of the map from its first line to
its last, so that a run is a sequence of calls (`SourceEvent`).
-/

namespace Phone

open Tally

/-- **`SourceAdmissionLimiter`.** -/
structure SourceAdmissionLimiter where
  maxPerSource : Nat
  counts : String → Option Nat

/-- `SourceAdmissionPermit`; the limiter it belongs to is the only one. -/
structure SourceAdmissionPermit where
  source : String
  deriving DecidableEq

namespace SourceAdmissionLimiter

/-- `SourceAdmissionLimiter::new`. -/
def new (maxPerSource : Nat) : SourceAdmissionLimiter := ⟨maxPerSource, fun _ => none⟩

/-- **`try_acquire`.** The count stays below the maximum before it is
increased, so that the addition does not overflow. -/
def tryAcquire (limiter : SourceAdmissionLimiter) (source : String) :
    Option SourceAdmissionPermit × SourceAdmissionLimiter :=
  let count := (limiter.counts source).getD 0
  -- `entry(..).or_insert(0)` leaves its entry in the map, also where it is refused
  let counts := Function.update limiter.counts source (some count)
  if count ≥ limiter.maxPerSource then (none, { limiter with counts })
  else (some ⟨source⟩,
    { limiter with counts := Function.update counts source (some (count + 1)) })

/-- **`drop`, of a permit.** -/
def drop (limiter : SourceAdmissionLimiter) (permit : SourceAdmissionPermit) :
    SourceAdmissionLimiter :=
  match limiter.counts permit.source with
  | none => limiter
  | some count =>
    let count := count - 1
    if count = 0 then
      { limiter with counts := Function.update limiter.counts permit.source none }
    else { limiter with counts := Function.update limiter.counts permit.source (some count) }

end SourceAdmissionLimiter

/-- **The limiter and the permits that are held**, each dropped once. -/
structure SourceAdmission where
  limiter : SourceAdmissionLimiter
  permits : Multiset SourceAdmissionPermit

/-- A call of `try_acquire`, or a permit that is dropped. -/
inductive SourceEvent where
  | tryAcquire (source : String)
  | drop (permit : SourceAdmissionPermit)

/-- The source an event is about. -/
def SourceEvent.source : SourceEvent → String
  | tryAcquire source => source
  | drop permit => permit.source

namespace SourceAdmission

/-- No permit is held yet. -/
def start (maxPerSource : Nat) : SourceAdmission := ⟨.new maxPerSource, 0⟩

/-- The sources of the permits that are held. -/
def sources (w : SourceAdmission) : Multiset String := w.permits.map SourceAdmissionPermit.source

/-- How many permits of a source are held. -/
def live (w : SourceAdmission) (source : String) : Nat := w.sources.count source

/-- **What an event does.** A permit that is dropped was held. -/
def step (w : SourceAdmission) : SourceEvent → Option SourceAdmission
  | .tryAcquire source =>
    match w.limiter.tryAcquire source with
    | (some permit, limiter) => some ⟨limiter, permit ::ₘ w.permits⟩
    | (none, limiter) => some ⟨limiter, w.permits⟩
  | .drop permit =>
    if permit ∈ w.permits then some ⟨w.limiter.drop permit, w.permits.erase permit⟩ else none

/-- What a sequence of events does. -/
def run (w : SourceAdmission) : List SourceEvent → Option SourceAdmission
  | [] => some w
  | e :: events => (w.step e).bind fun w' => run w' events

/-- **The limiter tallies the permits**, and no source holds more than the
maximum. -/
structure Counted (maxPerSource : Nat) (w : SourceAdmission) : Prop where
  maximum : w.limiter.maxPerSource = maxPerSource
  tallies : Tallies w.limiter.counts w.sources
  bounded : ∀ source, w.live source ≤ maxPerSource

variable {maxPerSource : Nat} {w w' : SourceAdmission} {source : String}
  {permit : SourceAdmissionPermit}

/-! ## What the two functions do -/

/-- **A call that is refused** leaves the map as it is: the source is in
it. -/
theorem Counted.refused (h : Counted maxPerSource w) (hpos : 1 ≤ maxPerSource)
    (hfull : maxPerSource ≤ w.live source) : w.limiter.tryAcquire source = (none, w.limiter) := by
  have hcount : (w.limiter.counts source).getD 0 = w.live source := h.tallies.getD source
  have hmem : source ∈ w.sources := Multiset.count_pos.mp (hpos.trans hfull)
  have hsame : Function.update w.limiter.counts source (some (w.live source)) =
      w.limiter.counts := by
    rw [Function.update_eq_self_iff, h.tallies.of_mem hmem]
    rfl
  unfold SourceAdmissionLimiter.tryAcquire
  simp only [hcount, hsame]
  rw [if_pos (by rwa [h.maximum])]

/-- **A call that is admitted** counts its source up. -/
theorem Counted.admitted (h : Counted maxPerSource w) (hfree : w.live source < maxPerSource) :
    w.limiter.tryAcquire source = (some ⟨source⟩, { w.limiter with
      counts := Function.update w.limiter.counts source
        (some ((w.limiter.counts source).getD 0 + 1)) }) := by
  have hcount : (w.limiter.counts source).getD 0 = w.live source := h.tallies.getD source
  unfold SourceAdmissionLimiter.tryAcquire
  simp only [hcount, Function.update_idem]
  rw [if_neg (by rw [h.maximum]; omega)]

/-- **A permit that is dropped** counts its source down. -/
theorem Counted.dropped (h : Counted maxPerSource w) (hheld : permit ∈ w.permits) :
    w.limiter.drop permit = { w.limiter with
      counts := Function.update w.limiter.counts permit.source
        (if w.live permit.source - 1 = 0 then none
          else some (w.live permit.source - 1)) } := by
  have hmem : permit.source ∈ w.sources := Multiset.mem_map_of_mem _ hheld
  unfold SourceAdmissionLimiter.drop
  rw [h.tallies.of_mem hmem]
  show (if w.live permit.source - 1 = 0 then _ else _) = _
  split
  · rfl
  · rfl

/-- **What an event can do**: a source takes one more permit, or is refused and
nothing changes, or a permit that is held is given back. -/
theorem Counted.step_cases (h : Counted maxPerSource w) (hpos : 1 ≤ maxPerSource)
    {e : SourceEvent} (hs : w.step e = some w') :
    (w.live e.source < maxPerSource ∧ w' = ⟨{ w.limiter with
        counts := Function.update w.limiter.counts e.source
          (some ((w.limiter.counts e.source).getD 0 + 1)) }, ⟨e.source⟩ ::ₘ w.permits⟩) ∨
      w' = w ∨
      ∃ permit ∈ w.permits, permit.source = e.source ∧ w' = ⟨{ w.limiter with
        counts := Function.update w.limiter.counts e.source
          (if w.live e.source - 1 = 0 then none else some (w.live e.source - 1)) },
        w.permits.erase permit⟩ := by
  cases e with
  | tryAcquire source =>
    have hs : (match w.limiter.tryAcquire source with
      | (some permit, limiter) => some ⟨limiter, permit ::ₘ w.permits⟩
      | (none, limiter) => some ⟨limiter, w.permits⟩) = some w' := hs
    by_cases hfree : w.live source < maxPerSource
    · rw [h.admitted hfree] at hs
      exact .inl ⟨hfree, (Option.some.inj hs).symm⟩
    · rw [h.refused hpos (Nat.not_lt.mp hfree)] at hs
      exact .inr (.inl (Option.some.inj hs).symm)
  | drop permit =>
    have hs : (if permit ∈ w.permits then
      some (⟨w.limiter.drop permit, w.permits.erase permit⟩ : SourceAdmission) else none) =
        some w' := hs
    split at hs
    · next hheld =>
      rw [h.dropped hheld] at hs
      exact .inr (.inr ⟨permit, hheld, rfl, (Option.some.inj hs).symm⟩)
    · cases hs

/-! ## What every event keeps -/

/-- One permit less is one source less. -/
theorem sources_erase (hheld : permit ∈ w.permits) :
    (w.permits.erase permit).map SourceAdmissionPermit.source =
      w.sources.erase permit.source := by
  have hcons : w.sources = permit.source ::ₘ
      (w.permits.erase permit).map SourceAdmissionPermit.source := by
    rw [← Multiset.map_cons, Multiset.cons_erase hheld]
    rfl
  rw [hcons, Multiset.erase_cons_head]

/-- **Every event keeps the tally.** -/
theorem Counted.step (h : Counted maxPerSource w) (hpos : 1 ≤ maxPerSource) {e : SourceEvent}
    (hs : w.step e = some w') : Counted maxPerSource w' := by
  obtain ⟨hfree, rfl⟩ | rfl | ⟨permit, hheld, hsource, rfl⟩ := h.step_cases hpos hs
  · refine ⟨h.maximum, ?_, fun s => ?_⟩
    · show Tallies _ (Multiset.map _ _)
      rw [Multiset.map_cons]
      exact h.tallies.cons e.source
    · show Multiset.count s (Multiset.map _ _) ≤ _
      rw [Multiset.map_cons]
      by_cases hs : s = e.source
      · rw [hs, Multiset.count_cons_self]
        exact hfree
      · rw [Multiset.count_cons_of_ne hs]
        exact h.bounded s
  · exact h
  · have hmem : e.source ∈ w.sources := hsource ▸ Multiset.mem_map_of_mem _ hheld
    refine ⟨h.maximum, ?_, fun s => ?_⟩
    · show Tallies _ (Multiset.map _ _)
      rw [sources_erase hheld, hsource]
      exact h.tallies.erase hmem
    · show Multiset.count s (Multiset.map _ _) ≤ _
      rw [sources_erase hheld]
      exact (Multiset.count_le_of_le s (Multiset.erase_le ..)).trans (h.bounded s)

theorem Counted.start (maxPerSource : Nat) : Counted maxPerSource (start maxPerSource) :=
  ⟨rfl, .empty, fun source => (Nat.le_of_eq (Multiset.count_zero source)).trans (Nat.zero_le _)⟩

/-- **Every run keeps the tally.** -/
theorem Counted.run (h : Counted maxPerSource w) (hpos : 1 ≤ maxPerSource)
    {events : List SourceEvent} (hr : w.run events = some w') : Counted maxPerSource w' := by
  induction events generalizing w with
  | nil => exact Option.some.inj hr ▸ h
  | cons e events ih =>
    obtain ⟨u, hu, hr⟩ := Option.bind_eq_some_iff.mp hr
    exact ih (h.step hpos hu) hr

/-! ## Admission is exact -/

/-- **What is exact of the admission at one moment.** -/
structure Exact (maxPerSource : Nat) (w : SourceAdmission) : Prop where
  /-- The permits of each source are within the limit, and as many as the
  stored count says. -/
  bounded : ∀ source, w.live source ≤ maxPerSource
  stored : ∀ source, (w.limiter.counts source).getD 0 = w.live source
  /-- The map names the sources with a permit. -/
  named : ∀ source, (w.limiter.counts source).isSome = true ↔
    ∃ permit ∈ w.permits, permit.source = source
  /-- A call succeeds where there is room. -/
  admits : ∀ source,
    (w.limiter.tryAcquire source).1.isSome = true ↔ w.live source < maxPerSource
  /-- An event of one source changes nothing for another. -/
  apart : ∀ e w', w.step e = some w' → ∀ source, source ≠ e.source →
    w'.limiter.counts source = w.limiter.counts source ∧ w'.live source = w.live source ∧
      (w'.limiter.tryAcquire source).1 = (w.limiter.tryAcquire source).1

/-- What a call answers depends on the count of its source. -/
theorem tryAcquire_congr {l l' : SourceAdmissionLimiter}
    (hmax : l'.maxPerSource = l.maxPerSource) (hcount : l'.counts source = l.counts source) :
    (l'.tryAcquire source).1 = (l.tryAcquire source).1 := by
  unfold SourceAdmissionLimiter.tryAcquire
  rw [hmax, hcount]
  dsimp only
  split
  · rfl
  · rfl

theorem Counted.exact (h : Counted maxPerSource w) (hpos : 1 ≤ maxPerSource) :
    Exact maxPerSource w where
  bounded := h.bounded
  stored source := h.tallies.getD source
  named source := by
    rw [h.tallies.isSome_iff]
    exact Multiset.mem_map
  admits source := by
    by_cases hfree : w.live source < maxPerSource
    · rw [h.admitted hfree]
      exact ⟨fun _ => hfree, fun _ => rfl⟩
    · rw [h.refused hpos (Nat.not_lt.mp hfree)]
      exact ⟨nofun, fun h => absurd h hfree⟩
  apart e w' hs source hne := by
    have hmax : w'.limiter.maxPerSource = w.limiter.maxPerSource :=
      (h.step hpos hs).maximum.trans h.maximum.symm
    have hcounts : w'.limiter.counts source = w.limiter.counts source := by
      obtain ⟨-, rfl⟩ | rfl | ⟨permit, -, -, rfl⟩ := h.step_cases hpos hs
      · exact Function.update_of_ne hne ..
      · rfl
      · exact Function.update_of_ne hne ..
    refine ⟨hcounts, ?_, tryAcquire_congr hmax hcounts⟩
    show w'.sources.count source = w.sources.count source
    rw [← (h.step hpos hs).tallies.getD, ← h.tallies.getD, hcounts]

/-- **Per-source admission is exact**, whatever has been acquired and dropped,
for whichever sources. -/
theorem source_admission_exact (hpos : 1 ≤ maxPerSource) {events : List SourceEvent}
    (hr : (start maxPerSource).run events = some w) : Exact maxPerSource w :=
  ((Counted.start maxPerSource).run hpos hr).exact hpos

/-- Two permits of one relay, a third that is refused, one given back, and
another source in between. -/
def relayEvents : List SourceEvent :=
  [.tryAcquire "relay", .tryAcquire "relay", .tryAcquire "relay", .tryAcquire "ip",
    .drop ⟨"relay"⟩, .tryAcquire "relay"]

theorem source_admission_exact_relay : ∃ w, (start 2).run relayEvents = some w ∧ Exact 2 w := by
  have hrun : ((start 2).run relayEvents).isSome = true := by decide
  obtain ⟨w, hw⟩ := Option.isSome_iff_exists.mp hrun
  exact ⟨w, hw, source_admission_exact (by decide) hw⟩

end SourceAdmission

end Phone
