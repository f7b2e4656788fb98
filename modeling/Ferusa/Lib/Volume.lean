import Mathlib.Data.List.Sublists

/-!
# Volumes that forget what was not synced

A volume has contents that programs see, and contents that survive when
the machine stops. A change is seen at once and survives once it has
been synced; of the changes made since, any may survive and any may be
lost. A program that syncs each change before it makes the next
(`Volume.Settled`) leaves only two possibilities after a stop: what was
seen, or what was seen before the last change
(`Volume.Stop.eq_or_eq`).

`V` is the type of contents, `Ch` that of changes, and `apply` says what
a change does.
-/

/-- **A volume**: what is seen, what survives, and the changes that
separate the two. -/
structure Volume (V Ch : Type) where
  live : V
  durable : V
  unsynced : List Ch

namespace Volume

variable {V Ch : Type} (apply : Ch → V → V)

/-- What a list of changes does, first to last. -/
def applyAll (l : List Ch) (v : V) : V :=
  l.foldl (fun v c => apply c v) v

/-- The volume after a change. -/
def change (c : Ch) (s : Volume V Ch) : Volume V Ch :=
  { s with live := apply c s.live, unsynced := s.unsynced ++ [c] }

/-- The volume after a sync. -/
def sync (s : Volume V Ch) : Volume V Ch :=
  { s with durable := applyAll apply s.unsynced s.durable, unsynced := [] }

/-- **A stop**: some of the changes that were not synced survive, and
what survives is what is seen afterwards. -/
def Stop (s s' : Volume V Ch) : Prop :=
  ∃ l, l.Sublist s.unsynced ∧ s'.durable = applyAll apply l s.durable ∧
    s'.live = s'.durable ∧ s'.unsynced = []

/-- What is seen is what survives with all changes made. -/
def Consistent (s : Volume V Ch) : Prop :=
  s.live = applyAll apply s.unsynced s.durable

variable {apply} {s s' : Volume V Ch} {c : Ch}

theorem Consistent.change (h : Consistent apply s) : Consistent apply (s.change apply c) := by
  show apply c s.live = applyAll apply (s.unsynced ++ [c]) s.durable
  rw [applyAll, List.foldl_append]
  exact congrArg (apply c) h

theorem Consistent.sync : Consistent apply s → Consistent apply (s.sync apply) :=
  fun h => h

theorem Consistent.stop (h : Stop apply s s') : Consistent apply s' := by
  obtain ⟨l, -, -, hlive, hun⟩ := h
  unfold Consistent
  rw [hlive, hun]
  rfl

/-- A synced volume shows what survives. -/
theorem Consistent.live_eq (h : Consistent apply s) (hs : s.unsynced = []) :
    s.live = s.durable := by
  unfold Consistent at h
  rw [h, hs]
  rfl

variable (apply) in
/-- **At most the last change is not synced.** -/
def Settled (s : Volume V Ch) : Prop :=
  Consistent apply s ∧ s.unsynced.length ≤ 1

theorem Settled.sync (h : Settled apply s) : Settled apply (s.sync apply) :=
  ⟨h.1.sync, Nat.zero_le _⟩

/-- A change made to a synced volume. -/
theorem Settled.change (h : Settled apply s) (hs : s.unsynced = []) :
    Settled apply (s.change apply c) := by
  refine ⟨h.1.change, ?_⟩
  show (s.unsynced ++ [c]).length ≤ 1
  rw [hs]
  exact Nat.le_refl 1

theorem Settled.stop (h : Stop apply s s') : Settled apply s' := by
  refine ⟨Consistent.stop h, ?_⟩
  obtain ⟨l, -, -, -, hun⟩ := h
  rw [hun]
  exact Nat.zero_le _

/-- **After a stop** a settled volume shows what it showed, or what
survived before the last change. -/
theorem Stop.eq_or_eq (h : Settled apply s) (hs : Stop apply s s') :
    s'.live = s.live ∨ s'.live = s.durable := by
  obtain ⟨l, hl, hdur, hlive, -⟩ := hs
  obtain ⟨hc, hlen⟩ := h
  rw [hlive, hdur, hc]
  match hu : s.unsynced, hlen with
  | [], _ =>
    rw [hu] at hl
    rw [List.sublist_nil.mp hl]
    exact .inl rfl
  | [c], _ =>
    rw [hu] at hl
    rcases List.sublist_singleton.mp hl with rfl | rfl
    · exact .inr rfl
    · exact .inl rfl

variable (apply) in
/-- **Nothing that survives breaks a property**: it holds of what is
seen and of what survives, and no change that is not synced breaks
it. -/
structure Always (P : V → Prop) (s : Volume V Ch) : Prop where
  live : P s.live
  durable : P s.durable
  changes : ∀ c ∈ s.unsynced, ∀ v, P v → P (apply c v)

variable {P : V → Prop}

/-- Changes that do not break a property, one after the other. -/
theorem applyAll_keeps {l : List Ch} (hl : ∀ c ∈ l, ∀ v, P v → P (apply c v)) {v : V}
    (hv : P v) : P (applyAll apply l v) := by
  induction l generalizing v with
  | nil => exact hv
  | cons c l ih =>
    exact ih (fun c hc => hl c (List.mem_cons_of_mem _ hc)) (hl c List.mem_cons_self v hv)

theorem Always.change (h : Always apply P s) (hc : ∀ v, P v → P (apply c v)) :
    Always apply P (s.change apply c) := by
  refine ⟨hc _ h.live, h.durable, fun c' hc' => ?_⟩
  obtain hold | rfl := (List.mem_append.mp hc').imp_right List.mem_singleton.mp
  · exact h.changes c' hold
  · exact hc

theorem Always.sync (h : Always apply P s) : Always apply P (s.sync apply) :=
  ⟨h.live, applyAll_keeps h.changes h.durable, fun _ hc => nomatch hc⟩

theorem Always.stop (h : Always apply P s) (hs : Stop apply s s') : Always apply P s' := by
  obtain ⟨l, hl, hdur, hlive, hun⟩ := hs
  have hkept : P s'.durable := by
    rw [hdur]
    exact applyAll_keeps (fun c hc => h.changes c (hl.subset hc)) h.durable
  refine ⟨hlive ▸ hkept, hkept, ?_⟩
  rw [hun]
  exact fun _ hc => nomatch hc

end Volume
