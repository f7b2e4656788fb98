import Ferusa.Lib.Sequence
import Ferusa.Phone.StoreSpec

/-!
# Integrity of the phone store

What is kept of the past of a store is its **history**: the order in
which generations were staged, whose handshake started, and which
generations were active, latest first. No program reads it; it is what
the store operations may be started under – `Permitted` – and what the
statements speak of.

`Integrity` relates a store to its history, and every step of the store
that a permitted operation makes preserves it. The script at the end
runs the operations one after the other, each command of which may fail,
applied or not, the process dying at any moment; its operations come in
the order `setup_complete` gives them.
-/

namespace Phone

open Logic StoreProg

/-- **The history of a store.** -/
structure History where
  /-- When a generation was staged. -/
  order : Uuid → Option Nat
  count : Nat
  handshaken : List Uuid
  /-- The values of the active pointer, latest first. -/
  actives : List Uuid

namespace History

/-- The history of a store that was never used. -/
def empty : History :=
  { order := fun _ => none, count := 0, handshaken := [], actives := [] }

/-- `id` was staged before `id'`. -/
def Older (h : History) (id id' : Uuid) : Prop :=
  ∃ n n', h.order id = some n ∧ h.order id' = some n' ∧ n < n'

/-- What is noted of a generation that is staged. -/
def noteStaged (h : History) (id : Uuid) : History :=
  { h with order := Function.update h.order id (some h.count), count := h.count + 1 }

/-- What is noted of a generation that becomes active. -/
def noteActive (h : History) (id : Uuid) : History :=
  { h with actives := id :: h.actives }

/-- What is noted of a generation whose handshake starts. -/
def noteHandshake (h : History) (id : Uuid) : History :=
  { h with handshaken := id :: h.handshaken }

section
variable (h : History) (id x y : Uuid)

@[simp, grind =] theorem noteStaged_order :
    (h.noteStaged id).order x = if x = id then some h.count else h.order x := by
  simp [noteStaged, Function.update_apply]

@[simp, grind =] theorem noteStaged_count : (h.noteStaged id).count = h.count + 1 := rfl
@[simp, grind =] theorem noteStaged_handshaken :
    (h.noteStaged id).handshaken = h.handshaken := rfl
@[simp, grind =] theorem noteStaged_actives : (h.noteStaged id).actives = h.actives := rfl
@[simp, grind =] theorem noteActive_order : (h.noteActive id).order x = h.order x := rfl
@[simp, grind =] theorem noteActive_count : (h.noteActive id).count = h.count := rfl
@[simp, grind =] theorem noteActive_handshaken :
    (h.noteActive id).handshaken = h.handshaken := rfl
@[simp, grind =] theorem noteActive_actives :
    (h.noteActive id).actives = id :: h.actives := rfl
@[simp, grind =] theorem noteActive_older :
    (h.noteActive id).Older x y ↔ h.Older x y := Iff.rfl
@[simp, grind =] theorem noteHandshake_order : (h.noteHandshake id).order x = h.order x := rfl
@[simp, grind =] theorem noteHandshake_count : (h.noteHandshake id).count = h.count := rfl
@[simp, grind =] theorem noteHandshake_handshaken :
    (h.noteHandshake id).handshaken = id :: h.handshaken := rfl
@[simp, grind =] theorem noteHandshake_actives :
    (h.noteHandshake id).actives = h.actives := rfl
@[simp, grind =] theorem noteHandshake_older :
    (h.noteHandshake id).Older x y ↔ h.Older x y := Iff.rfl

/-- Staging a generation keeps the order of the others. -/
theorem noteStaged_older {x y : Uuid} (hx : x ≠ id) (hy : y ≠ id) :
    (h.noteStaged id).Older x y ↔ h.Older x y := by
  simp [Older, hx, hy]

end

/-- A pointer that changed to a generation, and that generation. -/
def changed (p : Pointer) (s s' : Store) : Option Uuid :=
  if s'.secrets.ptr p = s.secrets.ptr p then none else s'.secrets.ptr p

/-- **The history after a command**: a generation that is staged or
becomes active is noted. -/
def note (h : History) (s s' : Store) : History :=
  match changed .staging s s', changed .active s s' with
  | some id, _ => h.noteStaged id
  | none, some id => h.noteActive id
  | none, none => h

/-- Nothing is noted while the two pointers stay or are cleared. -/
theorem note_same {h : History} {s s' : Store}
    (hs : s'.secrets.ptr .staging = s.secrets.ptr .staging ∨
      s'.secrets.ptr .staging = none)
    (ha : s'.secrets.ptr .active = s.secrets.ptr .active) : h.note s s' = h := by
  have hst : changed .staging s s' = none := by
    unfold changed
    rcases hs with hs | hs <;> simp [hs]
  have hac : changed .active s s' = none := by simp [changed, ha]
  rw [note, hst, hac]

theorem note_staged {h : History} {s s' : Store} (id : Uuid)
    (hs : s.secrets.ptr .staging ≠ some id) (hs' : s'.secrets.ptr .staging = some id) :
    h.note s s' = h.noteStaged id := by
  have hst : changed .staging s s' = some id := by
    simp [changed, hs', Ne.symm hs]
  rw [note, hst]

theorem note_active {h : History} {s s' : Store} (id : Uuid)
    (hs : s'.secrets.ptr .staging = s.secrets.ptr .staging)
    (ha : s.secrets.ptr .active ≠ some id) (ha' : s'.secrets.ptr .active = some id) :
    h.note s s' = h.noteActive id := by
  have hst : changed .staging s s' = none := by simp [changed, hs]
  have hac : changed .active s s' = some id := by
    simp [changed, ha', Ne.symm ha]
  rw [note, hst, hac]

variable {h : History} {s s' : Store} {id : Uuid}

@[simp, grind =] theorem note_handshaken :
    (h.note s s').handshaken = h.handshaken := by
  unfold note
  split <;> rfl

/-- What was active stays noted. -/
theorem note_actives (hid : id ∈ h.actives) : id ∈ (h.note s s').actives := by
  unfold note
  split
  · exact hid
  · exact List.mem_cons_of_mem _ hid
  · exact hid

end History

/-! ## The invariant -/

/-- **The invariant of the store**, in terms of its history. -/
structure Integrity (s : Store) (h : History) : Prop where
  /-- The active generation is the last that became active. -/
  head : h.actives.head? = s.secrets.ptr .active
  /-- What became active had its handshake. -/
  activeHandshaken : ∀ id ∈ h.actives, id ∈ h.handshaken
  /-- A generation whose handshake started stays pending until it becomes
  active. -/
  handshakenPending : ∀ id, id ∈ h.handshaken →
    s.secrets.ptr .pending = some id ∨ id ∈ h.actives
  pendingStaging : ∀ id, s.secrets.ptr .pending = some id →
    s.secrets.ptr .staging = some id ∨ s.secrets.ptr .staging = none
  committedHandshaken : ∀ id, s.secrets.ptr .committed = some id → id ∈ h.handshaken
  /-- The committed generation is the pending one, or the active one whose
  activation is being finished. -/
  committed : ∀ id, s.secrets.ptr .committed = some id →
    (s.secrets.ptr .pending = some id ∧ id ∉ h.actives) ∨
      (s.secrets.ptr .active = some id ∧
        (s.secrets.ptr .staging = some id ∨ s.secrets.ptr .staging = none) ∧
        (s.secrets.ptr .pending = some id ∨ s.secrets.ptr .pending = none))
  stagingActive : ∀ id, s.secrets.ptr .staging = some id → id ∈ h.actives →
    s.secrets.ptr .active = some id ∧ s.secrets.ptr .committed = some id
  pendingActive : ∀ id, s.secrets.ptr .pending = some id → id ∈ h.actives →
    s.secrets.ptr .active = some id ∧ s.secrets.ptr .committed = some id
  retiringActive : ∀ id, s.secrets.ptr .retiring = some id → id ∈ h.actives
  /-- **Record and key** of every generation in use. -/
  kept : ∀ id, id ∈ h.handshaken → (id ∈ h.actives → s.secrets.ptr .active = some id) →
    s.secrets.gen id ≠ none ∧ s.keys (approvalKeyAlias id) ≠ none
  /-- What is staged or pending is newer than whatever was active. -/
  stagingNewer : ∀ id, s.secrets.ptr .staging = some id → id ∉ h.actives →
    ∀ a ∈ h.actives, h.Older a id
  pendingNewer : ∀ id, s.secrets.ptr .pending = some id → id ∉ h.actives →
    ∀ a ∈ h.actives, h.Older a id
  sorted : h.actives.Pairwise (fun newer older => h.Older older newer)
  handshakenStaged : ∀ id, id ∈ h.handshaken → h.order id ≠ none
  stagingStaged : ∀ id, s.secrets.ptr .staging = some id → h.order id ≠ none
  pendingStaged : ∀ id, s.secrets.ptr .pending = some id → h.order id ≠ none
  orderBelow : ∀ id n, h.order id = some n → n < h.count

/-- **When an operation may make its steps**: what is begun, stored or
aborted had no handshake yet, what is committed or activated had. -/
def History.Permitted (h : History) : StoreOp → Prop
  | .begin id => id ∉ h.handshaken
  | .store id => id ∉ h.handshaken
  | .abort id => id ∉ h.handshaken
  | .commit id => id ∈ h.handshaken
  | .activate id => id ∈ h.handshaken
  | _ => True

/-- Steps of the store do not change what is permitted. -/
theorem History.permitted_note {h : History} {s s' : Store} {op : StoreOp} :
    (h.note s s').Permitted op ↔ h.Permitted op := by
  cases op <;> simp only [Permitted, note_handshaken]

variable {s s' : Store} {h : History} {id : Uuid}

namespace Integrity

theorem empty : Integrity .empty .empty := by
  constructor <;> simp [Store.empty, History.empty, Secrets.ptr]

/-- A generation that is staged is newer than those staged before. -/
theorem older_staged (hi : Integrity s h) {x : Uuid} (hx : x ≠ id) (hst : h.order x ≠ none) :
    (h.noteStaged id).Older x id := by
  obtain ⟨n, hn⟩ := Option.ne_none_iff_exists'.mp hst
  exact ⟨n, h.count, by simp [History.noteStaged, hx, hn], by simp [History.noteStaged],
    hi.orderBelow x n hn⟩

/-- The active generation was active. -/
theorem active_mem (hi : Integrity s h) (ha : s.secrets.ptr .active = some id) :
    id ∈ h.actives :=
  List.mem_of_mem_head? (hi.head.trans ha)

/-- **Staging** a generation that had no handshake, with nothing pending
or committed. -/
theorem stage (hi : Integrity s h) (hid : id ∉ h.handshaken)
    (hp : s.secrets.ptr .pending = none) (hc : s.secrets.ptr .committed = none) :
    Integrity (s.save (.pointer .staging) id) (h.noteStaged id) := by
  have hne : ∀ a ∈ h.actives, a ≠ id := fun a ha h' => hid (h' ▸ hi.activeHandshaken a ha)
  have hnew : ∀ a ∈ h.actives, (h.noteStaged id).Older a id := fun a ha =>
    hi.older_staged (hne a ha) (hi.handshakenStaged a (hi.activeHandshaken a ha))
  obtain ⟨head, activeHandshaken, handshakenPending, pendingStaging, committedHandshaken,
    committed, stagingActive, pendingActive, retiringActive, kept, stagingNewer,
    pendingNewer, sorted, handshakenStaged, stagingStaged, pendingStaged, orderBelow⟩ := hi
  constructor
  case sorted =>
    exact sorted.imp_of_mem fun hx hy hxy =>
      (History.noteStaged_older h id (hne _ hy) (hne _ hx)).mpr hxy
  all_goals grind

/-- **The flip** to the pending and committed generation. -/
theorem flip (hi : Integrity s h) (ha : s.secrets.ptr .active ≠ some id)
    (hp : s.secrets.ptr .pending = some id) (hc : s.secrets.ptr .committed = some id) :
    Integrity (s.save (.pointer .active) id) (h.noteActive id) := by
  have hnot : id ∉ h.actives := by
    rcases hi.committed id hc with h' | h'
    · exact h'.2
    · exact absurd h'.1 ha
  have hhand : id ∈ h.handshaken := hi.committedHandshaken id hc
  have hnew : ∀ a ∈ h.actives, h.Older a id := hi.pendingNewer id hp hnot
  have hps := hi.pendingStaging id hp
  obtain ⟨head, activeHandshaken, handshakenPending, pendingStaging, committedHandshaken,
    committed, stagingActive, pendingActive, retiringActive, kept, stagingNewer,
    pendingNewer, sorted, handshakenStaged, stagingStaged, pendingStaged, orderBelow⟩ := hi
  constructor
  case sorted => exact List.pairwise_cons.mpr ⟨fun a ha => hnew a ha, sorted⟩
  case kept =>
    intro x hx hxa
    have hxid : x = id := by
      rcases handshakenPending x hx with h' | h'
      · grind
      · have := hxa (List.mem_cons_of_mem _ h')
        grind
    subst hxid
    simpa using kept x hx fun h' => absurd h' hnot
  all_goals grind

/-- **A pointer is cleared** after activation, the committed one last. -/
theorem finalize {p : Pointer} (hi : Integrity s h)
    (hpt : p = .staging ∨ p = .pending ∨ p = .committed)
    (ha : s.secrets.ptr .active = some id) (hc : s.secrets.ptr .committed = some id)
    (hp : s.secrets.ptr p = some id)
    (hlast : p = .committed →
      s.secrets.ptr .staging ≠ some id ∧ s.secrets.ptr .pending ≠ some id) :
    Integrity (s.delete (.pointer p)) h := by
  have hmem : id ∈ h.actives := hi.active_mem ha
  have hcom := hi.committed id hc
  obtain ⟨head, activeHandshaken, handshakenPending, pendingStaging, committedHandshaken,
    committed, stagingActive, pendingActive, retiringActive, kept, stagingNewer,
    pendingNewer, sorted, handshakenStaged, stagingStaged, pendingStaged, orderBelow⟩ := hi
  rcases hpt with rfl | rfl | rfl <;> constructor <;> grind

/-- **A pointer is dropped** that names a generation without handshake. -/
theorem dropPointer {p : Pointer} (hi : Integrity s h) (hpt : p = .staging ∨ p = .pending)
    (hd : ∀ id, s.secrets.ptr p = some id → id ∉ h.handshaken)
    (hc : s.secrets.ptr .committed = none) :
    Integrity (s.delete (.pointer p)) h := by
  obtain ⟨head, activeHandshaken, handshakenPending, pendingStaging, committedHandshaken,
    committed, stagingActive, pendingActive, retiringActive, kept, stagingNewer,
    pendingNewer, sorted, handshakenStaged, stagingStaged, pendingStaged, orderBelow⟩ := hi
  rcases hpt with rfl | rfl <;> constructor <;> grind

/-- **Publishing** a staged generation that had no handshake. -/
theorem publish (hi : Integrity s h) (hid : id ∉ h.handshaken)
    (hs : s.secrets.ptr .staging = some id) :
    Integrity (s.save (.pointer .pending) id) h := by
  have hnot : id ∉ h.actives := fun h' => hid (hi.activeHandshaken id h')
  obtain ⟨head, activeHandshaken, handshakenPending, pendingStaging, committedHandshaken,
    committed, stagingActive, pendingActive, retiringActive, kept, stagingNewer,
    pendingNewer, sorted, handshakenStaged, stagingStaged, pendingStaged, orderBelow⟩ := hi
  constructor <;> grind

/-- **Committing** the pending generation, whose handshake started. -/
theorem commit (hi : Integrity s h) (hid : id ∈ h.handshaken)
    (ha : s.secrets.ptr .active ≠ some id) (hp : s.secrets.ptr .pending = some id) :
    Integrity (s.save (.pointer .committed) id) h := by
  obtain ⟨head, activeHandshaken, handshakenPending, pendingStaging, committedHandshaken,
    committed, stagingActive, pendingActive, retiringActive, kept, stagingNewer,
    pendingNewer, sorted, handshakenStaged, stagingStaged, pendingStaged, orderBelow⟩ := hi
  constructor <;> grind

/-- **A step that leaves the pointers alone**, the retiring one apart,
keeps the invariant as long as the records and keys in use stay. -/
theorem other (hi : Integrity s h)
    (hp : ∀ p, p ≠ .retiring → s'.secrets.ptr p = s.secrets.ptr p)
    (hr : ∀ id, s'.secrets.ptr .retiring = some id →
      s.secrets.ptr .retiring = some id ∨ id ∈ h.actives)
    (hk : ∀ id, id ∈ h.handshaken → (id ∈ h.actives → s.secrets.ptr .active = some id) →
      s'.secrets.gen id ≠ none ∧ s'.keys (approvalKeyAlias id) ≠ none) :
    Integrity s' h := by
  have h₁ := hp .active (by simp)
  have h₂ := hp .staging (by simp)
  have h₃ := hp .pending (by simp)
  have h₄ := hp .committed (by simp)
  obtain ⟨head, activeHandshaken, handshakenPending, pendingStaging, committedHandshaken,
    committed, stagingActive, pendingActive, retiringActive, kept, stagingNewer,
    pendingNewer, sorted, handshakenStaged, stagingStaged, pendingStaged, orderBelow⟩ := hi
  constructor <;> grind

variable {op : StoreOp}

/-- What may be discarded had no handshake. -/
theorem discard (hi : Integrity s h) (hop : h.Permitted op) (hd : op.MayDiscard s.secrets)
    (hc : s.secrets.ptr .committed = none)
    (hid : s.secrets.ptr .staging = some id ∨ s.secrets.ptr .pending = some id) :
    id ∉ h.actives ∧ id ∉ h.handshaken := by
  have hact : id ∉ h.actives := by
    intro hmem
    rcases hid with hid | hid
    · simpa [hc] using (hi.stagingActive id hid hmem).2
    · simpa [hc] using (hi.pendingActive id hid hmem).2
  refine ⟨hact, fun hh => ?_⟩
  have hp : s.secrets.ptr .pending = some id := (hi.handshakenPending id hh).resolve_right hact
  cases op with
  | begin x => simp [show s.secrets.ptr .pending = none from hd] at hp
  | abort x =>
    have hx : id = x := hd.2 id hp
    exact hop (hx ▸ hh)
  | _ => exact hd.elim

/-- What may be deleted is an old generation, or one without a
handshake. -/
theorem deletable (hi : Integrity s h) (hop : h.Permitted op) (hd : Deletable op s.secrets id) :
    s.secrets.ptr .active ≠ some id ∧ (id ∈ h.actives ∨ id ∉ h.handshaken) := by
  refine ⟨hd.1, ?_⟩
  rcases hd.2 with hr | ⟨hc, hm, hid⟩
  · exact .inl (hi.retiringActive id hr)
  · exact .inr (hi.discard hop hm hc hid).2

/-- The handshake of a pending generation with record and key starts. -/
theorem handshake (hi : Integrity s h) (hp : s.secrets.ptr .pending = some id)
    (hr : s.secrets.gen id ≠ none) (hk : s.keys (approvalKeyAlias id) ≠ none) :
    Integrity s (h.noteHandshake id) := by
  have hst : h.order id ≠ none := hi.pendingStaged id hp
  obtain ⟨head, activeHandshaken, handshakenPending, pendingStaging, committedHandshaken,
    committed, stagingActive, pendingActive, retiringActive, kept, stagingNewer,
    pendingNewer, sorted, handshakenStaged, stagingStaged, pendingStaged, orderBelow⟩ := hi
  constructor
  case sorted => exact sorted
  all_goals grind

/-- A generation that lost its record or key after its handshake was
active, and a newer one is. -/
theorem newer_active (hi : Integrity s h) (hid : id ∈ h.handshaken)
    (hlost : s.secrets.gen id = none ∨ s.keys (approvalKeyAlias id) = none) :
    ∃ id', s.secrets.ptr .active = some id' ∧ h.Older id id' := by
  obtain ⟨hmem, hne⟩ : id ∈ h.actives ∧ s.secrets.ptr .active ≠ some id := by
    by_contra hcon
    have hk := hi.kept id hid (by tauto)
    rcases hlost with hlost | hlost
    · exact hk.1 hlost
    · exact hk.2 hlost
  have hhead := hi.head
  have hsorted := hi.sorted
  cases hact : h.actives with
  | nil => simp [hact] at hmem
  | cons x l =>
    rw [hact] at hhead hsorted hmem
    have ha : s.secrets.ptr .active = some x := by simpa using hhead.symm
    rcases List.mem_cons.mp hmem with rfl | hl
    · exact absurd ha hne
    · exact ⟨x, ha, (List.pairwise_cons.mp hsorted).1 id hl⟩

/-- Noting a handshake a second time changes nothing. -/
theorem handshake_again (hi : Integrity s h) (hid : id ∈ h.handshaken) :
    Integrity s (h.noteHandshake id) := by
  have hh : ∀ x, x ∈ (h.noteHandshake id).handshaken → x ∈ h.handshaken := by
    intro x hx
    rcases List.mem_cons.mp hx with rfl | hx
    · exact hid
    · exact hx
  exact { hi with
    activeHandshaken := fun x hx => List.mem_cons_of_mem _ (hi.activeHandshaken x hx)
    handshakenPending := fun x hx => hi.handshakenPending x (hh x hx)
    committedHandshaken := fun x hx => List.mem_cons_of_mem _ (hi.committedHandshaken x hx)
    kept := fun x hx => hi.kept x (hh x hx)
    handshakenStaged := fun x hx => hi.handshakenStaged x (hh x hx) }

variable [Crypto] {t : Nat}

/-- **What a permitted step does to a store**: the invariant holds of the
store after it and the history with the step noted. -/
theorem step (hi : Integrity s h) (hop : h.Permitted op) (hs : StoreStep t op s s') :
    Integrity s' (h.note s s') := by
  cases hs with
  | same =>
    rw [History.note_same (.inl rfl) rfl]
    exact hi
  | acquire =>
    rw [History.note_same (by exact .inl rfl) (by exact rfl)]
    exact { hi with }
  | release =>
    rw [History.note_same (by exact .inl rfl) (by exact rfl)]
    exact { hi with }
  | generate =>
    rw [History.note_same (by simp) (by simp)]
    exact { hi with kept := by grind [hi.kept] }
  | @stage id hsop hg hp hc hs =>
    subst hsop
    rw [History.note_staged id (by simp [hs]) (by simp)]
    exact hi.stage hop hp hc
  | @flip id hsop hg ha hold hp hc =>
    rw [History.note_active id (by simp) ha (by simp)]
    exact hi.flip ha hp hc
  | finalize hg hpt ha hc hp hlast =>
    rw [History.note_same (by rcases hpt with rfl | rfl | rfl <;> simp)
      (by rcases hpt with rfl | rfl | rfl <;> simp)]
    exact hi.finalize hpt ha hc hp hlast
  | discard hg hpt hc hd =>
    rw [History.note_same (by rcases hpt with rfl | rfl <;> simp)
      (by rcases hpt with rfl | rfl <;> simp)]
    refine hi.dropPointer hpt (fun id hid => (hi.discard hop hd hc ?_).2) hc
    rcases hpt with rfl | rfl
    · exact .inl hid
    · exact .inr hid
  | deleteKey hg hd =>
    have hd := hi.deletable hop hd
    rw [History.note_same (by simp) (by simp)]
    exact { hi with kept := by grind [hi.kept, approvalKeyAlias] }
  | deleteRecord hg hd =>
    have hd := hi.deletable hop hd
    rw [History.note_same (by simp) (by simp)]
    exact hi.other (by grind) (by grind) fun x hx hxa => by grind [hi.kept]
  | record =>
    rw [History.note_same (by simp) (by simp)]
    exact hi.other (by simp) (fun x hx => .inl (by simpa using hx))
      fun x hx hxa => ⟨by grind [hi.kept], (hi.kept x hx hxa).2⟩
  | publish hsop hg hs hr hv =>
    subst hsop
    rw [History.note_same (by simp) (by simp)]
    exact hi.publish hop hs
  | commit hsop hg ha hp hr hv =>
    subst hsop
    rw [History.note_same (by simp) (by simp)]
    exact hi.commit hop ha hp
  | retire hsop hg ha hne hp hc =>
    rw [History.note_same (by simp) (by simp)]
    exact hi.other (by grind) (by grind [hi.active_mem ha])
      fun x hx hxa => by simpa using hi.kept x hx hxa
  | clearRetiring =>
    rw [History.note_same (by simp) (by simp)]
    exact hi.other (by grind) (by grind) fun x hx hxa => by simpa using hi.kept x hx hxa
  | clearAttempts =>
    rw [History.note_same (by simp) (by simp)]
    exact hi.other (by grind) (by grind) fun x hx hxa => by simpa using hi.kept x hx hxa
  | saveAttempts =>
    rw [History.note_same (by simp) (by simp)]
    exact hi.other (by grind) (by grind) fun x hx hxa => by simpa using hi.kept x hx hxa

/-- **What is pending stays so** with its record and key, whatever step is
made, until it is aborted or has become active. -/
theorem pending_kept (hi : Integrity s h) (hs : StoreStep t op s s')
    (hp : s.secrets.ptr .pending = some id) (hid : id ∉ h.actives) (hop : op ≠ .abort id) :
    s'.secrets.ptr .pending = some id ∧
      (s'.secrets.gen id = s.secrets.gen id ∨ op = .store id ∧ s'.secrets.gen id ≠ none) ∧
      (s.keys (approvalKeyAlias id) ≠ none → s'.keys (approvalKeyAlias id) ≠ none) := by
  have hst := hi.pendingStaging id hp
  have hnoDiscard : ∀ {v : Secrets}, v.ptr .pending = some id → ¬ op.MayDiscard v := by
    intro v hv hd
    cases op with
    | begin x => simp [show v.ptr .pending = none from hd] at hv
    | abort x => exact hop (by rw [hd.2 id hv])
    | _ => exact hd
  have hnoDelete : ∀ x, Deletable op s.secrets x → x ≠ id := by
    rintro x ⟨-, hr | ⟨-, hd, -⟩⟩ rfl
    · exact hid (hi.retiringActive x hr)
    · exact hnoDiscard hp hd
  cases hs with
  | deleteKey hg hd => grind [approvalKeyAlias]
  | deleteRecord hg hd => grind
  | finalize hg hpt ha hc hp' hlast =>
    have := hi.active_mem ha
    grind
  | discard hg hpt hc hd => exact absurd hd (hnoDiscard hp)
  | _ => grind [approvalKeyAlias]

end Integrity

/-- **The active pointer only changes to the committed generation.** -/
theorem StoreStep.active [Crypto] {t : Nat} {op : StoreOp} (hs : StoreStep t op s s') :
    s'.secrets.ptr .active = s.secrets.ptr .active ∨
      ∃ id, s'.secrets.ptr .active = some id ∧ s.secrets.ptr .committed = some id := by
  cases hs with
  | flip hop hg ha hold hp hc => exact .inr ⟨_, by simp, hc⟩
  | finalize hg hpt => exact .inl (by rcases hpt with rfl | rfl | rfl <;> simp)
  | discard hg hpt => exact .inl (by rcases hpt with rfl | rfl <;> simp)
  | _ => exact .inl (by simp)

end Phone
