import Mathlib.Tactic.Tauto
import Ferusa.Lib.RelyGuarantee
import Ferusa.Phone.Pin

/-!
# The pointers track what is stored

What an operation of the store has to do so that no record and no
approval key is left without a pointer that names its generation: before
the last pointer to a generation is dropped or saved over, another one
names it, or both the key and the record were deleted under the same
lock.

Beside the store stands what the holder of the lock has **swept**: the
generations whose approval key it has deleted since it took the lock.
Nobody reads it. A record is only written under the lock, so it stays
away once it was deleted; a key may be generated at any time, so of the
keys only this is said here.
-/

namespace Phone

open Logic StoreProg

/-- **A store, and what the holder of its lock has swept.** -/
structure Tracking where
  store : Store
  swept : List Uuid

/-- What was swept after a command. -/
def StoreCmd.sweeps : (c : StoreCmd) → c.Reply → List Uuid → List Uuid
  | .acquireGuard, _, _ => []
  | .deleteApprovalKey keyAlias, .ok _, swept => keyAlias.pairingId :: swept
  | _, _, swept => swept

/-- Another pointer names the generation. -/
def NamedBut (p : Pointer) (v : Secrets) (id : Uuid) : Prop :=
  ∃ q, q ≠ p ∧ v.ptr q = some id

/-- **The changes of the store, and what they presuppose.** -/
inductive TrackStep (t : Nat) : Tracking → Tracking → Prop
  | same {s d} : TrackStep t ⟨s, d⟩ ⟨s, d⟩
  | acquire {s d} (h : s.guard = none) : TrackStep t ⟨s, d⟩ ⟨{ s with guard := some t }, []⟩
  | release {s d} (h : s.guard = some t) : TrackStep t ⟨s, d⟩ ⟨{ s with guard := none }, d⟩
  | generate {s d keyAlias der} : TrackStep t ⟨s, d⟩ ⟨s.putKey keyAlias der, d⟩
  /-- A deletion that was reported to fail may have been done. -/
  | deleteKey {s d d' id} (hg : s.guard = some t) (hd : d' = d ∨ d' = id :: d) :
      TrackStep t ⟨s, d⟩ ⟨s.deleteKey (approvalKeyAlias id), d'⟩
  | record {s d id g} (hg : s.guard = some t) (hs : s.secrets.ptr .staging = some id) :
      TrackStep t ⟨s, d⟩ ⟨s.save (.generation id) g, d⟩
  | deleteRecord {s d id} (hg : s.guard = some t) :
      TrackStep t ⟨s, d⟩ ⟨s.delete (.generation id), d⟩
  | stage {s d id} (hg : s.guard = some t) (hs : s.secrets.ptr .staging = none)
      (hp : s.secrets.ptr .pending = none) :
      TrackStep t ⟨s, d⟩ ⟨s.save (.pointer .staging) id, d⟩
  | publish {s d id} (hg : s.guard = some t) (hs : s.secrets.ptr .staging = some id) :
      TrackStep t ⟨s, d⟩ ⟨s.save (.pointer .pending) id, d⟩
  | commit {s d id} (hg : s.guard = some t) (hp : s.secrets.ptr .pending = some id) :
      TrackStep t ⟨s, d⟩ ⟨s.save (.pointer .committed) id, d⟩
  | retire {s d old} (hg : s.guard = some t)
      (hr : ∀ z, s.secrets.ptr .retiring = some z → z = old) :
      TrackStep t ⟨s, d⟩ ⟨s.save (.pointer .retiring) old, d⟩
  | flip {s d id} (hg : s.guard = some t) (hc : s.secrets.ptr .committed = some id)
      (hold : ∀ z, s.secrets.ptr .active = some z → s.secrets.ptr .retiring = some z) :
      TrackStep t ⟨s, d⟩ ⟨s.save (.pointer .active) id, d⟩
  /-- **A pointer is dropped**: its generation is named by another one, or was
  swept, its record being gone. -/
  | drop {s d p} (hg : s.guard = some t) (ha : p ≠ .active)
      (hz : ∀ z, s.secrets.ptr p = some z →
        NamedBut p s.secrets z ∨ (s.secrets.gen z = none ∧ z ∈ d))
      (hp : p = .pending → ∀ y, s.secrets.ptr .committed = some y →
        s.secrets.ptr .active = some y) :
      TrackStep t ⟨s, d⟩ ⟨s.delete (.pointer p), d⟩
  | saveAttempts {s d kind v} (hg : s.guard = some t) :
      TrackStep t ⟨s, d⟩ ⟨s.save (.pinAttempts kind) v, d⟩
  | deleteAttempts {s d kind} (hg : s.guard = some t) :
      TrackStep t ⟨s, d⟩ ⟨s.delete (.pinAttempts kind), d⟩

namespace TrackStep

variable {t u : Nat} {x x' : Tracking}

/-- **Who does not hold the lock** changes nothing of what is stored, and
takes the lock only where nobody has it. -/
theorem other (h : TrackStep t x x') (hg : x.store.guard ≠ some t) :
    x'.store.secrets = x.store.secrets ∧
      (x'.store.guard = x.store.guard ∨
        x.store.guard = none ∧ x'.store.guard = some t ∧ x'.swept = []) := by
  cases h with
  | same => exact ⟨rfl, .inl rfl⟩
  | acquire hnone => exact ⟨rfl, .inr ⟨hnone, rfl, rfl⟩⟩
  | generate => exact ⟨rfl, .inl rfl⟩
  | release hg' => exact absurd hg' hg
  | deleteKey hg' => exact absurd hg' hg
  | record hg' => exact absurd hg' hg
  | deleteRecord hg' => exact absurd hg' hg
  | stage hg' => exact absurd hg' hg
  | publish hg' => exact absurd hg' hg
  | commit hg' => exact absurd hg' hg
  | retire hg' => exact absurd hg' hg
  | flip hg' => exact absurd hg' hg
  | drop hg' => exact absurd hg' hg
  | saveAttempts hg' => exact absurd hg' hg
  | deleteAttempts hg' => exact absurd hg' hg

/-- Whoever holds the lock afterwards has held it before, or has just taken
it. -/
theorem guard (h : TrackStep t x x') (hu : x'.store.guard = some u) :
    x.store.guard = some u ∨ u = t ∧ x'.swept = [] := by
  cases h with
  | acquire hnone => exact .inr ⟨(Option.some.inj hu).symm, rfl⟩
  | release => cases hu
  | _ => exact .inl hu

/-- What is swept now was swept before, or its key was deleted. -/
theorem swept (h : TrackStep t x x') {z : Uuid} (hz : z ∈ x'.swept) :
    z ∈ x.swept ∨ x'.store.keys (approvalKeyAlias z) = none := by
  cases h with
  | acquire => cases hz
  | @deleteKey s d d' id hg hd =>
    rcases hd with rfl | rfl
    · exact .inl hz
    · rcases List.mem_cons.mp hz with rfl | hz
      · exact .inr (by simp)
      · exact .inl hz
  | _ => exact .inl hz

end TrackStep

/-! ## What the pointers name -/

/-- **Some pointer names the generation.** -/
def Named (v : Secrets) (id : Uuid) : Prop := ∃ p, v.ptr p = some id

/-- There is a record of the generation, or an approval key. -/
def Store.Has (s : Store) (id : Uuid) : Prop :=
  s.secrets.gen id ≠ none ∨ s.keys (approvalKeyAlias id) ≠ none

/-- **All that is stored is named by a pointer**, with what keeps it so: what
is pending is what is staged, unless nothing is, and what is committed is
pending or active. -/
structure Pointed (s : Store) : Prop where
  named : ∀ id, s.Has id → Named s.secrets id
  pending : ∀ id, s.secrets.ptr .pending = some id →
    s.secrets.ptr .staging = none ∨ s.secrets.ptr .staging = some id
  committed : ∀ id, s.secrets.ptr .committed = some id →
    s.secrets.ptr .pending = some id ∨ s.secrets.ptr .active = some id

/-- Saving over a pointer leaves named what the pointer did not name alone. -/
theorem Named.put {v : Secrets} {z id : Uuid} {p : Pointer} (h : Named v z)
    (hp : v.ptr p = some z → z = id ∨ NamedBut p v z) :
    Named (v.put (.pointer p) id) z := by
  have hput : NamedBut p v z → Named (v.put (.pointer p) id) z :=
    fun ⟨q, hqp, hq⟩ => ⟨q, by simp [hqp, hq]⟩
  obtain ⟨q, hq⟩ := h
  by_cases hqp : q = p
  · subst hqp
    rcases hp hq with rfl | hbut
    · exact ⟨q, by simp⟩
    · exact hput hbut
  · exact hput ⟨q, hqp, hq⟩

theorem Store.has_save_pointer {s : Store} {p : Pointer} {id z : Uuid} :
    (s.save (.pointer p) id).Has z ↔ s.Has z := by
  simp [Store.Has]

/-- **Every change keeps it**, if what was swept has no key, and a key is only
generated for what is staged. -/
theorem Pointed.step {t : Nat} {x x' : Tracking} (h : Pointed x.store) (hs : TrackStep t x x')
    (hswept : x.store.guard = some t → ∀ z ∈ x.swept, x.store.keys (approvalKeyAlias z) = none)
    (hnew : ∀ z, x.store.keys (approvalKeyAlias z) = none →
      x'.store.keys (approvalKeyAlias z) ≠ none → x.store.secrets.ptr .staging = some z) :
    Pointed x'.store := by
  cases hs with
  | same => exact h
  | acquire => exact ⟨h.named, h.pending, h.committed⟩
  | release => exact ⟨h.named, h.pending, h.committed⟩
  | @generate s d keyAlias der =>
    refine ⟨fun id hid => ?_, h.pending, h.committed⟩
    by_cases hkey : s.keys (approvalKeyAlias id) = none
    · rcases hid with hid | hid
      · exact h.named id (.inl hid)
      · exact ⟨.staging, hnew id hkey hid⟩
    · exact h.named id (.inr hkey)
  | @deleteKey s d d' id hg hd =>
    refine ⟨fun z hz => h.named z (hz.imp_right fun hkey hnone => hkey ?_), h.pending,
      h.committed⟩
    show (s.deleteKey (approvalKeyAlias id)).keys (approvalKeyAlias z) = none
    rw [Store.deleteKey_keys, hnone, ite_self]
  | @record s d id g hg hs =>
    refine ⟨fun z hz => ?_, by simpa using h.pending, by simpa using h.committed⟩
    by_cases hzid : z = id
    · exact ⟨.staging, by simp [hzid, hs]⟩
    · obtain ⟨q, hq⟩ := h.named z (by simpa [Store.Has, hzid] using hz)
      exact ⟨q, by simpa using hq⟩
  | @deleteRecord s d id hg =>
    refine ⟨fun z hz => ?_, by simpa using h.pending, by simpa using h.committed⟩
    obtain ⟨q, hq⟩ := h.named z (hz.imp_left fun hgen hnone => hgen (by simp [hnone]))
    exact ⟨q, by simpa using hq⟩
  | @stage s d id hg hs hp =>
    refine ⟨fun z hz => ?_, by simp [hp], by simpa using h.committed⟩
    exact (h.named z (Store.has_save_pointer.mp hz)).put fun hz => by simp [hs] at hz
  | @publish s d id hg hs =>
    refine ⟨fun z hz => ?_, by simp [hs], fun y hy => ?_⟩
    · refine (h.named z (Store.has_save_pointer.mp hz)).put fun hz => .inl ?_
      rcases h.pending z hz with hnone | hsome
      · simp [hs] at hnone
      · exact Option.some.inj (hsome.symm.trans hs)
    · have hy : s.secrets.ptr .committed = some y := by simpa using hy
      rcases h.committed y hy with hpen | hact
      · rcases h.pending y hpen with hnone | hsome
        · simp [hs] at hnone
        · exact .inl (by simpa using hs.symm.trans hsome)
      · exact .inr (by simpa using hact)
  | @commit s d id hg hp =>
    refine ⟨fun z hz => ?_, by simpa using h.pending, by simp [hp]⟩
    refine (h.named z (Store.has_save_pointer.mp hz)).put fun hz => ?_
    rcases h.committed z hz with hpen | hact
    · exact .inl (Option.some.inj (hpen.symm.trans hp))
    · exact .inr ⟨.active, by simp, hact⟩
  | @retire s d old hg hr =>
    refine ⟨fun z hz => ?_, by simpa using h.pending, by simpa using h.committed⟩
    exact (h.named z (Store.has_save_pointer.mp hz)).put fun hz => .inl (hr z hz)
  | @flip s d id hg hc hold =>
    refine ⟨fun z hz => ?_, by simpa using h.pending, fun y hy => .inr ?_⟩
    · exact (h.named z (Store.has_save_pointer.mp hz)).put fun hz =>
        .inr ⟨.retiring, by simp, hold z hz⟩
    · have hy : s.secrets.ptr .committed = some y := by simpa using hy
      have hid : id = y := Option.some.inj (hc.symm.trans hy)
      simp [hid]
  | @drop s d p hg ha hz hp =>
    refine ⟨fun z hhas => ?_, fun z hpen => ?_, fun y hy => ?_⟩
    · have hhas : s.Has z := by simpa [Store.Has] using hhas
      have hbut : NamedBut p s.secrets z := by
        obtain ⟨q, hq⟩ := h.named z hhas
        by_cases hqp : q = p
        · rcases hz z (hqp ▸ hq) with hbut | ⟨hgen, hmem⟩
          · exact hbut
          · rcases hhas with hhas | hhas
            · exact absurd hgen hhas
            · exact absurd (hswept hg z hmem) hhas
        · exact ⟨q, hqp, hq⟩
      obtain ⟨q, hqp, hq⟩ := hbut
      exact ⟨q, by simp [hqp, hq]⟩
    · obtain ⟨-, hpen⟩ : ¬ .pending = p ∧ s.secrets.ptr .pending = some z := by
        simpa using hpen
      by_cases hps : p = .staging
      · exact .inl (by simp [hps])
      · simpa [Ne.symm hps] using h.pending z hpen
    · obtain ⟨-, hy⟩ : ¬ .committed = p ∧ s.secrets.ptr .committed = some y := by
        simpa using hy
      by_cases hpp : p = .pending
      · exact .inr (by simpa [hpp] using hp hpp y hy)
      · simpa [Ne.symm hpp, Ne.symm ha] using h.committed y hy
  | saveAttempts hg =>
    refine ⟨fun z hz => ?_, by simpa using h.pending, by simpa using h.committed⟩
    obtain ⟨q, hq⟩ := h.named z (by simpa [Store.Has] using hz)
    exact ⟨q, by simpa using hq⟩
  | deleteAttempts hg =>
    refine ⟨fun z hz => ?_, by simpa using h.pending, by simpa using h.committed⟩
    obtain ⟨q, hq⟩ := h.named z (by simpa [Store.Has] using hz)
    exact ⟨q, by simpa using hq⟩

/-! ## The logic -/

/-- **The setting of a program**: the others leave alone what is stored, and
what was swept, while this thread holds the lock. -/
def trackLogic (t : Nat) : Logic StoreCmd.Reply Tracking where
  exec c x r x' := (∃ o, Store.exec t c o x.store = some (r, x'.store)) ∧
    x'.swept = c.sweeps r x.swept
  inv _ := True
  rely x x' := x.store.guard = some t →
    x'.store.guard = some t ∧ x'.store.secrets = x.store.secrets ∧ x'.swept = x.swept
  guar := TrackStep t
  rely_refl _ h := ⟨h, rfl, rfl⟩
  rely_trans h₁ h₂ h := by
    obtain ⟨hg, hs, hd⟩ := h₁ h
    obtain ⟨hg', hs', hd'⟩ := h₂ hg
    exact ⟨hg', hs'.trans hs, hd'.trans hd⟩

/-- **The thread holds the lock**, knows what is stored, and what it has
swept. -/
structure Knows (t : Nat) (v : Secrets) (d : List Uuid) (x : Tracking) : Prop where
  guard : x.store.guard = some t
  secrets : x.store.secrets = v
  swept : x.swept = d

/-- The thread holds the lock. -/
def Holds (t : Nat) (x : Tracking) : Prop := ∃ v d, Knows t v d x

/-- **A program of the store tracks what it stores**, from a state where it
holds the lock to one where it still does. -/
abbrev Tracks {α : Type} (t : Nat) (P : Tracking → Prop) (p : StoreProg α)
    (Q : α → Tracking → Prop) : Prop :=
  (trackLogic t).Triple P p Q fun _ => Holds t

variable {α : Type} {t : Nat} {v : Secrets} {d : List Uuid}

theorem stable_knows (v : Secrets) (d : List Uuid) : (trackLogic t).Stable (Knows t v d) := by
  intro x x' _ h hr _
  obtain ⟨hg, hs, hd⟩ := hr h.guard
  exact ⟨hg, hs.trans h.secrets, hd.trans h.swept⟩

theorem Knows.holds {x : Tracking} (h : Knows t v d x) : Holds t x := ⟨v, d, h⟩

theorem stable_holds : (trackLogic t).Stable (Holds t) :=
  Stable.exists fun v => Stable.exists fun d => stable_knows v d

/-- What is known of what is stored and was swept. -/
theorem stable_knows_where (P : Secrets → List Uuid → Prop) :
    (trackLogic t).Stable fun x => ∃ v d, P v d ∧ Knows t v d x :=
  Stable.exists fun v => Stable.exists fun d => (Stable.const _ _).and (stable_knows v d)

theorem tracks_where {P : Secrets → List Uuid → Prop} {p : StoreProg α}
    {Q : α → Tracking → Prop} (h : ∀ v d, P v d → Tracks t (Knows t v d) p Q) :
    Tracks t (fun x => ∃ v d, P v d ∧ Knows t v d x) p Q :=
  Triple.exists fun v => Triple.exists fun d => Triple.given (h v d)

/-- A program that may start with whatever is stored. -/
theorem tracks_holds {p : StoreProg α} {Q : α → Tracking → Prop}
    (h : ∀ v d, Tracks t (Knows t v d) p Q) : Tracks t (Holds t) p Q :=
  Triple.exists fun v => Triple.exists fun d => h v d

theorem tracks_context {P : Tracking → Prop} {p : StoreProg α} {Q : α → Tracking → Prop}
    {message : String} (h : Tracks t P p Q) : Tracks t P (context message p) Q :=
  Triple.mapError h

theorem tracks_pure {a : α} {Q : α → Tracking → Prop} (h : ∀ x, Knows t v d x → Q a x) :
    Tracks t (Knows t v d) (pure a) Q :=
  Triple.pure (stable_knows v d) fun x _ hx => h x hx

theorem tracks_bail {message : String} {Q : α → Tracking → Prop} :
    Tracks t (Knows t v d) (bail message) Q :=
  Triple.fail (stable_knows v d) fun _ _ hx => hx.holds

theorem tracks_ofExcept {x : Except Anyhow α} :
    Tracks t (Knows t v d) (Prog.ofExcept x) fun a y => x = .ok a ∧ Knows t v d y :=
  Triple.ofExcept (stable_knows v d) (fun _ ha _ _ hy => ⟨ha, hy⟩) fun _ _ _ _ hy => hy.holds

/-- Catching the outcome of a program of which nothing is needed. -/
theorem tracks_attempt {P : Tracking → Prop} {p : StoreProg α} (h : Tracks t P p fun _ => Holds t) :
    Tracks t P p.attempt fun _ => Holds t :=
  Triple.attempt h

/-! ## The single commands -/

/-- **The reply of a command that may fail**: after an error only the lock is
known to be held. -/
theorem tracks_reply {β : Type} {c : StoreCmd} {f : c.Reply → Except String β} {message : String}
    {Q : β → Tracking → Prop} (hQ : ∀ b, (trackLogic t).Stable (Q b))
    (h : ∀ x r x', Knows t v d x → (trackLogic t).exec c x r x' → TrackStep t x x' ∧
      Holds t x' ∧ ∀ b, f r = .ok b → Q b x') :
    Tracks t (Knows t v d) (do
      let r ← Prog.perform c
      fallible message (f r)) Q := by
  refine Triple.perform_bind (M := fun r x => Holds t x ∧ ∀ b, f r = .ok b → Q b x)
    (stable_knows v d) (fun x r x' _ hx hr => h x r x' hx hr) fun r => ?_
  have hM : (trackLogic t).Stable fun x => Holds t x ∧ ∀ b, f r = .ok b → Q b x :=
    stable_holds.and (Stable.forall fun b => Stable.imp fun _ => hQ b)
  cases hf : f r with
  | ok b => exact Triple.ret (hf ▸ hM) fun x _ hx => hx.2 b rfl
  | error e => exact Triple.fail (hf ▸ hM) fun x _ hx => hx.1

/-- A command that is acknowledged was done; one that fails may have been. -/
theorem exec_save_cases {s s' : Store} {o : StoreChoice} {k : Key} {value : k.Val}
    {r : Except String Unit} (h : Store.exec t (.save k value) o s = some (r, s')) :
    s' = s.save k value ∨ (s' = s ∧ ∃ e, r = .error e) := by
  cases o with
  | ok b => exact .inl (Prod.mk.inj (Option.some.inj h)).2.symm
  | fail e =>
    obtain ⟨hr, hs⟩ := Prod.mk.inj (Option.some.inj h)
    exact .inr ⟨hs.symm, e, hr.symm⟩
  | failApplied b e => exact .inl (Prod.mk.inj (Option.some.inj h)).2.symm

theorem exec_delete_cases {s s' : Store} {o : StoreChoice} {k : Key} {r : Except String Unit}
    (h : Store.exec t (.delete k) o s = some (r, s')) :
    s' = s.delete k ∨ (s' = s ∧ ∃ e, r = .error e) := by
  cases o with
  | ok b => exact .inl (Prod.mk.inj (Option.some.inj h)).2.symm
  | fail e =>
    obtain ⟨hr, hs⟩ := Prod.mk.inj (Option.some.inj h)
    exact .inr ⟨hs.symm, e, hr.symm⟩
  | failApplied b e => exact .inl (Prod.mk.inj (Option.some.inj h)).2.symm

theorem exec_deleteApprovalKey_cases {s s' : Store} {o : StoreChoice} {keyAlias : ApprovalAlias}
    {r : Except String Unit} (h : Store.exec t (.deleteApprovalKey keyAlias) o s = some (r, s')) :
    s' = s.deleteKey keyAlias ∨ (s' = s ∧ ∃ e, r = .error e) := by
  cases o with
  | ok b => exact .inl (Prod.mk.inj (Option.some.inj h)).2.symm
  | fail e =>
    obtain ⟨hr, hs⟩ := Prod.mk.inj (Option.some.inj h)
    exact .inr ⟨hs.symm, e, hr.symm⟩
  | failApplied b e => exact .inl (Prod.mk.inj (Option.some.inj h)).2.symm

theorem exec_generateApprovalKey_cases {s s' : Store} {o : StoreChoice}
    {keyAlias : ApprovalAlias} {r : Except String Bytes}
    (h : Store.exec t (.generateApprovalKey keyAlias) o s = some (r, s')) :
    s' = s ∨ ∃ der, s' = s.putKey keyAlias der := by
  cases o with
  | ok b => exact .inr ⟨b, (Prod.mk.inj (Option.some.inj h)).2.symm⟩
  | fail e => exact .inl (Prod.mk.inj (Option.some.inj h)).2.symm
  | failApplied b e => exact .inr ⟨b, (Prod.mk.inj (Option.some.inj h)).2.symm⟩

theorem exec_get_same {s s' : Store} {o : StoreChoice} {k : Key}
    {r : Except String (Option k.Val)} (h : Store.exec t (.get k) o s = some (r, s')) :
    s' = s ∧ ∀ a, r = .ok a → a = s.secrets k := by
  cases o with
  | ok b =>
    obtain ⟨hr, hs⟩ := Prod.mk.inj (Option.some.inj h)
    exact ⟨hs.symm, fun a ha => (Except.ok.inj (hr.trans ha)).symm⟩
  | fail e =>
    obtain ⟨hr, hs⟩ := Prod.mk.inj (Option.some.inj h)
    exact ⟨hs.symm, fun a ha => by cases hr.trans ha⟩
  | failApplied b e => cases h

theorem exec_sign_same {s s' : Store} {o : StoreChoice} {keyAlias : ApprovalAlias}
    {payload : String} {r : Except String Bytes}
    (h : Store.exec t (.sign keyAlias payload) o s = some (r, s')) : s' = s := by
  cases o with
  | ok b =>
    have h : (if (s.keys keyAlias).isSome then some (Except.ok b, s) else none) =
        some (r, s') := h
    split at h
    · exact (Prod.mk.inj (Option.some.inj h)).2.symm
    · cases h
  | fail e => exact (Prod.mk.inj (Option.some.inj h)).2.symm
  | failApplied b e => cases h

/-- **A key comes into being** by being generated. -/
theorem generates_of_exec {c : StoreCmd} {o : StoreChoice} {s s' : Store} {r : c.Reply}
    {keyAlias : ApprovalAlias} (h : Store.exec t c o s = some (r, s'))
    (hold : s.keys keyAlias = none) (hnew : s'.keys keyAlias ≠ none) :
    c = .generateApprovalKey keyAlias := by
  have hsame : s'.keys keyAlias ≠ s.keys keyAlias := fun h => hnew (h.trans hold)
  cases c with
  | acquireGuard => exact absurd (by rw [(Store.exec_acquireGuard h).2]) hsame
  | releaseGuard => exact absurd (by rw [(Store.exec_releaseGuard h).2]) hsame
  | save k value =>
    rcases exec_save_cases h with hs | ⟨hs, -⟩
    · exact absurd (by rw [hs, Store.save_keys]) hsame
    · exact absurd (by rw [hs]) hsame
  | get k => exact absurd (by rw [(exec_get_same h).1]) hsame
  | delete k =>
    rcases exec_delete_cases h with hs | ⟨hs, -⟩
    · exact absurd (by rw [hs, Store.delete_keys]) hsame
    · exact absurd (by rw [hs]) hsame
  | sign other payload => exact absurd (by rw [exec_sign_same h]) hsame
  | generateApprovalKey other =>
    rcases exec_generateApprovalKey_cases h with hs | ⟨der, hs⟩
    · exact absurd (by rw [hs]) hsame
    · by_cases hother : keyAlias = other
      · rw [hother]
      · exact absurd (by rw [hs, Store.putKey_keys, if_neg hother]) hsame
  | deleteApprovalKey other =>
    rcases exec_deleteApprovalKey_cases h with hs | ⟨hs, -⟩
    · rw [hs, Store.deleteKey_keys, hold, ite_self] at hnew
      exact absurd rfl hnew
    · exact absurd (by rw [hs]) hsame

/-- **Reading.** -/
theorem getEntry_tracks (k : Key) : Tracks t (Knows t v d) (getEntry k)
    fun a x => a = v k ∧ Knows t v d x := by
  refine tracks_reply (c := .get k) (f := fun r => r)
    (fun a => (Stable.const _ _).and (stable_knows v d)) ?_
  rintro ⟨s, d₁⟩ r ⟨s', d₂⟩ hx ⟨⟨o, ho⟩, hd⟩
  obtain ⟨hs, hr⟩ := exec_get_same ho
  have hs : s' = s := hs
  have hd : d₂ = d₁ := hd
  subst hs hd
  exact ⟨.same, hx.holds, fun a ha => ⟨(hr a ha).trans (congrFun hx.secrets k), hx⟩⟩

/-- **A save.** -/
theorem saveEntry_tracks {k : Key} {value : k.Val}
    (h : ∀ x, Knows t v d x → TrackStep t x ⟨x.store.save k value, x.swept⟩) :
    Tracks t (Knows t v d) (saveEntry k value) fun _ => Knows t (v.put k value) d := by
  refine tracks_reply (c := .save k value) (f := fun r => r)
    (fun _ => stable_knows (v.put k value) d) ?_
  rintro ⟨s, d₁⟩ r ⟨s', d₂⟩ hx ⟨⟨o, ho⟩, hd⟩
  have hd : d₂ = d₁ := hd
  subst hd
  have hsaved : Knows t (v.put k value) d ⟨s.save k value, d₂⟩ :=
    ⟨hx.guard, congrArg (Secrets.put · k value) hx.secrets, hx.swept⟩
  rcases exec_save_cases ho with hs | ⟨hs, e, hr⟩
  · have hs : s' = s.save k value := hs
    subst hs
    exact ⟨h _ hx, hsaved.holds, fun _ _ => hsaved⟩
  · have hs : s' = s := hs
    subst hs
    exact ⟨.same, hx.holds, fun _ hok => by cases hr.symm.trans hok⟩

/-- **A deletion.** -/
theorem deleteEntry_tracks {k : Key}
    (h : ∀ x, Knows t v d x → TrackStep t x ⟨x.store.delete k, x.swept⟩) :
    Tracks t (Knows t v d) (deleteEntry k) fun _ => Knows t (v.remove k) d := by
  refine tracks_reply (c := .delete k) (f := fun r => r)
    (fun _ => stable_knows (v.remove k) d) ?_
  rintro ⟨s, d₁⟩ r ⟨s', d₂⟩ hx ⟨⟨o, ho⟩, hd⟩
  have hd : d₂ = d₁ := hd
  subst hd
  have hdeleted : Knows t (v.remove k) d ⟨s.delete k, d₂⟩ :=
    ⟨hx.guard, congrArg (Secrets.remove · k) hx.secrets, hx.swept⟩
  rcases exec_delete_cases ho with hs | ⟨hs, e, hr⟩
  · have hs : s' = s.delete k := hs
    subst hs
    exact ⟨h _ hx, hdeleted.holds, fun _ _ => hdeleted⟩
  · have hs : s' = s := hs
    subst hs
    exact ⟨.same, hx.holds, fun _ hok => by cases hr.symm.trans hok⟩

/-- **The deletion of an approval key** sweeps its generation. -/
theorem deleteApprovalKey_tracks (id : Uuid) :
    Tracks t (Knows t v d) (deleteApprovalKey (approvalKeyAlias id))
      fun _ => Knows t v (id :: d) := by
  refine tracks_reply (c := .deleteApprovalKey (approvalKeyAlias id)) (f := fun r => r)
    (fun _ => stable_knows v (id :: d)) ?_
  rintro ⟨s, d₁⟩ r ⟨s', d₂⟩ hx ⟨⟨o, ho⟩, hd⟩
  have hsecrets : s'.secrets = s.secrets ∧ s'.guard = s.guard := by
    rcases exec_deleteApprovalKey_cases ho with hs | ⟨hs, -⟩
    · rw [show s' = _ from hs]
      exact ⟨rfl, rfl⟩
    · rw [show s' = _ from hs]
      exact ⟨rfl, rfl⟩
  have hd' : d₂ = d₁ ∨ d₂ = id :: d₁ := by
    cases r with
    | ok u => exact .inr hd
    | error e => exact .inl hd
  refine ⟨?_, ⟨v, d₂, hsecrets.2.trans hx.guard, hsecrets.1.trans hx.secrets, rfl⟩, ?_⟩
  · rcases exec_deleteApprovalKey_cases ho with hs | ⟨hs, e, hr⟩
    · have hs : s' = s.deleteKey (approvalKeyAlias id) := hs
      subst hs
      exact .deleteKey hx.guard hd'
    · have hs : s' = s := hs
      have hr : r = .error e := hr
      subst hs hr
      have hd : d₂ = d₁ := hd
      subst hd
      exact .same
  · intro u hr
    have hr : r = .ok u := hr
    subst hr
    exact ⟨hsecrets.2.trans hx.guard, hsecrets.1.trans hx.secrets,
      (show d₂ = id :: d₁ from hd).trans (congrArg _ hx.swept)⟩

theorem signApproval_tracks {keyAlias : ApprovalAlias} {payload : String} :
    Tracks t (Knows t v d) (signApproval keyAlias payload) fun _ => Knows t v d := by
  refine tracks_reply (c := .sign keyAlias payload) (f := fun r => r)
    (fun _ => stable_knows v d) ?_
  rintro ⟨s, d₁⟩ r ⟨s', d₂⟩ hx ⟨⟨o, ho⟩, hd⟩
  have hs : s' = s := exec_sign_same ho
  have hd : d₂ = d₁ := hd
  subst hs hd
  exact ⟨.same, hx.holds, fun _ _ => hx⟩

end Phone
