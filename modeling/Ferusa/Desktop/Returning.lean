import Ferusa.Desktop.PathsSpec

/-!
# What the programs on the data directory do when they return

The lemmas of `Ferusa.Desktop.PathsSpec` are about programs that may fail
anywhere. A program that returns has had every call answered, and what it
leaves can be said exactly, whatever was in the directory before: one lemma
for each function.
-/

namespace Desktop

open Directory

/-- **The program may return so**, its calls ending in any way they can. -/
abbrev Returns {α : Type} (p : FileProg α) (s : Files) (a : α) (s' : Files) : Prop :=
  Prog.Outcome (fun c s r s' => ∃ o, Files.exec c o s = some (r, s')) p s (.ok a) s'

section Returns

variable {α β : Type} {s s' : Files}

theorem Returns.of_bind {p : FileProg β} {f : β → FileProg α} {a : α}
    (h : Returns (p >>= f) s a s') : ∃ b t, Returns p s b t ∧ Returns (f b) t a s' := by
  obtain hok | ⟨e, -, he⟩ := Prog.Outcome.of_bind h
  · exact hok
  · cases he

theorem Returns.of_context {message : String} {p : FileProg α} {a : α}
    (h : Returns (p.context message) s a s') : Returns p s a s' := by
  obtain ⟨y, hy, ho⟩ := Prog.Outcome.of_mapError h
  cases y with
  | error e => cases hy
  | ok b =>
    obtain rfl := Except.ok.inj hy
    exact ho

/-- A system call of which the caller takes the result. -/
theorem Returns.of_fallible {message : String} {r : Except IoError α} {a : α}
    (h : Returns (fallible message r) s a s') : r = .ok a ∧ s' = s := by
  cases r with
  | error e => cases h.of_fail.1
  | ok b => exact ⟨congrArg Except.ok (Except.ok.inj h.of_ret.1).symm, h.of_ret.2⟩

theorem Returns.of_ensure {check : Prop} [Decidable check] {message : String} {u : Unit}
    (h : Returns (Prog.ensure check message) s u s') : check ∧ s' = s := by
  unfold Prog.ensure at h
  split at h
  · next hc => exact ⟨hc, h.of_ret.2⟩
  · cases h.of_fail.1

theorem Returns.of_pathExists {f : FileName} {b : Bool} (h : Returns (pathExists f) s b s') :
    b = (s.named f).isSome ∧ s' = s := by
  obtain ⟨r, t, ⟨o, ho⟩, hk⟩ := h.of_call
  obtain ⟨hb, rfl⟩ := hk.of_ret
  obtain rfl := Except.ok.inj hb
  cases o with
  | ok n =>
    obtain ⟨rfl, rfl⟩ : (s.named f).isSome = b ∧ s = s' := by simpa [Files.exec] using ho
    exact ⟨rfl, rfl⟩
  | fail e => cases ho

theorem Returns.of_readFile {message : String} {f : FileName} {contents : Content}
    (h : Returns (readFile message f) s contents s') : s' = s := by
  obtain ⟨r, t, ⟨o, ho⟩, hk⟩ := h.of_call
  obtain ⟨rfl, rfl⟩ := of_fallible hk
  cases o with
  | ok n =>
    cases hf : s.named f with
    | none => simp [Files.exec, hf] at ho
    | some contents' => exact (by simpa [Files.exec, hf] using ho : _ ∧ s = s').2.symm
  | fail e => simp [Files.exec] at ho

theorem Returns.of_quietCall {message : String} {c : QuietCmd} {u : Unit}
    (h : Returns (quietCall message c) s u s') : s' = s.quiet c := by
  obtain ⟨r, t, ⟨o, ho⟩, hk⟩ := h.of_call
  obtain ⟨rfl, rfl⟩ := of_fallible hk
  cases o with
  | ok n => exact (by simpa [Files.exec] using ho : s.quiet c = s').symm
  | fail e => simp [Files.exec] at ho

theorem Returns.of_fsyncParent {u : Unit} (h : Returns fsyncParent s u s') : s' = s.sync := by
  obtain ⟨r, t, ⟨o, ho⟩, hk⟩ := h.of_call
  obtain ⟨rfl, rfl⟩ := of_fallible hk
  cases o with
  | ok n => exact (by simpa [Files.exec] using ho : s.sync = s').symm
  | fail e => simp [Files.exec] at ho

theorem Returns.of_createTemp {f : FileName} {t : Temp} (h : Returns (createTemp f) s t s') :
    s' = s.setTemp t (some ⟨none, false⟩) := by
  obtain ⟨r, u, ⟨o, ho⟩, hk⟩ := h.of_call
  obtain ⟨rfl, rfl⟩ := of_fallible hk
  cases o with
  | ok n =>
    cases ht : s.temps ⟨f, n⟩ with
    | some file => simp [Files.exec, ht] at ho
    | none =>
      obtain ⟨rfl, rfl⟩ : ⟨f, n⟩ = t ∧ s.setTemp ⟨f, n⟩ (some ⟨none, false⟩) = s' := by
        simpa [Files.exec, ht] using ho
      rfl
  | fail e => simp [Files.exec] at ho

theorem Returns.of_renameTemp {t : Temp} {f : FileName} {u : Unit} {file : TempFile}
    (h : Returns (renameTemp t f) s u s') (ht : s.temps t = some file) :
    s' = (s.setTemp t none).change (.put f file.placed) := by
  obtain ⟨r, w, ⟨o, ho⟩, hk⟩ := h.of_call
  obtain ⟨rfl, rfl⟩ := of_fallible hk
  cases o with
  | ok n =>
    exact (by simpa [Files.exec, ht] using ho :
      (s.setTemp t none).change (.put f file.placed) = s').symm
  | fail e => simp [Files.exec] at ho

theorem Returns.of_renameFile {message : String} {f g : FileName} {u : Unit}
    (h : Returns (renameFile message f g) s u s') : s' = s.change (.move f g) := by
  obtain ⟨r, w, ⟨o, ho⟩, hk⟩ := h.of_call
  obtain ⟨rfl, rfl⟩ := of_fallible hk
  cases o with
  | ok n =>
    by_cases hf : (s.named f).isSome
    · exact (by simpa [Files.exec, hf] using ho : s.change (.move f g) = s').symm
    · simp [Files.exec, hf] at ho
  | fail e => simp [Files.exec] at ho

/-- **A file that was put in place has the contents it was written with**, and
the other files are what they were. -/
theorem Returns.of_writePrivateFile {f : FileName} {contents : Content} {u : Unit}
    (h : Returns (writePrivateFile f contents) s u s') :
    s'.named = s.named.put f contents := by
  obtain ⟨t, s₁, hcreate, h⟩ := h.of_bind
  obtain rfl := hcreate.of_createTemp
  obtain ⟨y, s₂, hwrite, h⟩ := Prog.Outcome.attempt_bind_iff.mp h
  cases y with
  | error e =>
    obtain ⟨r, s₃, -, h⟩ := Prog.Outcome.attempt_bind_iff.mp h
    cases h.of_fail.1
  | ok u =>
    obtain ⟨-, rfl⟩ := Prog.Outcome.of_ret h
    obtain ⟨u₁, t₁, h₁, h⟩ := Returns.of_bind hwrite
    obtain rfl := h₁.of_quietCall
    obtain ⟨u₂, t₂, h₂, h⟩ := h.of_bind
    obtain rfl := h₂.of_quietCall
    obtain ⟨u₃, t₃, h₃, h⟩ := h.of_bind
    obtain rfl := h₃.of_quietCall
    obtain ⟨u₄, t₄, h₄, h⟩ := h.of_bind
    -- the temporary file is written and synced when it is renamed
    have htemp : ((((s.setTemp t (some ⟨none, false⟩)).quiet (.writeAll t contents)).quiet
        (.syncAll t)).quiet (.restrictTemp t)).temps t = some ⟨some contents, true⟩ := by
      simp [Files.quiet]
    obtain rfl := h₄.of_renameTemp htemp
    rw [h.of_fsyncParent]
    rfl

theorem Returns.of_readPairingTransaction {txn : PairingTxnFile}
    (h : Returns readPairingTransaction s txn s') : s' = s := by
  obtain ⟨contents, t, hread, hk⟩ := h.of_bind
  rw [← hread.of_readFile]
  split at hk
  · cases hk.of_fail.1
  · obtain ⟨u, t', hcheck, hret⟩ := hk.of_bind
    rw [hret.of_ret.2, hcheck.of_ensure.2]

theorem Returns.of_requireRollback {message : String} {had : Bool} {f : FileName} {u : Unit}
    (h : Returns (requireRollback message had f) s u s') : s' = s := by
  unfold requireRollback at h
  split at h
  · obtain ⟨b, t, hexists, h⟩ := h.of_bind
    rw [h.of_ensure.2, hexists.of_pathExists.2]
  · exact h.of_ret.2

theorem Returns.of_promote {failed missing : String} {pending target : FileName} {u : Unit}
    (h : Returns (promote failed missing pending target) s u s') :
    s'.named = s.named.move pending target := by
  obtain ⟨b, t, hexists, h⟩ := h.of_bind
  obtain ⟨rfl, rfl⟩ := hexists.of_pathExists
  split at h
  · obtain ⟨u, t, hrename, h⟩ := h.of_bind
    rw [h.of_fsyncParent, hrename.of_renameFile]
    rfl
  · next hp =>
    obtain ⟨b, t, hexists, h⟩ := h.of_bind
    rw [h.of_ensure.2, hexists.of_pathExists.2,
      move_none (Option.not_isSome_iff_eq_none.mp hp)]

/-- **A promotion that returns has moved both pending files.** -/
theorem Returns.of_promotePendingPairing {u : Unit}
    (h : Returns promotePendingPairing s u s') : s'.named = s.named.promoted := by
  obtain ⟨txn, t, hread, hk⟩ := h.of_bind
  rw [← hread.of_readPairingTransaction]
  obtain ⟨u₁, t₁, h₁, hk⟩ := hk.of_bind
  rw [← h₁.of_ensure.2]
  obtain ⟨u₂, t₂, h₂, hk⟩ := hk.of_bind
  rw [← h₂.of_requireRollback]
  obtain ⟨u₃, t₃, h₃, hk⟩ := hk.of_bind
  rw [← h₃.of_requireRollback]
  obtain ⟨u₄, t₄, h₄, hk⟩ := hk.of_bind
  rw [hk.of_promote, h₄.of_promote]
  rfl

/-- A program whose calls are answered as they should returns. -/
theorem Returns.of_replay {α : Type} {p : FileProg α} {s s' : Files} {a : α} {n : Nat}
    (h : p.replay Files.exec (List.replicate n (.ok 0)) s = some (.ok a, s')) :
    Returns p s a s' :=
  Prog.Outcome.replay (fun _ o _ _ _ ho => ⟨o, ho⟩) h

end Returns

end Desktop
