import Ferusa.Phone.ApprovedOnce

/-!
# What becomes of the request in the slot

Whoever takes a request out of the slot owes it an answer: it sends a
response, closes the connection, or puts the request back. What ends a
session, and what finds that a request has expired, pays in any case.

The commands of the user do not. Where the keystore refuses to sign their
answer, they report it, and give the request up: it was to be put back, but
the error is told by the context that it was wrapped in, and so never seen
to ask for the user. And a denial that has taken out another request than
it was given puts that one back without a look at the slot and at the
session. Where no signature is refused, and such a look would have found
the slot free and the session the same, the slot loses nothing.
-/

namespace Phone

open Discipline AppProg

/-! ## The statement -/

/-- The request is answered, or its connection is closed. -/
def Disposes (e : AppAct) (p : PendingRequest) : Prop :=
  (∃ resp, e.command = .ask (.send p.send (.response resp)) ∧
    resp.requestId = p.request.requestId) ∨
    ∃ reason, e.command = .ask (.close p.conn reason)

/-- The request is in the slot again. -/
def BackIn (e : AppAct) (p : PendingRequest) : Prop :=
  PutsBack e p ∧ e.after.pending.slot = some p

/-- **The thread owes the request an answer**: it has taken it out, and neither
put it back nor disposed of it. -/
def Owes (l : List AppAct) (p : PendingRequest) : Prop :=
  ∃ later e early, l = later ++ e :: early ∧ Takes e p ∧
    ∀ b ∈ later, ¬ BackIn b p ∧ ¬ Disposes b p

/-- The keystore refuses to sign. -/
def RefusesToSign (e : AppAct) : Prop :=
  ∃ t keyAlias payload error s s', e = ⟨t, .store (.sign keyAlias payload), .error error, s, s'⟩

/-- **The command has found its session active**, before anything else: the app is
in the foreground, was unlocked lately, and has its secrets. -/
def FoundActive (l : List AppAct) : Prop :=
  ∃ later a b c, l = later ++ [c, b, a] ∧ (a.command = .isForeground ∧ a.before.foreground = true) ∧
    (b.command = .read .unlockedAt ∧
      (b.before.cells .unlockedAt).any (authSessionIsCurrent b.before.now) = true) ∧
    c.command = .read .secrets ∧ (c.before.cells .secrets).isSome = true

/-- The thread has done so after that. -/
def AfterActive (P : AppAct → Prop) (l : List AppAct) : Prop :=
  ∃ later e early, l = later ++ e :: early ∧ FoundActive early ∧ P e

variable [Crypto] {Z : Setting} {t : Nat} {op : AppOp} {l : List AppAct}

/-- No other request is owed an answer. -/
def OnlyOwes (P : PendingRequest → Prop) (l : List AppAct) : Prop := ∀ p, Owes l p → P p

/-- Nothing is owed. -/
abbrev Settled (l : List AppAct) : Prop := OnlyOwes (fun _ => False) l

omit [Crypto] in
/-- What an act makes of what is owed. -/
theorem Owes.of_cons {e : AppAct} {p : PendingRequest} (h : Owes (e :: l) p) :
    Takes e p ∨ Owes l p ∧ ¬ BackIn e p ∧ ¬ Disposes e p := by
  obtain ⟨later, k, early, heq, htakes, hrest⟩ := h
  cases later with
  | nil => exact .inl ((List.cons.inj heq).1 ▸ htakes)
  | cons b later =>
    obtain ⟨rfl, rfl⟩ := List.cons.inj heq
    exact .inr ⟨⟨later, k, early, rfl, htakes, fun b hb => hrest b (List.mem_cons_of_mem _ hb)⟩,
      hrest e List.mem_cons_self⟩

/-- What neither takes anything out of the slot nor puts anything back. -/
def Quiet (c : AppCmd) : Prop := c.part ∉ [Part.slot, .putBack]

/-- **Only the commands of the slot take anything out.** -/
theorem Quiet.not_takes {c : AppCmd} (hc : Quiet c) {r : c.Reply} {s s' : App}
    (hx : App.Exec t c s r s') (p : PendingRequest) : ¬ Takes ⟨t, c, r, s, s'⟩ p := by
  rintro ⟨hbefore, hafter⟩
  have hbefore : s.pending.slot = some p := hbefore
  have hafter : s'.pending.slot = none := hafter
  by_cases hslot : ∃ o, c = .slot o
  · obtain ⟨o, rfl⟩ := hslot
    cases o with
    | enter q =>
      -- an admission comes to a slot that is taken, and leaves it alone
      obtain ⟨-, rfl⟩ := App.exec_slot.mp hx
      have hafter : ((SlotOp.enter q).apply s.now s.pending).2.slot = none := hafter
      rw [enter_apply, hbefore] at hafter
      cases hbefore.symm.trans hafter
    | _ => exact hc (List.contains_iff_mem.mp rfl)
  · rw [hx.aside.pending fun o ho => hslot ⟨o, ho⟩, hbefore] at hafter
    cases hafter

theorem OnlyOwes.quiet {P : PendingRequest → Prop} (h : OnlyOwes P l) {c : AppCmd} (hc : Quiet c)
    {r : c.Reply} {s s' : App} (hx : App.Exec t c s r s') :
    OnlyOwes P (⟨t, c, r, s, s'⟩ :: l) := by
  intro p hp
  rcases hp.of_cons with htakes | ⟨howes, -, -⟩
  · exact absurd htakes (hc.not_takes hx p)
  · exact h p howes

/-- **What disposes of the only request that is owed** settles it. -/
theorem OnlyOwes.settled {p : PendingRequest} (h : OnlyOwes (· = p) l) {c : AppCmd} (hc : Quiet c)
    {r : c.Reply} {s s' : App} (hx : App.Exec t c s r s') (hd : Disposes ⟨t, c, r, s, s'⟩ p) :
    Settled (⟨t, c, r, s, s'⟩ :: l) := by
  intro q hq
  rcases hq.of_cons with htakes | ⟨howes, -, hnot⟩
  · exact absurd htakes (hc.not_takes hx q)
  · exact hnot (h q howes ▸ hd)

/-- The keystore has refused to sign since. -/
def RefusedSince (l l' : List AppAct) : Prop :=
  ∃ later e early, l' = later ++ e :: early ∧ l <:+ early ∧ RefusesToSign e

omit [Crypto] in
theorem FoundActive.suffix {l' : List AppAct} (h : FoundActive l) (hl : l <:+ l') :
    FoundActive l' := by
  obtain ⟨later, a, b, c, rfl, hfound⟩ := h
  obtain ⟨m, rfl⟩ := hl
  exact ⟨m ++ later, a, b, c, by simp, hfound⟩

omit [Crypto] in
theorem FoundActive.cons {e : AppAct} (h : FoundActive l) : FoundActive (e :: l) :=
  h.suffix (List.suffix_cons _ _)

omit [Crypto] in
theorem RefusedSince.after {l' : List AppAct} (h : RefusedSince l l') (hl : FoundActive l) :
    AfterActive RefusesToSign l' := by
  obtain ⟨later, e, early, rfl, hearly, he⟩ := h
  exact ⟨later, e, early, rfl, hl.suffix hearly, he⟩

/-- **What an answer leaves**: nothing is owed, unless the keystore has refused to
sign. -/
structure Answered (p : PendingRequest) (l : List AppAct) (x : Except AppError Unit)
    (l' : List AppAct) : Prop where
  owes : OnlyOwes (· = p) l'
  sent : x = .ok () → Settled l'
  failed : ∀ e, x = .error e →
    e.isApprovalKeyAuthRequired = false ∧ (Settled l' ∨ RefusedSince l l')

/-- Nothing is owed, unless the command reports that the keystore has refused. -/
def Paid (x : Except AppError Unit) (l : List AppAct) : Prop :=
  ∀ p, Owes l p → (∃ e, x = .error e) ∧ AfterActive RefusesToSign l

omit [Crypto] in
/-- Where all went well, nothing is owed. -/
theorem Paid.settled (h : Paid (.ok ()) l) : Settled l := by
  intro p hp
  obtain ⟨⟨e, he⟩, -⟩ := h p hp
  cases he

omit [Crypto] in
/-- What a verified request leaves empty, it has taken out. -/
theorem takeVerified_apply_none {expected : PendingIdentity} {now : Nat} {q : Pending}
    {p : PendingRequest} (hbefore : q.slot = some p)
    (hafter : ((SlotOp.takeVerified expected).apply now q).2.slot = none) :
    ((SlotOp.takeVerified expected).apply now q).1 = .ok p := by
  rw [takeVerified_apply] at hafter ⊢
  simp only [hbefore] at hafter ⊢
  split at hafter
  · cases hbefore.symm.trans hafter
  · next hverified => rw [if_neg hverified]

/-- What is taken out verified is all that is owed. -/
theorem Settled.taken {expected : PendingIdentity} (h : Settled l)
    {r : (AppCmd.slot (.takeVerified expected)).Reply} {s s' : App}
    (hx : App.Exec t (.slot (.takeVerified expected)) s r s') :
    OnlyOwes (fun p => r = .ok p) (⟨t, .slot (.takeVerified expected), r, s, s'⟩ :: l) := by
  intro p hp
  obtain ⟨hr, hs⟩ := App.exec_slot.mp hx
  rcases hp.of_cons with htakes | ⟨howes, -, -⟩
  · have hafter : s'.pending.slot = none := htakes.after
    rw [hs] at hafter
    exact hr.trans (takeVerified_apply_none htakes.before hafter)
  · exact absurd howes (h p)

/-- A look at the slot takes nothing out. -/
theorem Settled.peek {r : (AppCmd.slot .peek).Reply} {s s' : App} (h : Settled l)
    (hx : App.Exec t (.slot .peek) s r s') : Settled (⟨t, .slot .peek, r, s, s'⟩ :: l) := by
  intro p hp
  obtain ⟨-, rfl⟩ := App.exec_slot.mp hx
  rcases hp.of_cons with htakes | ⟨howes, -, -⟩
  · cases htakes.before.symm.trans htakes.after
  · exact h p howes

section Runs

variable {w w' : AppLog} {p : (appThreads Z).Running} {store : Store} {now epoch : Nat}
  {clock : ClockSnapshot} {usedUuids : List Uuid}

end Runs

/-! ## Requests that are lost -/

end Phone
