import Ferusa.Lib.Sequence

/-!
# Programs that run operations

A program may run the operations of a script as parts of its own: one
after the other, each from its start to its end, whatever becomes of it,
and with commands of its own in between. Such a program `Hosts` the
script. What it does to the state of the script is then a run of it
(`Hosted.call`): the operations are not run in any other way than the
script lets them be run, so that what is certified of the script holds
of the program at every moment.

What is left of the program is read together with the operation under
way (`Hosted`). An operation is taken to start only when its first
command is due, and to have ended as soon as none is left.
-/

namespace Script

variable {C E : Type} {R : C → Type} {S : E → Type} {Op σ ε δ α β : Type}

/-- What is answered: to a command of an operation, or to one of the
program's own. -/
abbrev Answer (R : C → Type) (S : E → Type) : C ⊕ E → Type
  | .inl c => R c
  | .inr e => S e

/-- **An operation as a part**: it is run to its end, and how it ends is
what the program goes on with. -/
def part (p : Prog R δ β) : Prog (Answer R S) ε (Except δ β) :=
  p.attempt.hoist Sum.inl fun _ r => r

variable (script : Script R Op σ δ β)

/-- The operation may be run as a part: it may start anywhere, and
nothing is noted. -/
structure Free (op : Op) : Prop where
  start : ∀ s, script.start op s s
  finish : ∀ x s, script.finish op x s = s

/-- **A program that runs operations**, and looks at the state between
them. -/
inductive Hosts : Prog (Answer R S) ε α → Prop
  | ret (a : α) : Hosts (.ret a)
  | fail (e : ε) : Hosts (.fail e)
  | ask (e : E) {k : S e → Prog (Answer R S) ε α} (h : ∀ r, Hosts (k r)) :
      Hosts (.call (.inr e) k)
  | look {c : C} {k : R c → Prog (Answer R S) ε α}
      (hc : ∀ {s r s'}, script.exec c s r s' → s' = s) (h : ∀ r, Hosts (k r)) :
      Hosts (.call (.inl c) k)
  | op {op : Op} {k : Except δ β → Prog (Answer R S) ε α} (hop : script.Free op)
      (h : ∀ x, Hosts (k x)) : Hosts (part (script.program op) >>= k)

variable {script}

/-- **An operation alone.** -/
theorem Hosts.whole {op : Op} (hop : script.Free op) :
    script.Hosts (part (script.program op) : Prog (Answer R S) ε (Except δ β)) := by
  have hret : ∀ p : Prog (Answer R S) ε (Except δ β), p >>= Prog.ret = p := by
    intro p
    induction p with
    | ret a => rfl
    | fail e => rfl
    | call c k ih => exact congrArg (Prog.call c) (funext ih)
  rw [← hret (part _)]
  exact .op hop .ret

/-- **One program after the other.** -/
theorem Hosts.bind {γ : Type} {p : Prog (Answer R S) ε α}
    {f : α → Prog (Answer R S) ε γ} (hp : script.Hosts p) (hf : ∀ a, script.Hosts (f a)) :
    script.Hosts (p >>= f) := by
  induction hp with
  | ret a => exact hf a
  | fail e => exact .fail e
  | ask e _ ih => exact .ask e ih
  | look hc _ ih => exact .look hc ih
  | op hop _ ih =>
    rw [Prog.bind_assoc]
    exact .op hop ih

/-- Whatever becomes of it. -/
theorem Hosts.attempt {η : Type} {p : Prog (Answer R S) ε α} (hp : script.Hosts p) :
    script.Hosts (p.attempt : Prog (Answer R S) η (Except ε α)) := by
  induction hp with
  | ret a => exact .ret _
  | fail e => exact .ret _
  | ask e _ ih => exact .ask e ih
  | look hc _ ih => exact .look hc ih
  | @op op k hop _ ih =>
    have hattempt : ∀ q : Prog R δ β, ((part q >>= k).attempt : Prog (Answer R S) η _) =
        part q >>= fun x => (k x).attempt := by
      intro q
      induction q with
      | ret b => rfl
      | fail e => rfl
      | call c k' ihq => exact congrArg (Prog.call (Sum.inl c)) (funext ihq)
    rw [hattempt]
    exact .op hop ih

/-- **What is left of a program**, at a configuration of the script: the
operation under way is a part of it that has a command left, or none is
under way, and none is due. -/
inductive Hosted (script : Script R Op σ δ β) (s : σ) :
    Prog (Answer R S) ε α → Config R Op σ δ β → Prop
  | ret (a : α) : Hosted script s (.ret a) ⟨s, none⟩
  | fail (e : ε) : Hosted script s (.fail e) ⟨s, none⟩
  | ask (e : E) {k : S e → Prog (Answer R S) ε α} (h : ∀ r, script.Hosts (k r)) :
      Hosted script s (.call (.inr e) k) ⟨s, none⟩
  | look {c : C} {k : R c → Prog (Answer R S) ε α}
      (hc : ∀ {s r s'}, script.exec c s r s' → s' = s) (h : ∀ r, script.Hosts (k r)) :
      Hosted script s (.call (.inl c) k) ⟨s, none⟩
  | op {op : Op} {c : C} {q : R c → Prog R δ β} {k : Except δ β → Prog (Answer R S) ε α}
      (hop : ∀ x s, script.finish op x s = s) (h : ∀ x, script.Hosts (k x)) :
      Hosted script s (part (.call c q) >>= k) ⟨s, some (op, .call c q)⟩

theorem Hosted.state {s : σ} {p : Prog (Answer R S) ε α} {d : Config R Op σ δ β}
    (h : Hosted script s p d) : d.state = s := by
  cases h <;> rfl

/-- **The operation under way** comes to its next command, or to its end
and the program to what comes next. -/
theorem hosted_part {s : σ} {op : Op} {q : Prog R δ β}
    {k : Except δ β → Prog (Answer R S) ε α} (hop : ∀ x s, script.finish op x s = s)
    (h : ∀ x, script.Hosts (k x))
    (hk : ∀ x, ∃ d, script.Steps ⟨s, none⟩ d ∧ Hosted script s (k x) d) :
    ∃ d, script.Steps ⟨s, some (op, q)⟩ d ∧ Hosted script s (part q >>= k) d := by
  cases q with
  | ret b =>
    -- no command is left: the operation ends before the program goes on
    obtain ⟨d, hd, hhosted⟩ := hk (.ok b)
    have hend : script.Step ⟨s, some (op, .ret b)⟩ ⟨script.finish op (.ok b) s, none⟩ := .ret
    rw [hop] at hend
    exact ⟨d, .head hend hd, hhosted⟩
  | fail e =>
    obtain ⟨d, hd, hhosted⟩ := hk (.error e)
    have hend : script.Step ⟨s, some (op, .fail e)⟩ ⟨script.finish op (.error e) s, none⟩ := .fail
    rw [hop] at hend
    exact ⟨d, .head hend hd, hhosted⟩
  | call c k' => exact ⟨_, .refl, .op hop h⟩

/-- **A program that is to run** is hosted, once what is due has started. -/
theorem Hosts.hosted {p : Prog (Answer R S) ε α} (hp : script.Hosts p) (s : σ) :
    ∃ d, script.Steps ⟨s, none⟩ d ∧ Hosted script s p d := by
  induction hp with
  | ret a => exact ⟨_, .refl, .ret a⟩
  | fail e => exact ⟨_, .refl, .fail e⟩
  | ask e h _ => exact ⟨_, .refl, .ask e h⟩
  | look hc h _ => exact ⟨_, .refl, .look hc h⟩
  | op hop h ih =>
    obtain ⟨d, hd, hhosted⟩ := hosted_part hop.finish h ih
    exact ⟨d, .head (.start (hop.start s)) hd, hhosted⟩

/-- An operation that may start here comes first. -/
theorem hosted_op {s : σ} {op : Op} {k : Except δ β → Prog (Answer R S) ε α}
    (hstart : script.start op s s) (hfinish : ∀ x s, script.finish op x s = s)
    (h : ∀ x, script.Hosts (k x)) :
    ∃ d, script.Steps ⟨s, none⟩ d ∧ Hosted script s (part (script.program op) >>= k) d := by
  obtain ⟨d, hd, hhosted⟩ := hosted_part hfinish h fun x => (h x).hosted s
  exact ⟨d, .head (.start hstart) hd, hhosted⟩

/-- **A command of an operation** is put in a run of the script. -/
theorem Hosted.call {s s' : σ} {c : C} {k : R c → Prog (Answer R S) ε α}
    {d : Config R Op σ δ β} (h : Hosted script s (.call (.inl c) k) d) {r : R c}
    (hx : script.exec c s r s') : ∃ d', script.Steps d d' ∧ Hosted script s' (k r) d' := by
  generalize hp : (Prog.call (Sum.inl c) k : Prog (Answer R S) ε α) = p at h
  cases h with
  | ret a => cases hp
  | fail e => cases hp
  | ask e _ => cases hp
  | look hc hk =>
    obtain ⟨heq, hk'⟩ := Prog.call.inj hp
    obtain rfl := Sum.inl.inj heq
    obtain rfl := eq_of_heq hk'
    -- nothing is changed by a look, so the script need not move
    obtain rfl := hc hx
    exact (hk r).hosted s'
  | @op op c' q k' hop hk =>
    obtain ⟨hc, hq⟩ := Prog.call.inj hp
    obtain rfl := Sum.inl.inj hc
    obtain rfl := eq_of_heq hq
    obtain ⟨d, hd, hhosted⟩ := hosted_part hop hk fun x => (hk x).hosted s'
    exact ⟨d, .head (.call hx) hd, hhosted⟩

/-- **A command of the program's own** leaves the script where it is. -/
theorem Hosted.ask_call {s : σ} {e : E} {k : S e → Prog (Answer R S) ε α}
    {d : Config R Op σ δ β} (h : Hosted script s (.call (.inr e) k) d) (r : S e) :
    ∃ d', script.Steps d d' ∧ Hosted script s (k r) d' := by
  generalize hp : (Prog.call (Sum.inr e) k : Prog (Answer R S) ε α) = p at h
  cases h with
  | ret a => cases hp
  | fail e => cases hp
  | ask e' hk =>
    obtain ⟨he, hk'⟩ := Prog.call.inj hp
    obtain rfl := Sum.inr.inj he
    obtain rfl := eq_of_heq hk'
    exact (hk r).hosted s
  | look _ _ => cases hp
  | op _ _ => cases hp

end Script
