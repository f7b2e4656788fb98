import Ferusa.Lib.Prog

/-!
# A loop without a bound

A program is a finite tree, and a loop that goes on for as long as the
outside wants it to is none. What is a program is one **round**: it
returns a value, which leaves the loop, or none, and then there is another
round. A run of the loop (`Rounds`) is as many rounds as it takes, and
what holds before every round holds at its last one.
-/

namespace Prog

variable {C D : Type} {R : C → Type} {S : D → Type} {ε α σ τ : Type}

/-- **A run of a loop that ends**: in a round that leaves it, or in one
that fails. -/
inductive Rounds (exec : (c : C) → σ → R c → σ → Prop) (round : Prog R ε (Option α)) :
    σ → Except ε α → σ → Prop
  | leave {a s s'} (h : Outcome exec round s (.ok (some a)) s') : Rounds exec round s (.ok a) s'
  | fail {e s s'} (h : Outcome exec round s (.error e) s') : Rounds exec round s (.error e) s'
  | again {s t x s'} (h : Outcome exec round s (.ok none) t) (hrest : Rounds exec round t x s') :
      Rounds exec round s x s'

/-- **The loop rule**: what a round keeps, and what its last one makes of
it. -/
theorem Rounds.ends {exec : (c : C) → σ → R c → σ → Prop} {round : Prog R ε (Option α)}
    {I : σ → Prop} {Q : Except ε α → σ → Prop} {s s' : σ} {x : Except ε α}
    (h : Rounds exec round s x s') (hinit : I s)
    (hleave : ∀ {s a s'}, I s → Outcome exec round s (.ok (some a)) s' → Q (.ok a) s')
    (hfail : ∀ {s e s'}, I s → Outcome exec round s (.error e) s' → Q (.error e) s')
    (hagain : ∀ {s s'}, I s → Outcome exec round s (.ok none) s' → I s') : Q x s' := by
  induction h with
  | leave h => exact hleave hinit h
  | fail h => exact hfail hinit h
  | again h _ ih => exact ih (hagain hinit h)

/-- **The outcomes of a program that was sent to other commands** are its
own, where the other commands do to the state what its own do to a part
of it. -/
theorem Outcome.of_hoist {f : C → D} {g : (c : C) → S (f c) → R c}
    {exec : (d : D) → σ → S d → σ → Prop} {exec' : (c : C) → τ → R c → τ → Prop} (part : σ → τ)
    (hexec : ∀ c s r s', exec (f c) s r s' → exec' c (part s) (g c r) (part s'))
    {p : Prog R ε α} {s s' : σ} {x : Except ε α} (h : Outcome exec (p.hoist f g) s x s') :
    Outcome exec' p (part s) x (part s') := by
  induction p generalizing s with
  | ret a =>
    obtain ⟨rfl, rfl⟩ := Outcome.of_ret h
    exact .ret
  | fail e =>
    obtain ⟨rfl, rfl⟩ := Outcome.of_fail h
    exact .fail
  | call c k ih =>
    obtain ⟨r, t, hx, hk⟩ := Outcome.of_call h
    exact .call (hexec c s r t hx) (ih _ hk)

end Prog
