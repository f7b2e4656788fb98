import Ferusa.Lib.RelyGuarantee
import Ferusa.Core.Types

/-!
# Programs that fail as the source does

Programs whose errors are `anyhow` chains, with the words the source
uses for failing and for adding to an error.
-/

namespace Prog

variable {C : Type} {R : C → Type} {α : Type}

/-- `bail!`. -/
def bail (message : String) : Prog R Anyhow α := .fail [message]

/-- `Context::context`, on the result of a program. -/
def context (message : String) (p : Prog R Anyhow α) : Prog R Anyhow α :=
  p.mapError (message :: ·)

/-- `anyhow::ensure!`, and the early returns that read like it. -/
def ensure (check : Prop) [Decidable check] (message : String) : Prog R Anyhow Unit :=
  if check then .ret () else bail message

/-- `Option::context`. -/
def okOr (message : String) : Option α → Prog R Anyhow α
  | some a => .ret a
  | none => bail message

end Prog

namespace Logic

variable {C : Type} {R : C → Type} {σ α : Type} {L : Logic R σ} {P : σ → Prop}

theorem Triple.context {p : Prog R Anyhow α} {Q : α → σ → Prop} {F : σ → Prop}
    {message : String} (h : L.Triple P p Q (fun _ => F)) :
    L.Triple P (p.context message) Q (fun _ => F) :=
  Triple.mapError h

theorem Triple.bail {Q : α → σ → Prop} {F : σ → Prop} {message : String}
    (hP : L.Stable P) (h : ∀ s, L.inv s → P s → F s) :
    L.Triple P (Prog.bail message : Prog R Anyhow α) Q (fun _ => F) :=
  Triple.fail hP h

/-- A check passes where its condition holds. -/
theorem Triple.ensure {check : Prop} [Decidable check] {F : σ → Prop} {message : String}
    (hP : L.Stable P) (h : ∀ s, L.inv s → P s → ¬ check → F s) :
    L.Triple P (Prog.ensure check message : Prog R Anyhow Unit)
      (fun _ s => check ∧ P s) (fun _ => F) := by
  unfold Prog.ensure
  split
  · next hc => exact Triple.ret hP fun s _ hs => ⟨hc, hs⟩
  · next hc => exact Triple.fail hP fun s hi hs => h s hi hs hc

theorem Triple.okOr {a : Option α} {F : σ → Prop} {message : String}
    (hP : L.Stable P) (h : ∀ s, L.inv s → P s → a = none → F s) :
    L.Triple P (Prog.okOr message a : Prog R Anyhow α)
      (fun b s => a = some b ∧ P s) (fun _ => F) := by
  cases a with
  | some b => exact Triple.ret hP fun s _ hs => ⟨rfl, hs⟩
  | none => exact Triple.fail hP fun s hi hs => h s hi hs rfl

end Logic
