import Mathlib.Algebra.Group.End
import Mathlib.Logic.Equiv.Basic

/-!
# Shuffling by swaps

From the last index down, each place is swapped with one at or below it.
The indices that are chosen are one sequence of choices (`Choices`), and
what they do to the places is one permutation (`arrange`). Every
permutation comes from exactly one sequence (`existsUnique_arrange`): the
first choice is where the last place gets its element from, and the later
ones never touch that place.
-/

namespace Shuffle

open Equiv

/-- **The choices of a shuffle of `m` places**, the one for the last place
first; the first place has none. -/
def Choices : Nat → Type
  | 0 => Unit
  | 1 => Unit
  | m + 2 => Fin (m + 2) × Choices (m + 1)

/-- The indices that are chosen, in their order. -/
def Choices.toList : (m : Nat) → Choices m → List Nat
  | 0, _ => []
  | 1, _ => []
  | m + 2, c => c.1.val :: Choices.toList (m + 1) c.2

theorem Choices.toList_injective (m : Nat) : Function.Injective (Choices.toList m) := by
  induction m with
  | zero => exact fun _ _ _ => rfl
  | succ m ih =>
    cases m with
    | zero => exact fun _ _ _ => rfl
    | succ m =>
      intro c d h
      obtain ⟨hfirst, hrest⟩ := List.cons.inj h
      exact Prod.ext (Fin.ext hfirst) (ih hrest)

variable {n : Nat}

/-- **Where each of `n` places gets its element from**, when the first `m` of
them are shuffled. -/
def arrange : (m : Nat) → m ≤ n → Choices m → Perm (Fin n)
  | 0, _, _ => 1
  | 1, _, _ => 1
  | m + 2, h, c =>
    swap ⟨m + 1, h⟩ ⟨c.1.val, c.1.isLt.trans_le h⟩ * arrange (m + 1) (Nat.le_of_succ_le h) c.2

/-- The places from `m` on stay as they are. -/
theorem arrange_of_le {m : Nat} (h : m ≤ n) (c : Choices m) {k : Fin n} (hk : m ≤ k.val) :
    arrange m h c k = k := by
  induction m with
  | zero => rfl
  | succ m ih =>
    cases m with
    | zero => rfl
    | succ m =>
      have hrest : arrange (m + 1) (Nat.le_of_succ_le h) c.2 k = k :=
        ih _ c.2 (Nat.le_of_succ_le hk)
      rw [arrange, Perm.mul_apply, hrest]
      refine swap_apply_of_ne_of_ne (fun heq => ?_) fun heq => ?_
      · have hval : k.val = m + 1 := congrArg Fin.val heq
        omega
      · have hlt := c.1.isLt
        have hval : k.val = c.1.val := congrArg Fin.val heq
        omega

/-- The first choice is where the last place gets its element from. -/
theorem arrange_last {m : Nat} (h : m + 2 ≤ n) (c : Choices (m + 2)) :
    arrange (m + 2) h c ⟨m + 1, h⟩ = ⟨c.1.val, c.1.isLt.trans_le h⟩ := by
  rw [arrange, Perm.mul_apply, arrange_of_le _ c.2 (Nat.le_refl (m + 1)), swap_apply_left]

/-- **Each permutation of the first `m` places comes from one sequence of
choices.** -/
theorem existsUnique_arrange (m : Nat) (h : m ≤ n) (σ : Perm (Fin n))
    (hσ : ∀ k : Fin n, m ≤ k.val → σ k = k) : ∃! c : Choices m, arrange m h c = σ := by
  induction m generalizing σ with
  | zero =>
    refine ⟨(), ?_, fun _ _ => rfl⟩
    ext k
    rw [hσ k (Nat.zero_le _)]
    rfl
  | succ m ih =>
    cases m with
    | zero =>
      refine ⟨(), ?_, fun _ _ => rfl⟩
      -- the only place that is left is the image of itself
      show (1 : Perm (Fin n)) = σ
      ext k
      by_cases hk : 1 ≤ k.val
      · rw [hσ k hk]
        rfl
      · by_cases himage : 1 ≤ (σ k).val
        · have hsame : σ k = k := σ.injective (hσ (σ k) himage)
          rw [hsame]
          rfl
        · show k.val = (σ k).val
          omega
    | succ m =>
      have hlast : (σ ⟨m + 1, h⟩).val < m + 2 := by
        by_contra hge
        have hsame : σ ⟨m + 1, h⟩ = ⟨m + 1, h⟩ := σ.injective (hσ _ (Nat.le_of_not_lt hge))
        have hval : (σ ⟨m + 1, h⟩).val = m + 1 := congrArg Fin.val hsame
        omega
      have hrest : ∀ k : Fin n, m + 1 ≤ k.val → (swap ⟨m + 1, h⟩ (σ ⟨m + 1, h⟩) * σ) k = k := by
        intro k hk
        rw [Perm.mul_apply]
        by_cases hkm : k = ⟨m + 1, h⟩
        · rw [hkm, swap_apply_right]
        · have hne : k.val ≠ m + 1 := fun heq => hkm (Fin.ext heq)
          have hfix : σ k = k := hσ k (by omega)
          rw [hfix]
          refine swap_apply_of_ne_of_ne hkm fun heq => hkm (σ.injective ?_)
          rw [hfix, ← heq]
      obtain ⟨c, hc, huniq⟩ := ih (Nat.le_of_succ_le h) _ hrest
      refine ⟨(⟨(σ ⟨m + 1, h⟩).val, hlast⟩, c), ?_, fun d hd => ?_⟩
      · show swap ⟨m + 1, h⟩ (σ ⟨m + 1, h⟩) * arrange (m + 1) _ c = σ
        rw [hc, ← mul_assoc, swap_mul_self, one_mul]
      · have hfirst : (⟨d.1.val, d.1.isLt.trans_le h⟩ : Fin n) = σ ⟨m + 1, h⟩ := by
          rw [← arrange_last h d, hd]
        have hval : d.1.val = (σ ⟨m + 1, h⟩).val := congrArg Fin.val hfirst
        refine Prod.ext (Fin.ext hval) (huniq d.2 ?_)
        show _ = swap ⟨m + 1, h⟩ (σ ⟨m + 1, h⟩) * σ
        rw [← hd, arrange_last h d, arrange, ← mul_assoc, swap_mul_self, one_mul]

/-- **Sequences of choices and permutations are in bijection.** -/
theorem arrange_bijective (n : Nat) :
    Function.Bijective (arrange n (Nat.le_refl n) : Choices n → Perm (Fin n)) := by
  refine Function.bijective_iff_existsUnique _ |>.mpr fun σ => ?_
  exact existsUnique_arrange n _ σ fun k hk => absurd k.isLt (Nat.not_lt.mpr hk)

/-! ## Vectors -/

variable {α : Type}

/-- A vector with its elements in the places a permutation gets them from. -/
def permute (xs : Vector α n) (σ : Perm (Fin n)) : Vector α n := 
  Vector.ofFn fun k => xs.get (σ k)

theorem permute_one (xs : Vector α n) : permute xs 1 = xs := by
  ext k hk
  rw [permute, Vector.getElem_ofFn]
  rfl

/-- Two elements are swapped before the others move. -/
theorem permute_swap (xs : Vector α n) (i j : Nat) (hi : i < n) (hj : j < n) (σ : Perm (Fin n)) :
    permute (xs.swap i j) σ = permute xs (swap ⟨i, hi⟩ ⟨j, hj⟩ * σ) := by
  ext k hk
  rw [permute, permute, Vector.getElem_ofFn, Vector.getElem_ofFn, Perm.mul_apply, swap_apply_def]
  show (xs.swap i j)[(σ ⟨k, hk⟩).val] = _
  rw [Vector.getElem_swap]
  by_cases hki : σ ⟨k, hk⟩ = ⟨i, hi⟩
  · rw [if_pos hki, if_pos (congrArg Fin.val hki)]
    rfl
  · have hvi : (σ ⟨k, hk⟩).val ≠ i := fun h => hki (Fin.ext h)
    rw [if_neg hki, if_neg hvi]
    by_cases hkj : σ ⟨k, hk⟩ = ⟨j, hj⟩
    · rw [if_pos hkj, if_pos (congrArg Fin.val hkj)]
      rfl
    · have hvj : (σ ⟨k, hk⟩).val ≠ j := fun h => hkj (Fin.ext h)
      rw [if_neg hkj, if_neg hvj]
      rfl

theorem mem_permute {xs : Vector α n} {σ : Perm (Fin n)} {a : α} : a ∈ permute xs σ ↔ a ∈ xs := by
  rw [Vector.mem_iff_getElem, Vector.mem_iff_getElem]
  constructor
  · rintro ⟨k, hk, rfl⟩
    rw [permute, Vector.getElem_ofFn]
    exact ⟨_, (σ ⟨k, hk⟩).isLt, rfl⟩
  · rintro ⟨k, hk, rfl⟩
    refine ⟨(σ.symm ⟨k, hk⟩).val, (σ.symm ⟨k, hk⟩).isLt, ?_⟩
    rw [permute, Vector.getElem_ofFn]
    rw [apply_symm_apply]
    rfl

end Shuffle
