import Mathlib.Data.Multiset.AddSub
import Mathlib.Logic.Function.Basic

/-!
# A tally of tokens

A map from keys to numbers tallies a multiset of keys when it holds the
number of times each key occurs, and holds nothing for a key that does not
occur. Counting one more occurrence up, and one down, keeps it a tally.
-/

namespace Tally

variable {κ : Type} [DecidableEq κ]

/-- **The map tallies the keys**: it names those that occur, each with the
number of its occurrences. -/
def Tallies (counts : κ → Option Nat) (keys : Multiset κ) : Prop :=
  ∀ k, counts k = if k ∈ keys then some (keys.count k) else none

variable {counts : κ → Option Nat} {keys : Multiset κ} {k : κ}

theorem Tallies.empty : Tallies (fun _ : κ => none) 0 := by
  intro k
  rw [if_neg (Multiset.notMem_zero k)]

/-- What is read for a key is the number of its occurrences. -/
theorem Tallies.getD (h : Tallies counts keys) (k : κ) : (counts k).getD 0 = keys.count k := by
  rw [h k]
  split
  · rfl
  · next hk => exact (Multiset.count_eq_zero_of_notMem hk).symm

theorem Tallies.isSome_iff (h : Tallies counts keys) (k : κ) :
    (counts k).isSome = true ↔ k ∈ keys := by
  rw [h k]
  split <;> simp_all

/-- **One more occurrence** is counted up. -/
theorem Tallies.cons (h : Tallies counts keys) (k : κ) :
    Tallies (Function.update counts k (some ((counts k).getD 0 + 1))) (k ::ₘ keys) := by
  intro j
  by_cases hj : j = k
  · subst hj
    rw [Function.update_self, if_pos (Multiset.mem_cons_self j keys), h.getD,
      Multiset.count_cons_self]
  · rw [Function.update_of_ne hj, h j, Multiset.count_cons_of_ne hj]
    simp [Multiset.mem_cons, hj]

/-- **One occurrence less** is counted down, and the last one is removed. -/
theorem Tallies.erase (h : Tallies counts keys) (hk : k ∈ keys) :
    Tallies (Function.update counts k
      (if keys.count k - 1 = 0 then none else some (keys.count k - 1))) (keys.erase k) := by
  intro j
  by_cases hj : j = k
  · subst hj
    rw [Function.update_self, Multiset.count_erase_self]
    by_cases hlast : keys.count j - 1 = 0
    · have hnot : j ∉ keys.erase j := by
        rw [← Multiset.count_eq_zero, Multiset.count_erase_self]
        exact hlast
      rw [if_pos hlast, if_neg hnot]
    · have hmem : j ∈ keys.erase j := by
        rw [← Multiset.count_pos, Multiset.count_erase_self]
        exact Nat.pos_of_ne_zero hlast
      rw [if_neg hlast, if_pos hmem]
  · rw [Function.update_of_ne hj, h j, Multiset.count_erase_of_ne hj]
    simp [Multiset.mem_erase_of_ne hj]

/-- A key that occurs is found under the number of its occurrences. -/
theorem Tallies.of_mem (h : Tallies counts keys) (hk : k ∈ keys) :
    counts k = some (keys.count k) := by
  rw [h k, if_pos hk]

end Tally
