import Mathlib.Data.List.Basic
import Mathlib.Data.String.Basic

/-!
# Cutting a text at a character

A text is cut at a character as the list of its characters is
(`String.splitOn_ofList`), so that what is true of lists may be used.
-/

namespace String

/-- The loop of `splitOn` for a separator of one character: `m` is the piece
that is being read, `r` what has not been read. -/
theorem splitOnAux_of_valid (sep : Char) (l m r : List Char) (acc : List String) :
    splitOnAux (ofList (l ++ m ++ r)) (ofList [sep]) ⟨utf8Len l⟩ ⟨utf8Len l + utf8Len m⟩ 0 acc =
      acc.reverse ++ (List.splitOnPPrepend (· == sep) r m.reverse).map ofList := by
  induction r generalizing l m acc with
  | nil =>
    have hend : (⟨utf8Len l + utf8Len m⟩ : Pos.Raw).atEnd (ofList (l ++ m ++ [])) = true := by
      rw [atEnd_iff, rawEndPos_ofList]
      simp only [List.append_nil, utf8Len_append, Pos.Raw.mk_le_mk, Nat.le_refl]
    unfold splitOnAux
    rw [if_pos hend, extract_of_valid]
    simp
  | cons c r ih =>
    have hend : ¬ (⟨utf8Len l + utf8Len m⟩ : Pos.Raw).atEnd (ofList (l ++ m ++ c :: r)) = true := by
      have hpos := Char.utf8Size_pos c
      rw [atEnd_iff, rawEndPos_ofList]
      simp only [utf8Len_append, utf8Len_cons, Pos.Raw.mk_le_mk]
      omega
    have hget : (⟨utf8Len l + utf8Len m⟩ : Pos.Raw).get (ofList (l ++ m ++ c :: r)) = c := by
      have := get_of_valid (l ++ m) (c :: r)
      rwa [utf8Len_append] at this
    have hnext : (⟨utf8Len l + utf8Len m⟩ : Pos.Raw).next (ofList (l ++ m ++ c :: r)) =
        ⟨utf8Len l + utf8Len m + c.utf8Size⟩ := by
      have := next_of_valid (l ++ m) c r
      rwa [utf8Len_append] at this
    have hsep : (0 : Pos.Raw).get (ofList [sep]) = sep := get_of_valid [] [sep]
    have hsepNext : (0 : Pos.Raw).next (ofList [sep]) = ⟨sep.utf8Size⟩ := by
      simpa using next_of_valid [] sep []
    have hsepEnd : (⟨sep.utf8Size⟩ : Pos.Raw).atEnd (ofList [sep]) = true := by
      rw [atEnd_iff, rawEndPos_ofList]
      simp
    unfold splitOnAux
    rw [if_neg hend, hget, hsep]
    simp only [hnext, hsepNext, hsepEnd, if_true]
    by_cases hc : c = sep
    · subst hc
      have hself : (c == c) = true := beq_self_eq_true c
      have hback : ((⟨utf8Len l + utf8Len m + c.utf8Size⟩ : Pos.Raw).unoffsetBy
          ⟨c.utf8Size⟩) = ⟨utf8Len l + utf8Len m⟩ := by
        simp [Pos.Raw.unoffsetBy]
      have hrest := ih (l ++ m ++ [c]) [] (ofList m :: acc)
      rw [if_pos hself, List.splitOnPPrepend_cons_pos (p := (· == c)) hself, hback,
        extract_of_valid]
      simpa [Nat.add_assoc] using hrest
    · have hne : (c == sep) = false := beq_eq_false_iff_ne.mpr hc
      have hback : ((⟨utf8Len l + utf8Len m⟩ : Pos.Raw).unoffsetBy 0) =
          ⟨utf8Len l + utf8Len m⟩ := by
        simp [Pos.Raw.unoffsetBy]
      have hrest := ih l (m ++ [c]) acc
      rw [hne, List.splitOnPPrepend_cons_neg (p := (· == sep)) hne, hback, hnext]
      simpa [Nat.add_assoc] using hrest

/-- **Cutting at a character** cuts the list of characters. -/
theorem splitOn_ofList (s : String) (c : Char) :
    s.splitOn (ofList [c]) = (s.toList.splitOn c).map ofList := by
  have h := splitOnAux_of_valid c [] [] s.toList []
  unfold splitOn
  rw [if_neg (by simp), List.splitOn_eq_splitOnP]
  simpa using h

end String

namespace List

variable {α : Type} [DecidableEq α]

/-- **What was joined with a separator and a filler is cut into its pieces**,
all but the first with the filler in front. -/
theorem splitOn_intercalate_pair {sep filler : α} (hne : filler ≠ sep) {a : List α}
    {ls : List (List α)} (h : ∀ l ∈ a :: ls, sep ∉ l) :
    ([sep, filler].intercalate (a :: ls)).splitOn sep = a :: ls.map (filler :: ·) := by
  induction ls generalizing a with
  | nil =>
    rw [splitOn_eq_splitOnP]
    simp only [intercalate, intersperse, flatten_cons, flatten_nil, append_nil, map_nil]
    refine splitOnP_eq_singleton fun x hx => beq_eq_false_iff_ne.mpr fun heq => ?_
    exact h a mem_cons_self (heq ▸ hx)
  | cons b ls ih =>
    have hjoin : [sep, filler].intercalate (a :: b :: ls) =
        a ++ sep :: (filler :: [sep, filler].intercalate (b :: ls)) := by
      simp [intercalate]
    have hrest := ih fun l hl => h l (mem_cons_of_mem _ hl)
    rw [splitOn_eq_splitOnP] at hrest ⊢
    have ha : a.splitOnP (· == sep) = [a] :=
      splitOnP_eq_singleton fun x hx => beq_eq_false_iff_ne.mpr fun heq =>
        h a mem_cons_self (heq ▸ hx)
    rw [hjoin, splitOnP_append_cons (p := (· == sep)) _ _ (beq_self_eq_true sep), ha,
      splitOnP_cons_eq_if_modifyHead, if_neg (by simpa using hne), hrest]
    rfl

end List
