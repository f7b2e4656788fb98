import Mathlib.Data.List.Chain

/-!
# The words of a line

A line is cut at its blanks, whatever the run of blanks between two words
is, and the words can be put back together with one blank each. This
module says when nothing is lost on the way (`glue_words`), and that what
is put back together is always of that kind (`tidy_glue_words`).
-/

namespace Words

variable {α : Type} (blank : α → Bool)

/-- **The words** of a line: the pieces between its blanks that are not
empty. -/
def words (l : List α) : List (List α) := (l.splitOnP blank).filter fun w => !w.isEmpty

/-- Words put back together, with one separator between two. -/
def glue (sep : α) (ws : List (List α)) : List α := [sep].intercalate ws

/-- **A tidy line**: it neither begins nor ends with a blank, its only blank
is the separator, and no two blanks meet. -/
structure Tidy (sep : α) (l : List α) : Prop where
  only : ∀ a ∈ l, blank a = true → a = sep
  apart : l.IsChain fun a b => ¬ (blank a = true ∧ blank b = true)
  first : ∀ a, l.head? = some a → blank a = false
  last : ∀ a, l.getLast? = some a → blank a = false

variable {blank} {sep : α}

/-- A blank ends a word. -/
theorem words_append_cons (a b : List α) (h : blank sep = true) :
    words blank (a ++ sep :: b) = words blank a ++ words blank b := by
  unfold words
  rw [List.splitOnP_append_cons a b h, List.filter_append]

/-- A line without blanks is one word. -/
theorem words_eq_singleton {l : List α} (h : ∀ a ∈ l, blank a = false) (hne : l ≠ []) :
    words blank l = [l] := by
  unfold words
  rw [List.splitOnP_eq_singleton h]
  simp [hne]

/-- The pieces of a line have no blanks. -/
theorem blank_of_mem_splitOnP {l w : List α} (hw : w ∈ l.splitOnP blank) :
    ∀ a ∈ w, blank a = false := by
  induction l generalizing w with
  | nil =>
    rw [List.splitOnP_nil, List.mem_singleton] at hw
    simp [hw]
  | cons x xs ih =>
    rw [List.splitOnP_cons_eq_if_modifyHead] at hw
    split at hw
    · rcases List.mem_cons.mp hw with rfl | hw
      · simp
      · exact ih hw
    · next hx =>
      obtain ⟨v, vs, hv⟩ := List.exists_cons_of_ne_nil (List.splitOnP_ne_nil blank xs)
      rw [hv, List.modifyHead_cons] at hw
      rcases List.mem_cons.mp hw with rfl | hw
      · intro a ha
        rcases List.mem_cons.mp ha with rfl | ha
        · simpa using hx
        · exact ih (by simp [hv]) a ha
      · exact ih (by simp [hv, hw])

/-- **A word is not empty, and has no blanks.** -/
theorem mem_words {l w : List α} (hw : w ∈ words blank l) :
    w ≠ [] ∧ ∀ a ∈ w, blank a = false := by
  obtain ⟨hmem, hne⟩ := List.mem_filter.mp hw
  exact ⟨by simpa using hne, blank_of_mem_splitOnP hmem⟩

/-! ## What is put back together is tidy -/

theorem tidy_nil : Tidy blank sep [] :=
  ⟨by simp, .nil, by simp, by simp⟩

theorem glue_cons_cons (w v : List α) (ws : List (List α)) :
    glue sep (w :: v :: ws) = w ++ sep :: glue sep (v :: ws) := by
  simp [glue, List.intercalate]

theorem glue_singleton (w : List α) : glue sep [w] = w := by
  simp [glue, List.intercalate]

/-- A word, a separator and a tidy line that is not empty make a tidy
line. -/
theorem Tidy.cons {w l : List α} (hw : w ≠ []) (hfree : ∀ a ∈ w, blank a = false)
    (hl : Tidy blank sep l) (hne : l ≠ []) : Tidy blank sep (w ++ sep :: l) where
  only a ha hb := by
    rcases List.mem_append.mp ha with ha | ha
    · rw [hfree a ha] at hb
      cases hb
    · rcases List.mem_cons.mp ha with rfl | ha
      · rfl
      · exact hl.only a ha hb
  apart := by
    obtain ⟨b, l, rfl⟩ := List.exists_cons_of_ne_nil hne
    have hbl : blank b = false := hl.first b rfl
    have hsl : (sep :: b :: l).IsChain fun a b => ¬ (blank a = true ∧ blank b = true) :=
      List.isChain_cons_cons.mpr ⟨by simp [hbl], hl.apart⟩
    clear hw
    induction w with
    | nil => exact hsl
    | cons a w ih =>
      have hrest := ih fun x hx => hfree x (List.mem_cons_of_mem _ hx)
      have ha : blank a = false := hfree a List.mem_cons_self
      cases w with
      | nil => exact List.isChain_cons_cons.mpr ⟨by simp [ha], hrest⟩
      | cons a' w => exact List.isChain_cons_cons.mpr ⟨by simp [ha], hrest⟩
  first a ha := by
    obtain ⟨b, w, rfl⟩ := List.exists_cons_of_ne_nil hw
    obtain rfl : b = a := by simpa using ha
    exact hfree b List.mem_cons_self
  last a ha := by
    obtain ⟨b, l, rfl⟩ := List.exists_cons_of_ne_nil hne
    refine hl.last a ?_
    rw [← ha, List.getLast?_append_of_ne_nil _ (List.cons_ne_nil _ _), List.getLast?_cons_cons]

/-- **Words that are put together make a tidy line.** -/
theorem tidy_glue {ws : List (List α)}
    (h : ∀ w ∈ ws, w ≠ [] ∧ ∀ a ∈ w, blank a = false) : Tidy blank sep (glue sep ws) := by
  induction ws with
  | nil => exact tidy_nil
  | cons w ws ih =>
    obtain ⟨hne, hfree⟩ := h w List.mem_cons_self
    cases ws with
    | nil =>
      rw [glue_singleton]
      refine ⟨fun a ha hb => ?_, ?_, fun a ha => ?_, fun a ha => ?_⟩
      · rw [hfree a ha] at hb
        cases hb
      · refine List.Pairwise.isChain (List.pairwise_of_forall_mem_list fun a ha b _ hab => ?_)
        rw [hfree a ha] at hab
        cases hab.1
      · exact hfree a (List.mem_of_mem_head? ha)
      · exact hfree a (List.mem_of_getLast? ha)
    | cons v ws =>
      rw [glue_cons_cons]
      refine Tidy.cons hne hfree (ih fun w hw => h w (List.mem_cons_of_mem _ hw)) ?_
      obtain ⟨hv, -⟩ := h v (by simp)
      cases ws with
      | nil => rwa [glue_singleton]
      | cons u ws =>
        rw [glue_cons_cons]
        exact List.append_ne_nil_of_left_ne_nil hv _

theorem tidy_glue_words (l : List α) : Tidy blank sep (glue sep (words blank l)) :=
  tidy_glue fun _ hw => mem_words hw

/-! ## A tidy line is its words -/

/-- Where no two blanks meet and the line does not end with one, only the
first piece can be empty. -/
theorem tail_splitOnP_ne_nil {l : List α}
    (hapart : l.IsChain fun a b => ¬ (blank a = true ∧ blank b = true))
    (hlast : ∀ a, l.getLast? = some a → blank a = false) :
    ∀ w ∈ (l.splitOnP blank).tail, w ≠ [] := by
  induction l with
  | nil => simp
  | cons x xs ih =>
    have hlast' : ∀ a, xs.getLast? = some a → blank a = false := by
      intro a ha
      obtain ⟨y, ys, rfl⟩ := List.exists_cons_of_ne_nil (fun h : xs = [] => by simp [h] at ha)
      exact hlast a (by rw [List.getLast?_cons_cons, ha])
    have htail := ih hapart.of_cons hlast'
    rw [List.splitOnP_cons_eq_if_modifyHead]
    obtain ⟨v, vs, hv⟩ := List.exists_cons_of_ne_nil (List.splitOnP_ne_nil blank xs)
    rw [hv, List.tail_cons] at htail
    split
    · next hx =>
      -- the line goes on, with no blank
      rw [List.tail_cons, hv]
      intro w hw
      rcases List.mem_cons.mp hw with rfl | hw
      · cases xs with
        | nil =>
          have := hlast x rfl
          rw [hx] at this
          cases this
        | cons y ys =>
          have hy : blank y = false := by
            by_contra hy
            exact (List.isChain_cons_cons.mp hapart).1 ⟨hx, by simpa using hy⟩
          rw [List.splitOnP_cons_eq_if_modifyHead, if_neg (by simp [hy])] at hv
          obtain ⟨u, us, hu⟩ := List.exists_cons_of_ne_nil (List.splitOnP_ne_nil blank ys)
          rw [hu, List.modifyHead_cons] at hv
          rw [← (List.cons.inj hv).1]
          simp
      · exact htail w hw
    · rw [hv, List.modifyHead_cons, List.tail_cons]
      exact htail

/-- The first piece is empty only where the line begins with a blank. -/
theorem head_splitOnP_ne_nil {x : α} {xs : List α} (h : blank x = false) :
    ∃ v vs, (x :: xs).splitOnP blank = (x :: v) :: vs := by
  obtain ⟨v, vs, hv⟩ := List.exists_cons_of_ne_nil (List.splitOnP_ne_nil blank xs)
  refine ⟨v, vs, ?_⟩
  rw [List.splitOnP_cons_eq_if_modifyHead, if_neg (by simp [h]), hv, List.modifyHead_cons]

/-- **A tidy line is put back together from its words.** -/
theorem glue_words [DecidableEq α] {l : List α} (h : Tidy blank sep l)
    (hsep : blank sep = true) : glue sep (words blank l) = l := by
  cases l with
  | nil => rfl
  | cons x xs =>
    have hx : blank x = false := h.first x rfl
    have hpieces : ∀ w ∈ (x :: xs).splitOnP blank, w ≠ [] := by
      obtain ⟨v, vs, hv⟩ := @head_splitOnP_ne_nil _ _ x xs hx
      have htail := tail_splitOnP_ne_nil h.apart h.last
      rw [hv] at htail ⊢
      intro w hw
      rcases List.mem_cons.mp hw with rfl | hw
      · simp
      · exact htail w hw
    have hwords : words blank (x :: xs) = (x :: xs).splitOnP blank := by
      unfold words
      exact List.filter_eq_self.mpr fun w hw => by simpa using hpieces w hw
    have hsame : (x :: xs).splitOnP blank = (x :: xs).splitOn sep := by
      rw [List.splitOn_eq_splitOnP]
      have hcut : ∀ l : List α, (∀ a ∈ l, blank a = true → a = sep) →
          l.splitOnP blank = l.splitOnP (· == sep) := by
        intro l
        induction l with
        | nil => exact fun _ => rfl
        | cons a l ih =>
          intro hall
          have ha : blank a = (a == sep) := by
            by_cases hb : blank a = true
            · rw [hb, hall a List.mem_cons_self hb, beq_self_eq_true]
            · have hne : a ≠ sep := fun heq => hb (heq ▸ hsep)
              rw [Bool.eq_false_iff.mpr hb]
              exact (beq_eq_false_iff_ne.mpr hne).symm
          rw [List.splitOnP_cons_eq_if_modifyHead, List.splitOnP_cons_eq_if_modifyHead, ha,
            ih fun b hb => hall b (List.mem_cons_of_mem _ hb)]
      exact hcut _ h.only
    rw [hwords, hsame]
    exact List.intercalate_splitOn sep

end Words
