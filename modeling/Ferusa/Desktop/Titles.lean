import Mathlib.Data.List.DropRight
import Ferusa.Desktop.Runs

/-!
# Titles as keys

The title of an entry designates it: `get`, `edit` and `remove` find the
entry by its title, letter case aside. Neither the loader nor the
validator looks at titles, so that they are a key rests on the three
commands that change entries, each of which scans the vault in its own
way.

`Revises` says what a command makes of the vault, in the words of the
code; `Edited` says what it should make of it, entry by entry. On a vault
whose titles are a key the first gives the second, and a vault whose
titles are a key (`Revises.edited`).
-/

/-! ## Text -/

/-- What trimming leaves begins and ends with no white space. -/
theorem dropWhile_rdropWhile {α : Type} (p : α → Bool) (l : List α) :
    ((l.dropWhile p).rdropWhile p).dropWhile p = (l.dropWhile p).rdropWhile p := by
  refine List.dropWhile_eq_self_iff.mpr fun hl => ?_
  obtain ⟨rest, hrest⟩ := List.rdropWhile_prefix p (l := l.dropWhile p)
  generalize hm : (l.dropWhile p).rdropWhile p = m at hl hrest
  cases m with
  | nil => exact absurd hl (Nat.lt_irrefl 0)
  | cons a m =>
    have hhead : l.dropWhile p = a :: (m ++ rest) := hrest.symm
    have hne : l.dropWhile p ≠ [] := by
      rw [hhead]
      exact List.cons_ne_nil _ _
    have hnot := List.head_dropWhile_not p hne
    simp only [hhead, List.head_cons] at hnot
    simp [hnot]

/-- **Trimming twice is trimming once.** -/
theorem trim_trim (s : String) : trim (trim s) = trim s := by
  unfold trim
  rw [String.toList_ofList]
  show String.ofList (((s.toList.dropWhile isWhitespace).rdropWhile isWhitespace).dropWhile
    isWhitespace |>.rdropWhile isWhitespace) = _
  rw [dropWhile_rdropWhile, List.rdropWhile_idempotent]
  rfl

theorem eqIgnoreAsciiCase_iff {s t : String} :
    eqIgnoreAsciiCase s t = true ↔ s.toLower = t.toLower := by
  unfold eqIgnoreAsciiCase
  rw [beq_iff_eq]

theorem eqIgnoreAsciiCase_comm (s t : String) : eqIgnoreAsciiCase s t = eqIgnoreAsciiCase t s := by
  unfold eqIgnoreAsciiCase
  exact Bool.beq_comm

/-- Titles that agree with one another agree with the same titles. -/
theorem eqIgnoreAsciiCase_congr {s t : String} (h : eqIgnoreAsciiCase s t = true) (u : String) :
    eqIgnoreAsciiCase u s = eqIgnoreAsciiCase u t := by
  unfold eqIgnoreAsciiCase
  rw [eqIgnoreAsciiCase_iff.mp h]

namespace Desktop

/-- **The titles of a vault are a key**: none is empty or has white
space around it, and no two agree, letter case aside. -/
structure Keyed (vault : Vault) : Prop where
  title : ∀ e ∈ vault.entries, e.title.isEmpty = false ∧ trim e.title = e.title
  distinct : vault.entries.Pairwise fun a b => eqIgnoreAsciiCase a.title b.title = false

/-- The empty vault. -/
theorem Keyed.default : Keyed Vault.default :=
  ⟨fun _ he => absurd he List.not_mem_nil, List.Pairwise.nil⟩

/-- What an entry may be renamed to: a trimmed text, or the title some
entry has. -/
def NewTitle (vault : Vault) (title : String) : Prop :=
  (title.isEmpty = false ∧ trim title = title) ∨ ∃ e ∈ vault.entries, title = e.title

/-- **What a command makes of the vault**, in the words of the code. -/
def Revises : DeskOp → Vault → Vault → Prop
  | .add title, v, v' => ∃ e : Entry, e.title = trim title ∧ (trim title).isEmpty = false ∧
      Vault.hasTitle v (trim title) = false ∧ v' = { v with entries := v.entries ++ [e] }
  | .edit title, v, v' => ∃ (newTitle : String) (f : Entry → Entry),
      (∀ e, (f e).id = e.id ∧ (f e).createdAt = e.createdAt ∧ (f e).title = newTitle) ∧
      NewTitle v newTitle ∧ Vault.hasTitle v title = true ∧
      (v.entries.any fun e =>
        !eqIgnoreAsciiCase e.title title && eqIgnoreAsciiCase e.title newTitle) = false ∧
      v' = { v with entries := updateFirst title f v.entries }
  | .remove title, v, v' => Vault.hasTitle v title = true ∧
      v' = { v with entries := v.entries.filter fun e => !eqIgnoreAsciiCase e.title title }
  | _, v, v' => v' = v

/-- **What a command should make of the vault**: `add` appends one entry
of a title that is new, `edit` changes the entry of the title and leaves
its id, its age and its place, `remove` deletes the entry of the title,
and a new password changes no entry. -/
inductive Edited : DeskOp → Vault → Vault → Prop
  | appended {title v} {e : Entry} (htitle : e.title = trim title)
      (hnew : ∀ x ∈ v.entries, eqIgnoreAsciiCase x.title e.title = false) :
      Edited (.add title) v { v with entries := v.entries ++ [e] }
  | changed {title v before after} {e e' : Entry} (hv : v.entries = before ++ e :: after)
      (htitle : eqIgnoreAsciiCase e.title title = true) (hid : e'.id = e.id)
      (hcreated : e'.createdAt = e.createdAt) :
      Edited (.edit title) v { v with entries := before ++ e' :: after }
  | deleted {title v before after} {e : Entry} (hv : v.entries = before ++ e :: after)
      (htitle : eqIgnoreAsciiCase e.title title = true) :
      Edited (.remove title) v { v with entries := before ++ after }
  | kept {v} : Edited .passwd v v

/-- The entry of a title, and what is around it. -/
theorem hasTitle_split {title : String} {l : List Entry}
    (h : (l.any fun e => eqIgnoreAsciiCase e.title title) = true) :
    ∃ before e after, l = before ++ e :: after ∧ eqIgnoreAsciiCase e.title title = true ∧
      ∀ f : Entry → Entry, updateFirst title f l = before ++ f e :: after := by
  induction l with
  | nil => simp at h
  | cons a l ih =>
    by_cases ha : eqIgnoreAsciiCase a.title title = true
    · refine ⟨[], a, l, rfl, ha, fun f => ?_⟩
      unfold updateFirst
      rw [if_pos ha]
      rfl
    · rw [List.any_cons, Bool.eq_false_iff.mpr ha, Bool.false_or] at h
      obtain ⟨before, e, after, rfl, he, hf⟩ := ih h
      refine ⟨a :: before, e, after, rfl, he, fun f => ?_⟩
      unfold updateFirst
      rw [if_neg ha, hf f]
      rfl

/-- No entry has the title. -/
theorem hasTitle_eq_false {title : String} {v : Vault} (h : Vault.hasTitle v title = false) :
    ∀ e ∈ v.entries, eqIgnoreAsciiCase e.title title = false := by
  unfold Vault.hasTitle at h
  exact fun e he => Bool.eq_false_iff.mpr (List.any_eq_false.mp h e he)

/-- What a found entry is: one of the vault, of the title. -/
theorem find_eq_some {title : String} {v : Vault} {e : Entry} (h : Vault.find v title = some e) :
    e ∈ v.entries ∧ eqIgnoreAsciiCase e.title title = true := by
  unfold Vault.find at h
  have htitle := List.find?_some h
  exact ⟨List.mem_of_find?_eq_some h, htitle⟩

/-- **The other entries are not of the title.** -/
theorem Keyed.others {v : Vault} (h : Keyed v) {title : String} {before after : List Entry}
    {e : Entry} (hv : v.entries = before ++ e :: after)
    (htitle : eqIgnoreAsciiCase e.title title = true) :
    ∀ x ∈ before ++ after, eqIgnoreAsciiCase x.title title = false := by
  have hpair := h.distinct
  rw [hv, List.pairwise_append] at hpair
  obtain ⟨-, hafter, hacross⟩ := hpair
  intro x hx
  rw [← eqIgnoreAsciiCase_congr htitle]
  obtain hx | hx := List.mem_append.mp hx
  · exact hacross x hx e List.mem_cons_self
  · rw [eqIgnoreAsciiCase_comm]
    exact (List.pairwise_cons.mp hafter).1 x hx

/-- **A title designates at most one entry.** -/
theorem Keyed.designates {v : Vault} (h : Keyed v) {title : String} {a b : Entry}
    (ha : a ∈ v.entries) (hb : b ∈ v.entries) (hat : eqIgnoreAsciiCase a.title title = true)
    (hbt : eqIgnoreAsciiCase b.title title = true) : a = b := by
  obtain ⟨before, after, hv⟩ := List.append_of_mem ha
  have hothers := h.others hv hat
  rw [hv] at hb
  obtain hb | rfl | hb := (List.mem_append.mp hb).imp_right List.mem_cons.mp
  · exact absurd hbt (Bool.eq_false_iff.mp (hothers b (List.mem_append_left _ hb)))
  · rfl
  · exact absurd hbt (Bool.eq_false_iff.mp (hothers b (List.mem_append_right _ hb)))

/-- A vault with one entry put in the place of another. -/
theorem Keyed.replace {v : Vault} (h : Keyed v) {before after : List Entry} {e e' : Entry}
    (hv : v.entries = before ++ e :: after)
    (htitle : e'.title.isEmpty = false ∧ trim e'.title = e'.title)
    (hnew : ∀ x ∈ before ++ after, eqIgnoreAsciiCase x.title e'.title = false) :
    Keyed { v with entries := before ++ e' :: after } := by
  have hpair := h.distinct
  have hall := h.title
  rw [hv] at hpair hall
  rw [List.pairwise_append, List.pairwise_cons] at hpair
  obtain ⟨hbefore, ⟨-, hafter⟩, hacross⟩ := hpair
  refine ⟨fun x hx => ?_, ?_⟩
  · obtain hx | rfl | hx := (List.mem_append.mp hx).imp_right List.mem_cons.mp
    · exact hall x (List.mem_append_left _ hx)
    · exact htitle
    · exact hall x (List.mem_append_right _ (List.mem_cons_of_mem _ hx))
  · show (before ++ e' :: after).Pairwise _
    rw [List.pairwise_append, List.pairwise_cons]
    refine ⟨hbefore, ⟨fun x hx => ?_, hafter⟩, fun x hx y hy => ?_⟩
    · rw [eqIgnoreAsciiCase_comm]
      exact hnew x (List.mem_append_right _ hx)
    · obtain rfl | hy := List.mem_cons.mp hy
      · exact hnew x (List.mem_append_left _ hx)
      · exact hacross x hx y (List.mem_cons_of_mem _ hy)

/-- A vault with some entries left out. -/
theorem Keyed.sublist {v : Vault} (h : Keyed v) {l : List Entry} (hl : l.Sublist v.entries) :
    Keyed { v with entries := l } :=
  ⟨fun e he => h.title e (hl.subset he), h.distinct.sublist hl⟩

/-- A vault with one more entry. -/
theorem Keyed.append {v : Vault} (h : Keyed v) {e : Entry}
    (htitle : e.title.isEmpty = false ∧ trim e.title = e.title)
    (hnew : ∀ x ∈ v.entries, eqIgnoreAsciiCase x.title e.title = false) :
    Keyed { v with entries := v.entries ++ [e] } := by
  refine ⟨fun x hx => ?_, ?_⟩
  · obtain hx | rfl := (List.mem_append.mp hx).imp_right List.mem_singleton.mp
    · exact h.title x hx
    · exact htitle
  · show (v.entries ++ [e]).Pairwise _
    rw [List.pairwise_append]
    refine ⟨h.distinct, List.pairwise_singleton _ _, fun x hx y hy => ?_⟩
    rw [List.mem_singleton.mp hy]
    exact hnew x hx

/-- **On a vault whose titles are a key a command does what it should**,
and leaves such a vault. -/
theorem Revises.edited {op : DeskOp} {v v' : Vault} (h : Revises op v v') (hop : op.Saves)
    (hv : Keyed v) : Edited op v v' ∧ Keyed v' := by
  cases op with
  | add title =>
    obtain ⟨e, htitle, hne, hnew, rfl⟩ := h
    have hnew' : ∀ x ∈ v.entries, eqIgnoreAsciiCase x.title e.title = false := by
      rw [htitle]
      exact hasTitle_eq_false hnew
    refine ⟨.appended htitle hnew', hv.append ?_ hnew'⟩
    rw [htitle]
    exact ⟨hne, trim_trim title⟩
  | edit title =>
    obtain ⟨newTitle, f, hf, hnewTitle, hhas, hclash, rfl⟩ := h
    obtain ⟨before, e, after, hsplit, he, hupdate⟩ := hasTitle_split hhas
    obtain ⟨hid, hcreated, htitle⟩ := hf e
    rw [hupdate f]
    refine ⟨.changed hsplit he hid hcreated, hv.replace hsplit ?_ fun x hx => ?_⟩
    · rw [htitle]
      obtain hfresh | ⟨y, hy, rfl⟩ := hnewTitle
      · exact hfresh
      · exact hv.title y hy
    · -- the scan for a clash leaves out the entry that is changed, and no other
      have hmem : x ∈ v.entries := by
        rw [hsplit]
        exact (List.mem_append.mp hx).elim (List.mem_append_left _)
          fun h => List.mem_append_right _ (List.mem_cons_of_mem _ h)
      have hscan := List.any_eq_false.mp hclash x hmem
      rw [hv.others hsplit he x hx, Bool.not_false, Bool.true_and] at hscan
      rw [htitle]
      exact Bool.eq_false_iff.mpr hscan
  | remove title =>
    obtain ⟨hhas, rfl⟩ := h
    obtain ⟨before, e, after, hsplit, he, -⟩ := hasTitle_split hhas
    have hfilter : (v.entries.filter fun e => !eqIgnoreAsciiCase e.title title)
        = before ++ after := by
      have hothers := hv.others hsplit he
      rw [hsplit, List.filter_append, List.filter_cons, he]
      show before.filter _ ++ after.filter _ = _
      rw [List.filter_eq_self.mpr fun x hx => by rw [hothers x (List.mem_append_left _ hx)]; rfl,
        List.filter_eq_self.mpr fun x hx => by rw [hothers x (List.mem_append_right _ hx)]; rfl]
    rw [hfilter]
    refine ⟨.deleted hsplit he, hv.sublist ?_⟩
    rw [hsplit]
    exact (List.sublist_cons_self e after).append_left before
  | passwd =>
    obtain rfl : v' = v := h
    exact ⟨.kept, hv⟩
  | _ => exact absurd hop id

end Desktop
