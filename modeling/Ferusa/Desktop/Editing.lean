import Ferusa.Lib.Text
import Ferusa.Desktop.Repl

/-!
# What is typed for an entry

`add` and `edit` ask for the fields of an entry line by line. Here the
lines are a record of their own (`AddAnswers`, `EditAnswers`), and what
the commands make of them a function: the commands are programs that ask
for the lines and save what the function gives (`cmdAdd_eq`,
`cmdEdit_eq`).

A blank line keeps a field. The tags are kept in a roundabout way: they
are joined to a line, which is then read as if it had been typed.
-/

namespace Desktop

open DeskProg

/-! ## The lines -/

/-- What `prompt_optional` makes of a line. -/
def optionalAnswer (line : String) : Option String :=
  if (trim line).isEmpty then none else some (trim line)

/-- What `prompt_with_default` makes of a line. -/
def keptAnswer (default line : String) : String :=
  if (trim line).isEmpty then default else trim line

/-- What `prompt_optional_with_default` makes of a line. -/
def keptOptionalAnswer (default : Option String) (line : String) : Option String :=
  if (trim line).isEmpty then default else if trim line = "-" then none else some (trim line)

/-- What `cmd_edit` makes of the answer for the tags. -/
def editedTags (raw : String) : List String :=
  if raw = "-" ∨ raw.isEmpty then [] else (raw.splitOn ",").map trim

/-- **What is typed for a new entry.** -/
structure AddAnswers where
  username : String
  password : String
  url : String
  notes : String
  tags : String
  now : Nat
  id : Uuid

/-- The entry that `cmd_add` makes of it. -/
def AddAnswers.entry (a : AddAnswers) (title : String) : Entry :=
  { id := a.id, title := trim title, username := optionalAnswer a.username,
    password := a.password, url := optionalAnswer a.url, notes := optionalAnswer a.notes,
    tags := ((optionalAnswer a.tags).map parseTags).getD [], createdAt := a.now,
    updatedAt := a.now }

/-- **What is typed for an entry that is changed.** There is no password
where the choice was to keep it. -/
structure EditAnswers where
  title : String
  username : String
  password : Option String
  url : String
  notes : String
  tags : String
  now : Nat

/-- What `cmd_edit` makes of an entry `e`, the one that was shown being
`shown`. -/
def EditAnswers.change (a : EditAnswers) (shown e : Entry) : Entry :=
  { e with
    title := keptAnswer shown.title a.title
    username := keptOptionalAnswer shown.username a.username
    password := a.password.getD e.password
    url := keptOptionalAnswer shown.url a.url
    notes := keptOptionalAnswer shown.notes a.notes
    tags := editedTags (keptAnswer (", ".intercalate shown.tags) a.tags)
    updatedAt := a.now }

/-- **The entry that `cmd_edit` makes of one.** -/
def EditAnswers.apply (a : EditAnswers) (e : Entry) : Entry := a.change e e

theorem EditAnswers.apply_tags (a : EditAnswers) (e : Entry) :
    (a.apply e).tags = editedTags (keptAnswer (", ".intercalate e.tags) a.tags) := by
  unfold apply change
  dsimp only

/-- The tags of a new entry. -/
theorem AddAnswers.entry_tags (a : AddAnswers) (title : String) :
    (a.entry title).tags = ((optionalAnswer a.tags).map parseTags).getD [] := by
  unfold entry
  dsimp only

/-! ## The commands -/

/-- The questions of `cmd_add`. -/
def askNewEntry : DeskProg AddAnswers := do
  let username ← readLine "read line"
  let r ← ask .promptPasswordField
  let password ← answer "prompt password" r
  let url ← readLine "read line"
  let notes ← readLine "read line"
  let tags ← readLine "read line"
  let now ← ask .nowMs
  let id ← ask .newUuid
  pure { username, password, url, notes, tags, now, id }

/-- The questions of `cmd_edit`. -/
def askChanges : DeskProg EditAnswers := do
  let title ← readLine "read line"
  let username ← readLine "read line"
  let password ← promptPasswordChange
  let url ← readLine "read line"
  let notes ← readLine "read line"
  let tags ← readLine "read line"
  let now ← ask .nowMs
  pure { title, username, password, url, notes, tags, now }

/-- **A blank choice keeps the password**, with no further question. -/
theorem promptPasswordChange_blank : ∃ k, promptPasswordChange = readLine "read line" >>= k ∧
    ∀ choice, (trim choice).isEmpty = true → k choice = pure none := by
  refine ⟨_, rfl, fun choice h => ?_⟩
  have hblank : trim choice = "" := String.isEmpty_iff.mp h
  have hlower : ("" : String).toLower = "" := String.map_eq_empty.mpr rfl
  simp only [hblank, hlower]
  rfl

variable [Crypto]

/-- **`cmd_add` asks and saves.** -/
theorem cmdAdd_eq (title : String) : cmdAdd title = (do
    let status ← ensureUnlockedFor .create (some title)
    Prog.ensure ((trim title).isEmpty = false) "title is required"
    let s ← session
    Prog.ensure (Vault.hasTitle s.vault (trim title) = false)
      s!"entry \"{trim title}\" already exists — use `ferusa edit` to update it"
    approvedAction status .create (some (trim title))
    let a ← askNewEntry
    let s ← session
    saveVaultCandidate { s.vault with entries := s.vault.entries ++ [a.entry title] }) := by
  simp only [cmdAdd, askNewEntry, promptOptional, Prog.bind_assoc, Prog.pure_bind']
  rfl

/-- **`cmd_edit` asks and saves.** -/
theorem cmdEdit_eq (title : String) : cmdEdit title = (do
    let status ← ensureUnlockedFor .update (some title)
    requireEntry title
    approvedAction status .update (some title)
    let s ← session
    let e ← Prog.okOr "entry vanished after approval" (Vault.find s.vault title)
    let a ← askChanges
    let s ← session
    Prog.ensure ((s.vault.entries.any fun x => !eqIgnoreAsciiCase x.title title &&
      eqIgnoreAsciiCase x.title (keptAnswer e.title a.title)) = false)
      s!"entry \"{keptAnswer e.title a.title}\" already exists — choose a different title"
    let s ← session
    Prog.ensure (Vault.hasTitle s.vault title = true) "entry vanished"
    saveVaultCandidate { s.vault with
      entries := updateFirst title (a.change e) s.vault.entries }) := by
  simp only [cmdEdit, askChanges, promptWithDefault, promptOptionalWithDefault, Prog.bind_assoc,
    Prog.pure_bind']
  rfl

omit [Crypto]

/-! ## Tags -/

/-- **A tag as it should be stored.** -/
structure TagFormed (t : String) : Prop where
  nonempty : t.isEmpty = false
  trimmed : trim t = t
  comma : ',' ∉ t.toList

/-- Every tag of the entry is as it should be. -/
def WellTagged (e : Entry) : Prop := ∀ t ∈ e.tags, TagFormed t

/-- **What every stored list of tags is like**: its tags are trimmed and have
no comma, and a tag that stands alone is not empty. -/
structure Tags (tags : List String) : Prop where
  trimmed : ∀ t ∈ tags, trim t = t
  comma : ∀ t ∈ tags, ',' ∉ t.toList
  alone : tags ≠ [""]

/-- The parts of a line between its commas. -/
theorem splitOn_comma (raw : String) :
    raw.splitOn "," = (raw.toList.splitOn ',').map String.ofList :=
  String.splitOn_ofList raw ','

/-- Trimming adds no character. -/
theorem mem_trim {c : Char} {s : String} (h : c ∈ (trim s).toList) : c ∈ s.toList := by
  rw [trim_toList] at h
  exact (List.dropWhile_sublist _).subset ((List.rdropWhile_prefix _ _).subset h)

/-- A part between commas has none, and neither has what trimming leaves of
it. -/
theorem comma_of_mem_parts {raw t : String} (h : t ∈ (raw.splitOn ",").map trim) :
    ',' ∉ t.toList := by
  obtain ⟨part, hpart, rfl⟩ := List.mem_map.mp h
  rw [splitOn_comma] at hpart
  obtain ⟨w, hw, rfl⟩ := List.mem_map.mp hpart
  intro hc
  have hmem := mem_trim hc
  rw [String.toList_ofList] at hmem
  rw [List.splitOn_eq_splitOnP] at hw
  have hfree := Words.blank_of_mem_splitOnP hw ',' hmem
  cases hfree

/-- Where there is one part, it is the line. -/
theorem parts_eq_singleton {raw t : String} (h : raw.splitOn "," = [t]) : t = raw := by
  have hglue : ([','] : List Char).intercalate (raw.toList.splitOn ',') = raw.toList :=
    List.intercalate_splitOn ','
  rw [splitOn_comma] at h
  obtain ⟨w, hw, rfl⟩ := List.map_eq_singleton_iff.mp h
  rw [hw] at hglue
  simp only [List.intercalate, List.intersperse, List.flatten_cons, List.flatten_nil,
    List.append_nil] at hglue
  rw [hglue, String.ofList_toList]

/-! ## Keeping -/

/-- A space in front is trimmed away. -/
theorem trim_space_cons (l : List Char) :
    trim (String.ofList (' ' :: l)) = trim (String.ofList l) := by
  unfold trim
  rw [String.toList_ofList, String.toList_ofList, List.dropWhile_cons_of_pos rfl]

/-- The characters of tags that were joined. -/
theorem joined_toList (tags : List String) :
    (", ".intercalate tags).toList = [',', ' '].intercalate (tags.map String.toList) := by
  rw [String.toList_intercalate]
  rfl

/-- **Tags that were joined are read again as they were.** -/
theorem parts_joined {t : String} {tags : List String} (h : Tags (t :: tags)) :
    ((", ".intercalate (t :: tags)).splitOn ",").map trim = t :: tags := by
  have hcomma : ∀ l ∈ t.toList :: tags.map String.toList, ',' ∉ l := by
    intro l hl
    obtain ⟨x, hx, rfl⟩ := List.mem_map.mp (List.map_cons ▸ hl :
      l ∈ (t :: tags).map String.toList)
    exact h.comma x hx
  rw [splitOn_comma, joined_toList, List.map_cons,
    List.splitOn_intercalate_pair (by decide) hcomma, List.map_cons, List.map_cons,
    String.ofList_toList, h.trimmed t List.mem_cons_self, List.map_map, List.map_map]
  congr 1
  have hrest : ∀ x ∈ tags, trim (String.ofList (' ' :: x.toList)) = x := by
    intro x hx
    rw [trim_space_cons, String.ofList_toList, h.trimmed x (List.mem_cons_of_mem _ hx)]
  rw [List.map_map]
  exact (List.map_congr_left hrest).trans (List.map_id' tags)

/-- **Tags are kept by a blank line exactly when they are not a single
hyphen**, which is read as the wish to clear them. -/
theorem editedTags_joined {tags : List String} (h : Tags tags) :
    editedTags (", ".intercalate tags) = tags ↔ tags ≠ ["-"] := by
  cases tags with
  | nil => exact ⟨fun _ => List.cons_ne_nil _ _ ∘ Eq.symm, fun _ => rfl⟩
  | cons t tags =>
    have hparts := parts_joined h
    cases tags with
    | nil =>
      rw [String.intercalate_singleton] at hparts ⊢
      have hne : t.isEmpty = false := by
        rw [Bool.eq_false_iff, ne_eq, String.isEmpty_iff]
        exact fun ht => h.alone (by rw [ht])
      unfold editedTags
      by_cases ht : t = "-"
      · subst ht
        simp
      · rw [if_neg (by simp [ht, hne]), hparts]
        simp [ht]
    | cons u tags =>
      have hcomma : ',' ∈ (", ".intercalate (t :: u :: tags)).toList := by
        rw [joined_toList]
        simp [List.intercalate]
      unfold editedTags
      rw [if_neg, hparts]
      · simp
      · rintro (hraw | hraw)
        · rw [hraw] at hcomma
          revert hcomma
          decide
        · rw [String.isEmpty_iff.mp hraw] at hcomma
          exact absurd hcomma List.not_mem_nil

/-! ## What is stored -/

/-- **What `add` stores is well tagged.** -/
theorem AddAnswers.entry_wellTagged (a : AddAnswers) (title : String) :
    WellTagged (a.entry title) := by
  unfold WellTagged
  rw [a.entry_tags]
  cases optionalAnswer a.tags with
  | none => exact fun t ht => absurd ht List.not_mem_nil
  | some raw =>
    intro t ht
    obtain ⟨hpart, hne⟩ := List.mem_filter.mp ht
    obtain ⟨part, -, rfl⟩ := List.mem_map.mp hpart
    exact ⟨by simpa using hne, trim_trim part, comma_of_mem_parts hpart⟩

/-- Well-formed tags are like every stored list of tags. -/
theorem WellTagged.tags {e : Entry} (h : WellTagged e) : Tags e.tags where
  trimmed t ht := (h t ht).trimmed
  comma t ht := (h t ht).comma
  alone htags := by
    have hempty := (h "" (htags ▸ List.mem_singleton_self "")).nonempty
    cases hempty

/-- A line that is not blank, trimmed, is not empty. -/
theorem editedTags_tags {raw : String} (hraw : trim raw = raw) : Tags (editedTags raw) := by
  unfold editedTags
  split
  · exact ⟨fun t ht => absurd ht List.not_mem_nil, fun t ht => absurd ht List.not_mem_nil,
      (List.cons_ne_nil _ _) ∘ Eq.symm⟩
  · next hne =>
    refine ⟨fun t ht => ?_, fun t ht => comma_of_mem_parts ht, fun halone => ?_⟩
    · obtain ⟨part, -, rfl⟩ := List.mem_map.mp ht
      exact trim_trim part
    · obtain ⟨part, hpart, htrim⟩ := List.map_eq_singleton_iff.mp halone
      rw [parts_eq_singleton hpart, hraw] at htrim
      exact hne (.inr (String.isEmpty_iff.mpr htrim))

/-- **What the tags of `edit` may be answered with**: a blank line, a
hyphen, or tags none of which is blank. -/
def FormsTags (line : String) : Prop :=
  (trim line).isEmpty = true ∨ trim line = "-" ∨
    ∀ part ∈ (trim line).splitOn ",", (trim part).isEmpty = false

/-- **`edit` stores well-formed tags exactly when it is told some.** -/
theorem EditAnswers.apply_wellTagged (a : EditAnswers) {e : Entry} (h : WellTagged e) :
    WellTagged (a.apply e) ↔ FormsTags a.tags := by
  unfold WellTagged
  rw [a.apply_tags]
  unfold keptAnswer FormsTags
  by_cases hblank : (trim a.tags).isEmpty = true
  · rw [if_pos hblank]
    refine ⟨fun _ => .inl hblank, fun _ => ?_⟩
    by_cases hone : e.tags = ["-"]
    · rw [hone]
      exact fun t ht => absurd ht List.not_mem_nil
    · rw [(editedTags_joined h.tags).mpr hone]
      exact h
  · rw [if_neg hblank]
    unfold editedTags
    by_cases hyphen : trim a.tags = "-"
    · rw [if_pos (.inl hyphen)]
      exact ⟨fun _ => .inr (.inl hyphen), fun _ t ht => absurd ht List.not_mem_nil⟩
    · rw [if_neg (by simp [hyphen, hblank])]
      constructor
      · intro hall
        exact .inr (.inr fun part hpart => (hall _ (List.mem_map_of_mem hpart)).nonempty)
      · rintro (h | h | h)
        · exact absurd h hblank
        · exact absurd h hyphen
        · intro t ht
          obtain ⟨part, hpart, rfl⟩ := List.mem_map.mp ht
          exact ⟨h part hpart, trim_trim part, comma_of_mem_parts ht⟩

/-- Every prompt is answered with a blank line, the choice for the password
being to keep it. -/
structure EditAnswers.Blank (a : EditAnswers) : Prop where
  title : (trim a.title).isEmpty = true
  username : (trim a.username).isEmpty = true
  password : a.password = none
  url : (trim a.url).isEmpty = true
  notes : (trim a.notes).isEmpty = true
  tags : (trim a.tags).isEmpty = true

/-- **Blank lines keep an entry exactly when they keep its tags.** -/
theorem EditAnswers.Blank.apply_eq {a : EditAnswers} (h : a.Blank) {e : Entry}
    (he : Tags e.tags) : a.apply e = { e with updatedAt := a.now } ↔ e.tags ≠ ["-"] := by
  rw [← editedTags_joined he]
  have hkept : a.apply e =
      { e with tags := editedTags (", ".intercalate e.tags), updatedAt := a.now } := by
    unfold apply change keptAnswer keptOptionalAnswer
    simp only [h.title, h.username, h.password, h.url, h.notes, h.tags, if_true]
    rfl
  rw [hkept]
  constructor
  · intro heq
    injection heq
  · intro heq
    rw [heq]

/-- **The entries that `add` and `edit` store**, the answers given to each
being of the named kinds. -/
inductive Stored (added : AddAnswers → Prop) (edited : EditAnswers → Prop) : Entry → Prop
  | add {a : AddAnswers} (title : String) (ha : added a) : Stored added edited (a.entry title)
  | edit {a : EditAnswers} {e : Entry} (he : Stored added edited e) (ha : edited a) :
      Stored added edited (a.apply e)

/-- The tags of a stored entry, whatever was typed. -/
theorem Stored.tags {added : AddAnswers → Prop} {edited : EditAnswers → Prop} {e : Entry}
    (h : Stored added edited e) : Tags e.tags := by
  induction h with
  | add title _ => exact (AddAnswers.entry_wellTagged _ title).tags
  | @edit a e he ha ih =>
    rw [a.apply_tags]
    unfold keptAnswer
    split
    · by_cases hone : e.tags = ["-"]
      · rw [hone]
        exact @editedTags_tags "-" (by decide)
      · rw [(editedTags_joined ih).mpr hone]
        exact ih
    · exact editedTags_tags (trim_trim a.tags)

/-- A new entry is not given a hyphen as its only tag. -/
def AddAnswers.Plain (a : AddAnswers) : Prop :=
  ((optionalAnswer a.tags).map parseTags).getD [] ≠ ["-"]

/-- **What keeps to its word stays so**: an entry that is only given
well-formed tags, and no hyphen that stands alone. -/
theorem Stored.careful {e : Entry}
    (h : Stored AddAnswers.Plain (fun a => FormsTags a.tags) e) :
    WellTagged e ∧ e.tags ≠ ["-"] := by
  induction h with
  | @add a title ha => exact ⟨a.entry_wellTagged title, ha⟩
  | @edit a e he ha ih =>
    obtain ⟨hwell, hone⟩ := ih
    refine ⟨(a.apply_wellTagged hwell).mpr ha, ?_⟩
    rw [a.apply_tags]
    unfold keptAnswer
    split
    · rwa [(editedTags_joined hwell.tags).mpr hone]
    · unfold editedTags
      split
      · exact (List.cons_ne_nil _ _) ∘ Eq.symm
      · next hne =>
        intro hsingle
        obtain ⟨part, hpart, htrim⟩ := List.map_eq_singleton_iff.mp hsingle
        rw [parts_eq_singleton hpart, trim_trim] at htrim
        exact hne (.inl htrim)

/-- **Editing keeps what it says it keeps**, in every sequence of commands
that stores no blank tag by `edit` and no hyphen as the only tag; and
exactly then at each step. -/
theorem editing_keeps (e : Entry) :
    (Stored AddAnswers.Plain (fun a => FormsTags a.tags) e →
      WellTagged e ∧ ∀ a : EditAnswers, a.Blank → a.apply e = { e with updatedAt := a.now }) ∧
    (∀ (a : AddAnswers) title, WellTagged (a.entry title)) ∧
    (Stored (fun _ => True) (fun _ => True) e →
      (∀ a : EditAnswers, a.Blank →
        (a.apply e = { e with updatedAt := a.now } ↔ e.tags ≠ ["-"])) ∧
      (WellTagged e → ∀ a : EditAnswers, WellTagged (a.apply e) ↔ FormsTags a.tags)) := by
  refine ⟨fun h => ?_, AddAnswers.entry_wellTagged, fun h => ?_⟩
  · obtain ⟨hwell, hone⟩ := h.careful
    exact ⟨hwell, fun a ha => (ha.apply_eq hwell.tags).mpr hone⟩
  · exact ⟨fun a ha => ha.apply_eq h.tags, fun hwell a => a.apply_wellTagged hwell⟩

/-- What is typed for an entry with these tags. -/
def typedTags (tags : String) : AddAnswers :=
  { username := "", password := "secret", url := "", notes := "", tags, now := 0, id := 1 }

/-- What is typed to change nothing but the tags. -/
def retypedTags (tags : String) : EditAnswers :=
  { title := "", username := "", password := none, url := "", notes := "", tags, now := 1 }

/-- An entry that is given two tags keeps them through blank lines. -/
theorem editing_keeps_tagged : ∃ e : Entry, e.tags = ["work", "home"] ∧ WellTagged e ∧
    ∀ a : EditAnswers, a.Blank → a.apply e = { e with updatedAt := a.now } := by
  have hplain : (typedTags "").Plain := by
    unfold AddAnswers.Plain
    decide
  have hparts : (trim "work, home").splitOn "," = ["work", " home"] := by
    rw [splitOn_comma]
    decide
  have hforms : FormsTags "work, home" := by
    refine .inr (.inr ?_)
    rw [hparts]
    decide
  refine ⟨(retypedTags "work, home").apply ((typedTags "").entry "mail"), ?_,
    (editing_keeps _).1 (.edit (.add "mail" hplain) hforms)⟩
  rw [EditAnswers.apply_tags, keptAnswer, if_neg (by decide), editedTags, if_neg (by decide)]
  exact (congrArg _ hparts).trans (by decide)

/-- **A blank tag is stored, and a hyphen is lost**: `edit` stores the empty
part of a line that ends with a comma, and an entry whose only tag is a
hyphen loses it when every prompt is answered with a blank line. -/
theorem editing_forgets :
    ¬ ∀ e, Stored (fun _ => True) (fun _ => True) e →
      WellTagged e ∧ ∀ a : EditAnswers, a.Blank → a.apply e = { e with updatedAt := a.now } := by
  intro h
  have hadd : Stored (fun _ => True) (fun _ => True) ((typedTags "").entry "mail") :=
    .add "mail" trivial
  have hwell : WellTagged ((typedTags "").entry "mail") := AddAnswers.entry_wellTagged _ _
  have hforms := ((retypedTags "work,").apply_wellTagged hwell).mp (h _ (.edit hadd trivial)).1
  have hparts : (trim "work,").splitOn "," = ["work", ""] := by
    rw [splitOn_comma]
    decide
  unfold FormsTags at hforms
  rw [show (retypedTags "work,").tags = "work," from rfl, hparts] at hforms
  revert hforms
  decide

end Desktop
