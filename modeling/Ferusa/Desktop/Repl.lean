import Ferusa.Lib.Words
import Ferusa.Desktop.Titles

/-!
# The shell

How a line of the shell is read. It is split at white space, and the
title of a command is put together again from its words, with one space
between two. A title comes in by another way, which only trims it: from
the command line, or as the answer to a question of `edit`.
-/

open Words

/-- `str::split_whitespace`. -/
def splitWhitespace (s : String) : List String :=
  (words isWhitespace s.toList).map String.ofList

namespace Desktop

/-- `ReplCommand`. -/
inductive ReplCommand where
  | add (title : String)
  | configGet
  | configSet (command : String)
  | edit (title : String)
  | exit
  | get (title : String)
  | help
  | list
  | lock
  | pair
  | passwd
  | ping
  | reconnect
  | remove (title : String)
  | unknown (text : String)
  deriving DecidableEq

/-- `one_arg`. -/
def oneArg (parts : List String) (name : String) : Except String String :=
  match parts with
  | [] => .error s!"usage: {name} <title>"
  | value :: parts =>
    let title := parts.foldl (fun title part => title ++ " " ++ part) value
    if title.isEmpty then .error "empty title" else .ok title

/-- A command that takes a title, or what is wrong with its argument. -/
def titled (command : String → ReplCommand) : Except String String → ReplCommand
  | .ok title => command title
  | .error message => .unknown message

/-- `config_command`. -/
def configCommand : List String → ReplCommand
  | "get" :: _ => .configGet
  | "set" :: parts =>
    let command := " ".intercalate parts
    if command.isEmpty then .unknown "usage: config set <clipboard command>"
    else .configSet command
  | _ => .unknown "usage: config get | config set <clipboard command>"

/-- **`parse`.** -/
def parse (line : String) : ReplCommand :=
  match splitWhitespace line with
  | [] => .help
  | cmd :: parts =>
    match cmd with
    | "exit" => .exit
    | "quit" => .exit
    | "lock" => .lock
    | "help" => .help
    | "?" => .help
    | "ping" => .ping
    | "reconnect" => .reconnect
    | "add" => titled .add (oneArg parts "add")
    | "list" => .list
    | "ls" => .list
    | "pair" => .pair
    | "passwd" => .passwd
    | "get" => titled .get (oneArg parts "get")
    | "edit" => titled .edit (oneArg parts "edit")
    | "remove" => titled .remove (oneArg parts "remove")
    | "rm" => titled .remove (oneArg parts "remove")
    | "config" => configCommand parts
    | cmd => .unknown cmd

/-! ## Lines -/

/-- A text that neither begins nor ends with white space is left alone by
trimming. -/
theorem trim_eq_self {s : String} (hfirst : ∀ c, s.toList.head? = some c → isWhitespace c = false)
    (hlast : ∀ c, s.toList.getLast? = some c → isWhitespace c = false) : trim s = s := by
  have hdrop : ∀ l : List Char, (∀ c, l.head? = some c → isWhitespace c = false) →
      l.dropWhile isWhitespace = l := by
    intro l hl
    cases l with
    | nil => rfl
    | cons c l => rw [List.dropWhile_cons_of_neg (by simp [hl c rfl])]
  unfold trim
  rw [hdrop _ hfirst, hdrop s.toList.reverse fun c hc => hlast c (by rwa [← List.head?_reverse]),
    List.reverse_reverse, String.ofList_toList]

/-- The characters that trimming leaves. -/
theorem trim_toList (s : String) :
    (trim s).toList = (s.toList.dropWhile isWhitespace).rdropWhile isWhitespace :=
  String.toList_ofList

/-- What trimming leaves neither begins nor ends with white space. -/
theorem trim_ends (s : String) :
    (∀ c, (trim s).toList.head? = some c → isWhitespace c = false) ∧
      ∀ c, (trim s).toList.getLast? = some c → isWhitespace c = false := by
  have hdrop : ∀ (l : List Char) c, (l.dropWhile isWhitespace).head? = some c →
      isWhitespace c = false := by
    intro l c hc
    have hnot := List.head?_dropWhile_not isWhitespace l
    rw [hc] at hnot
    exact hnot
  constructor
  · intro c hc
    rw [trim_toList, ← dropWhile_rdropWhile] at hc
    exact hdrop _ c hc
  · intro c hc
    unfold trim at hc
    rw [String.toList_ofList, List.getLast?_reverse] at hc
    exact hdrop _ c hc

/-- The words that follow the first, put together with spaces. -/
theorem foldl_words (v : List Char) (ws : List (List Char)) :
    (ws.map String.ofList).foldl (fun title part => title ++ " " ++ part) (String.ofList v) =
      String.ofList (glue ' ' (v :: ws)) := by
  induction ws generalizing v with
  | nil => rw [glue_singleton]; rfl
  | cons w ws ih =>
    rw [List.map_cons, List.foldl_cons, glue_cons_cons]
    have hjoin : String.ofList v ++ " " ++ String.ofList w = String.ofList (v ++ ' ' :: w) := by
      rw [show (" " : String) = String.ofList [' '] from rfl, ← String.ofList_append,
        ← String.ofList_append, List.append_assoc]
      rfl
    rw [hjoin, ih]
    cases ws with
    | nil => rw [glue_singleton, glue_singleton]
    | cons u ws => rw [glue_cons_cons, glue_cons_cons, List.append_assoc]; rfl

/-! ## Titles in the shell -/

/-- What comes back of a title when it is typed after a command. -/
def retyped (t : String) : String := String.ofList (glue ' ' (words isWhitespace t.toList))

/-- **Inside the title every white space is a single space.** -/
structure SingleSpaced (t : String) : Prop where
  only : ∀ c ∈ t.toList, isWhitespace c = true → c = ' '
  apart : t.toList.IsChain fun a b => ¬ (isWhitespace a = true ∧ isWhitespace b = true)

/-- The commands of the shell that look a title up. -/
def titleCommands : List (String × (String → ReplCommand)) :=
  [("get", .get), ("edit", .edit), ("remove", .remove), ("rm", .remove)]

/-- **The title can be addressed**: typed after the command word, it gives
the command with an argument that agrees with the title, letter case
aside, and with no other. -/
def Addressed (word : String) (command : String → ReplCommand) (t : String) : Prop :=
  ∃ arg, parse (trim (word ++ " " ++ t)) = command arg ∧ eqIgnoreAsciiCase t arg = true ∧
    ∀ u, eqIgnoreAsciiCase u arg = true → eqIgnoreAsciiCase u t = true

theorem titleCommands_injective {word : String} {command : String → ReplCommand}
    (hc : (word, command) ∈ titleCommands) {s t : String} (h : command s = command t) : s = t := by
  simp only [titleCommands, List.mem_cons, Prod.mk.injEq, List.not_mem_nil, or_false] at hc
  obtain ⟨-, rfl⟩ | ⟨-, rfl⟩ | ⟨-, rfl⟩ | ⟨-, rfl⟩ := hc
  · exact ReplCommand.get.inj h
  · exact ReplCommand.edit.inj h
  · exact ReplCommand.remove.inj h
  · exact ReplCommand.remove.inj h

/-- The first word of the line is the command word. -/
theorem splitWhitespace_line {word : String} (hne : word.toList ≠ [])
    (hfree : ∀ c ∈ word.toList, isWhitespace c = false) (t : String) :
    splitWhitespace (word ++ " " ++ t) = word :: splitWhitespace t := by
  unfold splitWhitespace
  have hline : (word ++ " " ++ t).toList = word.toList ++ ' ' :: t.toList := by
    rw [String.toList_append, String.toList_append, List.append_assoc]
    rfl
  rw [hline, words_append_cons _ _ rfl, words_eq_singleton hfree hne, List.map_append,
    List.map_singleton, String.ofList_toList]
  rfl

/-- What the argument of a command is. -/
theorem oneArg_words {t : String} (h : words isWhitespace t.toList ≠ []) (name : String) :
    oneArg (splitWhitespace t) name = .ok (retyped t) := by
  unfold splitWhitespace retyped
  cases hw : words isWhitespace t.toList with
  | nil => exact absurd hw h
  | cons v ws =>
    have hv : v ≠ [] := (mem_words (hw ▸ List.mem_cons_self)).1
    have hne : (String.ofList (glue ' ' (v :: ws))).isEmpty = false := by
      have hglue : glue ' ' (v :: ws) ≠ [] := by
        cases ws with
        | nil => rwa [glue_singleton]
        | cons w ws =>
          rw [glue_cons_cons]
          exact List.append_ne_nil_of_left_ne_nil hv _
      rw [Bool.eq_false_iff, ne_eq, String.isEmpty_iff]
      intro h
      apply hglue
      rw [← String.toList_ofList (l := glue ' ' (v :: ws)), h]
      rfl
    unfold oneArg
    rw [List.map_cons]
    simp only [foldl_words, hne, Bool.false_eq_true, if_false]

/-- A trimmed title has a word. -/
theorem words_trim_ne_nil {t : String} (ht : trim t = t) (hne : t.isEmpty = false) :
    words isWhitespace t.toList ≠ [] := by
  intro h
  obtain ⟨hfirst, -⟩ := trim_ends t
  rw [ht] at hfirst
  cases hl : t.toList with
  | nil =>
    rw [String.toList_eq_nil_iff.mp hl] at hne
    cases hne
  | cons c l =>
    rw [hl] at hfirst h
    obtain ⟨v, vs, hv⟩ := @head_splitOnP_ne_nil _ _ c l (hfirst c rfl)
    unfold words at h
    rw [hv] at h
    simp at h

/-- **What a command looks up** when a title is typed after its word. -/
theorem parse_line {word : String} {command : String → ReplCommand}
    (hc : (word, command) ∈ titleCommands) {t : String} (ht : trim t = t)
    (hne : t.isEmpty = false) :
    parse (trim (word ++ " " ++ t)) = command (retyped t) := by
  have hword : word.toList ≠ [] ∧ ∀ c ∈ word.toList, isWhitespace c = false := by
    simp only [titleCommands, List.mem_cons, Prod.mk.injEq, List.not_mem_nil, or_false] at hc
    have hfree : ∀ w : List Char, w.all (fun c => isWhitespace c = false) = true →
        ∀ c ∈ w, isWhitespace c = false := by simp
    obtain ⟨rfl, -⟩ | ⟨rfl, -⟩ | ⟨rfl, -⟩ | ⟨rfl, -⟩ := hc <;>
      exact ⟨by decide, hfree _ (by decide)⟩
  obtain ⟨hwne, hfree⟩ := hword
  have htrim : trim (word ++ " " ++ t) = word ++ " " ++ t := by
    obtain ⟨-, hlast⟩ := trim_ends t
    rw [ht] at hlast
    have hline : (word ++ " " ++ t).toList = word.toList ++ ' ' :: t.toList := by
      rw [String.toList_append, String.toList_append, List.append_assoc]
      rfl
    have htne : t.toList ≠ [] := fun h => by
      rw [String.toList_eq_nil_iff.mp h] at hne
      cases hne
    refine trim_eq_self (fun c hc => ?_) fun c hc => ?_
    · rw [hline] at hc
      obtain ⟨a, l, hal⟩ := List.exists_cons_of_ne_nil hwne
      rw [hal] at hc
      obtain rfl : a = c := Option.some.inj hc
      exact hfree a (hal ▸ List.mem_cons_self)
    · refine hlast c ?_
      rw [← hc, hline, List.getLast?_append_of_ne_nil _ (List.cons_ne_nil _ _)]
      obtain ⟨b, l, hbl⟩ := List.exists_cons_of_ne_nil htne
      rw [hbl, List.getLast?_cons_cons]
  have hwords := words_trim_ne_nil ht hne
  unfold parse
  rw [htrim, splitWhitespace_line hwne hfree]
  simp only [titleCommands, List.mem_cons, Prod.mk.injEq, List.not_mem_nil, or_false] at hc
  obtain ⟨rfl, rfl⟩ | ⟨rfl, rfl⟩ | ⟨rfl, rfl⟩ | ⟨rfl, rfl⟩ := hc <;>
    simp only [oneArg_words hwords, titled]

/-! ## Letter case -/

/-- A character that has another lower case is a letter, and so is that
one. -/
theorem toLower_eq (c : Char) : c.toLower = c ∨
    isWhitespace c = false ∧ isWhitespace c.toLower = false := by
  by_cases h : 65 ≤ c.toNat ∧ c.toNat ≤ 90
  · right
    have hletters : ∀ n : Fin 26, isWhitespace (Char.ofNat (65 + n)) = false ∧
        isWhitespace (Char.ofNat (65 + n)).toLower = false := by
      decide
    have hn : c = Char.ofNat (65 + (⟨c.toNat - 65, by omega⟩ : Fin 26)) := by
      show c = Char.ofNat (65 + (c.toNat - 65))
      rw [Nat.add_sub_of_le h.1, Char.ofNat_toNat]
    rw [hn]
    exact hletters _
  · left
    unfold Char.toLower
    refine dif_neg fun hc => h ?_
    simpa [UInt32.le_iff_toNat_le] using hc

theorem isWhitespace_toLower (c : Char) : isWhitespace c.toLower = isWhitespace c := by
  obtain h | ⟨h, h'⟩ := toLower_eq c
  · rw [h]
  · rw [h, h']

/-- Titles that agree, letter case aside, are spaced alike. -/
theorem SingleSpaced.of_agree {s t : String} (h : SingleSpaced s)
    (hst : eqIgnoreAsciiCase t s = true) : SingleSpaced t := by
  have hlower : t.toList.map Char.toLower = s.toList.map Char.toLower := by
    have := congrArg String.toList (eqIgnoreAsciiCase_iff.mp hst)
    unfold String.toLower at this
    rwa [String.toList_map, String.toList_map] at this
  have hapart : ∀ l : List Char, (l.map Char.toLower).IsChain (fun a b =>
      ¬ (isWhitespace a = true ∧ isWhitespace b = true)) ↔
      l.IsChain fun a b => ¬ (isWhitespace a = true ∧ isWhitespace b = true) := by
    intro l
    rw [List.isChain_map]
    simp only [isWhitespace_toLower]
  refine ⟨fun c hc hb => ?_, (hapart _).mp (hlower ▸ (hapart _).mpr h.apart)⟩
  -- the character that agrees with this white space is a space
  have hmem : c.toLower ∈ s.toList.map Char.toLower := hlower ▸ List.mem_map_of_mem hc
  obtain ⟨d, hd, hdc⟩ := List.mem_map.mp hmem
  have hdb : isWhitespace d = true := by
    rw [← isWhitespace_toLower, hdc, isWhitespace_toLower, hb]
  obtain rfl := h.only d hd hdb
  obtain hself | ⟨hnot, -⟩ := toLower_eq c
  · rw [← hself, ← hdc]
    rfl
  · rw [hb] at hnot
    cases hnot

/-- What comes back is single-spaced. -/
theorem singleSpaced_retyped (t : String) : SingleSpaced (retyped t) := by
  have h : Tidy isWhitespace ' ' (glue ' ' (words isWhitespace t.toList)) := tidy_glue_words _
  unfold retyped
  constructor
  · rw [String.toList_ofList]
    exact h.only
  · rw [String.toList_ofList]
    exact h.apart

/-- **A title that is single-spaced comes back unchanged.** -/
theorem retyped_eq_self {t : String} (ht : trim t = t) (h : SingleSpaced t) : retyped t = t := by
  obtain ⟨hfirst, hlast⟩ := trim_ends t
  rw [ht] at hfirst hlast
  unfold retyped
  rw [glue_words ⟨h.only, h.apart, hfirst, hlast⟩ rfl, String.ofList_toList]

/-- A title that can be addressed is single-spaced: its argument is. -/
theorem Addressed.singleSpaced {word : String} {command : String → ReplCommand} {t : String}
    (h : Addressed word command t) (hc : (word, command) ∈ titleCommands) (ht : trim t = t)
    (hne : t.isEmpty = false) : SingleSpaced t := by
  obtain ⟨arg, hparse, hagree, -⟩ := h
  have harg : retyped t = arg :=
    titleCommands_injective hc ((parse_line hc ht hne).symm.trans hparse)
  rw [← harg] at hagree
  exact (singleSpaced_retyped t).of_agree hagree

/-- **A stored title can be addressed in the shell exactly when it is
single-spaced.** What is stored is what `add` and `edit` trim, of
whatever was typed. -/
theorem stored_title_addressed_iff {word : String} {command : String → ReplCommand}
    (hc : (word, command) ∈ titleCommands) {typed : String}
    (hne : (trim typed).isEmpty = false) :
    Addressed word command (trim typed) ↔ SingleSpaced (trim typed) := by
  have ht := trim_trim typed
  refine ⟨fun h => h.singleSpaced hc ht hne, fun h => ?_⟩
  refine ⟨trim typed, ?_, eqIgnoreAsciiCase_iff.mpr rfl, fun u hu => hu⟩
  rw [parse_line hc ht hne, retyped_eq_self ht h]

theorem stored_title_addressed_iff_mailWork :
    Addressed "get" .get (trim "mail work") ↔ SingleSpaced (trim "mail work") :=
  stored_title_addressed_iff (by simp [titleCommands]) (by decide)

/-- **A title with two spaces in a row is not found**: it comes back with
one. -/
theorem doubled_space_not_addressed :
    ¬ ∀ (word : String) (command : String → ReplCommand) (typed : String),
      (word, command) ∈ titleCommands → (trim typed).isEmpty = false →
        Addressed word command (trim typed) := by
  intro h
  have hc : ("get", ReplCommand.get) ∈ titleCommands := by simp [titleCommands]
  have haddr := h "get" .get "a  b" hc (by decide)
  have happ := (haddr.singleSpaced hc (trim_trim _) (by decide)).apart
  revert happ
  decide

end Desktop
