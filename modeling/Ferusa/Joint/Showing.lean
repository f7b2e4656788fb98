import Ferusa.Lib.History
import Ferusa.Desktop.Clipboard
import Ferusa.Desktop.Editing
import Ferusa.Phone.Release

/-!
# What the phone shows of a request

The user approves what the screen shows of a request, and types a PIN of
as many digits as the screen asks for. What is shown is made of the
request, and of a title that the desktop has sent: it may be any text, so
it is made fit to be shown. The approval looks the request up once more,
and decides again how long its PIN is. The two have to agree: an approval
that goes through is one of the request whose id is shown, and of a PIN
of as many digits as are asked for.
-/

namespace Joint

open Desktop Phone

/-! ## The payload -/

/-- **`PendingRequestPayload`.** -/
structure PendingRequestPayload where
  requestId : String
  correlationCode : Nat
  action : String
  entryTitle : Option String
  pinDigits : Nat
  deriving DecidableEq

def requestDisplayFieldMaxChars : Nat := 120

/-- `truncate_display_field`. -/
def truncateDisplayField (value : String) (maxChars : Nat) : String :=
  if value.toList.length ≤ maxChars then value
  else String.ofList (value.toList.take (maxChars - 3)) ++ "..."

/-- A control character is shown as a space. -/
def displayed (ch : Char) : Char := if isControl ch then ' ' else ch

/-- A text without its control characters, and without white space at its
ends. -/
def normalized (value : String) : String := trim (String.ofList (value.toList.map displayed))

/-- **`sanitize_request_display_field`.** -/
def sanitizeRequestDisplayField (value : String) : Option String :=
  let trimmed := normalized value
  if trimmed.isEmpty then none
  else some (truncateDisplayField trimmed requestDisplayFieldMaxChars)

/-- The text of an action, and how many digits its PIN has. -/
def shownAction : VaultAction → String × Nat
  | .unlock => ("unlock", 4)
  | .list => ("list", 4)
  | .read => ("read", 4)
  | .create => ("create", 6)
  | .update => ("update", 6)
  | .delete => ("delete", 6)
  | .passwd => ("change_password", 6)
  | .pair => ("replace_pairing", 6)

/-- **`PendingRequestPayload::from`.** -/
def PendingRequestPayload.of (r : AuthRequest) : PendingRequestPayload where
  requestId := Uuid.toString r.requestId
  correlationCode := r.correlationCode
  action := (shownAction r.action).1
  entryTitle := r.entryTitle.bind sanitizeRequestDisplayField
  pinDigits := (shownAction r.action).2

namespace PendingRequestPayload

variable (r : AuthRequest)

theorem of_requestId : (of r).requestId = Uuid.toString r.requestId := rfl

theorem of_action : (of r).action = (shownAction r.action).1 := rfl

theorem of_entryTitle : (of r).entryTitle = r.entryTitle.bind sanitizeRequestDisplayField := rfl

theorem of_pinDigits : (of r).pinDigits = (shownAction r.action).2 := rfl

end PendingRequestPayload

/-! ## The title -/

section Title

variable {value shown : String}

theorem isControl_displayed (ch : Char) : isControl (displayed ch) = false := by
  unfold displayed
  split
  · rfl
  · next h => exact eq_false_of_ne_true h

theorem normalized_displayed {c : Char} (h : c ∈ (normalized value).toList) :
    isControl c = false := by
  have hmem := mem_trim h
  rw [String.toList_ofList] at hmem
  obtain ⟨ch, -, rfl⟩ := List.mem_map.mp hmem
  exact isControl_displayed ch

/-- **Trimming leaves what is not white space.** -/
theorem mem_trim_of_visible {c : Char} {s : String} (h : c ∈ s.toList)
    (hc : isWhitespace c = false) : c ∈ (trim s).toList := by
  have hdrop : ∀ l : List Char, c ∈ l → c ∈ l.dropWhile isWhitespace := by
    intro l hl
    rw [← List.takeWhile_append_dropWhile (p := isWhitespace) (l := l)] at hl
    obtain hl | hl := List.mem_append.mp hl
    · rw [List.mem_takeWhile_imp hl] at hc
      cases hc
    · exact hl
  unfold trim
  rw [String.toList_ofList, List.mem_reverse]
  exact hdrop _ (List.mem_reverse.mpr (hdrop _ h))

/-- **Nothing is left where nothing can be seen.** -/
theorem normalized_isEmpty : (normalized value).isEmpty = true ↔
    ∀ c ∈ value.toList, isWhitespace c = true ∨ isControl c = true := by
  have hspace : isWhitespace ' ' = true := by decide
  rw [String.isEmpty_iff]
  constructor
  · intro h c hc
    by_contra hvisible
    obtain ⟨hwhite, hcontrol⟩ := not_or.mp hvisible
    have hmem : displayed c ∈ (normalized value).toList := by
      refine mem_trim_of_visible ?_ ?_
      · rw [String.toList_ofList]
        exact List.mem_map_of_mem hc
      · rw [displayed, if_neg hcontrol]
        exact eq_false_of_ne_true hwhite
    rw [h] at hmem
    cases hmem
  · intro h
    -- the first character of what is left would not be white space
    rw [← String.toList_eq_nil_iff]
    cases hl : (normalized value).toList with
    | nil => rfl
    | cons c l =>
      have hfirst : isWhitespace c = false := (trim_ends _).1 c (by
        show (normalized value).toList.head? = some c
        rw [hl]
        rfl)
      have hmem : c ∈ (normalized value).toList := hl ▸ List.mem_cons_self
      have hmem' := mem_trim hmem
      rw [String.toList_ofList] at hmem'
      obtain ⟨ch, hch, rfl⟩ := List.mem_map.mp hmem'
      exfalso
      unfold displayed at hfirst
      split at hfirst
      · rw [hspace] at hfirst
        cases hfirst
      · next hcontrol =>
        obtain hwhite | hcontrol' := h ch hch
        · rw [hwhite] at hfirst
          cases hfirst
        · exact hcontrol hcontrol'

/-- **A title that is fit to be shown.** -/
structure Fit (shown : String) : Prop where
  printable : ∀ c ∈ shown.toList, isControl c = false
  bounded : shown.toList.length ≤ requestDisplayFieldMaxChars
  nonempty : shown.isEmpty = false
  first : ∀ c, shown.toList.head? = some c → isWhitespace c = false
  last : ∀ c, shown.toList.getLast? = some c → isWhitespace c = false

/-- A text without control characters is displayed as it is. -/
theorem normalized_printable (h : ∀ c ∈ shown.toList, isControl c = false) :
    normalized shown = trim shown := by
  have hsame : shown.toList.map displayed = shown.toList := by
    refine (List.map_congr_left fun c hc => ?_).trans (List.map_id _)
    rw [displayed, if_neg (by simp [h c hc]), id]
  rw [normalized, hsame, String.ofList_toList]

/-- **What is fit to be shown is shown as it is.** -/
theorem Fit.sanitized (h : Fit shown) : sanitizeRequestDisplayField shown = some shown := by
  have hsame : normalized shown = shown :=
    (normalized_printable h.printable).trans (trim_eq_self h.first h.last)
  unfold sanitizeRequestDisplayField
  simp only [hsame, h.nonempty, Bool.false_eq_true, if_false]
  exact congrArg some (if_pos h.bounded)

/-- The text is as long as may be, with its last characters left out. -/
theorem truncateDisplayField_fit (hprintable : ∀ c ∈ value.toList, isControl c = false)
    (hfirst : ∀ c, value.toList.head? = some c → isWhitespace c = false)
    (hlast : ∀ c, value.toList.getLast? = some c → isWhitespace c = false)
    (hnonempty : value.isEmpty = false) :
    Fit (truncateDisplayField value requestDisplayFieldMaxChars) := by
  unfold truncateDisplayField
  split
  · next hshort => exact ⟨hprintable, hshort, hnonempty, hfirst, hlast⟩
  · next hlong =>
    have hlong : 120 < value.toList.length := Nat.lt_of_not_le hlong
    have htext : (String.ofList (value.toList.take (requestDisplayFieldMaxChars - 3)) ++
        "...").toList = value.toList.take 117 ++ ['.', '.', '.'] := by
      rw [String.toList_append, String.toList_ofList]
      rfl
    refine ⟨fun c hc => ?_, ?_, ?_, fun c hc => ?_, fun c hc => ?_⟩
    · rw [htext] at hc
      obtain hc | hc := List.mem_append.mp hc
      · exact hprintable c (List.mem_of_mem_take hc)
      · simp only [List.mem_cons, List.not_mem_nil, or_false, or_self] at hc
        subst hc
        rfl
    · rw [htext, List.length_append, List.length_take]
      show min 117 value.toList.length + 3 ≤ 120
      omega
    · rw [← Bool.not_eq_true, String.isEmpty_iff, ← String.toList_eq_nil_iff, htext]
      simp
    · refine hfirst c ?_
      rw [htext, List.head?_append, List.head?_take, if_neg (by decide)] at hc
      cases hhead : value.toList.head? with
      | none =>
        rw [List.head?_eq_none_iff] at hhead
        rw [hhead] at hlong
        simp at hlong
      | some c' =>
        rw [hhead] at hc
        exact hc
    · rw [htext, List.getLast?_append] at hc
      obtain rfl : '.' = c := Option.some.inj hc
      decide

/-- **What is shown is fit to be shown**, and nothing is shown where nothing
can be seen. -/
theorem sanitized_fit (h : sanitizeRequestDisplayField value = some shown) : Fit shown := by
  unfold sanitizeRequestDisplayField at h
  dsimp only at h
  split at h
  · cases h
  · next hnonempty =>
    obtain rfl := Option.some.inj h
    exact truncateDisplayField_fit (fun c hc => normalized_displayed hc) (trim_ends _).1
      (trim_ends _).2 (eq_false_of_ne_true hnonempty)

/-- What is shown begins as the title does. -/
theorem sanitized_begins (h : sanitizeRequestDisplayField value = some shown) :
    shown.toList.take 117 = (normalized value).toList.take 117 := by
  unfold sanitizeRequestDisplayField at h
  dsimp only at h
  split at h
  · cases h
  · obtain rfl := Option.some.inj h
    unfold truncateDisplayField
    split
    · rfl
    · next hlong =>
      have hlong : 120 < (normalized value).toList.length := Nat.lt_of_not_le hlong
      rw [String.toList_append, String.toList_ofList, List.take_append_of_le_length]
      · exact List.take_take.trans (by rfl)
      · rw [List.length_take]
        show 117 ≤ min 117 _
        omega

theorem sanitized_eq_none : sanitizeRequestDisplayField value = none ↔
    ∀ c ∈ value.toList, isWhitespace c = true ∨ isControl c = true := by
  rw [← normalized_isEmpty]
  unfold sanitizeRequestDisplayField
  dsimp only
  split
  · next h => exact ⟨fun _ => h, fun _ => rfl⟩
  · next h => exact ⟨nofun, fun h' => absurd h' h⟩

/-- **What is shown of a title**, of any request: nothing only where nothing
of it can be seen, the title itself if it is fit to be shown; and what is
shown is fit, and begins as the title does without its control
characters. -/
theorem PendingRequestPayload.of_title {r : AuthRequest} {title : String}
    (h : r.entryTitle = some title) :
    ((PendingRequestPayload.of r).entryTitle = none ↔
      ∀ c ∈ title.toList, isWhitespace c = true ∨ isControl c = true) ∧
    (Fit title → (PendingRequestPayload.of r).entryTitle = some title) ∧
    ∀ shown, (PendingRequestPayload.of r).entryTitle = some shown →
      Fit shown ∧ shown.toList.take 117 = (normalized title).toList.take 117 := by
  rw [PendingRequestPayload.of_entryTitle, h, Option.bind_some]
  exact ⟨sanitized_eq_none, Fit.sanitized, fun shown h => ⟨sanitized_fit h, sanitized_begins h⟩⟩

end Title

/-! ## The approval -/

/-- **The digits that are asked for** are those that the approval expects. -/
theorem shownAction_digits (action : VaultAction) :
    (shownAction action).2 = expectedPinLen (pinKindForAction action) := by
  cases action <;> rfl

/-- The text tells the actions apart. -/
theorem shownAction_injective {a b : VaultAction} (h : (shownAction a).1 = (shownAction b).1) :
    a = b := by
  cases a <;> cases b <;> first | rfl | exact absurd h (by decide)

/-- A digit is one byte. -/
theorem byteLength_digits {pin : String} (h : pin.toList.all Char.isDigit = true) :
    byteLength pin = pin.toList.length := by
  have hsize : ∀ l : List Char, l.all Char.isDigit = true → String.utf8Len l = l.length := by
    intro l hl
    induction l with
    | nil => rfl
    | cons c l ih =>
      rw [List.all_cons, Bool.and_eq_true] at hl
      have hdigit : c.val ≤ '9'.val :=
        of_decide_eq_true ((Bool.and_eq_true _ _).mp (show (_ && _) = true from hl.1)).2
      have hone : c.utf8Size = 1 := by
        rw [Char.utf8Size, if_pos]
        exact UInt32.le_trans hdigit (by decide)
      rw [String.utf8Len_cons, ih hl.2, hone, List.length_cons]
  rw [byteLength, ← hsize _ h, ← String.utf8ByteSize_ofList, String.ofList_toList]

/-- **A PIN that is accepted has as many digits as it should.** -/
theorem validatePin_digits {pin : String} {expectedLen : Nat}
    (h : validatePin pin expectedLen = .ok ()) :
    pin.toList.length = expectedLen ∧ pin.toList.all Char.isDigit = true := by
  unfold validatePin at h
  split at h
  · cases h
  · next hlength =>
    split at h
    · cases h
    · next hdigits =>
      have hdigits : pin.toList.all Char.isDigit = true := of_not_not hdigits
      rw [← byteLength_digits hdigits]
      exact ⟨of_not_not hlength, hdigits⟩

/-- A request that is looked up is the one in the slot, by its id. -/
theorem checkPending_ok {requestId : String} {slot : Option Phone.PendingRequest} {now : Nat}
    {pending : Phone.PendingRequest} (h : checkPending requestId slot now = .ok pending) :
    slot = some pending ∧ Uuid.toString pending.request.requestId = requestId := by
  unfold checkPending at h
  cases slot with
  | none => cases h
  | some found =>
    dsimp only at h
    split at h
    · cases h
    · next hid =>
      split at h
      · cases h
      · obtain rfl := Except.ok.inj h
        exact ⟨rfl, of_not_not hid⟩

theorem checkPin_ok {pin : String} {expectedLen : Nat} {u : Unit}
    (h : checkPin pin expectedLen = .ok u) : validatePin pin expectedLen = .ok () := by
  unfold checkPin at h
  cases hpin : validatePin pin expectedLen with
  | ok u => rfl
  | error e =>
    rw [hpin] at h
    cases h

section Approved

variable {σ : Type} {exec : (c : AppCmd) → σ → c.Reply → σ → Prop}
  {s s' : Recorded AppCmd.Reply σ} {requestId pin : String}

/-- What is returned is what there was to return. -/
theorem ofExcept_returned {α : Type} {x : Except AppError α} {a : α}
    (h : Prog.Outcome (Recorded.exec exec) (Prog.ofExcept x : AppProg α) s (.ok a) s') :
    x = .ok a := by
  cases x with
  | ok a' => exact (Prog.Outcome.of_ret h).1.symm
  | error e =>
    obtain ⟨he, -⟩ := Prog.Outcome.of_fail h
    cases he

/-- The past stays. -/
theorem past_suffix {α : Type} {p : AppProg α} {x : Except AppError α}
    (h : Prog.Outcome (Recorded.exec exec) p s x s') : s.past <:+ s'.past := by
  induction h with
  | ret => exact List.suffix_rfl
  | fail => exact List.suffix_rfl
  | call hx _ ih => exact (hx.2 ▸ List.suffix_cons _ _ : _ <:+ _).trans ih

/-- **An approval that goes through** found the request whose id it was given,
and was given a PIN of the length that goes with its action. -/
theorem approveRequest_finds
    (h : Prog.Outcome (Recorded.exec exec) (approveRequest requestId pin) s (.ok ()) s') :
    ∃ pending now since, s'.past = since ++ s.past ∧
      (⟨.slot .peek, (some pending, now)⟩ : Event AppCmd.Reply) ∈ since ∧
      Uuid.toString pending.request.requestId = requestId ∧
      validatePin pin (expectedPinLen (pinKindForAction pending.request.action)) = .ok () := by
  obtain ⟨active, t, hsession, h⟩ | ⟨e, -, he⟩ := Prog.Outcome.of_bind h
  · obtain ⟨⟨slot, now⟩, t', hpeek, h⟩ := Prog.Outcome.of_call h
    -- the look at the slot stands between what came before and after it
    have hsince : ∃ since, s'.past = since ++ s.past ∧
        (⟨.slot .peek, (slot, now)⟩ : Event AppCmd.Reply) ∈ since := by
      obtain ⟨earlier, hearlier⟩ := past_suffix hsession
      obtain ⟨later, hlater⟩ := past_suffix h
      refine ⟨later ++ ⟨.slot .peek, (slot, now)⟩ :: earlier, ?_, by simp⟩
      rw [← hlater, hpeek.2, ← hearlier, List.append_assoc]
      rfl
    obtain ⟨since, hpast, hmem⟩ := hsince
    obtain ⟨pending, t₁, hpending, h⟩ | ⟨e, -, he⟩ :=
      Prog.Outcome.of_bind (p := Prog.ofExcept (checkPending requestId slot now)) h
    · obtain ⟨hslot, hid⟩ := checkPending_ok (ofExcept_returned hpending)
      obtain ⟨secrets, t₂, -, h⟩ | ⟨e, -, he⟩ := Prog.Outcome.of_bind h
      · obtain ⟨u, t₃, hpin, -⟩ | ⟨e, -, he⟩ := Prog.Outcome.of_bind h
        · exact ⟨pending, now, since, hpast, hslot ▸ hmem, hid,
            checkPin_ok (ofExcept_returned hpin)⟩
        · cases he
      · cases he
    · cases he
  · cases he

/-- **What is shown of a request is what its approval goes by.** An approval
that goes through, whatever the outside and the other threads do, was of
the request that was pending then under the id it was given: the screen
shows it with that id, with the text of its action and of no other, and
with as many digits as the PIN has. Of any request, this one or another, the
title is left out only where nothing of it can be seen; it is shown as it
is if it is fit to be shown, and what is shown is fit, and begins as the
title does without its control characters. -/
theorem approved_as_shown
    (h : Prog.Outcome (Recorded.exec exec) (approveRequest requestId pin) s (.ok ()) s') :
    ∃ pending now since, s'.past = since ++ s.past ∧
      (⟨.slot .peek, (some pending, now)⟩ : Event AppCmd.Reply) ∈ since ∧
      (PendingRequestPayload.of pending.request).requestId = requestId ∧
      pin.toList.length = (PendingRequestPayload.of pending.request).pinDigits ∧
      pin.toList.all Char.isDigit = true ∧
      (∀ req, (PendingRequestPayload.of req).action =
        (PendingRequestPayload.of pending.request).action → req.action = pending.request.action) ∧
      ∀ (req : AuthRequest) title, req.entryTitle = some title →
        ((PendingRequestPayload.of req).entryTitle = none ↔
          ∀ c ∈ title.toList, isWhitespace c = true ∨ isControl c = true) ∧
        (Fit title → (PendingRequestPayload.of req).entryTitle = some title) ∧
        ∀ shown, (PendingRequestPayload.of req).entryTitle = some shown →
          Fit shown ∧ shown.toList.take 117 = (normalized title).toList.take 117 := by
  obtain ⟨pending, now, since, hpast, hmem, hid, hpin⟩ := approveRequest_finds h
  obtain ⟨hlength, hdigits⟩ := validatePin_digits hpin
  refine ⟨pending, now, since, hpast, hmem, ?_, ?_, hdigits, fun req hreq => ?_,
    fun req title htitle => PendingRequestPayload.of_title htitle⟩
  · rw [PendingRequestPayload.of_requestId, hid]
  · rw [PendingRequestPayload.of_pinDigits, shownAction_digits, hlength]
  · rw [PendingRequestPayload.of_action, PendingRequestPayload.of_action] at hreq
    exact shownAction_injective hreq

end Approved

attribute [local instance] Crypto.plain

/-- Each command is answered willingly, and recorded. -/
def answeredWillingly (c : AppCmd) (_ : Unit) (s : Recorded AppCmd.Reply App) :
    Option (c.Reply × Recorded AppCmd.Reply App) :=
  (App.exec 0 c (willing c s.state) s.state).map fun x => (x.1, ⟨x.2, ⟨c, x.1⟩ :: s.past⟩)

theorem answeredWillingly_exec (c : AppCmd) (o : Unit) (s : Recorded AppCmd.Reply App)
    (r : c.Reply) (s' : Recorded AppCmd.Reply App)
    (h : answeredWillingly c o s = some (r, s')) :
    Recorded.exec (fun c s r s' => ∃ o, App.exec 0 c o s = some (r, s')) c s r s' := by
  obtain ⟨x, hx, heq⟩ := Option.map_eq_some_iff.mp h
  obtain ⟨rfl, rfl⟩ := Prod.mk.inj heq
  exact ⟨⟨_, hx⟩, rfl⟩

/-- What the slot holds, with what the screen shows of it. -/
def shownIn (e : Event AppCmd.Reply) : Option (String × Nat) :=
  match e with
  | ⟨.slot .peek, (some pending, _)⟩ =>
    some ((PendingRequestPayload.of pending.request).action,
      (PendingRequestPayload.of pending.request).pinDigits)
  | _ => none

/-- The vault is unlocked with the four digits that are asked for. -/
theorem approved_as_shown_unlock : ∃ (s : App) (s' : Recorded AppCmd.Reply App),
    Prog.Outcome (Recorded.exec fun c s r s' => ∃ o, App.exec 0 c o s = some (r, s'))
        (approveRequest (Uuid.toString 10) "7394") ⟨s, []⟩ (.ok ()) s' ∧
      ∃ pending now since, s'.past = since ++ [] ∧
        (⟨.slot .peek, (some pending, now)⟩ : Event AppCmd.Reply) ∈ since ∧
        (PendingRequestPayload.of pending.request).requestId = Uuid.toString 10 ∧
        "7394".toList.length = (PendingRequestPayload.of pending.request).pinDigits := by
  have hresult : ((playNext ((approvalRuns 0).take 8)).bind fun p =>
      (Prog.replay answeredWillingly (List.replicate 100 ())
        (approveRequest (Uuid.toString 10) "7394") ⟨p.state.state, []⟩).map fun x =>
          (x.1.isOk, x.2.past.filterMap shownIn)) = some (true, [("unlock", 4)]) := by
    decide +kernel
  obtain ⟨p, -, hp⟩ := Option.bind_eq_some_iff.mp hresult
  obtain ⟨⟨x, s'⟩, hreplay, hx⟩ := Option.map_eq_some_iff.mp hp
  obtain ⟨hok, -⟩ := Prod.mk.inj hx
  cases x with
  | error e => cases hok
  | ok u =>
    have hrun : Prog.Outcome (Recorded.exec fun c s r s' => ∃ o, App.exec 0 c o s = some (r, s'))
        (approveRequest (Uuid.toString 10) "7394") ⟨p.state.state, []⟩ (.ok ()) s' :=
      .replay answeredWillingly_exec hreplay
    obtain ⟨pending, now, since, hpast, hmem, hid, hlength, -⟩ := approved_as_shown hrun
    exact ⟨p.state.state, s', hrun, pending, now, since, hpast, hmem, hid, hlength⟩

end Joint
