import Mathlib.Data.String.Basic
import Ferusa.Joint.Framing
import Ferusa.Desktop.Repl

/-!
# The clipboard

A password is copied by a command of the user's, and a helper process is
started to clear the clipboard after a while, if it still holds the
password. The helper gets the command and the password over a pipe
(`helperPayload`, `helperSnapshot`), and reads the clipboard back only
so far as it takes to tell whether it is the password.

What runs outside – the copying command, the reader, the file system – is
a record of what it answers (`ClipboardOutside`).
-/

namespace Desktop

open Framing

/-! ## Text as bytes -/

/-- `str::as_bytes`. -/
def asBytes (s : String) : Bytes := s.toByteArray.data.toList

/-- `str::from_utf8`. -/
def fromUtf8 (bytes : Bytes) : Option String := String.fromUTF8? ⟨bytes.toArray⟩

/-- What may follow the first byte of a character: the bounds of the next
byte, and how many bytes follow in all. -/
def utf8Following (first : UInt8) : Option (UInt8 × UInt8 × Nat) :=
  if 0xC2 ≤ first ∧ first ≤ 0xDF then some (0x80, 0xBF, 1)
  else if first = 0xE0 then some (0xA0, 0xBF, 2)
  else if first = 0xED then some (0x80, 0x9F, 2)
  else if 0xE1 ≤ first ∧ first ≤ 0xEF then some (0x80, 0xBF, 2)
  else if first = 0xF0 then some (0x90, 0xBF, 3)
  else if first = 0xF4 then some (0x80, 0x8F, 3)
  else if 0xF1 ≤ first ∧ first ≤ 0xF3 then some (0x80, 0xBF, 3)
  else none

/-- `Utf8Error`, of bytes that are no text: from which index, and how many
bytes are wrong there, if the bytes do not just end too early. Of the
character at the index, `seen` bytes were read and `owed` are to follow. -/
def utf8Error (index seen owed : Nat) (low high : UInt8) : Bytes → Nat × Option Nat
  | [] => (index, none)
  | b :: rest =>
    match owed with
    | 0 =>
      if b < 0x80 then utf8Error (index + 1) 0 0 low high rest
      else
        match utf8Following b with
        | none => (index, some 1)
        | some (low, high, owed) => utf8Error index 1 owed low high rest
    | 1 =>
      if low ≤ b ∧ b ≤ high then utf8Error (index + seen + 1) 0 0 low high rest
      else (index, some seen)
    | owed + 1 =>
      if low ≤ b ∧ b ≤ high then utf8Error index (seen + 1) owed 0x80 0xBF rest
      else (index, some seen)

/-- The text of a `Utf8Error`. -/
def utf8ErrorText (bytes : Bytes) : String :=
  match utf8Error 0 0 0 0x80 0xBF bytes with
  | (index, some len) => s!"invalid utf-8 sequence of {len} bytes from index {index}"
  | (index, none) => s!"incomplete utf-8 byte sequence from index {index}"

/-- A euro sign lacks its last byte, and is followed by another letter. -/
example : utf8Error 0 0 0 0x80 0xBF [0x61, 0xE2, 0x82] = (1, none) ∧
    utf8Error 0 0 0 0x80 0xBF [0x61, 0xE2, 0x82, 0x62] = (1, some 2) := by decide

theorem length_asBytes (s : String) : (asBytes s).length = byteLength s := rfl

/-- **The bytes of a text give it back.** -/
theorem fromUtf8_asBytes (s : String) : fromUtf8 (asBytes s) = some s := by
  unfold fromUtf8 asBytes
  rw [Array.toArray_toList]
  unfold String.fromUTF8?
  rw [dif_pos s.isValidUTF8]
  rfl

/-- A byte of ASCII is the encoding of its character. -/
theorem utf8EncodeChar_ofUInt8 {c : UInt8} (h : c < 128) :
    String.utf8EncodeChar (Char.ofUInt8 c) = [c] := by
  have hall : ∀ n : Fin 128, String.utf8EncodeChar (Char.ofUInt8 (UInt8.ofNat n)) =
      [UInt8.ofNat n] := by decide
  have hc : UInt8.ofNat c.toNat = c := UInt8.ofNat_toNat
  rw [← hc]
  exact hall ⟨c.toNat, h⟩

/-- **The bytes of a text of ASCII** are its characters. -/
theorem asBytes_ascii {bytes : Bytes} (h : ∀ c ∈ bytes, c < 128) :
    asBytes (String.ofList (bytes.map Char.ofUInt8)) = bytes := by
  have hflat : (bytes.map Char.ofUInt8).flatMap String.utf8EncodeChar = bytes := by
    induction bytes with
    | nil => rfl
    | cons c bytes ih =>
      obtain ⟨hc, hbytes⟩ := List.forall_mem_cons.mp h
      rw [List.map_cons, List.flatMap_cons, utf8EncodeChar_ofUInt8 hc, ih hbytes]
      rfl
  unfold asBytes
  rw [String.toByteArray_ofList, List.utf8Encode, hflat]
  simp

/-! ## The command -/

def allowedClipboardPrograms : List String :=
  ["wl-copy", "xclip", "xsel", "pbcopy", "clip", "clip.exe", "termux-clipboard-set"]
def defaultClearTimeoutSecs : Nat := 30
def maxClearTimeoutSecs : Nat := 60 * 60
def maxCommandBytes : Nat := 4096
def maxPasswordBytes : Nat := 1024 * 1024

/-- `char::is_control`. -/
def isControl (c : Char) : Bool :=
  c.toNat < 0x20 || (0x7f ≤ c.toNat && c.toNat ≤ 0x9f)

/-- `{:?}` of a control character, or of one that needs no escape. -/
def charDebug (c : Char) : String :=
  if c = '\x00' then "'\\0'"
  else if c = '\t' then "'\\t'"
  else if c = '\n' then "'\\n'"
  else if c = '\r' then "'\\r'"
  else if isControl c then "'\\u\x7b" ++ String.ofList (Nat.toDigits 16 c.toNat) ++ "\x7d'"
  else "'" ++ c.toString ++ "'"

/-- The characters a shell would act on. -/
def shellMetacharacters : List Char := [';', '&', '|', '<', '>', Char.ofNat 96, '$', '(', ')']

/-- **`parse_clipboard_command`.** -/
def parseClipboardCommand (command : String) : Except Anyhow (List String) :=
  match command.toList.find? fun c => isControl c || shellMetacharacters.contains c with
  | some c =>
    .error [s!"clipboard command contains unsupported shell metacharacter {charDebug c}"]
  | none =>
    match splitWhitespace (trim command) with
    | [] => .error ["clipboard command cannot be empty"]
    | program :: args =>
      if program.toList.contains '/' || program.toList.contains '\\' then
        .error ["clipboard program must be a bare executable name"]
      else if ¬ allowedClipboardPrograms.contains program then
        let programs := ", ".intercalate allowedClipboardPrograms
        .error ["unsupported clipboard command " ++ String.ofList [Char.ofNat 96] ++ program ++
          String.ofList [Char.ofNat 96] ++ "; use one of: " ++ programs]
      else .ok (program :: args)

/-- What an option of a copying program is to the programs that read and
clear. -/
inductive ExpiryOption where
  /-- It names the target, under this token. -/
  | target (token : String)
  /-- It names the target with the argument after it. -/
  | value (token missing : String) (allowed : Option (List String × String))
  | ignored
  | unsupported (message : String)

/-- The arms of the loop of `expiry_commands`. -/
def expiryOption (program option : String) : ExpiryOption :=
  let unsupported : ExpiryOption := .unsupported "unsupported clipboard expiry option"
  match program with
  | "wl-copy" =>
    if option = "-p" ∨ option = "--primary" then .target "--primary"
    else if option = "-s" ∨ option = "--seat" then .value "--seat" "missing clipboard seat" none
    else if "--seat=".toList.isPrefixOf option.toList then
      if option = "--seat=" then .unsupported "missing clipboard seat" else .target option
    else unsupported
  | "xclip" =>
    if option = "-selection" then
      .value option "missing clipboard selection"
        (some (["primary", "secondary", "clipboard"], "unsupported clipboard selection"))
    else if option = "-display" then .value option "missing display" none
    else if option = "-i" ∨ option = "-in" then .ignored
    else unsupported
  | "xsel" =>
    if option = "-i" ∨ option = "--input" then .ignored
    else if ["-p", "--primary", "-s", "--secondary", "-b", "--clipboard"].contains option then
      .target option
    else if option = "--display" then .value option "missing display" none
    else unsupported
  | "pbcopy" =>
    if option = "-pboard" then
      .value option "missing pasteboard"
        (some (["general", "ruler", "find", "font"], "unsupported pasteboard"))
    else unsupported
  | _ => unsupported

/-- The loop of `expiry_commands`: the tokens that name the target. -/
def expiryTarget (program : String) : List String → Except Anyhow (List String)
  | [] => .ok []
  | option :: args =>
    match expiryOption program option, args with
    | .target token, args => do
      let target ← expiryTarget program args
      pure (token :: target)
    | .ignored, args => expiryTarget program args
    | .unsupported message, _ => .error [message]
    | .value _ missing _, [] => .error [missing]
    | .value token _ allowed, value :: args =>
      match allowed.filter fun x => !x.1.contains value with
      | some (_, message) => .error [message]
      | none => do
        let target ← expiryTarget program args
        pure (token :: value :: target)

/-- The reader of a program, and the options that make the two programs
read and clear. -/
def expiryProgram : String → Option (String × Option String × Option String)
  | "wl-copy" => some ("wl-paste", some "--no-newline", some "--clear")
  | "xclip" => some ("xclip", some "-o", none)
  | "xsel" => some ("xsel", some "--output", none)
  | "pbcopy" => some ("pbpaste", none, none)
  | "termux-clipboard-set" => some ("termux-clipboard-get", none, none)
  | _ => none

/-- **`expiry_commands`**: the command that reads what was copied, and the
one that clears it. -/
def expiryCommands : List String → Except Anyhow (List String × List String)
  | [] => .error ["empty clipboard command"]
  | program :: args => do
    let target ← expiryTarget program args
    match expiryProgram program with
    | none => .error ["unsupported clipboard expiry program"]
    | some (reader, readOption, clearOption) =>
      pure (reader :: target ++ readOption.toList, program :: target ++ clearOption.toList)

/-- `ownership_reader_program`. -/
def ownershipReaderProgram : String → String
  | "wl-copy" => "wl-paste"
  | "pbcopy" => "pbpaste"
  | "termux-clipboard-set" => "termux-clipboard-get"
  | program => program

/-! ## The pipe to the helper -/

/-- **`helper_payload`.** -/
def helperPayload (password command : String) : Except Anyhow Bytes :=
  if byteLength command > maxCommandBytes ∨ byteLength password > maxPasswordBytes then
    .error ["clipboard helper input is too large"]
  else .ok (toLeBytes (byteLength command) ++ asBytes command ++ asBytes password)

/-- `slice::get`, of a range. -/
def getRange (bytes : Bytes) (start stop : Nat) : Option Bytes :=
  if start ≤ stop ∧ stop ≤ bytes.length then some ((bytes.take stop).drop start) else none

/-- A failure of the helper. -/
def helperError {α : Type} (e : Anyhow) : Except (Fault Anyhow) α := .error (.failed e)

/-- `helper_snapshot`, after the header. -/
def helperSnapshotBody (payload : Bytes) (len : Nat) :
    Except (Fault Anyhow) (List String × Bytes) :=
  if len > maxCommandBytes then helperError ["clipboard command is too large"]
  else
    match getRange payload 4 (4 + len) with
    | none => helperError ["truncated helper command"]
    | some bytes =>
      match fromUtf8 bytes with
      | none => helperError [utf8ErrorText bytes]
      | some command => do
        let expected ← Checked.slice payload (4 + len) payload.length
        if expected.length > maxPasswordBytes then
          helperError ["clipboard ownership value is too large"]
        else
          let argv ← (parseClipboardCommand command).mapError .failed
          let _ ← (expiryCommands argv).mapError .failed
          pure (argv, expected)

/-- **`helper_snapshot`.** -/
def helperSnapshot (payload : Bytes) : Except (Fault Anyhow) (List String × Bytes) :=
  match payload with
  | b₀ :: b₁ :: b₂ :: b₃ :: _ => helperSnapshotBody payload (fromLeBytes b₀ b₁ b₂ b₃)
  | _ => helperError ["missing helper header"]

/-! ## Copying -/

/-- What is found outside when a password is copied: the file of the
command, how the command ends, the file of the timeout, the programs in
the path, and whether the helper is started and takes its payload. -/
structure ClipboardOutside where
  commandFile : Except String String
  pipe : List String → Except Anyhow Unit
  timeoutFile : Option (Except String String)
  available : String → Bool
  spawn : Bytes → Except Anyhow Unit

/-- `ClipboardClearStatus`. -/
inductive ClipboardClearStatus where
  | scheduled (seconds : Nat)
  | disabled
  | unsupported (what : String)
  deriving DecidableEq

/-- `validate_clipboard_command`. -/
def validateClipboardCommand (command : String) : Except Anyhow Unit := do
  if (trim command).isEmpty then .error ["clipboard command cannot be empty"]
  else if command.toList.any ['\x00', '\n', '\r'].contains then
    .error ["clipboard command must be a single line"]
  else
    let _ ← parseClipboardCommand command
    pure ()

/-- `read_clipboard_command`. -/
def readClipboardCommand (o : ClipboardOutside) : Except Anyhow String := do
  let command ← (o.commandFile.mapError fun e => ["read clipboard command", e])
  validateClipboardCommand (trim command)
  pure (trim command)

/-- `validate_clear_timeout`. -/
def validateClearTimeout (seconds : Nat) : Except Anyhow Unit :=
  if seconds > maxClearTimeoutSecs then
    .error [s!"clipboard clear timeout must be between 0 and {maxClearTimeoutSecs} seconds"]
  else .ok ()

/-- `str::parse::<u64>`, of a text without a sign other than a plus. -/
def parseU64 (s : String) : Option Nat :=
  let digits := if s.toList.head? = some '+' then s.toList.tail else s.toList
  if digits.isEmpty ∨ ¬ digits.all Char.isDigit then none
  else
    let n := digits.foldl (fun n c => 10 * n + (c.toNat - '0'.toNat)) 0
    if n < 2 ^ 64 then some n else none

/-- What `str::parse::<u64>` says of digits that it refuses, the first failure. -/
def digitsError (n : Nat) : List Char → String
  | [] => "number too large to fit in target type"
  | c :: digits =>
    if ¬ c.isDigit then "invalid digit found in string"
    else if 10 * n + (c.toNat - '0'.toNat) < 2 ^ 64 then
      digitsError (10 * n + (c.toNat - '0'.toNat)) digits
    else "number too large to fit in target type"

/-- What `str::parse::<u64>` says of a text that it refuses. -/
def parseIntError (s : String) : String :=
  if s.isEmpty then "cannot parse integer from empty string"
  else if s = "+" then "invalid digit found in string"
  else digitsError 0 (if s.toList.head? = some '+' then s.toList.tail else s.toList)

/-- `read_clear_timeout`. -/
def readClearTimeout (o : ClipboardOutside) : Except Anyhow Nat := do
  match o.timeoutFile with
  | none => pure defaultClearTimeoutSecs
  | some raw =>
    let raw ← raw.mapError fun e => ["read clipboard clear timeout", e]
    match parseU64 (trim raw) with
    | none => .error ["parse clipboard clear timeout", parseIntError (trim raw)]
    | some seconds =>
      validateClearTimeout seconds
      pure seconds

/-- `spawn_clear_helper`. -/
def spawnClearHelper (o : ClipboardOutside) (password command : String) :
    Except Anyhow Unit := do
  let payload ← helperPayload password command
  o.spawn payload

/-- **`copy_password`.** -/
def copyPassword (o : ClipboardOutside) (password : String) :
    Except Anyhow ClipboardClearStatus := do
  let command ← readClipboardCommand o
  let argv ← parseClipboardCommand command
  o.pipe argv
  let timeout ← readClearTimeout o
  if timeout = 0 then pure .disabled
  else
    let argv ← parseClipboardCommand command
    match expiryCommands argv with
    | .error _ => pure (.unsupported (argv.headD "" ++ " with its configured options"))
    | .ok _ =>
      let program := argv.headD ""
      let reader := ownershipReaderProgram program
      if reader ≠ program ∧ ¬ o.available reader then
        pure (.unsupported s!"{program} (missing {reader})")
      else
        match spawnClearHelper o password command with
        | .error _ => pure (.unsupported "the automatic clipboard clear helper")
        | .ok () => pure (.scheduled timeout)

/-! ## Clearing -/

/-- `read_clipboard_value`: what the reader writes is read so far, and the
reader has to succeed. -/
def readClipboardValue (run : List String → Except Anyhow (Bytes × Bool)) (argv : List String)
    (limit : Nat) : Except Anyhow Bytes := do
  let (reader, _) ← expiryCommands argv
  let (content, success) ← run reader
  if success then pure (content.take limit) else .error ["clipboard reader exited"]

/-- The most that `run_clear_helper` reads from its pipe. -/
def helperPipeLimit : Nat := 4 + maxCommandBytes + maxPasswordBytes + 1

/-- **`run_clear_helper`**: the clear command that is run, if one is. -/
def runClearHelper (afterSecs : Nat) (input : Bytes)
    (run : List String → Except Anyhow (Bytes × Bool)) :
    Except (Fault Anyhow) (Option (List String)) := do
  (validateClearTimeout afterSecs).mapError .failed
  let (argv, expected) ← helperSnapshot (input.take helperPipeLimit)
  let current ← (readClipboardValue run argv (expected.length + 1)).mapError .failed
  if current = expected then
    let (_, clear) ← (expiryCommands argv).mapError .failed
    pure (some clear)
  else pure none

/-! ## What the helper gets -/

/-- A program that succeeds has run its first step. -/
theorem of_bind_eq_ok {ε α β : Type} {x : Except ε α} {f : α → Except ε β} {b : β}
    (h : (x >>= f) = .ok b) : ∃ a, x = .ok a ∧ f a = .ok b := by
  cases x with
  | ok a => exact ⟨a, rfl, h⟩
  | error e => cases h

/-- **The payload is within its limits**, and so shorter than what is read
from the pipe. -/
theorem helperPayload_eq_ok {password command : String} {payload : Bytes}
    (h : helperPayload password command = .ok payload) :
    byteLength command ≤ maxCommandBytes ∧ byteLength password ≤ maxPasswordBytes ∧
      payload = toLeBytes (byteLength command) ++ asBytes command ++ asBytes password ∧
      payload.length < helperPipeLimit := by
  unfold helperPayload at h
  split at h
  · cases h
  · next hlen =>
    rw [not_or, Nat.not_lt, Nat.not_lt] at hlen
    obtain rfl := Except.ok.inj h
    refine ⟨hlen.1, hlen.2, rfl, ?_⟩
    unfold helperPipeLimit
    rw [List.length_append, List.length_append, length_toLeBytes, length_asBytes, length_asBytes]
    omega

/-- **What crosses the pipe arrives**: the parsed command and the bytes of the
password. -/
theorem helperSnapshot_payload {password command : String} {payload : Bytes}
    {argv : List String} {commands : List String × List String}
    (h : helperPayload password command = .ok payload)
    (hargv : parseClipboardCommand command = .ok argv)
    (hexpiry : expiryCommands argv = .ok commands) :
    helperSnapshot payload = .ok (argv, asBytes password) := by
  obtain ⟨hc, hp, rfl, -⟩ := helperPayload_eq_ok h
  have hbytes : ∀ n : Nat, toLeBytes n ++ asBytes command ++ asBytes password =
      UInt8.ofNat n :: UInt8.ofNat (n / 2 ^ 8) :: UInt8.ofNat (n / 2 ^ 16) ::
        UInt8.ofNat (n / 2 ^ 24) :: (asBytes command ++ asBytes password) := fun _ => rfl
  have hlen : fromLeBytes (UInt8.ofNat (byteLength command))
      (UInt8.ofNat (byteLength command / 2 ^ 8)) (UInt8.ofNat (byteLength command / 2 ^ 16))
      (UInt8.ofNat (byteLength command / 2 ^ 24)) = byteLength command := by
    refine fromLeBytes_ofNat (Nat.lt_of_le_of_lt hc ?_)
    unfold maxCommandBytes
    omega
  have hsize : (asBytes command).length = byteLength command := length_asBytes command
  rw [hbytes]
  show helperSnapshotBody _ (fromLeBytes _ _ _ _) = _
  rw [hlen, ← hbytes]
  unfold helperSnapshotBody
  rw [if_neg (Nat.not_lt.mpr hc)]
  have htotal : (toLeBytes (byteLength command) ++ asBytes command ++ asBytes password).length =
      4 + byteLength command + byteLength password := by
    rw [List.length_append, List.length_append, length_toLeBytes, hsize, length_asBytes]
  have hrange : getRange (toLeBytes (byteLength command) ++ asBytes command ++ asBytes password) 4
      (4 + byteLength command) = some (asBytes command) := by
    unfold getRange
    rw [if_pos ⟨by omega, by omega⟩]
    have htake : (toLeBytes (byteLength command) ++ asBytes command ++ asBytes password).take
        (4 + byteLength command) = toLeBytes (byteLength command) ++ asBytes command := by
      rw [List.take_append_of_le_length (by rw [List.length_append, length_toLeBytes, hsize]),
        List.take_of_length_le (by rw [List.length_append, length_toLeBytes, hsize])]
    rw [htake, List.drop_append_of_le_length (by rw [length_toLeBytes])]
    rfl
  have hslice : (Checked.slice (toLeBytes (byteLength command) ++ asBytes command ++
      asBytes password) (4 + byteLength command) (toLeBytes (byteLength command) ++
      asBytes command ++ asBytes password).length : Except (Fault Anyhow) Bytes) =
      .ok (asBytes password) := by
    unfold Checked.slice
    rw [if_pos ⟨by omega, Nat.le_refl _⟩, List.take_length,
      List.drop_append_of_le_length (by rw [List.length_append, length_toLeBytes, hsize]),
      List.drop_eq_nil_of_le (by rw [List.length_append, length_toLeBytes, hsize])]
    rfl
  simp only [hrange, fromUtf8_asBytes, hslice]
  show (if (asBytes password).length > maxPasswordBytes then _ else _) = _
  rw [if_neg (by rw [length_asBytes]; omega), hargv]
  show ((expiryCommands argv).mapError Fault.failed >>= fun _ => _) = _
  rw [hexpiry]
  rfl

/-- **`helper_snapshot` never panics**, whatever the bytes: what is cut off is
there. -/
theorem helperSnapshot_ne_panicked (payload : Bytes) :
    helperSnapshot payload ≠ .error .panicked := by
  have hfail : ∀ {α : Type} (x : Except Anyhow α),
      x.mapError Fault.failed ≠ (.error .panicked : Except (Fault Anyhow) α) := by
    intro α x
    cases x with
    | ok a => exact nofun
    | error e => exact nofun
  have hbody : ∀ len, helperSnapshotBody payload len ≠ .error .panicked := by
    intro len
    unfold helperSnapshotBody
    split
    · exact nofun
    · split
      · exact nofun
      · next bytes hrange =>
        split
        · exact nofun
        · unfold getRange at hrange
          split at hrange
          · next hin =>
            unfold Checked.slice
            rw [if_pos ⟨hin.2, Nat.le_refl _⟩]
            show (if _ then _ else _) ≠ _
            split
            · exact nofun
            · refine bind_ne_panicked (hfail _) fun argv _ => ?_
              exact bind_ne_panicked (hfail _) fun _ _ => nofun
          · cases hrange
  unfold helperSnapshot
  split
  · exact hbody _
  · exact nofun

/-! ## What is scheduled -/

/-- What was checked when clearing is scheduled. -/
structure Scheduled (o : ClipboardOutside) (password : String) (seconds : Nat)
    (command : String) (argv reader clear : List String) (payload : Bytes) : Prop where
  configured : readClipboardCommand o = .ok command
  parsed : parseClipboardCommand command = .ok argv
  expiry : expiryCommands argv = .ok (reader, clear)
  sent : helperPayload password command = .ok payload
  taken : o.spawn payload = .ok ()
  timeout : validateClearTimeout seconds = .ok ()

/-- A timeout that is read is a valid one. -/
theorem readClearTimeout_eq_ok {o : ClipboardOutside} {seconds : Nat}
    (h : readClearTimeout o = .ok seconds) : validateClearTimeout seconds = .ok () := by
  unfold readClearTimeout at h
  split at h
  · obtain rfl := Except.ok.inj h
    rfl
  · obtain ⟨text, -, h⟩ := of_bind_eq_ok h
    split at h
    · cases h
    · obtain ⟨u, hu, h⟩ := of_bind_eq_ok h
      obtain rfl := Except.ok.inj h
      exact hu

theorem copyPassword_scheduled {o : ClipboardOutside} {password : String} {seconds : Nat}
    (h : copyPassword o password = .ok (.scheduled seconds)) :
    ∃ command argv reader clear payload,
      Scheduled o password seconds command argv reader clear payload := by
  obtain ⟨command, hcommand, h⟩ := of_bind_eq_ok h
  obtain ⟨argv, hargv, h⟩ := of_bind_eq_ok h
  obtain ⟨_, -, h⟩ := of_bind_eq_ok h
  obtain ⟨timeout, htimeout, h⟩ := of_bind_eq_ok h
  split at h
  · cases h
  · obtain ⟨argv', hargv', h⟩ := of_bind_eq_ok h
    obtain rfl : argv = argv' := Except.ok.inj (hargv.symm.trans hargv')
    cases hexpiry : expiryCommands argv with
    | error e =>
      simp only [hexpiry] at h
      cases h
    | ok commands =>
      simp only [hexpiry] at h
      split at h
      · cases h
      · cases hspawn : spawnClearHelper o password command with
        | error e =>
          simp only [hspawn] at h
          cases h
        | ok u =>
          simp only [hspawn] at h
          obtain rfl : timeout = seconds := ClipboardClearStatus.scheduled.inj (Except.ok.inj h)
          obtain ⟨payload, hpayload, htaken⟩ := of_bind_eq_ok hspawn
          exact ⟨command, argv, commands.1, commands.2, payload, hcommand, hargv, hexpiry,
            hpayload, htaken, readClearTimeout_eq_ok htimeout⟩

/-- **Reading one byte more than expected tells whether it is what is
expected.** -/
theorem take_succ_eq_iff {content expected : Bytes} :
    content.take (expected.length + 1) = expected ↔ content = expected := by
  constructor
  · intro h
    have hlen := congrArg List.length h
    rw [List.length_take] at hlen
    rw [List.take_of_length_le (by omega)] at h
    exact h
  · intro h
    rw [h, List.take_of_length_le (Nat.le_succ _)]

/-- **What the helper does** with a payload that was scheduled, and a
clipboard its reader reads: it clears it if it is the password. -/
theorem Scheduled.clears {o : ClipboardOutside} {password command : String}
    {seconds : Nat} {argv reader clear : List String} {payload content : Bytes}
    {run : List String → Except Anyhow (Bytes × Bool)}
    (h : Scheduled o password seconds command argv reader clear payload)
    (hrun : run reader = .ok (content, true)) :
    runClearHelper seconds payload run =
      .ok (if content = asBytes password then some clear else none) := by
  obtain ⟨-, -, -, hlen⟩ := helperPayload_eq_ok h.sent
  have hvalue : readClipboardValue run argv ((asBytes password).length + 1) =
      .ok (content.take ((asBytes password).length + 1)) := by
    unfold readClipboardValue
    rw [h.expiry]
    show (run reader >>= fun x => _) = _
    rw [hrun]
    rfl
  unfold runClearHelper
  rw [h.timeout, List.take_of_length_le (Nat.le_of_lt hlen),
    helperSnapshot_payload h.sent h.parsed h.expiry]
  show ((readClipboardValue run argv ((asBytes password).length + 1)).mapError Fault.failed >>=
    fun current => _) = _
  rw [hvalue]
  show (if content.take ((asBytes password).length + 1) = asBytes password then _ else _) = _
  by_cases heq : content = asBytes password
  · rw [if_pos (take_succ_eq_iff.mpr heq), if_pos heq, h.expiry]
    rfl
  · rw [if_neg (fun ht => heq (take_succ_eq_iff.mp ht)), if_neg heq]
    rfl

/-- A clipboard that cannot be read is left alone. -/
theorem Scheduled.leaves {o : ClipboardOutside} {password command : String}
    {seconds : Nat} {argv reader clear : List String} {payload : Bytes}
    {run : List String → Except Anyhow (Bytes × Bool)}
    (h : Scheduled o password seconds command argv reader clear payload)
    (hrun : ∀ content, run reader ≠ .ok (content, true)) (cleared : List String) :
    runClearHelper seconds payload run ≠ .ok (some cleared) := by
  obtain ⟨-, -, -, hlen⟩ := helperPayload_eq_ok h.sent
  have hvalue : ∃ e, readClipboardValue run argv ((asBytes password).length + 1) = .error e := by
    unfold readClipboardValue
    rw [h.expiry]
    show ∃ e, (run reader >>= fun x => _) = _
    cases hr : run reader with
    | error e => exact ⟨e, rfl⟩
    | ok x =>
      obtain ⟨content, success⟩ := x
      cases success with
      | false => exact ⟨_, rfl⟩
      | true => exact absurd hr (hrun content)
  obtain ⟨e, hvalue⟩ := hvalue
  unfold runClearHelper
  rw [h.timeout, List.take_of_length_le (Nat.le_of_lt hlen),
    helperSnapshot_payload h.sent h.parsed h.expiry]
  show ((readClipboardValue run argv ((asBytes password).length + 1)).mapError Fault.failed >>=
    fun current => _) ≠ _
  rw [hvalue]
  exact nofun

/-- **Clearing touches the clipboard only if it still holds the password.**
When clearing was scheduled, the payload is shorter than what is read from
the pipe, the helper finds in it the parsed command and the bytes of the
password, and it runs the clear command exactly when the content that its
reader gives is, byte for byte, the password. No bytes at all make the
helper panic. -/
theorem clipboard_cleared_iff_unchanged {o : ClipboardOutside} {password : String}
    {seconds : Nat} (h : copyPassword o password = .ok (.scheduled seconds)) :
    (∃ command argv reader clear payload, readClipboardCommand o = .ok command ∧
      parseClipboardCommand command = .ok argv ∧ expiryCommands argv = .ok (reader, clear) ∧
      helperPayload password command = .ok payload ∧ o.spawn payload = .ok () ∧
      payload.length < helperPipeLimit ∧ helperSnapshot payload = .ok (argv, asBytes password) ∧
      ∀ run : List String → Except Anyhow (Bytes × Bool),
        (∀ content, run reader = .ok (content, true) →
          runClearHelper seconds payload run =
            .ok (if content = asBytes password then some clear else none)) ∧
        ((∀ content, run reader ≠ .ok (content, true)) →
          ∀ cleared, runClearHelper seconds payload run ≠ .ok (some cleared))) ∧
      ∀ bytes, helperSnapshot bytes ≠ .error .panicked := by
  obtain ⟨command, argv, reader, clear, payload, hs⟩ := copyPassword_scheduled h
  obtain ⟨-, -, -, hlen⟩ := helperPayload_eq_ok hs.sent
  refine ⟨⟨command, argv, reader, clear, payload, hs.configured, hs.parsed, hs.expiry, hs.sent,
    hs.taken, hlen, helperSnapshot_payload hs.sent hs.parsed hs.expiry, fun run =>
      ⟨fun content hrun => hs.clears hrun, fun hrun => hs.leaves hrun⟩⟩,
    helperSnapshot_ne_panicked⟩

/-- A machine with the Wayland programs. -/
def wayland : ClipboardOutside where
  commandFile := .ok "wl-copy --primary\n"
  pipe _ := .ok ()
  timeoutFile := none
  available _ := true
  spawn _ := .ok ()

theorem clipboard_cleared_iff_unchanged_wayland :
    ∃ command argv payload, parseClipboardCommand command = .ok argv ∧
      helperSnapshot payload = .ok (argv, asBytes "correct horse") ∧
      payload.length < helperPipeLimit := by
  obtain ⟨⟨command, argv, -, -, payload, -, hargv, -, -, -, hlen, hsnapshot, -⟩, -⟩ :=
    @clipboard_cleared_iff_unchanged wayland "correct horse" 30 rfl
  exact ⟨command, argv, payload, hargv, hsnapshot, hlen⟩

end Desktop
