import Ferusa.Desktop.PairingText
import Ferusa.Desktop.Returning

/-!
# The pairing files as they are on the disk

In the other modules the contents of `pairing.json` are held decoded. Here
they are bytes: the text of a JSON object, two of whose fields are
hexadecimal. What `serde_json` makes of an object and of bytes, what `hex`
makes of bytes and of digits, and which 32 bytes are a node id, is a parameter
(`PairingFormat`), with what the code relies on: what is written is read back.
The white space around the digits, the lengths and the version are checked by
this program.

The functions of `paths.rs` that read and write the two files appear here a
second time, of bytes; `parseReadState_decoded` and `pairingStatus_decoded` say
that decoding the directory first makes no difference.
-/

namespace Desktop

open Directory

/-- **What the crates do with the contents of `pairing.json`.** -/
structure PairingFormat extends HexCrate where
  /-- `serde_json::to_vec_pretty`. -/
  toVecPretty : RawPairingFile → Except String Bytes
  /-- `serde_json::from_slice`. -/
  fromSlice : Bytes → Except String RawPairingFile
  /-- Whether `iroh::PublicKey::from_bytes` accepts the bytes, which the key then has. -/
  publicKey : Bytes32 → Except String Unit
  /-- The contents of a file that is held decoded. -/
  bytesOf : Content → Bytes
  fromSlice_toVecPretty : ∀ file, ∃ json, toVecPretty file = .ok json ∧ fromSlice json = .ok file
  bytesOf_bytes : ∀ bytes, bytesOf (.bytes bytes) = bytes

namespace PairingFormat

variable (F : PairingFormat)

/-! ## The readers and the writer -/

/-- `parse_pairing_file`. -/
def parsePairingFile (file : RawPairingFile) : Except PairingReadError PairingData :=
  if file.version ≠ 3 then .error (.state s!"unsupported version {file.version}")
  else do
    let phoneBytes ← (F.hexDecode (trim file.phoneNodeId)).mapError fun e =>
      .phone s!"invalid hex: {e}"
    if h : phoneBytes.length = 32 then
      let phoneArr : Bytes32 := ⟨phoneBytes.toArray, h⟩
      (F.publicKey phoneArr).mapError fun e => .phone s!"invalid node id: {e}"
      let approvalPublicKeyDer ← (F.hexDecode (trim file.approvalPublicKeyDer)).mapError fun e =>
        .state s!"invalid public key hex: {e}"
      if approvalPublicKeyDer.isEmpty then .error (.state "empty approval public key")
      else
        .ok {
          pairingId := file.pairingId
          phoneNodeId := phoneArr
          approvalPublicKeyDer
          createdAtMs := file.createdAtMs.toNat }
    else .error (.phone s!"expected 32 bytes, got {phoneBytes.length}")

/-- The pairing in the contents of `pairing.json`. -/
def parseContents (contents : Content) : Except PairingReadError PairingData :=
  match F.fromSlice (F.bytesOf contents) with
  | .error e => .error (.state e)
  | .ok file => F.parsePairingFile file

/-- The pairing in what was read of `pairing.json`. -/
def parseReadState : Except IoError Content → Except PairingReadError PairingData
  | .error e => .error (.state e.toString)
  | .ok contents => F.parseContents contents

/-- `read_pairing_data_from_state`. -/
def readPairingDataFromState : FileProg (Except PairingReadError PairingData) := do
  let r ← Prog.perform (FileCmd.read .pairingState)
  pure (F.parseReadState r)

/-- **`read_pairing_data`.** -/
def readPairingData : FileProg PairingData := do
  if ← pathExists .pairingState then
    let r ← F.readPairingDataFromState
    Prog.ofExcept (r.mapError PairingReadError.intoAnyhow)
  else Prog.bail "not paired with a phone"

/-- **`read_pending_pairing_data`.** -/
def readPendingPairingData : FileProg PairingData := do
  let raw ← readFile "read pending_pairing.json" .pendingPairingState
  match F.fromSlice (F.bytesOf raw) with
  | .error e => .fail ["parse pending_pairing.json", e]
  | .ok file =>
    Prog.ofExcept ((F.parsePairingFile file).mapError PairingReadError.intoAnyhow)

/-- The file that is written for a pairing. -/
def fileOf (data : PairingData) : RawPairingFile where
  version := 3
  pairingId := data.pairingId
  phoneNodeId := F.hexEncode data.phoneNodeId.toList
  approvalPublicKeyDer := F.hexEncode data.approvalPublicKeyDer
  createdAtMs := UInt64.ofNat data.createdAtMs

/-- **`write_pending_pairing_data`.** -/
def writePendingPairingData (data : PairingData) : FileProg Unit :=
  match F.toVecPretty (F.fileOf data) with
  | .error e => .fail ["serialize pending pairing data", e]
  | .ok json =>
    (writePrivateFile .pendingPairingState (.bytes json)).context "write pending_pairing.json"

/-- **`pairing_status`.** -/
def pairingStatus : FileProg PairingStatus := do
  if ← pathExists .pendingPairingState then pure .pending
  else if ← pathExists .pairingTransactionState then pure .pending
  else if ← pathExists .pairingState then
    let r ← F.readPairingDataFromState
    pure (.ofRead r)
  else if ← pathExists .phoneId then
    pure (.invalidPairing "legacy HMAC pairing files are unsupported; re-pair this dev vault")
  else if ← pathExists .hmacKey then
    pure (.invalidPairing "legacy HMAC pairing files are unsupported; re-pair this dev vault")
  else pure .missingPhoneId

/-! ## A file that was written -/

/-- A pairing of the types of the source: the node is one, the key is not
empty, and the time fits. -/
structure Valid (data : PairingData) : Prop where
  node : F.publicKey data.phoneNodeId = .ok ()
  key : data.approvalPublicKeyDer ≠ []
  time : data.createdAtMs < 2 ^ 64

variable {F}

theorem hexDecode_trim (bytes : Bytes) : F.hexDecode (trim (F.hexEncode bytes)) = .ok bytes := by
  have hblank := F.hexEncode_digits bytes
  rw [trim_eq_self (fun c hc => hblank c (List.mem_of_mem_head? hc))
    fun c hc => hblank c (List.mem_of_getLast? hc)]
  exact F.hexDecode_hexEncode bytes

/-- **The file of a pairing is parsed as that pairing.** -/
theorem parsePairingFile_fileOf {data : PairingData} (h : F.Valid data) :
    F.parsePairingFile (F.fileOf data) = .ok data := by
  have hlength : data.phoneNodeId.toList.length = 32 := Vector.length_toList ..
  have hkey : data.approvalPublicKeyDer.isEmpty = false := List.isEmpty_eq_false_iff.mpr h.key
  have htime : (UInt64.ofNat data.createdAtMs).toNat = data.createdAtMs :=
    Nat.mod_eq_of_lt h.time
  unfold parsePairingFile
  rw [if_neg (by exact fun hne => hne rfl)]
  unfold fileOf
  simp only [hexDecode_trim]
  show (if hl : _ then _ else _) = _
  rw [dif_pos hlength]
  have hnode : (⟨data.phoneNodeId.toList.toArray, hlength⟩ : Bytes32) = data.phoneNodeId :=
    Vector.toArray_inj.mp (Array.toArray_toList ..)
  rw [hnode, h.node]
  show (if _ then _ else Except.ok _) = _
  rw [hkey, if_neg Bool.false_ne_true, htime]

/-- **A pairing that was parsed is a valid one.** -/
theorem valid_of_parse {file : RawPairingFile} {data : PairingData}
    (h : F.parsePairingFile file = .ok data) : F.Valid data := by
  unfold parsePairingFile at h
  split at h
  · cases h
  · cases hphone : F.hexDecode (trim file.phoneNodeId) with
    | error e =>
      rw [hphone] at h
      cases h
    | ok phoneBytes =>
      rw [hphone] at h
      change (if hl : _ then _ else _) = _ at h
      split at h
      · next hlength =>
        cases hnode : F.publicKey ⟨phoneBytes.toArray, hlength⟩ with
        | error e =>
          rw [hnode] at h
          cases h
        | ok u =>
          rw [hnode] at h
          cases hder : F.hexDecode (trim file.approvalPublicKeyDer) with
          | error e =>
            rw [hder] at h
            cases h
          | ok der =>
            rw [hder] at h
            change (if _ then _ else Except.ok _) = _ at h
            split at h
            · cases h
            · next hkey =>
              obtain rfl := Except.ok.inj h
              exact ⟨hnode, fun hnil => hkey (List.isEmpty_iff.mpr hnil),
                file.createdAtMs.toNat_lt⟩
      · cases h

/-- **Writing down what was parsed gives a file that parses to the same.** -/
theorem rewritten {contents : Content} {data : PairingData}
    (h : F.parseContents contents = .ok data) :
    ∃ json, F.toVecPretty (F.fileOf data) = .ok json ∧
      F.parseContents (.bytes json) = .ok data := by
  obtain ⟨json, hjson, hslice⟩ := F.fromSlice_toVecPretty (F.fileOf data)
  refine ⟨json, hjson, ?_⟩
  unfold parseContents at h ⊢
  rw [F.bytesOf_bytes, hslice]
  split at h
  · cases h
  · exact parsePairingFile_fileOf (valid_of_parse h)

end PairingFormat

/-! ## Looking at a directory -/

/-- **What is seen of a directory**: what is there, and what the files that can
be read contain. No other call is made. -/
def look (broken : FileName → Option IoError) : (c : FileCmd) → Directory → c.Reply × Directory
  | .exists f, d => ((d f).isSome, d)
  | .read f, d => (readReply f d, d)
  | .quiet _, d => (.error (.other "not a reader"), d)
  | .create _, d => (.error (.other "not a reader"), d)
  | .renameTemp _ _, d => (.error (.other "not a reader"), d)
  | .rename _ _, d => (.error (.other "not a reader"), d)
  | .remove _, d => (.error (.other "not a reader"), d)
  | .syncParent, d => (.error (.other "not a reader"), d)
where
  readReply (f : FileName) (d : Directory) : Except IoError Content :=
    match broken f, d f with
    | some e, _ => .error e
    | none, some contents => .ok contents
    | none, none => .error .notFound

/-- **The calls answer what is seen**: a file that cannot be read fails so, and
the others are as they are. -/
theorem look_exec (broken : FileName → Option IoError) (f : FileName) (s : Files) :
    Files.exec (.exists f) (.ok 0) s = some ((look broken (.exists f) s.named).1, s) ∧
      Files.exec (.read f) ((broken f).elim (.ok 0) .fail) s =
        some ((look broken (.read f) s.named).1, s) := by
  refine ⟨rfl, ?_⟩
  show _ = some (look.readReply broken f s.named, s)
  unfold look.readReply
  cases broken f with
  | some e => rfl
  | none =>
    show Files.exec (.read f) (.ok 0) s = _
    cases h : s.named f with
    | none => simp only [Files.exec, h]
    | some contents => simp only [Files.exec, h]

section Look

variable (broken : FileName → Option IoError) (d : Directory)

theorem run_pathExists (f : FileName) :
    (pathExists f).run (look broken) d = (.ok (d f).isSome, d) := rfl

variable (F : PairingFormat)

theorem PairingFormat.run_readPairingDataFromState :
    F.readPairingDataFromState.run (look broken) d =
      (.ok (F.parseReadState (look.readReply broken .pairingState d)), d) := rfl

/-- **What `read_pairing_data` returns.** -/
theorem PairingFormat.run_readPairingData_eq_ok {data : PairingData} :
    F.readPairingData.run (look broken) d = (.ok data, d) ↔
      d .pairingState ≠ none ∧
        F.parseReadState (look.readReply broken .pairingState d) = .ok data := by
  unfold readPairingData
  rw [Prog.run_bind_ok (look broken) (run_pathExists broken d _)]
  cases h : d .pairingState with
  | none =>
    constructor
    · intro hrun
      cases hrun
    · intro hrun
      exact absurd rfl hrun.1
  | some contents =>
    show (F.readPairingDataFromState >>= _).run (look broken) d = _ ↔ _
    rw [Prog.run_bind_ok (look broken) (F.run_readPairingDataFromState broken d)]
    cases F.parseReadState (look.readReply broken .pairingState d) with
    | error e =>
      constructor
      · intro hrun
        cases hrun
      · intro hrun
        cases hrun.2
    | ok data' =>
      show (Except.ok data', d) = (Except.ok data, d) ↔ _
      simp

/-- **What `read_pending_pairing_data` returns.** -/
theorem PairingFormat.run_readPendingPairingData {contents : Content} {data : PairingData}
    (hbroken : broken .pendingPairingState = none)
    (hd : d .pendingPairingState = some contents) (h : F.parseContents contents = .ok data) :
    F.readPendingPairingData.run (look broken) d = (.ok data, d) := by
  have hread : look.readReply broken .pendingPairingState d = .ok contents := by
    unfold look.readReply
    rw [hbroken, hd]
  have hrun : (readFile "read pending_pairing.json" .pendingPairingState).run (look broken) d =
      (.ok contents, d) := by
    show (fallible "read pending_pairing.json"
      (look.readReply broken .pendingPairingState d)).run (look broken) d = _
    rw [hread]
    rfl
  unfold readPendingPairingData
  rw [Prog.run_bind_ok (look broken) hrun]
  unfold parseContents at h
  split at h
  · cases h
  · next file hslice =>
    show (Prog.ofExcept ((F.parsePairingFile file).mapError _)).run (look broken) d = _
    rw [h]
    rfl

/-- The body of `pairing_status`, over what reads the recorded pairing. -/
def pairingStatusOf (read : FileProg (Except PairingReadError PairingData)) :
    FileProg PairingStatus := do
  if ← pathExists .pendingPairingState then pure .pending
  else if ← pathExists .pairingTransactionState then pure .pending
  else if ← pathExists .pairingState then
    let r ← read
    pure (.ofRead r)
  else if ← pathExists .phoneId then
    pure (.invalidPairing "legacy HMAC pairing files are unsupported; re-pair this dev vault")
  else if ← pathExists .hmacKey then
    pure (.invalidPairing "legacy HMAC pairing files are unsupported; re-pair this dev vault")
  else pure .missingPhoneId

/-- **The status that `pairing_status` computes.** -/
theorem run_pairingStatusOf {read : FileProg (Except PairingReadError PairingData)}
    {x : Except PairingReadError PairingData} (hread : read.run (look broken) d = (.ok x, d)) :
    (pairingStatusOf read).run (look broken) d =
      (.ok (if (d .pendingPairingState).isSome ∨ (d .pairingTransactionState).isSome then .pending
        else if (d .pairingState).isSome then .ofRead x
        else if (d .phoneId).isSome ∨ (d .hmacKey).isSome then
          .invalidPairing "legacy HMAC pairing files are unsupported; re-pair this dev vault"
        else .missingPhoneId), d) := by
  unfold pairingStatusOf
  rw [Prog.run_bind_ok (look broken) (run_pathExists broken d _)]
  cases d .pendingPairingState with
  | some contents => rfl
  | none =>
    rw [if_neg (by decide), Prog.run_bind_ok (look broken) (run_pathExists broken d _)]
    cases d .pairingTransactionState with
    | some contents => rfl
    | none =>
      rw [if_neg (by decide), Prog.run_bind_ok (look broken) (run_pathExists broken d _)]
      cases d .pairingState with
      | some contents =>
        show (read >>= fun r => pure (PairingStatus.ofRead r)).run (look broken) d = _
        rw [Prog.run_bind_ok (look broken) hread]
        rfl
      | none =>
        rw [if_neg (by decide), Prog.run_bind_ok (look broken) (run_pathExists broken d _)]
        cases d .phoneId with
        | some contents => rfl
        | none =>
          rw [if_neg (by decide), Prog.run_bind_ok (look broken) (run_pathExists broken d _)]
          cases d .hmacKey <;> rfl

end Look

/-! ## The two files, and what is said of them -/

namespace PairingFormat

variable (F : PairingFormat)

/-- No call fails. -/
abbrev unbroken : FileName → Option IoError := fun _ => none

/-- `read_pairing_data` returns the pairing. -/
def Reads (broken : FileName → Option IoError) (d : Directory) (data : PairingData) : Prop :=
  F.readPairingData.run (look broken) d = (.ok data, d)

/-- A pending file or a transaction is there. -/
def HasPending (d : Directory) : Prop :=
  d .pendingPairingState ≠ none ∨ d .pairingTransactionState ≠ none

/-- None of the files of a pairing is there. -/
def Unpaired (d : Directory) : Prop :=
  d .pairingState = none ∧ d .pendingPairingState = none ∧ d .pairingTransactionState = none ∧
    d .phoneId = none ∧ d .hmacKey = none

/-- **What a status says of the directory.** -/
structure Classifies (broken : FileName → Option IoError) (d : Directory)
    (status : PairingStatus) : Prop where
  pending : status = .pending ↔ HasPending d
  ready : status = .ready ↔ ¬ HasPending d ∧ ∃ data, F.Reads broken d data
  missing : status = .missingPhoneId ↔ Unpaired d
  invalid : ((∃ reason, status = .invalidPhoneId reason) ∨
    ∃ reason, status = .invalidPairing reason) ↔
      ¬ HasPending d ∧ (¬ ∃ data, F.Reads broken d data) ∧ ¬ Unpaired d

variable {F} in
/-- A pairing that is put in place is read, under either name. -/
theorem reads_of_contents {d : Directory} {contents : Content} {data : PairingData}
    (hd : d .pairingState = some contents) (h : F.parseContents contents = .ok data) :
    F.Reads unbroken d data := by
  refine (F.run_readPairingData_eq_ok unbroken d).mpr ⟨?_, ?_⟩
  · rw [hd]
    exact Option.some_ne_none _
  · unfold look.readReply
    rw [hd]
    exact h

/-- **The status is right about the directory** where what is read of the
recorded pairing is. -/
theorem classifies_ofRead (broken : FileName → Option IoError) (d : Directory)
    {x : Except PairingReadError PairingData}
    (hx : ∀ data, x = .ok data ↔
      F.parseReadState (look.readReply broken .pairingState d) = .ok data) :
    F.Classifies broken d
      (if d .pendingPairingState ≠ none ∨ d .pairingTransactionState ≠ none then .pending
      else if d .pairingState ≠ none then .ofRead x
      else if d .phoneId ≠ none ∨ d .hmacKey ≠ none then
        .invalidPairing "legacy HMAC pairing files are unsupported; re-pair this dev vault"
      else .missingPhoneId) := by
  have hreads : ∀ data, F.Reads broken d data ↔ d .pairingState ≠ none ∧ x = .ok data := by
    intro data
    rw [hx]
    exact F.run_readPairingData_eq_ok broken d
  by_cases hp : HasPending d
  · have hu : ¬ Unpaired d := fun h => hp.elim (fun h' => h' h.2.1) fun h' => h' h.2.2.1
    rw [if_pos (show _ ∨ _ from hp)]
    exact ⟨by simp [hp], by simp [hp], by simp [hu], by simp [hp]⟩
  · rw [if_neg (show ¬ (_ ∨ _) from hp)]
    by_cases hs : d .pairingState = none
    · rw [if_neg (not_not_intro hs)]
      have hr : ¬ ∃ data, F.Reads broken d data := fun h =>
        h.elim fun data h => ((hreads data).mp h).1 hs
      by_cases hl : d .phoneId ≠ none ∨ d .hmacKey ≠ none
      · have hu : ¬ Unpaired d := fun h => hl.elim (fun h' => h' h.2.2.2.1) fun h' => h' h.2.2.2.2
        rw [if_pos hl]
        exact ⟨by simp [hp], by simp [hr], by simp [hu], by simp [hp, hr, hu]⟩
      · have hu : Unpaired d := by
          obtain ⟨h₁, h₂⟩ := not_or.mp hp
          obtain ⟨h₃, h₄⟩ := not_or.mp hl
          exact ⟨hs, not_not.mp h₁, not_not.mp h₂, not_not.mp h₃, not_not.mp h₄⟩
        rw [if_neg hl]
        exact ⟨by simp [hp], by simp [hr], by simp [hu], by simp [hu]⟩
    · have hu : ¬ Unpaired d := fun h => hs h.1
      rw [if_pos hs]
      cases x with
      | ok data =>
        have hread : ∃ data, F.Reads broken d data := ⟨data, (hreads data).mpr ⟨hs, rfl⟩⟩
        unfold PairingStatus.ofRead
        exact ⟨by simp [hp], by simp [hp, hread], by simp [hu], by simp [hread]⟩
      | error e =>
        have hread : ¬ ∃ data, F.Reads broken d data := by
          intro h
          obtain ⟨data, h⟩ := h
          cases ((hreads data).mp h).2
        cases e with
        | phone reason =>
          show F.Classifies broken d (.invalidPhoneId reason)
          exact ⟨by simp [hp], by simp [hread], by simp [hu], by simp [hp, hread, hu]⟩
        | state reason =>
          show F.Classifies broken d (.invalidPairing reason)
          exact ⟨by simp [hp], by simp [hread], by simp [hu], by simp [hp, hread, hu]⟩

/-- **The status of every directory.** -/
theorem pairingStatus_classifies (broken : FileName → Option IoError) (d : Directory) :
    ∃ status, F.pairingStatus.run (look broken) d = (.ok status, d) ∧
      F.Classifies broken d status := by
  refine ⟨_, run_pairingStatusOf broken d (F.run_readPairingDataFromState broken d), ?_⟩
  simp only [Option.isSome_iff_ne_none]
  exact F.classifies_ofRead broken d fun data => Iff.rfl

/-- What a writer that returns has put in place. -/
theorem writePendingPairingData_contents {data : PairingData} (h : F.Valid data) {s s' : Files}
    (hw : Returns (F.writePendingPairingData data) s () s') :
    ∃ json, s'.named = s.named.put .pendingPairingState (.bytes json) ∧
      F.parseContents (.bytes json) = .ok data := by
  obtain ⟨json, hjson, hslice⟩ := F.fromSlice_toVecPretty (F.fileOf data)
  unfold writePendingPairingData at hw
  rw [hjson] at hw
  refine ⟨json, hw.of_context.of_writePrivateFile, ?_⟩
  unfold parseContents
  rw [F.bytesOf_bytes, hslice]
  exact parsePairingFile_fileOf h

/-- **What was written is read**, under the pending name, and under the other
one once it is promoted. -/
theorem written_read {data : PairingData} (h : F.Valid data) {s s' : Files}
    (hw : Returns (F.writePendingPairingData data) s () s') :
    F.readPendingPairingData.run (look unbroken) s'.named = (.ok data, s'.named) ∧
      ∀ t t', t.named .pendingPairingState = s'.named .pendingPairingState →
        Returns promotePendingPairing t () t' → F.Reads unbroken t'.named data := by
  obtain ⟨json, hnamed, hjson⟩ := F.writePendingPairingData_contents h hw
  have hpending : s'.named .pendingPairingState = some (.bytes json) := by
    rw [hnamed, put_apply, if_pos rfl]
  refine ⟨F.run_readPendingPairingData unbroken _ rfl hpending hjson, fun t t' ht hp => ?_⟩
  refine reads_of_contents ?_ hjson
  have hmoved : t.named.move .pendingVaultEnc .vaultEnc .pendingPairingState =
      some (.bytes json) := by
    rw [move_agree (l := [.pendingVaultEnc, .vaultEnc]) _ _ (by decide) (by decide) _ (by decide),
      ht, hpending]
  rw [hp.of_promotePendingPairing]
  unfold promoted
  rw [move_eq _ hmoved, put_apply, if_pos rfl]

/-! ## The contents held decoded -/

/-- Contents as the other modules hold them. -/
def decode (contents : Content) : Content :=
  match F.parseContents contents with
  | .ok data => .pairing { version := 3, data }
  | .error _ => .bytes (F.bytesOf contents)

/-- The directory with the pairing files decoded. -/
def decoded (d : Directory) : Directory := fun f =>
  if f = .pairingState ∨ f = .pendingPairingState then (d f).map F.decode else d f

variable {F} in
theorem parseContents_valid {contents : Content} {data : PairingData}
    (h : F.parseContents contents = .ok data) : F.Valid data := by
  unfold parseContents at h
  split at h
  · cases h
  · exact valid_of_parse h

theorem parse_decode (contents : Content) (data : PairingData) :
    Desktop.parseReadState (.ok (F.decode contents)) = .ok data ↔
      F.parseContents contents = .ok data := by
  unfold decode
  cases h : F.parseContents contents with
  | error e =>
    constructor
    · intro h'
      cases h'
    · intro h'
      cases h'
  | ok data' =>
    have hkey : data'.approvalPublicKeyDer.isEmpty = false :=
      List.isEmpty_eq_false_iff.mpr (parseContents_valid h).key
    have hparse : Desktop.parsePairingFile { version := 3, data := data' } = .ok data' := by
      unfold Desktop.parsePairingFile
      rw [if_neg (not_not_intro rfl), hkey, if_neg Bool.false_ne_true]
    show Desktop.parsePairingFile { version := 3, data := data' } = _ ↔ _
    rw [hparse]

/-- **Decoding the directory first makes no difference** to what is read of it. -/
theorem parseReadState_decoded (broken : FileName → Option IoError) (d : Directory)
    (data : PairingData) :
    Desktop.parseReadState (look.readReply broken .pairingState (F.decoded d)) = .ok data ↔
      F.parseReadState (look.readReply broken .pairingState d) = .ok data := by
  have hdecoded : F.decoded d .pairingState = (d .pairingState).map F.decode := if_pos (.inl rfl)
  unfold look.readReply
  rw [hdecoded]
  cases broken .pairingState with
  | some e =>
    constructor
    · intro h
      cases h
    · intro h
      cases h
  | none =>
    cases d .pairingState with
    | none =>
      constructor
      · intro h
        cases h
      · intro h
        cases h
    | some contents => exact F.parse_decode contents data

/-- Nor to which files are there. -/
theorem decoded_eq_none (d : Directory) (f : FileName) : F.decoded d f = none ↔ d f = none := by
  unfold decoded
  split
  · exact Option.map_eq_none_iff
  · rfl

/-- **The status of the decoded directory is right about the directory.** -/
theorem pairingStatus_decoded (broken : FileName → Option IoError) (d : Directory) :
    ∃ status,
      Desktop.pairingStatus.run (look broken) (F.decoded d) = (.ok status, F.decoded d) ∧
      F.Classifies broken d status := by
  refine ⟨_, run_pairingStatusOf broken (F.decoded d) rfl, ?_⟩
  simp only [Option.isSome_iff_ne_none, ne_eq, F.decoded_eq_none]
  exact F.classifies_ofRead broken d fun data => F.parseReadState_decoded broken d data

/-- **What is written down is, decoded, what the other modules write.** -/
theorem writePendingPairingData_decoded {data : PairingData} (h : F.Valid data) {s s' : Files}
    (hw : Returns (F.writePendingPairingData data) s () s') :
    F.decoded s'.named = (F.decoded s.named).put .pendingPairingState
      (.pairing { version := 3, data }) := by
  obtain ⟨json, hnamed, hjson⟩ := F.writePendingPairingData_contents h hw
  funext f
  unfold decoded
  rw [hnamed, put_apply, put_apply]
  by_cases hf : f = .pendingPairingState
  · rw [if_pos (show _ ∨ _ from .inr hf), if_pos hf, if_pos hf]
    show some (F.decode (.bytes json)) = _
    unfold decode
    rw [hjson]
  · rw [if_neg hf, if_neg hf]

end PairingFormat

/-! ## A format -/

/-- The base point of the curve: 32 bytes that are a node id. -/
def basePoint : Bytes32 := Vector.ofFn fun i => if i = 0 then 0x58 else 0x66

/-- The node ids that are known. -/
def knownKey (b : Bytes32) : Except String Unit :=
  if b = basePoint then .ok () else .error "not a point of the curve"

theorem knownKey_basePoint : knownKey basePoint = .ok () := if_pos rfl

/-- The bytes of the files that are held as such. -/
def plainBytes : Content → Bytes
  | .bytes bytes => bytes
  | _ => []

theorem plainBytes_bytes (bytes : Bytes) : plainBytes (.bytes bytes) = bytes := rfl

/-- A format in which one node id is known. -/
noncomputable def plainFormat : PairingFormat where
  toHexCrate := hexCrate
  toVecPretty file := .ok (prettyBytes file)
  fromSlice := readPretty
  publicKey := knownKey
  bytesOf := plainBytes
  fromSlice_toVecPretty := readPretty_prettyBytes
  bytesOf_bytes := plainBytes_bytes

/-- A pairing. -/
def samplePairing : PairingData where
  pairingId := 7
  phoneNodeId := basePoint
  approvalPublicKeyDer := [0x30, 0x59]
  createdAtMs := 1700000000000

theorem samplePairing_valid : plainFormat.Valid samplePairing where
  node := knownKey_basePoint
  key := List.cons_ne_nil _ _
  time := by decide

/-- A transaction the phone has committed, the vault of which is in place. -/
def promotable (pending : Content) : Directory
  | .pairingTransactionState => some (.transaction
      { version := 2, phase := .phoneCommitted, pairingId := 7, hadLiveVault := false,
        hadLivePairing := false })
  | .vaultEnc => some (.bytes [])
  | .pendingPairingState => some pending
  | _ => none

/-- The directory with the given files, synced, and no temporary file. -/
def Directory.settled (d : Directory) : Files := { volume := ⟨d, d, []⟩, temps := fun _ => none }

/-- **The pairing files are told apart and read back.** -/
theorem PairingFormat.pairing_files_exact (F : PairingFormat) :
    (∀ broken d, ∃ status, F.pairingStatus.run (look broken) d = (.ok status, d) ∧
      F.Classifies broken d status) ∧
    (∀ data, F.Valid data → ∀ s s', Returns (F.writePendingPairingData data) s () s' →
      F.readPendingPairingData.run (look unbroken) s'.named = (.ok data, s'.named) ∧
      ∀ t t', t.named .pendingPairingState = s'.named .pendingPairingState →
        Returns promotePendingPairing t () t' → F.Reads unbroken t'.named data) ∧
    ∀ contents data, F.parseContents contents = .ok data →
      F.Valid data ∧ ∃ json, F.toVecPretty (F.fileOf data) = .ok json ∧
        F.parseContents (.bytes json) = .ok data :=
  ⟨F.pairingStatus_classifies, fun _ h _ _ hw => F.written_read h hw,
    fun _ _ h => ⟨parseContents_valid h, rewritten h⟩⟩

/-- A pairing is written to an empty directory, and promoted next to a vault. -/
theorem PairingFormat.pairing_files_exact_sample :
    ∃ s s', Returns (plainFormat.writePendingPairingData samplePairing) s () s' ∧
      plainFormat.readPendingPairingData.run (look unbroken) s'.named =
        (.ok samplePairing, s'.named) ∧
      ∃ t t', Returns promotePendingPairing t () t' ∧
        plainFormat.Reads unbroken t'.named samplePairing := by
  have hwrite : ∃ s', Returns (plainFormat.writePendingPairingData samplePairing)
      (Directory.settled fun _ => none) () s' := ⟨_, Returns.of_replay (n := 6) rfl⟩
  obtain ⟨s', hw⟩ := hwrite
  obtain ⟨hread, hpromoted⟩ :=
    plainFormat.pairing_files_exact.2.1 samplePairing samplePairing_valid _ _ hw
  refine ⟨_, s', hw, hread, ?_⟩
  obtain ⟨json, hnamed, -⟩ :=
    plainFormat.writePendingPairingData_contents samplePairing_valid hw
  have hpending : s'.named .pendingPairingState = some (.bytes json) := by
    rw [hnamed, put_apply, if_pos rfl]
  have hpromote : ∃ t', Returns promotePendingPairing
      (Directory.settled (promotable (.bytes json))) () t' := ⟨_, Returns.of_replay (n := 6) rfl⟩
  obtain ⟨t', hp⟩ := hpromote
  exact ⟨_, t', hp, hpromoted (Directory.settled (promotable (.bytes json))) t' hpending.symm hp⟩

end Desktop
