import Mathlib.Tactic.IntervalCases
import Ferusa.Core.Payload
import Ferusa.Desktop.Clipboard

/-!
# The text of the pairing files

Hexadecimal digits in both directions, and the JSON text of a pairing file,
which determines the file.
-/

namespace Desktop

/-- The contents of `pairing.json`, as `serde` sees them. -/
structure RawPairingFile where
  version : UInt8
  pairingId : Uuid
  phoneNodeId : String
  approvalPublicKeyDer : String
  createdAtMs : UInt64
  deriving DecidableEq

/-! ## Hexadecimal digits -/

/-- `hex::encode`. -/
def hexEncode (bytes : Bytes) : String :=
  String.ofList (bytes.flatMap fun x => hexDigits x.toNat 2)

/-- `hex::FromHexError`. -/
inductive FromHexError where
  | oddLength
  | invalidHexCharacter (c : Char) (index : Nat)

/-- `{:?}` of a character that is a byte. -/
def byteDebug (c : Char) : String :=
  if c = '\'' then "'\\''"
  else if c = '\\' then "'\\\\'"
  else if c.toNat = 0xad then "'\\u\x7bad\x7d'"
  else charDebug c

/-- The text of the error. -/
def FromHexError.toString : FromHexError → String
  | oddLength => "Odd number of digits"
  | invalidHexCharacter c index => s!"Invalid character {byteDebug c} at position {index}"

/-- `hex::val`. -/
def hexVal (c : UInt8) (index : Nat) : Except FromHexError Nat :=
  let n := c.toNat
  if 65 ≤ n ∧ n ≤ 70 then .ok (n - 65 + 10)
  else if 97 ≤ n ∧ n ≤ 102 then .ok (n - 97 + 10)
  else if 48 ≤ n ∧ n ≤ 57 then .ok (n - 48)
  else .error (.invalidHexCharacter (Char.ofUInt8 c) index)

/-- The pairs of digits, from an index on. -/
def hexChunks (index : Nat) : Bytes → Except FromHexError Bytes
  | a :: b :: rest => do
    let high ← hexVal a index
    let low ← hexVal b (index + 1)
    let bytes ← hexChunks (index + 2) rest
    pure (UInt8.ofNat (16 * high + low) :: bytes)
  | _ => .ok []

/-- **`hex::decode`.** -/
def hexDecode (s : String) : Except FromHexError Bytes :=
  if (asBytes s).length % 2 ≠ 0 then .error .oddLength else hexChunks 0 (asBytes s)

/-- A digit as a byte. -/
def hexByte (n : Nat) : UInt8 := if n < 10 then UInt8.ofNat (48 + n) else UInt8.ofNat (87 + n)

theorem digitChar_eq {n : Nat} (h : n < 16) :
    Nat.digitChar n = Char.ofUInt8 (hexByte n) ∧ hexByte n < 128 ∧
      (∀ index, hexVal (hexByte n) index = .ok n) ∧
      isWhitespace (Nat.digitChar n) = false := by
  have hall : ∀ n < 16, Nat.digitChar n = Char.ofUInt8 (hexByte n) ∧ hexByte n < 128 ∧
      isWhitespace (Nat.digitChar n) = false := by decide
  have hval : ∀ n < 16, ∀ index, hexVal (hexByte n) index = .ok n := by
    intro n hn index
    interval_cases n <;> rfl
  exact ⟨(hall n h).1, (hall n h).2.1, hval n h, (hall n h).2.2⟩

/-- The bytes of the digits. -/
def hexBytes (bytes : Bytes) : Bytes :=
  bytes.flatMap fun x => [hexByte (x.toNat / 16), hexByte (x.toNat % 16)]

theorem asBytes_hexEncode (bytes : Bytes) : asBytes (hexEncode bytes) = hexBytes bytes := by
  have hascii : ∀ c ∈ hexBytes bytes, c < 128 := by
    intro c hc
    obtain ⟨x, -, hc⟩ := List.mem_flatMap.mp hc
    have hx : x.toNat < 256 := x.toNat_lt
    obtain rfl | rfl := List.mem_pair.mp hc
    · exact (digitChar_eq (by omega)).2.1
    · exact (digitChar_eq (Nat.mod_lt _ (by decide))).2.1
  have hmap : bytes.flatMap (fun x => hexDigits x.toNat 2) =
      (hexBytes bytes).map Char.ofUInt8 := by
    unfold hexBytes
    rw [List.map_flatMap]
    refine List.flatMap_congr fun x _ => ?_
    have hx : x.toNat < 256 := x.toNat_lt
    rw [hexDigits_two, (digitChar_eq (n := x.toNat / 16) (by omega)).1,
      (digitChar_eq (n := x.toNat % 16) (Nat.mod_lt _ (by decide))).1]
    rfl
  unfold hexEncode
  rw [hmap, asBytes_ascii hascii]

theorem hexChunks_hexBytes (bytes : Bytes) (index : Nat) :
    hexChunks index (hexBytes bytes) = .ok bytes ∧ (hexBytes bytes).length = 2 * bytes.length := by
  induction bytes generalizing index with
  | nil => exact ⟨rfl, rfl⟩
  | cons x bytes ih =>
    have hx : x.toNat < 256 := x.toNat_lt
    have hcons : hexBytes (x :: bytes) =
        hexByte (x.toNat / 16) :: hexByte (x.toNat % 16) :: hexBytes bytes := rfl
    rw [hcons]
    constructor
    · unfold hexChunks
      rw [(digitChar_eq (n := x.toNat / 16) (by omega)).2.2.1,
        (digitChar_eq (n := x.toNat % 16) (Nat.mod_lt _ (by decide))).2.2.1, (ih _).1]
      show Except.ok (UInt8.ofNat (16 * (x.toNat / 16) + x.toNat % 16) :: bytes) = _
      rw [Nat.div_add_mod, UInt8.ofNat_toNat]
    · rw [List.length_cons, List.length_cons, (ih index).2, List.length_cons]
      omega

/-- **What was encoded is decoded.** -/
theorem hexDecode_hexEncode (bytes : Bytes) : hexDecode (hexEncode bytes) = .ok bytes := by
  obtain ⟨hchunks, hlength⟩ := hexChunks_hexBytes bytes 0
  unfold hexDecode
  rw [asBytes_hexEncode, if_neg (by omega), hchunks]

theorem isWhitespace_hexEncode (bytes : Bytes) :
    ∀ c ∈ (hexEncode bytes).toList, isWhitespace c = false := by
  intro c hc
  rw [hexEncode, String.toList_ofList] at hc
  obtain ⟨x, -, hc⟩ := List.mem_flatMap.mp hc
  have hx : x.toNat < 256 := x.toNat_lt
  rw [hexDigits_two] at hc
  obtain rfl | rfl := List.mem_pair.mp hc
  · exact (digitChar_eq (by omega)).2.2.2
  · exact (digitChar_eq (Nat.mod_lt _ (by decide))).2.2.2

/-- **What the `hex` crate does**: what was encoded is decoded, and no digit is white
space. -/
structure HexCrate where
  /-- `hex::encode`. -/
  hexEncode : Bytes → String
  /-- `hex::decode`. -/
  hexDecode : String → Except String Bytes
  hexDecode_hexEncode : ∀ bytes, hexDecode (hexEncode bytes) = .ok bytes
  hexEncode_digits : ∀ bytes, ∀ c ∈ (hexEncode bytes).toList, isWhitespace c = false

theorem mapError_hexDecode_hexEncode (bytes : Bytes) :
    (hexDecode (hexEncode bytes)).mapError FromHexError.toString = .ok bytes := by
  rw [hexDecode_hexEncode]
  rfl

/-- It does so. -/
def hexCrate : HexCrate where
  hexEncode := hexEncode
  hexDecode s := (hexDecode s).mapError FromHexError.toString
  hexDecode_hexEncode := mapError_hexDecode_hexEncode
  hexEncode_digits := isWhitespace_hexEncode

/-! ## The text -/

/-- The fields of the file in order, with the given texts around them. -/
def printFields (start id phone key time stop : List Char) (file : RawPairingFile) : List Char :=
  start ++ (printNat file.version.toNat ++
    (id ++ (printString (Uuid.hyphenated file.pairingId) ++
      (phone ++ (printString file.phoneNodeId.toList ++
        (key ++ (printString file.approvalPublicKeyDer.toList ++
          (time ++ (printNat file.createdAtMs.toNat ++ stop)))))))))

/-- **The text determines the file**, where no digit follows the numbers. -/
theorem printFields_injective {start id phone key time stop : List Char}
    (hid : ∀ x, NoDigit (id ++ x)) (hstop : NoDigit stop) :
    Function.Injective (printFields start id phone key time stop) := by
  intro a b h
  unfold printFields at h
  obtain ⟨hversion, h⟩ := printNat_delimited _ _ _ _ (hid _) (hid _) (List.append_cancel_left h)
  obtain ⟨hpairing, h⟩ := printString_delimited _ _ _ _ trivial trivial
    (List.append_cancel_left h)
  obtain ⟨hphone, h⟩ := printString_delimited _ _ _ _ trivial trivial (List.append_cancel_left h)
  obtain ⟨hkey, h⟩ := printString_delimited _ _ _ _ trivial trivial (List.append_cancel_left h)
  obtain ⟨htime, -⟩ := printNat_delimited _ _ _ _ hstop hstop (List.append_cancel_left h)
  cases a
  cases b
  congr
  · exact UInt8.toNat_inj.mp hversion
  · exact Uuid.hyphenated_injective hpairing
  · exact String.toList_injective hphone
  · exact String.toList_injective hkey
  · exact UInt64.toNat_inj.mp htime

/-- The text that `serde_json` prints for the file. -/
def prettyPairingFile : RawPairingFile → List Char :=
  printFields "\x7b\n  \"version\": ".toList ",\n  \"pairing_id\": ".toList
    ",\n  \"phone_node_id\": ".toList ",\n  \"approval_public_key_der\": ".toList
    ",\n  \"created_at_ms\": ".toList "\n\x7d".toList

theorem prettyPairingFile_injective : Function.Injective prettyPairingFile := by
  refine printFields_injective (fun x c hc => ?_) fun c hc => ?_
  · obtain rfl : ',' = c := by simpa using hc
    rfl
  · obtain rfl : '\n' = c := by simpa using hc
    rfl

/-- The bytes of the text. -/
def prettyBytes (file : RawPairingFile) : Bytes :=
  asBytes (String.ofList (prettyPairingFile file))

theorem prettyBytes_injective : Function.Injective prettyBytes := by
  intro a b h
  have htext : some (String.ofList (prettyPairingFile a)) =
      some (String.ofList (prettyPairingFile b)) := by
    rw [← fromUtf8_asBytes, ← fromUtf8_asBytes]
    exact congrArg fromUtf8 h
  exact prettyPairingFile_injective (String.ofList_injective (Option.some.inj htext))

open Classical in
/-- The file of which the bytes are the text. -/
noncomputable def readPretty (json : Bytes) : Except String RawPairingFile :=
  if h : ∃ file, prettyBytes file = json then .ok h.choose
  else .error "expected value at line 1 column 1"

theorem readPretty_prettyBytes (file : RawPairingFile) :
    ∃ json, (Except.ok (prettyBytes file) : Except String Bytes) = .ok json ∧
      readPretty json = .ok file := by
  refine ⟨_, rfl, ?_⟩
  have h : ∃ file', prettyBytes file' = prettyBytes file := ⟨file, rfl⟩
  unfold readPretty
  rw [dif_pos h, prettyBytes_injective h.choose_spec]

end Desktop
