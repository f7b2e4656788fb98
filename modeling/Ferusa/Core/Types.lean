import Mathlib.Algebra.Order.Ring.Nat
import Mathlib.Data.List.Basic
import Mathlib.Logic.Basic

/-!
# The types both programs share

The identifiers, errors and vault records of `ferusa-core`. Byte arrays
of a fixed length are vectors, growing ones are lists; the unsigned
64-bit counters and clocks are natural numbers, their saturating
subtraction being the truncated one of `Nat`.
-/

/-- Growing byte strings. -/
abbrev Bytes := List UInt8

/-- The 32-byte strings: shares, node ids, keys. -/
abbrev Bytes32 := Vector UInt8 32

/-- A `uuid::Uuid`. -/
abbrev Uuid := BitVec 128

instance Uuid.lawfulBEq : LawfulBEq Uuid := inferInstance

/-- The first `n` hexadecimal digits of a number, most significant
first. -/
def hexDigits (value : Nat) : Nat → List Char
  | 0 => []
  | n + 1 => Nat.digitChar (value / 16 ^ n % 16) :: hexDigits value n

/-- The two digits of a byte. -/
theorem hexDigits_two (x : UInt8) :
    hexDigits x.toNat 2 = [Nat.digitChar (x.toNat / 16), Nat.digitChar (x.toNat % 16)] := by
  have hx : x.toNat < 256 := x.toNat_lt
  have hhigh : x.toNat / 16 ^ 1 % 16 = x.toNat / 16 := by
    rw [pow_one, Nat.mod_eq_of_lt (Nat.div_lt_of_lt_mul hx)]
  have hlow : x.toNat / 16 ^ 0 % 16 = x.toNat % 16 := by rw [pow_zero, Nat.div_one]
  rw [hexDigits, hexDigits, hexDigits, hhigh, hlow]

/-- `Uuid::to_string`: lowercase hexadecimal in five hyphenated
groups. -/
def Uuid.hyphenated (id : Uuid) : List Char :=
  let digits := hexDigits id.toNat 32
  digits.take 8 ++ '-' :: (digits.drop 8).take 4 ++ '-' :: (digits.drop 12).take 4
    ++ '-' :: (digits.drop 16).take 4 ++ '-' :: digits.drop 20

/-- `Uuid::to_string` as text. -/
def Uuid.toString (id : Uuid) : String :=
  String.ofList (Uuid.hyphenated id)

/-! ## Text -/

/-- `char::is_whitespace`: the characters with the Unicode property
White_Space. -/
def isWhitespace (c : Char) : Bool :=
  (9 ≤ c.toNat && c.toNat ≤ 13) || (0x2000 ≤ c.toNat && c.toNat ≤ 0x200a) ||
    [0x20, 0x85, 0xa0, 0x1680, 0x2028, 0x2029, 0x202f, 0x205f, 0x3000].contains c.toNat

/-- `str::trim`. -/
def trim (s : String) : String :=
  String.ofList ((s.toList.dropWhile isWhitespace).reverse.dropWhile isWhitespace).reverse

/-- `str::eq_ignore_ascii_case`. -/
def eqIgnoreAsciiCase (s t : String) : Bool :=
  s.toLower == t.toLower

/-! ## Errors

An `anyhow::Error` is its chain of messages, the outermost context
first; its `Display` prints the outermost alone. -/

/-- **An `anyhow::Error`**: the messages of its chain, outermost
first. -/
abbrev Anyhow := List String

/-- `Error::to_string`: the outermost message. -/
def Anyhow.toString (e : Anyhow) : String :=
  e.headD ""

/-- `Result::context`. -/
def Anyhow.context {α : Type} (message : String) (r : Except Anyhow α) :
    Except Anyhow α :=
  r.mapError (message :: ·)

/-- `Option::context`. -/
def Anyhow.okOr {α : Type} (message : String) : Option α → Except Anyhow α
  | some a => .ok a
  | none => .error [message]

/-! ## The vault -/

/-- The protected actions. -/
inductive VaultAction where
  | unlock
  | list
  | read
  | create
  | update
  | delete
  | passwd
  | pair
  deriving DecidableEq, Repr

/-- One vault entry. -/
structure Entry where
  id : Uuid
  title : String
  username : Option String
  password : String
  url : Option String
  notes : Option String
  tags : List String
  createdAt : Nat
  updatedAt : Nat
  deriving DecidableEq

def vaultVersion : Nat := 1
def maxVaultEntries : Nat := 10000
def maxVaultPlaintextBytes : Nat := 8 * 1024 * 1024
def maxVaultFieldBytes : Nat := 64 * 1024
def maxVaultNotesBytes : Nat := 1024 * 1024
def maxVaultTagsPerEntry : Nat := 64
def maxVaultTagBytes : Nat := 8 * 1024

/-- The vault. -/
structure Vault where
  version : Nat
  entries : List Entry
  deriving DecidableEq

/-- `Vault::default`. -/
def Vault.default : Vault := { version := vaultVersion, entries := [] }

/-- The byte length of a string. -/
def byteLength (value : String) : Nat := value.utf8ByteSize

/-- One field is at most `maxBytes` long. -/
def validateField (index : Nat) (field value : String) (maxBytes : Nat) :
    Except String Unit :=
  if byteLength value > maxBytes then
    .error s!"vault entry {index} {field} exceeds the {maxBytes}-byte limit"
  else .ok ()

/-- An optional field, if it is there, is at most `maxBytes` long. -/
def validateOptionalField (index : Nat) (field : String) (value : Option String)
    (maxBytes : Nat) : Except String Unit :=
  match value with
  | some value => validateField index field value maxBytes
  | none => .ok ()

/-- The checks `Vault::validate` makes on one entry, in its order. -/
def Entry.validate (index : Nat) (entry : Entry) : Except String Unit := do
  validateField index "title" entry.title maxVaultFieldBytes
  validateOptionalField index "username" entry.username maxVaultFieldBytes
  validateField index "password" entry.password maxVaultFieldBytes
  validateOptionalField index "url" entry.url maxVaultFieldBytes
  validateOptionalField index "notes" entry.notes maxVaultNotesBytes
  if entry.tags.length > maxVaultTagsPerEntry then
    .error s!"vault entry {index} has too many tags (maximum {maxVaultTagsPerEntry})"
  else
    entry.tags.forM (fun tag => validateField index "tag" tag maxVaultTagBytes)

/-- **`Vault::validate`**: reject vault data this version cannot safely
interpret or process. -/
def Vault.validate (vault : Vault) : Except String Unit := do
  if vault.version ≠ vaultVersion then
    .error s!"unsupported vault schema version {vault.version} (expected {vaultVersion})"
  else if vault.entries.length > maxVaultEntries then
    .error s!"vault contains too many entries (maximum {maxVaultEntries})"
  else
    vault.entries.zipIdx.forM (fun (entry, index) => entry.validate index)
