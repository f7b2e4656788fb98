import Ferusa.Core.Types

/-!
# Cryptography, as the programs use it

Signatures and password hashes are the business of libraries outside
this repository, and are parameters here (`Crypto`): the programs only
ever ask whether a signature verifies, what a password hash parses to,
and whether a PIN matches one.

Keys are read **symbolically**. The password secret is the pair of the
password and the salt it was derived with, the vault key the pair of
the password secret and the phone share, and an encrypted blob carries
the key it was sealed under next to what it seals. Distinct inputs thus
give distinct keys, and a blob opens under its own key alone – which is
what the derivation functions and the cipher are used for. The
derivations do not fail on the inputs the programs give them.
-/

/-- What a PHC string parses to. -/
structure PasswordHash where
  algorithm : String
  salt : Option String
  hash : Option String
  deriving DecidableEq, Repr

/-- **What the programs ask of libraries outside this repository.** -/
class Crypto where
  /-- ECDSA verification: public key, signed text, signature. -/
  verifyEcdsa : Bytes → String → Bytes → Bool
  /-- `PasswordHash::new`. -/
  parsePasswordHash : String → Except String PasswordHash
  /-- Argon2id of a PIN under a salt, as a PHC string. -/
  hashPassword : String → Bytes → Except String String
  /-- Whether a PIN matches a parsed PHC string. -/
  verifyPassword : String → PasswordHash → Bool
  /-- The length of the JSON of a vault. -/
  vaultJsonLength : Vault → Nat

/-- A stand-in for those libraries, to run the programs with: what a key
signs is its public half, a password hash the PIN itself. -/
@[reducible] def Crypto.plain : Crypto where
  verifyEcdsa publicKeyDer _ signature := signature == publicKeyDer
  parsePasswordHash hash := .ok ⟨"argon2id", some "", some hash⟩
  hashPassword pin _ := .ok pin
  verifyPassword pin parsed := parsed.hash == some pin
  vaultJsonLength vault := vault.entries.length

/-- The 16-byte salt of a vault. -/
abbrev Salt := Vector UInt8 16

/-- The password-derived secret: `derive_local_secret` of a password and
a salt. -/
structure LocalSecret where
  password : String
  salt : Salt
  deriving DecidableEq

/-- **The vault key**: `combine_vault_key` of the password secret and the
phone share. -/
structure VaultKey where
  localSecret : LocalSecret
  phoneShare : Bytes32
  deriving DecidableEq

/-- `derive_keys`. -/
def deriveKeys (password : String) (salt : Salt) : LocalSecret :=
  ⟨password, salt⟩

/-- `combine_vault_key`. -/
def combineVaultKey (localSecret : LocalSecret) (phoneShare : Bytes32) : VaultKey :=
  ⟨localSecret, phoneShare⟩

/-- An encrypted vault: the salt in its header, the key it was sealed
under and the vault it seals. -/
structure EncryptedBlob where
  salt : Salt
  key : VaultKey
  plaintext : Vault
  deriving DecidableEq

/-- `encrypt_vault`. -/
def encryptVault (key : VaultKey) (salt : Salt) (plaintext : Vault) : EncryptedBlob :=
  { salt, key, plaintext }

/-- **`decrypt_vault`**: a blob opens under the key it was sealed
under. -/
def decryptVault (key : VaultKey) (blob : EncryptedBlob) : Except Anyhow Vault :=
  if blob.key = key then .ok blob.plaintext else .error ["decrypt failed (wrong key or tampered): aead::Error"]

/-- `canonical_pairing_ready_payload`: what the phone signs to show that
it holds the approval key of a pairing. -/
def canonicalPairingReadyPayload (pairingId : Uuid) : String :=
  s!"ferusa-pairing-ready/v4/{Uuid.toString pairingId}"

/-- `verify_pairing_ready_signature`. -/
def verifyPairingReadySignature [Crypto] (publicKeyDer : Bytes) (pairingId : Uuid)
    (signature : Bytes) : Bool :=
  Crypto.verifyEcdsa publicKeyDer (canonicalPairingReadyPayload pairingId) signature
