import Mathlib.Data.List.GetD
import Ferusa.Core.Payload
import Ferusa.Desktop.Session

/-!
# The bytes of `vault.enc`

The vault file starts with a magic number, the salt and the nonce;
the sealed vault follows, with its authentication tag. This module takes
the file apart and puts it together byte by byte, and relates what the
programs do with blobs to what the code does with bytes: a limit on the
length of a file is one on the length of the vault in it, and a vault
that may be kept (`Storable`) is opened again from the bytes it was
written as (`reopen_blob`).

The JSON of a vault and the cipher are those of libraries outside this
repository, and what is used of them is listed (`Sealing.Faithful`).
-/

namespace Desktop

/-! ## The format -/

/-- `VAULT_BLOB_MAGIC_V2`: `FERUSA2` and a zero. -/
def vaultBlobMagicV2 : Bytes := [0x46, 0x45, 0x52, 0x55, 0x53, 0x41, 0x32, 0x00]

/-- `VAULT_BLOB_V2_HEADER_LEN`. -/
def vaultBlobV2HeaderLen : Nat := 8 + 16 + 24

/-- `AEAD_TAG_LEN`. -/
def aeadTagLen : Nat := 16

/-- `LEGACY_V1_MIN_LEN`. -/
def legacyV1MinLen : Nat := 16 + 24 + aeadTagLen

/-- A nonce of the cipher. -/
abbrev Nonce := Vector UInt8 24

/-- The parts of a vault file, its vault sealed. -/
structure BlobFile where
  salt : Salt
  nonce : Nonce
  ciphertext : Bytes
  deriving DecidableEq

/-- Why bytes are not a vault file. -/
inductive BlobError where
  | unsupportedVaultBlob (details : String)
  | blobTooShort (len : Nat)
  deriving DecidableEq, Repr

/-- The text of the error. -/
def BlobError.toString : BlobError → String
  | unsupportedVaultBlob details => s!"unsupported vault blob format: {details}"
  | blobTooShort len => s!"blob too short: {len} bytes"

/-- `copy_from_slice`, of `n` bytes from the given place on. -/
def sliceFrom (bytes : Bytes) (start n : Nat) : Vector UInt8 n :=
  Vector.ofFn fun i => bytes.getD (start + i) 0

namespace BlobFile

/-- `EncryptedBlob::to_bytes`. -/
def toBytes (blob : BlobFile) : Bytes :=
  vaultBlobMagicV2 ++ blob.salt.toList ++ blob.nonce.toList ++ blob.ciphertext

/-- **`EncryptedBlob::from_bytes`.** -/
def fromBytes (bytes : Bytes) : Except BlobError BlobFile :=
  if vaultBlobMagicV2.isPrefixOf bytes = false then
    if bytes.length ≥ legacyV1MinLen then
      .error (.unsupportedVaultBlob
        "missing FERUSA2 header; legacy v1 blobs are unsupported")
    else .error (.blobTooShort bytes.length)
  else if bytes.length < vaultBlobV2HeaderLen + aeadTagLen then
    .error (.blobTooShort bytes.length)
  else .ok { salt := sliceFrom bytes 8 16, nonce := sliceFrom bytes (8 + 16) 24,
             ciphertext := bytes.drop vaultBlobV2HeaderLen }

theorem length_toBytes (blob : BlobFile) :
    blob.toBytes.length = vaultBlobV2HeaderLen + blob.ciphertext.length := by
  unfold toBytes vaultBlobMagicV2 vaultBlobV2HeaderLen
  simp only [List.length_append, Vector.length_toList, List.length_cons, List.length_nil]

/-- A vector is copied from where it stands. -/
theorem sliceFrom_append {n : Nat} (before : Bytes) (v : Vector UInt8 n) (after : Bytes) :
    sliceFrom (before ++ (v.toList ++ after)) before.length n = v := by
  refine Vector.ext fun i hi => ?_
  unfold sliceFrom
  have hi' : i < v.toList.length := by simpa using hi
  rw [Vector.getElem_ofFn, List.getD_append_right _ _ _ _ (Nat.le_add_right _ _),
    Nat.add_sub_cancel_left, List.getD_append _ _ _ _ hi', List.getD_eq_getElem _ _ hi',
    Vector.getElem_toList]

/-- **A vault file is read back from its bytes.** -/
theorem fromBytes_toBytes {blob : BlobFile} (h : aeadTagLen ≤ blob.ciphertext.length) :
    fromBytes blob.toBytes = .ok blob := by
  have hmagic : vaultBlobMagicV2.isPrefixOf blob.toBytes = true := by
    rw [List.isPrefixOf_iff_prefix]
    unfold toBytes
    rw [List.append_assoc, List.append_assoc]
    exact List.prefix_append _ _
  have hlength := blob.length_toBytes
  have hsalt : sliceFrom blob.toBytes 8 16 = blob.salt := by
    have hsplit : blob.toBytes = vaultBlobMagicV2 ++
        (blob.salt.toList ++ (blob.nonce.toList ++ blob.ciphertext)) := by
      unfold toBytes
      simp only [List.append_assoc]
    rw [hsplit]
    exact sliceFrom_append vaultBlobMagicV2 blob.salt _
  have hnonce : sliceFrom blob.toBytes (8 + 16) 24 = blob.nonce := by
    have hsplit : blob.toBytes = (vaultBlobMagicV2 ++ blob.salt.toList) ++
        (blob.nonce.toList ++ blob.ciphertext) := by
      unfold toBytes
      simp only [List.append_assoc]
    have hstart : (vaultBlobMagicV2 ++ blob.salt.toList).length = 8 + 16 := by
      rw [List.length_append, Vector.length_toList]
      rfl
    rw [hsplit, ← hstart]
    exact sliceFrom_append _ blob.nonce _
  have hrest : blob.toBytes.drop vaultBlobV2HeaderLen = blob.ciphertext := by
    have hstart : (vaultBlobMagicV2 ++ blob.salt.toList ++ blob.nonce.toList).length =
        vaultBlobV2HeaderLen := by
      rw [List.length_append, List.length_append, Vector.length_toList, Vector.length_toList]
      rfl
    unfold toBytes
    rw [← hstart, List.drop_left]
  unfold fromBytes
  rw [if_neg (by rw [hmagic]; exact Bool.noConfusion), if_neg (by omega), hsalt, hnonce, hrest]

end BlobFile

/-! ## Sealing -/

/-- The libraries that turn a vault into bytes and seal bytes: `serde_json`
on vaults, and XChaCha20-Poly1305. -/
structure Sealing where
  toVec : Vault → Bytes
  fromSlice : Bytes → Except String Vault
  encrypt : VaultKey → Nonce → Bytes → Bytes
  decrypt : VaultKey → Nonce → Bytes → Except String Bytes

/-- `serde_json` of the empty vault: `version` 1 and no `entries`. -/
def emptyVaultJson : Bytes :=
  [0x7b, 0x22, 0x76, 0x65, 0x72, 0x73, 0x69, 0x6f, 0x6e, 0x22, 0x3a, 0x31, 0x2c, 0x22, 0x65,
    0x6e, 0x74, 0x72, 0x69, 0x65, 0x73, 0x22, 0x3a, 0x5b, 0x5d, 0x7d]

/-- **What is relied on**: the JSON of a vault gives it back, and what is
sealed is opened under the same key and nonce, sixteen bytes longer
while it is sealed. -/
structure Sealing.Faithful [Crypto] (L : Sealing) : Prop where
  roundTrip : ∀ vault, L.fromSlice (L.toVec vault) = .ok vault
  emptyVault : L.toVec Vault.default = emptyVaultJson
  length : ∀ vault, Crypto.vaultJsonLength vault = (L.toVec vault).length
  decrypts : ∀ key nonce plaintext,
    L.decrypt key nonce (L.encrypt key nonce plaintext) = .ok plaintext
  tag : ∀ key nonce plaintext,
    (L.encrypt key nonce plaintext).length = plaintext.length + aeadTagLen

/-- The file an encrypted vault is, under the nonce it was sealed with. -/
def sealedFile (L : Sealing) (nonce : Nonce) (blob : EncryptedBlob) : BlobFile :=
  { salt := blob.salt, nonce,
    ciphertext := L.encrypt blob.key nonce (L.toVec blob.plaintext) }

/-- `load_vault_blob`, of the bytes of the file. -/
def loadVaultBytes (file : Bytes) : Except Anyhow BlobFile :=
  let blobBytes := file.take (maxVaultEncryptedBytes + 1)
  if blobBytes.length > maxVaultEncryptedBytes then
    .error [s!"vault.enc exceeds the {maxVaultEncryptedBytes}-byte encrypted size limit"]
  else (BlobFile.fromBytes blobBytes).mapError fun e => ["parse vault.enc", e.toString]

/-- `decrypt_vault_blob`, of the parts of the file. -/
def decryptVaultFile (L : Sealing) (blob : BlobFile) (vaultKey : VaultKey) :
    Except Anyhow Vault := do
  let plaintext ← (L.decrypt vaultKey blob.nonce blob.ciphertext).mapError fun e => [e]
  if plaintext.length > maxVaultPlaintextBytes then
    .error [s!"decrypted vault exceeds the {maxVaultPlaintextBytes / (1024 * 1024)} MiB size limit"]
  else
    let vault ← (L.fromSlice plaintext).mapError fun e => [e]
    vault.validate.mapError fun e => [e]
    pure vault

/-- `encrypt_vault` and `to_bytes`: what `rotate_vault` and `cmd_init`
write, with no check. -/
def sealVaultBytes (L : Sealing) (vault : Vault) (vaultKey : VaultKey) (vaultSalt : Salt)
    (nonce : Nonce) : Bytes :=
  (sealedFile L nonce (encryptVault vaultKey vaultSalt vault)).toBytes

/-- `save_vault_snapshot`: what is written, in bytes. -/
def saveVaultSnapshotBytes (L : Sealing) (vault : Vault) (vaultKey : VaultKey) (vaultSalt : Salt)
    (nonce : Nonce) : Except Anyhow Bytes := do
  vault.validate.mapError fun e => [e]
  if (L.toVec vault).length > maxVaultPlaintextBytes then
    .error [s!"serialized vault exceeds the {maxVaultPlaintextBytes / (1024 * 1024)} MiB size limit"]
  else pure (sealVaultBytes L vault vaultKey vaultSalt nonce)

/-! ## Vaults that may be kept -/

section

variable [Crypto]

/-- **A vault that may be kept**: it is valid, and its JSON within the
limit. -/
def Storable (vault : Vault) : Prop :=
  vault.validate = .ok () ∧ Crypto.vaultJsonLength vault ≤ maxVaultPlaintextBytes

/-- **What `save_vault_snapshot` accepts**: the vaults that may be kept,
and no other. -/
theorem sealVault_eq_ok_iff {vault : Vault} {vaultKey : VaultKey} {vaultSalt : Salt}
    {blob : EncryptedBlob} :
    sealVault vault vaultKey vaultSalt = .ok blob ↔
      Storable vault ∧ blob = encryptVault vaultKey vaultSalt vault := by
  unfold sealVault Storable validateVaultSize
  cases hv : vault.validate with
  | error e => exact ⟨nofun, fun h => nomatch h.1.1⟩
  | ok u =>
    by_cases hsize : Crypto.vaultJsonLength vault > maxVaultPlaintextBytes
    · rw [if_pos hsize]
      exact ⟨nofun, fun h => absurd h.1.2 (Nat.not_le.mpr hsize)⟩
    · rw [if_neg hsize]
      refine ⟨fun h => ⟨⟨rfl, Nat.not_lt.mp hsize⟩, (Except.ok.inj h).symm⟩, ?_⟩
      rintro ⟨-, rfl⟩
      rfl

/-- **What opens is what was sealed**, and may be kept. -/
theorem decryptVaultBlob_eq_ok_iff {blob : EncryptedBlob} {vaultKey : VaultKey} {vault : Vault} :
    decryptVaultBlob blob vaultKey = .ok vault ↔
      blob.key = vaultKey ∧ vault = blob.plaintext ∧ Storable vault := by
  unfold decryptVaultBlob decryptVault Storable validateVaultSize
  by_cases hkey : blob.key = vaultKey
  · rw [if_pos hkey]
    show (do
      (if Crypto.vaultJsonLength blob.plaintext > maxVaultPlaintextBytes then
        Except.error [_] else .ok () : Except Anyhow Unit)
      blob.plaintext.validate.mapError fun e => [e]
      pure blob.plaintext : Except Anyhow Vault) = .ok vault ↔ _
    by_cases hsize : Crypto.vaultJsonLength blob.plaintext > maxVaultPlaintextBytes
    · rw [if_pos hsize]
      refine ⟨nofun, ?_⟩
      rintro ⟨-, rfl, -, hle⟩
      exact absurd hle (Nat.not_le.mpr hsize)
    · rw [if_neg hsize]
      cases hv : blob.plaintext.validate with
      | error e =>
        refine ⟨nofun, ?_⟩
        rintro ⟨-, rfl, hvalid, -⟩
        cases hv.symm.trans hvalid
      | ok u =>
        refine ⟨fun h => ?_, ?_⟩
        · obtain rfl : blob.plaintext = vault := Except.ok.inj h
          exact ⟨hkey, rfl, hv, Nat.not_lt.mp hsize⟩
        · rintro ⟨-, rfl, -⟩
          rfl
  · rw [if_neg hkey]
    exact ⟨nofun, fun h => absurd h.1 hkey⟩

variable {L : Sealing} (hL : L.Faithful)

include hL

/-- The length of a vault file. -/
theorem length_file (blob : EncryptedBlob) (nonce : Nonce) :
    (sealedFile L nonce blob).toBytes.length = encryptedLength blob := by
  rw [BlobFile.length_toBytes, encryptedLength, hL.length]
  show vaultBlobV2HeaderLen + (L.encrypt _ _ _).length = _
  rw [hL.tag]
  unfold vaultBlobV2HeaderLen aeadTagLen vaultBlobOverheadBytes
  omega

/-- **A vault file that is not too long is loaded.** -/
theorem loadVaultBytes_file {blob : EncryptedBlob} (nonce : Nonce)
    (h : encryptedLength blob ≤ maxVaultEncryptedBytes) :
    loadVaultBytes (sealedFile L nonce blob).toBytes = .ok (sealedFile L nonce blob) := by
  have hlength := length_file hL blob nonce
  have htag : aeadTagLen ≤ (sealedFile L nonce blob).ciphertext.length := by
    show _ ≤ (L.encrypt _ _ _).length
    rw [hL.tag]
    exact Nat.le_add_left _ _
  unfold loadVaultBytes
  rw [List.take_of_length_le (by omega), if_neg (by omega), BlobFile.fromBytes_toBytes htag]
  rfl

/-- **A vault that may be kept is opened again**, from the bytes it was
written as. -/
theorem reopen_blob {blob : EncryptedBlob} (h : Storable blob.plaintext) (nonce : Nonce) :
    loadVaultBytes (sealedFile L nonce blob).toBytes = .ok (sealedFile L nonce blob) ∧
      (sealedFile L nonce blob).salt = blob.salt ∧
      decryptVaultFile L (sealedFile L nonce blob) blob.key = .ok blob.plaintext := by
  have hlength : encryptedLength blob ≤ maxVaultEncryptedBytes :=
    Nat.add_le_add_right h.2 vaultBlobOverheadBytes
  refine ⟨loadVaultBytes_file hL nonce hlength, rfl, ?_⟩
  have hsize : ¬ (L.toVec blob.plaintext).length > maxVaultPlaintextBytes := by
    rw [← hL.length]
    exact Nat.not_lt.mpr h.2
  unfold decryptVaultFile
  show ((L.decrypt blob.key nonce (L.encrypt blob.key nonce (L.toVec blob.plaintext))).mapError
    _ >>= _) = _
  rw [hL.decrypts]
  show (if (L.toVec blob.plaintext).length > maxVaultPlaintextBytes then _ else _ :
    Except Anyhow Vault) = _
  rw [if_neg hsize, hL.roundTrip]
  show (blob.plaintext.validate.mapError _ >>= _) = _
  rw [h.1]
  rfl

/-- **What `save_vault_snapshot` writes, and when it refuses**: a vault
that may be kept is written as it is sealed; the others are refused. -/
theorem saveVaultSnapshotBytes_eq_ok_iff {vault : Vault} {vaultKey : VaultKey} {vaultSalt : Salt}
    {nonce : Nonce} {bytes : Bytes} :
    saveVaultSnapshotBytes L vault vaultKey vaultSalt nonce = .ok bytes ↔
      Storable vault ∧ bytes = sealVaultBytes L vault vaultKey vaultSalt nonce := by
  unfold saveVaultSnapshotBytes Storable
  rw [hL.length]
  cases hv : vault.validate with
  | error e => exact ⟨nofun, fun h => nomatch h.1.1⟩
  | ok u =>
    show (if (L.toVec vault).length > maxVaultPlaintextBytes then _ else _ :
      Except Anyhow Bytes) = _ ↔ _
    by_cases hsize : (L.toVec vault).length > maxVaultPlaintextBytes
    · rw [if_pos hsize]
      exact ⟨nofun, fun h => absurd h.1.2 (Nat.not_le.mpr hsize)⟩
    · rw [if_neg hsize]
      refine ⟨fun h => ⟨⟨rfl, Nat.not_lt.mp hsize⟩, (Except.ok.inj h).symm⟩, ?_⟩
      rintro ⟨-, rfl⟩
      rfl

/-- The empty vault may be kept. -/
theorem storable_default : Storable Vault.default := by
  refine ⟨by decide, ?_⟩
  rw [hL.length, hL.emptyVault]
  decide

end

/-! ## One sealing

The JSON as it is written, and a cipher that hides nothing: what the
conditions on a sealing ask for can be had together. -/

/-- The JSON of an entry. -/
def Entry.toJson (entry : Entry) : Json :=
  .obj [("id".toList, jsonUuid entry.id), ("title".toList, jsonText entry.title),
    ("username".toList, jsonOption jsonText entry.username),
    ("password".toList, jsonText entry.password),
    ("url".toList, jsonOption jsonText entry.url),
    ("notes".toList, jsonOption jsonText entry.notes),
    ("tags".toList, .arr (entry.tags.map jsonText)),
    ("created_at".toList, .num entry.createdAt), ("updated_at".toList, .num entry.updatedAt)]

/-- The JSON of a vault. -/
def Vault.toJson (vault : Vault) : Json :=
  .obj [("version".toList, .num vault.version),
    ("entries".toList, .arr (vault.entries.map Entry.toJson))]

/-- **The bytes of the JSON of a vault.** -/
def vaultToVec (vault : Vault) : Bytes :=
  (String.ofList (Vault.toJson vault).render).toByteArray.data.toList

theorem Entry.toJson_injective : Function.Injective Entry.toJson := by
  intro a b h
  have htext : Function.Injective (jsonOption jsonText) :=
    jsonOption_injective jsonText_injective nofun
  have htags : Function.Injective (List.map jsonText) :=
    List.map_injective_iff.mpr jsonText_injective
  cases a
  cases b
  simp only [Entry.toJson, Json.obj.injEq, List.cons.injEq, Prod.mk.injEq, true_and, and_true,
    Json.num.injEq, Json.arr.injEq, jsonUuid_injective.eq_iff, jsonText_injective.eq_iff,
    htext.eq_iff, htags.eq_iff] at h
  simpa using h

theorem Vault.toJson_injective : Function.Injective Vault.toJson := by
  intro a b h
  have hentries : Function.Injective (List.map Entry.toJson) :=
    List.map_injective_iff.mpr Entry.toJson_injective
  cases a
  cases b
  simp only [Vault.toJson, Json.obj.injEq, List.cons.injEq, Prod.mk.injEq, true_and, and_true,
    Json.num.injEq, Json.arr.injEq, hentries.eq_iff] at h
  simpa using h

/-- **The bytes of a vault determine it.** -/
theorem vaultToVec_injective : Function.Injective vaultToVec := by
  intro a b h
  have hbytes := String.toByteArray_inj.mp (ByteArray.ext (Array.toList_inj.mp h))
  exact Vault.toJson_injective (Json.render_injective (String.ofList_injective hbytes))

theorem vaultToVec_default : vaultToVec Vault.default = emptyVaultJson := by
  decide +kernel

/-- The stand-in for the libraries, with the length of the JSON. -/
@[reducible] def Crypto.json : Crypto :=
  { Crypto.plain with vaultJsonLength := fun vault => (vaultToVec vault).length }

open Classical in
/-- **A sealing that hides nothing**: the JSON of the vault, and sixteen
zeros for the tag. -/
noncomputable def Sealing.plain : Sealing where
  toVec := vaultToVec
  fromSlice bytes :=
    if h : ∃ vault, vaultToVec vault = bytes then .ok h.choose else .error "expected value"
  encrypt _ _ plaintext := plaintext ++ List.replicate aeadTagLen 0
  decrypt _ _ ciphertext := .ok (ciphertext.take (ciphertext.length - aeadTagLen))

attribute [local instance] Crypto.json in
theorem Sealing.plain_faithful : Sealing.plain.Faithful where
  roundTrip vault := by
    have h : ∃ vault', vaultToVec vault' = vaultToVec vault := ⟨vault, rfl⟩
    unfold Sealing.plain
    dsimp only
    rw [dif_pos h]
    exact congrArg Except.ok (vaultToVec_injective h.choose_spec)
  emptyVault := vaultToVec_default
  length _ := rfl
  decrypts _ _ plaintext := by
    show Except.ok ((plaintext ++ List.replicate aeadTagLen 0).take
      ((plaintext ++ List.replicate aeadTagLen 0).length - aeadTagLen)) = _
    rw [List.length_append, List.length_replicate, Nat.add_sub_cancel, List.take_left]
  tag _ _ plaintext := by
    show (plaintext ++ List.replicate aeadTagLen 0).length = _
    rw [List.length_append, List.length_replicate]

end Desktop
