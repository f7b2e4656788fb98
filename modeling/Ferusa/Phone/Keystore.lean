import Ferusa.Lib.BigEndian
import Ferusa.Core.Types

/-!
# What the keystore plugin hands over

The plugin of the app generates the approval key of a pairing and signs
with it. What it hands over is hexadecimal text, and a public key is the
uncompressed point: a byte, and two coordinates of 32 bytes each. The
coordinates come as integers of Java, which are as long as they need to
be, with a byte in front where the first bit would be a sign.

A string of Kotlin is made of 16-bit units (`CodeUnit`). What a unit is
worth as a digit is up to the platform (`Digits`), which knows more digits
than the sixteen that are used here. The text of a number format error is
left out.
-/

namespace Phone

open BigEndian

/-- The unit of a string. -/
abbrev CodeUnit := UInt16

/-- The unit of a character of ASCII. -/
def codeUnit (c : Char) : CodeUnit := UInt16.ofNat c.toNat

/-- **`Character.digit`**, to the base sixteen. -/
structure Digits where
  digit : CodeUnit → Option Nat
  lowercase : ∀ n < 16, digit (codeUnit (Nat.digitChar n)) = some n

/-- The exceptions of this part of the plugin. -/
inductive KeystoreError where
  | illegalArgument (message : String)
  | numberFormat (input : List CodeUnit)
  deriving DecidableEq

/-- `java.security.interfaces.ECPublicKey`, its point. -/
structure ECPublicKey where
  affineX : Int
  affineY : Int

/-- `BigInteger.toByteArray`. -/
abbrev toByteArray (value : Int) : Bytes := toTwos value

/-- **`bytesToHex`.** -/
def bytesToHex (bytes : Bytes) : List CodeUnit :=
  bytes.flatMap fun it => (hexDigits it.toNat 2).map codeUnit

/-- `toInt(16)`, of two units: the first may be a sign. -/
def Digits.toInt16 (D : Digits) (a b : CodeUnit) : Option Int :=
  if a < codeUnit '0' then
    if a = codeUnit '-' then (D.digit b).map fun y => -(y : Int)
    else if a = codeUnit '+' then (D.digit b).map fun y => (y : Int)
    else none
  else
    match D.digit a, D.digit b with
    | some x, some y => some (16 * x + y)
    | _, _ => none

/-- The array of `hexToBytes`, one byte for each two units. -/
def Digits.hexPairs (D : Digits) : List CodeUnit → Except KeystoreError Bytes
  | a :: b :: hex =>
    match D.toInt16 a b with
    | none => .error (.numberFormat [a, b])
    | some n => do
      let bytes ← D.hexPairs hex
      pure (UInt8.ofInt n :: bytes)
  | _ => .ok []

/-- **`hexToBytes`.** -/
def Digits.hexToBytes (D : Digits) (hex : List CodeUnit) : Except KeystoreError Bytes :=
  if hex.length % 2 = 0 then D.hexPairs hex
  else .error (.illegalArgument "hex length must be even")

/-- **`unsignedFixed32`.** -/
def unsignedFixed32 (value : Int) : Except KeystoreError Bytes :=
  let raw := toByteArray value
  let unsigned := if raw.head? = some 0 then raw.tail else raw
  if unsigned.length ≤ 32 then .ok (List.replicate (32 - unsigned.length) 0 ++ unsigned)
  else .error (.illegalArgument "EC coordinate too large")

/-- **`ecPublicPoint`.** -/
def ecPublicPoint (publicKey : ECPublicKey) : Except KeystoreError Bytes := do
  let x ← unsignedFixed32 publicKey.affineX
  let y ← unsignedFixed32 publicKey.affineY
  pure (0x04 :: (x ++ y))

/-- The digits of ASCII. -/
def Digits.ascii : Digits where
  digit unit :=
    let n := unit.toNat
    if 48 ≤ n ∧ n ≤ 57 then some (n - 48)
    else if 65 ≤ n ∧ n ≤ 70 then some (n - 55)
    else if 97 ≤ n ∧ n ≤ 102 then some (n - 87)
    else none
  lowercase := by decide

/-! ## The coordinates -/

/-- **No shorter array is the integer** in two's complement. -/
theorem toByteArray_minimal (value : Int) : twosValue (toByteArray value) = value ∧
    ∀ l : Bytes, l ≠ [] → twosValue l = value → (toByteArray value).length ≤ l.length :=
  ⟨twosValue_toTwos value, fun _ hl h => length_toTwos_le hl h⟩

/-- **A coordinate that fits** is padded to 32 bytes. -/
theorem unsignedFixed32_of_lt {v : Nat} (h : v < 2 ^ 256) :
    unsignedFixed32 v = .ok (bytes v 32) := by
  have h : v < 256 ^ 32 := h
  obtain ⟨n, hstrip, hlt, hmin⟩ := toTwos_natCast_strip (m := 32) v
  have hn : n ≤ 32 := hmin h
  unfold unsignedFixed32 toByteArray
  simp only [hstrip, length_bytes]
  rw [if_pos hn, ← bytes_add hlt, Nat.add_sub_cancel' hn]

/-- **A coordinate that does not fit** is refused. -/
theorem unsignedFixed32_of_le {v : Nat} (h : 2 ^ 256 ≤ v) :
    unsignedFixed32 v = .error (.illegalArgument "EC coordinate too large") := by
  have h : 256 ^ 32 ≤ v := h
  obtain ⟨n, hstrip, hlt, -⟩ := toTwos_natCast_strip (m := 32) v
  have hn : 32 < n := (Nat.pow_lt_pow_iff_right (by decide)).mp (h.trans_lt hlt)
  unfold unsignedFixed32 toByteArray
  simp only [hstrip, length_bytes]
  rw [if_neg (Nat.not_le.mpr hn)]

/-! ## The text -/

/-- A byte is read back from its two digits. -/
theorem Digits.toInt16_hexDigits (D : Digits) (b : UInt8) :
    ∃ x y, (hexDigits b.toNat 2).map codeUnit = [x, y] ∧
      D.toInt16 x y = some (b.toNat : Int) := by
  have hb : b.toNat < 256 := b.toNat_lt
  have hsign : ∀ n < 16, ¬ codeUnit (Nat.digitChar n) < codeUnit '0' := by decide
  refine ⟨codeUnit (Nat.digitChar (b.toNat / 16)), codeUnit (Nat.digitChar (b.toNat % 16)),
    ?_, ?_⟩
  · rw [hexDigits_two]
    rfl
  · unfold Digits.toInt16
    rw [if_neg (hsign _ (by omega)), D.lowercase _ (by omega),
      D.lowercase _ (Nat.mod_lt _ (by decide))]
    show some (16 * ((b.toNat / 16 : Nat) : Int) + ((b.toNat % 16 : Nat) : Int)) = _
    congr 1
    omega

/-- **What was written is read back**, byte by byte. -/
theorem Digits.hexPairs_bytesToHex (D : Digits) (l : Bytes) :
    D.hexPairs (bytesToHex l) = .ok l ∧ (bytesToHex l).length = 2 * l.length := by
  induction l with
  | nil => exact ⟨rfl, rfl⟩
  | cons b l ih =>
    obtain ⟨x, y, hxy, hread⟩ := D.toInt16_hexDigits b
    have hcons : bytesToHex (b :: l) = x :: y :: bytesToHex l := by
      unfold bytesToHex
      rw [List.flatMap_cons, hxy]
      rfl
    rw [hcons]
    constructor
    · have hbyte : UInt8.ofInt (b.toNat : Int) = b := by
        have hb : (b.toNat : Int) < 2 ^ 8 := by exact_mod_cast b.toNat_lt
        show UInt8.ofNat ((b.toNat : Int) % 2 ^ 8).toNat = b
        rw [Int.emod_eq_of_lt (Int.natCast_nonneg _) hb, Int.toNat_natCast, UInt8.ofNat_toNat]
      unfold Digits.hexPairs
      rw [hread, ih.1]
      show Except.ok (UInt8.ofInt (b.toNat : Int) :: l) = _
      rw [hbyte]
    · rw [List.length_cons, List.length_cons, ih.2, List.length_cons]
      omega

/-! ## What is handed over -/

/-- The coordinates are in the range of a field of 256 bits. -/
structure ECPublicKey.Fits (key : ECPublicKey) : Prop where
  x_nonneg : 0 ≤ key.affineX
  x_lt : key.affineX < 2 ^ 256
  y_nonneg : 0 ≤ key.affineY
  y_lt : key.affineY < 2 ^ 256

/-- **A point in 65 bytes.** -/
structure Encodes (key : ECPublicKey) (point : Bytes) : Prop where
  length : point.length = 65
  head : point.take 1 = [0x04]
  x : (value ((point.drop 1).take 32) : Int) = key.affineX
  y : (value (point.drop 33) : Int) = key.affineY

theorem ecPublicPoint_of_fits {key : ECPublicKey} (h : key.Fits) :
    ∃ point, ecPublicPoint key = .ok point ∧ Encodes key point := by
  obtain ⟨x, hx⟩ := Int.eq_ofNat_of_zero_le h.x_nonneg
  obtain ⟨y, hy⟩ := Int.eq_ofNat_of_zero_le h.y_nonneg
  have hxlt : x < 2 ^ 256 := by
    have := h.x_lt
    rw [hx] at this
    exact_mod_cast this
  have hylt : y < 2 ^ 256 := by
    have := h.y_lt
    rw [hy] at this
    exact_mod_cast this
  refine ⟨0x04 :: (bytes x 32 ++ bytes y 32), ?_, ?_, rfl, ?_, ?_⟩
  · unfold ecPublicPoint
    rw [hx, hy, unsignedFixed32_of_lt hxlt, unsignedFixed32_of_lt hylt]
    rfl
  · rw [List.length_cons, List.length_append, length_bytes, length_bytes]
  · have htake : ((0x04 :: (bytes x 32 ++ bytes y 32)).drop 1).take 32 = bytes x 32 :=
      List.take_left' (length_bytes x 32)
    rw [htake, value_bytes_of_lt hxlt, hx]
  · have hdrop : (0x04 :: (bytes x 32 ++ bytes y 32)).drop 33 = bytes y 32 :=
      List.drop_left' (length_bytes x 32)
    rw [hdrop, value_bytes_of_lt hylt, hy]

/-- **Approval keys are exported faithfully**: a point whose coordinates fit is
encoded, and no other point as the same bytes; a coordinate that is too large
is refused; and the hexadecimal text is read back as the bytes it was written
for. -/
theorem approval_key_exported (D : Digits) :
    (∀ key : ECPublicKey, key.Fits → ∃ point, ecPublicPoint key = .ok point ∧
      Encodes key point ∧
      ∀ key' : ECPublicKey, key'.Fits → ecPublicPoint key' = .ok point → key' = key) ∧
    (∀ v : Int, 2 ^ 256 ≤ v →
      unsignedFixed32 v = .error (.illegalArgument "EC coordinate too large")) ∧
    ∀ l : Bytes, D.hexToBytes (bytesToHex l) = .ok l := by
  refine ⟨fun key h => ?_, fun v h => ?_, fun l => ?_⟩
  · obtain ⟨point, hpoint, henc⟩ := ecPublicPoint_of_fits h
    refine ⟨point, hpoint, henc, fun key' h' hpoint' => ?_⟩
    obtain ⟨point', hsame, henc'⟩ := ecPublicPoint_of_fits h'
    obtain rfl : point = point' := Except.ok.inj (hpoint'.symm.trans hsame)
    cases key
    cases key'
    congr 1
    · exact henc'.x.symm.trans henc.x
    · exact henc'.y.symm.trans henc.y
  · obtain ⟨n, rfl⟩ := Int.eq_ofNat_of_zero_le (Int.le_trans (by positivity) h)
    exact unsignedFixed32_of_le (by exact_mod_cast h)
  · obtain ⟨hread, hlength⟩ := D.hexPairs_bytesToHex l
    unfold Digits.hexToBytes
    rw [if_pos (by omega), hread]

/-- A point with a coordinate of one byte and one that is zero. -/
theorem approval_key_exported_short : (∃ point, ecPublicPoint ⟨0x80, 0⟩ = .ok point ∧
      Encodes ⟨0x80, 0⟩ point) ∧
    Digits.ascii.hexToBytes (bytesToHex [0x04, 0xff]) = .ok [0x04, 0xff] := by
  obtain ⟨hpoint, -, hhex⟩ := approval_key_exported .ascii
  have hfits : (⟨0x80, 0⟩ : ECPublicKey).Fits := ⟨by decide, by decide, by decide, by decide⟩
  obtain ⟨point, heq, henc, -⟩ := hpoint _ hfits
  exact ⟨⟨point, heq, henc⟩, hhex _⟩

end Phone
