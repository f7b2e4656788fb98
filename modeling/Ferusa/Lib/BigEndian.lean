import Mathlib.Data.Nat.Size
import Mathlib.Tactic.Positivity
import Mathlib.Tactic.Ring
import Mathlib.Tactic.Zify
import Mathlib.Algebra.Order.Ring.Int

/-!
# Big-endian bytes and the two's complement

A number is written with its most significant byte first, to any given
length (`bytes`); read back, it is the number up to that length
(`value_bytes`). An integer is written in two's complement, the first bit
being the sign, and in as few bytes as will do (`toTwos`): reading gives
it back (`twosValue_toTwos`), and no shorter text of bytes does
(`length_toTwos_le`).
-/

namespace BigEndian

/-! ## Numbers -/

/-- The last `n` bytes of a number, most significant first. -/
def bytes (v : Nat) : Nat → List UInt8
  | 0 => []
  | n + 1 => UInt8.ofNat (v / 256 ^ n) :: bytes v n

/-- The number some bytes stand for. -/
def value : List UInt8 → Nat
  | [] => 0
  | b :: l => b.toNat * 256 ^ l.length + value l

variable {v w n m : Nat} {l : List UInt8}

@[simp] theorem length_bytes (v n : Nat) : (bytes v n).length = n := by
  induction n with
  | zero => rfl
  | succ n ih => rw [bytes, List.length_cons, ih]

theorem value_lt (l : List UInt8) : value l < 256 ^ l.length := by
  induction l with
  | nil => exact Nat.one_pos
  | cons b l ih =>
    have hb : b.toNat + 1 ≤ 256 := b.toNat_lt
    have hmul : (b.toNat + 1) * 256 ^ l.length ≤ 256 * 256 ^ l.length :=
      Nat.mul_le_mul_right _ hb
    rw [value, List.length_cons, pow_succ]
    rw [Nat.add_mul] at hmul
    omega

/-- **Read back, a number is itself** up to the length it was written to. -/
theorem value_bytes (v n : Nat) : value (bytes v n) = v % 256 ^ n := by
  induction n with
  | zero => rw [pow_zero, Nat.mod_one, bytes, value]
  | succ n ih =>
    have hbyte : (UInt8.ofNat (v / 256 ^ n)).toNat = v / 256 ^ n % 256 := UInt8.toNat_ofNat ..
    rw [bytes, value, length_bytes, ih, hbyte, pow_succ, Nat.mod_mul]
    ring

theorem value_bytes_of_lt (h : v < 256 ^ n) : value (bytes v n) = v := by
  rw [value_bytes, Nat.mod_eq_of_lt h]

/-- Further bytes in front of a number that fits are zeros. -/
theorem bytes_add (h : v < 256 ^ n) (k : Nat) :
    bytes v (n + k) = List.replicate k 0 ++ bytes v n := by
  induction k with
  | zero => rfl
  | succ k ih =>
    have hzero : v / 256 ^ (n + k) = 0 :=
      Nat.div_eq_of_lt (h.trans_le (Nat.pow_le_pow_right (by decide) (Nat.le_add_right n k)))
    rw [← Nat.add_assoc, bytes, ih, hzero, List.replicate_succ]
    rfl

/-- The first byte of a number that needs it. -/
theorem head_bytes_ne_zero (h : v < 256 ^ (n + 1)) (hn : 256 ^ n ≤ v) :
    UInt8.ofNat (v / 256 ^ n) ≠ 0 := by
  have hlt : v / 256 ^ n < 256 := by
    rw [Nat.div_lt_iff_lt_mul (Nat.pow_pos (by decide)), Nat.mul_comm, ← pow_succ]
    exact h
  have hpos : 0 < v / 256 ^ n := Nat.div_pos hn (Nat.pow_pos (by decide))
  intro hzero
  have hval : v / 256 ^ n % 256 = 0 := by
    have := congrArg UInt8.toNat hzero
    rwa [UInt8.toNat_ofNat'] at this
  omega

/-! ## The two's complement -/

/-- The integer some bytes stand for, the first bit being the sign. -/
def twosValue (l : List UInt8) : Int :=
  if 2 * value l < 256 ^ l.length then value l else value l - 256 ^ l.length

/-- The bits an integer needs besides its sign. -/
def bitLength : Int → Nat
  | .ofNat n => n.size
  | .negSucc n => n.size

/-- **An integer in two's complement**, in as many bytes as it needs. -/
def toTwos (v : Int) : List UInt8 :=
  bytes (v % 256 ^ (bitLength v / 8 + 1)).toNat (bitLength v / 8 + 1)

/-- What `n + 1` bytes can hold. -/
theorem bitLength_le_iff (v : Int) (n : Nat) :
    bitLength v ≤ 8 * n + 7 ↔ -(128 * 256 ^ n) ≤ v ∧ v < 128 * 256 ^ n := by
  have hpow : 2 ^ (8 * n + 7) = 128 * 256 ^ n := by
    rw [pow_add, pow_mul]
    ring
  have hcast : (128 * 256 ^ n : Int) = ((128 * 256 ^ n : Nat) : Int) := by push_cast; rfl
  rw [hcast]
  cases v with
  | ofNat k =>
    show k.size ≤ _ ↔ _
    rw [Nat.size_le, hpow, Int.ofNat_eq_natCast]
    omega
  | negSucc k =>
    show k.size ≤ _ ↔ _
    rw [Nat.size_le, hpow, Int.negSucc_eq]
    omega

/-- The test for the sign, of a natural number and of the same integer. -/
theorem two_mul_lt_iff {a : Nat} {b : Int} (h : (a : Int) = b) (n : Nat) :
    2 * a < 256 ^ n ↔ 2 * b < 256 ^ n := by
  subst h
  exact_mod_cast Iff.rfl

/-- **Read back, an integer is itself.** -/
theorem twosValue_toTwos (v : Int) : twosValue (toTwos v) = v := by
  have hfits : bitLength v ≤ 8 * (bitLength v / 8) + 7 := by omega
  obtain ⟨hlow, hhigh⟩ := (bitLength_le_iff v _).mp hfits
  unfold toTwos twosValue
  generalize bitLength v / 8 = n at hlow hhigh
  have hpow : (256 ^ (n + 1) : Int) = 256 * 256 ^ n := by ring
  have hpos : (0 : Int) < 256 ^ n := by positivity
  have hnonneg : 0 ≤ v % 256 ^ (n + 1) := Int.emod_nonneg _ (by positivity)
  have hlt : v % 256 ^ (n + 1) < 256 ^ (n + 1) := Int.emod_lt_of_pos _ (by positivity)
  have hval : ((value (bytes (v % 256 ^ (n + 1)).toNat (n + 1)) : Nat) : Int) =
      v % 256 ^ (n + 1) := by
    have hnat : (v % 256 ^ (n + 1)).toNat < 256 ^ (n + 1) := by
      zify
      rwa [Int.toNat_of_nonneg hnonneg]
    rw [value_bytes_of_lt hnat, Int.toNat_of_nonneg hnonneg]
  have hiff := two_mul_lt_iff hval (n + 1)
  rw [length_bytes, hval, if_congr hiff rfl rfl, hpow]
  generalize (256 ^ n : Int) = p at hlow hhigh hpos
  by_cases hv : 0 ≤ v
  · rw [Int.emod_eq_of_lt hv (by omega), if_pos (by omega)]
  · have hmod : v % (256 * p) = v + 256 * p := by
      rw [← Int.add_emod_right, Int.emod_eq_of_lt (by omega) (by omega)]
    rw [hmod, if_neg (by omega)]
    omega

/-- A natural number in two's complement has room for its sign. -/
theorem toTwos_natCast (v : Nat) : toTwos v = bytes v (v.size / 8 + 1) ∧
    v < 256 ^ (v.size / 8 + 1) := by
  have hlt : v < 256 ^ (v.size / 8 + 1) := by
    have hpow : 256 ^ (v.size / 8 + 1) = 2 ^ (8 * (v.size / 8 + 1)) := by
      rw [pow_mul]
      rfl
    rw [hpow, ← Nat.size_le]
    omega
  refine ⟨?_, hlt⟩
  have hcast : (v : Int) < 256 ^ (v.size / 8 + 1) := by exact_mod_cast hlt
  show bytes ((v : Int) % 256 ^ (v.size / 8 + 1)).toNat (v.size / 8 + 1) = _
  rw [Int.emod_eq_of_lt (Int.natCast_nonneg v) hcast, Int.toNat_natCast]

/-- **Without a leading zero byte**, a natural number has as many bytes as it
needs, and none if it is zero. -/
theorem toTwos_natCast_strip (v : Nat) : ∃ n,
    (if (toTwos v).head? = some 0 then (toTwos v).tail else toTwos v) = bytes v n ∧
      v < 256 ^ n ∧ (v < 256 ^ m → n ≤ m) := by
  obtain ⟨heq, hlt⟩ := toTwos_natCast v
  have hneed : ∀ k, 256 ^ k ≤ v → v < 256 ^ m → k + 1 ≤ m := fun k hk hm =>
    Nat.succ_le_of_lt ((Nat.pow_lt_pow_iff_right (by decide)).mp (hk.trans_lt hm))
  rw [heq]
  by_cases hfirst : 256 ^ (v.size / 8) ≤ v
  · refine ⟨v.size / 8 + 1, ?_, hlt, hneed _ hfirst⟩
    have hne : (bytes v (v.size / 8 + 1)).head? ≠ some 0 := fun h =>
      head_bytes_ne_zero hlt hfirst (Option.some.inj h)
    rw [if_neg hne]
  · have hless : v < 256 ^ (v.size / 8) := Nat.lt_of_not_le hfirst
    have hzero : (bytes v (v.size / 8 + 1)).head? = some 0 := by
      rw [bytes_add hless 1]
      rfl
    refine ⟨v.size / 8, by rw [if_pos hzero]; rfl, hless, fun hm => ?_⟩
    -- a byte of the size is half used at least
    cases hsize : v.size / 8 with
    | zero => exact Nat.zero_le m
    | succ k =>
      have hk : 256 ^ k ≤ v := by
        have hpow : 256 ^ k = 2 ^ (8 * k) := by
          rw [pow_mul]
          rfl
        rw [hpow, ← Nat.lt_size]
        omega
      exact hneed k hk hm

/-- **Nothing shorter stands for the integer.** -/
theorem length_toTwos_le {v : Int} (hl : l ≠ []) (h : twosValue l = v) :
    (toTwos v).length ≤ l.length := by
  obtain ⟨n, hn⟩ : ∃ n, l.length = n + 1 :=
    Nat.exists_eq_succ_of_ne_zero fun hzero => hl (List.eq_nil_of_length_eq_zero hzero)
  have hlt : value l < 256 ^ (n + 1) := hn ▸ value_lt l
  have hcast : ((value l : Nat) : Int) < 256 ^ (n + 1) := by exact_mod_cast hlt
  have hiff := two_mul_lt_iff (rfl : ((value l : Nat) : Int) = value l) (n + 1)
  have hpow : (256 ^ (n + 1) : Int) = 256 * 256 ^ n := by ring
  have hfits : bitLength v ≤ 8 * n + 7 := by
    rw [bitLength_le_iff, ← h]
    unfold twosValue
    rw [hn, if_congr hiff rfl rfl]
    rw [hpow] at hcast ⊢
    split <;> omega
  unfold toTwos
  rw [length_bytes, hn]
  omega

end BigEndian
