import Mathlib.Data.List.Basic
import Mathlib.Tactic.Ring

/-!
# Length-prefixed frames

A frame is the length of a payload in four bytes, the least significant
one first, and the payload after it. The four bytes and the length
determine each other, below `2 ^ 32`.

A reader takes a value from the front of a byte string and leaves the
rest. One that gives back every value from its encoding, whatever
follows, gives back any list of values from their encodings one after
the other, and leaves what follows them (`Reader.many_flatMap`).
-/

namespace Framing

/-- `u32::to_le_bytes`, of a number below `2 ^ 32`. -/
def toLeBytes (n : Nat) : List UInt8 :=
  [UInt8.ofNat n, UInt8.ofNat (n / 2 ^ 8), UInt8.ofNat (n / 2 ^ 16), UInt8.ofNat (n / 2 ^ 24)]

/-- `u32::from_le_bytes`. -/
def fromLeBytes (b₀ b₁ b₂ b₃ : UInt8) : Nat :=
  b₀.toNat + 2 ^ 8 * b₁.toNat + 2 ^ 16 * b₂.toNat + 2 ^ 24 * b₃.toNat

@[simp] theorem length_toLeBytes (n : Nat) : (toLeBytes n).length = 4 := rfl

theorem fromLeBytes_lt (b₀ b₁ b₂ b₃ : UInt8) : fromLeBytes b₀ b₁ b₂ b₃ < 2 ^ 32 := by
  have h₀ := b₀.toNat_lt
  have h₁ := b₁.toNat_lt
  have h₂ := b₂.toNat_lt
  have h₃ := b₃.toNat_lt
  unfold fromLeBytes
  omega

/-- **The bytes of a length give it back.** -/
theorem fromLeBytes_ofNat {n : Nat} (h : n < 2 ^ 32) :
    fromLeBytes (UInt8.ofNat n) (UInt8.ofNat (n / 2 ^ 8)) (UInt8.ofNat (n / 2 ^ 16))
      (UInt8.ofNat (n / 2 ^ 24)) = n := by
  unfold fromLeBytes
  simp only [UInt8.toNat_ofNat']
  omega

/-- **The length of four bytes gives them back.** -/
theorem toLeBytes_fromLeBytes (b₀ b₁ b₂ b₃ : UInt8) :
    toLeBytes (fromLeBytes b₀ b₁ b₂ b₃) = [b₀, b₁, b₂, b₃] := by
  have h₀ := b₀.toNat_lt
  have h₁ := b₁.toNat_lt
  have h₂ := b₂.toNat_lt
  have h₃ := b₃.toNat_lt
  unfold toLeBytes fromLeBytes
  congr 1
  · apply UInt8.toNat_inj.mp
    rw [UInt8.toNat_ofNat']
    omega
  congr 1
  · apply UInt8.toNat_inj.mp
    rw [UInt8.toNat_ofNat']
    omega
  congr 1
  · apply UInt8.toNat_inj.mp
    rw [UInt8.toNat_ofNat']
    omega
  congr 1
  apply UInt8.toNat_inj.mp
  rw [UInt8.toNat_ofNat']
  omega

/-- A payload with its length before it. -/
def frame (payload : List UInt8) : List UInt8 :=
  toLeBytes payload.length ++ payload

theorem length_frame (payload : List UInt8) : (frame payload).length = 4 + payload.length := by
  rw [frame, List.length_append, length_toLeBytes]

/-! ## Readers -/

/-- **A reader** takes a value from the front of what there is to read
and leaves the rest, or fails. -/
abbrev Reader (ε α : Type) := List UInt8 → Except ε (α × List UInt8)

variable {ε α : Type}

namespace Reader

/-- Read exactly `n` bytes. -/
def exact (missing : ε) (n : Nat) : Reader ε (List UInt8) := fun input =>
  if n ≤ input.length then .ok (input.take n, input.drop n) else .error missing

/-- Read one value after the other. -/
def many (r : Reader ε α) : Nat → Reader ε (List α)
  | 0, input => .ok ([], input)
  | n + 1, input =>
    match r input with
    | .error e => .error e
    | .ok (a, rest) =>
      match many r n rest with
      | .error e => .error e
      | .ok (l, rest) => .ok (a :: l, rest)

/-- What is there is read. -/
theorem exact_append {missing : ε} {n : Nat} {front : List UInt8} (h : front.length = n)
    (rest : List UInt8) : exact missing n (front ++ rest) = .ok (front, rest) := by
  subst h
  unfold exact
  rw [if_pos (by rw [List.length_append]; omega), List.take_left, List.drop_left]

theorem exact_eq_ok {missing : ε} {n : Nat} {input front rest : List UInt8}
    (h : exact missing n input = .ok (front, rest)) : input = front ++ rest ∧ front.length = n := by
  unfold exact at h
  split at h
  · next hn =>
    obtain ⟨rfl, rfl⟩ := Prod.mk.inj (Except.ok.inj h)
    exact ⟨(List.take_append_drop n input).symm, List.length_take_of_le hn⟩
  · cases h

/-- **Encodings one after the other are read one after the other**: a
reader that gives back each value from its encoding gives back the list,
and leaves what follows. -/
theorem many_flatMap {r : Reader ε α} {encode : α → List UInt8} {l : List α}
    (h : ∀ a ∈ l, ∀ rest, r (encode a ++ rest) = .ok (a, rest)) (rest : List UInt8) :
    many r l.length (l.flatMap encode ++ rest) = .ok (l, rest) := by
  induction l with
  | nil => rfl
  | cons a l ih =>
    have htail := ih fun b hb => h b (List.mem_cons_of_mem a hb)
    rw [List.flatMap_cons, List.append_assoc, List.length_cons]
    unfold many
    simp only [h a List.mem_cons_self, htail]

end Reader

end Framing
