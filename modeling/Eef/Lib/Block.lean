import Mathlib.Data.Nat.Bitwise

/-!
# Address blocks

A block of `w`-bit addresses is written `base/len`: the addresses that agree with `base` in their
first `len` bits. Code tests such a block by comparing a part of the address, by a range
(`contains_iff` leads to both), or by masking (`and_mask`).
-/

namespace Eef.Lib

/-- The block `base/len` of the addresses of `w` bits. -/
structure Block (w : Nat) where
  base : Nat
  len : Nat
  len_le : len ≤ w
  aligned : 2 ^ (w - len) ∣ base

namespace Block

variable {w : Nat}

/-- How many addresses the block has. -/
def size (b : Block w) : Nat := 2 ^ (w - b.len)

/-- The address agrees with the block in the bits that the block fixes. -/
def Contains (b : Block w) (n : Nat) : Prop := n / b.size = b.base / b.size

instance (b : Block w) (n : Nat) : Decidable (b.Contains n) := inferInstanceAs (Decidable (_ = _))

theorem size_pos (b : Block w) : 0 < b.size := Nat.two_pow_pos _

/-- A block is a range of addresses. -/
theorem contains_iff (b : Block w) (n : Nat) : b.Contains n ↔ b.base ≤ n ∧ n < b.base + b.size := by
  have hpos := b.size_pos
  obtain ⟨k, hk⟩ : b.size ∣ b.base := b.aligned
  have hdiv : b.base / b.size = k := by rw [hk, Nat.mul_div_cancel_left k hpos]
  unfold Contains
  rw [hdiv, Nat.div_eq_iff hpos, hk, Nat.mul_comm b.size k]
  omega

end Block

/-- Masking the low `k` bits of a `w`-bit number away. -/
theorem and_mask {w k n : Nat} (hk : k ≤ w) (hn : n < 2 ^ w) :
    n &&& (2 ^ w - 2 ^ k) = n / 2 ^ k * 2 ^ k := by
  have hmask : 2 ^ w - 2 ^ k = (2 ^ (w - k) - 1) <<< k := by
    rw [Nat.shiftLeft_eq, Nat.sub_mul, Nat.one_mul, ← Nat.pow_add, Nat.sub_add_cancel hk]
  rw [hmask, ← Nat.shiftRight_eq_div_pow, ← Nat.shiftLeft_eq]
  apply Nat.eq_of_testBit_eq
  intro i
  rw [Nat.testBit_and, Nat.testBit_shiftLeft, Nat.testBit_shiftLeft, Nat.testBit_two_pow_sub_one,
    Nat.testBit_shiftRight]
  by_cases hi : k ≤ i
  · have hadd : k + (i - k) = i := by omega
    rw [hadd]
    by_cases hw : i < w
    · have hlt : i - k < w - k := by omega
      simp [hlt, hi]
    · have hbit : n.testBit i = false :=
        Nat.testBit_lt_two_pow (Nat.lt_of_lt_of_le hn (Nat.pow_le_pow_right (by omega) (by omega)))
      simp [hbit]
  · simp [hi]

end Eef.Lib
