/-
**Numbers as bytes, the lowest byte first.**

Main definitions:

* `LittleEndian.bytes`, `LittleEndian.value` — a number as so many bytes, and back.

Main results:

* `LittleEndian.value_bytes` — **the number comes back**, as far as it fits.
-/

import Mathlib.Tactic.Ring

set_option relaxedAutoImplicit false
set_option autoImplicit false

namespace LittleEndian

/-- The lowest `k` bytes of a number. -/
def bytes : ℕ → ℕ → List UInt8
  | 0, _ => []
  | k + 1, n => UInt8.ofNat n :: bytes k (n / 256)

/-- The number that bytes stand for. -/
def value : List UInt8 → ℕ
  | [] => 0
  | b :: s => b.toNat + 256 * value s

@[simp] theorem length_bytes (k n : ℕ) : (bytes k n).length = k := by
  induction k generalizing n with
  | zero => rfl
  | succ k ih => rw [bytes, List.length_cons, ih]

/-- **The number comes back**, as far as it fits. -/
theorem value_bytes (k n : ℕ) : value (bytes k n) = n % 256 ^ k := by
  induction k generalizing n with
  | zero => rw [bytes, value, Nat.pow_zero, Nat.mod_one]
  | succ k ih =>
      rw [bytes, value, ih, UInt8.toNat_ofNat', Nat.pow_succ' (m := 256), Nat.mod_mul (a := 256)]

/-- The higher bytes do not matter. -/
theorem bytes_mod (k n : ℕ) : bytes k (n % 256 ^ k) = bytes k n := by
  induction k generalizing n with
  | zero => rfl
  | succ k ih =>
      have hlow : UInt8.ofNat (n % 256 ^ (k + 1)) = UInt8.ofNat n := by
        apply UInt8.toNat_inj.mp
        rw [UInt8.toNat_ofNat', UInt8.toNat_ofNat', Nat.pow_succ']
        exact Nat.mod_mod_of_dvd n (Dvd.intro _ rfl)
      rw [bytes, bytes, hlow, Nat.pow_succ' (m := 256), Nat.mod_mul_right_div_self, ih]

end LittleEndian
