import Mathlib.Data.BitVec

/-!
# Counters that roll over

A free-running counter of `w` bits shows the number of its ticks modulo `2 ^ w`.  Arithmetic on
what it shows is arithmetic on the ticks (`count_add`, `count_mul`, `count_sub`), wherever the
counter rolls over, so that two readings are compared by their difference.

* `toNat_count_sub` — the difference of two readings is the number of ticks between them, modulo
  `2 ^ w`;
* `count_sub_eq_iff` — it is this number itself exactly as long as that is less than `2 ^ w`;
* `count_sub_mono` — as long as it is, the difference grows with the later reading.
-/

set_option autoImplicit false

namespace Rollover

/-- What a counter of `w` bits shows after `n` ticks. -/
def count (w : Nat) (n : Int) : BitVec w := BitVec.ofInt w n

variable {w : Nat}

theorem count_add (m n : Int) : count w (m + n) = count w m + count w n := BitVec.ofInt_add m n

theorem count_mul (m n : Int) : count w (m * n) = count w m * count w n := BitVec.ofInt_mul m n

theorem count_sub (m n : Int) : count w (m - n) = count w m - count w n := by
  rw [eq_sub_iff_add_eq, ← count_add, Int.sub_add_cancel]

/-- The counter comes round after a positive number of ticks. -/
theorem period_pos (w : Nat) : (0 : Int) < 2 ^ w := Int.pow_pos (by decide)

theorem toNat_count (n : Int) : ((count w n).toNat : Int) = n % 2 ^ w := by
  rw [count, BitVec.toNat_ofInt, Nat.cast_pow, Nat.cast_ofNat,
    Int.toNat_of_nonneg (Int.emod_nonneg n (period_pos w).ne')]

/-! ## The difference of two readings -/

variable {m n k : Int}

theorem toNat_count_sub (m n : Int) :
    ((count w n - count w m).toNat : Int) = (n - m) % 2 ^ w := by
  rw [← count_sub, toNat_count]

/-- **The difference is exact** as long as the counter comes round less than once. -/
theorem count_sub_eq_iff (h : m ≤ n) :
    ((count w n - count w m).toNat : Int) = n - m ↔ n - m < 2 ^ w := by
  rw [toNat_count_sub]
  constructor
  · intro heq
    rw [← heq]
    exact Int.emod_lt_of_pos _ (period_pos w)
  · exact Int.emod_eq_of_lt (Int.sub_nonneg.2 h)

/-- The difference grows with the later reading. -/
theorem count_sub_mono (hmn : m ≤ n) (hnk : n ≤ k) (hlt : k - m < 2 ^ w) :
    count w n - count w m ≤ count w k - count w m := by
  have hlt' : n - m < 2 ^ w := by omega
  have hn := (count_sub_eq_iff hmn).2 hlt'
  have hk := (count_sub_eq_iff (hmn.trans hnk)).2 hlt
  rw [BitVec.le_def]
  omega

end Rollover
