import QuarkTS.Lib.Rollover

/-!
# The reference clock of the kernel

The programs in `x86_test_do_not_use_it` hand `GetTickCountMs` to `qOS_Setup` as the clock source
of the kernel.  It converts a reading of the system's monotonic clock to milliseconds, in the
unsigned 32-bit type `qClock_t`.  The documentation of the software timers rests on the difference
of two such values.

* `getTickCountMs_eq_count` — whatever the seconds, the function is a counter of 32 bits that
  shows the milliseconds of the reading;
* `getTickCountMs_rollover` — the difference of two values is the number of milliseconds between
  the readings modulo `2 ^ 32`, and this number itself, monotone in the later reading, as long as it
  is less than `2 ^ 32`;
* `getTickCountMs_exact_iff` — it is not exact any longer;
* `getTickCountMs_accuracy` — an exact difference is off by less than one millisecond.
-/

set_option autoImplicit false

namespace QuarkTS.Clock

open Rollover

/-! ## Types of the C program -/

/-- `qClock_t`, as documented: an unsigned counter of 32 bits. -/
abbrev QClock := BitVec 32

/-- The width of `long`, which C leaves to the platform. -/
inductive DataModel where
  | lp64
  | ilp32
  deriving DecidableEq, Repr

/-- The division of a `long` by a `qClock_t`.  A wide `long` takes in every `qClock_t`; if both
    have 32 bits the `long` is converted to unsigned first. -/
def DataModel.div (x : Int) (d : QClock) : DataModel → Int
  | .lp64 => x.tdiv d.toNat
  | .ilp32 => (BitVec.ofInt 32 x / d).toNat

/-- `struct timespec`. -/
structure Timespec where
  tvSec : Int
  tvNsec : Int
  deriving DecidableEq, Repr

/-- What `clock_gettime` stores. -/
structure Reading extends Timespec where
  sec_nonneg : 0 ≤ tvSec
  nsec_nonneg : 0 ≤ tvNsec
  nsec_lt : tvNsec < 1000000000

/-- `GetTickCountMs`, with what `clock_gettime` has stored. -/
def getTickCountMs (D : DataModel) (ts : Timespec) : QClock :=
  BitVec.ofInt 32 (D.div ts.tvNsec 1000000) + BitVec.ofInt 32 ts.tvSec * 1000

/-! ## Time -/

namespace Timespec

def nanoseconds (ts : Timespec) : Int := ts.tvSec * 1000000000 + ts.tvNsec

/-- The whole milliseconds. -/
def ms (ts : Timespec) : Int := ts.nanoseconds / 1000000

theorem ms_eq (ts : Timespec) : ts.ms = ts.tvNsec / 1000000 + ts.tvSec * 1000 := by
  unfold ms nanoseconds
  omega

end Timespec

/-- The first reading is not later than the second. -/
instance : LE Reading where
  le a b := a.tvSec < b.tvSec ∨ a.tvSec = b.tvSec ∧ a.tvNsec ≤ b.tvNsec

theorem Reading.le_def {a b : Reading} :
    a ≤ b ↔ a.tvSec < b.tvSec ∨ a.tvSec = b.tvSec ∧ a.tvNsec ≤ b.tvNsec := Iff.rfl

instance (a b : Reading) : Decidable (a ≤ b) := inferInstanceAs (Decidable (_ ∨ _ ∧ _))

theorem Reading.le_iff_nanoseconds {a b : Reading} : a ≤ b ↔ a.nanoseconds ≤ b.nanoseconds := by
  have ha := a.nsec_nonneg
  have ha' := a.nsec_lt
  have hb := b.nsec_nonneg
  have hb' := b.nsec_lt
  rw [le_def, Timespec.nanoseconds, Timespec.nanoseconds]
  omega

theorem Reading.ms_mono {a b : Reading} (h : a ≤ b) : a.ms ≤ b.ms :=
  Int.ediv_le_ediv (by decide) (le_iff_nanoseconds.1 h)

/-! ## The value of the clock -/

/-- The data models agree on operands that are not negative. -/
theorem DataModel.div_eq (D : DataModel) {x : Int} (h : 0 ≤ x) (hlt : x < 2 ^ 32) (d : QClock) :
    D.div x d = x / d.toNat := by
  cases D with
  | lp64 => exact Int.tdiv_eq_ediv_of_nonneg h
  | ilp32 =>
    have hx : ((BitVec.ofInt 32 x).toNat : Int) = x := by
      rw [← count, toNat_count, Int.emod_eq_of_lt h hlt]
    rw [DataModel.div, BitVec.toNat_udiv, Int.natCast_ediv, hx]

/-- **`GetTickCountMs` counts milliseconds**: casting the seconds before they are multiplied loses
    nothing that the counter would show. -/
theorem getTickCountMs_eq_count (D : DataModel) (r : Reading) :
    getTickCountMs D r.toTimespec = count 32 r.ms := by
  have hnsec := r.nsec_lt
  have hdiv : D.div r.tvNsec 1000000 = r.tvNsec / 1000000 :=
    D.div_eq r.nsec_nonneg (by omega) 1000000
  rw [getTickCountMs, hdiv, Timespec.ms_eq, count_add, count_mul]
  rfl

/-! ## Differences of two values -/

/-- **The clock is roll-over safe.** -/
theorem getTickCountMs_rollover (D : DataModel) {a b : Reading} (hab : a ≤ b) :
    ((getTickCountMs D b.toTimespec - getTickCountMs D a.toTimespec).toNat : Int) =
        (b.ms - a.ms) % 2 ^ 32 ∧
      (b.ms - a.ms < 2 ^ 32 →
        ((getTickCountMs D b.toTimespec - getTickCountMs D a.toTimespec).toNat : Int) =
          b.ms - a.ms) ∧
      ∀ c : Reading, b ≤ c → c.ms - a.ms < 2 ^ 32 →
        getTickCountMs D b.toTimespec - getTickCountMs D a.toTimespec ≤
          getTickCountMs D c.toTimespec - getTickCountMs D a.toTimespec := by
  simp only [getTickCountMs_eq_count]
  refine ⟨toNat_count_sub _ _, (count_sub_eq_iff (Reading.ms_mono hab)).2, fun c hbc hlt => ?_⟩
  exact count_sub_mono (Reading.ms_mono hab) (Reading.ms_mono hbc) hlt

/-- The last millisecond before the counter comes round. -/
def beforeRollover : Reading := ⟨⟨4294967, 295000000⟩, by decide, by decide, by decide⟩

/-- Two milliseconds and a half later. -/
def afterRollover : Reading := ⟨⟨4294967, 297500000⟩, by decide, by decide, by decide⟩

/-- The counter has come round, and the difference is the elapsed time. -/
theorem getTickCountMs_rollover_once :
    getTickCountMs .lp64 afterRollover.toTimespec < getTickCountMs .lp64 beforeRollover.toTimespec ∧
      ((getTickCountMs .lp64 afterRollover.toTimespec -
        getTickCountMs .lp64 beforeRollover.toTimespec).toNat : Int) =
          afterRollover.ms - beforeRollover.ms :=
  ⟨by decide, (getTickCountMs_rollover .lp64 (by decide)).2.1 (by decide)⟩

section Differences

variable {D : DataModel} {a b : Reading}

/-- The difference is the number of elapsed milliseconds for 49.7 days, and no longer. -/
theorem getTickCountMs_exact_iff (hab : a ≤ b) :
    ((getTickCountMs D b.toTimespec - getTickCountMs D a.toTimespec).toNat : Int) = b.ms - a.ms ↔
      b.ms - a.ms < 2 ^ 32 := by
  rw [getTickCountMs_eq_count, getTickCountMs_eq_count]
  exact count_sub_eq_iff (Reading.ms_mono hab)

/-- Both values are rounded down, so that their difference may be less or more than the elapsed
    time, by less than one millisecond. -/
theorem getTickCountMs_accuracy (hab : a ≤ b) (hlt : b.ms - a.ms < 2 ^ 32) :
    |((getTickCountMs D b.toTimespec - getTickCountMs D a.toTimespec).toNat : Int) * 1000000 -
      (b.nanoseconds - a.nanoseconds)| < 1000000 := by
  rw [(getTickCountMs_exact_iff hab).2 hlt, Timespec.ms, Timespec.ms, abs_lt]
  omega

end Differences

end QuarkTS.Clock
