import ZeroAudit.Prover.CassandraStore

namespace ZeroAudit
namespace Cassandra

open Foundation Binary64

/-!
# The days of the ledger

`bucket_for` goes through doubles, and rounds three times on the way to the day.  A later
time has no earlier day for all that, since each rounding is monotone.  Whether the day
before has the bucket before is another matter: it does as long as the day changes no
exponent, and `recent` relies on it.
-/

/-! ## Microseconds -/

theorem part_mono {first second : ℚ} (le : first ≤ second) :
    roundHalfEven (nearest (first * 10 ^ 6)) ≤ roundHalfEven (nearest (second * 10 ^ 6)) :=
  roundHalfEven_mono (nearest_mono (mul_le_mul_of_nonneg_right le (by norm_num)))

theorem part_one : roundHalfEven (nearest (1 * 10 ^ 6)) = 10 ^ 6 := by decide +kernel

theorem part_neg_one : roundHalfEven (nearest (-1 * 10 ^ 6)) = -10 ^ 6 := by
  rw [neg_mul, nearest_neg, roundHalfEven_neg, part_one]

theorem part_zero : roundHalfEven (nearest (0 * 10 ^ 6)) = 0 := by
  rw [zero_mul, nearest_zero, ← Int.cast_zero, roundHalfEven_intCast]

theorem wholeSeconds_mono {first second : ℚ} (le : first ≤ second) :
    wholeSeconds first ≤ wholeSeconds second := by
  unfold wholeSeconds
  split
  · next negative =>
      split
      · exact Int.ceil_le_ceil le
      · next nonneg =>
          exact (Int.ceil_le.mpr (by exact_mod_cast negative.le)).trans
            (Int.floor_nonneg.mpr (not_lt.mp nonneg))
  · next nonneg =>
      rw [if_neg (not_lt.mpr ((not_lt.mp nonneg).trans le))]
      exact Int.floor_le_floor le

theorem part_of_nonneg {seconds : ℚ} (nonneg : 0 ≤ seconds) :
    0 ≤ seconds - wholeSeconds seconds ∧ seconds - wholeSeconds seconds ≤ 1 := by
  unfold wholeSeconds
  rw [if_neg (not_lt.mpr nonneg)]
  have low := Int.floor_le seconds
  have high := Int.lt_floor_add_one seconds
  constructor <;> linarith

theorem part_of_neg {seconds : ℚ} (negative : seconds < 0) :
    -1 ≤ seconds - wholeSeconds seconds ∧ seconds - wholeSeconds seconds ≤ 0 := by
  unfold wholeSeconds
  rw [if_pos negative]
  have low := Int.ceil_lt_add_one seconds
  have high := Int.le_ceil seconds
  constructor <;> linarith

/-- The microseconds of a time lie towards zero from the next whole second. -/
theorem microseconds_bounds (seconds : ℚ) :
    (0 ≤ seconds -> wholeSeconds seconds * 10 ^ 6 ≤ microseconds seconds ∧
      microseconds seconds ≤ wholeSeconds seconds * 10 ^ 6 + 10 ^ 6) ∧
    (seconds < 0 -> wholeSeconds seconds * 10 ^ 6 - 10 ^ 6 ≤ microseconds seconds ∧
      microseconds seconds ≤ wholeSeconds seconds * 10 ^ 6) := by
  unfold microseconds
  constructor
  · intro nonneg
    rcases part_of_nonneg nonneg with ⟨low, high⟩
    have least := part_mono low
    have most := part_mono high
    rw [part_zero] at least
    rw [part_one] at most
    omega
  · intro negative
    rcases part_of_neg negative with ⟨low, high⟩
    have least := part_mono low
    have most := part_mono high
    rw [part_neg_one] at least
    rw [part_zero] at most
    omega

theorem microseconds_mono {first second : ℚ} (le : first ≤ second) :
    microseconds first ≤ microseconds second := by
  rcases Int.lt_or_eq_of_le (wholeSeconds_mono le) with less | same
  · rcases lt_or_ge first 0 with negative | nonneg
    · have upper := ((microseconds_bounds first).2 negative).2
      rcases lt_or_ge second 0 with below | above
      · have lower := ((microseconds_bounds second).2 below).1
        omega
      · have lower := ((microseconds_bounds second).1 above).1
        omega
    · have upper := ((microseconds_bounds first).1 nonneg).2
      have lower := ((microseconds_bounds second).1 (nonneg.trans le)).1
      omega
  · unfold microseconds
    rw [same]
    have parts := part_mono (sub_le_sub_right le (wholeSeconds second : ℚ))
    omega

/-- A whole number of seconds is taken off as it is. -/
theorem microseconds_sub {seconds : ℚ} {n : Int} (nonneg : 0 ≤ seconds - n) (n_nonneg : 0 ≤ n) :
    microseconds (seconds - n) = microseconds seconds - n * 10 ^ 6 := by
  have above : (0 : ℚ) ≤ seconds := by
    have cast : (0 : ℚ) ≤ n := by exact_mod_cast n_nonneg
    linarith
  have whole : wholeSeconds (seconds - n) = wholeSeconds seconds - n := by
    unfold wholeSeconds
    rw [if_neg (not_lt.mpr nonneg), if_neg (not_lt.mpr above), Int.floor_sub_intCast]
  have rest : seconds - n - ((wholeSeconds seconds - n : Int) : ℚ) = seconds - wholeSeconds seconds := by
    push_cast
    ring
  unfold microseconds
  rw [whole, rest]
  ring

/-! ## Days -/

/-- A later time has no earlier day. -/
theorem bucketFor_mono {first second : Int} (le : first ≤ second) :
    bucketFor first ≤ bucketFor second := by
  unfold bucketFor
  apply Int.ediv_le_ediv (by decide)
  apply microseconds_mono
  apply nearest_mono
  apply div_le_div_of_nonneg_right _ (by norm_num)
  apply nearest_mono
  exact_mod_cast le

/-- The buckets of the last days are next to each other. -/
def Adjacent (nowNs : Int) (days : Nat) : Prop :=
  ∀ d < days, bucketFor (nowNs - d * DAY_NS) = bucketFor nowNs - d

section Doubles

variable {nowNs : Int} {d : Nat}

theorem nanoseconds_bounds (low : 2 ^ 60 ≤ nowNs) (high : nowNs ≤ (2 ^ 31 - 1) * 10 ^ 9) :
    (2 : ℚ) ^ 60 ≤ nearest nowNs ∧ nearest nowNs ≤ (2 ^ 31 - 1) * 10 ^ 9 := by
  have first : nearest (2 ^ 60) = 2 ^ 60 := by decide +kernel
  have last : nearest ((2 ^ 31 - 1) * 10 ^ 9) = (2 ^ 31 - 1) * 10 ^ 9 := by decide +kernel
  constructor
  · rw [← first]
    apply nearest_mono
    exact_mod_cast low
  · rw [← last]
    apply nearest_mono
    exact_mod_cast high

/-- The last place of the nanoseconds is 256 of them. -/
theorem nanoseconds_sub (low : 2 ^ 60 ≤ nowNs - d * DAY_NS) (high : nowNs ≤ (2 ^ 31 - 1) * 10 ^ 9) :
    nearest ((nowNs - d * DAY_NS : Int) : ℚ) = nearest nowNs - (d * DAY_NS : Int) := by
  have least : (2 : ℚ) ^ 60 ≤ nowNs - (d * DAY_NS : Int) := by exact_mod_cast low
  have most : (nowNs : ℚ) ≤ (2 ^ 31 - 1) * 10 ^ 9 := by exact_mod_cast high
  rw [Int.cast_sub]
  apply nearest_sub_of_bounds (n := d * 168750000000) (e := 60) (by norm_num)
  · unfold DAY_NS
    push_cast
    ring
  · apply Int.cast_nonneg
    unfold DAY_NS
    omega
  · rw [zpow_ofNat]
    exact least
  · norm_num at most ⊢
    linarith

/-- The last place of the seconds is a power of two, of which an even number makes one. -/
theorem seconds_sub {nanoseconds : ℚ} (low : 2 ^ 60 ≤ nanoseconds - (d * DAY_NS : Int))
    (high : nanoseconds ≤ (2 ^ 31 - 1) * 10 ^ 9) :
    nearest ((nanoseconds - (d * DAY_NS : Int)) / 10 ^ 9) =
      nearest (nanoseconds / 10 ^ 9) - (d * 86400 : Int) := by
  have quotient : (nanoseconds - (d * DAY_NS : Int)) / 10 ^ 9 = nanoseconds / 10 ^ 9 - (d * 86400 : Int) := by
    unfold DAY_NS
    push_cast
    ring
  rw [quotient]
  apply nearest_sub_of_bounds (n := d * 181193932800) (e := 30) (by norm_num)
  · push_cast
    norm_num
    ring
  · exact Int.cast_nonneg (by omega)
  · rw [← quotient, zpow_ofNat, le_div_iff₀ (by norm_num)]
    linarith only [low]
  · norm_num at high ⊢
    linarith

end Doubles

/-- They are if the clock lies between the summer of 2006 and January of 2038. -/
theorem adjacent_of_bounds {nowNs : Int} {days : Nat} (low : 2 ^ 60 + days * DAY_NS ≤ nowNs)
    (high : nowNs ≤ (2 ^ 31 - 1) * 10 ^ 9) : Adjacent nowNs days := by
  intro d less
  have least : 2 ^ 60 ≤ nowNs - d * DAY_NS := by
    unfold DAY_NS at low ⊢
    omega
  have begins : 2 ^ 60 ≤ nowNs := by
    unfold DAY_NS at low
    omega
  have ends : nowNs - d * DAY_NS ≤ (2 ^ 31 - 1) * 10 ^ 9 := by
    unfold DAY_NS
    omega
  have shifted := nanoseconds_sub least high
  have earlier := (nanoseconds_bounds least ends).1
  rw [shifted] at earlier
  have seconds := seconds_sub earlier (nanoseconds_bounds begins high).2
  unfold bucketFor
  rw [shifted, seconds, microseconds_sub _ (by omega)]
  · unfold DAY_NS
    omega
  · rw [← seconds]
    apply nearest_nonneg
    apply div_nonneg _ (by norm_num)
    exact (pow_nonneg zero_le_two 60).trans earlier

/-- A moment of July 2006, in whose last day the nanoseconds get another exponent. -/
example : ¬Adjacent (1152921600000000000 - 600) 2 := by
  unfold Adjacent
  decide +kernel

end Cassandra
end ZeroAudit
