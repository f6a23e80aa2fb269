import Mathlib.Data.Int.Log
import Mathlib.Data.Rat.Floor
import Mathlib.Tactic.FieldSimp
import Mathlib.Tactic.Linarith
import Mathlib.Tactic.NormNum
import Mathlib.Tactic.Ring

namespace Foundation
namespace Binary64

/-!
# Rounding to integers and to doubles

A rational is rounded to the integer next to it, and halfway between two of them to the even
one.  A double is an integer of 53 bits times a power of two, its last place, and the double
next to a rational is got by rounding in units of that place.  Numbers beyond the largest
double are not treated: nothing here overflows.
-/

/-! ## Integers -/

/-- Half-to-even rounding of a rational to an integer. -/
def roundHalfEven (value : ℚ) : Int :=
  let below := ⌊value⌋
  let rest := value - below
  if rest < 1 / 2 then below
  else if 1 / 2 < rest then below + 1
  else if below % 2 = 0 then below else below + 1

/-- Rounding moves by less than one. -/
theorem roundHalfEven_bounds (value : ℚ) :
    ⌊value⌋ ≤ roundHalfEven value ∧ roundHalfEven value ≤ ⌊value⌋ + 1 := by
  unfold roundHalfEven
  dsimp only
  split
  · omega
  · split
    · omega
    · split
      · omega
      · omega

theorem roundHalfEven_mono {value other : ℚ} (le : value ≤ other) :
    roundHalfEven value ≤ roundHalfEven other := by
  have floors := Int.floor_le_floor le
  rcases Int.lt_or_eq_of_le floors with less | same
  · have upper := (roundHalfEven_bounds value).2
    have lower := (roundHalfEven_bounds other).1
    omega
  · unfold roundHalfEven
    dsimp only
    rw [same]
    have rests : value - (⌊other⌋ : ℚ) ≤ other - ⌊other⌋ := sub_le_sub_right le _
    by_cases low : other - (⌊other⌋ : ℚ) < 1 / 2
    · rw [if_pos low, if_pos (lt_of_le_of_lt rests low)]
    · rw [if_neg low]
      by_cases high : 1 / 2 < other - (⌊other⌋ : ℚ)
      · rw [if_pos high]
        split
        · omega
        · split
          · omega
          · split
            · omega
            · omega
      · rw [if_neg high]
        have half : ¬ 1 / 2 < value - (⌊other⌋ : ℚ) := fun above => high (lt_of_lt_of_le above rests)
        rw [if_neg half]
        split
        · split
          · omega
          · omega
        · exact Int.le_refl _

theorem roundHalfEven_sub_even (value : ℚ) (n : Int) :
    roundHalfEven (value - (2 * n : Int)) = roundHalfEven value - 2 * n := by
  unfold roundHalfEven
  dsimp only
  rw [Int.floor_sub_intCast]
  have rest : value - (2 * n : Int) - ((⌊value⌋ - 2 * n : Int) : ℚ) = value - ⌊value⌋ := by
    push_cast
    ring
  have parity : (⌊value⌋ - 2 * n) % 2 = ⌊value⌋ % 2 := by omega
  rw [rest, parity]
  split
  · rfl
  · split
    · ring
    · split
      · rfl
      · ring

theorem roundHalfEven_intCast (n : Int) : roundHalfEven (n : ℚ) = n := by
  unfold roundHalfEven
  simp

/-- No integer is closer than half a unit farther than the one that is chosen. -/
theorem abs_roundHalfEven_sub_le (value : ℚ) : |(roundHalfEven value : ℚ) - value| ≤ 1 / 2 := by
  have low := Int.floor_le value
  have high := Int.lt_floor_add_one value
  unfold roundHalfEven
  dsimp only
  rw [abs_le]
  split
  · next less => constructor <;> linarith
  · next notLess =>
      rw [not_lt] at notLess
      split
      · next more =>
          push_cast
          constructor <;> linarith
      · next notMore =>
          rw [not_lt] at notMore
          split
          · constructor <;> linarith
          · push_cast
            constructor <;> linarith

/-- An integer that is less than half a unit away is the one that is chosen. -/
theorem roundHalfEven_of_near {value : ℚ} {n : Int} (near : |value - n| < 1 / 2) : roundHalfEven value = n := by
  have chosen := abs_le.mp (abs_roundHalfEven_sub_le value)
  rw [abs_lt] at near
  have above : (roundHalfEven value : ℚ) < n + 1 := by linarith
  have below : (n : ℚ) - 1 < roundHalfEven value := by linarith
  have upper : roundHalfEven value < n + 1 := by exact_mod_cast above
  have lower : n - 1 < roundHalfEven value := by exact_mod_cast below
  omega

theorem roundHalfEven_neg (value : ℚ) : roundHalfEven (-value) = -roundHalfEven value := by
  by_cases whole : value = ⌊value⌋
  · rw [whole, ← Int.cast_neg, roundHalfEven_intCast, roundHalfEven_intCast]
  · have strict : (⌊value⌋ : ℚ) < value := lt_of_le_of_ne (Int.floor_le value) (Ne.symm whole)
    have high := Int.lt_floor_add_one value
    have floor : ⌊-value⌋ = -⌊value⌋ - 1 := by
      rw [Int.floor_eq_iff]
      push_cast
      constructor <;> linarith
    unfold roundHalfEven
    dsimp only
    rw [floor]
    push_cast
    by_cases less : value - ⌊value⌋ < 1 / 2
    · rw [if_neg (by linarith), if_pos (by linarith), if_pos less]
      ring
    · rw [if_neg less]
      by_cases more : 1 / 2 < value - ⌊value⌋
      · rw [if_pos (by linarith), if_pos more]
        ring
      · rw [if_neg (by linarith), if_neg (by linarith), if_neg more]
        split
        · next odd => rw [if_neg (by omega)]; ring
        · next even => rw [if_pos (by omega)]; ring

/-! ## Doubles -/

/-- The exponent of the last of 53 bits, down to that of the subnormal numbers. -/
def lastPlace (x : ℚ) : Int := max (Int.log 2 |x| - 52) (-1074)

/-- The double next to a rational, and of two that are as near the even one. -/
def nearest (x : ℚ) : ℚ := roundHalfEven (x / 2 ^ lastPlace x) * 2 ^ lastPlace x

theorem place_pos (e : Int) : (0 : ℚ) < 2 ^ e := zpow_pos two_pos e

theorem lastPlace_neg (x : ℚ) : lastPlace (-x) = lastPlace x := by
  unfold lastPlace
  rw [abs_neg]

theorem nearest_neg (x : ℚ) : nearest (-x) = -nearest x := by
  unfold nearest
  rw [lastPlace_neg, neg_div, roundHalfEven_neg]
  push_cast
  ring

theorem nearest_zero : nearest 0 = 0 := by
  unfold nearest
  rw [zero_div, ← Int.cast_zero, roundHalfEven_intCast]
  simp

/-- A bound that is a multiple of the last place bounds the double as well. -/
theorem nearest_le_of_le {x : ℚ} {m : Int} (le : x ≤ m * 2 ^ lastPlace x) : nearest x ≤ m * 2 ^ lastPlace x := by
  have place := place_pos (lastPlace x)
  unfold nearest
  apply mul_le_mul_of_nonneg_right _ place.le
  have rounded := roundHalfEven_mono ((div_le_iff₀ place).mpr le)
  rw [roundHalfEven_intCast] at rounded
  exact_mod_cast rounded

theorem le_nearest_of_le {x : ℚ} {m : Int} (le : m * 2 ^ lastPlace x ≤ x) : m * 2 ^ lastPlace x ≤ nearest x := by
  have place := place_pos (lastPlace x)
  unfold nearest
  apply mul_le_mul_of_nonneg_right _ place.le
  have rounded := roundHalfEven_mono ((le_div_iff₀ place).mpr le)
  rw [roundHalfEven_intCast] at rounded
  exact_mod_cast rounded

/-- A power of two at or above the last place is a multiple of it. -/
theorem power_eq_multiple {e place : Int} (above : place ≤ e) :
    (2 : ℚ) ^ e = ((2 ^ (e - place).toNat : Int) : ℚ) * 2 ^ place := by
  push_cast
  rw [← zpow_natCast, ← zpow_add₀ (two_ne_zero), Int.toNat_of_nonneg (by omega)]
  congr 1
  omega

theorem nearest_nonneg {x : ℚ} (nonneg : 0 ≤ x) : 0 ≤ nearest x := by
  have bound : ((0 : Int) : ℚ) * 2 ^ lastPlace x ≤ nearest x := by
    apply le_nearest_of_le
    rw [Int.cast_zero, zero_mul]
    exact nonneg
  rwa [Int.cast_zero, zero_mul] at bound

private theorem nearest_mono_of_pos {x y : ℚ} (positive : 0 < x) (le : x ≤ y) : nearest x ≤ nearest y := by
  have logs := Int.log_mono_right (b := 2) positive le
  have here : |x| = x := abs_of_pos positive
  have there : |y| = y := abs_of_pos (positive.trans_le le)
  by_cases same : lastPlace x = lastPlace y
  · unfold nearest
    rw [same]
    apply mul_le_mul_of_nonneg_right _ (place_pos _).le
    have rounded := roundHalfEven_mono (div_le_div_of_nonneg_right le (place_pos (lastPlace y)).le)
    exact_mod_cast rounded
  · -- a power of two lies between them, and it is a double
    have apart : Int.log 2 x < Int.log 2 y ∧ lastPlace x ≤ Int.log 2 y ∧ lastPlace y ≤ Int.log 2 y := by
      unfold lastPlace at same ⊢
      rw [here, there] at same ⊢
      omega
    rcases apart with ⟨less, placeX, placeY⟩
    have above : x < 2 ^ Int.log 2 y := (Int.lt_zpow_iff_log_lt one_lt_two positive).mpr less
    have below : (2 : ℚ) ^ Int.log 2 y ≤ y := Int.zpow_log_le_self one_lt_two (positive.trans_le le)
    calc nearest x ≤ 2 ^ Int.log 2 y := by
          rw [power_eq_multiple placeX] at above ⊢
          exact nearest_le_of_le above.le
      _ ≤ nearest y := by
          rw [power_eq_multiple placeY] at below ⊢
          exact le_nearest_of_le below

/-- A greater number has no smaller double. -/
theorem nearest_mono {x y : ℚ} (le : x ≤ y) : nearest x ≤ nearest y := by
  rcases lt_trichotomy x 0 with negative | zero | positive
  · rcases lt_or_ge y 0 with below | above
    · have turned := nearest_mono_of_pos (neg_pos.mpr below) (neg_le_neg le)
      rw [nearest_neg, nearest_neg] at turned
      exact neg_le_neg_iff.mp turned
    · have left := nearest_nonneg (neg_nonneg.mpr negative.le)
      rw [nearest_neg] at left
      exact (neg_nonneg.mp left).trans (nearest_nonneg above)
  · rw [zero, nearest_zero]
    exact nearest_nonneg (zero ▸ le)
  · exact nearest_mono_of_pos positive le

/-- Between two powers of two the last place is the same. -/
theorem lastPlace_of_bounds {x : ℚ} {e : Int} (normal : -1022 ≤ e) (low : 2 ^ e ≤ x) (high : x < 2 ^ (e + 1)) :
    lastPlace x = e - 52 := by
  have positive : 0 < x := (place_pos e).trans_le low
  have least := (Int.zpow_le_iff_le_log one_lt_two positive).mp low
  have most := (Int.lt_zpow_iff_log_lt one_lt_two positive).mp high
  unfold lastPlace
  rw [abs_of_pos positive]
  omega

/-- Between two powers of two, a shift by an even number of last places shifts the double. -/
theorem nearest_sub_of_bounds {x shift : ℚ} {n e : Int} (normal : -1022 ≤ e)
    (multiple : shift = (2 * n : Int) * 2 ^ (e - 52)) (nonneg : 0 ≤ shift) (low : 2 ^ e ≤ x - shift)
    (high : x < 2 ^ (e + 1)) : nearest (x - shift) = nearest x - shift := by
  have here := lastPlace_of_bounds normal (low.trans (sub_le_self x nonneg)) high
  have there := lastPlace_of_bounds normal low ((sub_le_self x nonneg).trans_lt high)
  have places : (x - shift) / 2 ^ (e - 52) = x / 2 ^ (e - 52) - (2 * n : Int) := by
    rw [sub_div, multiple, mul_div_cancel_right₀ _ (place_pos _).ne']
  unfold nearest
  rw [here, there, places, roundHalfEven_sub_even, multiple]
  push_cast
  ring

/-- Up to one, the double is as near as half a unit of the 53rd bit. -/
theorem abs_nearest_sub_le {x : ℚ} (unit : |x| ≤ 1) : |nearest x - x| ≤ 1 / 2 ^ 53 := by
  have place := place_pos (lastPlace x)
  have last : lastPlace x ≤ -52 := by
    have log : Int.log 2 |x| ≤ 0 := by
      by_cases zero : |x| = 0
      · rw [zero, Int.log_zero_right]
      · have mono := Int.log_mono_right (b := 2) (lt_of_le_of_ne (abs_nonneg x) (Ne.symm zero)) unit
        rwa [Int.log_one_right] at mono
    unfold lastPlace
    omega
  have size : (2 : ℚ) ^ lastPlace x ≤ 1 / 2 ^ 52 := by
    have mono := zpow_le_zpow_right₀ (one_le_two (α := ℚ)) last
    rwa [zpow_neg, ← one_div] at mono
  have distance : nearest x - x = (roundHalfEven (x / 2 ^ lastPlace x) - x / 2 ^ lastPlace x) * 2 ^ lastPlace x := by
    rw [sub_mul, div_mul_cancel₀ _ place.ne']
    rfl
  have half := abs_roundHalfEven_sub_le (x / 2 ^ lastPlace x)
  rw [distance, abs_mul, abs_of_pos place]
  calc |(roundHalfEven (x / 2 ^ lastPlace x) : ℚ) - x / 2 ^ lastPlace x| * 2 ^ lastPlace x
      ≤ 1 / 2 * (1 / 2 ^ 52) := mul_le_mul half size place.le (by norm_num)
    _ = 1 / 2 ^ 53 := by norm_num

end Binary64
end Foundation
