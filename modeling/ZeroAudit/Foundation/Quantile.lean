import Mathlib.Algebra.Order.Floor.Semiring
import Mathlib.Data.List.GetD
import Mathlib.Tactic.Linarith
import Mathlib.Tactic.Ring
import ZeroAudit.Foundation.KeySort

namespace Foundation
namespace Quantile

/-!
# Quantiles by linear interpolation

The quantile of a list for a fraction is read off the sorted list at the position that
divides it in this proportion, between two entries by linear interpolation.  It lies
between the entries on both sides of the position, and grows with the fraction.  Of every
value between these entries, those above it and those below it can be counted.
-/

variable {K : Type*} [LinearOrder K]

/-! ## Counting in a sorted list -/

/-- A list from the least to the greatest. -/
def ascending (values : List K) : List K := values.mergeSort fun x y => decide (x ≤ y)

theorem pairwise_ascending (values : List K) : (ascending values).Pairwise (· ≤ ·) :=
  pairwise_mergeSort_key id values

theorem perm_ascending (values : List K) : (ascending values).Perm values := List.mergeSort_perm values _

@[simp] theorem length_ascending (values : List K) : (ascending values).length = values.length :=
  List.length_mergeSort ..

theorem ascending_ne_nil {values : List K} (nonempty : values ≠ []) : ascending values ≠ [] := by
  intro empty
  have length := length_ascending values
  rw [empty] at length
  exact nonempty (List.length_eq_zero_iff.mp length.symm)

section Counting

variable {sorted : List K} {fallback : K}

theorem getD_mono (inOrder : sorted.Pairwise (· ≤ ·)) {i j : Nat} (before : i ≤ j)
    (inside : j < sorted.length) : sorted.getD i fallback ≤ sorted.getD j fallback := by
  rw [List.getD_eq_getElem _ _ (by omega), List.getD_eq_getElem _ _ inside]
  rcases before.lt_or_eq with less | rfl
  · exact List.pairwise_iff_getElem.mp inOrder i j (by omega) inside less
  · exact le_rfl

/-- What is not below an entry has at most the later entries above it. -/
theorem countP_above_le (inOrder : sorted.Pairwise (· ≤ ·)) {i : Nat} (inside : i < sorted.length) {x : K}
    (reached : sorted.getD i fallback ≤ x) :
    sorted.countP (fun y => decide (x < y)) ≤ sorted.length - (i + 1) := by
  have early : (sorted.take (i + 1)).countP (fun y => decide (x < y)) = 0 := by
    rw [List.countP_eq_zero]
    intro y member
    rcases List.mem_take_iff_getElem.mp member with ⟨j, bound, rfl⟩
    have ordered : sorted.getD j fallback ≤ sorted.getD i fallback := getD_mono inOrder (by omega) inside
    rw [List.getD_eq_getElem _ _ (by omega)] at ordered
    simpa using ordered.trans reached
  calc sorted.countP (fun y => decide (x < y))
      = (sorted.take (i + 1)).countP (fun y => decide (x < y)) +
          (sorted.drop (i + 1)).countP (fun y => decide (x < y)) := by
        rw [← List.countP_append, List.take_append_drop]
    _ ≤ (sorted.drop (i + 1)).length := by
        rw [early, Nat.zero_add]
        exact List.countP_le_length
    _ = sorted.length - (i + 1) := List.length_drop ..

/-- What is not above an entry has at most the earlier entries below it. -/
theorem countP_below_le (inOrder : sorted.Pairwise (· ≤ ·)) {i : Nat} {x : K}
    (reached : x ≤ sorted.getD i fallback) : sorted.countP (fun y => decide (y < x)) ≤ i := by
  have late : (sorted.drop i).countP (fun y => decide (y < x)) = 0 := by
    rw [List.countP_eq_zero]
    intro y member
    rcases List.mem_drop_iff_getElem.mp member with ⟨j, bound, rfl⟩
    have ordered : sorted.getD i fallback ≤ sorted.getD (i + j) fallback :=
      getD_mono inOrder (by omega) (by omega)
    rw [List.getD_eq_getElem _ _ (by omega : i + j < sorted.length)] at ordered
    simpa using reached.trans ordered
  calc sorted.countP (fun y => decide (y < x))
      = (sorted.take i).countP (fun y => decide (y < x)) +
          (sorted.drop i).countP (fun y => decide (y < x)) := by
        rw [← List.countP_append, List.take_append_drop]
    _ ≤ (sorted.take i).length := by
        rw [late, Nat.add_zero]
        exact List.countP_le_length
    _ ≤ i := List.length_take_le ..

end Counting

/-! ## Interpolation -/

variable [Field K]

/-- The position of a fraction in a list. -/
def positionOf (values : List K) (fraction : K) : K := fraction * ((values.length - 1 : Nat) : K)

/-- The position of a fraction lies within the list. -/
theorem positionOf_range [IsStrictOrderedRing K] (values : List K) {fraction : K} (start : 0 ≤ fraction)
    (atMost : fraction ≤ 1) :
    0 ≤ positionOf values fraction ∧
      positionOf values fraction ≤ (((ascending values).length - 1 : Nat) : K) := by
  rw [length_ascending]
  exact ⟨mul_nonneg start (Nat.cast_nonneg _), mul_le_of_le_one_left (Nat.cast_nonneg _) atMost⟩

variable [FloorSemiring K]

/-- The value of a list at a position between its entries. -/
def interpolate (sorted : List K) (position : K) : K :=
  let low := ⌊position⌋₊
  let first := sorted.getD low 0
  let second := sorted.getD (min (low + 1) (sorted.length - 1)) 0
  first + (second - first) * (position - low)

/-- The quantile of a list for a fraction between zero and one. -/
def quantile (values : List K) (fraction : K) : K :=
  interpolate (ascending values) (positionOf values fraction)

section Bracket

variable {sorted : List K} {position : K}

theorem ceil_lt_length (nonempty : sorted ≠ []) (atMost : position ≤ ((sorted.length - 1 : Nat) : K)) :
    ⌈position⌉₊ < sorted.length := by
  have positive := List.length_pos_of_ne_nil nonempty
  have ceiling : ⌈position⌉₊ ≤ sorted.length - 1 := Nat.ceil_le.mpr atMost
  omega

variable [IsStrictOrderedRing K]

theorem floor_lt_length (nonempty : sorted ≠ []) (atMost : position ≤ ((sorted.length - 1 : Nat) : K)) :
    ⌊position⌋₊ < sorted.length := by
  have positive := List.length_pos_of_ne_nil nonempty
  have floor : ⌊position⌋₊ ≤ sorted.length - 1 := Nat.floor_le_of_le atMost
  omega

/-- The interpolated value lies between the entries on both sides of the position. -/
theorem interpolate_bracket (inOrder : sorted.Pairwise (· ≤ ·)) (nonempty : sorted ≠ [])
    (start : 0 ≤ position) (atMost : position ≤ ((sorted.length - 1 : Nat) : K)) :
    sorted.getD ⌊position⌋₊ 0 ≤ interpolate sorted position ∧
      interpolate sorted position ≤ sorted.getD ⌈position⌉₊ 0 := by
  have inside := floor_lt_length nonempty atMost
  have ceiling := ceil_lt_length nonempty atMost
  have below := Nat.floor_le start
  have above := Nat.lt_floor_add_one position
  have grows : sorted.getD ⌊position⌋₊ 0 ≤ sorted.getD (min (⌊position⌋₊ + 1) (sorted.length - 1)) 0 :=
    getD_mono inOrder (by omega) (by omega)
  have gain := mul_nonneg (sub_nonneg.mpr grows) (show 0 ≤ position - ⌊position⌋₊ by linarith)
  refine ⟨le_add_of_nonneg_right gain, ?_⟩
  change sorted.getD ⌊position⌋₊ 0 + (sorted.getD (min (⌊position⌋₊ + 1) (sorted.length - 1)) 0 -
    sorted.getD ⌊position⌋₊ 0) * (position - ⌊position⌋₊) ≤ sorted.getD ⌈position⌉₊ 0
  rcases below.eq_or_lt with entry | strict
  · -- at an entry nothing is added
    have same : ⌈position⌉₊ = ⌊position⌋₊ := by
      rw [← entry, Nat.ceil_natCast, Nat.floor_natCast]
    rw [same, ← entry, Nat.floor_natCast, sub_self, mul_zero, add_zero]
  · have next : ⌈position⌉₊ = ⌊position⌋₊ + 1 := by
      rw [Nat.ceil_eq_iff (Nat.succ_ne_zero _)]
      push_cast
      exact ⟨by simpa using strict, above.le⟩
    have clamped : min (⌊position⌋₊ + 1) (sorted.length - 1) = ⌈position⌉₊ := by omega
    rw [clamped] at grows ⊢
    have part := mul_le_of_le_one_right (sub_nonneg.mpr grows)
      (show position - ⌊position⌋₊ ≤ 1 by linarith)
    linarith

/-- The interpolated value grows with the position. -/
theorem interpolate_mono (inOrder : sorted.Pairwise (· ≤ ·)) (nonempty : sorted ≠ []) {later : K}
    (start : 0 ≤ position) (before : position ≤ later) (atMost : later ≤ ((sorted.length - 1 : Nat) : K)) :
    interpolate sorted position ≤ interpolate sorted later := by
  have floors := Nat.floor_mono before
  have inside := floor_lt_length nonempty atMost
  rcases floors.lt_or_eq with less | same
  · -- an entry lies between the two positions
    have first := (interpolate_bracket inOrder nonempty start (before.trans atMost)).2
    have second := (interpolate_bracket inOrder nonempty (start.trans before) atMost).1
    have entry : ⌈position⌉₊ ≤ ⌊later⌋₊ := (Nat.ceil_le_floor_add_one position).trans less
    exact first.trans ((getD_mono inOrder entry inside).trans second)
  · have grows : sorted.getD ⌊later⌋₊ 0 ≤ sorted.getD (min (⌊later⌋₊ + 1) (sorted.length - 1)) 0 :=
      getD_mono inOrder (by omega) (by omega)
    unfold interpolate
    rw [same]
    have gain := mul_le_mul_of_nonneg_left (sub_le_sub_right before (⌊later⌋₊ : K)) (sub_nonneg.mpr grows)
    exact add_le_add_right gain _

end Bracket

/-! ## Quantiles -/

/-- The value lies between the entries on both sides of the position of the fraction. -/
structure Brackets (values : List K) (fraction x : K) : Prop where
  lower : (ascending values).getD ⌊positionOf values fraction⌋₊ 0 ≤ x
  upper : x ≤ (ascending values).getD ⌈positionOf values fraction⌉₊ 0

section Quantiles

variable {values : List K} {fraction x : K}

/-- At most the values before the position lie below. -/
theorem Brackets.countP_below (brackets : Brackets values fraction x) :
    values.countP (fun y => decide (y < x)) ≤ ⌈positionOf values fraction⌉₊ := by
  have counted := countP_below_le (pairwise_ascending values) brackets.upper
  rw [(perm_ascending values).countP_eq] at counted
  exact counted

variable [IsStrictOrderedRing K]

/-- At most the values behind the position lie above. -/
theorem Brackets.countP_above (brackets : Brackets values fraction x) (nonempty : values ≠ []) (start : 0 ≤ fraction)
    (atMost : fraction ≤ 1) :
    values.countP (fun y => decide (x < y)) ≤ values.length - (⌊positionOf values fraction⌋₊ + 1) := by
  have inside := floor_lt_length (ascending_ne_nil nonempty) (positionOf_range values start atMost).2
  have counted := countP_above_le (pairwise_ascending values) inside brackets.lower
  rw [(perm_ascending values).countP_eq, length_ascending] at counted
  exact counted

theorem quantile_brackets (nonempty : values ≠ []) (start : 0 ≤ fraction) (atMost : fraction ≤ 1) :
    Brackets values fraction (quantile values fraction) := by
  rcases positionOf_range values start atMost with ⟨first, last⟩
  rcases interpolate_bracket (pairwise_ascending values) (ascending_ne_nil nonempty) first last with ⟨lower, upper⟩
  exact ⟨lower, upper⟩

/-- A quantile grows with its fraction. -/
theorem quantile_mono (nonempty : values ≠ []) {greater : K} (start : 0 ≤ fraction) (before : fraction ≤ greater)
    (atMost : greater ≤ 1) : quantile values fraction ≤ quantile values greater := by
  apply interpolate_mono (pairwise_ascending values) (ascending_ne_nil nonempty)
    (positionOf_range values start (before.trans atMost)).1
  · exact mul_le_mul_of_nonneg_right before (Nat.cast_nonneg _)
  · exact (positionOf_range values (start.trans before) atMost).2

end Quantiles

end Quantile
end Foundation
