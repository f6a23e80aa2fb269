import Mathlib.Data.List.Range

namespace Foundation
namespace Slices

/-!
# Cutting a list into batches

Loops that send a list in batches take the slices that start at every multiple of the batch
size.  None of them is empty, and together they are the list.
-/

variable {α : Type*}

/-- The slices of a list that start at every multiple of the batch size. -/
def batches (batchSize : Nat) (rows : List α) : List (List α) :=
  (List.range ((rows.length + (batchSize - 1)) / batchSize)).map fun i => (rows.drop (batchSize * i)).take batchSize

theorem length_batches (batchSize : Nat) (rows : List α) :
    (batches batchSize rows).length = (rows.length + (batchSize - 1)) / batchSize := by
  simp [batches]

theorem batches_of_ne_nil {batchSize : Nat} (positive : 0 < batchSize) {rows : List α} (nonempty : rows ≠ []) :
    batches batchSize rows = rows.take batchSize :: batches batchSize (rows.drop batchSize) := by
  have length := List.length_pos_of_ne_nil nonempty
  have count : (rows.length + (batchSize - 1)) / batchSize =
      ((rows.drop batchSize).length + (batchSize - 1)) / batchSize + 1 := by
    rw [List.length_drop, ← Nat.add_div_right _ positive]
    by_cases long : batchSize ≤ rows.length
    · congr 1
      omega
    · have single : ∀ total, batchSize ≤ total -> total < 2 * batchSize -> total / batchSize = 1 := by
        intro total least most
        exact Nat.div_eq_of_lt_le (by omega) (by omega)
      rw [single _ (by omega) (by omega), single _ (by omega) (by omega)]
  unfold batches
  rw [count, List.range_succ_eq_map, List.map_cons, List.map_map]
  simp [Function.comp_def, Nat.mul_succ, Nat.add_comm]

/-- No batch is empty. -/
theorem nil_not_mem_batches {batchSize : Nat} (positive : 0 < batchSize) (rows : List α) :
    [] ∉ batches batchSize rows := by
  intro member
  rcases List.mem_map.mp member with ⟨i, listed, empty⟩
  have within := (Nat.le_div_iff_mul_le positive).mp (List.mem_range.mp listed)
  rw [Nat.succ_mul, Nat.mul_comm i] at within
  rcases List.take_eq_nil_iff.mp empty with none | past
  · omega
  · rw [List.drop_eq_nil_iff] at past
    omega

/-- The batches are the list, in order. -/
theorem flatten_batches {batchSize : Nat} (positive : 0 < batchSize) (rows : List α) :
    (batches batchSize rows).flatten = rows := by
  induction bound : rows.length using Nat.strongRecOn generalizing rows with
  | ind length inductionHypothesis =>
      by_cases nonempty : rows = []
      · rw [nonempty]
        have none : (batchSize - 1) / batchSize = 0 := Nat.div_eq_of_lt (by omega)
        simp [batches, none]
      · have shorter : (rows.drop batchSize).length < length := by
          have filled := List.length_pos_of_ne_nil nonempty
          rw [List.length_drop]
          omega
        rw [batches_of_ne_nil positive nonempty, List.flatten_cons, inductionHypothesis _ shorter _ rfl,
          List.take_append_drop]

end Slices
end Foundation
