import Mathlib.Data.List.ProdSigma
import Mathlib.Data.Rat.Defs
import Mathlib.Algebra.BigOperators.Group.List.Basic
import Mathlib.Order.Defs.LinearOrder
import Mathlib.Tactic.Ring
import Mathlib.Tactic.Linarith

namespace Foundation
namespace MidRank

/-!
# Ranks with ties at their mean

The mid-rank of an item in a list is the mean of the places, counted from one, that the
items equal to it take when the list is sorted.  The mid-ranks of the items of one list
among those of two are, summed up, what they are in their own list and the number of
pairs in which they are ahead of the other list's, with half of one for each tie.
-/

/-! ## Counting -/

section Counting

variable {α β : Type*}

/-- What holds of the first items of a list and of no others is counted by their number. -/
theorem countP_of_prefix {items : List α} {counted : α -> Bool} {count : Nat} (fits : count ≤ items.length)
    (first : ∀ place, (inside : place < items.length) -> (counted items[place] = true ↔ place < count)) :
    items.countP counted = count := by
  induction items generalizing count with
  | nil => exact (Nat.le_zero.mp fits).symm
  | cons item rest inductionHypothesis =>
      have head := first 0 (Nat.zero_lt_succ _)
      cases count with
      | zero =>
          rw [List.countP_eq_zero]
          intro other member
          rcases List.getElem_of_mem member with ⟨place, inside, rfl⟩
          exact fun holds => Nat.not_lt_zero place ((first place inside).mp holds)
      | succ count =>
          have holds : counted item = true := head.mpr (Nat.zero_lt_succ count)
          rw [List.countP_cons_of_pos holds]
          congr 1
          apply inductionHypothesis (Nat.le_of_succ_le_succ fits)
          intro place inside
          have next := first (place + 1) (Nat.succ_lt_succ inside)
          rw [List.getElem_cons_succ, Nat.succ_lt_succ_iff] at next
          exact next

variable (counted : α × β -> Bool)

/-- Pairs are counted by their first item. -/
theorem countP_product_left (first : List α) (second : List β) :
    (first ×ˢ second).countP counted =
      (first.map fun own => second.countP fun other => counted (own, other)).sum := by
  induction first with
  | nil => rfl
  | cons own rest inductionHypothesis =>
      rw [List.product_cons, List.countP_append, List.countP_map, inductionHypothesis, List.map_cons,
        List.sum_cons]
      rfl

/-- They are counted by their second item as well. -/
theorem countP_product_right (first : List α) (second : List β) :
    (first ×ˢ second).countP counted =
      (second.map fun other => first.countP fun own => counted (own, other)).sum := by
  rw [countP_product_left]
  induction second with
  | nil => simp
  | cons other rest inductionHypothesis =>
      rw [List.map_cons, List.sum_cons, ← inductionHypothesis]
      clear inductionHypothesis
      induction first with
      | nil => rfl
      | cons own first inductionHypothesis =>
          simp only [List.map_cons, List.sum_cons, List.countP_cons] at inductionHypothesis ⊢
          omega

end Counting

/-! ## Mid-ranks -/

variable {α : Type*} [LinearOrder α]

/-- The number of smaller items, and half of one more than the number of equal items. -/
def midRank (items : List α) (item : α) : ℚ :=
  items.countP (fun other => decide (other < item)) +
    (items.countP (fun other => decide (other = item)) + 1) / 2

/-- The pairs in which the second is greater. -/
def ahead (first second : List α) : Nat :=
  (first ×ˢ second).countP fun pair => decide (pair.1 < pair.2)

/-- The pairs in which both are equal. -/
def tied (first second : List α) : Nat :=
  (first ×ˢ second).countP fun pair => decide (pair.1 = pair.2)

theorem midRank_perm {items others : List α} (perm : items.Perm others) (item : α) :
    midRank items item = midRank others item := by
  unfold midRank
  rw [perm.countP_eq, perm.countP_eq]

/-! ## The sum of the mid-ranks -/

theorem ahead_eq_sum (first second : List α) :
    ahead first second =
      (second.map fun item => first.countP fun other => decide (other < item)).sum :=
  countP_product_right _ first second

theorem tied_eq_sum (first second : List α) :
    tied first second =
      (second.map fun item => first.countP fun other => decide (other = item)).sum :=
  countP_product_right _ first second

/-- Two items are ahead of one another in one direction or equal. -/
theorem length_eq_countP (items : List α) (item : α) :
    items.countP (fun other => decide (other < item)) + items.countP (fun other => decide (item < other)) +
      items.countP (fun other => decide (other = item)) = items.length := by
  induction items with
  | nil => rfl
  | cons own rest inductionHypothesis =>
      simp only [List.countP_cons, decide_eq_true_eq, List.length_cons]
      rcases lt_trichotomy own item with less | same | greater
      · simp only [less, if_true, not_lt.mpr less.le, less.ne, if_false]
        omega
      · simp only [same, lt_irrefl, if_false, if_true]
        omega
      · simp only [greater, if_true, not_lt.mpr greater.le, greater.ne', if_false]
        omega

/-- Of the pairs of a list with itself, those in which either item is ahead are as many. -/
theorem ahead_self (items : List α) :
    2 * ahead items items + tied items items = items.length * items.length := by
  have swapped : ahead items items =
      (items.map fun item => items.countP fun other => decide (item < other)).sum :=
    countP_product_left _ items items
  calc 2 * ahead items items + tied items items
      = ahead items items + ahead items items + tied items items := by rw [Nat.two_mul]
    _ = (items.map fun item => items.countP (fun other => decide (other < item)) +
          items.countP (fun other => decide (item < other)) +
          items.countP (fun other => decide (other = item))).sum := by
        rw [List.sum_map_add, List.sum_map_add, ← swapped, ← ahead_eq_sum, ← tied_eq_sum]
    _ = (items.map fun _ => items.length).sum := by simp only [length_eq_countP]
    _ = items.length * items.length := by
        rw [List.map_const', List.sum_replicate, Nat.nsmul_eq_mul]

theorem ahead_append (first second others : List α) :
    ahead (first ++ second) others = ahead first others + ahead second others := by
  simp only [ahead_eq_sum, List.countP_append, List.sum_map_add]

theorem tied_append (first second others : List α) :
    tied (first ++ second) others = tied first others + tied second others := by
  simp only [tied_eq_sum, List.countP_append, List.sum_map_add]

/-- Mid-ranks are summed up as pairs are counted. -/
theorem sum_midRank_eq (items others : List α) :
    (others.map (midRank items)).sum = ahead items others + (tied items others + others.length) / 2 := by
  rw [ahead_eq_sum, tied_eq_sum]
  induction others with
  | nil => simp
  | cons item rest inductionHypothesis =>
      rw [List.map_cons, List.sum_cons, inductionHypothesis]
      simp only [List.map_cons, List.sum_cons, List.length_cons]
      unfold midRank
      push_cast
      ring

/-- The mid-ranks of the second list among both, summed up. -/
theorem sum_midRank (first second : List α) :
    (second.map (midRank (first ++ second))).sum =
      second.length * (second.length + 1) / 2 + ahead first second + tied first second / 2 := by
  have own : (2 * ahead second second + tied second second : ℚ) = second.length * second.length := by
    exact_mod_cast ahead_self second
  rw [sum_midRank_eq, ahead_append, tied_append]
  push_cast
  linarith

/-! ## Places in a sorted list -/

theorem countP_le (items : List α) (item : α) :
    items.countP (fun other => decide (other ≤ item)) =
      items.countP (fun other => decide (other < item)) + items.countP (fun other => decide (other = item)) := by
  induction items with
  | nil => rfl
  | cons own rest inductionHypothesis =>
      simp only [List.countP_cons, decide_eq_true_eq, inductionHypothesis]
      rcases lt_trichotomy own item with less | same | greater
      · simp only [less, less.le, less.ne, if_true, if_false]
        omega
      · simp only [same, lt_irrefl, le_refl, if_false, if_true]
        omega
      · simp only [not_lt.mpr greater.le, not_le.mpr greater, greater.ne', if_false]
        omega

/-- The item of a run of equal ones has the mean of its places, counted from one. -/
theorem midRank_of_run {items : List α} {item : α} {first last : Nat} (fits : last < items.length)
    (before : ∀ place, (inside : place < items.length) -> (items[place] < item ↔ place < first))
    (upTo : ∀ place, (inside : place < items.length) -> (items[place] ≤ item ↔ place < last + 1))
    (ordered : first ≤ last) : midRank items item = (first + last + 2) / 2 := by
  have smaller : items.countP (fun other => decide (other < item)) = first :=
    countP_of_prefix (by omega) fun place inside => by rw [decide_eq_true_eq, before place inside]
  have atMost : items.countP (fun other => decide (other ≤ item)) = last + 1 :=
    countP_of_prefix (by omega) fun place inside => by rw [decide_eq_true_eq, upTo place inside]
  rw [countP_le, smaller] at atMost
  have equal : (items.countP (fun other => decide (other = item)) : ℚ) = last + 1 - first := by
    rw [eq_sub_iff_add_eq]
    exact_mod_cast (Nat.add_comm _ _).trans atMost
  unfold midRank
  rw [smaller, equal]
  ring

end MidRank
end Foundation
