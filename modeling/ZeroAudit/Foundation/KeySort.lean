import Mathlib.Data.List.Sort

namespace Foundation

/-!
# Sorting by an integer key

A merge sort whose comparison reads nothing but an integer key of its entries
puts a list into the one order in which the keys strictly increase, if there
is such an order of it.  The comparison may do anything on other entries.  In
a sorted list, the entries of a range of keys stand next to each other.
-/

/-- Sorting by a key puts the keys in order. -/
theorem pairwise_mergeSort_key {α β : Type*} [LinearOrder β] (key : α -> β) (entries : List α) :
    (entries.mergeSort fun a b => decide (key a ≤ key b)).Pairwise fun a b => key a ≤ key b := by
  have sorted : (entries.mergeSort fun a b => decide (key a ≤ key b)).Pairwise
      fun a b => decide (key a ≤ key b) = true := by
    apply List.pairwise_mergeSort
    · intro a b c first second
      rw [decide_eq_true_iff] at first second ⊢
      exact first.trans second
    · intro a b
      rw [Bool.or_eq_true, decide_eq_true_iff, decide_eq_true_iff]
      exact le_total (key a) (key b)
  apply sorted.imp
  intro a b ordered
  exact of_decide_eq_true ordered

/-- So does a sort whose comparison reads the key of the entries it is given. -/
theorem pairwise_mergeSort_of_reads {α β : Type*} [LinearOrder β] (key : α -> β) {le : α -> α -> Bool}
    {entries : List α} (reads : ∀ a ∈ entries, ∀ b ∈ entries, le a b = decide (key a ≤ key b)) :
    (entries.mergeSort le).Pairwise fun a b => key a ≤ key b := by
  have mapped := List.map_mergeSort (s := fun a b => decide (key a ≤ key b)) (f := fun a => a) reads
  rw [List.map_id', List.map_id'] at mapped
  rw [mapped]
  exact pairwise_mergeSort_key key entries

section KeySort

variable {α : Type*} (key : α -> Int) {sorted : List α}

/-- Where keys strictly increase, an entry is determined by its key. -/
theorem eq_of_key_eq (ordered : sorted.Pairwise fun a b => key a < key b) {a b : α} (left : a ∈ sorted)
    (right : b ∈ sorted) (equal : key a = key b) : a = b := by
  have distinct : (sorted.map key).Nodup :=
    List.pairwise_map.mpr (ordered.imp fun less => Int.ne_of_lt less)
  exact List.inj_on_of_nodup_map distinct left right equal

/-- Sorting finds the strictly increasing order of a list. -/
theorem mergeSort_of_key {le : α -> α -> Bool} {entries : List α} (perm : entries.Perm sorted)
    (ordered : sorted.Pairwise fun a b => key a < key b)
    (reads : ∀ a ∈ entries, ∀ b ∈ entries, le a b = decide (key a ≤ key b)) :
    entries.mergeSort le = sorted := by
  have same : entries.mergeSort le = entries.mergeSort fun a b => decide (key a ≤ key b) := by
    have mapped := List.map_mergeSort
      (s := fun a b => decide (key a ≤ key b)) (f := fun a => a) reads
    simpa only [List.map_id'] using mapped
  rw [same]
  refine List.Perm.eq_of_pairwise ?_ (pairwise_mergeSort_key key entries) ?_
    ((List.mergeSort_perm entries _).trans perm)
  · intro a b left right first second
    have member := perm.mem_iff.mp ((List.mergeSort_perm entries _).mem_iff.mp left)
    exact eq_of_key_eq key ordered member right (Int.le_antisymm first second)
  · apply ordered.imp
    intro a b less
    exact Int.le_of_lt less

/-! ## Ranges of the key -/

/-- A sorted list falls into its entries below a bound and the others. -/
theorem filter_lt_append (ordered : sorted.Pairwise fun a b => key a ≤ key b) (bound : Int) :
    sorted.filter (fun a => decide (key a < bound)) ++ sorted.filter (fun a => decide (bound ≤ key a)) =
      sorted := by
  induction sorted with
  | nil => rfl
  | cons a rest inductionHypothesis =>
      rcases List.pairwise_cons.mp ordered with ⟨first, later⟩
      by_cases low : key a < bound
      · have high : ¬ bound ≤ key a := Int.not_le.mpr low
        rw [List.filter_cons, List.filter_cons, decide_eq_true low, decide_eq_false high, if_pos rfl,
          if_neg Bool.false_ne_true, List.cons_append, inductionHypothesis later]
      · have none : rest.filter (fun a => decide (key a < bound)) = [] := by
          rw [List.filter_eq_nil_iff]
          intro b member
          have bound := first b member
          rw [decide_eq_true_eq]
          omega
        have all : rest.filter (fun a => decide (bound ≤ key a)) = rest := by
          rw [List.filter_eq_self]
          intro b member
          have bound := first b member
          rw [decide_eq_true_eq]
          omega
        rw [List.filter_cons, List.filter_cons, decide_eq_false low, decide_eq_true (Int.not_lt.mp low),
          if_neg Bool.false_ne_true, if_pos rfl, none, all, List.nil_append]

/-- The entries with two adjacent keys stand next to each other. -/
theorem adjacent_keys (ordered : sorted.Pairwise fun a b => key a ≤ key b) (value : Int) :
    ∃ before after, sorted = before ++ (sorted.filter (fun a => decide (key a = value - 1)) ++
      sorted.filter (fun a => decide (key a = value))) ++ after := by
  have high := ordered.filter fun a => decide (value - 1 ≤ key a)
  have higher := high.filter fun a => decide (value ≤ key a)
  have first := filter_lt_append key ordered (value - 1)
  have second := filter_lt_append key high value
  have third := filter_lt_append key higher (value + 1)
  have lower : (sorted.filter fun a => decide (value - 1 ≤ key a)).filter (fun a => decide (key a < value)) =
      sorted.filter fun a => decide (key a = value - 1) := by
    rw [List.filter_filter]
    apply List.filter_congr
    intro a _
    rw [← Bool.decide_and, decide_eq_decide]
    omega
  have upper : ((sorted.filter fun a => decide (value - 1 ≤ key a)).filter
      fun a => decide (value ≤ key a)).filter (fun a => decide (key a < value + 1)) =
        sorted.filter fun a => decide (key a = value) := by
    rw [List.filter_filter, List.filter_filter]
    apply List.filter_congr
    intro a _
    rw [← Bool.decide_and, ← Bool.decide_and, decide_eq_decide]
    omega
  rw [← third, lower, upper] at second
  rw [← second] at first
  have regroup : ∀ a b c d : List α, a ++ (b ++ (c ++ d)) = a ++ (b ++ c) ++ d := by
    intro a b c d
    rw [List.append_assoc, List.append_assoc]
  exact ⟨_, _, first.symm.trans (regroup ..)⟩

end KeySort
end Foundation
