import ZeroAudit.Foundation.MidRank
import ZeroAudit.Foundation.PyValue

namespace ZeroAudit
namespace Training

open Foundation Foundation.MidRank

/-!
# The area under the ROC curve

Training and evaluation compute the area from ranks: the scores of both classes are
sorted, places are written back, and the places of equal scores are replaced by their
mean, one group after the other.  The sort may order equal scores as it likes.  What
comes out are the mid-ranks, and their sum counts the pairs in which the anomalous
score is greater, with half of one for each tie.
-/

variable {α : Type*}

/-! ## Reading and writing at a list of places -/

/-- `y[order]`. -/
def gather (y : List α) (order : List Nat) : List α := order.filterMap fun place => y[place]?

/-- Places that are all inside are gathered one by one. -/
theorem getElem?_gather {y : List α} {order : List Nat} (inside : ∀ place ∈ order, place < y.length)
    {index : Nat} (within : index < order.length) : (gather y order)[index]? = y[order[index]]? := by
  unfold gather
  induction order generalizing index with
  | nil => exact absurd within (Nat.not_lt_zero _)
  | cons own rest inductionHypothesis =>
      have first := inside own List.mem_cons_self
      rw [List.filterMap_cons, List.getElem?_eq_getElem first]
      cases index with
      | zero =>
          rw [List.getElem?_cons_zero, List.getElem_cons_zero, List.getElem?_eq_getElem first]
      | succ index =>
          rw [List.getElem?_cons_succ, List.getElem_cons_succ]
          exact inductionHypothesis (fun place member => inside place (List.mem_cons_of_mem own member)) _

theorem gather_range (y : List α) : gather y (List.range y.length) = y := by
  unfold gather
  induction y with
  | nil => rfl
  | cons own rest inductionHypothesis =>
      rw [List.length_cons, List.range_succ_eq_map, List.filterMap_cons_some List.getElem?_cons_zero,
        List.filterMap_map]
      exact congrArg (own :: ·) inductionHypothesis

/-- `ranks[places] = values`. -/
def scatter (ranks : List ℚ) : List Nat -> List ℚ -> List ℚ
  | [], _ => ranks
  | _ :: _, [] => ranks
  | place :: places, value :: values => scatter (ranks.set place value) places values

/-- `ranks[places] = value`. -/
def fill (ranks : List ℚ) (places : List Nat) (value : ℚ) : List ℚ :=
  places.foldl (fun ranks place => ranks.set place value) ranks

theorem length_fill (ranks : List ℚ) (places : List Nat) (value : ℚ) :
    (fill ranks places value).length = ranks.length := by
  unfold fill
  induction places generalizing ranks with
  | nil => rfl
  | cons place rest inductionHypothesis =>
      rw [List.foldl_cons, inductionHypothesis, List.length_set]

theorem getElem?_fill (ranks : List ℚ) (places : List Nat) (value : ℚ) {place : Nat}
    (inside : place < ranks.length) :
    (fill ranks places value)[place]? = if place ∈ places then some value else ranks[place]? := by
  unfold fill
  induction places generalizing ranks with
  | nil => rfl
  | cons own rest inductionHypothesis =>
      rw [List.foldl_cons, inductionHypothesis _ (by rw [List.length_set]; exact inside)]
      by_cases later : place ∈ rest
      · rw [if_pos later, if_pos (List.mem_cons_of_mem own later)]
      · rw [if_neg later, List.getElem?_set]
        by_cases here : own = place
        · simp [here, inside]
        · simp [here, Ne.symm here, later]

theorem length_scatter (ranks : List ℚ) (places : List Nat) (values : List ℚ) :
    (scatter ranks places values).length = ranks.length := by
  induction places generalizing ranks values with
  | nil => rw [scatter]
  | cons place places inductionHypothesis =>
      cases values with
      | nil => rw [scatter]
      | cons value values => rw [scatter, inductionHypothesis, List.length_set]

theorem getElem?_scatter_of_not_mem (ranks : List ℚ) {places : List Nat} (values : List ℚ) {place : Nat}
    (other : place ∉ places) : (scatter ranks places values)[place]? = ranks[place]? := by
  induction places generalizing ranks values with
  | nil => rw [scatter]
  | cons own places inductionHypothesis =>
      rw [List.mem_cons, not_or] at other
      cases values with
      | nil => rw [scatter]
      | cons value values =>
          rw [scatter, inductionHypothesis _ _ other.2, List.getElem?_set_ne (Ne.symm other.1)]

/-- Different places take the values in their order. -/
theorem getElem?_scatter {ranks : List ℚ} {places : List Nat} {values : List ℚ} (distinct : places.Nodup)
    (inside : ∀ place ∈ places, place < ranks.length) (lengths : places.length = values.length)
    {index : Nat} (within : index < places.length) :
    (scatter ranks places values)[places[index]]? = values[index]? := by
  induction places generalizing ranks values index with
  | nil => exact absurd within (Nat.not_lt_zero _)
  | cons own places inductionHypothesis =>
      cases values with
      | nil => cases lengths
      | cons value values =>
          rw [List.nodup_cons] at distinct
          rw [scatter]
          cases index with
          | zero =>
              rw [List.getElem_cons_zero, getElem?_scatter_of_not_mem _ _ distinct.1,
                List.getElem?_set_self (inside own List.mem_cons_self), List.getElem?_cons_zero]
          | succ index =>
              rw [List.getElem_cons_succ, List.getElem?_cons_succ]
              apply inductionHypothesis distinct.2
              · intro place member
                rw [List.length_set]
                exact inside place (List.mem_cons_of_mem own member)
              · exact Nat.succ.inj lengths

/-! ## The computation -/

variable [LinearOrder α]

/-- The inner loop: the last place of the group of equal scores that starts at `i`. -/
def lastTie (sortedY : List α) (i j : Nat) : Nat :=
  if j + 1 < sortedY.length ∧ sortedY[j + 1]? = sortedY[i]? then lastTie sortedY i (j + 1) else j
termination_by sortedY.length - j

theorem le_lastTie (sortedY : List α) (i j : Nat) : j ≤ lastTie sortedY i j := by
  fun_induction lastTie sortedY i j with
  | case1 j more inductionHypothesis => exact (Nat.le_succ j).trans inductionHypothesis
  | case2 j done => exact Nat.le_refl j

/-- The outer loop: each group takes the mean of its places. -/
def averageTies (order : List Nat) (sortedY : List α) (ranks : List ℚ) (i : Nat) : List ℚ :=
  if i < sortedY.length then
    let j := lastTie sortedY i i
    let ranks :=
      if i < j then fill ranks ((order.drop i).take (j + 1 - i)) ((i + j + 2) / 2) else ranks
    averageTies order sortedY ranks (j + 1)
  else ranks
termination_by sortedY.length - i
decreasing_by
  have := le_lastTie sortedY i i
  omega

/-- `np.arange(1, count + 1)`. -/
def arange (count : Nat) : List ℚ := (List.range count).map fun (place : Nat) => (place : ℚ) + 1

/-- The ranks of the scores.  What `np.empty` holds is overwritten at every place. -/
def averagedRanks (argsort : List α -> List Nat) (y : List α) : List ℚ :=
  let order := argsort y
  let ranks := scatter (List.replicate y.length 0) order (arange y.length)
  averageTies order (gather y order) ranks 0

/-- The rank sum of the second class over the smallest it can be. -/
def rankStatistic (argsort : List α -> List Nat) (neg pos : List α) : ℚ :=
  ((averagedRanks argsort (neg ++ pos)).drop neg.length).sum - pos.length * (pos.length + 1) / 2

/-- Division of floats, which raises nothing. -/
def divide (numerator denominator : ℚ) : PyFloat :=
  if denominator = 0 then
    if numerator = 0 then .nan else if 0 < numerator then .posInf else .negInf
  else .finite (numerator / denominator)

namespace Evaluate

/-- `roc_auc` of the evaluation. -/
def rocAuc (argsort : List α -> List Nat) (neg pos : List α) : PyFloat :=
  if neg.length = 0 ∨ pos.length = 0 then .nan
  else divide (rankStatistic argsort neg pos) (pos.length * neg.length)

end Evaluate

namespace TrainAutoencoder

/-- `roc_auc` of the training, which has no check for empty classes. -/
def rocAuc (argsort : List α -> List Nat) (normalScores anomalyScores : List α) : PyFloat :=
  divide (rankStatistic argsort normalScores anomalyScores) (anomalyScores.length * normalScores.length)

end TrainAutoencoder

/-- A permutation of the places that brings the values into order. -/
structure IsArgsort (y : List α) (order : List Nat) : Prop where
  perm : order.Perm (List.range y.length)
  sorted : (gather y order).Pairwise (· ≤ ·)

/-! ## The order -/

namespace IsArgsort

variable {y : List α} {order : List Nat}

theorem length (sorts : IsArgsort y order) : order.length = y.length := by
  rw [sorts.perm.length_eq, List.length_range]

theorem nodup (sorts : IsArgsort y order) : order.Nodup :=
  sorts.perm.nodup_iff.mpr List.nodup_range

theorem inside (sorts : IsArgsort y order) {place : Nat} (member : place ∈ order) : place < y.length :=
  List.mem_range.mp (sorts.perm.mem_iff.mp member)

end IsArgsort

/-- What is gathered is a permutation of the values. -/
theorem gather_perm {y : List α} {order : List Nat} (sorts : IsArgsort y order) :
    (gather y order).Perm y := by
  have gathered : (gather y order).Perm (gather y (List.range y.length)) := sorts.perm.filterMap _
  rw [gather_range] at gathered
  exact gathered

/-! ## One group of ties -/

/-- The group ends at a place inside, all of its values are equal to the one it was
started for, and the next value is not. -/
theorem lastTie_spec {sortedY : List α} {i j : Nat} (inside : j < sortedY.length)
    (equal : ∀ k, i ≤ k -> k ≤ j -> sortedY[k]? = sortedY[i]?) :
    lastTie sortedY i j < sortedY.length ∧
      (∀ k, i ≤ k -> k ≤ lastTie sortedY i j -> sortedY[k]? = sortedY[i]?) ∧
      (lastTie sortedY i j + 1 < sortedY.length ->
        sortedY[lastTie sortedY i j + 1]? ≠ sortedY[i]?) := by
  fun_induction lastTie sortedY i j with
  | case1 j more inductionHypothesis =>
      apply inductionHypothesis more.1
      intro k after before
      rcases Nat.lt_or_eq_of_le before with less | same
      · exact equal k after (Nat.le_of_lt_succ less)
      · rw [same]
        exact more.2
  | case2 j done =>
      refine ⟨inside, equal, ?_⟩
      intro next same
      exact done ⟨next, same⟩

/-- Whatever stands before the place is smaller than what stands from there on. -/
def Boundary (sortedY : List α) (i : Nat) : Prop :=
  ∀ m k low high, m < i -> i ≤ k -> sortedY[m]? = some low -> sortedY[k]? = some high -> low < high

/-- Values in order do not decrease from one place to a later one. -/
theorem le_of_sorted {sortedY : List α} (sorted : sortedY.Pairwise (· ≤ ·)) {m k : Nat} {low high : α}
    (ordered : m ≤ k) (atLow : sortedY[m]? = some low) (atHigh : sortedY[k]? = some high) : low ≤ high := by
  rcases List.getElem?_eq_some_iff.mp atLow with ⟨lowInside, rfl⟩
  rcases List.getElem?_eq_some_iff.mp atHigh with ⟨highInside, rfl⟩
  rcases Nat.lt_or_eq_of_le ordered with less | same
  · exact List.pairwise_iff_getElem.mp sorted m k lowInside highInside less
  · subst same
    exact le_rfl

section Group

variable {sortedY : List α} {i : Nat} {score : α}

/-- Behind the group of a score all values are greater. -/
theorem above_group (sorted : sortedY.Pairwise (· ≤ ·)) (started : sortedY[i]? = some score) {k : Nat}
    {high : α} (after : lastTie sortedY i i < k) (atHigh : sortedY[k]? = some high) : score < high := by
  rcases List.getElem?_eq_some_iff.mp started with ⟨inside, -⟩
  rcases lastTie_spec inside (fun k after before => by rw [Nat.le_antisymm before after]) with
    ⟨-, -, next⟩
  have until' := (List.getElem?_eq_some_iff.mp atHigh).1
  have nextInside : lastTie sortedY i i + 1 < sortedY.length := Nat.lt_of_le_of_lt after until'
  have first := List.getElem?_eq_getElem nextInside
  have differs := next nextInside
  rw [first, started] at differs
  have upward := le_of_sorted sorted ((le_lastTie sortedY i i).trans (Nat.le_succ _)) started first
  have strictly := lt_of_le_of_ne upward fun same => differs (by rw [same])
  exact strictly.trans_le (le_of_sorted sorted after first atHigh)

/-- The next group starts at a boundary again. -/
theorem boundary_next (sorted : sortedY.Pairwise (· ≤ ·)) (boundary : Boundary sortedY i)
    (started : sortedY[i]? = some score) : Boundary sortedY (lastTie sortedY i i + 1) := by
  rcases List.getElem?_eq_some_iff.mp started with ⟨inside, -⟩
  rcases lastTie_spec inside (fun k after before => by rw [Nat.le_antisymm before after]) with
    ⟨-, equal, -⟩
  intro m k low high before after atLow atHigh
  rcases Nat.lt_or_ge m i with earlier | within
  · have past := le_lastTie sortedY i i
    exact boundary m k low high earlier (by omega) atLow atHigh
  · have same := equal m within (Nat.le_of_lt_succ before)
    rw [started, atLow] at same
    cases same
    exact above_group sorted started after atHigh

/-- The scores of a group have the mean of its places as their mid-rank. -/
theorem midRank_of_group (sorted : sortedY.Pairwise (· ≤ ·)) (boundary : Boundary sortedY i)
    (started : sortedY[i]? = some score) :
    midRank sortedY score = (i + lastTie sortedY i i + 2) / 2 := by
  rcases List.getElem?_eq_some_iff.mp started with ⟨inside, -⟩
  rcases lastTie_spec inside (fun k after before => by rw [Nat.le_antisymm before after]) with
    ⟨within, equal, -⟩
  have member : ∀ place, (known : place < sortedY.length) -> i ≤ place -> place ≤ lastTie sortedY i i ->
      sortedY[place] = score := by
    intro place known after before
    have same := equal place after before
    rw [started, List.getElem?_eq_getElem known] at same
    exact Option.some.inj same
  apply midRank_of_run within
  · intro place known
    constructor
    · intro less
      by_contra after
      rcases Nat.lt_or_ge (lastTie sortedY i i) place with behind | before
      · exact lt_asymm less (above_group sorted started behind (List.getElem?_eq_getElem known))
      · rw [member place known (Nat.le_of_not_lt after) before] at less
        exact lt_irrefl score less
    · intro before
      exact boundary place i _ score before le_rfl (List.getElem?_eq_getElem known) started
  · intro place known
    constructor
    · intro atMost
      by_contra after
      have behind := above_group sorted started (Nat.lt_of_not_ge fun le => after (Nat.lt_succ_of_le le))
        (List.getElem?_eq_getElem known)
      exact absurd atMost (not_le.mpr behind)
    · intro before
      rcases Nat.lt_or_ge place i with earlier | within'
      · exact (boundary place i _ score earlier le_rfl (List.getElem?_eq_getElem known) started).le
      · exact (member place known within' (Nat.le_of_lt_succ before)).le
  · exact le_lastTie sortedY i i

end Group

/-! ## All groups -/

/-- Up to the place the ranks are settled, from there on they are as the sort has left
them. -/
structure Settled (order : List Nat) (sortedY : List α) (ranks : List ℚ) (i : Nat) : Prop where
  length : ranks.length = sortedY.length
  done : ∀ k place score, k < i -> order[k]? = some place -> sortedY[k]? = some score ->
    ranks[place]? = some (midRank sortedY score)
  open' : ∀ k place, i ≤ k -> order[k]? = some place -> ranks[place]? = some ((k : ℚ) + 1)

/-- A place that stands once in the order is in a part of it if its index is. -/
theorem mem_slice_iff {order : List Nat} (distinct : order.Nodup) {k place : Nat}
    (found : order[k]? = some place) (i count : Nat) :
    place ∈ (order.drop i).take count ↔ i ≤ k ∧ k < i + count := by
  have within := (List.getElem?_eq_some_iff.mp found).1
  rw [List.mem_iff_getElem?]
  simp only [List.getElem?_take, List.getElem?_drop]
  constructor
  · rintro ⟨m, at'⟩
    split at at'
    · next less =>
        have same : k = i + m := (List.getElem?_inj within distinct).mp (found.trans at'.symm)
        omega
    · cases at'
  · rintro ⟨after, before⟩
    refine ⟨k - i, ?_⟩
    rw [if_pos (by omega), Nat.add_sub_cancel' after]
    exact found

/-- One group: the ranks of its places become their mid-ranks. -/
theorem settled_group {order : List Nat} {sortedY : List α} {ranks : List ℚ} {i : Nat} {score : α}
    (distinct : order.Nodup) (inside : ∀ place ∈ order, place < sortedY.length)
    (sorted : sortedY.Pairwise (· ≤ ·)) (boundary : Boundary sortedY i)
    (settled : Settled order sortedY ranks i) (started : sortedY[i]? = some score) :
    Settled order sortedY
      (if i < lastTie sortedY i i then
        fill ranks ((order.drop i).take (lastTie sortedY i i + 1 - i)) ((i + lastTie sortedY i i + 2) / 2)
      else ranks) (lastTie sortedY i i + 1) := by
  have mean := midRank_of_group sorted boundary started
  have upward := le_lastTie sortedY i i
  have group : ∀ k other, i ≤ k -> k ≤ lastTie sortedY i i -> sortedY[k]? = some other -> other = score := by
    intro k other after before found
    have start := (List.getElem?_eq_some_iff.mp started).1
    rcases lastTie_spec start (fun k after before => by rw [Nat.le_antisymm before after]) with ⟨-, equal, -⟩
    have same := equal k after before
    rw [started, found] at same
    exact Option.some.inj same
  split
  · next several =>
      have written : ∀ k place, order[k]? = some place ->
          (fill ranks ((order.drop i).take (lastTie sortedY i i + 1 - i))
            ((i + lastTie sortedY i i + 2) / 2))[place]? =
            if i ≤ k ∧ k ≤ lastTie sortedY i i then some (midRank sortedY score) else ranks[place]? := by
        intro k place found
        have known : place < ranks.length := by
          rw [settled.length]
          exact inside place (List.mem_of_getElem? found)
        rw [getElem?_fill ranks _ _ known, mean]
        apply if_congr _ rfl rfl
        rw [mem_slice_iff distinct found]
        omega
      refine ⟨by rw [length_fill, settled.length], ?_, ?_⟩
      · intro k place other before found at'
        rw [written k place found]
        split
        · next within => rw [group k other within.1 within.2 at']
        · exact settled.done k place other (by omega) found at'
      · intro k place after found
        rw [written k place found, if_neg (by omega)]
        exact settled.open' k place (by omega) found
  · next single =>
      have alone : lastTie sortedY i i = i := by omega
      rw [alone] at mean ⊢
      refine ⟨settled.length, ?_, ?_⟩
      · intro k place other before found at'
        rcases Nat.lt_or_eq_of_le (Nat.le_of_lt_succ before) with earlier | here
        · exact settled.done k place other earlier found at'
        · subst here
          have own : (k : ℚ) + 1 = midRank sortedY score := by
            rw [mean]
            ring
          rw [settled.open' k place le_rfl found, group k other le_rfl upward at', own]
      · intro k place after found
        exact settled.open' k place (Nat.le_of_succ_le after) found

/-- The loop settles the ranks of all places. -/
theorem settled_averageTies {order : List Nat} {sortedY : List α} (distinct : order.Nodup)
    (inside : ∀ place ∈ order, place < sortedY.length) (sorted : sortedY.Pairwise (· ≤ ·)) {ranks : List ℚ}
    {i : Nat} (boundary : Boundary sortedY i) (settled : Settled order sortedY ranks i) :
    ∃ last, sortedY.length ≤ last ∧ Settled order sortedY (averageTies order sortedY ranks i) last := by
  induction ranks, i using averageTies.induct order sortedY with
  | case1 ranks i before j ranks' inductionHypothesis =>
      have started := List.getElem?_eq_getElem before
      rw [averageTies, if_pos before]
      exact inductionHypothesis (boundary_next sorted boundary started)
        (settled_group distinct inside sorted boundary settled started)
  | case2 ranks i after =>
      rw [averageTies, if_neg after]
      exact ⟨i, Nat.le_of_not_lt after, settled⟩

/-! ## The ranks -/

variable {argsort : List α -> List Nat}

/-- Before the loop the ranks are the places in the order, counted from one. -/
theorem settled_scatter {y : List α} {order : List Nat} (sorts : IsArgsort y order) :
    Settled order (gather y order)
      (scatter (List.replicate y.length 0) order (arange y.length)) 0 := by
  have lengths : (gather y order).length = y.length := (gather_perm sorts).length_eq
  refine ⟨by rw [length_scatter, List.length_replicate, lengths], ?_, ?_⟩
  · intro k _ _ before
    exact absurd before (Nat.not_lt_zero k)
  · intro k place _ found
    rcases List.getElem?_eq_some_iff.mp found with ⟨within, rfl⟩
    have inside : ∀ place ∈ order, place < (List.replicate y.length (0 : ℚ)).length := by
      intro place member
      rw [List.length_replicate]
      exact sorts.inside member
    have counted : order.length = (arange y.length).length := by
      rw [sorts.length, arange, List.length_map, List.length_range]
    rw [getElem?_scatter sorts.nodup inside counted within, arange, List.getElem?_map,
      List.getElem?_range (by rw [← sorts.length]; exact within)]
    rfl

/-- The ranks that come out are the mid-ranks, whatever order the sort gives to ties. -/
theorem averagedRanks_eq {y : List α} (sorts : IsArgsort y (argsort y)) :
    averagedRanks argsort y = y.map (midRank y) := by
  have perm := gather_perm sorts
  have lengths : (gather y (argsort y)).length = y.length := perm.length_eq
  have inside : ∀ place ∈ argsort y, place < (gather y (argsort y)).length := by
    intro place member
    rw [lengths]
    exact sorts.inside member
  have start : Boundary (gather y (argsort y)) 0 := by
    intro m _ _ _ before
    exact absurd before (Nat.not_lt_zero m)
  rcases settled_averageTies sorts.nodup inside sorts.sorted start (settled_scatter sorts) with
    ⟨last, all, settled⟩
  apply List.ext_getElem?
  intro place
  by_cases known : place < y.length
  · -- Every place stands somewhere in the order.
    have member : place ∈ argsort y := sorts.perm.mem_iff.mpr (List.mem_range.mpr known)
    rcases List.mem_iff_getElem?.mp member with ⟨k, found⟩
    rcases List.getElem?_eq_some_iff.mp found with ⟨within, same⟩
    have score : (gather y (argsort y))[k]? = some (y[place]) := by
      rw [getElem?_gather (fun place member => sorts.inside member) within, same, List.getElem?_eq_getElem known]
    have before : k < last := by
      have inLength := sorts.length
      omega
    have rank := settled.done k place _ before found score
    rw [midRank_perm perm] at rank
    rw [List.getElem?_map, List.getElem?_eq_getElem known, Option.map_some]
    exact rank
  · have short : (averagedRanks argsort y).length = y.length := settled.length.trans lengths
    rw [List.getElem?_eq_none (by rw [short]; omega), List.getElem?_eq_none (by rw [List.length_map]; omega)]

/-! ## The area -/

/-- The area: the share of the pairs in which the positive score is greater, and half of
the share of those in which both are equal. -/
def area (neg pos : List α) : ℚ := (ahead neg pos + tied neg pos / 2) / (neg.length * pos.length)

/-- The rank statistic counts the pairs. -/
theorem rankStatistic_eq {neg pos : List α} (sorts : IsArgsort (neg ++ pos) (argsort (neg ++ pos))) :
    rankStatistic argsort neg pos = ahead neg pos + tied neg pos / 2 := by
  unfold rankStatistic
  rw [averagedRanks_eq sorts, ← List.map_drop, List.drop_left, sum_midRank]
  ring

/-- On classes that are not empty both functions return the area. -/
theorem rocAuc_eq_area {neg pos : List α} (someNeg : neg ≠ []) (somePos : pos ≠ [])
    (sorts : IsArgsort (neg ++ pos) (argsort (neg ++ pos))) :
    Evaluate.rocAuc argsort neg pos = .finite (area neg pos) ∧
      TrainAutoencoder.rocAuc argsort neg pos = .finite (area neg pos) := by
  have negLength : neg.length ≠ 0 := fun zero => someNeg (List.eq_nil_of_length_eq_zero zero)
  have posLength : pos.length ≠ 0 := fun zero => somePos (List.eq_nil_of_length_eq_zero zero)
  have denominator : (pos.length * neg.length : ℚ) ≠ 0 := by
    exact_mod_cast Nat.mul_ne_zero posLength negLength
  have divided : divide (rankStatistic argsort neg pos) (pos.length * neg.length) =
      .finite (area neg pos) := by
    rw [divide, if_neg denominator, rankStatistic_eq sorts, area, mul_comm (neg.length : ℚ)]
  refine ⟨?_, divided⟩
  rw [Evaluate.rocAuc, if_neg (by omega), divided]

/-- The order of three scores with a tie across the classes. -/
def tiedOrder : List ℚ -> List Nat := fun _ => [0, 2, 1]

theorem isArgsort_tiedOrder : IsArgsort ([1, 2] ++ [1] : List ℚ) (tiedOrder ([1, 2] ++ [1])) := by
  constructor
  · decide
  · decide

theorem rocAuc_eq_area_tied :
    Evaluate.rocAuc tiedOrder [1, 2] [1] = .finite (area [1, 2] [1]) ∧
      TrainAutoencoder.rocAuc tiedOrder [1, 2] [1] = .finite (area [1, 2] [1]) :=
  rocAuc_eq_area (by decide) (by decide) isArgsort_tiedOrder

/-- Where a class is empty, neither returns a number. -/
theorem rocAuc_empty {neg pos : List α} (empty : neg = [] ∨ pos = [])
    (sorts : IsArgsort (neg ++ pos) (argsort (neg ++ pos))) :
    Evaluate.rocAuc argsort neg pos = .nan ∧ TrainAutoencoder.rocAuc argsort neg pos = .nan := by
  have denominator : (pos.length * neg.length : ℚ) = 0 := by
    rcases empty with rfl | rfl <;> simp
  have numerator : rankStatistic argsort neg pos = 0 := by
    rw [rankStatistic_eq sorts]
    rcases empty with rfl | rfl <;> simp [ahead, tied]
  constructor
  · rw [Evaluate.rocAuc, if_pos]
    rcases empty with rfl | rfl
    · exact Or.inl rfl
    · exact Or.inr rfl
  · rw [TrainAutoencoder.rocAuc, divide, if_pos denominator, if_pos numerator]

end Training
end ZeroAudit
