import Mathlib.Order.OrderDual
import ZeroAudit.Foundation.KeySort

namespace Foundation

/-!
# The greatest entries of a list

A reader who asks for the greatest entries up to a limit need not sort the
whole list.  A part of it is ample if each entry outside has as many entries
of the part above it as the limit asks for.  An ample part may be put together
from ample parts of pieces of the list, and one that is full stays ample when
entries below it are added to the list.
-/

section Greatest

variable {α β : Type*} [LinearOrder β] (key : α -> β) (limit : Nat)

/-- The greatest entries up to the limit, the greatest first. -/
structure Greatest (entries answer : List α) : Prop where
  ordered : answer.Pairwise fun a b => key b ≤ key a
  length : answer.length = min limit entries.length
  omitted : ∃ rest, (answer ++ rest).Perm entries ∧ ∀ a ∈ answer, ∀ b ∈ rest, key b ≤ key a

/-- Each entry outside the part has enough entries of the part above it. -/
def Ample (part entries : List α) : Prop :=
  ∃ rest, (part ++ rest).Perm entries ∧ ∀ b ∈ rest, limit ≤ part.countP fun a => decide (key b ≤ key a)

variable {key limit}

/-! ## Ample parts -/

theorem ample_refl (entries : List α) : Ample key limit entries entries := by
  refine ⟨[], List.Perm.of_eq (List.append_nil entries), ?_⟩
  intro b member
  cases member

theorem Ample.perm {part entries other : List α} (ample : Ample key limit part entries)
    (perm : entries.Perm other) : Ample key limit part other := by
  rcases ample with ⟨rest, whole, above⟩
  exact ⟨rest, whole.trans perm, above⟩

theorem le_of_mem_drop {sorted : List α} (ordered : sorted.Pairwise fun a b => key b ≤ key a) {a b : α}
    (earlier : a ∈ sorted.take limit) (later : b ∈ sorted.drop limit) : key b ≤ key a := by
  have split := List.pairwise_append.mp ((List.take_append_drop limit sorted).symm ▸ ordered)
  exact split.2.2 a earlier b later

variable (limit) in
/-- The first entries of a sorted list are ample. -/
theorem ample_take {sorted : List α} (ordered : sorted.Pairwise fun a b => key b ≤ key a) :
    Ample key limit (sorted.take limit) sorted := by
  refine ⟨sorted.drop limit, List.Perm.of_eq (List.take_append_drop limit sorted), ?_⟩
  intro b later
  have all : ∀ a ∈ sorted.take limit, decide (key b ≤ key a) = true := by
    intro a earlier
    exact decide_eq_true (le_of_mem_drop ordered earlier later)
  have long : 0 < (sorted.drop limit).length := List.length_pos_of_mem later
  rw [List.length_drop] at long
  rw [List.countP_eq_length.mpr all, List.length_take]
  omega

/-- Ample parts of two pieces are ample for both together. -/
theorem Ample.append {part entries other more : List α} (first : Ample key limit part entries)
    (second : Ample key limit other more) : Ample key limit (part ++ other) (entries ++ more) := by
  rcases first with ⟨rest, whole, above⟩
  rcases second with ⟨restOther, wholeOther, aboveOther⟩
  refine ⟨rest ++ restOther, ?_, ?_⟩
  · have regroup : (part ++ other ++ (rest ++ restOther)).Perm (part ++ rest ++ (other ++ restOther)) := by
      rw [List.append_assoc, List.append_assoc]
      apply List.Perm.append_left
      rw [← List.append_assoc, ← List.append_assoc]
      apply List.Perm.append_right
      exact List.perm_append_comm
    exact regroup.trans (whole.append wholeOther)
  · intro b member
    rw [List.countP_append]
    rcases List.mem_append.mp member with left | right
    · exact (above b left).trans (Nat.le_add_right _ _)
    · exact (aboveOther b right).trans (Nat.le_add_left _ _)

/-- A full part stays ample when there is more below it. -/
theorem Ample.append_below {part entries below : List α} (ample : Ample key limit part entries)
    (full : limit ≤ part.length) (low : ∀ a ∈ part, ∀ b ∈ below, key b ≤ key a) :
    Ample key limit part (entries ++ below) := by
  rcases ample with ⟨rest, whole, above⟩
  refine ⟨rest ++ below, ?_, ?_⟩
  · rw [← List.append_assoc]
    exact whole.append_right below
  · intro b member
    rcases List.mem_append.mp member with left | right
    · exact above b left
    · have all : ∀ a ∈ part, decide (key b ≤ key a) = true := by
        intro a inside
        exact decide_eq_true (low a inside b right)
      rw [List.countP_eq_length.mpr all]
      exact full

theorem Ample.mem {part entries : List α} (ample : Ample key limit part entries) {a : α}
    (member : a ∈ part) : a ∈ entries := by
  rcases ample with ⟨rest, whole, -⟩
  exact whole.mem_iff.mp (List.mem_append_left rest member)

/-! ## Sorting a part -/

/-- If enough entries of a sorted list are above a bound, then so are its first ones. -/
theorem le_of_mem_take {sorted : List α} (ordered : sorted.Pairwise fun a b => key b ≤ key a) {bound : β}
    (many : limit ≤ sorted.countP fun a => decide (bound ≤ key a)) {a : α} (member : a ∈ sorted.take limit) :
    bound ≤ key a := by
  induction sorted generalizing limit with
  | nil =>
      rw [List.take_nil] at member
      cases member
  | cons first later inductionHypothesis =>
      rcases List.pairwise_cons.mp ordered with ⟨greatest, orderedLater⟩
      cases limit with
      | zero => cases member
      | succ limit =>
          by_cases above : bound ≤ key first
          · rw [List.countP_cons, if_pos (decide_eq_true above)] at many
            rcases List.mem_cons.mp member with same | member
            · rw [same]
              exact above
            · exact inductionHypothesis orderedLater (Nat.le_of_succ_le_succ many) member
          · have none : (first :: later).countP (fun a => decide (bound ≤ key a)) = 0 := by
              rw [List.countP_eq_zero]
              intro b inside
              rw [decide_eq_true_iff]
              intro high
              apply above
              rcases List.mem_cons.mp inside with same | tail
              · rw [← same]
                exact high
              · exact high.trans (greatest b tail)
            rw [none] at many
            exact absurd many (Nat.not_succ_le_zero limit)

/-- To find the greatest entries, it is enough to sort an ample part. -/
theorem Ample.greatest {part entries : List α} (ample : Ample key limit part entries) :
    Greatest key limit entries ((part.mergeSort fun a b => decide (key b ≤ key a)).take limit) := by
  rcases ample with ⟨rest, whole, above⟩
  have ordered : (part.mergeSort fun a b => decide (key b ≤ key a)).Pairwise fun a b => key b ≤ key a :=
    pairwise_mergeSort_key (fun a => OrderDual.toDual (key a)) part
  have perm : (part.mergeSort fun a b => decide (key b ≤ key a)).Perm part := List.mergeSort_perm part _
  generalize (part.mergeSort fun a b => decide (key b ≤ key a)) = sorted at *
  constructor
  · exact ordered.sublist (List.take_sublist limit sorted)
  · rw [List.length_take, perm.length_eq, ← whole.length_eq, List.length_append]
    cases rest with
    | nil => rw [List.length_nil, Nat.add_zero]
    | cons b others =>
        have full := (above b List.mem_cons_self).trans List.countP_le_length
        omega
  · refine ⟨sorted.drop limit ++ rest, ?_, ?_⟩
    · rw [← List.append_assoc, List.take_append_drop]
      exact (perm.append_right rest).trans whole
    · intro a kept b member
      rcases List.mem_append.mp member with later | outside
      · exact le_of_mem_drop ordered kept later
      · apply le_of_mem_take ordered _ kept
        rw [perm.countP_eq]
        exact above b outside

end Greatest
end Foundation
