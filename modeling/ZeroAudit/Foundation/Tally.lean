import Mathlib
import ZeroAudit.Foundation.Retention

namespace Foundation
namespace Tally

open Retention

/-!
# Counts that are kept for a while

Each key that arrives is counted, and has a cutoff at or below it.  The counts of the keys
below the cutoff are dropped.  A count therefore goes back to the last arrival whose cutoff
lay above its key, and no further.
-/

variable {K : Type*} [LinearOrder K] (cutoff : K -> K)

/-- The count of a key, none where it is not kept. -/
def count (key : K) (tally : List (K × Nat)) : Nat := (lookup key tally).getD 0

/-- Count a key, and drop what lies below its cutoff. -/
def enter (tally : List (K × Nat)) (key : K) : List (K × Nat) :=
  (upsert key (count key tally + 1) tally).filter fun entry => decide (cutoff key ≤ entry.1)

/-- The counts after all arrivals. -/
def tallyOf (keys : List K) : List (K × Nat) := keys.foldl (enter cutoff) []

theorem lookup_filter (kept : K -> Bool) (key : K) (tally : List (K × Nat)) :
    lookup key (tally.filter fun entry => kept entry.1) = if kept key then lookup key tally else none := by
  induction tally with
  | nil => simp [lookup]
  | cons entry rest inductionHypothesis =>
      unfold lookup at inductionHypothesis ⊢
      rw [List.filter_cons]
      by_cases own : entry.1 = key
      · subst own
        split
        · next keeps => simp
        · next drops => rw [inductionHypothesis, if_neg drops]
      · split
        · simp only [List.find?_cons, decide_eq_false own, inductionHypothesis]
        · simp only [List.find?_cons, decide_eq_false own, inductionHypothesis]

theorem count_enter (tally : List (K × Nat)) (own key : K) :
    count key (enter cutoff tally own) =
      if cutoff own ≤ key then count key tally + (if own = key then 1 else 0) else 0 := by
  unfold enter
  rw [count, lookup_filter (fun other => decide (cutoff own ≤ other)), lookup_upsert]
  by_cases kept : cutoff own ≤ key
  · rw [if_pos (decide_eq_true kept), if_pos kept]
    by_cases same : own = key
    · subst same
      simp
    · simp [count, same, Ne.symm same]
  · rw [if_neg (by simpa using kept), if_neg kept]
    rfl

theorem tallyOf_append (keys : List K) (key : K) :
    tallyOf cutoff (keys ++ [key]) = enter cutoff (tallyOf cutoff keys) key := by
  unfold tallyOf
  rw [List.foldl_append]
  rfl

/-- The count of a key is that of its arrivals since its last drop. -/
theorem count_tallyOf (keys : List K) (key : K) :
    count key (tallyOf cutoff keys) = (keys.reverse.takeWhile fun late => decide (cutoff late ≤ key)).count key := by
  induction keys using List.reverseRecOn with
  | nil => rfl
  | append_singleton keys late inductionHypothesis =>
      rw [tallyOf_append, count_enter, inductionHypothesis, List.reverse_append, List.reverse_singleton,
        List.singleton_append, List.takeWhile_cons]
      by_cases kept : cutoff late ≤ key
      · simp [kept, List.count_cons]
      · simp [kept]

/-- Where no cutoff has lain above a key, its count is complete. -/
theorem count_tallyOf_of_current {keys : List K} {key : K} (current : ∀ late ∈ keys, cutoff late ≤ key) :
    count key (tallyOf cutoff keys) = keys.count key := by
  have whole : ∀ late ∈ keys.reverse, decide (cutoff late ≤ key) = true := fun late member =>
    decide_eq_true (current late (List.mem_reverse.mp member))
  rw [count_tallyOf, List.takeWhile_eq_self_iff.mpr whole, List.count_reverse]

theorem nodup_tallyOf (keys : List K) : ((tallyOf cutoff keys).map Prod.fst).Nodup := by
  induction keys using List.reverseRecOn with
  | nil => exact List.nodup_nil
  | append_singleton keys key inductionHypothesis =>
      rw [tallyOf_append]
      exact (nodup_upsert _ _ inductionHypothesis).sublist (List.filter_sublist.map Prod.fst)

/-- What is kept has arrived, and does not lie below the cutoff of the last arrival. -/
theorem mem_tallyOf {keys : List K} {key : K} (member : key ∈ (tallyOf cutoff keys).map Prod.fst) :
    key ∈ keys ∧ ∀ last ∈ keys.getLast?, cutoff last ≤ key := by
  induction keys using List.reverseRecOn with
  | nil => cases member
  | append_singleton keys late inductionHypothesis =>
      rw [tallyOf_append] at member
      rcases List.mem_map.mp member with ⟨entry, kept, rfl⟩
      rcases List.mem_filter.mp kept with ⟨entered, current⟩
      constructor
      · have own := List.mem_map_of_mem (f := Prod.fst) entered
        rw [keys_upsert] at own
        split at own
        · exact List.mem_append_left _ (inductionHypothesis own).1
        · rcases List.mem_append.mp own with before | last
          · exact List.mem_append_left _ (inductionHypothesis before).1
          · exact List.mem_append_right _ last
      · intro last same
        rw [List.getLast?_concat] at same
        cases same
        exact of_decide_eq_true current

/-! ## Groups -/

section Groups

variable {A V : Type*} [DecidableEq A]

/-- The values of each key, in the order in which they came. -/
def group (entries : List (A × V)) : List (A × List V) :=
  entries.foldl (fun groups entry => upsert entry.1 ((lookup entry.1 groups).getD [] ++ [entry.2]) groups) []

theorem group_append (entries : List (A × V)) (entry : A × V) :
    group (entries ++ [entry]) =
      upsert entry.1 ((lookup entry.1 (group entries)).getD [] ++ [entry.2]) (group entries) := by
  unfold group
  rw [List.foldl_append]
  rfl

/-- The values that have come with a key. -/
def valuesOf (key : A) (entries : List (A × V)) : List V :=
  (entries.filter fun entry => decide (entry.1 = key)).map Prod.snd

theorem mem_valuesOf {entry : A × V} {entries : List (A × V)} (member : entry ∈ entries) :
    entry.2 ∈ valuesOf entry.1 entries :=
  List.mem_map_of_mem (List.mem_filter.mpr ⟨member, decide_eq_true rfl⟩)

/-- A key has a group where it has come, which holds all that has come with it. -/
theorem lookup_group (key : A) (entries : List (A × V)) :
    lookup key (group entries) = if key ∈ entries.map Prod.fst then some (valuesOf key entries) else none := by
  induction entries using List.reverseRecOn with
  | nil => rfl
  | append_singleton entries entry inductionHypothesis =>
      rw [group_append, lookup_upsert, List.map_append, List.map_singleton]
      by_cases same : key = entry.1
      · subst same
        have before : (lookup entry.1 (group entries)).getD [] = valuesOf entry.1 entries := by
          rw [inductionHypothesis]
          split
          · rfl
          · next absent =>
              have none : entries.filter (fun own => decide (own.1 = entry.1)) = [] := by
                rw [List.filter_eq_nil_iff]
                intro own member same
                exact absent (List.mem_map.mpr ⟨own, member, of_decide_eq_true same⟩)
              rw [valuesOf, none]
              rfl
        rw [if_pos rfl, if_pos (List.mem_append_right _ (List.mem_singleton_self _)), before]
        simp [valuesOf]
      · have other : key ∈ entries.map Prod.fst ++ [entry.1] ↔ key ∈ entries.map Prod.fst := by
          rw [List.mem_append, List.mem_singleton, or_iff_left same]
        rw [if_neg same, inductionHypothesis, if_congr other rfl rfl]
        simp [valuesOf, Ne.symm same]

theorem nodup_group (entries : List (A × V)) : ((group entries).map Prod.fst).Nodup := by
  induction entries using List.reverseRecOn with
  | nil => exact List.nodup_nil
  | append_singleton entries entry inductionHypothesis =>
      rw [group_append]
      exact nodup_upsert _ _ inductionHypothesis

end Groups

end Tally
end Foundation
