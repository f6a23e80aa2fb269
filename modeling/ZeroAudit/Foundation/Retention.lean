import Mathlib.Data.List.Induction
import Mathlib.Data.List.Nodup

namespace Foundation
namespace Retention

/-!
# A bounded map in the order of first insertion

A key that is written again keeps its place, a new one goes to the end, and
whenever the map has grown past a limit the oldest places are dropped before the
next write.  What is found under a key is therefore the value written last, or
nothing.  A value that is written once and found missing was followed by many
others: as many keys as the limit leaves after a drop stand behind it.
-/

/-! ## Dropping -/

section Trim

variable {α : Type*}

/-- Drop the oldest places of a list past the limit. -/
def trim (limit dropped : Nat) (entries : List α) : List α :=
  if limit < entries.length then entries.drop dropped else entries

theorem trim_sublist (limit dropped : Nat) (entries : List α) :
    (trim limit dropped entries).Sublist entries := by
  unfold trim
  split
  · exact List.drop_sublist dropped entries
  · exact List.Sublist.refl entries

/-- An entry with few places behind it is not dropped. -/
theorem trim_keeps_place {limit dropped : Nat} {entry : α} {before after : List α}
    (recent : after.length + dropped ≤ limit) :
    ∃ before', trim limit dropped (before ++ entry :: after) = before' ++ entry :: after := by
  unfold trim
  split
  · next full =>
      rw [List.length_append, List.length_cons] at full
      refine ⟨before.drop dropped, ?_⟩
      rw [List.drop_append_of_le_length (by omega)]
  · exact ⟨before, rfl⟩

end Trim

variable {K V : Type*} [DecidableEq K]

/-- Replace the value of a key in its place, or append the key. -/
def upsert (key : K) (value : V) : List (K × V) -> List (K × V)
  | [] => [(key, value)]
  | (own, old) :: rest =>
      if own = key then (own, value) :: rest else (own, old) :: upsert key value rest

/-- What is left of a list of writes. -/
def retained (limit dropped : Nat) (writes : List (K × V)) : List (K × V) :=
  writes.foldl (fun entries write => upsert write.1 write.2 (trim limit dropped entries)) []

/-- What is found under a key. -/
def lookup (key : K) (entries : List (K × V)) : Option V :=
  (entries.find? fun entry => decide (entry.1 = key)).map Prod.snd

theorem lookup_eq_none_iff {key : K} {entries : List (K × V)} :
    lookup key entries = none ↔ key ∉ entries.map Prod.fst := by
  unfold lookup
  rw [Option.map_eq_none_iff, List.find?_eq_none]
  constructor
  · intro missing member
    rcases List.mem_map.mp member with ⟨entry, own, same⟩
    exact missing entry own (decide_eq_true same)
  · intro fresh entry member hit
    exact fresh (List.mem_map.mpr ⟨entry, member, of_decide_eq_true hit⟩)

/-- A key that is found has a place, and a write goes there. -/
theorem upsert_of_found {key : K} {old : V} {entries : List (K × V)}
    (found : lookup key entries = some old) (value : V) :
    ∃ before after, entries = before ++ (key, old) :: after ∧
      upsert key value entries = before ++ (key, value) :: after := by
  induction entries with
  | nil => cases found
  | cons entry rest inductionHypothesis =>
      rcases entry with ⟨own, first⟩
      by_cases hit : own = key
      · subst own
        simp only [lookup, List.find?_cons, decide_true, Option.map_some, Option.some.injEq] at found
        subst first
        exact ⟨[], rest, rfl, by rw [upsert, if_pos rfl, List.nil_append]⟩
      · have later : lookup key rest = some old := by
          simpa only [lookup, List.find?_cons, decide_eq_false hit] using found
        rcases inductionHypothesis later with ⟨before, after, split, written⟩
        refine ⟨(own, first) :: before, after, by rw [split, List.cons_append], ?_⟩
        rw [upsert, if_neg hit, written, List.cons_append]

theorem mem_of_lookup {key : K} {value : V} {entries : List (K × V)}
    (found : lookup key entries = some value) : (key, value) ∈ entries := by
  rcases upsert_of_found found value with ⟨before, after, split, -⟩
  rw [split]
  exact List.mem_append_right _ List.mem_cons_self

theorem lookup_of_mem {key : K} {value : V} {entries : List (K × V)}
    (distinct : (entries.map Prod.fst).Nodup) (member : (key, value) ∈ entries) :
    lookup key entries = some value := by
  cases found : lookup key entries with
  | none => exact (lookup_eq_none_iff.mp found (List.mem_map.mpr ⟨_, member, rfl⟩)).elim
  | some own =>
      have same := List.inj_on_of_nodup_map distinct (mem_of_lookup found) member rfl
      rw [(Prod.mk.inj same).2]

/-! ## One write -/

/-- A write leaves the other entries, and its own. -/
theorem mem_upsert_iff {key own : K} {value found : V} {entries : List (K × V)}
    (distinct : (entries.map Prod.fst).Nodup) :
    (own, found) ∈ upsert key value entries ↔
      own = key ∧ found = value ∨ own ≠ key ∧ (own, found) ∈ entries := by
  induction entries with
  | nil =>
      simp only [upsert, List.mem_singleton, Prod.mk.injEq, List.not_mem_nil, and_false, or_false]
  | cons entry rest inductionHypothesis =>
      rcases entry with ⟨first, old⟩
      rw [List.map_cons, List.nodup_cons] at distinct
      by_cases hit : first = key
      · subst first
        simp only [upsert, if_pos, List.mem_cons, Prod.mk.injEq]
        constructor
        · rintro (⟨same, written⟩ | later)
          · exact Or.inl ⟨same, written⟩
          · refine Or.inr ⟨?_, Or.inr later⟩
            rintro rfl
            exact distinct.1 (List.mem_map.mpr ⟨_, later, rfl⟩)
        · rintro (own | ⟨other, ⟨same, -⟩ | later⟩)
          · exact Or.inl own
          · exact absurd same other
          · exact Or.inr later
      · simp only [upsert, if_neg hit, List.mem_cons, inductionHypothesis distinct.2, Prod.mk.injEq]
        constructor
        · rintro (⟨rfl, rfl⟩ | written | ⟨other, later⟩)
          · exact Or.inr ⟨hit, Or.inl ⟨rfl, rfl⟩⟩
          · exact Or.inl written
          · exact Or.inr ⟨other, Or.inr later⟩
        · rintro (written | ⟨other, first | later⟩)
          · exact Or.inr (Or.inl written)
          · exact Or.inl first
          · exact Or.inr (Or.inr ⟨other, later⟩)

theorem keys_upsert (key : K) (value : V) (entries : List (K × V)) :
    (upsert key value entries).map Prod.fst =
      if key ∈ entries.map Prod.fst then entries.map Prod.fst else entries.map Prod.fst ++ [key] := by
  induction entries with
  | nil => rfl
  | cons entry rest inductionHypothesis =>
      rcases entry with ⟨first, old⟩
      by_cases hit : first = key
      · subst first
        simp [upsert]
      · simp only [upsert, if_neg hit, List.map_cons, inductionHypothesis, List.mem_cons,
          Ne.symm hit, false_or]
        split <;> rfl

theorem mem_keys_upsert {key other : K} {value : V} {entries : List (K × V)} :
    other ∈ (upsert key value entries).map Prod.fst ↔ other = key ∨ other ∈ entries.map Prod.fst := by
  rw [keys_upsert]
  by_cases present : key ∈ entries.map Prod.fst
  · rw [if_pos present]
    constructor
    · exact Or.inr
    · rintro (rfl | member)
      · exact present
      · exact member
  · rw [if_neg present, List.mem_append, List.mem_singleton, or_comm]

theorem mem_of_mem_upsert {key : K} {value : V} {entry : K × V} {entries : List (K × V)}
    (member : entry ∈ upsert key value entries) : entry = (key, value) ∨ entry ∈ entries := by
  induction entries with
  | nil => exact Or.inl (List.mem_singleton.mp member)
  | cons first rest inductionHypothesis =>
      rcases first with ⟨own, old⟩
      unfold upsert at member
      split at member
      · next hit =>
          rcases List.mem_cons.mp member with same | later
          · exact Or.inl (by rw [same, hit])
          · exact Or.inr (List.mem_cons_of_mem _ later)
      · rcases List.mem_cons.mp member with same | later
        · exact Or.inr (same ▸ List.mem_cons_self)
        · rcases inductionHypothesis later with written | kept
          · exact Or.inl written
          · exact Or.inr (List.mem_cons_of_mem _ kept)

/-- What is found under a key after a write. -/
theorem lookup_upsert (key other : K) (value : V) (entries : List (K × V)) :
    lookup other (upsert key value entries) = if other = key then some value else lookup other entries := by
  induction entries with
  | nil =>
      by_cases same : other = key
      · simp [lookup, upsert, same]
      · simp [lookup, upsert, same, Ne.symm same]
  | cons entry rest inductionHypothesis =>
      rcases entry with ⟨own, old⟩
      unfold lookup at inductionHypothesis ⊢
      by_cases hit : own = key
      · subst own
        by_cases same : other = key
        · simp [upsert, same]
        · simp [upsert, same, Ne.symm same]
      · rw [upsert, if_neg hit, List.find?_cons, List.find?_cons]
        by_cases first : own = other
        · subst own
          simp [hit]
        · simp only [decide_eq_false first, inductionHypothesis]

theorem length_upsert_le (key : K) (value : V) (entries : List (K × V)) :
    (upsert key value entries).length ≤ entries.length + 1 := by
  have keys := congrArg List.length (keys_upsert key value entries)
  rw [List.length_map] at keys
  rw [keys]
  split
  · rw [List.length_map]
    omega
  · exact Nat.le_of_eq (by rw [List.length_append, List.length_map, List.length_singleton])

theorem nodup_upsert (key : K) (value : V) {entries : List (K × V)}
    (distinct : (entries.map Prod.fst).Nodup) : ((upsert key value entries).map Prod.fst).Nodup := by
  rw [keys_upsert]
  split
  · exact distinct
  · next fresh => exact distinct.append (List.nodup_singleton key) (by simpa using fresh)

theorem upsert_of_fresh {key : K} (value : V) {entries : List (K × V)}
    (fresh : key ∉ entries.map Prod.fst) : upsert key value entries = entries ++ [(key, value)] := by
  induction entries with
  | nil => rfl
  | cons entry rest inductionHypothesis =>
      rw [List.map_cons, List.mem_cons, not_or] at fresh
      rw [upsert, if_neg (Ne.symm fresh.1), inductionHypothesis fresh.2, List.cons_append]

/-- Writing over a value replaces it in every count. -/
theorem countP_upsert_of_found {key : K} {old : V} {entries : List (K × V)}
    (found : lookup key entries = some old) (value : V) (counted : V -> Bool) :
    (upsert key value entries).countP (fun entry => counted entry.2) + (if counted old then 1 else 0) =
      entries.countP (fun entry => counted entry.2) + if counted value then 1 else 0 := by
  rcases upsert_of_found found value with ⟨before, after, split, written⟩
  rw [written, split]
  simp only [List.countP_append, List.countP_cons]
  omega

/-- A write moves the entries under other keys by at most one place, counted from
the end. -/
theorem upsert_keeps_place {key own : K} (value : V) {found : V} {before after : List (K × V)}
    (other : own ≠ key) :
    ∃ before' after', upsert key value (before ++ (own, found) :: after) =
      before' ++ (own, found) :: after' ∧ after'.length ≤ after.length + 1 := by
  induction before with
  | nil =>
      exact ⟨[], upsert key value after, by simp [upsert, other], length_upsert_le key value after⟩
  | cons entry rest inductionHypothesis =>
      rcases entry with ⟨first, old⟩
      by_cases hit : first = key
      · exact ⟨(first, value) :: rest, after, by simp [upsert, hit], Nat.le_succ _⟩
      · rcases inductionHypothesis with ⟨before', after', same, short⟩
        exact ⟨(first, old) :: before', after', by simp [upsert, hit, same], short⟩

/-! ## Many writes -/

section Writes

variable (limit dropped : Nat)

theorem retained_append (writes : List (K × V)) (write : K × V) :
    retained limit dropped (writes ++ [write]) =
      upsert write.1 write.2 (trim limit dropped (retained limit dropped writes)) := by
  rw [retained, List.foldl_append]
  rfl

theorem nodup_retained (writes : List (K × V)) : ((retained limit dropped writes).map Prod.fst).Nodup := by
  induction writes using List.reverseRecOn with
  | nil => exact List.nodup_nil
  | append_singleton writes write inductionHypothesis =>
      rw [retained_append]
      exact nodup_upsert _ _ (inductionHypothesis.sublist ((trim_sublist ..).map Prod.fst))

/-- What is found under a key is the value written last. -/
theorem last_of_retained {writes : List (K × V)} {key : K} {value : V}
    (found : (key, value) ∈ retained limit dropped writes) :
    ∃ before after, writes = before ++ (key, value) :: after ∧ ∀ write ∈ after, write.1 ≠ key := by
  induction writes using List.reverseRecOn with
  | nil => exact (List.not_mem_nil found).elim
  | append_singleton writes write inductionHypothesis =>
      rcases write with ⟨own, written⟩
      have distinct := (nodup_retained limit dropped writes).sublist
        ((trim_sublist limit dropped _).map Prod.fst)
      rw [retained_append, mem_upsert_iff distinct] at found
      rcases found with ⟨rfl, rfl⟩ | ⟨other, earlier⟩
      · exact ⟨writes, [], rfl, fun _ member => (List.not_mem_nil member).elim⟩
      · rcases inductionHypothesis ((trim_sublist ..).subset earlier) with
          ⟨before, after, rfl, later⟩
        refine ⟨before, after ++ [(own, written)], by simp, ?_⟩
        intro write member
        rcases List.mem_append.mp member with old | last
        · exact later write old
        · cases List.mem_singleton.mp last
          exact Ne.symm other

/-- The keys of a map were written. -/
theorem key_of_retained {writes : List (K × V)} {key : K}
    (found : key ∈ (retained limit dropped writes).map Prod.fst) : key ∈ writes.map Prod.fst := by
  rcases List.mem_map.mp found with ⟨⟨own, value⟩, member, rfl⟩
  rcases last_of_retained limit dropped member with ⟨before, after, rfl, -⟩
  simp

/-- A key that was written once, not too long ago, is found with its value. -/
theorem retained_of_once {before after : List (K × V)} {key : K} {value : V}
    (first : key ∉ before.map Prod.fst) (last : key ∉ after.map Prod.fst)
    (recent : after.length + dropped ≤ limit) :
    ∃ older newer, retained limit dropped (before ++ (key, value) :: after) =
      older ++ (key, value) :: newer ∧ newer.length ≤ after.length := by
  induction after using List.reverseRecOn with
  | nil =>
      refine ⟨trim limit dropped (retained limit dropped before), [], ?_, Nat.le_refl 0⟩
      rw [retained_append, upsert_of_fresh]
      intro found
      apply first
      apply key_of_retained limit dropped
      exact ((trim_sublist limit dropped (retained limit dropped before)).map Prod.fst).subset found
  | append_singleton after write inductionHypothesis =>
      rw [List.map_append, List.mem_append, not_or, List.map_singleton, List.mem_singleton] at last
      rw [List.length_append, List.length_singleton] at recent
      rcases inductionHypothesis last.1 (by omega) with ⟨older, newer, same, short⟩
      have regroup : before ++ (key, value) :: (after ++ [write]) =
          (before ++ (key, value) :: after) ++ [write] := by simp
      rw [regroup, retained_append, same]
      have room : newer.length + dropped ≤ limit := by omega
      have placed : ∃ older', trim limit dropped (older ++ (key, value) :: newer) =
          older' ++ (key, value) :: newer := trim_keeps_place room
      rcases placed with ⟨older', trimmed⟩
      rw [trimmed]
      have rewritten : ∃ older'' newer', upsert write.1 write.2 (older' ++ (key, value) :: newer) =
          older'' ++ (key, value) :: newer' ∧ newer'.length ≤ newer.length + 1 :=
        upsert_keeps_place write.2 last.2
      rcases rewritten with ⟨older'', newer', written, short'⟩
      refine ⟨older'', newer', written, ?_⟩
      rw [List.length_append, List.length_singleton]
      omega

end Writes

end Retention
end Foundation
