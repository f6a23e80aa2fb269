import Mathlib.Data.List.Infix
import Mathlib.Data.List.Forall2
import Mathlib.Data.List.Nodup

namespace Foundation
namespace LinkChain

/-!
# Chains in which every entry names the digest before it

Entries are arbitrary, and so is what a digest is.  The two readings `prev`
and `digest` are all that a chain is about.  What a collision-free digest buys
is stated as a property of the entries at hand: equal digests come from equal
predecessors.  From it follow that no digest repeats, that a linked selection
of entries is a contiguous part of the chain, and that a chain is determined
by its last digest.
-/

variable {E H : Type*} (prev digest : E -> H)

/-- The first entry names `before`, and every later one its predecessor. -/
def Linked : H -> List E -> Prop
  | _, [] => True
  | before, entry :: rest => prev entry = before ∧ Linked (digest entry) rest

/-- The digest that the next entry has to name. -/
def tip : H -> List E -> H
  | before, [] => before
  | _, entry :: rest => tip (digest entry) rest

theorem tip_append (before : H) (first second : List E) :
    tip digest before (first ++ second) = tip digest (tip digest before first) second := by
  induction first generalizing before with
  | nil => rfl
  | cons entry rest inductionHypothesis => exact inductionHypothesis (digest entry)

theorem linked_append (before : H) (first second : List E) :
    Linked prev digest before (first ++ second) ↔
      Linked prev digest before first ∧ Linked prev digest (tip digest before first) second := by
  induction first generalizing before with
  | nil => exact ⟨fun linked => ⟨trivial, linked⟩, fun both => both.2⟩
  | cons entry rest inductionHypothesis =>
      constructor
      · rintro ⟨named, linked⟩
        have both := (inductionHypothesis (digest entry)).mp linked
        exact ⟨⟨named, both.1⟩, both.2⟩
      · rintro ⟨⟨named, linked⟩, later⟩
        exact ⟨named, (inductionHypothesis (digest entry)).mpr ⟨linked, later⟩⟩

/-- So many of the entries lead from genesis to a digest, in whatever order they were made. -/
inductive Reaches (genesis : H) (entries : List E) : Nat -> H -> Prop
  | genesis : Reaches genesis entries 0 genesis
  | entry {count : Nat} {entry : E} (member : entry ∈ entries)
      (before : Reaches genesis entries count (prev entry)) : Reaches genesis entries (count + 1) (digest entry)

variable {prev digest}

/-- In the middle of a chain, an entry names the digest of the one before. -/
theorem prev_of_linked {before : H} (first second : List E) {entry next : E} {entries : List E}
    (linked : Linked prev digest before entries)
    (split : entries = first ++ entry :: next :: second) : prev next = digest entry := by
  rw [split] at linked
  exact ((linked_append prev digest before first _).mp linked).2.2.1

/-- The predecessors of a chain and its tip are its start and its digests. -/
theorem prev_append_tip {before : H} {entries : List E} (linked : Linked prev digest before entries) :
    entries.map prev ++ [tip digest before entries] = before :: entries.map digest := by
  induction entries generalizing before with
  | nil => rfl
  | cons entry rest inductionHypothesis =>
      rw [List.map_cons, List.cons_append, linked.1, List.map_cons]
      exact congrArg (List.cons before) (inductionHypothesis linked.2)

/-- The predecessor of an entry is the digest one place before, or the start. -/
theorem prev_getElem {before : H} {entries : List E} (linked : Linked prev digest before entries)
    {place : Nat} (inside : place < entries.length) :
    some (prev entries[place]) = (before :: entries.map digest)[place]? := by
  rw [← prev_append_tip linked, List.getElem?_append_left (by simpa using inside),
    List.getElem?_map, List.getElem?_eq_getElem inside]
  rfl

/-- More entries lead further, and no less far. -/
theorem Reaches.append {genesis : H} {entries : List E} {count : Nat} {hash : H}
    (reached : Reaches prev digest genesis entries count hash) (more : List E) :
    Reaches prev digest genesis (entries ++ more) count hash := by
  induction reached with
  | genesis => exact .genesis
  | entry member _ inductionHypothesis => exact .entry (List.mem_append_left more member) inductionHypothesis

/-- Without collisions, a digest is a number of entries away from genesis. -/
theorem count_unique {genesis : H} {entries : List E}
    (binding : ∀ a ∈ entries, ∀ b ∈ entries, digest a = digest b -> prev a = prev b)
    (fresh : ∀ a ∈ entries, digest a ≠ genesis) {first second : Nat} {one other : H}
    (reached : Reaches prev digest genesis entries first one)
    (again : Reaches prev digest genesis entries second other) (same : one = other) : first = second := by
  induction reached generalizing second other with
  | genesis =>
      cases again with
      | genesis => rfl
      | entry member _ => exact (fresh _ member same.symm).elim
  | entry member _ inductionHypothesis =>
      cases again with
      | genesis => exact (fresh _ member same).elim
      | entry memberOther before =>
          exact congrArg (· + 1) (inductionHypothesis before (binding _ member _ memberOther same))

section Distinct

variable {genesis : H} {entries : List E} (linked : Linked prev digest genesis entries)
  (binding : ∀ a ∈ entries, ∀ b ∈ entries, digest a = digest b -> prev a = prev b)
  (fresh : ∀ a ∈ entries, digest a ≠ genesis)
include linked binding fresh

/-- Two equal digests would lead back, step by step, to the genesis value. -/
theorem digest_ne {first middle last : List E} {a b : E}
    (split : entries = first ++ a :: (middle ++ b :: last)) : digest a ≠ digest b := by
  induction first using List.reverseRecOn generalizing middle last a b with
  | nil =>
      intro equal
      have named := binding a (by simp [split]) b (by simp [split]) equal
      have start : prev a = genesis := by
        rw [split] at linked
        exact linked.1
      rcases List.eq_nil_or_concat middle with rfl | ⟨front, c, rfl⟩
      · have before := prev_of_linked [] last linked split
        exact fresh a (by simp [split]) (before.symm.trans (named.symm.trans start))
      · have place : entries = a :: front ++ c :: b :: last := by simpa using split
        have before := prev_of_linked (a :: front) last linked place
        exact fresh c (by simp [split]) (before.symm.trans (named.symm.trans start))
  | append_singleton front c inductionHypothesis =>
      intro equal
      have named := binding a (by simp [split]) b (by simp [split]) equal
      have placeA : entries = front ++ c :: a :: (middle ++ b :: last) := by simpa using split
      have beforeA := prev_of_linked front _ linked placeA
      rcases List.eq_nil_or_concat middle with rfl | ⟨inner, d, rfl⟩
      · have placeB : entries = (front ++ [c]) ++ a :: b :: last := by simpa using split
        have beforeB := prev_of_linked (front ++ [c]) last linked placeB
        have pair : entries = front ++ c :: ([] ++ a :: b :: last) := placeA
        exact inductionHypothesis pair (beforeA.symm.trans (named.trans beforeB))
      · have placeB : entries = (front ++ [c] ++ a :: inner) ++ d :: b :: last := by
          simpa using split
        have beforeB := prev_of_linked (front ++ [c] ++ a :: inner) last linked placeB
        have pair : entries = front ++ c :: ((a :: inner) ++ d :: b :: last) := by
          simpa using split
        exact inductionHypothesis pair (beforeA.symm.trans (named.trans beforeB))

/-- No digest of the chain repeats. -/
theorem nodup_digest : (entries.map digest).Nodup := by
  have later : ∀ second first, entries = first ++ second -> (second.map digest).Nodup := by
    intro second
    induction second with
    | nil => exact fun _ _ => List.nodup_nil
    | cons a rest inductionHypothesis =>
        intro first split
        rw [List.map_cons, List.nodup_cons]
        refine ⟨?_, inductionHypothesis (first ++ [a]) (by simpa using split)⟩
        intro repeated
        rcases List.mem_map.mp repeated with ⟨b, member, equal⟩
        rcases List.append_of_mem member with ⟨middle, last, rfl⟩
        exact digest_ne linked binding fresh split equal.symm
  exact later entries [] rfl

theorem nodup_genesis_digest : (genesis :: entries.map digest).Nodup := by
  rw [List.nodup_cons]
  refine ⟨?_, nodup_digest linked binding fresh⟩
  intro member
  rcases List.mem_map.mp member with ⟨a, here, equal⟩
  exact fresh a here equal

/-- No entry follows itself or a later one. -/
theorem prev_ne_digest {place later : Nat} (order : place ≤ later) (inside : later < entries.length) :
    prev (entries.get ⟨place, order.trans_lt inside⟩) ≠ digest entries[later] := by
  intro equal
  rw [List.get_eq_getElem] at equal
  have atPlace := prev_getElem linked (order.trans_lt inside)
  have atLater : (genesis :: entries.map digest)[later + 1]? = some (digest entries[later]) := by
    simp [inside]
  rw [equal, ← atLater] at atPlace
  have whole := nodup_genesis_digest linked binding fresh
  have places := (List.getElem?_inj (by simpa using inside) whole).mp atPlace
  omega

/-- An entry is found at one place only. -/
theorem split_unique {first second front back : List E} {a b : E}
    (split : entries = first ++ a :: second) (other : entries = front ++ b :: back)
    (equal : digest a = digest b) : first = front ∧ a = b ∧ second = back := by
  rcases List.append_eq_append_iff.mp (split.symm.trans other) with
    ⟨middle, frontEq, tail⟩ | ⟨middle, firstEq, tail⟩
  · cases middle with
    | nil =>
        have heads := List.cons.inj tail
        exact ⟨by rw [frontEq, List.append_nil], heads.1, heads.2⟩
    | cons c middle =>
        have heads := List.cons.inj tail
        rw [heads.2] at split
        exact absurd equal (digest_ne linked binding fresh split)
  · cases middle with
    | nil =>
        have heads := List.cons.inj tail
        exact ⟨by rw [firstEq, List.append_nil], heads.1.symm, heads.2.symm⟩
    | cons c middle =>
        have heads := List.cons.inj tail
        rw [heads.2] at other
        exact absurd equal.symm (digest_ne linked binding fresh other)

/-- Whatever names the digest of an entry is the next entry. -/
theorem next_unique {first second : List E} {a next : E} (split : entries = first ++ a :: second)
    (member : next ∈ entries) (named : prev next = digest a) :
    ∃ later, second = next :: later := by
  rcases List.append_of_mem member with ⟨front, back, place⟩
  rcases List.eq_nil_or_concat front with rfl | ⟨before, c, rfl⟩
  · have start : prev next = genesis := by
      rw [place] at linked
      exact linked.1
    exact absurd (named.symm.trans start) (fresh a (by simp [split]))
  · have placeC : entries = before ++ c :: next :: back := by simpa using place
    have predecessor := prev_of_linked before back linked placeC
    have same := split_unique linked binding fresh split placeC (named.symm.trans predecessor)
    exact ⟨back, same.2.2⟩

/-- Entries that are linked to each other follow one another in the chain. -/
theorem linked_isPrefix {first second seen : List E} {a : E}
    (split : entries = first ++ a :: second) (members : ∀ e ∈ seen, e ∈ entries)
    (follows : Linked prev digest (digest a) seen) : seen <+: second := by
  induction seen generalizing first second a with
  | nil => exact List.nil_prefix
  | cons next rest inductionHypothesis =>
      rcases next_unique linked binding fresh split (members next List.mem_cons_self) follows.1 with
        ⟨later, rfl⟩
      have place : entries = (first ++ [a]) ++ next :: later := by simpa using split
      have tail : rest <+: later := inductionHypothesis place
        (fun e member => members e (List.mem_cons_of_mem _ member)) follows.2
      exact List.cons_prefix_cons.mpr ⟨rfl, tail⟩

/-- A linked selection of entries, wherever it starts, is a contiguous part of
the chain. -/
theorem linked_isInfix {seen : List E} (members : ∀ e ∈ seen, e ∈ entries) {before : H}
    (follows : Linked prev digest before seen) : seen <:+: entries := by
  cases seen with
  | nil => exact List.nil_infix
  | cons a rest =>
      rcases List.append_of_mem (members a List.mem_cons_self) with ⟨first, second, split⟩
      rcases linked_isPrefix linked binding fresh split
        (fun e member => members e (List.mem_cons_of_mem _ member)) follows.2 with ⟨later, rfl⟩
      exact ⟨first, later, by simp [split]⟩

end Distinct

/-- Chains that end in one digest agree from the end backwards, as far as the
digest determines the entries.  The condition is asked position by position. -/
theorem agree_of_tip {C R : E -> E -> Prop} {left right : List E} {before other : H}
    (conditions : List.Forall₂ C left right)
    (linked : Linked prev digest before left) (linkedOther : Linked prev digest other right)
    (ends : tip digest before left = tip digest other right)
    (determines : ∀ a ∈ left, ∀ b ∈ right, C a b -> digest a = digest b ->
      R a b ∧ prev a = prev b) :
    List.Forall₂ R left right ∧ before = other := by
  induction conditions generalizing before other with
  | nil => exact ⟨List.Forall₂.nil, ends⟩
  | cons condition rest inductionHypothesis =>
      rename_i a b left right
      have tails := inductionHypothesis linked.2 linkedOther.2 ends
        (fun c cMember d dMember => determines c (List.mem_cons_of_mem _ cMember) d
          (List.mem_cons_of_mem _ dMember))
      have heads := determines a List.mem_cons_self b List.mem_cons_self condition tails.2
      refine ⟨List.Forall₂.cons heads.1 tails.1, ?_⟩
      calc before = prev a := linked.1.symm
        _ = prev b := heads.2
        _ = other := linkedOther.1

end LinkChain
end Foundation
