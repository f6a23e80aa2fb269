import Mathlib.Data.Finset.Card
import Mathlib.Data.List.Dedup
import Mathlib.Data.List.Perm.Basic

namespace Foundation
namespace SeenSet

/-!
# A filter that forgets

A filter lets an item pass if it has not seen it, and has then seen it.  After a
round of offers, a filter that has seen too much keeps a number of items only, and
which ones is up to the order in which it enumerates them.

An item that was seen when the filter last forgot may therefore pass again.  The
filter repeats nothing, however it enumerates, exactly if no such item is offered
again.  Whether this is so can be told from the offers alone.
-/

variable {α : Type*}

/-! ## Forgetting -/

/-- An order in which the members of a set are enumerated. -/
structure Enumeration (α : Type*) where
  order : List α -> List α
  perm : ∀ seen, (order seen).Perm seen

/-- The last members of an enumeration, where there are too many. -/
def trim (limit kept : Nat) (enumeration : Enumeration α) (seen : List α) : List α :=
  if limit < seen.length then
    (enumeration.order seen).drop ((enumeration.order seen).length - kept)
  else seen

/-- What is kept was there, and nothing is kept twice. -/
theorem mem_of_mem_trim {limit kept : Nat} {enumeration : Enumeration α} {seen : List α} {item : α}
    (member : item ∈ trim limit kept enumeration seen) : item ∈ seen := by
  unfold trim at member
  split at member
  · exact (enumeration.perm seen).mem_iff.mp (List.mem_of_mem_drop member)
  · exact member

theorem nodup_trim {limit kept : Nat} {enumeration : Enumeration α} {seen : List α}
    (nodup : seen.Nodup) : (trim limit kept enumeration seen).Nodup := by
  unfold trim
  split
  · apply List.Nodup.sublist (List.drop_sublist ..)
    exact (enumeration.perm seen).nodup_iff.mpr nodup
  · exact nodup

theorem length_trim {limit kept : Nat} (below : kept ≤ limit) {enumeration : Enumeration α}
    {seen : List α} (many : limit < seen.length) :
    (trim limit kept enumeration seen).length = kept := by
  unfold trim
  rw [if_pos many, List.length_drop, (enumeration.perm seen).length_eq]
  omega

theorem trim_of_few {limit kept : Nat} {enumeration : Enumeration α} {seen : List α}
    (few : ¬ limit < seen.length) : trim limit kept enumeration seen = seen := by
  unfold trim
  rw [if_neg few]

/-! ## Accounting -/

/-- The items that were offered, those among them that were when the filter last forgot,
and the number of items that it has not forgotten. -/
structure Account (α : Type*) where
  offered : Finset α
  stale : Finset α
  count : Nat

def Account.start : Account α := ⟨∅, ∅, 0⟩

/-- The seen set agrees with the account. -/
structure Agrees (seen : List α) (account : Account α) : Prop where
  nodup : seen.Nodup
  offered : ∀ item ∈ seen, item ∈ account.offered
  stale : ∀ item ∈ account.stale, item ∈ account.offered
  fresh : ∀ item ∈ account.offered, item ∉ account.stale -> item ∈ seen
  count : seen.length = account.count

theorem agrees_start : Agrees ([] : List α) Account.start where
  nodup := List.nodup_nil
  offered := fun _ member => (List.not_mem_nil member).elim
  stale := fun _ member => (Finset.notMem_empty _ member).elim
  fresh := fun _ member => (Finset.notMem_empty _ member).elim
  count := rfl

/-- An item that is not stale has been seen exactly if it was offered. -/
theorem Agrees.seen_iff {seen : List α} {account : Account α} (agrees : Agrees seen account)
    {item : α} (current : item ∉ account.stale) : item ∈ seen ↔ item ∈ account.offered := by
  constructor
  · exact agrees.offered item
  · intro offered
    exact agrees.fresh item offered current

/-- Once the filter forgets, every item is stale. -/
theorem Agrees.after_trim {limit kept : Nat} {seen : List α} {account : Account α}
    (agrees : Agrees seen account) (below : kept ≤ limit) (many : limit < seen.length)
    (enumeration : Enumeration α) :
    Agrees (trim limit kept enumeration seen) ⟨account.offered, account.offered, kept⟩ where
  nodup := nodup_trim agrees.nodup
  offered := fun item member => agrees.offered item (mem_of_mem_trim member)
  stale := fun _ member => member
  fresh := fun _ member current => absurd member current
  count := length_trim below many

variable [DecidableEq α]

/-! ## Filtering -/

/-- Let the items pass that have not been seen.  The answer is what passes, and what has
been seen afterwards. -/
def sift (seen : List α) : List α -> List α × List α
  | [] => ([], seen)
  | item :: rest =>
      if item ∈ seen then sift seen rest
      else
        let later := sift (seen ++ [item]) rest
        (item :: later.1, later.2)

/-- The items of a round, and whether it comes to its end. -/
structure Offer (α : Type*) where
  items : List α
  complete : Bool

/-- What passes in a round, and what has been seen after it. -/
def round (limit kept : Nat) (enumeration : Enumeration α) (seen : List α) (offer : Offer α) :
    List α × List α :=
  let sifted := sift seen offer.items
  (sifted.1, if offer.complete then trim limit kept enumeration sifted.2 else sifted.2)

/-- What passes in all rounds, of which each has its own enumeration. -/
def passed (limit kept : Nat) (enumerations : Nat -> Enumeration α) :
    Nat -> List α -> List (Offer α) -> List α
  | _, _, [] => []
  | rounds, seen, offer :: rest =>
      let first := round limit kept (enumerations rounds) seen offer
      first.1 ++ passed limit kept enumerations (rounds + 1) first.2 rest

/-! ## What can be told from the offers -/

/-- The account after one more round. -/
def Account.next (limit kept : Nat) (account : Account α) (offer : Offer α) : Account α :=
  let offered := account.offered ∪ offer.items.toFinset
  let count := account.count + (offer.items.toFinset \ account.offered).card
  if offer.complete ∧ limit < count then ⟨offered, offered, kept⟩
  else ⟨offered, account.stale, count⟩

/-- No round offers an item that was offered when the filter last forgot. -/
def Clear (limit kept : Nat) : Account α -> List (Offer α) -> Prop
  | _, [] => True
  | account, offer :: rest =>
      (∀ item ∈ offer.items, item ∉ account.stale) ∧ Clear limit kept (account.next limit kept offer) rest

/-! ## One round -/

theorem mem_sift_seen {seen items : List α} {item : α} :
    item ∈ (sift seen items).2 ↔ item ∈ seen ∨ item ∈ items := by
  induction items generalizing seen with
  | nil => simp [sift]
  | cons own rest inductionHypothesis =>
      unfold sift
      split
      · next known =>
          rw [inductionHypothesis, List.mem_cons]
          constructor
          · rintro (old | new)
            · exact Or.inl old
            · exact Or.inr (Or.inr new)
          · rintro (old | rfl | new)
            · exact Or.inl old
            · exact Or.inl known
            · exact Or.inr new
      · dsimp only
        rw [inductionHypothesis, List.mem_append, List.mem_singleton, List.mem_cons, or_assoc]

/-- What passes are the items that have not been seen. -/
theorem mem_sift_passed {seen items : List α} {item : α} :
    item ∈ (sift seen items).1 ↔ item ∈ items ∧ item ∉ seen := by
  induction items generalizing seen with
  | nil => simp [sift]
  | cons own rest inductionHypothesis =>
      unfold sift
      split
      · next known =>
          rw [inductionHypothesis, List.mem_cons]
          apply and_congr_left
          intro unseen
          constructor
          · exact Or.inr
          · rintro (rfl | later)
            · exact absurd known unseen
            · exact later
      · next unknown =>
          dsimp only
          rw [List.mem_cons, inductionHypothesis, List.mem_append, List.mem_singleton, List.mem_cons]
          by_cases same : item = own
          · subst same
            simp [unknown]
          · simp [same]

theorem nodup_sift {seen : List α} (nodup : seen.Nodup) (items : List α) :
    (sift seen items).1.Nodup ∧ (sift seen items).2.Nodup := by
  induction items generalizing seen with
  | nil => exact ⟨List.nodup_nil, nodup⟩
  | cons own rest inductionHypothesis =>
      unfold sift
      split
      · exact inductionHypothesis nodup
      · next unknown =>
          have more : (seen ++ [own]).Nodup := by
            rw [← List.concat_eq_append]
            exact nodup.concat unknown
          have later := inductionHypothesis more
          refine ⟨List.nodup_cons.mpr ⟨?_, later.1⟩, later.2⟩
          intro again
          exact (mem_sift_passed.mp again).2 (List.mem_append_right _ (List.mem_singleton_self own))

/-- What has been seen afterwards is larger by the items that had not been seen. -/
theorem length_sift {seen : List α} (nodup : seen.Nodup) (items : List α) :
    (sift seen items).2.length = seen.length + (items.toFinset \ seen.toFinset).card := by
  have union : (sift seen items).2.toFinset = items.toFinset ∪ seen.toFinset := by
    ext item
    rw [Finset.mem_union, List.mem_toFinset, List.mem_toFinset, List.mem_toFinset, mem_sift_seen]
    exact or_comm
  rw [← List.toFinset_card_of_nodup (nodup_sift nodup items).2, union,
    ← Finset.card_sdiff_add_card, List.toFinset_card_of_nodup nodup, Nat.add_comm]

theorem Account.offered_next (limit kept : Nat) (account : Account α) (offer : Offer α) :
    (account.next limit kept offer).offered = account.offered ∪ offer.items.toFinset := by
  unfold next
  dsimp only
  split
  · rfl
  · rfl

namespace Agrees

variable {limit kept : Nat} {seen : List α} {account : Account α} {offer : Offer α}

/-- The number that is told from the offers is the number of items seen. -/
theorem length_sift (agrees : Agrees seen account)
    (clear : ∀ item ∈ offer.items, item ∉ account.stale) :
    (sift seen offer.items).2.length =
      account.count + (offer.items.toFinset \ account.offered).card := by
  have same : offer.items.toFinset \ seen.toFinset = offer.items.toFinset \ account.offered := by
    ext item
    rw [Finset.mem_sdiff, Finset.mem_sdiff, List.mem_toFinset, List.mem_toFinset]
    apply and_congr_right
    intro member
    rw [agrees.seen_iff (clear item member)]
  rw [SeenSet.length_sift agrees.nodup, agrees.count, same]

/-- After the items of an offer, the seen set agrees with the account in which it is
entered. -/
theorem after_sift (agrees : Agrees seen account) (clear : ∀ item ∈ offer.items, item ∉ account.stale) :
    Agrees (sift seen offer.items).2
      ⟨account.offered ∪ offer.items.toFinset, account.stale,
        account.count + (offer.items.toFinset \ account.offered).card⟩ where
  nodup := (nodup_sift agrees.nodup offer.items).2
  offered := by
    intro item member
    rw [Finset.mem_union, List.mem_toFinset]
    rcases mem_sift_seen.mp member with old | new
    · exact Or.inl (agrees.offered item old)
    · exact Or.inr new
  stale := fun item member => Finset.mem_union_left _ (agrees.stale item member)
  fresh := by
    intro item member current
    rw [Finset.mem_union, List.mem_toFinset] at member
    apply mem_sift_seen.mpr
    rcases member with old | new
    · exact Or.inl (agrees.fresh item old current)
    · exact Or.inr new
  count := agrees.length_sift clear

/-- A round without stale items keeps the agreement, however the filter enumerates. -/
theorem after_round (agrees : Agrees seen account) (below : kept ≤ limit)
    (clear : ∀ item ∈ offer.items, item ∉ account.stale) (enumeration : Enumeration α) :
    Agrees (round limit kept enumeration seen offer).2 (account.next limit kept offer) := by
  have sifted := agrees.after_sift clear
  unfold round Account.next
  dsimp only
  rw [← agrees.length_sift clear]
  by_cases forgets : offer.complete ∧ limit < (sift seen offer.items).2.length
  · rw [if_pos forgets, if_pos forgets.1]
    exact sifted.after_trim below forgets.2 enumeration
  · rw [if_neg forgets, agrees.length_sift clear]
    split
    · next complete =>
        rw [trim_of_few fun many => forgets ⟨complete, many⟩]
        exact sifted
    · exact sifted

end Agrees

/-! ## All rounds -/

/-- Without stale items nothing passes that was offered before, and nothing passes
twice. -/
theorem nodup_passed {limit kept : Nat} (below : kept ≤ limit) {offers : List (Offer α)}
    {account : Account α} (clear : Clear limit kept account offers) {seen : List α}
    (agrees : Agrees seen account) (enumerations : Nat -> Enumeration α) (rounds : Nat) :
    (passed limit kept enumerations rounds seen offers).Nodup ∧
      ∀ item ∈ passed limit kept enumerations rounds seen offers, item ∉ account.offered := by
  induction offers generalizing account seen rounds with
  | nil => exact ⟨List.nodup_nil, fun _ member => (List.not_mem_nil member).elim⟩
  | cons offer rest inductionHypothesis =>
      rcases clear with ⟨here, rest⟩
      rcases inductionHypothesis rest (agrees.after_round below here (enumerations rounds)) (rounds + 1) with
        ⟨nodup, new⟩
      have newer : ∀ item ∈ (sift seen offer.items).1, item ∉ account.offered := by
        intro item member offered
        rcases mem_sift_passed.mp member with ⟨item_offered, unseen⟩
        exact unseen (agrees.fresh item offered (here item item_offered))
      unfold passed
      dsimp only
      constructor
      · refine List.nodup_append.mpr ⟨(nodup_sift agrees.nodup offer.items).1, nodup, ?_⟩
        rintro item first _ later rfl
        apply new item later
        rw [Account.offered_next]
        exact Finset.mem_union_right _ (List.mem_toFinset.mpr (mem_sift_passed.mp first).1)
      · intro item member
        rcases List.mem_append.mp member with first | later
        · exact newer item first
        · intro offered
          apply new item later
          rw [Account.offered_next]
          exact Finset.mem_union_left _ offered

/-! ## An enumeration against an item -/

/-- The enumeration that names one item first. -/
def Enumeration.putFirst (item : α) : Enumeration α where
  order := fun seen => if item ∈ seen then item :: seen.erase item else seen
  perm := by
    intro seen
    split
    · next member => exact (List.perm_cons_erase member).symm
    · rfl

/-- The item that is named first is forgotten. -/
theorem notMem_trim_putFirst {limit kept : Nat} (below : kept ≤ limit) {seen : List α}
    (nodup : seen.Nodup) (many : limit < seen.length) (item : α) :
    item ∉ trim limit kept (Enumeration.putFirst item) seen := by
  by_cases member : item ∈ seen
  · have length : (item :: seen.erase item).length = seen.length :=
      (List.perm_cons_erase member).symm.length_eq
    rcases Nat.exists_eq_add_of_lt (Nat.lt_of_le_of_lt below many) with ⟨more, excess⟩
    have dropped : seen.length - kept = more + 1 := by omega
    unfold trim Enumeration.putFirst
    dsimp only
    rw [if_pos many, if_pos member, length, dropped, List.drop_succ_cons]
    intro kept
    exact nodup.not_mem_erase (List.mem_of_mem_drop kept)
  · intro kept
    exact member (mem_of_mem_trim kept)

/-- A stale item stays unseen if it is always named first. -/
theorem Agrees.hidden_round {limit kept : Nat} {seen : List α} {account : Account α} {offer : Offer α}
    (agrees : Agrees seen account) (below : kept ≤ limit)
    (clear : ∀ item ∈ offer.items, item ∉ account.stale) {item : α}
    (hidden : item ∈ account.stale -> item ∉ seen) :
    item ∈ (account.next limit kept offer).stale ->
      item ∉ (round limit kept (Enumeration.putFirst item) seen offer).2 := by
  have length := agrees.length_sift clear
  unfold Account.next round
  dsimp only
  rw [← length]
  by_cases forgets : offer.complete ∧ limit < (sift seen offer.items).2.length
  · rw [if_pos forgets, if_pos forgets.1]
    intro _
    exact notMem_trim_putFirst below (nodup_sift agrees.nodup offer.items).2 forgets.2 item
  · rw [if_neg forgets]
    intro stale later
    have member : item ∈ (sift seen offer.items).2 := by
      split at later
      · exact mem_of_mem_trim later
      · exact later
    rcases mem_sift_seen.mp member with old | new
    · exact hidden stale old
    · exact clear item new stale

/-- The first round that offers a stale item offers this one. -/
def Returns (limit kept : Nat) (item : α) : Account α -> List (Offer α) -> Prop
  | _, [] => False
  | account, offer :: rest =>
      item ∈ offer.items ∧ item ∈ account.stale ∨
        (∀ own ∈ offer.items, own ∉ account.stale) ∧
          Returns limit kept item (account.next limit kept offer) rest

theorem exists_returns_of_not_clear {limit kept : Nat} {offers : List (Offer α)} {account : Account α}
    (unclear : ¬ Clear limit kept account offers) : ∃ item, Returns limit kept item account offers := by
  induction offers generalizing account with
  | nil => exact absurd trivial unclear
  | cons offer rest inductionHypothesis =>
      by_cases clear : ∀ item ∈ offer.items, item ∉ account.stale
      · rcases inductionHypothesis fun later => unclear ⟨clear, later⟩ with ⟨item, later⟩
        exact ⟨item, Or.inr ⟨clear, later⟩⟩
      · push Not at clear
        rcases clear with ⟨item, here, stale⟩
        exact ⟨item, Or.inl ⟨here, stale⟩⟩

/-- An item of the offer that has not been seen passes. -/
theorem count_round_pos (limit kept : Nat) (enumeration : Enumeration α) {seen : List α}
    {offer : Offer α} {item : α} (here : item ∈ offer.items) (unseen : item ∉ seen) :
    0 < (round limit kept enumeration seen offer).1.count item :=
  List.count_pos_iff.mpr (mem_sift_passed.mpr ⟨here, unseen⟩)

/-- A stale item that returns passes twice, or passes and was offered before, if it is
always named first. -/
theorem repeats_of_returns {limit kept : Nat} (below : kept ≤ limit) {offers : List (Offer α)}
    {account : Account α} {item : α} (returns : Returns limit kept item account offers) {seen : List α}
    (agrees : Agrees seen account) (hidden : item ∈ account.stale -> item ∉ seen) (rounds : Nat) :
    2 ≤ (if item ∈ account.offered then 1 else 0) +
      (passed limit kept (fun _ => Enumeration.putFirst item) rounds seen offers).count item := by
  induction offers generalizing account seen rounds with
  | nil => cases returns
  | cons offer rest inductionHypothesis =>
      rw [passed, List.count_append]
      rcases returns with ⟨here, stale⟩ | ⟨clear, returns⟩
      · have once := count_round_pos limit kept (Enumeration.putFirst item) here (hidden stale)
        rw [if_pos (agrees.stale item stale)]
        omega
      · have later := inductionHypothesis returns
          (agrees.after_round below clear (Enumeration.putFirst item))
          (agrees.hidden_round below clear hidden) (rounds + 1)
        rw [Account.offered_next] at later
        by_cases old : item ∈ account.offered
        · rw [if_pos (Finset.mem_union_left _ old)] at later
          rw [if_pos old]
          omega
        · rw [if_neg old]
          by_cases here : item ∈ offer.items
          · have unseen : item ∉ seen := fun known => old (agrees.offered item known)
            have once := count_round_pos limit kept (Enumeration.putFirst item) here unseen
            rw [if_pos (Finset.mem_union_right _ (List.mem_toFinset.mpr here))] at later
            omega
          · have new : item ∉ account.offered ∪ offer.items.toFinset := by
              rw [Finset.mem_union, List.mem_toFinset]
              exact not_or.mpr ⟨old, here⟩
            rw [if_neg new] at later
            omega

theorem not_nodup_passed {limit kept : Nat} (below : kept ≤ limit) {offers : List (Offer α)} {item : α}
    (returns : Returns limit kept item .start offers) :
    ¬ (passed limit kept (fun _ => Enumeration.putFirst item) 0 [] offers).Nodup := by
  intro nodup
  have twice := repeats_of_returns below returns agrees_start (fun _ => List.not_mem_nil) 0
  have once := List.nodup_iff_count_le_one.mp nodup item
  have new : item ∉ (Account.start : Account α).offered := Finset.notMem_empty item
  rw [if_neg new] at twice
  omega

/-- A filter repeats nothing, however it enumerates, exactly if no stale item is
offered. -/
theorem nodup_passed_iff_clear {limit kept : Nat} (below : kept ≤ limit) (offers : List (Offer α)) :
    (∀ enumerations, (passed limit kept enumerations 0 [] offers).Nodup) ↔
      Clear limit kept .start offers := by
  constructor
  · intro nodup
    by_contra unclear
    rcases exists_returns_of_not_clear unclear with ⟨item, returns⟩
    exact not_nodup_passed below returns (nodup fun _ => Enumeration.putFirst item)
  · intro clear enumerations
    exact (nodup_passed below clear agrees_start enumerations 0).1

/-! ## Before the filter first forgets -/

/-- The account after all rounds. -/
def Account.after (limit kept : Nat) (account : Account α) (offers : List (Offer α)) : Account α :=
  offers.foldl (Account.next limit kept) account

/-- What returns after some clear rounds returns. -/
theorem Returns.of_append {limit kept : Nat} {item : α} {account : Account α}
    {first second : List (Offer α)} (clear : Clear limit kept account first)
    (returns : Returns limit kept item (account.after limit kept first) second) :
    Returns limit kept item account (first ++ second) := by
  induction first generalizing account with
  | nil => exact returns
  | cons offer rest inductionHypothesis =>
      exact Or.inr ⟨clear.1, inductionHypothesis clear.2 returns⟩

theorem Account.offered_after (limit kept : Nat) (account : Account α) (offers : List (Offer α)) :
    (account.after limit kept offers).offered =
      account.offered ∪ (offers.flatMap Offer.items).toFinset := by
  induction offers generalizing account with
  | nil => exact (Finset.union_empty _).symm
  | cons offer rest inductionHypothesis =>
      unfold after at inductionHypothesis ⊢
      rw [List.foldl_cons, inductionHypothesis, offered_next, List.flatMap_cons, List.toFinset_append,
        Finset.union_assoc]

/-- Nothing has been forgotten. -/
structure Account.Whole (account : Account α) : Prop where
  stale : account.stale = ∅
  count : account.count = account.offered.card

omit [DecidableEq α] in
theorem Account.whole_start : (start : Account α).Whole := ⟨rfl, rfl⟩

namespace Account.Whole

variable {limit kept : Nat} {account : Account α} {offer : Offer α}

/-- The number of items that were offered decides whether the filter forgets. -/
theorem next_eq (whole : account.Whole) (limit kept : Nat) (offer : Offer α) :
    account.next limit kept offer =
      if offer.complete ∧ limit < (account.offered ∪ offer.items.toFinset).card then
        ⟨account.offered ∪ offer.items.toFinset, account.offered ∪ offer.items.toFinset, kept⟩
      else
        ⟨account.offered ∪ offer.items.toFinset, ∅, (account.offered ∪ offer.items.toFinset).card⟩ := by
  have count : account.count + (offer.items.toFinset \ account.offered).card =
      (account.offered ∪ offer.items.toFinset).card := by
    rw [whole.count, Finset.union_comm, ← Finset.card_sdiff_add_card, Nat.add_comm]
  unfold Account.next
  dsimp only
  rw [count, whole.stale]

/-- A filter that is offered no more items than it remembers forgets none of them. -/
theorem after (whole : account.Whole) {offers : List (Offer α)}
    (few : (account.offered ∪ (offers.flatMap Offer.items).toFinset).card ≤ limit) :
    Clear limit kept account offers ∧ (account.after limit kept offers).Whole := by
  induction offers generalizing account with
  | nil => exact ⟨trivial, whole⟩
  | cons offer rest inductionHypothesis =>
      rw [List.flatMap_cons, List.toFinset_append, ← Finset.union_assoc] at few
      have here : (account.offered ∪ offer.items.toFinset).card ≤ limit :=
        (Finset.card_le_card Finset.subset_union_left).trans few
      have next := whole.next_eq limit kept offer
      rw [if_neg fun forgets => absurd forgets.2 (Nat.not_lt_of_le here)] at next
      have nextWhole : (account.next limit kept offer).Whole := by
        rw [next]
        exact ⟨rfl, rfl⟩
      have later := inductionHypothesis nextWhole (by rw [offered_next]; exact few)
      refine ⟨⟨fun item _ => ?_, later.1⟩, later.2⟩
      rw [whole.stale]
      exact Finset.notMem_empty item

/-- When there are too many for the first time, all of them are stale. -/
theorem stale_next (whole : account.Whole) (complete : offer.complete = true)
    (many : limit < (account.offered ∪ offer.items.toFinset).card) :
    (account.next limit kept offer).stale = account.offered ∪ offer.items.toFinset := by
  rw [whole.next_eq, if_pos ⟨complete, many⟩]

end Account.Whole

/-- A filter that is offered no more items than it remembers has no stale items. -/
theorem clear_of_few {limit : Nat} (kept : Nat) {offers : List (Offer α)}
    (few : (offers.flatMap Offer.items).toFinset.card ≤ limit) :
    Clear limit kept .start offers ∧ (Account.start.after limit kept offers).Whole := by
  apply Account.whole_start.after
  rw [show (Account.start : Account α).offered = ∅ from rfl, Finset.empty_union]
  exact few

/-- Once it has been offered more, each item returns that is offered again in the next
round. -/
theorem returns_of_many {limit kept : Nat} {early : List (Offer α)} {crossing next : Offer α}
    (few : (early.flatMap Offer.items).toFinset.card ≤ limit)
    (many : limit < ((early ++ [crossing]).flatMap Offer.items).toFinset.card)
    (complete : crossing.complete = true) {item : α} (here : item ∈ crossing.items)
    (again : item ∈ next.items) : Returns limit kept item .start (early ++ [crossing, next]) := by
  rcases clear_of_few kept few with ⟨clear, whole⟩
  have offered := Account.offered_after limit kept (.start : Account α) early
  rw [show (Account.start : Account α).offered = ∅ from rfl, Finset.empty_union] at offered
  rw [List.flatMap_append, List.toFinset_append, List.flatMap_singleton, ← offered] at many
  refine Returns.of_append clear (Or.inr ⟨fun own _ => ?_, Or.inl ⟨again, ?_⟩⟩)
  · rw [whole.stale]
    exact Finset.notMem_empty own
  · rw [whole.stale_next complete many]
    exact Finset.mem_union_right _ (List.mem_toFinset.mpr here)

end SeenSet
end Foundation
