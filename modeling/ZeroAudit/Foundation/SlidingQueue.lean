import Mathlib.Algebra.Order.Group.Defs
import Mathlib.Data.List.Induction
import Mathlib.Data.List.TakeWhile
import Mathlib.Data.Multiset.ZeroCons

namespace Foundation
namespace SlidingQueue

/-!
# A queue that is pruned from its front

A queue holds what has arrived, in the order of arrival.  Each arrival has a
cutoff, which lies at or below it, and drops what lies below the cutoff from the
front, up to the first item that does not.  The arrivals need not be in order.

An item is therefore lost exactly if a later arrival has overtaken it and all that
came before it.  An item that is still current may be lost this way, and one that
is not may be kept behind a newer one.
-/

/-- Two readings of a list differ by what only one of them counts. -/
theorem countP_add_countP_not {α : Type*} (counted wanted : α -> Bool) (items : List α) :
    items.countP counted + items.countP (fun item => wanted item && !counted item) =
      items.countP wanted + items.countP (fun item => counted item && !wanted item) := by
  induction items with
  | nil => rfl
  | cons item rest inductionHypothesis =>
      simp only [List.countP_cons]
      cases counted item <;> cases wanted item <;> simp <;> omega

variable {α : Type*} [LinearOrder α] (cutoff : α -> α)

/-- Enter one item and drop from the front what lies below its cutoff. -/
def push (queue : List α) (item : α) : List α :=
  (queue ++ [item]).dropWhile fun other => decide (other < cutoff item)

/-- The queue after all arrivals. -/
def queueOf (arrivals : List α) : List α :=
  arrivals.foldl (push cutoff) []

/-- One of the newer items has all of the older ones below its cutoff. -/
def Overtaken (older newer : List α) : Prop :=
  ∃ late ∈ newer, ∀ early ∈ older, early < cutoff late

instance (older newer : List α) : Decidable (Overtaken cutoff older newer) := by
  unfold Overtaken
  infer_instance

/-- The arrivals that are overtaken together with all before them. -/
def overtaken (past : List α) : List α -> List α
  | [] => []
  | own :: later =>
      if Overtaken cutoff (past ++ [own]) later then own :: overtaken (past ++ [own]) later
      else overtaken (past ++ [own]) later

/-- The other arrivals. -/
def survivors (past : List α) : List α -> List α
  | [] => []
  | own :: later =>
      if Overtaken cutoff (past ++ [own]) later then survivors (past ++ [own]) later
      else own :: survivors (past ++ [own]) later

/-- Each arrival is one of both. -/
theorem countP_overtaken_add_survivors (counted : α -> Bool) (past arrivals : List α) :
    (overtaken cutoff past arrivals).countP counted + (survivors cutoff past arrivals).countP counted =
      arrivals.countP counted := by
  induction arrivals generalizing past with
  | nil => rfl
  | cons own later inductionHypothesis =>
      have rest := inductionHypothesis (past ++ [own])
      unfold overtaken survivors
      split
      · rw [List.countP_cons, List.countP_cons]
        omega
      · rw [List.countP_cons, List.countP_cons]
        omega

/-! ## What is dropped -/

/-- What has been dropped lies below the head of the queue and has been overtaken, and
nothing in the queue has its cutoff above the head. -/
structure Pruned (dropped queue : List α) : Prop where
  below : ∀ old ∈ dropped, ∀ head ∈ queue.head?, old < head
  passed : dropped = [] ∨ Overtaken cutoff dropped queue
  current : ∀ item ∈ queue, ∀ head ∈ queue.head?, cutoff item ≤ head

variable {cutoff}

theorem pruned_nil : Pruned cutoff [] [] where
  below := fun _ member => (List.not_mem_nil member).elim
  passed := Or.inl rfl
  current := fun _ member => (List.not_mem_nil member).elim

/-- The arrival itself stays. -/
theorem mem_push (atOrBelow : ∀ item, cutoff item ≤ item) (queue : List α) (item : α) :
    item ∈ push cutoff queue item := by
  unfold push
  induction queue with
  | nil => simp [atOrBelow item]
  | cons first rest inductionHypothesis =>
      rw [List.cons_append, List.dropWhile_cons]
      split
      · exact inductionHypothesis
      · exact List.mem_cons_of_mem _ (List.mem_append_right _ (List.mem_singleton_self item))

theorem push_ne_nil (atOrBelow : ∀ item, cutoff item ≤ item) (queue : List α) (item : α) :
    push cutoff queue item ≠ [] :=
  List.ne_nil_of_mem (mem_push atOrBelow queue item)

/-- Nothing else that is dropped makes up for the item that is entered. -/
theorem push_ne (atOrBelow : ∀ item, cutoff item ≤ item) (queue : List α) (item : α) :
    push cutoff queue item ≠ queue := by
  intro same
  unfold push at same
  cases queue with
  | nil =>
      have inside := mem_push atOrBelow [] item
      unfold push at inside
      rw [same] at inside
      exact List.not_mem_nil inside
  | cons first rest =>
      rw [List.cons_append, List.dropWhile_cons] at same
      split at same
      · next old =>
          have suffix : ((rest ++ [item]).dropWhile fun other => decide (other < cutoff item)) <:+
              rest ++ [item] := List.dropWhile_suffix _
          rw [same] at suffix
          have whole : first :: rest = rest ++ [item] := suffix.eq_of_length (by simp)
          have bags : (first ::ₘ (rest : Multiset α)) = item ::ₘ (rest : Multiset α) := by
            rw [Multiset.cons_coe, Multiset.cons_coe, Multiset.coe_eq_coe, whole]
            exact List.perm_append_singleton item rest
          have equal : first = item := (Multiset.cons_inj_left _).mp bags
          rw [equal] at old
          exact absurd (of_decide_eq_true old) (not_lt.mpr (atOrBelow item))
      · have lengths := congrArg List.length same
        simp at lengths

/-- What is current behind older items stays behind them. -/
theorem push_of_current {older current : List α} {item : α} (recent : ∀ other ∈ current, cutoff item ≤ other)
    (own : cutoff item ≤ item) : ∃ rest, push cutoff (older ++ current) item = rest ++ (current ++ [item]) := by
  induction older with
  | nil =>
      refine ⟨[], ?_⟩
      unfold push
      rw [List.nil_append, List.nil_append]
      cases current with
      | nil => simp [own]
      | cons first rest => simp [recent first List.mem_cons_self]
  | cons old older inductionHypothesis =>
      rcases inductionHypothesis with ⟨rest, pushed⟩
      unfold push at pushed ⊢
      rw [List.cons_append, List.cons_append, List.dropWhile_cons]
      split
      · exact ⟨rest, pushed⟩
      · exact ⟨old :: older, by simp⟩

/-- The head that is left does not lie below the cutoff. -/
theorem cutoff_le_head {queue : List α} {item head : α} (first : head ∈ (push cutoff queue item).head?) :
    cutoff item ≤ head := by
  have stopped := List.head?_dropWhile_not (fun other => decide (other < cutoff item)) (queue ++ [item])
  unfold push at first
  rw [Option.mem_def] at first
  rw [first] at stopped
  simpa using stopped

theorem overtaken_mono {older newer more : List α} (passed : Overtaken cutoff older newer)
    (kept : ∀ late ∈ newer, late ∈ more) : Overtaken cutoff older more := by
  rcases passed with ⟨late, member, all⟩
  exact ⟨late, kept late member, all⟩

/-- Where the head is dropped, everything before it lies below the cutoff as well. -/
theorem below_cutoff {dropped rest : List α} {head item : α}
    (pruned : Pruned cutoff dropped (head :: rest)) (old : head < cutoff item) :
    ∀ early ∈ dropped ++ (head :: rest ++ [item]).takeWhile (fun other => decide (other < cutoff item)),
      early < cutoff item := by
  intro early member
  rcases List.mem_append.mp member with before | front
  · exact (pruned.below early before head rfl).trans old
  · have passes := List.mem_takeWhile_imp front
    exact of_decide_eq_true passes

/-- The first arrival. -/
theorem pruned_first (atOrBelow : ∀ item, cutoff item ≤ item) (item : α) : Pruned cutoff [] [item] := by
  constructor
  · exact fun _ member => (List.not_mem_nil member).elim
  · exact Or.inl rfl
  · intro other member head first
    cases List.mem_singleton.mp member
    cases first
    exact atOrBelow item

/-- An arrival that finds the head current drops nothing. -/
theorem pruned_kept {dropped rest : List α} {first item : α} (pruned : Pruned cutoff dropped (first :: rest))
    (recent : cutoff item ≤ first) : Pruned cutoff dropped (first :: rest ++ [item]) := by
  constructor
  · exact pruned.below
  · rcases pruned.passed with nothing | passed
    · exact Or.inl nothing
    · exact Or.inr (overtaken_mono passed fun late member => List.mem_append_left [item] member)
  · intro other member head left
    cases left
    rcases List.mem_append.mp member with known | last
    · exact pruned.current other known first rfl
    · cases List.mem_singleton.mp last
      exact recent

/-- An arrival that finds the head old overtakes all that it drops and all that was dropped. -/
theorem pruned_dropped (atOrBelow : ∀ item, cutoff item ≤ item) {dropped rest : List α} {first item : α}
    (pruned : Pruned cutoff dropped (first :: rest)) (old : first < cutoff item) :
    Pruned cutoff
      (dropped ++ (first :: rest ++ [item]).takeWhile fun other => decide (other < cutoff item))
      (push cutoff (first :: rest) item) := by
  have all := below_cutoff pruned old
  constructor
  · intro early member head left
    exact (all early member).trans_le (cutoff_le_head left)
  · exact Or.inr ⟨item, mem_push atOrBelow _ item, all⟩
  · intro other member head left
    have before : other ∈ first :: rest ++ [item] := (List.dropWhile_sublist _).subset member
    rcases List.mem_append.mp before with known | last
    · have atFirst := pruned.current other known first rfl
      exact (atFirst.trans_lt old).le.trans (cutoff_le_head left)
    · cases List.mem_singleton.mp last
      exact cutoff_le_head left

/-- One arrival keeps the invariant, with what it drops added to what was dropped. -/
theorem pruned_push (atOrBelow : ∀ item, cutoff item ≤ item) {dropped queue : List α}
    (pruned : Pruned cutoff dropped queue) (item : α) :
    Pruned cutoff
      (dropped ++ (queue ++ [item]).takeWhile fun other => decide (other < cutoff item))
      (push cutoff queue item) := by
  have own : ¬item < cutoff item := not_lt.mpr (atOrBelow item)
  cases queue with
  | nil =>
      have nothing : dropped = [] := by
        rcases pruned.passed with nothing | ⟨late, member, -⟩
        · exact nothing
        · exact (List.not_mem_nil member).elim
      have single : push cutoff [] item = [item] := by simp [push, own]
      rw [nothing, single]
      simp only [List.nil_append, List.takeWhile_cons, decide_eq_false own, Bool.false_eq_true, if_false]
      exact pruned_first atOrBelow item
  | cons first rest =>
      by_cases old : first < cutoff item
      · exact pruned_dropped atOrBelow pruned old
      · have whole : push cutoff (first :: rest) item = first :: rest ++ [item] := by
          simp [push, old]
        rw [whole, List.cons_append, List.takeWhile_cons, decide_eq_false old]
        simp only [Bool.false_eq_true, if_false, List.append_nil]
        exact pruned_kept pruned (not_lt.mp old)

theorem queueOf_append (arrivals : List α) (item : α) :
    queueOf cutoff (arrivals ++ [item]) = push cutoff (queueOf cutoff arrivals) item := by
  rw [queueOf, List.foldl_append]
  rfl

theorem queueOf_ne_nil (atOrBelow : ∀ item, cutoff item ≤ item) {arrivals : List α} (some : arrivals ≠ []) :
    queueOf cutoff arrivals ≠ [] := by
  rw [← List.dropLast_concat_getLast some, queueOf_append]
  exact push_ne_nil atOrBelow _ _

/-- All arrivals are what has been dropped, followed by the queue. -/
theorem pruned_queueOf (atOrBelow : ∀ item, cutoff item ≤ item) (arrivals : List α) :
    ∃ dropped, arrivals = dropped ++ queueOf cutoff arrivals ∧
      Pruned cutoff dropped (queueOf cutoff arrivals) := by
  induction arrivals using List.reverseRecOn with
  | nil => exact ⟨[], rfl, pruned_nil⟩
  | append_singleton arrivals item inductionHypothesis =>
      rcases inductionHypothesis with ⟨dropped, split, pruned⟩
      have pushed := pruned_push atOrBelow pruned item
      rw [← queueOf_append] at pushed
      refine ⟨_, ?_, pushed⟩
      rw [queueOf_append, push, List.append_assoc, List.takeWhile_append_dropWhile, ← List.append_assoc,
        ← split]

/-! ## The queue as the arrivals that have not been overtaken -/

/-- Where every item of the front is overtaken and none behind it, the two lists are the
front and the rest. -/
theorem parts_of_split {front back past : List α}
    (passed : ∀ before own after, front = before ++ own :: after ->
      Overtaken cutoff (past ++ before ++ [own]) (after ++ back))
    (current : ∀ before own after, back = before ++ own :: after ->
      ¬Overtaken cutoff (past ++ front ++ before ++ [own]) after) :
    overtaken cutoff past (front ++ back) = front ∧ survivors cutoff past (front ++ back) = back := by
  induction front generalizing past with
  | nil =>
      rw [List.nil_append]
      clear passed
      induction back generalizing past with
      | nil => exact ⟨rfl, rfl⟩
      | cons own rest inductionHypothesis =>
          have here : ¬Overtaken cutoff (past ++ [own]) rest := by simpa using current [] own rest rfl
          have later : overtaken cutoff (past ++ [own]) ([] ++ rest) = [] ∧
              survivors cutoff (past ++ [own]) ([] ++ rest) = rest := by
            apply inductionHypothesis
            intro before item after same
            simpa using current (own :: before) item after (by rw [same, List.cons_append])
          rw [List.nil_append] at later
          unfold overtaken survivors
          rw [if_neg here, if_neg here, later.1, later.2]
          exact ⟨rfl, rfl⟩
  | cons own rest inductionHypothesis =>
      have here : Overtaken cutoff (past ++ [own]) (rest ++ back) := by
        simpa using passed [] own rest rfl
      have later : overtaken cutoff (past ++ [own]) (rest ++ back) = rest ∧
          survivors cutoff (past ++ [own]) (rest ++ back) = back := by
        apply inductionHypothesis
        · intro before item after same
          simpa using passed (own :: before) item after (by rw [same, List.cons_append])
        · intro before item after same
          simpa using current before item after same
      rw [List.cons_append]
      unfold overtaken survivors
      rw [if_pos here, if_pos here, later.1, later.2]
      exact ⟨rfl, rfl⟩

/-- The queue holds the arrivals that have not been overtaken, in their order. -/
theorem queueOf_eq_survivors (atOrBelow : ∀ item, cutoff item ≤ item) (arrivals : List α) :
    queueOf cutoff arrivals = survivors cutoff [] arrivals := by
  rcases pruned_queueOf atOrBelow arrivals with ⟨dropped, split, pruned⟩
  have parts : survivors cutoff [] (dropped ++ queueOf cutoff arrivals) = queueOf cutoff arrivals := by
    apply And.right
    apply parts_of_split
    · intro before own after same
      rcases pruned.passed with nothing | passed
      · rw [nothing] at same
        simp at same
      · rcases passed with ⟨late, member, all⟩
        refine ⟨late, List.mem_append_right after member, ?_⟩
        intro early among
        apply all
        rw [same]
        simp only [List.nil_append, List.mem_append, List.mem_cons] at among ⊢
        tauto
    · intro before own after same
      rintro ⟨late, member, all⟩
      -- The head of the queue came no later, and no cutoff in the queue lies above it.
      have queued : late ∈ queueOf cutoff arrivals := by
        rw [same]
        exact List.mem_append_right before (List.mem_cons_of_mem own member)
      rcases List.exists_cons_of_ne_nil (List.ne_nil_of_mem queued) with ⟨head, rest, headed⟩
      have atHead := pruned.current late queued head (by rw [headed]; rfl)
      have came : head ∈ before ++ [own] := by
        rw [headed] at same
        cases before with
        | nil =>
            cases same
            exact List.mem_singleton_self _
        | cons first others =>
            cases same
            exact List.mem_cons_self
      have under := all head (by
        rw [List.append_assoc]
        exact List.mem_append_right _ came)
      exact absurd under (not_lt.mpr atHead)
  rw [← split] at parts
  exact parts.symm

/-! ## Counting -/

/-- The queue holds as many items of one kind as have arrived of another exactly if the arrivals
that are wanted and not counted, overtaken or not, are as many as the survivors that are counted
and not wanted. -/
theorem countP_queueOf_iff (atOrBelow : ∀ item, cutoff item ≤ item) (arrivals : List α)
    (counted wanted : α -> Bool) :
    (queueOf cutoff arrivals).countP counted = arrivals.countP wanted ↔
      (overtaken cutoff [] arrivals).countP wanted +
          (survivors cutoff [] arrivals).countP (fun item => wanted item && !counted item) =
        (survivors cutoff [] arrivals).countP (fun item => counted item && !wanted item) := by
  have parts := countP_add_countP_not counted wanted (survivors cutoff [] arrivals)
  rw [queueOf_eq_survivors atOrBelow, ← countP_overtaken_add_survivors cutoff wanted [] arrivals]
  omega

theorem mem_of_mem_survivors {past arrivals : List α} {item : α}
    (member : item ∈ survivors cutoff past arrivals) : item ∈ arrivals := by
  induction arrivals generalizing past with
  | nil => exact member
  | cons own later inductionHypothesis =>
      unfold survivors at member
      split at member
      · exact List.mem_cons_of_mem own (inductionHypothesis member)
      · rcases List.mem_cons.mp member with same | rest
        · exact same ▸ List.mem_cons_self
        · exact List.mem_cons_of_mem own (inductionHypothesis rest)

/-- An overtaken item lies below the cutoff of an arrival. -/
theorem below_of_mem_overtaken {past arrivals : List α} {item : α}
    (member : item ∈ overtaken cutoff past arrivals) : ∃ late ∈ arrivals, item < cutoff late := by
  induction arrivals generalizing past with
  | nil => exact (List.not_mem_nil member).elim
  | cons own later inductionHypothesis =>
      have deeper : item ∈ overtaken cutoff (past ++ [own]) later ->
          ∃ late ∈ own :: later, item < cutoff late := by
        intro rest
        rcases inductionHypothesis rest with ⟨late, among, old⟩
        exact ⟨late, List.mem_cons_of_mem own among, old⟩
      unfold overtaken at member
      split at member
      · next passed =>
          rcases List.mem_cons.mp member with same | rest
          · rcases passed with ⟨late, among, all⟩
            refine ⟨late, List.mem_cons_of_mem own among, ?_⟩
            rw [same]
            exact all own (List.mem_append_right past (List.mem_singleton_self own))
          · exact deeper rest
      · exact deeper member

/-- Up to the newest arrival nothing is lost. -/
theorem countP_queueOf_of_latest (atOrBelow : ∀ item, cutoff item ≤ item) (monotone : Monotone cutoff)
    {arrivals : List α} {stop : α} (latest : ∀ item ∈ arrivals, item ≤ stop) :
    (queueOf cutoff arrivals).countP (fun item => decide (cutoff stop < item)) =
      arrivals.countP (fun item => decide (cutoff stop < item ∧ item ≤ stop)) := by
  apply (countP_queueOf_iff atOrBelow arrivals _ _).mpr
  have lost : (overtaken cutoff [] arrivals).countP
      (fun item => decide (cutoff stop < item ∧ item ≤ stop)) = 0 := by
    rw [List.countP_eq_zero]
    intro item member counted
    rcases below_of_mem_overtaken member with ⟨late, among, old⟩
    have moved : cutoff late ≤ cutoff stop := monotone (latest late among)
    exact lt_asymm (of_decide_eq_true counted).1 (old.trans_le moved)
  have same : ∀ item ∈ survivors cutoff [] arrivals,
      decide (cutoff stop < item ∧ item ≤ stop) = decide (cutoff stop < item) := by
    intro item member
    simp only [latest item (mem_of_mem_survivors member), and_true]
  have none : ∀ {differs : α -> Bool}, (∀ item ∈ survivors cutoff [] arrivals, differs item = false) ->
      (survivors cutoff [] arrivals).countP differs = 0 := by
    intro differs all
    rw [List.countP_eq_zero]
    intro item member counted
    rw [all item member] at counted
    cases counted
  rw [lost, none, none]
  · intro item member
    rw [same item member, Bool.and_not_self]
  · intro item member
    rw [same item member, Bool.and_not_self]

end SlidingQueue
end Foundation
