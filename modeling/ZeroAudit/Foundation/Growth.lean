import Mathlib.Data.List.Sublists
import Mathlib.Order.Monotone.Defs

namespace Foundation
namespace Growth

/-!
# Stores that only grow

Every statement adds to what is there, and adds at least as much where more is there
already.  What a list of statements brings about is then not undone, or missed, by other
statements before, between and after its own, so that several programs may send theirs in
any order.  Statements whose effects are all there add nothing.
-/

variable {S A : Type*} [Preorder S] {step : S -> A -> S}

/-- A step that only grows, and no less from more. -/
structure Grows (step : S -> A -> S) : Prop where
  inflates : ∀ state statement, state ≤ step state statement
  monotone : ∀ {state larger} statement, state ≤ larger -> step state statement ≤ step larger statement

/-- Any run only adds. -/
theorem Grows.le_run (grows : Grows step) (state : S) (statements : List A) :
    state ≤ statements.foldl step state := by
  induction statements generalizing state with
  | nil => exact le_refl state
  | cons statement rest inductionHypothesis =>
      exact le_trans (grows.inflates state statement) (inductionHypothesis _)

/-- Statements in between take nothing away. -/
theorem Grows.run_le_of_sublist (grows : Grows step) {own all : List A} (part : own.Sublist all) {state larger : S}
    (le : state ≤ larger) : own.foldl step state ≤ all.foldl step larger := by
  induction part generalizing state larger with
  | slnil => exact le
  | cons statement part inductionHypothesis =>
      exact inductionHypothesis (le_trans le (grows.inflates larger statement))
  | cons_cons statement part inductionHypothesis =>
      exact inductionHypothesis (grows.monotone statement le)

/-- Statements that all add nothing to a store add nothing one after the other. -/
theorem Grows.run_le_of_settled (grows : Grows step) {statements : List A} {state settled : S}
    (adds : ∀ statement ∈ statements, step settled statement ≤ settled) (le : state ≤ settled) :
    statements.foldl step state ≤ settled := by
  induction statements generalizing state with
  | nil => exact le
  | cons statement rest inductionHypothesis =>
      apply inductionHypothesis fun other member => adds other (List.mem_cons_of_mem _ member)
      exact le_trans (grows.monotone statement le) (adds statement List.mem_cons_self)

end Growth
end Foundation
