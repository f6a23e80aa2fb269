import Mathlib.Data.List.Basic
import Mathlib.Logic.Function.Basic

namespace Foundation
namespace Dataflow

/-!
# Graphs of operations on named values

A node applies an operation to the values of its inputs and gives its output a value.  A
graph is evaluated node by node in the order it lists them.  Where every input has been
given a value before it is read, and no name is given one twice, the evaluation finds the
one assignment of values that satisfies the equations of all nodes.  What a graph means is
then a matter of its equations, however a runtime arrives at the values.
-/

/-- An operation, the names it reads and the name of its result. -/
structure Node (Op Name : Type*) where
  op : Op
  inputs : List Name
  output : Name

/-- The values of the names that have one. -/
abbrev Env (Name V : Type*) := Name -> Option V

variable {Op Name V : Type*}

/-- The names the nodes give a value to. -/
def outputs (nodes : List (Node Op Name)) : List Name := nodes.map Node.output

@[simp] theorem outputs_nil : outputs ([] : List (Node Op Name)) = [] := rfl

@[simp] theorem outputs_cons (node : Node Op Name) (rest : List (Node Op Name)) :
    outputs (node :: rest) = node.output :: outputs rest := rfl

@[simp] theorem outputs_append (first second : List (Node Op Name)) :
    outputs (first ++ second) = outputs first ++ outputs second := List.map_append

/-! ## Scopes -/

/-- Every input is known where it is read, and no output is known before. -/
def Scoped : List Name -> List (Node Op Name) -> Prop
  | _, [] => True
  | known, node :: rest =>
      (∀ name ∈ node.inputs, name ∈ known) ∧ node.output ∉ known ∧ Scoped (known ++ [node.output]) rest

theorem scoped_append (known : List Name) (first second : List (Node Op Name)) :
    Scoped known (first ++ second) ↔ Scoped known first ∧ Scoped (known ++ outputs first) second := by
  induction first generalizing known with
  | nil => simp [Scoped]
  | cons node rest inductionHypothesis => simp [Scoped, inductionHypothesis, and_assoc]

/-- What is known is given no other value. -/
theorem Scoped.fresh {known : List Name} {nodes : List (Node Op Name)} (inScope : Scoped known nodes)
    {name : Name} (member : name ∈ known) : name ∉ outputs nodes := by
  induction nodes generalizing known with
  | nil => exact List.not_mem_nil
  | cons node rest inductionHypothesis =>
      rcases inScope with ⟨-, new, later⟩
      rw [outputs_cons, List.mem_cons, not_or]
      constructor
      · intro same
        exact new (same ▸ member)
      · exact inductionHypothesis later (List.mem_append_left _ member)

/-! ## The equations of a graph -/

section Equations

variable (meaning : Op -> List V -> Option V)

/-- What a node computes from the values of its inputs. -/
def Node.result (node : Node Op Name) (env : Env Name V) : Option V := do
  let arguments ← node.inputs.mapM env
  meaning node.op arguments

variable {meaning}

private theorem mapM_congr {names : List Name} {env other : Env Name V}
    (agree : ∀ name ∈ names, env name = other name) : names.mapM env = names.mapM other := by
  induction names with
  | nil => rfl
  | cons name rest inductionHypothesis =>
      rw [List.forall_mem_cons] at agree
      rw [List.mapM_cons, List.mapM_cons, agree.1, inductionHypothesis agree.2]

/-- A node reads nothing but its inputs. -/
theorem Node.result_congr {node : Node Op Name} {env other : Env Name V}
    (agree : ∀ name ∈ node.inputs, env name = other name) :
    node.result meaning env = node.result meaning other := by
  unfold Node.result
  rw [mapM_congr agree]

/-- An assignment that satisfies the equation of every node, and keeps what it was given
for the other names. -/
structure Solves (meaning : Op -> List V -> Option V) (env : Env Name V) (nodes : List (Node Op Name))
    (out : Env Name V) : Prop where
  frame : ∀ name ∉ outputs nodes, out name = env name
  equations : ∀ node ∈ nodes, ∃ value, node.result meaning out = some value ∧ out node.output = some value

end Equations

/-! ## Evaluation -/

section Evaluation

variable [DecidableEq Name] (meaning : Op -> List V -> Option V)

/-- Give a name a value. -/
def Env.bind (env : Env Name V) (name : Name) (value : V) : Env Name V :=
  Function.update env name (some value)

@[simp] theorem Env.bind_self (env : Env Name V) (name : Name) (value : V) :
    env.bind name value name = some value := Function.update_self ..

theorem Env.bind_of_ne {name other : Name} (differ : other ≠ name) (env : Env Name V) (value : V) :
    env.bind name value other = env other := Function.update_of_ne differ ..

/-- Evaluate the nodes in their order. -/
def evaluate : Env Name V -> List (Node Op Name) -> Option (Env Name V)
  | env, [] => some env
  | env, node :: rest =>
      (node.result meaning env).bind fun value => evaluate (env.bind node.output value) rest

variable {meaning}

theorem evaluate_cons_eq_some_iff {env out : Env Name V} {node : Node Op Name}
    {rest : List (Node Op Name)} :
    evaluate meaning env (node :: rest) = some out ↔
      ∃ value, node.result meaning env = some value ∧
        evaluate meaning (env.bind node.output value) rest = some out :=
  Option.bind_eq_some_iff

theorem evaluate_append_eq_some_iff {env out : Env Name V} {first second : List (Node Op Name)} :
    evaluate meaning env (first ++ second) = some out ↔
      ∃ middle, evaluate meaning env first = some middle ∧ evaluate meaning middle second = some out := by
  induction first generalizing env with
  | nil => simp [evaluate]
  | cons node rest inductionHypothesis =>
      rw [List.cons_append, evaluate_cons_eq_some_iff]
      constructor
      · rintro ⟨value, computed, later⟩
        rcases inductionHypothesis.mp later with ⟨middle, before, after⟩
        exact ⟨middle, evaluate_cons_eq_some_iff.mpr ⟨value, computed, before⟩, after⟩
      · rintro ⟨middle, before, after⟩
        rcases evaluate_cons_eq_some_iff.mp before with ⟨value, computed, later⟩
        exact ⟨value, computed, inductionHypothesis.mpr ⟨middle, later, after⟩⟩

/-- Names that are no outputs keep their values. -/
theorem evaluate_frame {env out : Env Name V} {nodes : List (Node Op Name)}
    (evaluated : evaluate meaning env nodes = some out) {name : Name} (other : name ∉ outputs nodes) :
    out name = env name := by
  induction nodes generalizing env with
  | nil =>
      cases evaluated
      rfl
  | cons node rest inductionHypothesis =>
      rcases evaluate_cons_eq_some_iff.mp evaluated with ⟨value, -, later⟩
      rw [outputs_cons, List.mem_cons, not_or] at other
      rw [inductionHypothesis later other.2, Env.bind_of_ne other.1]

/-- Evaluation finds the assignment that satisfies the equations, and nothing else. -/
theorem evaluate_eq_some_iff {known : List Name} {nodes : List (Node Op Name)} (inScope : Scoped known nodes)
    {env out : Env Name V} : evaluate meaning env nodes = some out ↔ Solves meaning env nodes out := by
  induction nodes generalizing known env with
  | nil =>
      constructor
      · intro evaluated
        cases evaluated
        exact ⟨fun _ _ => rfl, fun _ member => (List.not_mem_nil member).elim⟩
      · intro solves
        rw [show out = env from funext fun name => solves.frame name List.not_mem_nil]
        rfl
  | cons node rest inductionHypothesis =>
      have whole := inScope
      rcases inScope with ⟨reads, new, later⟩
      -- The node reads the same values before and after the rest of the graph.
      have settled : (∀ name ∉ outputs (node :: rest), out name = env name) ->
          node.result meaning out = node.result meaning env := by
        intro frame
        apply Node.result_congr
        intro name member
        exact frame name (whole.fresh (reads name member))
      have own : node.output ∉ outputs rest := later.fresh (List.mem_append_right _ List.mem_cons_self)
      rw [evaluate_cons_eq_some_iff]
      constructor
      · rintro ⟨value, computed, evaluated⟩
        have solves := (inductionHypothesis later).mp evaluated
        have frame : ∀ name ∉ outputs (node :: rest), out name = env name := by
          intro name other
          rw [outputs_cons, List.mem_cons, not_or] at other
          rw [solves.frame name other.2, Env.bind_of_ne other.1]
        refine ⟨frame, List.forall_mem_cons.mpr ⟨⟨value, ?_, ?_⟩, solves.equations⟩⟩
        · rw [settled frame, computed]
        · rw [solves.frame _ own, Env.bind_self]
      · intro solves
        rcases solves.equations node List.mem_cons_self with ⟨value, computed, stored⟩
        refine ⟨value, (settled solves.frame) ▸ computed, (inductionHypothesis later).mpr ⟨?_, ?_⟩⟩
        · intro name other
          by_cases same : name = node.output
          · rw [same, Env.bind_self, stored]
          · rw [Env.bind_of_ne same]
            exact solves.frame name (by simp [same, other])
        · intro node member
          exact solves.equations node (List.mem_cons_of_mem _ member)

end Evaluation

end Dataflow
end Foundation
