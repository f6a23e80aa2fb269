import Mathlib.Data.List.Chain
import Mathlib.Data.List.Infix

namespace Foundation
namespace Machine

/-!
# Machines that answer every input

A machine is a step function from a state and an input to an answer and the
next state.  A run feeds it a list of inputs.  Properties of a step carry over
to runs in three ways: an invariant holds in the last state, it holds in every
state exactly if each input meets the condition under which its step keeps it,
and inputs that leave a view of the state alone can be erased without changing
the other answers, as long as nothing else than the view is read.

A step may also raise.  A loop over the inputs then ends at the first one that
does, and a handler around the loop mends the state.
-/

variable {S I O V : Type*} (step : S -> I -> O × S)

/-- Feed the inputs one after the other, and collect the answers. -/
def run : S -> List I -> List O × S
  | state, [] => ([], state)
  | state, input :: rest =>
      let first := step state input
      let later := run first.2 rest
      (first.1 :: later.1, later.2)

@[simp] theorem run_nil (state : S) : run step state [] = ([], state) := rfl

@[simp] theorem run_cons (state : S) (input : I) (rest : List I) :
    run step state (input :: rest) =
      ((step state input).1 :: (run step (step state input).2 rest).1,
        (run step (step state input).2 rest).2) := rfl

/-- The state after a run, one step at a time. -/
theorem state_run_cons {state next : S} {input : I} (stepped : (step state input).2 = next)
    (rest : List I) : (run step state (input :: rest)).2 = (run step next rest).2 := by
  rw [run_cons, stepped]

theorem run_append (state : S) (first second : List I) :
    run step state (first ++ second) =
      ((run step state first).1 ++ (run step (run step state first).2 second).1,
        (run step (run step state first).2 second).2) := by
  induction first generalizing state with
  | nil => rfl
  | cons input rest inductionHypothesis => simp [inductionHypothesis]

variable {step}

/-- An invariant of the step holds at the end of every run. -/
theorem invariant_run (invariant : S -> Prop) {inputs : List I}
    (preserved : ∀ state, ∀ input ∈ inputs, invariant state -> invariant (step state input).2)
    {state : S} (start : invariant state) : invariant (run step state inputs).2 := by
  induction inputs generalizing state with
  | nil => exact start
  | cons input rest inductionHypothesis =>
      have next := preserved state input List.mem_cons_self start
      exact inductionHypothesis
        (fun state input member => preserved state input (List.mem_cons_of_mem _ member)) next

/-- What holds of every answer given under an invariant holds of every answer of
a run. -/
theorem forall_run (invariant : S -> Prop) (good : O -> Prop)
    (keeps : ∀ state input, invariant state -> good (step state input).1 ∧ invariant (step state input).2)
    {state : S} (start : invariant state) (inputs : List I) :
    ∀ answer ∈ (run step state inputs).1, good answer := by
  induction inputs generalizing state with
  | nil => exact fun _ member => (List.not_mem_nil member).elim
  | cons input rest inductionHypothesis =>
      rw [run_cons, List.forall_mem_cons]
      exact ⟨(keeps state input start).1, inductionHypothesis (keeps state input start).2⟩

/-- Where each input goes with an item that its answer is to meet, the answers of a run meet
the items one by one, and the invariant has counted them. -/
theorem forall₂_run {B : Type*} {delivers : I -> B -> Prop} {meets : O -> B -> Prop} {invariant : Nat -> S -> Prop}
    (keeps : ∀ count state input item, invariant count state -> delivers input item ->
      meets (step state input).1 item ∧ invariant (count + 1) (step state input).2)
    {inputs : List I} {items : List B} (delivered : List.Forall₂ delivers inputs items) {count : Nat} {state : S}
    (start : invariant count state) :
    List.Forall₂ meets (run step state inputs).1 items ∧
      invariant (count + items.length) (run step state inputs).2 := by
  induction delivered generalizing count state with
  | nil => exact ⟨.nil, start⟩
  | @cons input item rest others first _ inductionHypothesis =>
      rcases keeps count state input item start first with ⟨met, kept⟩
      rcases inductionHypothesis kept with ⟨answers, last⟩
      rw [List.length_cons, Nat.add_comm others.length 1, ← Nat.add_assoc]
      exact ⟨.cons met answers, last⟩

/-! ## Conditions along a run -/

variable (step)

/-- Every input of the run meets the condition in the state it arrives in. -/
def Along (condition : S -> I -> Prop) : S -> List I -> Prop
  | _, [] => True
  | state, input :: rest => condition state input ∧ Along condition (step state input).2 rest

variable {step}

/-- A run along a condition, one step at a time. -/
theorem along_cons {condition : S -> I -> Prop} {state next : S} {input : I} {rest : List I}
    (meets : condition state input) (stepped : (step state input).2 = next) (along : Along step condition next rest) :
    Along step condition state (input :: rest) := by
  rw [← stepped] at along
  exact ⟨meets, along⟩

theorem along_mono {condition other : S -> I -> Prop}
    (implies : ∀ state input, condition state input -> other state input) {state : S}
    {inputs : List I} (along : Along step condition state inputs) : Along step other state inputs := by
  induction inputs generalizing state with
  | nil => trivial
  | cons input rest inductionHypothesis =>
      exact ⟨implies state input along.1, inductionHypothesis along.2⟩

/-- A condition that keeps an invariant, met along a run, gives the invariant
in every state of it. -/
theorem invariant_of_along (invariant : S -> Prop) {condition : S -> I -> Prop}
    (keeps : ∀ state input, invariant state -> condition state input -> invariant (step state input).2)
    {state : S} {inputs : List I} (start : invariant state)
    (along : Along step condition state inputs) :
    ∀ seen, seen <+: inputs -> invariant (run step state seen).2 := by
  induction inputs generalizing state with
  | nil =>
      intro seen before
      rw [List.prefix_nil.mp before]
      exact start
  | cons input rest inductionHypothesis =>
      intro seen before
      cases seen with
      | nil => exact start
      | cons own others =>
          rcases List.cons_prefix_cons.mp before with ⟨rfl, tail⟩
          exact inductionHypothesis (keeps state own start along.1) along.2 others tail

/-- What is observed in every state of a run forces the condition along it, if
it does so in one step from every state that satisfies the invariant. -/
theorem along_of_observed (invariant observed : S -> Prop) {condition : S -> I -> Prop}
    (keeps : ∀ state input, invariant state -> condition state input -> invariant (step state input).2)
    (forces : ∀ state input, invariant state -> observed (step state input).2 -> condition state input)
    {state : S} {inputs : List I} (start : invariant state)
    (always : ∀ seen, seen <+: inputs -> observed (run step state seen).2) :
    Along step condition state inputs := by
  induction inputs generalizing state with
  | nil => trivial
  | cons input rest inductionHypothesis =>
      have next : observed (step state input).2 :=
        always [input] (List.cons_prefix_cons.mpr ⟨rfl, List.nil_prefix⟩)
      have met := forces state input start next
      refine ⟨met, inductionHypothesis (keeps state input start met) ?_⟩
      intro seen before
      exact always (input :: seen) (List.cons_prefix_cons.mpr ⟨rfl, before⟩)

/-- Where one step keeps an invariant exactly under a condition, the states of
a run all satisfy it exactly if the condition is met along the run. -/
theorem invariant_along_iff (invariant : S -> Prop) (condition : S -> I -> Prop)
    (exactly : ∀ state input, invariant state ->
      (invariant (step state input).2 ↔ condition state input))
    {state : S} (start : invariant state) (inputs : List I) :
    (∀ seen, seen <+: inputs -> invariant (run step state seen).2) ↔
      Along step condition state inputs := by
  have keeps : ∀ state input, invariant state -> condition state input ->
      invariant (step state input).2 :=
    fun state input holds met => (exactly state input holds).mpr met
  constructor
  · intro always
    exact along_of_observed invariant invariant keeps
      (fun state input holds next => (exactly state input holds).mp next) start always
  · intro along
    exact invariant_of_along invariant keeps start along

/-- A log that every state carries grows by what the answers say, over a whole run
exactly if it does so in every step. -/
theorem grows_iff (log : S -> List V) (entries : O -> List V) (state : S) (inputs : List I) :
    (∀ seen, seen <+: inputs ->
      log (run step state seen).2 = log state ++ (run step state seen).1.flatMap entries) ↔
    Along step (fun state input => log (step state input).2 = log state ++ entries (step state input).1)
      state inputs := by
  induction inputs generalizing state with
  | nil =>
      refine ⟨fun _ => trivial, fun _ seen before => ?_⟩
      rw [List.prefix_nil.mp before]
      exact (List.append_nil (log state)).symm
  | cons input rest inductionHypothesis =>
      constructor
      · intro always
        have first := always [input] (List.cons_prefix_cons.mpr ⟨rfl, List.nil_prefix⟩)
        rw [run_cons, run_nil, List.flatMap_singleton] at first
        refine ⟨first, (inductionHypothesis (step state input).2).mp ?_⟩
        intro seen before
        have whole := always (input :: seen) (List.cons_prefix_cons.mpr ⟨rfl, before⟩)
        rw [run_cons, List.flatMap_cons, ← List.append_assoc, ← first] at whole
        exact whole
      · rintro ⟨first, along⟩ seen before
        cases seen with
        | nil => exact (List.append_nil (log state)).symm
        | cons own others =>
            rcases List.cons_prefix_cons.mp before with ⟨rfl, tail⟩
            rw [run_cons, List.flatMap_cons, ← List.append_assoc, ← first]
            exact (inductionHypothesis (step state own).2).mpr along others tail

/-- Two conditions that agree under an invariant, which they keep, are met
along the same runs. -/
theorem along_congr (invariant : S -> Prop) {condition other : S -> I -> Prop}
    (keeps : ∀ state input, invariant state -> condition state input -> invariant (step state input).2)
    (same : ∀ state input, invariant state -> (condition state input ↔ other state input))
    {state : S} {inputs : List I} (start : invariant state) :
    Along step condition state inputs ↔ Along step other state inputs := by
  induction inputs generalizing state with
  | nil => exact Iff.rfl
  | cons input rest inductionHypothesis =>
      constructor
      · rintro ⟨here, later⟩
        exact ⟨(same state input start).mp here,
          (inductionHypothesis (keeps state input start here)).mp later⟩
      · rintro ⟨here, later⟩
        have met := (same state input start).mpr here
        exact ⟨met, (inductionHypothesis (keeps state input start met)).mpr later⟩

/-- A condition is met along a run if it is met at each of its inputs. -/
theorem along_iff_steps {condition : S -> I -> Prop} (state : S) (inputs : List I) :
    Along step condition state inputs ↔
      ∀ seen input, seen ++ [input] <+: inputs -> condition (run step state seen).2 input := by
  induction inputs generalizing state with
  | nil =>
      constructor
      · intro _ seen input before
        simp at before
      · intro _
        trivial
  | cons first rest inductionHypothesis =>
      constructor
      · rintro ⟨here, later⟩ seen input before
        cases seen with
        | nil =>
            rcases List.cons_prefix_cons.mp before with ⟨rfl, -⟩
            exact here
        | cons own others =>
            rcases List.cons_prefix_cons.mp before with ⟨rfl, tail⟩
            exact (inductionHypothesis _).mp later others input tail
      · intro all
        refine ⟨all [] first (List.cons_prefix_cons.mpr ⟨rfl, List.nil_prefix⟩), ?_⟩
        apply (inductionHypothesis _).mpr
        intro seen input before
        exact all (first :: seen) input (List.cons_prefix_cons.mpr ⟨rfl, before⟩)

/-- A condition on inputs alone is met along a run if every input meets it. -/
theorem along_inputs_iff {condition : I -> Prop} (state : S) (inputs : List I) :
    Along step (fun _ input => condition input) state inputs ↔ ∀ input ∈ inputs, condition input := by
  induction inputs generalizing state with
  | nil => simp [Along]
  | cons input rest inductionHypothesis =>
      rw [List.forall_mem_cons, ← inductionHypothesis (step state input).2]
      rfl

/-- The same for an invariant that may also speak about the inputs so far. -/
theorem invariant_history_iff (invariant : List I -> S -> Prop) (condition : List I -> S -> I -> Prop)
    (exactly : ∀ seen state input, invariant seen state ->
      (invariant (seen ++ [input]) (step state input).2 ↔ condition seen state input))
    {state : S} (start : invariant [] state) (inputs : List I) :
    (∀ seen, seen <+: inputs -> invariant seen (run step state seen).2) ↔
      ∀ seen input, seen ++ [input] <+: inputs -> condition seen (run step state seen).2 input := by
  have after : ∀ seen input, (run step state (seen ++ [input])).2 =
      (step (run step state seen).2 input).2 := by
    intro seen input
    rw [run_append]
    rfl
  constructor
  · intro always seen input before
    have here := always seen ((List.prefix_append seen _).trans before)
    have next := always _ before
    rw [after] at next
    exact (exactly seen _ input here).mp next
  · intro met seen
    induction seen using List.reverseRecOn with
    | nil => exact fun _ => start
    | append_singleton seen input inductionHypothesis =>
        intro before
        have here := inductionHypothesis ((List.prefix_append seen _).trans before)
        rw [after]
        exact (exactly seen _ input here).mpr (met seen input before)

/-- What is observed in every state of a run, where an invariant that may speak about
the inputs still to come holds in any case. -/
theorem observed_along_iff (invariant : List I -> S -> Prop) (observed : S -> Prop)
    (condition : S -> I -> Prop)
    (keeps : ∀ state input rest, invariant (input :: rest) state -> invariant rest (step state input).2)
    (exactly : ∀ state input rest, invariant (input :: rest) state -> observed state ->
      (observed (step state input).2 ↔ condition state input))
    {state : S} {inputs : List I} (start : invariant inputs state) (first : observed state) :
    (∀ seen, seen <+: inputs -> observed (run step state seen).2) ↔ Along step condition state inputs := by
  induction inputs generalizing state with
  | nil =>
      refine ⟨fun _ => trivial, fun _ seen before => ?_⟩
      rw [List.prefix_nil.mp before]
      exact first
  | cons input rest inductionHypothesis =>
      have one := exactly state input rest start first
      have next := keeps state input rest start
      constructor
      · intro always
        have then' : observed (step state input).2 :=
          always [input] (List.cons_prefix_cons.mpr ⟨rfl, List.nil_prefix⟩)
        refine ⟨one.mp then', (inductionHypothesis next then').mp ?_⟩
        intro seen before
        exact always (input :: seen) (List.cons_prefix_cons.mpr ⟨rfl, before⟩)
      · rintro ⟨here, later⟩ seen before
        cases seen with
        | nil => exact first
        | cons own others =>
            rcases List.cons_prefix_cons.mp before with ⟨rfl, tail⟩
            exact (inductionHypothesis next (one.mpr here)).mpr later others tail

/-! ## Erasing inputs -/

/-- The answers to the inputs that are kept. -/
def keptAnswers (kept : I -> Bool) : List I -> List O -> List O
  | input :: inputs, answer :: answers =>
      if kept input then answer :: keptAnswers kept inputs answers
      else keptAnswers kept inputs answers
  | _, _ => []

/-- If steps read nothing but a view of the state, and every erased input left
the view as it found it, then the kept inputs are answered as without them. -/
theorem run_filter (view : S -> V) (kept : I -> Bool)
    (reads : ∀ state other input, view state = view other ->
      (step state input).1 = (step other input).1 ∧
        view (step state input).2 = view (step other input).2)
    {inputs : List I} {state other : S} (same : view state = view other)
    (silent : Along step (fun state input => kept input = false ->
      view (step state input).2 = view state) state inputs) :
    keptAnswers kept inputs (run step state inputs).1 = (run step other (inputs.filter kept)).1 := by
  induction inputs generalizing state other with
  | nil => rfl
  | cons input rest inductionHypothesis =>
      rcases silent with ⟨here, later⟩
      cases keep : kept input with
      | true =>
          have both := reads state other input same
          simp only [run_cons, keptAnswers, keep, if_true, List.filter_cons_of_pos]
          rw [both.1, inductionHypothesis both.2 later]
      | false =>
          have erased := (here keep).trans same
          simp only [run_cons, keptAnswers, keep, Bool.false_eq_true, if_false,
            List.filter_cons_of_neg, not_false_eq_true]
          exact inductionHypothesis erased later

/-- Steps that read nothing but a view of the state answer alike from states of one view. -/
theorem answers_of_view (view : S -> V)
    (reads : ∀ state other input, view state = view other ->
      (step state input).1 = (step other input).1 ∧
        view (step state input).2 = view (step other input).2)
    {state other : S} (same : view state = view other) (inputs : List I) :
    (run step state inputs).1 = (run step other inputs).1 := by
  induction inputs generalizing state other with
  | nil => rfl
  | cons input rest inductionHypothesis =>
      have both := reads state other input same
      rw [run_cons, run_cons, both.1, inductionHypothesis both.2]

/-! ## Loops that an exception ends -/

section Guarded

variable {E : Type*} (attempt : S -> I -> Except E Unit × S) (mend : S -> S)

/-- Hand the inputs over one after the other until one raises.  What is handed over is
kept with the state it met. -/
def loop : S -> List I -> List (S × I) × Except E Unit × S
  | state, [] => ([], .ok (), state)
  | state, input :: rest =>
      match attempt state input with
      | (.error error, after) => ([(state, input)], .error error, after)
      | (.ok _, after) =>
          let later := loop after rest
          ((state, input) :: later.1, later.2)

/-- A loop inside of a handler that mends the state after an exception. -/
def guarded (state : S) (inputs : List I) : List (S × I) × S :=
  match loop attempt state inputs with
  | (handed, .ok _, after) => (handed, after)
  | (handed, .error _, after) => (handed, mend after)

@[simp] theorem loop_nil (state : S) : loop attempt state ([] : List I) = ([], .ok (), state) := rfl

@[simp] theorem loop_cons (state : S) (input : I) (rest : List I) :
    loop attempt state (input :: rest) =
      match attempt state input with
      | (.error error, after) => ([(state, input)], .error error, after)
      | (.ok _, after) =>
          ((state, input) :: (loop attempt after rest).1, (loop attempt after rest).2) := rfl

/-- A loop over two lists goes on with the second if nothing of the first has raised. -/
theorem loop_append (state : S) (first second : List I) :
    loop attempt state (first ++ second) =
      match loop attempt state first with
      | (handed, .error error, after) => (handed, .error error, after)
      | (handed, .ok _, after) =>
          (handed ++ (loop attempt after second).1, (loop attempt after second).2) := by
  induction first generalizing state with
  | nil => rfl
  | cons input rest inductionHypothesis =>
      rw [List.cons_append, loop_cons, loop_cons]
      rcases attempt state input with ⟨_ | _, after⟩
      · rfl
      · dsimp only
        rw [inductionHypothesis after]
        rcases loop attempt after rest with ⟨handed, _ | _, final⟩ <;> rfl

theorem guarded_cons (state : S) (input : I) (rest : List I) :
    guarded attempt mend state (input :: rest) =
      match attempt state input with
      | (.error _, after) => ([(state, input)], mend after)
      | (.ok _, after) =>
          ((state, input) :: (guarded attempt mend after rest).1,
            (guarded attempt mend after rest).2) := by
  unfold guarded
  rw [loop_cons]
  rcases attempt state input with ⟨_ | _, after⟩
  · rfl
  · dsimp only
    rcases loop attempt after rest with ⟨handed, _ | _, final⟩ <;> rfl

/-- Where it depends on the input alone whether it raises, everything is handed over
exactly if only the last input may raise. -/
theorem handed_guarded_iff (raises : I -> Prop)
    (depends : ∀ state input, (∃ error, (attempt state input).1 = .error error) ↔ raises input)
    (state : S) (inputs : List I) :
    (guarded attempt mend state inputs).1.map Prod.snd = inputs ↔
      ∀ input ∈ inputs.dropLast, ¬raises input := by
  induction inputs generalizing state with
  | nil =>
      constructor
      · intro _ input member
        exact (List.not_mem_nil member).elim
      · intro _
        rfl
  | cons input rest inductionHypothesis =>
      rw [guarded_cons]
      have here := depends state input
      rcases stepped : attempt state input with ⟨error | _, after⟩
      · have raised : raises input := here.mp ⟨error, by rw [stepped]⟩
        cases rest with
        | nil => simp
        | cons next later => simp [raised]
      · have silent : ¬raises input := by
          intro raised
          rcases here.mpr raised with ⟨error, same⟩
          rw [stepped] at same
          cases same
        have tail := inductionHypothesis after
        cases rest with
        | nil => simp [guarded, loop]
        | cons next later =>
            simp only [List.map_cons, List.cons.injEq, true_and, List.dropLast_cons_cons,
              List.forall_mem_cons] at tail ⊢
            rw [tail]
            exact ⟨fun others => ⟨silent, others⟩, fun both => both.2⟩

/-- The states that the inputs met, and the last one. -/
def passed (state : S) (inputs : List I) : List S :=
  (guarded attempt mend state inputs).1.map Prod.fst ++ [(guarded attempt mend state inputs).2]

theorem head?_passed (state : S) (inputs : List I) :
    (passed attempt mend state inputs).head? = some state := by
  unfold passed
  cases inputs with
  | nil => rfl
  | cons input rest =>
      rw [guarded_cons]
      rcases attempt state input with ⟨_ | _, after⟩ <;> rfl

/-- These states are related one to the next, if an attempt that goes through and one that
is mended relate the state before to the state after. -/
theorem isChain_passed (related : S -> S -> Prop)
    (attempted : ∀ state input, (attempt state input).1 = .ok () -> related state (attempt state input).2)
    (mended : ∀ state input error, (attempt state input).1 = .error error ->
      related state (mend (attempt state input).2))
    (state : S) (inputs : List I) : List.IsChain related (passed attempt mend state inputs) := by
  induction inputs generalizing state with
  | nil => exact List.isChain_singleton state
  | cons input rest inductionHypothesis =>
      unfold passed
      rw [guarded_cons]
      rcases stepped : attempt state input with ⟨error | _, after⟩
      · have last := mended state input error (by rw [stepped])
        rw [stepped] at last
        exact List.isChain_pair.mpr last
      · have next := attempted state input (by rw [stepped])
        rw [stepped] at next
        apply List.IsChain.cons (inductionHypothesis after)
        intro first head
        rw [head?_passed] at head
        cases head
        exact next

end Guarded

end Machine
end Foundation
