import ZeroAudit.Foundation.AdaptiveMoments
import ZeroAudit.Foundation.Slices
import ZeroAudit.Training.Calibration

namespace ZeroAudit
namespace Training

open Foundation Foundation.AdaptiveMoments Foundation.Slices Matrix

/-!
# The training loop (`train`)

Every epoch cuts a permutation of the rows into batches, and every batch moves the
parameters along the gradient of its loss, divided by the root of the running average of
its square.  The permutations come from outside, one for each epoch.  The averages start at
zero and keep a bound between them, from which no batch can move a parameter by more than a
fixed multiple of the learning rate.
-/

variable {K : Type*} {a b : Nat} {sizes : List Nat}

namespace Params

/-- An operation on the parameters at equal places. -/
def zipWith (f : K -> K -> K) :
    {a b : Nat} -> {sizes : List Nat} -> Params K a sizes b -> Params K a sizes b -> Params K a sizes b
  | _, _, _, .output W bias, .output W' bias' =>
      .output (Matrix.of fun row column => f (W row column) (W' row column)) fun column =>
        f (bias column) (bias' column)
  | _, _, _, .hidden W bias rest, .hidden W' bias' rest' =>
      .hidden (Matrix.of fun row column => f (W row column) (W' row column))
        (fun column => f (bias column) (bias' column)) (rest.zipWith f rest')

@[simp] theorem get_zipWith (f : K -> K -> K) (params other : Params K a sizes b) (entry : Entry a sizes b) :
    (params.zipWith f other).get entry = f (params.get entry) (other.get entry) := by
  induction params with
  | output W bias =>
      cases other
      cases entry with
      | weight row column => rfl
      | bias column => rfl
  | hidden W bias rest inductionHypothesis =>
      cases other
      cases entry with
      | hiddenWeight row column => rfl
      | hiddenBias column => rfl
      | later entry => exact inductionHypothesis _ entry

@[simp] theorem get_map (f : K -> K) (params : Params K a sizes b) (entry : Entry a sizes b) :
    (params.map f).get entry = f (params.get entry) := by
  induction params with
  | output W bias =>
      cases entry with
      | weight row column => rfl
      | bias column => rfl
  | hidden W bias rest inductionHypothesis =>
      cases entry with
      | hiddenWeight row column => rfl
      | hiddenBias column => rfl
      | later entry => exact inductionHypothesis entry

end Params

/-! ## One batch -/

section Optimiser

variable [Field K]

/-- The rates of the optimiser, as in the source. -/
def b1 : K := 0.9

def b2 : K := 0.999

def eps : K := 1e-8

/-- The parameters, the running averages of every gradient and of its square, and the number
of batches seen. -/
structure TrainState (K : Type*) (sizes : List Nat) where
  params : Params K N_FEATURES sizes N_FEATURES
  m : Params K N_FEATURES sizes N_FEATURES
  v : Params K N_FEATURES sizes N_FEATURES
  step : Nat

/-- Averages of zero for these parameters. -/
def TrainState.start (params : Params K N_FEATURES sizes N_FEATURES) : TrainState K sizes :=
  { params
    m := params.map fun _ => 0
    v := params.map fun _ => 0
    step := 0 }

variable (sqrt tanh : K -> K) (lr : K)

/-- Move every parameter along its gradient. -/
def TrainState.update (state : TrainState K sizes) (grads : Params K N_FEATURES sizes N_FEATURES) :
    TrainState K sizes :=
  let step := state.step + 1
  let m := state.m.zipWith (fun m g => b1 * m + (1 - b1) * g) grads
  let v := state.v.zipWith (fun v g => b2 * v + (1 - b2) * (g * g)) grads
  let change := m.zipWith (fun m v =>
    let mHat := m / (1 - b1 ^ step)
    let vHat := v / (1 - b2 ^ step)
    lr * mHat / (sqrt vHat + eps)) v
  { params := state.params.zipWith (fun param change => param - change) change
    m
    v
    step }

/-- One batch: its loss, and the state after it. -/
def TrainState.trainBatch (state : TrainState K sizes) {n : Nat} (batch : Matrix (Fin n) (Fin N_FEATURES) K) :
    K × TrainState K sizes :=
  let passed := forward tanh state.params batch
  (loss passed.1 batch, state.update sqrt lr (backward state.params passed.2 passed.1 batch))

/-! ## Epochs -/

variable (batchSize : Nat) {n : Nat} (X : Matrix (Fin n) (Fin N_FEATURES) K)

/-- Train on the rows of one batch and add up the loss. -/
def trainRows (current : TrainState K sizes × K) (rows : List (Fin n)) : TrainState K sizes × K :=
  let trained := current.1.trainBatch sqrt tanh lr (X.submatrix rows.get id)
  (trained.2, current.2 + trained.1)

/-- One epoch: the state after its batches, and their mean loss. -/
def TrainState.epoch (state : TrainState K sizes) (perm : List (Fin n)) : TrainState K sizes × K :=
  let slices := batches batchSize perm
  let ran := slices.foldl (trainRows sqrt tanh lr X) (state, 0)
  (ran.1, ran.2 / (max slices.length 1 : Nat))

/-- Train for one epoch and append its loss to the history. -/
def trainEpoch (current : TrainState K sizes × List K) (perm : List (Fin n)) : TrainState K sizes × List K :=
  let epoch := current.1.epoch sqrt tanh lr batchSize X perm
  (epoch.1, current.2 ++ [epoch.2])

/-- `train`, for the initial parameters and the permutation of each epoch. -/
def train (init : Params K N_FEATURES sizes N_FEATURES) (perms : List (List (Fin n))) : TrainState K sizes × List K :=
  perms.foldl (trainEpoch sqrt tanh lr batchSize X) (TrainState.start init, [])

end Optimiser

/-! ## Stability -/

section Stability

/-- Fifty-three times the average of the squares bounds the square of the average. -/
theorem rates_adam : Rates (b1 : ℝ) b2 53 where
  factor_pos := by norm_num
  square_pos := by norm_num [b2]
  square_lt_one := by norm_num [b2]
  absorbs := by norm_num [b1, b2]

/-- The average of the squares is corrected by less than the square of the correction of the
average, after any number of batches. -/
theorem correction_slower {count : Nat} (some : 1 ≤ count) : 1 - (b2 : ℝ) ^ count ≤ (1 - b1 ^ count) ^ 2 := by
  have late : ∀ more : Nat, 2 * (b1 : ℝ) ^ (7 + more) ≤ b2 ^ (7 + more) := by
    intro more
    induction more with
    | zero => norm_num [b1, b2]
    | succ more inductionHypothesis =>
        have nonneg : (0 : ℝ) ≤ b1 ^ (7 + more) := by
          unfold b1
          positivity
        calc 2 * (b1 : ℝ) ^ (7 + (more + 1)) = 2 * b1 ^ (7 + more) * b1 := by ring
          _ ≤ 2 * b1 ^ (7 + more) * b2 :=
            mul_le_mul_of_nonneg_left (by norm_num [b1, b2]) (by positivity)
          _ ≤ b2 ^ (7 + more) * b2 :=
            mul_le_mul_of_nonneg_right inductionHypothesis (by norm_num [b2])
          _ = b2 ^ (7 + (more + 1)) := by ring
  by_cases early : count < 7
  · interval_cases count
    all_goals norm_num [b1, b2]
  · have doubled := late (count - 7)
    rw [Nat.add_sub_of_le (not_lt.mp early)] at doubled
    nlinarith [sq_nonneg ((b1 : ℝ) ^ count)]

theorem correction_pos {count : Nat} (some : 1 ≤ count) : 0 < 1 - (b2 : ℝ) ^ count := by
  have less : (b2 : ℝ) ^ count < 1 := pow_lt_one₀ (by norm_num [b2]) (by norm_num [b2]) (by omega)
  linarith

/-- The bound on one step, as a multiple of the learning rate. -/
noncomputable def stepBound : ℝ := Real.sqrt 53

theorem stepBound_le : stepBound ≤ 73 / 10 := by
  unfold stepBound
  rw [Real.sqrt_le_left (by norm_num)]
  norm_num

/-- What every state of a training run satisfies: the averages keep their bound, and no
parameter has moved by more than the steps allow. -/
structure Stable (init : Params ℝ N_FEATURES sizes N_FEATURES) (lr : ℝ) (state : TrainState ℝ sizes) : Prop where
  moments : ∀ entry, (Moments.mk (state.m.get entry) (state.v.get entry)).Bounded 53
  drift : ∀ entry, |state.params.get entry - init.get entry| ≤ state.step * (lr * stepBound)

variable {init : Params ℝ N_FEATURES sizes N_FEATURES} {lr : ℝ}

theorem stable_start (init : Params ℝ N_FEATURES sizes N_FEATURES) (lr : ℝ) :
    Stable init lr (TrainState.start init) where
  moments := by
    intro entry
    simpa [TrainState.start] using Moments.bounded_zero 53
  drift := by
    intro entry
    simp [TrainState.start]

/-- No gradient moves a parameter further than the bound. -/
theorem Stable.update {state : TrainState ℝ sizes} (stable : Stable init lr state) (nonneg : 0 ≤ lr)
    (grads : Params ℝ N_FEATURES sizes N_FEATURES) : Stable init lr (state.update Real.sqrt lr grads) := by
  have moments : ∀ entry,
      ((Moments.mk (state.m.get entry) (state.v.get entry)).next b1 b2 (grads.get entry)).Bounded 53 :=
    fun entry => (stable.moments entry).next rates_adam (grads.get entry)
  constructor
  · intro entry
    simpa [TrainState.update, Moments.next] using moments entry
  · intro entry
    let averages := (Moments.mk (state.m.get entry) (state.v.get entry)).next b1 b2 (grads.get entry)
    have direction : |averages.direction b1 b2 Real.sqrt eps (state.step + 1)| ≤ stepBound :=
      (moments entry).abs_direction_le rates_adam (by norm_num [eps]) (correction_pos (by omega))
        (correction_slower (by omega))
    have moved : (state.update Real.sqrt lr grads).params.get entry =
        state.params.get entry - lr * averages.direction b1 b2 Real.sqrt eps (state.step + 1) := by
      simp only [TrainState.update, Params.get_zipWith, Moments.direction, averages, Moments.next]
      rw [mul_div_assoc]
    have far := mul_le_mul_of_nonneg_left direction nonneg
    calc |(state.update Real.sqrt lr grads).params.get entry - init.get entry|
        = |(state.params.get entry - init.get entry) -
            lr * averages.direction b1 b2 Real.sqrt eps (state.step + 1)| := by
          rw [moved]
          congr 1
          ring
      _ ≤ |state.params.get entry - init.get entry| +
            |lr * averages.direction b1 b2 Real.sqrt eps (state.step + 1)| := abs_sub _ _
      _ ≤ state.step * (lr * stepBound) + lr * stepBound := by
          rw [abs_mul, abs_of_nonneg nonneg]
          exact add_le_add (stable.drift entry) far
      _ = (state.update Real.sqrt lr grads).step * (lr * stepBound) := by
          rw [show (state.update Real.sqrt lr grads).step = state.step + 1 from rfl]
          push_cast
          ring

variable (tanh : ℝ -> ℝ) {n : Nat} (X : Matrix (Fin n) (Fin N_FEATURES) ℝ) (batchSize : Nat)

/-- The batches of an epoch keep a run stable, and each counts as one step. -/
theorem Stable.batches (current : TrainState ℝ sizes × ℝ) (stable : Stable init lr current.1) (nonneg : 0 ≤ lr)
    (slices : List (List (Fin n))) :
    Stable init lr (slices.foldl (trainRows Real.sqrt tanh lr X) current).1 ∧
      (slices.foldl (trainRows Real.sqrt tanh lr X) current).1.step = current.1.step + slices.length := by
  induction slices generalizing current with
  | nil => exact ⟨stable, rfl⟩
  | cons rows rest inductionHypothesis =>
      have next : Stable init lr (trainRows Real.sqrt tanh lr X current rows).1 := stable.update nonneg _
      rcases inductionHypothesis _ next with ⟨later, steps⟩
      refine ⟨later, steps.trans ?_⟩
      rw [List.length_cons]
      exact Nat.add_right_comm ..

/-- The epochs of a run keep it stable. -/
theorem Stable.epochs (current : TrainState ℝ sizes × List ℝ) (stable : Stable init lr current.1) (nonneg : 0 ≤ lr)
    (perms : List (List (Fin n))) :
    let after := perms.foldl (trainEpoch Real.sqrt tanh lr batchSize X) current
    Stable init lr after.1 ∧ after.2.length = current.2.length + perms.length ∧
      after.1.step = current.1.step + (perms.map fun perm => (Slices.batches batchSize perm).length).sum := by
  induction perms generalizing current with
  | nil => exact ⟨stable, rfl, rfl⟩
  | cons perm rest inductionHypothesis =>
      rcases Stable.batches tanh X (current.1, 0) stable nonneg (Slices.batches batchSize perm) with
        ⟨keeps, steps⟩
      have next : Stable init lr (trainEpoch Real.sqrt tanh lr batchSize X current perm).1 := keeps
      rcases inductionHypothesis _ next with ⟨later, history, counted⟩
      refine ⟨later, ?_, ?_⟩
      · rw [List.foldl_cons, history]
        simp [trainEpoch]
        omega
      · rw [List.foldl_cons, counted, List.map_cons, List.sum_cons, ← Nat.add_assoc]
        exact congrArg (· + _) steps

/-- Every epoch shows each row to the network exactly once, in batches that are not empty.
After any number of epochs, no parameter has moved from where it started by more than 7.3
times the learning rate for each batch, whatever the rows are, and the running averages of
the squares are not negative. -/
theorem train_stable (init : Params ℝ N_FEATURES sizes N_FEATURES) (nonneg : 0 ≤ lr) (positive : 0 < batchSize)
    {perms : List (List (Fin n))} (permutations : ∀ perm ∈ perms, perm.Perm (List.finRange n)) :
    let trained := train Real.sqrt tanh lr batchSize X init perms
    (∀ perm ∈ perms, (batches batchSize perm).flatten.Perm (List.finRange n) ∧ [] ∉ batches batchSize perm) ∧
      trained.2.length = perms.length ∧
      trained.1.step = perms.length * ((n + (batchSize - 1)) / batchSize) ∧
      ∀ entry, |trained.1.params.get entry - init.get entry| ≤ trained.1.step * (lr * (73 / 10)) ∧
        0 ≤ trained.1.v.get entry := by
  rcases Stable.epochs tanh X batchSize (TrainState.start init, []) (stable_start init lr) nonneg perms with
    ⟨stable, history, steps⟩
  refine ⟨?_, ?_, ?_, ?_⟩
  · intro perm member
    rw [flatten_batches positive]
    exact ⟨permutations perm member, nil_not_mem_batches positive perm⟩
  · exact history.trans (Nat.zero_add _)
  · have sizes : perms.map (fun perm => (batches batchSize perm).length) =
        perms.map fun _ => (n + (batchSize - 1)) / batchSize := by
      apply List.map_congr_left
      intro perm member
      rw [length_batches, (permutations perm member).length_eq, List.length_finRange]
    refine steps.trans ?_
    rw [sizes, List.map_const', List.sum_replicate, smul_eq_mul]
    exact Nat.zero_add _
  · intro entry
    refine ⟨(stable.drift entry).trans ?_, (stable.moments entry).nonneg⟩
    exact mul_le_mul_of_nonneg_left (mul_le_mul_of_nonneg_left stepBound_le nonneg) (Nat.cast_nonneg _)

/-- Two rows, and a network with two units in its only hidden layer. -/
def sampleRows [NatCast K] : Matrix (Fin 2) (Fin N_FEATURES) K :=
  Matrix.of fun row feature => ((row.val + feature.val : Nat) : K)

def sampleInit [NatCast K] [Zero K] [One K] : Params K N_FEATURES [2] N_FEATURES :=
  .hidden (Matrix.of fun feature unit => ((feature.val + unit.val : Nat) : K)) 0
    (.output (Matrix.of fun _ _ => 1) 0)

/-- Two epochs over two rows, one at a time and in both orders. -/
theorem train_stable_twice :
    let trained := train Real.sqrt Real.tanh (3 / 1000) 1 (sampleRows (K := ℝ)) sampleInit [[0, 1], [1, 0]]
    (∀ perm ∈ ([[0, 1], [1, 0]] : List (List (Fin 2))),
      (batches 1 perm).flatten.Perm (List.finRange 2) ∧ [] ∉ batches 1 perm) ∧
      trained.2.length = ([[0, 1], [1, 0]] : List (List (Fin 2))).length ∧
      trained.1.step = ([[0, 1], [1, 0]] : List (List (Fin 2))).length * ((2 + (1 - 1)) / 1) ∧
      ∀ entry, |trained.1.params.get entry - sampleInit.get entry| ≤ trained.1.step * (3 / 1000 * (73 / 10)) ∧
        0 ≤ trained.1.v.get entry :=
  train_stable Real.tanh sampleRows 1 sampleInit (by norm_num) (by norm_num) (by decide)

end Stability

end Training
end ZeroAudit
