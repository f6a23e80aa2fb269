import ZeroAudit.Foundation.MatrixGradient

namespace ZeroAudit
namespace Training

open Foundation.MatrixGradient Matrix

/-!
# The autoencoder

The parameters are one matrix and one bias a layer, and the sizes of neighbouring
layers agree.  They are read from the first layer to the last, which is the only one
without an activation.  The forward pass keeps what each layer was given, and the
backward pass walks the layers from the last to the first.

Numbers are those of any field with a function for the activation, so that the passes
can be run on rationals and differentiated over the reals.
-/

/-- `FEATURE_NAMES`. -/
def FEATURE_NAMES : List String :=
  ["log_amount", "hour_of_day", "day_of_week", "txn_type_enc", "benford_surprisal", "velocity_1h",
    "graph_hops", "is_offhours", "is_weekend", "threshold_proximity"]

def N_FEATURES : Nat := FEATURE_NAMES.length

/-- The layers from an input of one size, through hidden layers of these sizes, to an
output of another. -/
inductive Params (K : Type*) : Nat -> List Nat -> Nat -> Type _
  | output {a b : Nat} (W : Matrix (Fin a) (Fin b) K) (bias : Fin b -> K) : Params K a [] b
  | hidden {a c b : Nat} {sizes : List Nat} (W : Matrix (Fin a) (Fin c) K) (bias : Fin c -> K)
      (rest : Params K c sizes b) : Params K a (c :: sizes) b

/-- What each layer is given for a batch of rows, and what the last one returns. -/
inductive Acts (K : Type*) (n : Nat) : Nat -> List Nat -> Nat -> Type _
  | output {a b : Nat} (h : Matrix (Fin n) (Fin a) K) (recon : Matrix (Fin n) (Fin b) K) : Acts K n a [] b
  | hidden {a c b : Nat} {sizes : List Nat} (h : Matrix (Fin n) (Fin a) K) (rest : Acts K n c sizes b) :
      Acts K n a (c :: sizes) b

variable {K : Type*} {n a b : Nat} {sizes : List Nat}

namespace Acts

/-- What the first layer is given. -/
def first : {a b : Nat} -> {sizes : List Nat} -> Acts K n a sizes b -> Matrix (Fin n) (Fin a) K
  | _, _, _, .output h _ => h
  | _, _, _, .hidden h _ => h

/-- What the last layer returns. -/
def recon : {a b : Nat} -> {sizes : List Nat} -> Acts K n a sizes b -> Matrix (Fin n) (Fin b) K
  | _, _, _, .output _ recon => recon
  | _, _, _, .hidden _ rest => rest.recon

end Acts

section Passes

variable [Field K] (tanh : K -> K)

/-- The activations of the layers, one after the other. -/
def activations : {a b : Nat} -> {sizes : List Nat} -> Params K a sizes b -> Matrix (Fin n) (Fin a) K ->
    Acts K n a sizes b
  | _, _, _, .output W bias, h => .output h (affine h W bias)
  | _, _, _, .hidden W bias rest, h => .hidden h (activations rest ((affine h W bias).map tanh))

/-- `forward`: the reconstruction, and the activations. -/
def forward (params : Params K a sizes b) (X : Matrix (Fin n) (Fin a) K) :
    Matrix (Fin n) (Fin b) K × Acts K n a sizes b :=
  let acts := activations tanh params X
  (acts.recon, acts)

/-- The loop over the layers from the last to the first, with the gradient by the last
layer's output.  It returns the gradients and the gradient by the first layer's input,
`delta @ W.T`, which the next step of the loop multiplies by the slope of the activation
there; the source leaves it out after the last step. -/
def backwardLoop : {a b : Nat} -> {sizes : List Nat} -> Params K a sizes b -> Acts K n a sizes b ->
    Matrix (Fin n) (Fin b) K -> Params K a sizes b × Matrix (Fin n) (Fin a) K
  | _, _, _, .output W _, .output h _, delta =>
      (.output (hᵀ * delta) (fun column => ∑ row, delta row column), delta * Wᵀ)
  | _, _, _, .hidden W _ rest, .hidden h acts, delta =>
      let later := backwardLoop rest acts delta
      let delta := later.2 ⊙ acts.first.map fun activation => 1 - activation ^ 2
      (.hidden (hᵀ * delta) (fun column => ∑ row, delta row column) later.1, delta * Wᵀ)

/-- `backward`: the gradients of the mean squared error. -/
def backward (params : Params K a sizes N_FEATURES) (acts : Acts K n a sizes N_FEATURES)
    (recon X : Matrix (Fin n) (Fin N_FEATURES) K) : Params K a sizes N_FEATURES :=
  let delta := Matrix.of fun row column => 2 * (recon row column - X row column) / (n * N_FEATURES)
  (backwardLoop params acts delta).1

/-- `np.mean((recon - X) ** 2)`. -/
def loss (recon X : Matrix (Fin n) (Fin N_FEATURES) K) : K :=
  (∑ row, ∑ column, (recon row column - X row column) ^ 2) / (n * N_FEATURES)

end Passes

/-! ## Single parameters -/

/-- The place of a weight or of a bias. -/
inductive Entry : Nat -> List Nat -> Nat -> Type
  | weight {a b : Nat} (row : Fin a) (column : Fin b) : Entry a [] b
  | bias {a b : Nat} (column : Fin b) : Entry a [] b
  | hiddenWeight {a c b : Nat} {sizes : List Nat} (row : Fin a) (column : Fin c) : Entry a (c :: sizes) b
  | hiddenBias {a c b : Nat} {sizes : List Nat} (column : Fin c) : Entry a (c :: sizes) b
  | later {a c b : Nat} {sizes : List Nat} (entry : Entry c sizes b) : Entry a (c :: sizes) b

namespace Params

def get : {a b : Nat} -> {sizes : List Nat} -> Params K a sizes b -> Entry a sizes b -> K
  | _, _, _, .output W _, .weight row column => W row column
  | _, _, _, .output _ bias, .bias column => bias column
  | _, _, _, .hidden W _ _, .hiddenWeight row column => W row column
  | _, _, _, .hidden _ bias _, .hiddenBias column => bias column
  | _, _, _, .hidden _ _ rest, .later entry => rest.get entry

/-- The parameters with one of them replaced. -/
def set : {a b : Nat} -> {sizes : List Nat} -> Params K a sizes b -> Entry a sizes b -> K -> Params K a sizes b
  | _, _, _, .output W bias, .weight row column, x => .output (setEntry W row column x) bias
  | _, _, _, .output W bias, .bias column, x => .output W (Function.update bias column x)
  | _, _, _, .hidden W bias rest, .hiddenWeight row column, x => .hidden (setEntry W row column x) bias rest
  | _, _, _, .hidden W bias rest, .hiddenBias column, x => .hidden W (Function.update bias column x) rest
  | _, _, _, .hidden W bias rest, .later entry, x => .hidden W bias (rest.set entry x)

end Params

end Training
end ZeroAudit
