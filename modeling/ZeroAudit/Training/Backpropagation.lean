import Mathlib.Analysis.SpecialFunctions.Trigonometric.DerivHyp
import ZeroAudit.Training.Autoencoder

namespace ZeroAudit
namespace Training

open Foundation.MatrixGradient Matrix

/-!
# The backward pass computes the gradient

The induction runs over the layers.  It holds for every function of the reconstruction
that has a gradient there: the loop then returns the partial derivatives of the function
by all parameters, and its gradient by the input.  A hidden layer composes the function
of the later layers with an activation and an affine map.
-/

section Layers

variable {K : Type*} [NontriviallyNormedField K] {tanh : K -> K} {n : Nat}

/-- What the first layer is given is the batch. -/
@[simp] theorem first_activations {a b : Nat} {sizes : List Nat} (params : Params K a sizes b)
    (h : Matrix (Fin n) (Fin a) K) : (activations tanh params h).first = h := by
  cases params with
  | output W bias => rfl
  | hidden W bias rest => rfl

/-- The loop returns the derivatives of any function of the reconstruction, by the input
and by every parameter. -/
theorem backwardLoop_spec (slope : ∀ z, HasDerivAt tanh (1 - tanh z ^ 2) z) {a b : Nat} {sizes : List Nat}
    (params : Params K a sizes b) (h : Matrix (Fin n) (Fin a) K) {f : Matrix (Fin n) (Fin b) K -> K}
    {delta : Matrix (Fin n) (Fin b) K} (outer : HasGradientAt f delta (activations tanh params h).recon) :
    HasGradientAt (fun h => f (activations tanh params h).recon)
        (backwardLoop params (activations tanh params h) delta).2 h ∧
      ∀ entry, HasDerivAt (fun x => f (activations tanh (params.set entry x) h).recon)
        ((backwardLoop params (activations tanh params h) delta).1.get entry) (params.get entry) := by
  induction params with
  | output W bias =>
      refine ⟨outer.affine_input, ?_⟩
      intro entry
      cases entry with
      | weight row column => exact outer.affine_weights row column
      | bias column => exact outer.affine_bias column
  | hidden W bias rest inductionHypothesis =>
      rcases inductionHypothesis ((affine h W bias).map tanh) outer with ⟨input, entries⟩
      -- The slope of the activation is read off the output that the next layer was given.
      have slopes : ∀ row column, HasDerivAt tanh
          (((activations tanh rest ((affine h W bias).map tanh)).first.map fun activation =>
            1 - activation ^ 2) row column) (affine h W bias row column) := by
        intro row column
        rw [first_activations]
        exact slope (affine h W bias row column)
      have own := input.map slopes
      refine ⟨own.affine_input, ?_⟩
      intro entry
      cases entry with
      | hiddenWeight row column => exact own.affine_weights row column
      | hiddenBias column => exact own.affine_bias column
      | later entry => exact entries entry

end Layers

/-- The slope of the activation. -/
theorem hasDerivAt_tanh (z : ℝ) : HasDerivAt Real.tanh (1 - Real.tanh z ^ 2) z := by
  have positive : Real.cosh z ≠ 0 := (Real.cosh_pos z).ne'
  have quotient : Real.tanh = fun x => Real.sinh x / Real.cosh x := by
    funext x
    exact Real.tanh_eq_sinh_div_cosh x
  rw [quotient]
  apply ((Real.hasDerivAt_sinh z).div (Real.hasDerivAt_cosh z) positive).congr_deriv
  field_simp

/-- Every entry of the gradients is the partial derivative of the loss by the parameter
there, for any sizes of the hidden layers, any parameters and any batch of at least one
row. -/
theorem backward_is_gradient {rows : Nat} {sizes : List Nat} (params : Params ℝ N_FEATURES sizes N_FEATURES)
    (X : Matrix (Fin (rows + 1)) (Fin N_FEATURES) ℝ) (entry : Entry N_FEATURES sizes N_FEATURES) :
    HasDerivAt (fun x => loss (forward Real.tanh (params.set entry x) X).1 X)
      ((backward params (forward Real.tanh params X).2 (forward Real.tanh params X).1 X).get entry)
      (params.get entry) := by
  have outer := hasGradientAt_squares X (forward Real.tanh params X).1
    (((rows + 1 : Nat) : ℝ) * (N_FEATURES : ℝ))
  exact (backwardLoop_spec hasDerivAt_tanh params X outer).2 entry

/-- One layer that doubles every feature, run on rationals.  The bias of a feature by which
the reconstruction of a single row is too large by one has a fifth for its gradient. -/
example :
    let params : Params ℚ N_FEATURES [] N_FEATURES :=
      .output (Matrix.of fun row column => if row = column then 2 else 0) (fun _ => 0)
    let X : Matrix (Fin 1) (Fin N_FEATURES) ℚ := Matrix.of fun _ _ => 1
    (backward params (forward id params X).2 (forward id params X).1 X).get (.bias ⟨0, by decide⟩) = 1 / 5 := by
  decide +kernel

end Training
end ZeroAudit
