import Mathlib.Algebra.BigOperators.Field
import Mathlib.Analysis.Calculus.Deriv.Add
import Mathlib.Analysis.Calculus.Deriv.Mul
import Mathlib.Analysis.Calculus.Deriv.Comp
import Mathlib.Analysis.Calculus.Deriv.Pow
import Mathlib.LinearAlgebra.Matrix.Hadamard
import Mathlib.Topology.Algebra.Module.ModuleTopology

namespace Foundation
namespace MatrixGradient

open Matrix

/-!
# Gradients of functions of a matrix

A function of a matrix has a gradient at a point if its derivative along every curve
through the point is the sum of the entries of the gradient times those of the curve's
velocity.  This needs no norm on matrices, and the chain rule is the composition of a
curve with a map.  Gradients are pulled back along the affine map of a layer and along
maps that work entry by entry.
-/

section Maps

variable {K : Type*} {m n k : Type*}

/-- A product, with a bias added to each row. -/
def affine [CommSemiring K] [Fintype k] (h : Matrix m k K) (weights : Matrix k n K) (bias : n -> K) :
    Matrix m n K :=
  h * weights + Matrix.of fun _ => bias

/-- The matrix with one entry replaced. -/
def setEntry [DecidableEq m] [DecidableEq n] (a : Matrix m n K) (row : m) (column : n) (x : K) :
    Matrix m n K :=
  Matrix.of fun r c => if r = row ∧ c = column then x else a r c

theorem setEntry_self [DecidableEq m] [DecidableEq n] (a : Matrix m n K) (row : m) (column : n) :
    setEntry a row column (a row column) = a := by
  ext r c
  unfold setEntry
  rw [Matrix.of_apply]
  split
  · next same => rw [same.1, same.2]
  · rfl

end Maps

/-! ## The pairing -/

section Pairing

variable {K : Type*} [CommSemiring K] {m n k : Type*} [Fintype m] [Fintype n] [Fintype k]

/-- The sum of the products of the entries. -/
def pairing (gradient velocity : Matrix m n K) : K :=
  ∑ row, ∑ column, gradient row column * velocity row column

theorem pairing_add (gradient velocity other : Matrix m n K) :
    pairing gradient (velocity + other) = pairing gradient velocity + pairing gradient other := by
  unfold pairing
  simp only [Matrix.add_apply, mul_add, Finset.sum_add_distrib]

theorem pairing_mul_right (gradient : Matrix m n K) (velocity : Matrix m k K) (weights : Matrix k n K) :
    pairing gradient (velocity * weights) = pairing (gradient * weightsᵀ) velocity := by
  unfold pairing
  apply Finset.sum_congr rfl
  intro row _
  simp only [Matrix.mul_apply, Matrix.transpose_apply, Finset.mul_sum, Finset.sum_mul]
  rw [Finset.sum_comm]
  apply Finset.sum_congr rfl
  intro inner _
  apply Finset.sum_congr rfl
  intro column _
  ring

theorem pairing_mul_left (gradient : Matrix m n K) (h : Matrix m k K) (velocity : Matrix k n K) :
    pairing gradient (h * velocity) = pairing (hᵀ * gradient) velocity := by
  unfold pairing
  simp only [Matrix.mul_apply, Matrix.transpose_apply, Finset.mul_sum, Finset.sum_mul]
  rw [Finset.sum_comm]
  conv_rhs => rw [Finset.sum_comm]
  apply Finset.sum_congr rfl
  intro column _
  rw [Finset.sum_comm]
  apply Finset.sum_congr rfl
  intro inner _
  apply Finset.sum_congr rfl
  intro row _
  ring

/-- Against a matrix of equal rows, the pairing is one with the sums of the columns. -/
theorem pairing_rows (gradient : Matrix m n K) (velocity : n -> K) :
    pairing gradient (Matrix.of fun _ => velocity) =
      ∑ column, (∑ row, gradient row column) * velocity column := by
  unfold pairing
  simp only [Matrix.of_apply, Finset.sum_mul]
  rw [Finset.sum_comm]

/-- Against one entry, the pairing is the entry there. -/
theorem pairing_entry [DecidableEq m] [DecidableEq n] (gradient : Matrix m n K) (row : m) (column : n) :
    pairing gradient (setEntry 0 row column 1) = gradient row column := by
  unfold pairing setEntry
  rw [Finset.sum_eq_single row, Finset.sum_eq_single column]
  · simp
  · intro other _ different
    simp [different]
  · exact fun missing => absurd (Finset.mem_univ column) missing
  · intro other _ different
    apply Finset.sum_eq_zero
    intro c _
    simp [different]
  · exact fun missing => absurd (Finset.mem_univ row) missing

end Pairing

/-! ## Curves -/

section Curves

variable {K : Type*} [NontriviallyNormedField K] {m n k : Type*}

/-- The entries of a curve have these derivatives at a time. -/
def HasVelocityAt (curve : K -> Matrix m n K) (velocity : Matrix m n K) (time : K) : Prop :=
  ∀ row column, HasDerivAt (fun t => curve t row column) (velocity row column) time

theorem hasVelocityAt_const (point : Matrix m n K) (time : K) : HasVelocityAt (fun _ => point) 0 time :=
  fun row column => hasDerivAt_const time (point row column)

/-- One entry that runs through all values. -/
theorem hasVelocityAt_setEntry [DecidableEq m] [DecidableEq n] (a : Matrix m n K) (row : m) (column : n)
    (time : K) : HasVelocityAt (fun t => setEntry a row column t) (setEntry 0 row column 1) time := by
  intro r c
  unfold setEntry
  simp only [Matrix.of_apply]
  split
  · exact hasDerivAt_id time
  · exact hasDerivAt_const time (a r c)

theorem hasVelocityAt_update [DecidableEq n] (bias : n -> K) (column : n) (time : K) :
    ∀ other, HasDerivAt (fun t => Function.update bias column t other) ((Pi.single column 1 : n -> K) other)
      time := by
  intro other
  by_cases same : other = column
  · subst same
    simp only [Function.update_self, Pi.single_eq_same]
    exact hasDerivAt_id time
  · simp only [Function.update_of_ne same, Pi.single_eq_of_ne same]
    exact hasDerivAt_const time (bias other)

/-- The product rule. -/
theorem HasVelocityAt.affine [Fintype k] {h : K -> Matrix m k K} {weights : K -> Matrix k n K}
    {bias : K -> n -> K} {h' : Matrix m k K} {weights' : Matrix k n K} {bias' : n -> K} {time : K}
    (input : HasVelocityAt h h' time) (layer : HasVelocityAt weights weights' time)
    (moves : ∀ column, HasDerivAt (fun t => bias t column) (bias' column) time) :
    HasVelocityAt (fun t => affine (h t) (weights t) (bias t))
      (h' * weights time + h time * weights' + Matrix.of fun _ => bias') time := by
  intro row column
  unfold MatrixGradient.affine
  simp only [Matrix.add_apply, Matrix.mul_apply, Matrix.of_apply, ← Finset.sum_add_distrib]
  apply HasDerivAt.fun_add _ (moves column)
  apply HasDerivAt.fun_sum
  intro inner _
  exact (input row inner).mul (layer inner column)

/-- The chain rule, entry by entry. -/
theorem HasVelocityAt.map {curve : K -> Matrix m n K} {velocity slope : Matrix m n K} {time : K} {g : K -> K}
    (moves : HasVelocityAt curve velocity time)
    (slopes : ∀ row column, HasDerivAt g (slope row column) (curve time row column)) :
    HasVelocityAt (fun t => (curve t).map g) (slope ⊙ velocity) time := by
  intro row column
  exact (slopes row column).comp time (moves row column)

end Curves

/-! ## Gradients -/

section Gradients

variable {K : Type*} [NontriviallyNormedField K] {m n k : Type*} [Fintype m] [Fintype n] [Fintype k]

/-- Along every curve through the point, the derivative is the pairing with the velocity. -/
def HasGradientAt (f : Matrix m n K -> K) (gradient point : Matrix m n K) : Prop :=
  ∀ (curve : K -> Matrix m n K) (velocity : Matrix m n K) (time : K),
    HasVelocityAt curve velocity time -> curve time = point ->
      HasDerivAt (fun t => f (curve t)) (pairing gradient velocity) time

namespace HasGradientAt

variable {f : Matrix m n K -> K} {gradient : Matrix m n K}

/-- Through a map that works entry by entry. -/
theorem map {g : K -> K} {slope z : Matrix m n K} (outer : HasGradientAt f gradient (z.map g))
    (slopes : ∀ row column, HasDerivAt g (slope row column) (z row column)) :
    HasGradientAt (fun z => f (z.map g)) (gradient ⊙ slope) z := by
  intro curve velocity time moves at'
  subst at'
  have chained := outer _ _ time (moves.map slopes) rfl
  apply chained.congr_deriv
  unfold pairing
  simp only [Matrix.hadamard_apply, mul_assoc]

variable {h : Matrix m k K} {weights : Matrix k n K} {bias : n -> K}

/-- What an affine map does to its input. -/
theorem affine_input (outer : HasGradientAt f gradient (affine h weights bias)) :
    HasGradientAt (fun h => f (affine h weights bias)) (gradient * weightsᵀ) h := by
  intro curve velocity time moves at'
  subst at'
  have fixed : ∀ column, HasDerivAt (fun _ : K => bias column) ((0 : n -> K) column) time :=
    fun column => hasDerivAt_const time (bias column)
  have chained := outer _ _ time (moves.affine (hasVelocityAt_const weights time) fixed) rfl
  apply chained.congr_deriv
  rw [pairing_add, pairing_add, pairing_mul_right, pairing_mul_left, pairing_rows]
  simp [pairing]

variable [DecidableEq n]

/-- What it does to an entry of its weights. -/
theorem affine_weights [DecidableEq k] (outer : HasGradientAt f gradient (affine h weights bias)) (row : k)
    (column : n) :
    HasDerivAt (fun x => f (affine h (setEntry weights row column x) bias)) ((hᵀ * gradient) row column)
      (weights row column) := by
  have fixed : ∀ column', HasDerivAt (fun _ : K => bias column') ((0 : n -> K) column')
      (weights row column) := fun column' => hasDerivAt_const _ (bias column')
  have chained := outer _ _ (weights row column)
    ((hasVelocityAt_const h _).affine (hasVelocityAt_setEntry weights row column _) fixed)
    (by rw [setEntry_self])
  apply chained.congr_deriv
  rw [pairing_add, pairing_add, pairing_mul_right, pairing_mul_left, pairing_rows, pairing_entry]
  simp [pairing]

/-- What it does to an entry of its bias. -/
theorem affine_bias (outer : HasGradientAt f gradient (affine h weights bias)) (column : n) :
    HasDerivAt (fun x => f (affine h weights (Function.update bias column x)))
      (∑ row, gradient row column) (bias column) := by
  have chained := outer _ _ (bias column)
    ((hasVelocityAt_const h _).affine (hasVelocityAt_const weights _) (hasVelocityAt_update bias column _))
    (by rw [Function.update_eq_self])
  apply chained.congr_deriv
  rw [pairing_add, pairing_add, pairing_mul_right, pairing_mul_left, pairing_rows]
  simp [pairing, Pi.single_apply]

end HasGradientAt

/-- A mean of squared differences, over any number. -/
theorem hasGradientAt_squares (target point : Matrix m n K) (count : K) :
    HasGradientAt (fun z => (∑ row, ∑ column, (z row column - target row column) ^ 2) / count)
      (Matrix.of fun row column => 2 * (point row column - target row column) / count) point := by
  intro curve velocity time moves at'
  subst at'
  have entries : HasDerivAt (fun t => ∑ row, ∑ column, (curve t row column - target row column) ^ 2)
      (∑ row, ∑ column, 2 * (curve time row column - target row column) * velocity row column) time := by
    apply HasDerivAt.fun_sum
    intro row _
    apply HasDerivAt.fun_sum
    intro column _
    apply (((moves row column).sub_const (target row column)).pow 2).congr_deriv
    push_cast
    ring
  apply (entries.div_const count).congr_deriv
  unfold pairing
  simp only [Matrix.of_apply, Finset.sum_div]
  apply Finset.sum_congr rfl
  intro row _
  apply Finset.sum_congr rfl
  intro column _
  ring

end Gradients

end MatrixGradient
end Foundation
