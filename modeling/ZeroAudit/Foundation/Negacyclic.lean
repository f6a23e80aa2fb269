import Mathlib.RingTheory.AdjoinRoot
import Mathlib.Data.List.GetD
import Mathlib.Data.ZMod.Basic
import Mathlib.Data.Matrix.Mul
import Mathlib.Algebra.Polynomial.BigOperators

namespace Foundation

open Polynomial

/-!
# The negacyclic quotient ring and its coefficient lists

Programs compute in `Z_q[X]/(X^N + 1)` with lists of integer coefficients.
`embed` sends such a list to the element it denotes, by Horner evaluation at
the root.  An in-place update of one coefficient changes the denoted element
by a monomial, so a loop of updates is followed by a sum of monomials; and
reduction of a coefficient modulo `q` changes nothing.  On lists of length `N`
with coefficients in `[0, q)` the map is injective, so an equation in the ring
gives back an equation of lists.
-/

variable (N q : Nat)

/-- The ring `Z_q[X]/(X^N + 1)`. -/
abbrev NegacyclicRing := AdjoinRoot (X ^ N + 1 : (ZMod q)[X])

namespace Negacyclic

/-- The image of `X`. -/
noncomputable def root : NegacyclicRing N q := AdjoinRoot.root _

theorem root_pow : root N q ^ N = -1 := by
  have relation : (AdjoinRoot.mk (X ^ N + 1 : (ZMod q)[X])) (X ^ N + 1) = 0 := AdjoinRoot.mk_self
  rw [map_add, map_pow, map_one, AdjoinRoot.mk_X] at relation
  exact eq_neg_of_add_eq_zero_left relation

/-- The element a coefficient list denotes. -/
noncomputable def embed : List Int -> NegacyclicRing N q
  | [] => 0
  | c :: rest => (c : NegacyclicRing N q) + root N q * embed rest

variable {N q}

/-! ## Coefficients are only read modulo `q` -/

theorem intCast_emod (c : Int) : ((c % q : Int) : NegacyclicRing N q) = c := by
  have scalars : ((c % q : Int) : ZMod q) = c := ZMod.intCast_mod c q
  have image := congrArg (algebraMap (ZMod q) (NegacyclicRing N q)) scalars
  simpa only [map_intCast] using image

theorem embed_map_emod (a : List Int) : embed N q (a.map (· % (q : Int))) = embed N q a := by
  induction a with
  | nil => rfl
  | cons c rest inductionHypothesis =>
      rw [List.map_cons, embed, embed, intCast_emod, inductionHypothesis]

@[simp] theorem embed_replicate_zero (n : Nat) : embed N q (List.replicate n 0) = 0 := by
  induction n with
  | zero => rfl
  | succ n inductionHypothesis =>
      rw [List.replicate_succ, embed, inductionHypothesis, Int.cast_zero, mul_zero, add_zero]

/-- Coefficientwise addition of lists of one length denotes the sum. -/
theorem embed_zipWith_add {a b : List Int} (lengths : a.length = b.length) :
    embed N q (List.zipWith (· + ·) a b) = embed N q a + embed N q b := by
  induction a generalizing b with
  | nil =>
      have empty : b = [] := List.eq_nil_of_length_eq_zero lengths.symm
      subst empty
      simp only [List.zipWith_nil_left, embed, add_zero]
  | cons c rest inductionHypothesis =>
      cases b with
      | nil => cases lengths
      | cons d others =>
          have tails := inductionHypothesis (Nat.succ.inj lengths)
          simp only [List.zipWith_cons_cons, embed, tails, Int.cast_add]
          ring

/-- Writing one coefficient adds the monomial of the difference. -/
theorem embed_set {a : List Int} {index : Nat} (inside : index < a.length) (value : Int) :
    embed N q (a.set index value) =
      embed N q a + ((value - a.getD index 0 : Int) : NegacyclicRing N q) * root N q ^ index := by
  induction a generalizing index with
  | nil => exact absurd inside (Nat.not_lt_zero _)
  | cons c rest inductionHypothesis =>
      cases index with
      | zero =>
          simp only [List.set_cons_zero, embed, List.getD_cons_zero, pow_zero, mul_one]
          push_cast
          ring
      | succ index =>
          have tail := inductionHypothesis (Nat.lt_of_succ_lt_succ inside)
          simp only [List.set_cons_succ, embed, List.getD_cons_succ, tail, pow_succ]
          ring

/-! ## Coefficient lists as polynomials -/

/-- The polynomial with the given coefficients, lowest first. -/
noncomputable def toPoly (q : Nat) : List Int -> (ZMod q)[X]
  | [] => 0
  | c :: rest => C (c : ZMod q) + X * toPoly q rest

theorem mk_toPoly (a : List Int) :
    AdjoinRoot.mk (X ^ N + 1 : (ZMod q)[X]) (toPoly q a) = embed N q a := by
  induction a with
  | nil => exact map_zero _
  | cons c rest inductionHypothesis =>
      rw [toPoly, embed, map_add, map_mul, inductionHypothesis, AdjoinRoot.mk_X, AdjoinRoot.mk_C]
      simp only [map_intCast, root]

theorem coeff_toPoly (a : List Int) (index : Nat) :
    (toPoly q a).coeff index = ((a.getD index 0 : Int) : ZMod q) := by
  induction a generalizing index with
  | nil => simp [toPoly]
  | cons c rest inductionHypothesis =>
      cases index with
      | zero =>
          rw [toPoly, coeff_add, coeff_C_zero, coeff_X_mul_zero, add_zero, List.getD_cons_zero]
      | succ index =>
          rw [toPoly, coeff_add, coeff_C_succ, coeff_X_mul, inductionHypothesis, zero_add,
            List.getD_cons_succ]

theorem natDegree_toPoly_lt {a : List Int} (nonempty : 0 < a.length) :
    (toPoly q a).natDegree < a.length := by
  refine Nat.lt_of_le_pred nonempty (natDegree_le_iff_coeff_eq_zero.mpr fun index beyond => ?_)
  rw [coeff_toPoly, List.getD_eq_default _ _ (Nat.le_of_pred_lt beyond), Int.cast_zero]

/-- A polynomial's image is the sum of its monomials, up to any bound on its degree. -/
theorem mk_eq_sum {p : (ZMod q)[X]} {bound : Nat} (degree : p.natDegree < bound) :
    AdjoinRoot.mk (X ^ N + 1 : (ZMod q)[X]) p =
      ∑ index ∈ Finset.range bound,
        algebraMap (ZMod q) (NegacyclicRing N q) (p.coeff index) * root N q ^ index := by
  conv_lhs => rw [p.as_sum_range' bound degree]
  simp only [map_sum, ← C_mul_X_pow_eq_monomial, map_mul, map_pow, AdjoinRoot.mk_X,
    AdjoinRoot.mk_C, root, AdjoinRoot.algebraMap_eq]

theorem embed_eq_sum (a : List Int) :
    embed N q a = ∑ index ∈ Finset.range a.length,
      ((a.getD index 0 : Int) : NegacyclicRing N q) * root N q ^ index := by
  induction a with
  | nil => rfl
  | cons c rest inductionHypothesis =>
      rw [embed, inductionHypothesis, List.length_cons, Finset.sum_range_succ', Finset.mul_sum]
      simp only [List.getD_cons_succ, List.getD_cons_zero, pow_zero, mul_one, pow_succ]
      rw [add_comm]
      congr 1
      apply Finset.sum_congr rfl
      intro index _
      ring

theorem monic_modulus (positive : 0 < N) : (X ^ N + 1 : (ZMod q)[X]).Monic :=
  monic_X_pow_add_C 1 positive.ne'

/-- Lists of full length with reduced coefficients are told apart by the
elements they denote. -/
theorem embed_injective [Fact (1 < q)] (positive : 0 < N) {a b : List Int}
    (aLength : a.length = N) (bLength : b.length = N)
    (aReduced : ∀ c ∈ a, 0 ≤ c ∧ c < q) (bReduced : ∀ c ∈ b, 0 ≤ c ∧ c < q)
    (equal : embed N q a = embed N q b) : a = b := by
  have monic : (X ^ N + 1 : (ZMod q)[X]).Monic := monic_modulus positive
  have modulusDegree : (X ^ N + 1 : (ZMod q)[X]).natDegree = N := natDegree_X_pow_add_C
  have polynomials : toPoly q a = toPoly q b := by
    by_contra different
    have nonzero : toPoly q a - toPoly q b ≠ 0 := sub_ne_zero.mpr different
    have small : (toPoly q a - toPoly q b).natDegree < (X ^ N + 1 : (ZMod q)[X]).natDegree := by
      rw [modulusDegree]
      have aDegree := natDegree_toPoly_lt (q := q) (a := a) (aLength ▸ positive)
      have bDegree := natDegree_toPoly_lt (q := q) (a := b) (bLength ▸ positive)
      exact (natDegree_sub_le _ _).trans_lt (by omega)
    apply AdjoinRoot.mk_ne_zero_of_natDegree_lt monic nonzero small
    rw [map_sub, mk_toPoly, mk_toPoly, equal, sub_self]
  apply List.ext_getElem (aLength.trans bLength.symm)
  intro index aInside bInside
  have coefficients := congrArg (fun p => p.coeff index) polynomials
  simp only [coeff_toPoly, List.getD_eq_getElem _ _ aInside, List.getD_eq_getElem _ _ bInside,
    ZMod.intCast_eq_intCast_iff_dvd_sub] at coefficients
  have aRange := aReduced _ (List.getElem_mem aInside)
  have bRange := bReduced _ (List.getElem_mem bInside)
  rcases coefficients with ⟨multiple, difference⟩
  have trivial : multiple = 0 := by
    by_contra nonzero
    rcases lt_or_gt_of_ne nonzero with negative | positiveMultiple
    · have : (q : Int) * multiple ≤ q * (-1) := by gcongr; omega
      omega
    · have : (q : Int) * 1 ≤ q * multiple := by gcongr; omega
      omega
  rw [trivial, mul_zero] at difference
  omega

/-! ## The remainder of a polynomial -/

section Remainder

variable [Fact (1 < q)]

theorem natDegree_remainder_lt (positive : 0 < N) (p : (ZMod q)[X]) :
    (p %ₘ (X ^ N + 1 : (ZMod q)[X])).natDegree < N := by
  have modulusDegree : (X ^ N + 1 : (ZMod q)[X]).natDegree = N := natDegree_X_pow_add_C
  have nontrivial : (X ^ N + 1 : (ZMod q)[X]) ≠ 1 := by
    intro one
    rw [one, natDegree_one] at modulusDegree
    exact positive.ne modulusDegree
  have small := natDegree_modByMonic_lt p (monic_modulus positive) nontrivial
  rw [modulusDegree] at small
  exact small

/-- The coefficients of the remainder of a polynomial modulo `X^N + 1`, each as its
representative in `[0, q)`. -/
noncomputable def remainder (N : Nat) (p : (ZMod q)[X]) : List Int :=
  (List.range N).map fun index => ((p %ₘ (X ^ N + 1 : (ZMod q)[X])).coeff index).val

/-- The remainder denotes the class of the polynomial. -/
theorem embed_remainder (positive : 0 < N) (p : (ZMod q)[X]) :
    embed N q (remainder N p) = AdjoinRoot.mk (X ^ N + 1 : (ZMod q)[X]) p := by
  have nonzero : NeZero q := ⟨(Nat.zero_lt_one.trans (Fact.out : 1 < q)).ne'⟩
  have sameClass : AdjoinRoot.mk (X ^ N + 1 : (ZMod q)[X]) (p %ₘ (X ^ N + 1 : (ZMod q)[X])) =
      AdjoinRoot.mk _ p :=
    AdjoinRoot.mk_leftInverse (monic_modulus positive) (AdjoinRoot.mk _ p)
  rw [← sameClass, mk_eq_sum (natDegree_remainder_lt positive p), embed_eq_sum]
  unfold remainder
  rw [List.length_map, List.length_range]
  apply Finset.sum_congr rfl
  intro index member
  have inside := Finset.mem_range.mp member
  rw [List.getD_eq_getElem _ _ (by simpa using inside), List.getElem_map, List.getElem_range]
  congr 1
  generalize (p %ₘ (X ^ N + 1 : (ZMod q)[X])).coeff index = c
  have value : ((c.val : Nat) : ZMod q) = c := ZMod.natCast_zmod_val c
  rw [Int.cast_natCast, ← map_natCast (algebraMap (ZMod q) (NegacyclicRing N q)), value]

theorem remainder_range (p : (ZMod q)[X]) :
    (remainder N p).length = N ∧ ∀ c ∈ remainder N p, 0 ≤ c ∧ c < q := by
  have nonzero : NeZero q := ⟨(Nat.zero_lt_one.trans (Fact.out : 1 < q)).ne'⟩
  refine ⟨by simp [remainder], fun c member => ?_⟩
  rcases List.mem_map.mp member with ⟨index, -, rfl⟩
  exact ⟨Int.natCast_nonneg _, Int.ofNat_lt.mpr (ZMod.val_lt _)⟩

end Remainder

/-! ## Products -/

/-- The product of two denoted elements as a double sum of monomials. -/
theorem embed_mul (a b : List Int) :
    embed N q a * embed N q b =
      ∑ i ∈ Finset.range a.length, ∑ j ∈ Finset.range b.length,
        ((a.getD i 0 * b.getD j 0 : Int) : NegacyclicRing N q) * root N q ^ (i + j) := by
  rw [embed_eq_sum a, embed_eq_sum b, Finset.sum_mul_sum]
  apply Finset.sum_congr rfl
  intro i _
  apply Finset.sum_congr rfl
  intro j _
  rw [Int.cast_mul, pow_add]
  ring

/-- The full convolution of two coefficient lists at one index. -/
def convolution (a b : List Int) (index : Nat) : Int :=
  ∑ i ∈ Finset.range (index + 1), a.getD i 0 * b.getD (index - i) 0

/-- The product as the sum of the full convolution, before any folding. -/
theorem embed_mul_eq_convolution {a b : List Int} (aNonempty : 0 < a.length)
    (bNonempty : 0 < b.length) :
    embed N q a * embed N q b =
      ∑ index ∈ Finset.range (a.length + b.length - 1),
        ((convolution a b index : Int) : NegacyclicRing N q) * root N q ^ index := by
  have degree : (toPoly q a * toPoly q b).natDegree < a.length + b.length - 1 := by
    have aDegree := natDegree_toPoly_lt (q := q) aNonempty
    have bDegree := natDegree_toPoly_lt (q := q) bNonempty
    exact natDegree_mul_le.trans_lt (by omega)
  rw [← mk_toPoly, ← mk_toPoly, ← map_mul, mk_eq_sum degree]
  apply Finset.sum_congr rfl
  intro index _
  rw [coeff_mul, Finset.Nat.sum_antidiagonal_eq_sum_range_succ
    (fun i j => (toPoly q a).coeff i * (toPoly q b).coeff j)]
  simp only [coeff_toPoly, convolution, map_sum, map_mul, map_intCast, Int.cast_sum, Int.cast_mul]

/-- Folding the high half back with a sign flip: `X^N = -1`. -/
theorem sum_fold (c : Nat -> Int) (high : Nat) (short : high ≤ N) :
    ∑ index ∈ Finset.range (N + high), ((c index : Int) : NegacyclicRing N q) * root N q ^ index =
      ∑ index ∈ Finset.range N,
        ((c index - (if index < high then c (N + index) else 0) : Int) : NegacyclicRing N q) *
          root N q ^ index := by
  have split : ∑ index ∈ Finset.range N,
      ((if index < high then c (N + index) else 0 : Int) : NegacyclicRing N q) *
        root N q ^ index =
      ∑ index ∈ Finset.range high, ((c (N + index) : Int) : NegacyclicRing N q) *
        root N q ^ index := by
    rw [← Finset.sum_subset (Finset.range_mono short)]
    · apply Finset.sum_congr rfl
      intro index member
      rw [if_pos (Finset.mem_range.mp member)]
    · intro index _ outside
      rw [if_neg (fun inside => outside (Finset.mem_range.mpr inside)), Int.cast_zero, zero_mul]
  simp only [Int.cast_sub, sub_mul, Finset.sum_sub_distrib]
  rw [split, Finset.sum_range_add, sub_eq_add_neg, ← Finset.sum_neg_distrib]
  congr 1
  apply Finset.sum_congr rfl
  intro index _
  rw [pow_add, root_pow]
  ring

end Negacyclic

/-! ## The decryption identity of a noisy linear commitment -/

section Decryption

variable {R ι : Type*} [CommRing R] [Fintype ι]

open Matrix in
/-- With `t = A s + e`, `u = Aᵀ r + e₁` and `v = ⟨t, r⟩ + e₂ + m`, whoever
knows `s` removes the matrix from `v` and is left with the message and noise. -/
theorem decryption_identity (A : Matrix ι ι R) (s e r e₁ : ι -> R) (e₂ m : R) :
    ((A *ᵥ s + e) ⬝ᵥ r + e₂ + m) - s ⬝ᵥ (Aᵀ *ᵥ r + e₁) = m + (e ⬝ᵥ r + e₂ - s ⬝ᵥ e₁) := by
  have transpose : s ⬝ᵥ (Aᵀ *ᵥ r) = (A *ᵥ s) ⬝ᵥ r := by
    rw [dotProduct_mulVec, vecMul_transpose]
  rw [add_dotProduct, dotProduct_add, transpose]
  ring

end Decryption

end Foundation
