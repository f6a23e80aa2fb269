import ZeroAudit.Foundation.Negacyclic
import ZeroAudit.Prover.Lwe
import ZeroAudit.SamplePlatform

namespace ZeroAudit
namespace Lwe

open Foundation Foundation.Negacyclic

/-!
# The coefficient loops compute in `Z_q[X]/(X^N + 1)`

Every list operation of the commitment code is related to the ring operation
it implements, for both multiplication backends.  The reference loop is
followed one in-place update at a time.  The convolution path is followed
through its `int64` partial sums, none of which leaves the 64-bit range on
coefficients of 16 bits, and through the fold of its shorter high half.
-/

variable (P : Platform)

instance modulus_gt_one : Fact (1 < Q) := ⟨by decide⟩

/-- The ring the commitment scheme computes in. -/
abbrev Rq := NegacyclicRing N Q

noncomputable abbrev toRing (a : Poly) : Rq := embed N Q a

/-- A full-length list of 16-bit coefficients, as a parsed key holds. -/
structure IsWordPoly (a : Poly) : Prop where
  length : a.length = N
  range : ∀ c ∈ a, 0 ≤ c ∧ c < 65536

/-- A full-length list of reduced coefficients, as every operation returns. -/
structure IsReduced (a : Poly) : Prop where
  length : a.length = N
  range : ∀ c ∈ a, 0 ≤ c ∧ c < (Q : Int)

theorem Q_lt_word : (Q : Int) < 65536 := by decide

theorem IsReduced.isWord {a : Poly} (reduced : IsReduced a) : IsWordPoly a :=
  ⟨reduced.length, fun c member => ⟨(reduced.range c member).1,
    (reduced.range c member).2.trans Q_lt_word⟩⟩

theorem emod_Q_range (c : Int) : 0 ≤ c % (Q : Int) ∧ c % (Q : Int) < (Q : Int) :=
  ⟨Int.emod_nonneg c (by decide), Int.emod_lt_of_pos c (by decide)⟩

/-- Reduced lists are told apart by the ring elements they denote. -/
theorem toRing_injective {a b : Poly} (aReduced : IsReduced a) (bReduced : IsReduced b)
    (equal : toRing a = toRing b) : a = b :=
  embed_injective (by decide) aReduced.length bReduced.length aReduced.range bReduced.range equal

/-! ## Addition -/

theorem isReduced_zeroPoly : IsReduced zeroPoly := by
  refine ⟨List.length_replicate, fun c member => ?_⟩
  rw [List.eq_of_mem_replicate member]
  decide

theorem toRing_zeroPoly : toRing zeroPoly = 0 := embed_replicate_zero N

theorem isReduced_polyAdd {a b : Poly} (aLength : a.length = N) (bLength : b.length = N) :
    IsReduced (polyAdd a b) := by
  refine ⟨by rw [polyAdd, List.length_zipWith, aLength, bLength, Nat.min_self], ?_⟩
  intro c member
  rw [polyAdd, ← List.map_uncurry_zip_eq_zipWith] at member
  rcases List.mem_map.mp member with ⟨pair, -, rfl⟩
  exact emod_Q_range _

theorem toRing_polyAdd {a b : Poly} (lengths : a.length = b.length) :
    toRing (polyAdd a b) = toRing a + toRing b := by
  have reduced : polyAdd a b = (List.zipWith (· + ·) a b).map (· % (Q : Int)) := by
    rw [polyAdd, List.map_zipWith]
  rw [reduced, toRing, embed_map_emod, embed_zipWith_add lengths]

theorem getD_polyAdd {a b : Poly} (aLength : a.length = N) (bLength : b.length = N) {i : Nat}
    (inside : i < N) : (polyAdd a b).getD i 0 = (a.getD i 0 + b.getD i 0) % (Q : Int) := by
  have room : i < (polyAdd a b).length := by
    rw [(isReduced_polyAdd aLength bLength).length]
    exact inside
  rw [List.getD_eq_getElem _ _ room, List.getD_eq_getElem _ _ (by omega),
    List.getD_eq_getElem _ _ (by omega)]
  simp only [polyAdd, List.getElem_zipWith]

/-! ## The reference multiplication -/

section Schoolbook

variable (a b : Poly)

theorem isReduced_set {result : Poly} (reduced : IsReduced result) (index : Nat) (value : Int) :
    IsReduced (result.set index (value % (Q : Int))) := by
  refine ⟨by rw [List.length_set, reduced.length], fun c member => ?_⟩
  rcases List.mem_or_eq_of_mem_set member with old | rfl
  · exact reduced.range c old
  · exact emod_Q_range value

theorem isReduced_schoolbookStep {result : Poly} (reduced : IsReduced result) (i j : Nat) :
    IsReduced (schoolbookStep a b i result j) := by
  simp only [schoolbookStep]
  split
  · exact isReduced_set reduced _ _
  · exact isReduced_set reduced _ _

/-- One in-place update adds the monomial `a_i b_j X^(i+j)`, wrapped or not. -/
theorem toRing_schoolbookStep {result : Poly} (full : result.length = N) {i j : Nat}
    (iInside : i < N) (jInside : j < N) :
    toRing (schoolbookStep a b i result j) =
      toRing result + ((a.getD i 0 * b.getD j 0 : Int) : Rq) * root N Q ^ (i + j) := by
  simp only [schoolbookStep]
  split
  · next wrapped =>
      have inside : i + j - N < result.length := by omega
      have power : root N Q ^ (i + j) = -root N Q ^ (i + j - N) := by
        have split : i + j = N + (i + j - N) := by omega
        rw [split, pow_add, root_pow, Nat.add_sub_cancel_left]
        ring
      rw [toRing, embed_set inside, power, Int.cast_sub, intCast_emod]
      push_cast
      ring
  · next low =>
      have inside : i + j < result.length := by omega
      rw [toRing, embed_set inside, Int.cast_sub, intCast_emod]
      push_cast
      ring

/-- The inner loop adds one row of the double sum. -/
theorem schoolbookRow {result : Poly} (reduced : IsReduced result) {i : Nat} (iInside : i < N)
    (count : Nat) (bound : count ≤ N) :
    IsReduced ((List.range count).foldl (schoolbookStep a b i) result) ∧
      toRing ((List.range count).foldl (schoolbookStep a b i) result) =
        toRing result + ∑ j ∈ Finset.range count,
          ((a.getD i 0 * b.getD j 0 : Int) : Rq) * root N Q ^ (i + j) := by
  induction count with
  | zero => exact ⟨reduced, by simp⟩
  | succ count inductionHypothesis =>
      rcases inductionHypothesis (Nat.le_of_succ_le bound) with ⟨rowReduced, rowValue⟩
      rw [List.range_succ, List.foldl_append, Finset.sum_range_succ]
      refine ⟨isReduced_schoolbookStep a b rowReduced i count, ?_⟩
      rw [List.foldl_cons, List.foldl_nil, toRing_schoolbookStep a b rowReduced.length iInside bound,
        rowValue, add_assoc]

/-- The outer loop adds the rows; a skipped row is a row of zeros. -/
theorem schoolbookRows (count : Nat) (bound : count ≤ N) :
    let result := (List.range count).foldl
      (fun result i => if a.getD i 0 = 0 then result
        else (List.range N).foldl (schoolbookStep a b i) result) zeroPoly
    IsReduced result ∧ toRing result =
      ∑ i ∈ Finset.range count, ∑ j ∈ Finset.range N,
        ((a.getD i 0 * b.getD j 0 : Int) : Rq) * root N Q ^ (i + j) := by
  induction count with
  | zero => exact ⟨isReduced_zeroPoly, by simpa using toRing_zeroPoly⟩
  | succ count inductionHypothesis =>
      rcases inductionHypothesis (Nat.le_of_succ_le bound) with ⟨reduced, value⟩
      simp only [List.range_succ, List.foldl_append, List.foldl_cons, List.foldl_nil,
        Finset.sum_range_succ (fun i => ∑ j ∈ Finset.range N, _) count]
      split
      · next zero =>
          refine ⟨reduced, ?_⟩
          rw [value, zero]
          simp
      · rcases schoolbookRow a b reduced bound N le_rfl with ⟨rowReduced, rowValue⟩
        exact ⟨rowReduced, by rw [rowValue, value]⟩

theorem isReduced_polyMulSchoolbook : IsReduced (polyMulSchoolbook a b) :=
  (schoolbookRows a b N le_rfl).1

variable {a b}

theorem toRing_polyMulSchoolbook (aLength : a.length = N) (bLength : b.length = N) :
    toRing (polyMulSchoolbook a b) = toRing a * toRing b := by
  rw [toRing, toRing, embed_mul, aLength, bLength]
  exact (schoolbookRows a b N le_rfl).2

end Schoolbook

/-! ## The convolution path -/

section Numpy

theorem wrap64_of_small {x : Int} (low : -(2 ^ 62) ≤ x) (high : x ≤ 2 ^ 62) : wrap64 x = x := by
  rw [wrap64, Int.bmod_def]
  split <;> omega

theorem getD_range {a : Poly} (range : ∀ c ∈ a, 0 ≤ c ∧ c < 65536) (i : Nat) :
    0 ≤ a.getD i 0 ∧ a.getD i 0 < 65536 := by
  by_cases inside : i < a.length
  · rw [List.getD_eq_getElem _ _ inside]
    exact range _ (List.getElem_mem inside)
  · rw [List.getD_eq_default _ _ (Nat.le_of_not_lt inside)]
    decide

variable {a b : Poly}

/-- A product of two 16-bit coefficients fits in 32 bits. -/
theorem product_range (aRange : ∀ c ∈ a, 0 ≤ c ∧ c < 65536) (bRange : ∀ c ∈ b, 0 ≤ c ∧ c < 65536)
    (i j : Nat) : 0 ≤ a.getD i 0 * b.getD j 0 ∧ a.getD i 0 * b.getD j 0 ≤ 2 ^ 32 := by
  rcases getD_range aRange i with ⟨aLow, aHigh⟩
  rcases getD_range bRange j with ⟨bLow, bHigh⟩
  refine ⟨mul_nonneg aLow bLow, ?_⟩
  calc a.getD i 0 * b.getD j 0 ≤ 65536 * 65536 := by gcongr
    _ = 2 ^ 32 := by norm_num

/-- The accumulator of one entry of the convolution after some of its terms. -/
def accumulated (a b : Poly) (k count : Nat) : Int :=
  (List.range count).foldl (fun acc i => wrap64 (acc + wrap64 (a.getD i 0 * b.getD (k - i) 0))) 0

/-- No accumulator leaves the `int64` range, so it holds the exact sum. -/
theorem accumulated_eq (aRange : ∀ c ∈ a, 0 ≤ c ∧ c < 65536) (bRange : ∀ c ∈ b, 0 ≤ c ∧ c < 65536)
    (k count : Nat) (bound : count ≤ 2 * N) :
    accumulated a b k count = ∑ i ∈ Finset.range count, a.getD i 0 * b.getD (k - i) 0 ∧
      0 ≤ accumulated a b k count ∧ accumulated a b k count ≤ count * 2 ^ 32 := by
  induction count with
  | zero => simp [accumulated]
  | succ count inductionHypothesis =>
      rcases inductionHypothesis (Nat.le_of_succ_le bound) with ⟨value, low, high⟩
      rcases product_range aRange bRange count (k - count) with ⟨termLow, termHigh⟩
      have limit : (count : Int) ≤ 512 := by
        simp only [N] at bound
        omega
      have next : accumulated a b k (count + 1) =
          wrap64 (accumulated a b k count + wrap64 (a.getD count 0 * b.getD (k - count) 0)) := by
        simp only [accumulated, List.range_succ, List.foldl_append, List.foldl_cons, List.foldl_nil]
      rw [next, Finset.sum_range_succ, ← value, wrap64_of_small (x := a.getD count 0 * b.getD (k - count) 0) (by omega)
        (by omega)]
      rw [wrap64_of_small (by omega) (by omega)]
      refine ⟨rfl, by omega, ?_⟩
      push_cast
      omega

theorem convolution_range (aRange : ∀ c ∈ a, 0 ≤ c ∧ c < 65536) (bRange : ∀ c ∈ b, 0 ≤ c ∧ c < 65536) {k : Nat}
    (bound : k < 2 * N) : 0 ≤ convolution a b k ∧ convolution a b k ≤ 2 ^ 42 := by
  rcases accumulated_eq aRange bRange k (k + 1) bound with ⟨value, low, high⟩
  have limit : ((k + 1 : Nat) : Int) ≤ 512 := by
    simp only [N] at bound
    omega
  rw [convolution, ← value]
  exact ⟨low, by omega⟩

variable (a b) in
theorem isReduced_polyMulNumpy : IsReduced (polyMulNumpy P a b) := by
  refine ⟨by simp [polyMulNumpy], fun c member => ?_⟩
  rcases List.mem_map.mp member with ⟨value, -, rfl⟩
  exact emod_Q_range value

/-- On 16-bit coefficients the entries of NumPy's convolution are exact. -/
theorem getD_convolve (aWord : IsWordPoly a) (bWord : IsWordPoly b) {k : Nat} (inside : k < 2 * N - 1) :
    (P.convolve a b).getD k 0 = convolution a b k := by
  have fits : ∀ c ∈ a ++ b, -(2 ^ 63) ≤ c ∧ c < 2 ^ 63 := by
    intro c member
    rcases List.mem_append.mp member with left | right
    · have range := aWord.range c left
      omega
    · have range := bWord.range c right
      omega
  have place : k < a.length + b.length - 1 := by
    rw [aWord.length, bWord.length]
    omega
  have sum : ((List.range (k + 1)).map fun i => a.getD i 0 * b.getD (k - i) 0).sum = convolution a b k := rfl
  rcases convolution_range aWord.range bWord.range (k := k) (by omega) with ⟨low, high⟩
  rw [P.convolve_entry a b k fits place, sum]
  exact wrap64_of_small (by omega) (by omega)

/-- The folded coefficient is the exact difference the ring relation asks for. -/
theorem folded_eq (aWord : IsWordPoly a) (bWord : IsWordPoly b) {i : Nat} (inside : i < N) :
    (if i < N - 1 then
        wrap64 ((P.convolve a b).getD i 0 - (P.convolve a b).getD (N + i) 0)
      else (P.convolve a b).getD i 0) =
      convolution a b i - (if i < N - 1 then convolution a b (N + i) else 0) := by
  rcases convolution_range aWord.range bWord.range (k := i) (by omega) with ⟨low, high⟩
  split
  · next short =>
      rcases convolution_range aWord.range bWord.range (k := N + i) (by omega) with ⟨low', high'⟩
      rw [getD_convolve P aWord bWord (by omega), getD_convolve P aWord bWord (by omega),
        wrap64_of_small (by omega) (by omega)]
  · rw [getD_convolve P aWord bWord (by simp only [N] at inside ⊢; omega), sub_zero]

theorem toRing_polyMulNumpy (aWord : IsWordPoly a) (bWord : IsWordPoly b) :
    toRing (polyMulNumpy P a b) = toRing a * toRing b := by
  have positive : 0 < N := by decide
  have total : a.length + b.length - 1 = N + (N - 1) := by
    rw [aWord.length, bWord.length]
    omega
  rw [polyMulNumpy, toRing, embed_map_emod, embed_eq_sum, toRing, toRing,
    embed_mul_eq_convolution (by rw [aWord.length]; exact positive)
      (by rw [bWord.length]; exact positive), total, sum_fold _ _ (Nat.sub_le N 1)]
  rw [List.length_map, List.length_range]
  apply Finset.sum_congr rfl
  intro i member
  have inside := Finset.mem_range.mp member
  rw [List.getD_eq_getElem _ _ (by simpa using inside), List.getElem_map, List.getElem_range,
    folded_eq P aWord bWord inside]

end Numpy

/-! ## Both backends -/

theorem isReduced_polyMul (a b : Poly) : IsReduced (polyMul P a b) := by
  rw [polyMul]
  split
  · exact isReduced_polyMulNumpy P a b
  · exact isReduced_polyMulSchoolbook a b

theorem toRing_polyMul {a b : Poly} (aWord : IsWordPoly a) (bWord : IsWordPoly b) :
    toRing (polyMul P a b) = toRing a * toRing b := by
  rw [polyMul]
  split
  · exact toRing_polyMulNumpy P aWord bWord
  · exact toRing_polyMulSchoolbook aWord.length bWord.length

/-! ## Against the product of polynomials -/

/-- The coefficients modulo `q` of the product of two polynomials modulo `X^N + 1`. -/
noncomputable def negacyclicProduct (a b : Poly) : Poly := remainder N (toPoly Q a * toPoly Q b)

/-- The numbers that an `int64` holds. -/
def FitsInt64 (x : Int) : Prop := -(2 ^ 63) ≤ x ∧ x < 2 ^ 63

/-- Nothing that the convolution path computes leaves the 64-bit range: no input, no
product, no sum that an accumulator goes through, no sum of any part of the products of
an entry, in whatever order they are added, and no difference of the fold. -/
structure NoOverflow (a b : Poly) : Prop where
  inputs : ∀ c ∈ a ++ b, FitsInt64 c
  products : ∀ i j, FitsInt64 (a.getD i 0 * b.getD j 0)
  sums : ∀ k < 2 * N - 1, ∀ i ≤ k,
    FitsInt64 (accumulated a b k i + wrap64 (a.getD i 0 * b.getD (k - i) 0))
  parts : ∀ k < 2 * N - 1, ∀ indices ⊆ Finset.range (k + 1),
    FitsInt64 (∑ i ∈ indices, a.getD i 0 * b.getD (k - i) 0)
  differences : ∀ i < N - 1, FitsInt64 ((P.convolve a b).getD i 0 - (P.convolve a b).getD (N + i) 0)

section Agreement

variable {a b : Poly}

theorem fits_of_small {x : Int} (low : -(2 ^ 62) ≤ x) (high : x ≤ 2 ^ 62) : FitsInt64 x := by
  unfold FitsInt64
  omega

/-- A sum of some of the products of an entry lies between zero and the whole entry. -/
theorem partial_sum_range (aWord : IsWordPoly a) (bWord : IsWordPoly b) {k : Nat} (bound : k < 2 * N)
    {indices : Finset Nat} (inside : indices ⊆ Finset.range (k + 1)) :
    0 ≤ ∑ i ∈ indices, a.getD i 0 * b.getD (k - i) 0 ∧
      ∑ i ∈ indices, a.getD i 0 * b.getD (k - i) 0 ≤ 2 ^ 42 := by
  have nonneg : ∀ i, 0 ≤ a.getD i 0 * b.getD (k - i) 0 := fun i =>
    (product_range aWord.range bWord.range i (k - i)).1
  refine ⟨Finset.sum_nonneg fun i _ => nonneg i, ?_⟩
  calc ∑ i ∈ indices, a.getD i 0 * b.getD (k - i) 0
      ≤ ∑ i ∈ Finset.range (k + 1), a.getD i 0 * b.getD (k - i) 0 :=
        Finset.sum_le_sum_of_subset_of_nonneg inside fun i _ _ => nonneg i
    _ ≤ 2 ^ 42 := (convolution_range aWord.range bWord.range bound).2

theorem noOverflow (aWord : IsWordPoly a) (bWord : IsWordPoly b) : NoOverflow P a b where
  inputs := by
    intro c member
    have range : 0 ≤ c ∧ c < 65536 := by
      rcases List.mem_append.mp member with left | right
      · exact aWord.range c left
      · exact bWord.range c right
    exact fits_of_small (by omega) (by omega)
  products := by
    intro i j
    rcases product_range aWord.range bWord.range i j with ⟨low, high⟩
    exact fits_of_small (by omega) (by omega)
  sums := by
    intro k kInside i iInside
    rcases accumulated_eq aWord.range bWord.range k i (by omega) with ⟨-, low, high⟩
    rcases product_range aWord.range bWord.range i (k - i) with ⟨termLow, termHigh⟩
    have limit : (i : Int) ≤ 512 := by
      simp only [N] at kInside
      omega
    rw [wrap64_of_small (x := a.getD i 0 * b.getD (k - i) 0) (by omega) (by omega)]
    exact fits_of_small (by omega) (by omega)
  parts := by
    intro k kInside indices among
    rcases partial_sum_range aWord bWord (by omega) among with ⟨low, high⟩
    exact fits_of_small (by omega) (by omega)
  differences := by
    intro i inside
    rcases convolution_range aWord.range bWord.range (k := i) (by omega) with ⟨low, high⟩
    rcases convolution_range aWord.range bWord.range (k := N + i) (by omega) with ⟨low', high'⟩
    rw [getD_convolve P aWord bWord (by omega), getD_convolve P aWord bWord (by omega)]
    exact fits_of_small (by omega) (by omega)

theorem isReduced_negacyclicProduct (a b : Poly) : IsReduced (negacyclicProduct a b) :=
  ⟨(remainder_range _).1, (remainder_range _).2⟩

theorem toRing_negacyclicProduct (a b : Poly) : toRing (negacyclicProduct a b) = toRing a * toRing b := by
  rw [toRing, negacyclicProduct, embed_remainder (by decide), map_mul, mk_toPoly, mk_toPoly]

/-- On 16-bit coefficients both multiplications give the product modulo `X^N + 1` and `q`,
and nothing in the fast one overflows. -/
theorem polyMul_backends_correct (aWord : IsWordPoly a) (bWord : IsWordPoly b) :
    polyMulNumpy P a b = polyMulSchoolbook a b ∧ polyMulSchoolbook a b = negacyclicProduct a b ∧
      NoOverflow P a b := by
  refine ⟨?_, ?_, noOverflow P aWord bWord⟩
  · apply toRing_injective (isReduced_polyMulNumpy P a b) (isReduced_polyMulSchoolbook a b)
    rw [toRing_polyMulNumpy P aWord bWord, toRing_polyMulSchoolbook aWord.length bWord.length]
  · apply toRing_injective (isReduced_polyMulSchoolbook a b) (isReduced_negacyclicProduct a b)
    rw [toRing_polyMulSchoolbook aWord.length bWord.length, toRing_negacyclicProduct]

/-- The polynomial of the largest coefficients. -/
def largestPoly : Poly := List.replicate N 65535

theorem isWord_largestPoly : IsWordPoly largestPoly := by
  refine ⟨List.length_replicate, fun c member => ?_⟩
  rw [List.eq_of_mem_replicate member]
  decide

theorem polyMul_backends_largest :
    polyMulNumpy samplePlatform largestPoly largestPoly = polyMulSchoolbook largestPoly largestPoly ∧
      polyMulSchoolbook largestPoly largestPoly = negacyclicProduct largestPoly largestPoly ∧
      NoOverflow samplePlatform largestPoly largestPoly :=
  polyMul_backends_correct samplePlatform isWord_largestPoly isWord_largestPoly

end Agreement

/-! ## The module operations -/

theorem isReduced_innerProduct (t r : List Poly) : IsReduced (innerProduct P t r) := by
  simp only [innerProduct, K, List.range_succ, List.range_zero, List.nil_append, List.foldl_cons,
    List.foldl_nil, List.cons_append]
  exact isReduced_polyAdd
    (isReduced_polyAdd isReduced_zeroPoly.length (isReduced_polyMul P _ _).length).length
    (isReduced_polyMul P _ _).length

/-- `K` polynomials with 16-bit coefficients. -/
def IsWordVector (v : List Poly) : Prop := ∀ i < K, IsWordPoly (v.getD i [])

theorem toRing_innerProduct {t r : List Poly} (tWord : IsWordVector t) (rWord : IsWordVector r) :
    toRing (innerProduct P t r) =
      ∑ i ∈ Finset.range K, toRing (t.getD i []) * toRing (r.getD i []) := by
  have first := toRing_polyMul P (tWord 0 (by decide)) (rWord 0 (by decide))
  have second := toRing_polyMul P (tWord 1 (by decide)) (rWord 1 (by decide))
  simp only [innerProduct, K, List.range_succ, List.range_zero, List.nil_append, List.foldl_cons,
    List.foldl_nil, List.cons_append, Finset.sum_range_succ, Finset.range_zero, Finset.sum_empty]
  rw [toRing_polyAdd, toRing_polyAdd, toRing_zeroPoly, first, second]
  · rw [isReduced_zeroPoly.length, (isReduced_polyMul P _ _).length]
  · rw [(isReduced_polyMul P _ _).length, (isReduced_polyAdd isReduced_zeroPoly.length
      (isReduced_polyMul P _ _).length).length]

theorem getD_moduleMulAdd (A : List (List Poly)) (s e : List Poly) {i : Nat} (inside : i < K) :
    (moduleMulAdd P A s e).getD i [] =
      polyAdd (innerProduct P (A.getD i []) s) (e.getD i []) := by
  rw [moduleMulAdd, List.getD_eq_getElem _ _ (by simpa using inside)]
  simp

theorem length_moduleMulAdd (A : List (List Poly)) (s e : List Poly) :
    (moduleMulAdd P A s e).length = K := by
  simp [moduleMulAdd]

theorem isReduced_moduleMulAdd (A : List (List Poly)) (s : List Poly) {e : List Poly}
    (eWord : IsWordVector e) {i : Nat} (inside : i < K) :
    IsReduced ((moduleMulAdd P A s e).getD i []) := by
  rw [getD_moduleMulAdd P A s e inside]
  exact isReduced_polyAdd (isReduced_innerProduct P _ _).length (eWord i inside).length

theorem toRing_moduleMulAdd {A : List (List Poly)} {s e : List Poly}
    (AWord : ∀ i < K, IsWordVector (A.getD i [])) (sWord : IsWordVector s)
    (eWord : IsWordVector e) {i : Nat} (inside : i < K) :
    toRing ((moduleMulAdd P A s e).getD i []) =
      (∑ j ∈ Finset.range K, toRing ((A.getD i []).getD j []) * toRing (s.getD j [])) +
        toRing (e.getD i []) := by
  rw [getD_moduleMulAdd P A s e inside, toRing_polyAdd,
    toRing_innerProduct P (AWord i inside) sWord]
  rw [(isReduced_innerProduct P _ _).length, (eWord i inside).length]

end Lwe
end ZeroAudit
