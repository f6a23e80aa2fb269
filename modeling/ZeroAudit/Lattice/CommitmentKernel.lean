import Mathlib.Data.Nat.Bitwise
import ZeroAudit.Lattice.RingArithmetic

namespace ZeroAudit
namespace Lwe

open Foundation Foundation.Negacyclic

/-!
# Samplers, encoding and the commitment kernel

One specification per function.  The samplers return reduced coefficients for
any extendable-output function, so the kernel packs without error on every
amount in the domain and refuses every other amount with a `ValueError`.  The
amount enters only through the last addition, and the addition is cancellative
in the ring: under one key and one blinding seed, equal blobs hold equal
amounts.
-/

variable (P : Platform)

/-! ## Samplers -/

theorem isReduced_cbd (seed : Bytes) (nonce : Nat) : IsReduced (cbd P seed nonce N) := by
  refine ⟨by simp [cbd], fun c member => ?_⟩
  rcases List.mem_map.mp member with ⟨index, -, rfl⟩
  exact emod_Q_range _

/-- Whatever the buffer holds, the loop ends with `need` reduced coefficients. -/
theorem rejectionSample_spec (need : Nat) (buffer : Bytes) :
    (rejectionSample need buffer).length = need ∧
      ∀ c ∈ rejectionSample need buffer, 0 ≤ c ∧ c < (Q : Int) := by
  fun_induction rejectionSample need buffer with
  | case1 low high rest need val accepted inductionHypothesis =>
      refine ⟨congrArg (· + 1) inductionHypothesis.1, fun c member => ?_⟩
      rcases List.mem_cons.mp member with rfl | member
      · omega
      · exact inductionHypothesis.2 c member
  | case2 low high rest need val rejected inductionHypothesis => exact inductionHypothesis
  | case3 need buffer =>
      refine ⟨List.length_replicate, fun c member => ?_⟩
      rw [List.eq_of_mem_replicate member]
      decide

theorem getD_rangeMap {α : Type*} (entry : Nat -> α) (default : α) {i count : Nat}
    (inside : i < count) : ((List.range count).map entry).getD i default = entry i := by
  rw [List.getD_eq_getElem _ _ (by simpa using inside), List.getElem_map, List.getElem_range]

theorem isWordVector_rangeMap {entry : Nat -> Poly} (reduced : ∀ i < K, IsReduced (entry i)) :
    IsWordVector ((List.range K).map entry) := by
  intro i inside
  rw [getD_rangeMap entry [] inside]
  exact (reduced i inside).isWord

theorem isWordVector_genMatrixA (seed : Bytes) {i : Nat} (inside : i < K) :
    IsWordVector ((genMatrixA P seed).getD i []) := by
  rw [genMatrixA, getD_rangeMap _ [] inside]
  apply isWordVector_rangeMap
  intro j _
  exact ⟨(rejectionSample_spec N _).1, (rejectionSample_spec N _).2⟩

theorem isWordVector_transpose_genMatrixA (seed : Bytes) {i : Nat} (inside : i < K) :
    IsWordVector ((transpose (genMatrixA P seed)).getD i []) := by
  intro j jInside
  rw [transpose, getD_rangeMap _ [] inside, getD_rangeMap _ [] jInside]
  exact isWordVector_genMatrixA P seed jInside i inside

theorem isWordVector_cbd (seed : Bytes) (nonce : Nat -> Nat) :
    IsWordVector ((List.range K).map fun i => cbd P seed (nonce i) N) :=
  isWordVector_rangeMap fun i _ => isReduced_cbd P seed (nonce i)

theorem isWordVector_blindingVector (rSeed : Bytes) : IsWordVector (blindingVector P rSeed) :=
  isWordVector_cbd P rSeed fun i => i

theorem isWordVector_errorVector (rSeed : Bytes) : IsWordVector (errorVector P rSeed) :=
  isWordVector_cbd P rSeed fun i => K + i

/-! ## Message encoding -/

/-- The loop of `encodeAmount`, stopped after `count` bits. -/
def encodeBits (amount count : Nat) : Poly :=
  (List.range count).foldl
    (fun m bit => if (amount >>> bit) &&& 1 ≠ 0 then m.set bit ((Q / 2 : Nat) : Int) else m)
    zeroPoly

theorem testBit_iff (amount bit : Nat) :
    (amount >>> bit) &&& 1 ≠ 0 ↔ amount.testBit bit = true := by
  rw [Nat.testBit, Nat.and_comm]
  simp

/-- Coefficient `i` carries bit `i` of the amount, once the loop has passed it. -/
theorem encodeBits_spec (amount count : Nat) (bound : count ≤ N) :
    (encodeBits amount count).length = N ∧
      ∀ i, (encodeBits amount count).getD i 0 =
        if i < count ∧ amount.testBit i = true then ((Q / 2 : Nat) : Int) else 0 := by
  induction count with
  | zero =>
      refine ⟨List.length_replicate, fun i => ?_⟩
      simp [encodeBits, zeroPoly]
  | succ count inductionHypothesis =>
      rcases inductionHypothesis (Nat.le_of_succ_le bound) with ⟨length, entry⟩
      have step : encodeBits amount (count + 1) =
          if (amount >>> count) &&& 1 ≠ 0 then
            (encodeBits amount count).set count ((Q / 2 : Nat) : Int)
          else encodeBits amount count := by
        rw [encodeBits, encodeBits, List.range_succ, List.foldl_append, List.foldl_cons,
          List.foldl_nil]
      rw [step]
      split
      · next set =>
          refine ⟨by rw [List.length_set, length], fun i => ?_⟩
          have bit := (testBit_iff amount count).mp set
          by_cases here : i = count
          · subst i
            rw [List.getD_eq_getElem _ _ (by rw [List.length_set]; omega), List.getElem_set_self,
              if_pos ⟨Nat.lt_succ_self count, bit⟩]
          · have frame : ((encodeBits amount count).set count ((Q / 2 : Nat) : Int)).getD i 0 =
                (encodeBits amount count).getD i 0 := by
              simp only [List.getD_eq_getElem?_getD, List.getElem?_set_ne (Ne.symm here)]
            rw [frame, entry i]
            exact if_congr (and_congr_left' (by omega)) rfl rfl
      · next clear =>
          refine ⟨length, fun i => ?_⟩
          have bit := mt (testBit_iff amount count).mpr clear
          rw [entry i]
          by_cases here : i = count
          · subst i
            rw [if_neg (fun both => bit both.2), if_neg (fun both => bit both.2)]
          · exact if_congr (and_congr_left' (by omega)) rfl rfl

theorem encodeAmount_of_range {amountCents : Int} (low : 0 ≤ amountCents)
    (high : amountCents < 2 ^ AMOUNT_BITS) :
    encodeAmount amountCents = .ok (encodeBits amountCents.toNat AMOUNT_BITS) := by
  rw [encodeAmount, if_neg (by omega), if_neg (by omega)]
  rfl

/-- Outside the domain the encoder raises a `ValueError`. -/
theorem encodeAmount_out_of_range {amountCents : Int}
    (outside : ¬(0 ≤ amountCents ∧ amountCents < 2 ^ AMOUNT_BITS)) :
    ∃ error, encodeAmount amountCents = .error error ∧ error.isValueError = true := by
  rw [encodeAmount]
  split
  · exact ⟨_, rfl, rfl⟩
  · next nonneg =>
      rw [if_pos (by omega)]
      exact ⟨_, rfl, rfl⟩

theorem isReduced_encodeBits (amount : Nat) : IsReduced (encodeBits amount AMOUNT_BITS) := by
  rcases encodeBits_spec amount AMOUNT_BITS (by decide) with ⟨length, entry⟩
  refine ⟨length, fun c member => ?_⟩
  rcases List.getElem_of_mem member with ⟨i, inside, rfl⟩
  rw [← List.getD_eq_getElem _ 0 inside, entry i]
  split <;> decide

/-- Amounts of the domain are equal if they agree on its bits. -/
theorem amount_of_bits {amount other : Nat} (small : amount < 2 ^ AMOUNT_BITS)
    (otherSmall : other < 2 ^ AMOUNT_BITS)
    (bits : ∀ i < AMOUNT_BITS, amount.testBit i = other.testBit i) : amount = other := by
  apply Nat.eq_of_testBit_eq
  intro i
  by_cases inside : i < AMOUNT_BITS
  · exact bits i inside
  · have large := Nat.pow_le_pow_right (n := 2) (by decide) (Nat.le_of_not_lt inside)
    rw [Nat.testBit_lt_two_pow (small.trans_le large),
      Nat.testBit_lt_two_pow (otherSmall.trans_le large)]

/-- Two amounts of the domain with one encoding agree on every bit. -/
theorem encodeBits_injective {amount other : Nat} (small : amount < 2 ^ AMOUNT_BITS)
    (otherSmall : other < 2 ^ AMOUNT_BITS)
    (equal : encodeBits amount AMOUNT_BITS = encodeBits other AMOUNT_BITS) : amount = other := by
  apply amount_of_bits small otherSmall
  intro i inside
  have first := (encodeBits_spec amount AMOUNT_BITS (by decide)).2 i
  have second := (encodeBits_spec other AMOUNT_BITS (by decide)).2 i
  have positive : ((Q / 2 : Nat) : Int) ≠ 0 := by decide
  rw [equal, second] at first
  simp only [inside, true_and] at first
  refine Bool.eq_iff_iff.mpr ⟨fun set => ?_, fun set => ?_⟩
  · by_contra clear
    rw [if_pos set, if_neg clear] at first
    exact positive first.symm
  · by_contra clear
    rw [if_pos set, if_neg clear] at first
    exact positive first

/-! ## The commitment kernel -/

section Kernel

variable (A : List (List Poly)) (t : List Poly) (rSeed : Bytes)

/-- The first component of a commitment. -/
def commitmentU : List Poly :=
  moduleMulAdd P (transpose A) (blindingVector P rSeed) (errorVector P rSeed)

/-- What the amount is added to. -/
def mask : Poly :=
  polyAdd (innerProduct P t (blindingVector P rSeed)) (errorPoly P rSeed)

/-- The coefficients a commitment to an amount of the domain packs. -/
def commitmentWords (amount : Nat) : Poly :=
  (commitmentU P A rSeed).flatten ++ polyAdd (mask P t rSeed) (encodeBits amount AMOUNT_BITS)

theorem isReduced_errorPoly : IsReduced (errorPoly P rSeed) := isReduced_cbd P rSeed (2 * K)

theorem isReduced_mask : IsReduced (mask P t rSeed) :=
  isReduced_polyAdd (isReduced_innerProduct P _ _).length (isReduced_errorPoly P rSeed).length

theorem isReduced_commitmentV (amount : Nat) :
    IsReduced (polyAdd (mask P t rSeed) (encodeBits amount AMOUNT_BITS)) :=
  isReduced_polyAdd (isReduced_mask P t rSeed).length (isReduced_encodeBits amount).length

theorem isReduced_commitmentU {i : Nat} (inside : i < K) :
    IsReduced ((commitmentU P A rSeed).getD i []) :=
  isReduced_moduleMulAdd P _ _ (isWordVector_errorVector P rSeed) inside

end Kernel

/-- A list of `K` reduced polynomials, flattened. -/
theorem flatten_spec {v : List Poly} (length : v.length = K)
    (reduced : ∀ i < K, IsReduced (v.getD i [])) :
    v.flatten.length = K * N ∧ (∀ c ∈ v.flatten, 0 ≤ c ∧ c < (Q : Int)) ∧
      (List.range K).map (fun i => (v.flatten.drop (i * N)).take N) = v := by
  match v, length with
  | [first, second], _ =>
      have firstReduced : IsReduced first := reduced 0 (by decide)
      have secondReduced : IsReduced second := reduced 1 (by decide)
      refine ⟨?_, fun c member => ?_, ?_⟩
      · simp [firstReduced.length, secondReduced.length, K, Nat.two_mul]
      · rcases List.mem_flatten.mp member with ⟨poly, inVector, inPoly⟩
        rcases List.mem_cons.mp inVector with rfl | inVector
        · exact firstReduced.range c inPoly
        · rw [List.mem_singleton.mp inVector] at inPoly
          exact secondReduced.range c inPoly
      · have firstBlock : (first ++ second).take N = first := by
          rw [← firstReduced.length, List.take_left]
        have secondBlock : ((first ++ second).drop N).take N = second := by
          rw [← firstReduced.length, List.drop_left, firstReduced.length, ← secondReduced.length,
            List.take_length]
        simp [K, List.range_succ, firstBlock, secondBlock]

section Kernel

variable (A : List (List Poly)) (t : List Poly) (rSeed : Bytes)

theorem commitmentWords_spec (amount : Nat) :
    (commitmentWords P A t rSeed amount).length = (K + 1) * N ∧
      ∀ c ∈ commitmentWords P A t rSeed amount, 0 ≤ c ∧ c < (Q : Int) := by
  obtain ⟨length, range, -⟩ := flatten_spec (length_moduleMulAdd P _ _ _)
    (fun i inside => isReduced_commitmentU P A rSeed inside)
  have tail := isReduced_commitmentV P t rSeed amount
  refine ⟨?_, fun c member => ?_⟩
  · rw [commitmentWords, List.length_append, tail.length]
    exact (congrArg (· + N) length).trans (Nat.succ_mul K N).symm
  · rcases List.mem_append.mp member with early | late
    · exact range c early
    · exact tail.range c late

/-- The blocks a reader cuts a commitment into. -/
theorem commitmentWords_blocks (amount : Nat) :
    (∀ i < K, ((commitmentWords P A t rSeed amount).drop (i * N)).take N =
      (commitmentU P A rSeed).getD i []) ∧
    ((commitmentWords P A t rSeed amount).drop (K * N)).take N =
      polyAdd (mask P t rSeed) (encodeBits amount AMOUNT_BITS) := by
  obtain ⟨length, -, blocks⟩ := flatten_spec (length_moduleMulAdd P _ _ _)
    (fun i inside => isReduced_commitmentU P A rSeed inside)
  have tail := isReduced_commitmentV P t rSeed amount
  refine ⟨fun i inside => ?_, ?_⟩
  · have block : ((commitmentU P A rSeed).flatten.drop (i * N)).take N =
        (commitmentU P A rSeed).getD i [] := by
      have entry := congrArg (fun vector => vector.getD i []) blocks
      rw [getD_rangeMap _ _ inside] at entry
      exact entry
    have room : i * N + N ≤ (commitmentU P A rSeed).flatten.length := by
      change i * N + N ≤ (moduleMulAdd P _ _ _).flatten.length
      rw [length, ← Nat.succ_mul]
      exact Nat.mul_le_mul_right N inside
    rw [commitmentWords, List.drop_append_of_le_length (by omega),
      List.take_append_of_le_length (by rw [List.length_drop]; omega), block]
  · rw [commitmentWords, ← length]
    change (((commitmentU P A rSeed).flatten ++ _).drop (commitmentU P A rSeed).flatten.length).take
      N = _
    rw [List.drop_left, ← tail.length, List.take_length]

theorem commitCore_eq_pack {amountCents : Int} (low : 0 ≤ amountCents)
    (high : amountCents < 2 ^ AMOUNT_BITS) :
    commitCore P A t amountCents rSeed = pack (commitmentWords P A t rSeed amountCents.toNat) := by
  rw [commitCore, encodeAmount_of_range low high]
  rfl

/-- On the amount domain the kernel returns the packed words, and never raises. -/
theorem commitCore_of_range {amountCents : Int} (low : 0 ≤ amountCents)
    (high : amountCents < 2 ^ AMOUNT_BITS) :
    ∃ blob, commitCore P A t amountCents rSeed = .ok blob ∧ blob.length = (K + 1) * N * 2 ∧
      unpackWords blob = some (commitmentWords P A t rSeed amountCents.toNat) := by
  rcases commitmentWords_spec P A t rSeed amountCents.toNat with ⟨length, range⟩
  obtain ⟨blob, packed, blobLength⟩ := packWords_of_range
    (fun c member => ⟨(range c member).1, (range c member).2.trans Q_lt_word⟩)
  refine ⟨blob, ?_, by rw [blobLength, length, Nat.mul_comm], (unpackWords_of_packWords packed).1⟩
  rw [commitCore_eq_pack P A t rSeed low high, pack, packed]

theorem commitCore_out_of_range {amountCents : Int}
    (outside : ¬(0 ≤ amountCents ∧ amountCents < 2 ^ AMOUNT_BITS)) :
    ∃ error, commitCore P A t amountCents rSeed = .error error ∧ error.isValueError = true := by
  rcases encodeAmount_out_of_range outside with ⟨error, raised, kind⟩
  exact ⟨error, by rw [commitCore, raised]; rfl, kind⟩

/-- A successful run of the kernel was on the amount domain. -/
theorem range_of_commitCore {amountCents : Int} {blob : Bytes}
    (committed : commitCore P A t amountCents rSeed = .ok blob) :
    0 ≤ amountCents ∧ amountCents < 2 ^ AMOUNT_BITS := by
  by_contra outside
  rcases commitCore_out_of_range P A t rSeed outside with ⟨error, raised, -⟩
  rw [raised] at committed
  cases committed

theorem length_of_commitCore {amountCents : Int} {blob : Bytes}
    (committed : commitCore P A t amountCents rSeed = .ok blob) : blob.length = (K + 1) * N * 2 := by
  rcases range_of_commitCore P A t rSeed committed with ⟨low, high⟩
  rcases commitCore_of_range P A t rSeed low high with ⟨other, run, length, -⟩
  rw [committed] at run
  cases run
  exact length

/-- Binding: one blob opens to one amount under one blinding seed. -/
theorem commitCore_injective {amountCents other : Int} {blob : Bytes}
    (committed : commitCore P A t amountCents rSeed = .ok blob)
    (otherCommitted : commitCore P A t other rSeed = .ok blob) : amountCents = other := by
  rcases range_of_commitCore P A t rSeed committed with ⟨low, high⟩
  rcases range_of_commitCore P A t rSeed otherCommitted with ⟨otherLow, otherHigh⟩
  rcases commitCore_of_range P A t rSeed low high with ⟨first, firstRun, -, firstWords⟩
  rcases commitCore_of_range P A t rSeed otherLow otherHigh with ⟨second, secondRun, -, secondWords⟩
  rw [committed] at firstRun
  rw [otherCommitted] at secondRun
  cases firstRun
  cases secondRun
  have words := Option.some.inj (firstWords.symm.trans secondWords)
  have sums := List.append_cancel_left words
  have encodings : encodeBits amountCents.toNat AMOUNT_BITS =
      encodeBits other.toNat AMOUNT_BITS := by
    apply toRing_injective (isReduced_encodeBits _) (isReduced_encodeBits _)
    apply add_left_cancel (a := toRing (mask P t rSeed))
    have maskLength := (isReduced_mask P t rSeed).length
    rw [← toRing_polyAdd (maskLength.trans (isReduced_encodeBits _).length.symm), sums,
      toRing_polyAdd (maskLength.trans (isReduced_encodeBits _).length.symm)]
  have amounts := encodeBits_injective (by simp only [AMOUNT_BITS] at *; omega)
    (by simp only [AMOUNT_BITS] at *; omega) encodings
  omega

end Kernel

/-! ## Blinding seeds that sample zeros

No real extendable-output function has one, but nothing above excludes it, and
under such a seed a commitment is the bare encoding. -/

section Silent

theorem polyAdd_zeroPoly {a : Poly} (reduced : IsReduced a) : polyAdd zeroPoly a = a := by
  have zero := isReduced_zeroPoly
  apply toRing_injective (isReduced_polyAdd zero.length reduced.length) reduced
  rw [toRing_polyAdd (zero.length.trans reduced.length.symm), toRing_zeroPoly, zero_add]

variable {P} {rSeed : Bytes} (silent : ∀ nonce, cbd P rSeed nonce N = zeroPoly)
include silent

theorem innerProduct_silent {t : List Poly} (tWord : IsWordVector t) (nonce : Nat -> Nat) :
    innerProduct P t ((List.range K).map fun i => cbd P rSeed (nonce i) N) = zeroPoly := by
  apply toRing_injective (isReduced_innerProduct P _ _) isReduced_zeroPoly
  rw [toRing_innerProduct P tWord (isWordVector_cbd P rSeed nonce), toRing_zeroPoly]
  apply Finset.sum_eq_zero
  intro i member
  rw [getD_rangeMap _ _ (Finset.mem_range.mp member), silent, toRing_zeroPoly, mul_zero]

theorem mask_silent {t : List Poly} (tWord : IsWordVector t) : mask P t rSeed = zeroPoly := by
  rw [mask, blindingVector, innerProduct_silent silent tWord fun i => i, errorPoly, silent,
    polyAdd_zeroPoly isReduced_zeroPoly]

theorem commitmentU_silent {A : List (List Poly)}
    (AWord : ∀ i < K, IsWordVector ((transpose A).getD i [])) :
    commitmentU P A rSeed = (List.range K).map fun _ => zeroPoly := by
  apply List.map_congr_left
  intro i member
  have inside := List.mem_range.mp member
  rw [blindingVector, innerProduct_silent silent (AWord i inside) fun i => i, errorVector,
    getD_rangeMap _ _ inside, silent, polyAdd_zeroPoly isReduced_zeroPoly]

theorem commitmentWords_silent {A : List (List Poly)} {t : List Poly}
    (AWord : ∀ i < K, IsWordVector ((transpose A).getD i [])) (tWord : IsWordVector t)
    (amount : Nat) :
    commitmentWords P A t rSeed amount =
      ((List.range K).map fun _ => zeroPoly).flatten ++ encodeBits amount AMOUNT_BITS := by
  rw [commitmentWords, commitmentU_silent silent AWord, mask_silent silent tWord,
    polyAdd_zeroPoly (isReduced_encodeBits amount)]

end Silent

/-! ## Keys -/

namespace LWEKeyPair

variable (seed : Bytes)

@[simp] theorem A_generate : (generate P seed).A = genMatrixA P seed := rfl

theorem getD_s {i : Nat} (inside : i < K) :
    (generate P seed).s.getD i [] = cbd P seed i N :=
  getD_rangeMap _ [] inside

theorem isReduced_t {i : Nat} (inside : i < K) :
    IsReduced ((generate P seed).t.getD i []) :=
  isReduced_moduleMulAdd P _ _ (isWordVector_cbd P seed fun i => K + i) inside

/-- Key serialisation never raises, and the auditor's parser reads the seed,
the vector `t` and the expanded matrix back. -/
theorem parse_publicKeyBytes (seedLength : seed.length = SEED_LEN) :
    ∃ bytes, (generate P seed).publicKeyBytes = .ok bytes ∧
      bytes.length = SEED_LEN + K * N * 2 ∧ bytes.take SEED_LEN = seed ∧
      unpackWords (bytes.drop SEED_LEN) = some (generate P seed).t.flatten ∧
      LWEPublicKey.parse P bytes =
        .ok ⟨seed, (generate P seed).t, (generate P seed).A⟩ := by
  rcases flatten_spec (length_moduleMulAdd P _ _ _) (fun i inside => isReduced_t P seed inside) with
      ⟨length, range, blocks⟩
  obtain ⟨packed, packs, packedLength⟩ := packWords_of_range
    (fun c member => ⟨(range c member).1, (range c member).2.trans Q_lt_word⟩)
  have total : (seed ++ packed).length = SEED_LEN + K * N * 2 := by
    rw [List.length_append, seedLength, packedLength, length, Nat.mul_comm 2]
  have front : (seed ++ packed).take SEED_LEN = seed := by rw [← seedLength, List.take_left]
  have back : (seed ++ packed).drop SEED_LEN = packed := by rw [← seedLength, List.drop_left]
  have words : unpackWords packed = some (generate P seed).t.flatten :=
    (unpackWords_of_packWords packs).1
  refine ⟨seed ++ packed, ?_, total, front, by rw [back, words], ?_⟩
  · have packsKey : packWords (generate P seed).t.flatten = some packed := packs
    rw [publicKeyBytes, pack, packsKey]
    rfl
  · rw [LWEPublicKey.parse, if_neg (not_not.mpr total), front, back, words]
    change Except.ok (LWEPublicKey.mk seed ((List.range K).map fun i =>
      ((generate P seed).t.flatten.drop (i * N)).take N) (genMatrixA P seed)) = _
    rw [show (List.range K).map (fun i => ((generate P seed).t.flatten.drop (i * N)).take N) =
      (generate P seed).t from blocks]
    rfl

end LWEKeyPair

end Lwe
end ZeroAudit
