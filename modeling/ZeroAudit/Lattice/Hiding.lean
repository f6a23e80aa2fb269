import Mathlib.Data.Matrix.Mul
import ZeroAudit.Lattice.Disclosure

namespace ZeroAudit
namespace Lwe

open Foundation Foundation.Negacyclic

/-!
# What the published key reveals

The secret vector of a keypair is sampled from the seed that the public key
starts with, so whoever holds the published bytes can sample it again.  The
readers considered here are finite procedures over the published bytes: they
slice and unpack, call the module's own samplers and ring operations, and
compare coefficients with constants.  A fixed procedure computes the secret of
every key, and a second one the amount of every commitment whose noise stays
below a quarter of the modulus.
-/

/-! ## Procedures over the published bytes -/

inductive Kind where
  | bytes
  | poly
  | amount

def Kind.denote : Kind -> Type
  | .bytes => Bytes
  | .poly => Poly
  | .amount => Nat

/-- A straight-line program of a reader who holds a public key and one
commitment.  Nonces, positions and constants are fixed in its text. -/
inductive Procedure : Kind -> Type where
  | publicKey : Procedure .bytes
  | commitment : Procedure .bytes
  | slice (start stop : Nat) (source : Procedure .bytes) : Procedure .bytes
  | unpack (source : Procedure .bytes) : Procedure .poly
  | literal (words : Poly) : Procedure .poly
  | cbd (seed : Procedure .bytes) (nonce : Nat) : Procedure .poly
  | matrixEntry (seed : Procedure .bytes) (row column : Nat) : Procedure .poly
  | polyAdd (left right : Procedure .poly) : Procedure .poly
  | polyMul (left right : Procedure .poly) : Procedure .poly
  | threshold (low high : Int) (source : Procedure .poly) : Procedure .amount

namespace Procedure

variable (P : Platform) (publicKeyBytes commitmentBytes : Bytes)

/-- A multiplication reads `N` coefficients of both operands, and a procedure
that offers it fewer fails. -/
def run : {kind : Kind} -> Procedure kind -> Option kind.denote
  | _, publicKey => some publicKeyBytes
  | _, commitment => some commitmentBytes
  | _, slice start stop source => do
      let bytes ← run source
      return (bytes.drop start).take (stop - start)
  | _, unpack source => do
      let bytes ← run source
      unpackWords bytes
  | _, literal words => some words
  | _, cbd seed nonce => do
      let bytes ← run seed
      return Lwe.cbd P bytes nonce N
  | _, matrixEntry seed row column => do
      let bytes ← run seed
      return ((genMatrixA P bytes).getD row []).getD column []
  | _, polyAdd left right => do
      let a ← run left
      let b ← run right
      return Lwe.polyAdd a b
  | _, polyMul left right => do
      let a ← run left
      let b ← run right
      if List.length a = N ∧ List.length b = N then some (Lwe.polyMul P a b) else none
  | _, threshold low high source => do
      let words ← run source
      return Nat.ofBits fun bit : Fin AMOUNT_BITS =>
        decide (low ≤ List.getD words bit 0 ∧ List.getD words bit 0 < high)

variable {P publicKeyBytes commitmentBytes} {left right : Procedure .poly} {a b : Poly}

theorem run_polyAdd (leftRun : left.run P publicKeyBytes commitmentBytes = some a)
    (rightRun : right.run P publicKeyBytes commitmentBytes = some b) :
    (polyAdd left right).run P publicKeyBytes commitmentBytes = some (Lwe.polyAdd a b) := by
  simp only [run, leftRun, rightRun, bind, Option.bind, pure]
  rfl

theorem run_polyMul (leftRun : left.run P publicKeyBytes commitmentBytes = some a)
    (rightRun : right.run P publicKeyBytes commitmentBytes = some b)
    (aLength : a.length = N) (bLength : b.length = N) :
    (polyMul left right).run P publicKeyBytes commitmentBytes = some (Lwe.polyMul P a b) := by
  simp only [run, leftRun, rightRun, bind, Option.bind, aLength, bLength, and_self, if_true]
  rfl

end Procedure

/-! ## The hiding property -/

section Property

variable (P : Platform)

def minusOne : Poly := ((Q : Int) - 1) :: List.replicate (N - 1) 0

/-- `<e, r> + e2 - <s, e1>`: what separates a commitment from its message once
the secret has been used. -/
def accumulatedNoise (seed rSeed : Bytes) : Poly :=
  let keypair := LWEKeyPair.generate P seed
  polyAdd
    (polyAdd (innerProduct P keypair.e (blindingVector P rSeed)) (errorPoly P rSeed))
    (polyMul P minusOne (innerProduct P keypair.s (errorVector P rSeed)))

/-- Every centred coefficient is at most 831 in magnitude. -/
def NoiseBounded (seed rSeed : Bytes) : Prop :=
  ∀ c ∈ accumulatedNoise P seed rSeed, |Int.bmod c Q| ≤ 831

/-- The procedure returns the committed amount from the published key and the
published commitment, whenever the noise is bounded. -/
def RecoversAmounts (procedure : Procedure .amount) : Prop :=
  ∀ (seed masterKey : Bytes) (txnId : Json) (amount nowNs : Int) (rSeed key blob : Bytes)
    (record : Commitment),
    seed.length = SEED_LEN -> 0 ≤ amount -> amount < 2 ^ AMOUNT_BITS ->
    deriveRandomness P masterKey txnId = .ok rSeed -> NoiseBounded P seed rSeed ->
    (LWEKeyPair.generate P seed).publicKeyBytes = .ok key ->
    commit P (LWEKeyPair.generate P seed) amount txnId masterKey nowNs = .ok record ->
    (Json.str record.commitmentB64).b64decode = .ok blob ->
    procedure.run P key blob = some amount.toNat

/-- The procedures return the secret vector from the published key. -/
def RecoversSecret (procedures : Nat -> Procedure .poly) : Prop :=
  ∀ (seed key blob : Bytes), seed.length = SEED_LEN ->
    (LWEKeyPair.generate P seed).publicKeyBytes = .ok key ->
    ∀ i < K, (procedures i).run P key blob = some ((LWEKeyPair.generate P seed).s.getD i [])

def HidesAmounts : Prop := ¬∃ procedure, RecoversAmounts P procedure

def HidesSecret : Prop := ¬∃ procedures, RecoversSecret P procedures

end Property

/-! ## The two procedures -/

/-- Sample the secret again from the seed in front of the key. -/
def secretProcedure (i : Nat) : Procedure .poly :=
  .cbd (.slice 0 SEED_LEN .publicKey) i

/-- One polynomial of a commitment. -/
def blockProcedure (i : Nat) : Procedure .poly :=
  .unpack (.slice (2 * (i * N)) (2 * (i * N) + 2 * N) .commitment)

/-- `v - <s, u>`, with the subtraction written as the module can compute it. -/
def differenceProcedure : Procedure .poly :=
  .polyAdd (blockProcedure 2)
    (.polyMul (.literal minusOne)
      (.polyAdd (.polyMul (secretProcedure 0) (blockProcedure 0))
        (.polyMul (secretProcedure 1) (blockProcedure 1))))

/-- A set bit moves its coefficient to the middle third of the residues. -/
def amountProcedure : Procedure .amount := .threshold 832 2498 differenceProcedure

section Recovery

variable (P : Platform)

theorem secretProcedure_run {seed key : Bytes} (seedLength : seed.length = SEED_LEN)
    (published : (LWEKeyPair.generate P seed).publicKeyBytes = .ok key) (blob : Bytes) (i : Nat) :
    (secretProcedure i).run P key blob = some (cbd P seed i N) := by
  rcases LWEKeyPair.parse_publicKeyBytes P seed seedLength with ⟨bytes, serialised, -, front, -⟩
  rw [published] at serialised
  cases serialised
  change some (cbd P ((key.drop 0).take SEED_LEN) i N) = _
  rw [List.drop_zero, front]

theorem secretProcedure_recovers : RecoversSecret P secretProcedure := by
  intro seed key blob seedLength published i inside
  rw [secretProcedure_run P seedLength published blob i]
  exact congrArg some (LWEKeyPair.getD_s P seed inside).symm

theorem blockProcedure_run {blob : Bytes} {words : List Int}
    (read : unpackWords blob = some words) (key : Bytes) (i : Nat) :
    (blockProcedure i).run P key blob = some ((words.drop (i * N)).take N) := by
  change unpackWords ((blob.drop (2 * (i * N))).take (2 * (i * N) + 2 * N - 2 * (i * N))) = _
  rw [Nat.add_sub_cancel_left]
  exact unpackWords_take (unpackWords_drop read (i * N)) N

theorem isReduced_minusOne : IsReduced minusOne := by
  refine ⟨?_, fun c member => ?_⟩
  · rw [minusOne, List.length_cons, List.length_replicate]
    rfl
  · rcases List.mem_cons.mp member with rfl | zero
    · decide
    · rw [List.eq_of_mem_replicate zero]
      decide

theorem toRing_minusOne : toRing minusOne = -1 := by
  have nonempty : 0 < zeroPoly.length := by
    rw [isReduced_zeroPoly.length]
    decide
  have split : zeroPoly = 0 :: List.replicate (N - 1) 0 := by
    rw [← List.replicate_succ]
    rfl
  have residue : (Q : Int) - 1 = (-1) % (Q : Int) := by decide
  have unit : minusOne = zeroPoly.set 0 ((-1) % (Q : Int)) := by
    rw [split, List.set_cons_zero, minusOne, residue]
  have first : zeroPoly.getD 0 0 = 0 := by rw [split, List.getD_cons_zero]
  have zero : embed N Q zeroPoly = 0 := toRing_zeroPoly
  rw [unit, toRing, embed_set nonempty, first, sub_zero, intCast_emod, zero]
  simp

/-- The first summand of an inner product is added to zero. -/
theorem innerProduct_eq (t r : List Poly) :
    innerProduct P t r =
      polyAdd (polyMul P (t.getD 0 []) (r.getD 0 [])) (polyMul P (t.getD 1 []) (r.getD 1 [])) := by
  simp only [innerProduct, K, List.range_succ, List.range_zero, List.nil_append, List.foldl_cons,
    List.foldl_nil, List.cons_append, polyAdd_zeroPoly (isReduced_polyMul P _ _)]

theorem isReduced_accumulatedNoise (seed rSeed : Bytes) :
    IsReduced (accumulatedNoise P seed rSeed) :=
  isReduced_polyAdd
    (isReduced_polyAdd (isReduced_innerProduct P _ _).length
      (isReduced_errorPoly P rSeed).length).length
    (isReduced_polyMul P _ _).length

/-! ### The lists in the ring -/

section Ring

variable (seed rSeed : Bytes)

private theorem sWord : IsWordVector (LWEKeyPair.generate P seed).s :=
  isWordVector_cbd P seed fun i => i

private theorem eWord : IsWordVector (LWEKeyPair.generate P seed).e :=
  isWordVector_cbd P seed fun i => K + i

private theorem uWord : IsWordVector (commitmentU P (genMatrixA P seed) rSeed) :=
  fun _ inside => (isReduced_commitmentU P (genMatrixA P seed) rSeed inside).isWord

theorem toRing_innerProduct_fin {t r : List Poly} (tWord : IsWordVector t)
    (rWord : IsWordVector r) :
    toRing (innerProduct P t r) = ∑ i : Fin K, toRing (t.getD i []) * toRing (r.getD i []) := by
  rw [toRing_innerProduct P tWord rWord, Finset.sum_range]

theorem toRing_t (i : Fin K) :
    toRing ((LWEKeyPair.generate P seed).t.getD i []) =
      (∑ j : Fin K, toRing (((genMatrixA P seed).getD i []).getD j []) *
        toRing ((LWEKeyPair.generate P seed).s.getD j [])) +
        toRing ((LWEKeyPair.generate P seed).e.getD i []) := by
  rw [← Finset.sum_range fun j => toRing (((genMatrixA P seed).getD i []).getD j []) *
    toRing ((LWEKeyPair.generate P seed).s.getD j [])]
  exact toRing_moduleMulAdd P (fun _ inside => isWordVector_genMatrixA P seed inside)
    (sWord P seed) (eWord P seed) i.isLt

/-- The transposed matrix shows up as exchanged indices. -/
theorem toRing_commitmentU (i : Fin K) :
    toRing ((commitmentU P (genMatrixA P seed) rSeed).getD i []) =
      (∑ j : Fin K, toRing (((genMatrixA P seed).getD j []).getD i []) *
        toRing ((blindingVector P rSeed).getD j [])) +
        toRing ((errorVector P rSeed).getD i []) := by
  have row := toRing_moduleMulAdd P
    (fun _ inside => isWordVector_transpose_genMatrixA P seed inside)
    (isWordVector_blindingVector P rSeed) (isWordVector_errorVector P rSeed) i.isLt
  rw [Finset.sum_range fun j => toRing (((transpose (genMatrixA P seed)).getD i []).getD j []) *
    toRing ((blindingVector P rSeed).getD j [])] at row
  refine row.trans (congrArg (· + _) (Finset.sum_congr rfl fun j _ => ?_))
  rw [transpose, getD_rangeMap _ [] i.isLt, getD_rangeMap _ [] j.isLt]

theorem toRing_mask :
    toRing (mask P (LWEKeyPair.generate P seed).t rSeed) =
      (∑ i : Fin K, toRing ((LWEKeyPair.generate P seed).t.getD i []) *
        toRing ((blindingVector P rSeed).getD i [])) + toRing (errorPoly P rSeed) := by
  have tWord : IsWordVector (LWEKeyPair.generate P seed).t :=
    fun i inside => (LWEKeyPair.isReduced_t P seed inside).isWord
  rw [mask, toRing_polyAdd ((isReduced_innerProduct P _ _).length.trans
      (isReduced_errorPoly P rSeed).length.symm),
    toRing_innerProduct_fin P tWord (isWordVector_blindingVector P rSeed)]

theorem toRing_accumulatedNoise :
    toRing (accumulatedNoise P seed rSeed) =
      (∑ i : Fin K, toRing ((LWEKeyPair.generate P seed).e.getD i []) *
        toRing ((blindingVector P rSeed).getD i [])) + toRing (errorPoly P rSeed) -
      ∑ i : Fin K, toRing ((LWEKeyPair.generate P seed).s.getD i []) *
        toRing ((errorVector P rSeed).getD i []) := by
  have inner := (isReduced_innerProduct P (LWEKeyPair.generate P seed).e
    (blindingVector P rSeed)).length
  have error := (isReduced_errorPoly P rSeed).length
  rw [accumulatedNoise, toRing_polyAdd ((isReduced_polyAdd inner error).length.trans
      (isReduced_polyMul P _ _).length.symm), toRing_polyAdd (inner.trans error.symm),
    toRing_polyMul P isReduced_minusOne.isWord (isReduced_innerProduct P _ _).isWord,
    toRing_innerProduct_fin P (eWord P seed) (isWordVector_blindingVector P rSeed),
    toRing_innerProduct_fin P (sWord P seed) (isWordVector_errorVector P rSeed), toRing_minusOne]
  ring

/-- The list that the reader computes is the encoding of the amount plus the
accumulated noise: the matrix has cancelled. -/
theorem difference_eq (amount : Nat) :
    polyAdd
        (polyAdd (mask P (LWEKeyPair.generate P seed).t rSeed) (encodeBits amount AMOUNT_BITS))
        (polyMul P minusOne (innerProduct P (LWEKeyPair.generate P seed).s
          (commitmentU P (genMatrixA P seed) rSeed))) =
      polyAdd (encodeBits amount AMOUNT_BITS) (accumulatedNoise P seed rSeed) := by
  have maskLength := (isReduced_mask P (LWEKeyPair.generate P seed).t rSeed).length
  have encodingLength := (isReduced_encodeBits amount).length
  have noiseLength := (isReduced_accumulatedNoise P seed rSeed).length
  have sumLength := (isReduced_polyAdd maskLength encodingLength).length
  have productLength := (isReduced_polyMul P minusOne (innerProduct P
    (LWEKeyPair.generate P seed).s (commitmentU P (genMatrixA P seed) rSeed))).length
  have identity := decryption_identity
    (Matrix.of fun i j : Fin K => toRing (((genMatrixA P seed).getD i []).getD j []))
    (fun i => toRing ((LWEKeyPair.generate P seed).s.getD i []))
    (fun i => toRing ((LWEKeyPair.generate P seed).e.getD i []))
    (fun i => toRing ((blindingVector P rSeed).getD i []))
    (fun i => toRing ((errorVector P rSeed).getD i []))
    (toRing (errorPoly P rSeed)) (toRing (encodeBits amount AMOUNT_BITS))
  simp only [dotProduct, Matrix.mulVec, Matrix.of_apply, Matrix.transpose_apply, Pi.add_apply,
    ← toRing_t, ← toRing_commitmentU, ← toRing_mask, ← toRing_accumulatedNoise] at identity
  refine toRing_injective (isReduced_polyAdd sumLength productLength)
    (isReduced_polyAdd encodingLength noiseLength) ?_
  rw [toRing_polyAdd (sumLength.trans productLength.symm),
    toRing_polyAdd (maskLength.trans encodingLength.symm),
    toRing_polyAdd (encodingLength.trans noiseLength.symm),
    toRing_polyMul P isReduced_minusOne.isWord (isReduced_innerProduct P _ _).isWord,
    toRing_innerProduct_fin P (sWord P seed) (uWord P seed rSeed), toRing_minusOne, ← identity]
  ring

end Ring

/-! ### Reading the amount off -/

/-- Noise below a quarter of the modulus leaves a clear coefficient outside the
middle third and a set one inside it. -/
theorem coefficient_in_middle {bit : Bool} {noise : Int} (range : 0 ≤ noise ∧ noise < (Q : Int))
    (bounded : |Int.bmod noise Q| ≤ 831) :
    let c := ((if bit = true then ((Q / 2 : Nat) : Int) else 0) + noise) % (Q : Int)
    (832 ≤ c ∧ c < 2498) ↔ bit = true := by
  have centred : noise ≤ 831 ∨ 2498 ≤ noise := by
    rw [Int.bmod_def, Int.emod_eq_of_lt range.1 range.2, abs_le] at bounded
    simp only [Q] at bounded range
    split_ifs at bounded <;> omega
  cases bit with
  | false =>
      simp only [Bool.false_eq_true, if_false, zero_add, iff_false, Q]
      simp only [Q] at range
      omega
  | true =>
      simp only [if_true, iff_true, Q]
      simp only [Q] at range
      omega

/-- The threshold reads the amount back from its noisy encoding. -/
theorem threshold_reads_amount {amount : Nat} (small : amount < 2 ^ AMOUNT_BITS) {noise : Poly}
    (reduced : IsReduced noise) (bounded : ∀ c ∈ noise, |Int.bmod c Q| ≤ 831) :
    (Nat.ofBits fun bit : Fin AMOUNT_BITS =>
      decide (832 ≤ (polyAdd (encodeBits amount AMOUNT_BITS) noise).getD bit 0 ∧
        (polyAdd (encodeBits amount AMOUNT_BITS) noise).getD bit 0 < 2498)) = amount := by
  have bits : (fun bit : Fin AMOUNT_BITS =>
      decide (832 ≤ (polyAdd (encodeBits amount AMOUNT_BITS) noise).getD bit 0 ∧
        (polyAdd (encodeBits amount AMOUNT_BITS) noise).getD bit 0 < 2498)) =
      fun bit : Fin AMOUNT_BITS => amount.testBit bit := by
    funext bit
    have inside : (bit : Nat) < N := bit.isLt.trans (by decide)
    have room : (bit : Nat) < noise.length := by rw [reduced.length]; exact inside
    have member : noise.getD bit 0 ∈ noise := by
      rw [List.getD_eq_getElem _ _ room]
      exact List.getElem_mem room
    rw [getD_polyAdd (isReduced_encodeBits amount).length reduced.length inside,
      (encodeBits_spec amount AMOUNT_BITS (by decide)).2 bit]
    simp only [bit.isLt, true_and]
    rw [Bool.eq_iff_iff, decide_eq_true_iff]
    exact coefficient_in_middle (reduced.range _ member) (bounded _ member)
  rw [bits, Nat.ofBits_testBit, Nat.mod_eq_of_lt small]

theorem amountProcedure_recovers : RecoversAmounts P amountProcedure := by
  intro seed masterKey txnId amount nowNs rSeed key blob record seedLength low high derived bounded
    published committed decoded
  rcases commit_inversion P committed with ⟨rSeed', blob', derived', run, -, encoded, -⟩
  rw [derived] at derived'
  cases derived'
  rw [encoded, Json.b64decode_encode] at decoded
  cases decoded
  obtain ⟨blob', run', -, words⟩ := commitCore_of_range P (LWEKeyPair.generate P seed).A
    (LWEKeyPair.generate P seed).t rSeed low high
  rw [run] at run'
  cases run'
  obtain ⟨uBlocks, vBlock⟩ := commitmentWords_blocks P (LWEKeyPair.generate P seed).A
    (LWEKeyPair.generate P seed).t rSeed amount.toNat
  have u0 := (blockProcedure_run P words key 0).trans (congrArg some (uBlocks 0 (by decide)))
  have u1 := (blockProcedure_run P words key 1).trans (congrArg some (uBlocks 1 (by decide)))
  have v := (blockProcedure_run P words key 2).trans (congrArg some vBlock)
  have s0 := secretProcedure_run P seedLength published blob 0
  have s1 := secretProcedure_run P seedLength published blob 1
  have uLength : ∀ i < K, ((commitmentU P (genMatrixA P seed) rSeed).getD i []).length = N :=
    fun i inside => (isReduced_commitmentU P (genMatrixA P seed) rSeed inside).length
  have inner := Procedure.run_polyAdd
    (Procedure.run_polyMul s0 u0 (isReduced_cbd P seed 0).length (uLength 0 (by decide)))
    (Procedure.run_polyMul s1 u1 (isReduced_cbd P seed 1).length (uLength 1 (by decide)))
  rw [← LWEKeyPair.getD_s P seed (i := 0) (by decide), ← LWEKeyPair.getD_s P seed (i := 1) (by decide),
    ← innerProduct_eq] at inner
  have constant : (Procedure.literal minusOne).run P key blob = some minusOne := rfl
  have negated := Procedure.run_polyMul constant inner isReduced_minusOne.length
    (isReduced_innerProduct P _ _).length
  have difference : differenceProcedure.run P key blob = _ := Procedure.run_polyAdd v negated
  rw [LWEKeyPair.A_generate, difference_eq] at difference
  simp only [amountProcedure, Procedure.run, difference]
  exact congrArg some (threshold_reads_amount (by simp only [AMOUNT_BITS] at *; omega)
    (isReduced_accumulatedNoise P seed rSeed) bounded)

end Recovery

/-! ## No platform hides -/

/-- The published bytes determine the secret vector and, under bounded noise,
every committed amount, whatever the hash functions are. -/
theorem published_key_hides_nothing (P : Platform) : ¬HidesAmounts P ∧ ¬HidesSecret P :=
  ⟨fun hides => hides ⟨amountProcedure, amountProcedure_recovers P⟩,
    fun hides => hides ⟨secretProcedure, secretProcedure_recovers P⟩⟩

theorem noiseBounded_sample : NoiseBounded samplePlatform Sample.latticeSeed Sample.blinding := by
  have silent := cbd_sample_blinding
  have noise : accumulatedNoise samplePlatform Sample.latticeSeed Sample.blinding = zeroPoly := by
    apply toRing_injective (isReduced_accumulatedNoise _ _ _) isReduced_zeroPoly
    have e2 : errorPoly samplePlatform Sample.blinding = zeroPoly := silent _
    rw [accumulatedNoise, blindingVector, errorVector,
      innerProduct_silent silent (eWord samplePlatform Sample.latticeSeed) fun i => i,
      innerProduct_silent silent (sWord samplePlatform Sample.latticeSeed) fun i => K + i, e2,
      polyAdd_zeroPoly isReduced_zeroPoly, polyAdd_zeroPoly (isReduced_polyMul _ _ _),
      toRing_polyMul _ isReduced_minusOne.isWord isReduced_zeroPoly.isWord, toRing_zeroPoly,
      mul_zero]
  intro c member
  rw [noise] at member
  rw [List.eq_of_mem_replicate member]
  decide

/-- On the sample platform a reader of the two published byte strings learns
that 150000 was committed. -/
theorem sample_amount_read :
    ¬HidesAmounts samplePlatform ∧ ∃ key record blob,
      (LWEKeyPair.generate samplePlatform Sample.latticeSeed).publicKeyBytes = .ok key ∧
      commit samplePlatform (LWEKeyPair.generate samplePlatform Sample.latticeSeed) 150000
        (.str Sample.txnId) [] 1 = .ok record ∧
      (Json.str record.commitmentB64).b64decode = .ok blob ∧
      amountProcedure.run samplePlatform key blob = some (150000 : Nat) := by
  refine ⟨fun hides => hides ⟨amountProcedure, amountProcedure_recovers samplePlatform⟩, ?_⟩
  have seedLength : Sample.latticeSeed.length = SEED_LEN := rfl
  have derived : deriveRandomness samplePlatform [] (.str Sample.txnId) = .ok Sample.blinding := rfl
  rcases LWEKeyPair.parse_publicKeyBytes samplePlatform Sample.latticeSeed seedLength with
      ⟨key, serialised, -⟩
  rcases fingerprint_spec samplePlatform _ seedLength with ⟨fingerprint, identified⟩
  obtain ⟨blob, run, -⟩ := commitCore_of_range samplePlatform
    (LWEKeyPair.generate samplePlatform Sample.latticeSeed).A
    (LWEKeyPair.generate samplePlatform Sample.latticeSeed).t Sample.blinding
    (show (0 : Int) ≤ 150000 by decide) (by decide)
  have committed := commit_of_ok samplePlatform derived run identified 1
  exact ⟨key, _, blob, serialised, committed, Json.b64decode_encode blob,
    amountProcedure_recovers samplePlatform _ [] _ 150000 1 _ key blob _ seedLength (by decide)
      (by decide) derived noiseBounded_sample serialised committed (Json.b64decode_encode blob)⟩

end Lwe
end ZeroAudit
