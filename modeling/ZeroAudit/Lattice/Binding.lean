import ZeroAudit.Lattice.CommitmentKernel
import ZeroAudit.SamplePlatform

namespace ZeroAudit
namespace Lwe

open Foundation

/-!
# No noise bridges two amounts

The error terms of a commitment are small: a sample is at most two away from zero,
whatever bytes the extendable-output function returns.  The encodings of two amounts
differ by half the modulus in the coefficient of any bit in which they differ.  Two
commitments under one blinding vector therefore hold one amount, even if their error
terms have nothing to do with each other.
-/

variable (P : Platform)

/-- A residue at most two away from zero. -/
def IsNoise (c : Int) : Prop := ∃ offset : Int, -2 ≤ offset ∧ offset ≤ 2 ∧ c = offset % (Q : Int)

/-- Every sample is noise, for every seed and every output of the function. -/
theorem isNoise_cbd (seed : Bytes) (nonce : Nat) {i : Nat} (inside : i < N) :
    IsNoise ((cbd P seed nonce N).getD i 0) := by
  unfold cbd
  rw [List.getD_eq_getElem _ _ (by simpa using inside), List.getElem_map]
  dsimp only
  generalize (if _ % 2 = 0 then _ else _ : Nat) = nib
  refine ⟨_, ?_, ?_, rfl⟩
  · omega
  · omega

/-- Half the modulus is beyond the reach of two errors, in both directions. -/
theorem noise_gap (base : Int) {noise other : Int} (small : IsNoise noise)
    (otherSmall : IsNoise other) :
    ((base + noise) % (Q : Int) + (Q / 2 : Nat)) % (Q : Int) ≠
      ((base + other) % (Q : Int) + 0) % (Q : Int) := by
  rcases small with ⟨offset, low, high, rfl⟩
  rcases otherSmall with ⟨offset', low', high', rfl⟩
  simp only [Q]
  omega

/-- Two amounts whose noisy encodings on one polynomial agree are equal. -/
theorem amount_of_noisy {inner noise other : Poly} (innerLength : inner.length = N)
    (noiseLength : noise.length = N) (otherLength : other.length = N)
    (small : ∀ i < N, IsNoise (noise.getD i 0)) (otherSmall : ∀ i < N, IsNoise (other.getD i 0))
    {amount claimed : Nat} (domain : amount < 2 ^ AMOUNT_BITS) (claimedDomain : claimed < 2 ^ AMOUNT_BITS)
    (equal : polyAdd (polyAdd inner noise) (encodeBits amount AMOUNT_BITS) =
      polyAdd (polyAdd inner other) (encodeBits claimed AMOUNT_BITS)) : amount = claimed := by
  apply amount_of_bits domain claimedDomain
  intro i inside
  have within : i < N := inside.trans (by decide)
  have coefficients := congrArg (fun poly => poly.getD i 0) equal
  have noisy := (isReduced_polyAdd innerLength noiseLength).length
  have otherNoisy := (isReduced_polyAdd innerLength otherLength).length
  rw [getD_polyAdd noisy (isReduced_encodeBits amount).length within,
    getD_polyAdd otherNoisy (isReduced_encodeBits claimed).length within,
    getD_polyAdd innerLength noiseLength within, getD_polyAdd innerLength otherLength within,
    (encodeBits_spec amount AMOUNT_BITS (by decide)).2 i,
    (encodeBits_spec claimed AMOUNT_BITS (by decide)).2 i] at coefficients
  simp only [inside, true_and] at coefficients
  refine Bool.eq_iff_iff.mpr ⟨fun set => ?_, fun set => ?_⟩
  · by_contra clear
    rw [if_pos set, if_neg clear] at coefficients
    exact noise_gap (inner.getD i 0) (small i within) (otherSmall i within) coefficients
  · by_contra clear
    rw [if_pos set, if_neg clear] at coefficients
    exact noise_gap (inner.getD i 0) (otherSmall i within) (small i within) coefficients.symm

/-- Under blinding seeds with one blinding vector, two amounts of the domain have
different commitments, whatever the error terms of the two seeds are. -/
theorem commitCore_differs_of_blindingVector (A : List (List Poly)) (t : List Poly) {rSeed otherSeed : Bytes}
    (sameVector : blindingVector P rSeed = blindingVector P otherSeed) {amountCents other : Int}
    (domain : 0 ≤ amountCents ∧ amountCents < 2 ^ AMOUNT_BITS)
    (otherDomain : 0 ≤ other ∧ other < 2 ^ AMOUNT_BITS) (distinct : amountCents ≠ other) :
    ∃ blob otherBlob, commitCore P A t amountCents rSeed = .ok blob ∧
      commitCore P A t other otherSeed = .ok otherBlob ∧ blob ≠ otherBlob := by
  rcases commitCore_of_range P A t rSeed domain.1 domain.2 with ⟨blob, committed, -, words⟩
  rcases commitCore_of_range P A t otherSeed otherDomain.1 otherDomain.2 with
    ⟨otherBlob, otherCommitted, -, otherWords⟩
  refine ⟨blob, otherBlob, committed, otherCommitted, ?_⟩
  intro same
  rw [same] at words
  have packed := Option.some.inj (words.symm.trans otherWords)
  have last := congrArg (fun words : Poly => (words.drop (K * N)).take N) packed
  rw [(commitmentWords_blocks P A t rSeed _).2, (commitmentWords_blocks P A t otherSeed _).2] at last
  unfold mask at last
  rw [← sameVector] at last
  have amounts := amount_of_noisy (isReduced_innerProduct P t _).length
    (isReduced_errorPoly P rSeed).length (isReduced_errorPoly P otherSeed).length
    (fun i inside => isNoise_cbd P rSeed (2 * K) inside)
    (fun i inside => isNoise_cbd P otherSeed (2 * K) inside)
    (by simp only [AMOUNT_BITS] at *; omega) (by simp only [AMOUNT_BITS] at *; omega) last
  omega

/-- A function that returns zeros for the nonces of the blinding vector, and the first
byte of the seed for those of the error terms. -/
def noisyPlatform : Platform :=
  { samplePlatform with
    shake256 := fun message count =>
      List.replicate count (if (message.getD 1 0).toNat < K then 0 else message.getD 0 0)
    shake256_length := fun _ _ => List.length_replicate }

/-- Two seeds with one blinding vector and different errors. -/
theorem noisyPlatform_seeds :
    blindingVector noisyPlatform [3] = blindingVector noisyPlatform [12] ∧
      errorPoly noisyPlatform [3] ≠ errorPoly noisyPlatform [12] := by
  constructor
  · apply List.map_congr_left
    intro nonce member
    have small : nonce < 2 := List.mem_range.mp member
    interval_cases nonce
    · rfl
    · rfl
  · intro same
    have first := congrArg (fun poly => poly.getD 0 0) same
    exact absurd first (by decide +kernel)

theorem commitCore_differs_noisyPlatform :
    ∃ blob otherBlob,
      commitCore noisyPlatform (genMatrixA noisyPlatform []) [zeroPoly, zeroPoly] 1 [3] = .ok blob ∧
      commitCore noisyPlatform (genMatrixA noisyPlatform []) [zeroPoly, zeroPoly] 2 [12] = .ok otherBlob ∧
      blob ≠ otherBlob :=
  commitCore_differs_of_blindingVector noisyPlatform (genMatrixA noisyPlatform []) [zeroPoly, zeroPoly]
    noisyPlatform_seeds.1 (by decide) (by decide) (by decide)

end Lwe
end ZeroAudit
