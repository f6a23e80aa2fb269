import ZeroAudit.Chain.History
import ZeroAudit.Prover.Reads
import ZeroAudit.SamplePlatform

namespace ZeroAudit
namespace Commitment

open Foundation Signature

/-!
# Calls of `add` that raise

An `add` can raise before its link is computed, and then nothing has happened.
After the link is computed only the signing and the conversion of a score can
fail, and by then the head and the sequence number have moved.  Whether an
exception is clean is therefore a matter of the call alone: if it could be
linked, its record has to be one that can be filled in.
-/

variable (P : Platform) {L : Type} (calls : LedgerCalls L)
  (ledgerSetStatus : L -> Json -> Status -> Bool × L)

/-! ## What is asked of an exception -/

/-- The fields of the chain, the ring and the counts are as before. -/
structure Untouched (store after : CommitmentStore L) : Prop where
  head : after.head = store.head
  seq : after.seq = store.seq
  hot : after.hot = store.hot
  counts : after.counts = store.counts
  total : after.total = store.total

/-- If the call raises, nothing has changed, and whichever record comes next links
to the head that the call found. -/
def Atomic (store : CommitmentStore L) (call : AddCall) : Prop :=
  ∀ error after, CommitmentStore.add P store calls call = (.error error, after) ->
    Untouched store after ∧
      ∀ next record later, CommitmentStore.add P after calls next = (.ok record, later) ->
        record.prevChainHash = store.head

/-- The arguments that the link of a call is computed from: texts with an encoding,
an amount in the committed domain, and a score that compares with the threshold. -/
structure Sealable (call : AddCall) : Prop where
  txnId : ∃ id message, call.txnId = .str id ∧ PyStr.utf8 id = some message
  accountId : ∃ account, call.accountId.encode = .ok account
  domain : 0 ≤ call.amountCents ∧ call.amountCents < 2 ^ Lwe.AMOUNT_BITS
  score : ∃ number, call.anomalyScore.asNumber = some number

theorem sealable_iff (call : AddCall) : Sealable call ↔
    (∃ message, call.txnId.encode = .ok message) ∧ (∃ account, call.accountId.encode = .ok account) ∧
      (0 ≤ call.amountCents ∧ call.amountCents < 2 ^ Lwe.AMOUNT_BITS) ∧
      call.anomalyScore.asNumber.isSome = true := by
  simp only [Json.encode_eq_ok_iff, Option.isSome_iff_exists]
  constructor
  · rintro ⟨⟨id, message, txnId, encoded⟩, account, domain, score⟩
    exact ⟨⟨message, id, txnId, encoded⟩, (by simpa only [Json.encode_eq_ok_iff] using account), domain, score⟩
  · rintro ⟨⟨message, id, txnId, encoded⟩, account, domain, score⟩
    exact ⟨⟨id, message, txnId, encoded⟩, (by simpa only [Json.encode_eq_ok_iff] using account), domain, score⟩

instance (call : AddCall) : Decidable (Sealable call) := decidable_of_iff' _ (sealable_iff call)

theorem sealable_of_wellFormed {call : AddCall} {id : PyStr} (wellFormed : WellFormed call id) :
    Sealable call := by
  rcases wellFormed.idBytes with ⟨message, idBytes⟩
  rcases wellFormed.regular.scores with ⟨anomaly, _, _, same, -, -⟩
  refine ⟨⟨id, message, wellFormed.txnId, idBytes⟩, wellFormed.accountId, wellFormed.domain, anomaly, ?_⟩
  rw [same]
  rfl

/-! ## One call -/

section Call

variable {P} {store : CommitmentStore L} {call : AddCall}

theorem sealable_of_linkOf {link : Link} (some : linkOf P store call = some link) : Sealable call := by
  rcases linkOf_inversion P store call some with ⟨sealed, _, sealing, -, -⟩
  rcases seed_of_sealTransaction P store sealing with
    ⟨account, id, message, _, _, txnId, idBytes, -, core, -⟩
  unfold CommitmentStore.sealTransaction Json.ge at sealing
  simp only [bind_eq_ok_iff] at sealing
  rcases sealing with ⟨_, -, _, -, _, compared, -⟩
  refine ⟨⟨id, message, txnId, idBytes⟩, account, Lwe.range_of_commitCore P _ _ _ core, ?_⟩
  cases number : call.anomalyScore.asNumber with
  | none =>
      rw [number] at compared
      cases compared
  | some own => exact ⟨own, rfl⟩

variable {seed : Bytes} (seedLength : seed.length = Lwe.SEED_LEN)
  (keypair : store.keypair = Lwe.LWEKeyPair.generate P seed) (head : IsDigest store.head)
include seedLength keypair head

/-- A call is linked exactly if it is sealable. -/
theorem linked_iff_sealable : (∃ link, linkOf P store call = some link) ↔ Sealable call := by
  constructor
  · rintro ⟨link, some⟩
    exact sealable_of_linkOf some
  · rintro ⟨⟨id, message, txnId, idBytes⟩, ⟨account, accountBytes⟩, domain, ⟨number, numeric⟩⟩
    rcases linkOf_of_sealable P store call txnId idBytes accountBytes domain numeric seedLength keypair
      head with ⟨link, _, _, some, -⟩
    exact ⟨link, some⟩

/-- A call that is linked and whose record cannot be filled in strands the head. -/
theorem add_of_unfillable (sealable : Sealable call) (others : ¬Fillable P call) :
    ∃ error chainHash, CommitmentStore.add P store calls call = (.error error, store.stranded chainHash) := by
  rcases (linked_iff_sealable seedLength keypair head).mpr sealable with ⟨link, some⟩
  rcases add_of_linkOf_some P calls store call some with ⟨-, moved, -, -, answer⟩
  rcases add_outcome P store calls call with
    ⟨error, added⟩ | ⟨error, chainHash, -, -, added⟩ | ⟨record, -, added⟩
  · -- the sequence number has moved
    rw [added] at moved
    have same : store.seq = store.seq + 1 := moved
    omega
  · exact ⟨error, chainHash, added⟩
  · rw [added] at answer
    exact (others ((isSome_record_iff P store call some).mp ⟨record, answer.symm⟩)).elim

theorem atomic_iff : Atomic P calls store call ↔ (Sealable call -> Fillable P call) := by
  constructor
  · intro atomic sealable
    by_contra others
    rcases add_of_unfillable calls seedLength keypair head sealable others with
      ⟨error, chainHash, added⟩
    have same : store.seq + 1 = store.seq := (atomic error _ added).1.seq
    omega
  · intro converts error after added
    cases some : linkOf P store call with
    | none =>
        rcases add_of_linkOf_none P calls store call some with ⟨own, same⟩
        rw [added] at same
        cases same
        refine ⟨⟨rfl, rfl, rfl, rfl, rfl⟩, ?_⟩
        intro next record later following
        rcases add_outcome P store calls next with
          ⟨_, raised⟩ | ⟨_, _, -, -, raised⟩ | ⟨own, appends, appended⟩
        · rw [following] at raised
          cases raised
        · rw [following] at raised
          cases raised
        · rw [following] at appended
          cases appended
          exact appends.prev
    | some link =>
        -- a linked call whose record can be filled in does not raise
        have fillable := converts (sealable_of_linkOf some)
        rcases (isSome_record_iff P store call some).mpr fillable with ⟨record, carried⟩
        rcases add_of_linkOf_some P calls store call some with ⟨-, -, -, -, answer⟩
        rw [added, carried] at answer
        cases answer

end Call

/-! ## Runs -/

/-- What a store keeps over all requests: its keys, and a digest as its head. -/
theorem kept_serve {store : CommitmentStore L} (head : IsDigest store.head) (request : Request) :
    IsDigest (serve P calls ledgerSetStatus store request).2.head ∧
      (serve P calls ledgerSetStatus store request).2.keypair = store.keypair := by
  cases request with
  | add call =>
      rcases add_outcome P store calls call with
        ⟨error, added⟩ | ⟨error, chainHash, digest, -, added⟩ | ⟨record, appends, added⟩
      · simp only [serve, added]
        exact ⟨head, trivial⟩
      · simp only [serve, added]
        exact ⟨digest, rfl⟩
      · simp only [serve, added]
        exact ⟨appends.honest.chainHash_isDigest, rfl⟩
  | mark transition txnId =>
      rw [serve_mark]
      dsimp only
      rw [(setStatus_outcome ledgerSetStatus store txnId transition.status).2]
      exact ⟨head, rfl⟩

theorem kept_run {store : CommitmentStore L} (head : IsDigest store.head) (requests : List Request) :
    IsDigest (Machine.run (serve P calls ledgerSetStatus) store requests).2.head ∧
      (Machine.run (serve P calls ledgerSetStatus) store requests).2.keypair = store.keypair := by
  apply Machine.invariant_run
    (fun own : CommitmentStore L => IsDigest own.head ∧ own.keypair = store.keypair)
  · intro own request _ kept
    have next := kept_serve P calls ledgerSetStatus kept.1 request
    exact ⟨next.1, next.2.trans kept.2⟩
  · exact ⟨head, rfl⟩

theorem isDigest_new {ledger : Option L} {ringSize : Nat} {keypair : Lwe.LWEKeyPair} {masterKey : Bytes}
    {signingKey : SigningKey}
    (resumed : ∀ place, ledger.bind calls.loadHead = some place -> IsDigest place.2) :
    IsDigest (CommitmentStore.new calls ledger ringSize keypair masterKey signingKey).head := by
  cases found : ledger.bind calls.loadHead with
  | none =>
      rw [head_new calls found]
      exact isDigest_genesis
  | some place =>
      unfold CommitmentStore.new
      simp only [found, Option.getD_some]
      exact resumed place found

/-- In every state that requests lead to, from genesis or from the head of an earlier
ledger: an `add` that raises leaves the store as it found it exactly if the call could
not be linked, or its signing step goes through and its scores convert. -/
theorem atomic_on_error_iff {seed : Bytes} (seedLength : seed.length = Lwe.SEED_LEN) (ledger : Option L)
    (resumed : ∀ place, ledger.bind calls.loadHead = some place -> IsDigest place.2) (ringSize : Nat)
    (masterKey : Bytes) (signingKey : SigningKey) (requests : List Request) (call : AddCall) :
    Atomic P calls (Machine.run (serve P calls ledgerSetStatus)
        (.new calls ledger ringSize (.generate P seed) masterKey signingKey) requests).2 call ↔
      (Sealable call -> Fillable P call) := by
  rcases kept_run P calls ledgerSetStatus (isDigest_new calls resumed) requests with ⟨head, keypair⟩
  exact atomic_iff calls seedLength keypair head

/-- No row of the sample ledger is ever marked. -/
def sampleSetStatus (ledger : Unit) (_ : Json) (_ : Status) : Bool × Unit := (false, ledger)

theorem atomic_on_error_iff_sample :
    Atomic samplePlatform sampleCalls (Machine.run (serve samplePlatform sampleCalls sampleSetStatus)
        (.new sampleCalls none HOT_RING_SIZE (.generate samplePlatform Sample.latticeSeed) [] sampleKey)
        [.add sampleCall, .mark .quarantine sampleCall.txnId]).2 sampleCall ↔
      (Sealable sampleCall -> Fillable samplePlatform sampleCall) :=
  atomic_on_error_iff samplePlatform sampleCalls sampleSetStatus rfl none (fun _ found => by cases found)
    HOT_RING_SIZE [] sampleKey _ sampleCall

/-- The sample transaction with a score that compares, and that no float holds. -/
def hugeScored : AddCall := { sampleCall with anomalyScore := .int (2 ^ 1024) }

theorem sealable_hugeScored : Sealable hugeScored where
  txnId := ⟨_, _, rfl, rfl⟩
  accountId := ⟨_, rfl⟩
  domain := wellFormed_sampleCall.domain
  score := ⟨_, rfl⟩

theorem not_fillable_hugeScored : ¬Fillable samplePlatform hugeScored := by
  rintro ⟨-, ⟨score, converted⟩, -, -⟩
  have overflows : ¬(2 ^ 1024 : Int).natAbs < 2 ^ 1024 - 2 ^ 970 := by
    have base : (2 : Int).natAbs = 2 := rfl
    rw [Int.natAbs_pow, base]
    simp only [Nat.not_lt, Nat.sub_le]
  simp only [hugeScored, Platform.float, PyFloat.ofInt, if_neg overflows] at converted
  cases converted

/-- The call raises, and leaves a head behind that no record carries. -/
theorem hugeScore_strands_head :
    (∃ error chainHash, CommitmentStore.add samplePlatform sampleStore sampleCalls hugeScored =
      (.error error, sampleStore.stranded chainHash)) ∧
    ¬Atomic samplePlatform sampleCalls sampleStore hugeScored := by
  have seedLength : Sample.latticeSeed.length = Lwe.SEED_LEN := rfl
  have head : IsDigest sampleStore.head := head_sampleStore ▸ isDigest_genesis
  constructor
  · exact add_of_unfillable sampleCalls seedLength rfl head sealable_hugeScored
      not_fillable_hugeScored
  · intro atomic
    exact not_fillable_hugeScored
      ((atomic_iff sampleCalls seedLength rfl head).mp atomic sealable_hugeScored)

end Commitment
end ZeroAudit
