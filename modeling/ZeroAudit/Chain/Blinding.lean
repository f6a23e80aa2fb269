import ZeroAudit.Chain.Admission
import ZeroAudit.Lattice.Hiding

namespace ZeroAudit
namespace Consumer

open Foundation Commitment Lwe

/-!
# Blinding seeds and the ids they are derived from

The blinding seed of a commitment is a function of the master key and of the
transaction id.  The id is the one the message carries, or `unknown`, and no
component looks whether it was used before.  Under a collision-free derivation
two published commitments share their seed exactly if they share their id, and
then the difference of the two is the difference of the encoded amounts.
-/

variable (P : Platform)

/-! ## What a commitment is built from -/

/-- The commitment of the record is the one of the amount of the call, blinded
by the seed of its id. -/
structure Built (keypair : LWEKeyPair) (masterKey : Bytes) (own : AddCall × CommitmentRecord)
    (id : PyStr) (seed : Bytes) : Prop where
  txnId : own.1.txnId = .str id
  derived : deriveRandomness P masterKey own.1.txnId = .ok seed
  committed : ∃ blob, commitCore P keypair.A keypair.t own.1.amountCents seed = .ok blob ∧
    own.2.commitmentB64 = Base64.encode blob

theorem built_of_add {L : Type} {calls : LedgerCalls L} {store after : CommitmentStore L} {call : AddCall}
    {record : CommitmentRecord}
    (added : CommitmentStore.add P store calls call = (.ok record, after)) :
    ∃ id seed, Built P store.keypair store.masterKey (call, record) id seed := by
  rcases add_inversion P store calls added with ⟨sealed, chainHash, sealing, filled⟩
  rcases seed_of_sealTransaction P store sealing with
    ⟨-, id, message, seed, blob, named, -, derived, core, published⟩
  have encoded := (buildRecord_inversion P store call filled).2.1
  exact ⟨id, seed, named, derived, blob, core, encoded.trans published⟩

/-! ## What the public sees -/

/-- The coefficients of a published commitment. -/
def publicWords (record : CommitmentRecord) : Option Poly :=
  match (Json.str record.commitmentB64).b64decode with
  | .ok blob => unpackWords blob
  | .error _ => none

/-- The difference of the two commitments is the difference of the encoded
amounts: the first components agree, and the second ones differ by it. -/
def Reveals (first second : AddCall × CommitmentRecord) : Prop :=
  ∃ words words' message message', publicWords first.2 = some words ∧
    publicWords second.2 = some words' ∧ encodeAmount first.1.amountCents = .ok message ∧
    encodeAmount second.1.amountCents = .ok message' ∧
    words.take (K * N) = words'.take (K * N) ∧
    ∀ i < N, (words.getD (K * N + i) 0 - words'.getD (K * N + i) 0) % (Q : Int) =
      (message.getD i 0 - message'.getD i 0) % (Q : Int)

/-- What a seed adds to the two components of a commitment. -/
def blindingTerms (keypair : LWEKeyPair) (seed : Bytes) : List Poly × Poly :=
  (commitmentU P keypair.A seed, mask P keypair.t seed)

section Pair

variable {P} {keypair : LWEKeyPair} {masterKey : Bytes} {own other : AddCall × CommitmentRecord}
  {id id' : PyStr} {seed seed' : Bytes}

theorem seed_eq_iff (built : Built P keypair masterKey own id seed)
    (builtOther : Built P keypair masterKey other id' seed') :
    deriveRandomness P masterKey own.1.txnId = deriveRandomness P masterKey other.1.txnId ↔
      seed = seed' := by
  rw [built.derived, builtOther.derived, Except.ok.injEq]

/-- The public coefficients of a commitment, part by part. -/
theorem words_of_built (built : Built P keypair masterKey own id seed) :
    ∃ words, publicWords own.2 = some words ∧
      encodeAmount own.1.amountCents =
        .ok (encodeBits own.1.amountCents.toNat AMOUNT_BITS) ∧
      words.take (K * N) = (commitmentU P keypair.A seed).flatten ∧
      ∀ i < N, words.getD (K * N + i) 0 = ((mask P keypair.t seed).getD i 0 +
        (encodeBits own.1.amountCents.toNat AMOUNT_BITS).getD i 0) % (Q : Int) := by
  rcases built.committed with ⟨blob, core, encoded⟩
  rcases range_of_commitCore P _ _ _ core with ⟨low, high⟩
  rcases commitCore_of_range P keypair.A keypair.t seed low high with ⟨_, ran, -, unpacked⟩
  rw [core] at ran
  cases ran
  have length := (flatten_spec (length_moduleMulAdd P _ _ _)
    fun i inside => isReduced_commitmentU P keypair.A seed inside).1
  have first : (commitmentU P keypair.A seed).flatten.length = K * N := length
  refine ⟨commitmentWords P keypair.A keypair.t seed own.1.amountCents.toNat, ?_,
    encodeAmount_of_range low high, ?_, ?_⟩
  · unfold publicWords
    rw [encoded, Json.b64decode_encode]
    exact unpacked
  · rw [commitmentWords, ← first, List.take_left]
  · intro i inside
    rw [commitmentWords, List.getD_append_right _ _ _ _ (by omega), first, Nat.add_sub_cancel_left,
      getD_polyAdd (isReduced_mask P keypair.t seed).length
        (encodeBits_spec own.1.amountCents.toNat AMOUNT_BITS (by decide)).1 inside]

/-- One seed for two commitments reveals the difference of their amounts. -/
theorem reveals_of_sameSeed (built : Built P keypair masterKey own id seed)
    (builtOther : Built P keypair masterKey other id' seed) : Reveals own other := by
  rcases words_of_built built with ⟨words, read, encoded, front, back⟩
  rcases words_of_built builtOther with ⟨words', read', encoded', front', back'⟩
  refine ⟨words, words', _, _, read, read', encoded, encoded', front.trans front'.symm, ?_⟩
  intro i inside
  rw [back i inside, back' i inside]
  simp only [Q]
  omega

/-- Commitments whose difference reveals the amounts were blinded alike. -/
theorem blindingTerms_of_reveals (built : Built P keypair masterKey own id seed)
    (builtOther : Built P keypair masterKey other id' seed') (reveals : Reveals own other) :
    blindingTerms P keypair seed = blindingTerms P keypair seed' := by
  rcases words_of_built built with ⟨words, read, encoded, front, back⟩
  rcases words_of_built builtOther with ⟨words', read', encoded', front', back'⟩
  rcases reveals with ⟨_, _, _, _, same, same', sameCode, sameCode', fronts, difference⟩
  cases read.symm.trans same
  cases read'.symm.trans same'
  cases encoded.symm.trans sameCode
  cases encoded'.symm.trans sameCode'
  rw [front, front'] at fronts
  have blocks : ∀ rSeed, (List.range K).map (fun i =>
      ((commitmentU P keypair.A rSeed).flatten.drop (i * N)).take N) = commitmentU P keypair.A rSeed :=
    fun rSeed => (flatten_spec (length_moduleMulAdd P _ _ _)
      fun i inside => isReduced_commitmentU P keypair.A rSeed inside).2.2
  have reduced := isReduced_mask P keypair.t seed
  have reduced' := isReduced_mask P keypair.t seed'
  apply Prod.ext
  · show commitmentU P keypair.A seed = commitmentU P keypair.A seed'
    rw [← blocks seed, fronts, blocks seed']
  · apply List.ext_getElem (reduced.length.trans reduced'.length.symm)
    intro i inside inside'
    have small : i < N := by
      rw [← reduced.length]
      exact inside
    have equal := difference i small
    rw [back i small, back' i small, List.getD_eq_getElem _ _ inside,
      List.getD_eq_getElem _ _ inside'] at equal
    have range := reduced.range _ (List.getElem_mem inside)
    have range' := reduced'.range _ (List.getElem_mem inside')
    simp only [Q] at equal range range'
    omega

/-- Under a derivation that separates the ids, one seed means one id. -/
theorem sameId_of_sameSeed {ids : Set Bytes} (injective : Set.InjOn (P.hmacSha256 masterKey) ids)
    (built : Built P keypair masterKey own id seed) (builtOther : Built P keypair masterKey other id' seed)
    (known : ∀ bytes, own.1.txnId.encode = .ok bytes -> bytes ∈ ids)
    (known' : ∀ bytes, other.1.txnId.encode = .ok bytes -> bytes ∈ ids) : own.1.txnId = other.1.txnId := by
  have derived := built.derived
  have derived' := builtOther.derived
  unfold deriveRandomness at derived derived'
  rcases bind_eq_ok_iff.mp derived with ⟨bytes, encoded, hashed⟩
  rcases bind_eq_ok_iff.mp derived' with ⟨bytes', encoded', hashed'⟩
  cases hashed
  have same : bytes' = bytes := injective (known' _ encoded') (known _ encoded) (Except.ok.inj hashed')
  subst same
  rcases (Json.encode_eq_ok_iff ..).mp encoded with ⟨text, named, utf8⟩
  rcases (Json.encode_eq_ok_iff ..).mp encoded' with ⟨text', named', utf8'⟩
  rw [named, named', PyStr.utf8_injective utf8 utf8']

end Pair

/-! ## Runs -/

section Run

variable {L D K : Type} (ledgerCalls : LedgerCalls L) (detectorCalls : DetectorCalls D)
  (producerCalls : ProducerCalls K) (settings : Settings)

/-- One message, answered by what reaches the committed topic. -/
def broadcast (consumer : ProverConsumer L D K) (message : Message) :
    Option (AddCall × CommitmentRecord) × ProverConsumer L D K :=
  (published P ledgerCalls detectorCalls producerCalls settings consumer message,
    (consumer.process P ledgerCalls detectorCalls producerCalls settings message).2)

/-- The calls and the records of the commitments a run publishes. -/
def publications (consumer : ProverConsumer L D K) (messages : List Message) :
    List (AddCall × CommitmentRecord) :=
  (Machine.run (broadcast P ledgerCalls detectorCalls producerCalls settings) consumer
    messages).1.filterMap fun answer => answer

theorem publications_cons {consumer : ProverConsumer L D K} {message : Message}
    {own : AddCall × CommitmentRecord}
    (sent : published P ledgerCalls detectorCalls producerCalls settings consumer message = some own)
    (rest : List Message) :
    publications P ledgerCalls detectorCalls producerCalls settings consumer (message :: rest) =
      own :: publications P ledgerCalls detectorCalls producerCalls settings
        (consumer.process P ledgerCalls detectorCalls producerCalls settings message).2 rest := by
  unfold publications
  rw [Machine.run_cons]
  unfold broadcast
  dsimp only
  rw [sent]
  rfl

/-- What is published is built with the keys the run starts with. -/
theorem built_of_published (consumer : ProverConsumer L D K) (messages : List Message)
    {own : AddCall × CommitmentRecord}
    (member : own ∈ publications P ledgerCalls detectorCalls producerCalls settings consumer messages) :
    ∃ id seed, Built P consumer.store.keypair consumer.store.masterKey own id seed := by
  unfold publications at member
  rcases List.mem_filterMap.mp member with ⟨answer, answered, rfl⟩
  refine Machine.forall_run
    (fun state : ProverConsumer L D K => state.store.keypair = consumer.store.keypair ∧
      state.store.masterKey = consumer.store.masterKey)
    (fun answer => ∀ own, answer = some own ->
      ∃ id seed, Built P consumer.store.keypair consumer.store.masterKey own id seed)
    ?_ ⟨rfl, rfl⟩ messages _ answered own rfl
  rintro state message ⟨sameKeypair, sameKey⟩
  unfold broadcast published
  have outcome := outcome_process P ledgerCalls detectorCalls producerCalls settings state message
  generalize committed P ledgerCalls detectorCalls settings state message = answer at outcome ⊢
  dsimp only
  cases outcome with
  | idle store sent =>
      constructor
      · intro own same
        rw [Option.filter_none] at same
        cases same
      · rw [store]
        exact ⟨sameKeypair, sameKey⟩
  | appended call record appends added store topic =>
      constructor
      · intro own same
        have kept := (Option.filter_eq_some_iff.mp same).1
        cases kept
        rw [← sameKeypair, ← sameKey]
        exact built_of_add P added
      · rw [store]
        exact ⟨sameKeypair, sameKey⟩

/-- The ids whose seeds a run derives for what it publishes. -/
def publishedIds (consumer : ProverConsumer L D K) (messages : List Message) : Set Bytes := fun bytes =>
  ∃ own ∈ publications P ledgerCalls detectorCalls producerCalls settings consumer messages,
    own.1.txnId.encode = .ok bytes

/-- For every sequence of messages: no two published commitments to different
amounts share their blinding seed exactly if messages that are published under
one id carry one amount.  Where a seed is shared, the difference of the amounts
is public; and if the blinding terms of the seeds are all distinct, it is public
nowhere else. -/
theorem seed_reused_iff (store : CommitmentStore L) (detector : Option D) (producer : K)
    (messages : List Message)
    (injective : Set.InjOn (P.hmacSha256 store.masterKey) (publishedIds P ledgerCalls detectorCalls
      producerCalls settings (.new store detector producer) messages)) :
    let pubs := publications P ledgerCalls detectorCalls producerCalls settings
      (.new store detector producer) messages
    let seedOf := fun own : AddCall × CommitmentRecord =>
      deriveRandomness P store.masterKey own.1.txnId
    ((∀ own ∈ pubs, ∀ other ∈ pubs, own.1.amountCents ≠ other.1.amountCents -> seedOf own ≠ seedOf other) ↔
      ∀ own ∈ pubs, ∀ other ∈ pubs, own.1.txnId = other.1.txnId ->
        own.1.amountCents = other.1.amountCents) ∧
    (∀ own ∈ pubs, ∀ other ∈ pubs, seedOf own = seedOf other -> Reveals own other) ∧
    (Set.InjOn (blindingTerms P store.keypair) {seed | ∃ own ∈ pubs, seedOf own = .ok seed} ->
      ∀ own ∈ pubs, ∀ other ∈ pubs, Reveals own other -> seedOf own = seedOf other) := by
  intro pubs seedOf
  have built : ∀ own ∈ pubs, ∃ id seed, Built P store.keypair store.masterKey own id seed :=
    fun own member => built_of_published P ledgerCalls detectorCalls producerCalls settings _ messages
      member
  refine ⟨⟨?_, ?_⟩, ?_, ?_⟩
  · intro separate own member other otherMember sameId
    by_contra different
    apply separate own member other otherMember different
    show deriveRandomness P store.masterKey own.1.txnId = deriveRandomness P store.masterKey other.1.txnId
    rw [sameId]
  · intro consistent own member other otherMember different sameSeed
    rcases built own member with ⟨id, seed, ownBuilt⟩
    rcases built other otherMember with ⟨id', seed', otherBuilt⟩
    cases (seed_eq_iff ownBuilt otherBuilt).mp sameSeed
    apply different
    apply consistent own member other otherMember
    exact sameId_of_sameSeed injective ownBuilt otherBuilt (fun bytes encoded => ⟨own, member, encoded⟩)
      fun bytes encoded => ⟨other, otherMember, encoded⟩
  · intro own member other otherMember sameSeed
    rcases built own member with ⟨id, seed, ownBuilt⟩
    rcases built other otherMember with ⟨id', seed', otherBuilt⟩
    cases (seed_eq_iff ownBuilt otherBuilt).mp sameSeed
    exact reveals_of_sameSeed ownBuilt otherBuilt
  · intro distinct own member other otherMember reveals
    rcases built own member with ⟨id, seed, ownBuilt⟩
    rcases built other otherMember with ⟨id', seed', otherBuilt⟩
    have terms := blindingTerms_of_reveals ownBuilt otherBuilt reveals
    exact (seed_eq_iff ownBuilt otherBuilt).mpr
      (distinct ⟨own, member, ownBuilt.derived⟩ ⟨other, otherMember, otherBuilt.derived⟩ terms)

end Run

/-! ## Two messages without an id -/

def namelessFields (amountCents : Int) : Dict :=
  [(PyStr.ofString "account_id", Json.text "ACC-1"),
    (PyStr.ofString "amount", .float (.finite 1500)),
    (PyStr.ofString "amount_cents", .int amountCents),
    (PyStr.ofString "txn_type", Json.text "RTGS"),
    (PyStr.ofString "timestamp_ns", .int 1)]

def namelessMessage (amountCents : Int) : Message := ⟨.obj (namelessFields amountCents), 1, 1, .zero⟩

def namelessCall (amountCents : Int) : TypedCall :=
  ⟨{ sampleCall with txnId := Json.text "unknown", amountCents }, ⟨wellFormed_sampleCall.regular.scores, rfl⟩⟩

theorem request_nameless (amountCents : Int) :
    request samplePlatform sampleDetector sampleSettings none (namelessMessage amountCents) =
      (some ((namelessCall amountCents).toAddCall, Scores.unscored), none) := rfl

/-- A message without an id is published by the sample consumer, in any state of
its ledger. -/
theorem published_nameless (consumer : ProverConsumer Unit Unit Unit) (engine : consumer.detector = none)
    (keypair : consumer.store.keypair = LWEKeyPair.generate samplePlatform Sample.latticeSeed)
    (head : IsDigest consumer.store.head) {amountCents : Int} (low : 0 ≤ amountCents)
    (high : amountCents < 2 ^ AMOUNT_BITS) :
    ∃ record, committed samplePlatform sampleCalls sampleDetector sampleSettings consumer
        (namelessMessage amountCents) = some ((namelessCall amountCents).toAddCall, record) ∧
      published samplePlatform sampleCalls sampleDetector sampleProducer sampleSettings consumer
        (namelessMessage amountCents) = some ((namelessCall amountCents).toAddCall, record) := by
  have asked : (request samplePlatform sampleDetector sampleSettings consumer.detector
      (namelessMessage amountCents)).1 = some ((namelessCall amountCents).toAddCall, Scores.unscored) := by
    rw [engine, request_nameless]
  have wellFormed : WellFormed (namelessCall amountCents).toAddCall (PyStr.ofString "unknown") :=
    ⟨rfl, ⟨_, rfl⟩, wellFormed_sampleCall.accountId, ⟨low, high⟩, (namelessCall amountCents).regular⟩
  rcases committed_of_wellFormed samplePlatform sampleCalls sampleDetector sampleSettings consumer asked
    wellFormed (rfl : Sample.latticeSeed.length = SEED_LEN) keypair head with ⟨record, own⟩
  refine ⟨record, own, ?_⟩
  unfold published
  rw [own]
  rfl

/-- Both messages are published, with their own amounts. -/
theorem publications_nameless :
    ∃ first second, publications samplePlatform sampleCalls sampleDetector sampleProducer sampleSettings
      sampleConsumer [namelessMessage 150000, namelessMessage 150001] =
        [((namelessCall 150000).toAddCall, first), ((namelessCall 150001).toAddCall, second)] := by
  rcases published_nameless sampleConsumer rfl rfl (head_sampleStore ▸ isDigest_genesis)
    (by decide : (0 : Int) ≤ 150000) (by decide) with ⟨first, own, sent⟩
  rcases appended_of_committed samplePlatform sampleCalls sampleDetector sampleProducer sampleSettings
    sampleConsumer own with ⟨appends, store⟩
  have engine := detector_process samplePlatform sampleCalls sampleDetector sampleProducer sampleSettings
    sampleConsumer (namelessMessage 150000)
  rw [show sampleConsumer.detector = none from rfl, request_nameless] at engine
  have keypair := congrArg CommitmentStore.keypair store
  have head := congrArg CommitmentStore.head store
  rcases published_nameless _ engine keypair (by rw [head]; exact appends.honest.chainHash_isDigest)
    (by decide : (0 : Int) ≤ 150001) (by decide) with ⟨second, -, later⟩
  refine ⟨first, second, ?_⟩
  rw [publications_cons samplePlatform sampleCalls sampleDetector sampleProducer sampleSettings sent,
    publications_cons samplePlatform sampleCalls sampleDetector sampleProducer sampleSettings later]
  rfl

/-- The run derives one seed only. -/
theorem injOn_nameless :
    Set.InjOn (samplePlatform.hmacSha256 sampleStore.masterKey)
      (publishedIds samplePlatform sampleCalls sampleDetector sampleProducer sampleSettings
        (.new sampleStore none ()) [namelessMessage 150000, namelessMessage 150001]) := by
  rcases publications_nameless with ⟨first, second, pubs⟩
  have unknown : ∀ bytes, publishedIds samplePlatform sampleCalls sampleDetector sampleProducer
      sampleSettings (.new sampleStore none ()) [namelessMessage 150000, namelessMessage 150001] bytes ->
        (Json.text "unknown").encode = .ok bytes := by
    rintro bytes ⟨own, member, encoded⟩
    rw [show ProverConsumer.new sampleStore none () = sampleConsumer from rfl, pubs] at member
    rcases List.mem_cons.mp member with rfl | later
    · exact encoded
    · rw [List.mem_singleton.mp later] at encoded
      exact encoded
  intro bytes left other right _
  have encoded := unknown bytes left
  rw [unknown other right] at encoded
  exact (Except.ok.inj encoded).symm

theorem seed_reused_iff_sample :
    ∃ first second, ((namelessCall 150000).toAddCall, first) ∈ publications samplePlatform sampleCalls
        sampleDetector sampleProducer sampleSettings (.new sampleStore none ())
        [namelessMessage 150000, namelessMessage 150001] ∧
      Reveals ((namelessCall 150000).toAddCall, first) ((namelessCall 150001).toAddCall, second) := by
  rcases publications_nameless with ⟨first, second, pubs⟩
  have here : ((namelessCall 150000).toAddCall, first) ∈ publications samplePlatform sampleCalls
      sampleDetector sampleProducer sampleSettings (.new sampleStore none ())
      [namelessMessage 150000, namelessMessage 150001] := by
    rw [show ProverConsumer.new sampleStore none () = sampleConsumer from rfl, pubs]
    exact List.mem_cons_self
  have there : ((namelessCall 150001).toAddCall, second) ∈ publications samplePlatform sampleCalls
      sampleDetector sampleProducer sampleSettings (.new sampleStore none ())
      [namelessMessage 150000, namelessMessage 150001] := by
    rw [show ProverConsumer.new sampleStore none () = sampleConsumer from rfl, pubs]
    exact List.mem_cons_of_mem _ List.mem_cons_self
  exact ⟨first, second, here, (seed_reused_iff samplePlatform sampleCalls sampleDetector sampleProducer
    sampleSettings sampleStore none () [namelessMessage 150000, namelessMessage 150001]
    injOn_nameless).2.1 _ here _ there rfl⟩

/-- Two messages without an id, for 1500.00 and 1500.01: both commitments are
published, and both are blinded by the seed of `unknown`. -/
theorem nameless_messages_share_seed :
    ∃ messages, Set.InjOn (samplePlatform.hmacSha256 sampleStore.masterKey)
        (publishedIds samplePlatform sampleCalls sampleDetector sampleProducer sampleSettings
          (.new sampleStore none ()) messages) ∧
      ¬∀ own ∈ publications samplePlatform sampleCalls sampleDetector sampleProducer sampleSettings
          (.new sampleStore none ()) messages,
        ∀ other ∈ publications samplePlatform sampleCalls sampleDetector sampleProducer sampleSettings
          (.new sampleStore none ()) messages,
        own.1.amountCents ≠ other.1.amountCents ->
          deriveRandomness samplePlatform sampleStore.masterKey own.1.txnId ≠
            deriveRandomness samplePlatform sampleStore.masterKey other.1.txnId := by
  refine ⟨_, injOn_nameless, ?_⟩
  rcases publications_nameless with ⟨first, second, pubs⟩
  intro separate
  rw [show ProverConsumer.new sampleStore none () = sampleConsumer from rfl, pubs] at separate
  exact separate _ List.mem_cons_self _ (List.mem_cons_of_mem _ List.mem_cons_self)
    (by decide : (150000 : Int) ≠ 150001) rfl

end Consumer
end ZeroAudit
