import ZeroAudit.Chain.Blinding
import ZeroAudit.Durable.Restarts
import ZeroAudit.Durable.Tiers
import ZeroAudit.Lattice.Disclosure
import ZeroAudit.Prover.Keys

namespace ZeroAudit
namespace Cassandra

open Foundation Commitment Keys

/-!
# Audits across restarts

The ledger outlives the processes of a prover, and the ring and the keys do not.  A process
takes its keys from the environment again.  Where that has what the key tool printed,
every process answers an audit of what an earlier one has committed, and the keys that an
auditor holds stay valid.
-/

variable (P : Platform)

/-- A request, or a new process over the same ledger. -/
inductive Move where
  | serve (nowNs : Int) (request : Request)
  | boot (nowNs : Int) (ringSize : Nat) (environ : Environ) (entropy : Entropy)

/-- A prover with the book of its answers, and the amount that was last committed for each
transaction. -/
structure Life where
  audited : Audited
  amounts : List (PyStr × Int)

/-- Keep the amount of a request that was committed. -/
def noteAmount (amounts : List (PyStr × Int)) : Request -> Answer -> List (PyStr × Int)
  | .add call, .committed (.ok _) =>
      match call.txnId with
      | .str id => Retention.upsert id call.amountCents amounts
      | _ => amounts
  | _, _ => amounts

/-- One move.  A process that cannot read its keys does not start. -/
def live (life : Life) : Move -> Option Answer × Life
  | .serve nowNs request =>
      let followed := follow P life.audited (steady nowNs, request)
      (some followed.1, ⟨followed.2, noteAmount life.amounts request followed.1⟩)
  | .boot nowNs ringSize environ entropy =>
      let ledger := life.audited.store.ledger.map fun ledger => ledger.meets (steady nowNs)
      match (KeyRing.empty.initStore P environ entropy (calls P) ledger ringSize).1 with
      | .ok store => (none, ⟨⟨store, life.audited.book⟩, life.amounts⟩)
      | .error _ => (none, life)

/-! ## What an audit relies on -/

/-- A record under these keys, and its amount. -/
structure Sealing (keys : KeyMaterial) (id : PyStr) (amount : Int) (record : CommitmentRecord) : Prop where
  honest : HonestRecord P keys.signingKey record
  named : record.txnId = .str id
  commitment : ∃ seed blob, Lwe.deriveRandomness P keys.masterKey (.str id) = .ok seed ∧
    Lwe.commitCore P keys.keypair.A keys.keypair.t amount seed = .ok blob ∧
    record.commitmentB64 = Base64.encode blob

/-- A process with these keys, over a ledger that has a row for each amount. -/
structure Alive (keys : KeyMaterial) (life : Life) : Prop where
  stored : Stored life.audited
  keypair : life.audited.store.keypair = keys.keypair
  masterKey : life.audited.store.masterKey = keys.masterKey
  signingKey : life.audited.store.signingKey = keys.signingKey
  resumes : ∀ ledger, life.audited.store.ledger = some ledger ->
    ∀ own, ledger.ledgerHead.lookup DEFAULT_SHARD = some own -> IsDigest own.chainHash
  entries : ∀ id amount, Retention.lookup id life.amounts = some amount ->
    ∃ record, (id, record) ∈ life.audited.book ∧ Sealing P keys id amount record

variable {P} {keys : KeyMaterial} {life : Life}

theorem Sealing.mark {id : PyStr} {amount : Int} {record : CommitmentRecord}
    (sealing : Sealing P keys id amount record) (status : Status) :
    Sealing P keys id amount { record with status } where
  honest := ⟨sealing.honest.txnId, sealing.honest.commitment, sealing.honest.link, sealing.honest.signature,
    sealing.honest.lweParams, sealing.honest.piiBytes⟩
  named := sealing.named
  commitment := sealing.commitment

/-! ## One move -/

theorem amounts_boot (life : Life) (nowNs : Int) (ringSize : Nat) (environ : Environ) (entropy : Entropy) :
    (live P life (.boot nowNs ringSize environ entropy)).2.amounts = life.amounts := by
  rw [live]
  split
  · rfl
  · rfl

theorem amounts_add {nowNs : Int} {call : AddCall} {id : PyStr} (named : call.txnId = .str id)
    {record : CommitmentRecord} {after : CommitmentStore CassandraLedger}
    (added : CommitmentStore.add P (inEnvironment (steady nowNs) life.audited.store) (calls P) call =
      (.ok record, after)) :
    (live P life (.serve nowNs (.add call))).2.amounts =
      Retention.upsert id call.amountCents life.amounts := by
  rw [live, follow, serveIn, serve, added]
  simp only [noteAmount, named]

theorem ledgerHead_statusCall (ledger : CassandraLedger) (txnId : Json) (status : Status) :
    (statusCall ledger txnId status).2.ledgerHead = ledger.ledgerHead := by
  cases txnId with
  | str id =>
      change (ledger.setStatus id (PyStr.ofString status.text)).2.ledgerHead = ledger.ledgerHead
      rw [CassandraLedger.setStatus]
      split
      · rfl
      · split
        · rfl
        · rfl
  | _ => rfl

/-- A process with the same keys takes over. -/
theorem alive_boot {drawn : Entropy} (alive : Alive P (drawn.keys P) life) {environ : Environ}
    (sourced : Sourced environ (genKeys drawn)) (nowNs : Int) (ringSize : Nat) (entropy : Entropy) :
    Alive P (drawn.keys P) (live P life (.boot nowNs ringSize environ entropy)).2 := by
  have started := (initStore_of_sourced (holds_empty (drawn.keys P)) sourced entropy (calls P)
    (life.audited.store.ledger.map fun ledger => ledger.meets (steady nowNs)) ringSize).1
  rw [live, started]
  rcases alive.stored with ⟨held, ⟨ledger, own, available, rows⟩, -, faithful⟩
  have forgotten : Held ⟨.new (calls P) (life.audited.store.ledger.map fun ledger => ledger.meets (steady nowNs))
      ringSize (drawn.keys P).keypair (drawn.keys P).masterKey (drawn.keys P).signingKey, life.audited.book⟩ :=
    ⟨held.distinct, [], rfl, List.nodup_nil, fun _ member => (List.not_mem_nil member).elim⟩
  refine ⟨⟨forgotten, ⟨ledger.meets (steady nowNs), ?_, available, rows⟩, ?_, faithful⟩, rfl, rfl, rfl, ?_,
    alive.entries⟩
  · exact congrArg (Option.map fun ledger => ledger.meets (steady nowNs)) own
  · apply isDigest_new
    intro place loaded
    rcases Option.bind_eq_some_iff.mp loaded with ⟨_, present, head⟩
    rcases Option.map_eq_some_iff.mp present with ⟨before, here, rfl⟩
    rcases lookup_of_loadHead head with ⟨row, found, rfl⟩
    exact alive.resumes before here row found
  · intro after present row found
    rcases Option.map_eq_some_iff.mp present with ⟨before, here, rfl⟩
    exact alive.resumes before here row found

/-- A record that is committed is sealed for the amount of its call. -/
theorem sealing_of_add {environment : Environment} {store : CommitmentStore CassandraLedger} {call : AddCall}
    {record : CommitmentRecord} {id : PyStr} (named : record.txnId = .str id)
    (appends : Appends P store call record) (keypair : store.keypair = keys.keypair)
    (masterKey : store.masterKey = keys.masterKey) (signingKey : store.signingKey = keys.signingKey)
    {after : CommitmentStore CassandraLedger}
    (served : serveIn P store (environment, .add call) = (.committed (.ok record), after)) :
    Sealing P keys id call.amountCents record := by
  have added : CommitmentStore.add P (inEnvironment environment store) (calls P) call =
      (.ok record, (CommitmentStore.add P (inEnvironment environment store) (calls P) call).2) :=
    Prod.ext (Answer.committed.inj (congrArg Prod.fst served)) rfl
  rcases Consumer.built_of_add P added with ⟨own, seed, built⟩
  rcases built.committed with ⟨blob, core, encoded⟩
  have derived : Lwe.deriveRandomness P store.masterKey (.str id) = .ok seed := by
    rw [← named, appends.txnId]
    exact built.derived
  have core : Lwe.commitCore P store.keypair.A store.keypair.t call.amountCents seed = .ok blob := core
  rw [masterKey] at derived
  rw [keypair] at core
  exact ⟨signingKey ▸ appends.honest, named, seed, blob, derived, core, encoded⟩

/-- The head of a ledger in another environment. -/
theorem resumes_meets (alive : Alive P keys life) (environment : Environment) {after : CassandraLedger}
    (present : (inEnvironment environment life.audited.store).ledger = some after) {row : HeadRow}
    (found : after.ledgerHead.lookup DEFAULT_SHARD = some row) : IsDigest row.chainHash := by
  rcases Option.map_eq_some_iff.mp present with ⟨before, here, rfl⟩
  exact alive.resumes before here row found

/-- A commitment adds its amount, or replaces the one of its transaction. -/
theorem alive_add (alive : Alive P keys life) (nowNs : Int) {call : AddCall} (declared : Declared call) :
    Alive P keys (live P life (.serve nowNs (.add call))).2 := by
  have stored := stored_follow (P := P) alive.stored nowNs (.add call) fun _ same => by cases same; exact declared
  rw [live]
  rw [follow] at stored ⊢
  rcases serveIn_add P (steady nowNs) life.audited.store call with
    ⟨error, served⟩ | ⟨error, chainHash, digest, served⟩ | ⟨record, id, named, own, appends, -, served⟩
  · rw [served] at stored ⊢
    exact ⟨stored, alive.keypair, alive.masterKey, alive.signingKey,
      fun _ present _ found => resumes_meets alive (steady nowNs) present found, alive.entries⟩
  · rw [served] at stored ⊢
    exact ⟨stored, alive.keypair, alive.masterKey, alive.signingKey,
      fun _ present _ found => resumes_meets alive (steady nowNs) present found, alive.entries⟩
  · have sealing := sealing_of_add named appends alive.keypair alive.masterKey alive.signingKey served
    rw [served] at stored ⊢
    simp only [Book.enter, named, noteAmount, own] at stored ⊢
    refine ⟨stored, alive.keypair, alive.masterKey, alive.signingKey, ?_, ?_⟩
    · intro after present row found
      rcases Option.map_eq_some_iff.mp present with ⟨before, here, rfl⟩
      rw [((before.meets (steady nowNs)).persisted_spec P named).2.2.1] at found
      split at found
      · rw [AList.lookup_insert] at found
        cases found
        exact appends.honest.chainHash_isDigest
      · exact alive.resumes before here row found
    · intro other amount noted
      rw [Retention.lookup_upsert] at noted
      split at noted
      · next same =>
          cases noted
          subst same
          exact ⟨record, (Retention.mem_upsert_iff alive.stored.held.distinct).mpr (Or.inl ⟨rfl, rfl⟩), sealing⟩
      · next different =>
          rcases alive.entries other amount noted with ⟨old, member, before⟩
          exact ⟨old, (Retention.mem_upsert_iff alive.stored.held.distinct).mpr (Or.inr ⟨different, member⟩), before⟩

/-- A transition keeps each record, perhaps in another status. -/
theorem mem_enter_mark {book : Book} (distinct : (book.map Prod.fst).Nodup) {id : PyStr}
    {record : CommitmentRecord} (member : (id, record) ∈ book) (transition : Transition) (txnId : Json)
    (done : Bool) :
    ∃ status, (id, { record with status }) ∈ book.enter (.mark transition txnId) (.marked done) := by
  cases done with
  | false =>
      rw [enter_refused]
      exact ⟨record.status, member⟩
  | true =>
      cases txnId with
      | str own =>
          by_cases same : id = own
          · subst same
            exact ⟨transition.status, (mem_mark_iff distinct).mpr (Or.inr ⟨rfl, record, member, rfl⟩)⟩
          · exact ⟨record.status, (mem_mark_iff distinct).mpr (Or.inl ⟨same, member⟩)⟩
      | _ => exact ⟨record.status, member⟩

/-- A transition leaves every commitment as it is. -/
theorem alive_mark (alive : Alive P keys life) (nowNs : Int) (transition : Transition) (txnId : Json) :
    Alive P keys (live P life (.serve nowNs (.mark transition txnId))).2 := by
  have stored := stored_follow (P := P) alive.stored nowNs (.mark transition txnId) fun _ same => by cases same
  rw [live]
  rw [follow] at stored ⊢
  rw [serveIn_mark] at stored ⊢
  refine ⟨stored, alive.keypair, alive.masterKey, alive.signingKey, ?_, ?_⟩
  · intro after present row found
    rcases Option.map_eq_some_iff.mp present with ⟨before, here, rfl⟩
    rw [ledgerHead_statusCall] at found
    exact alive.resumes before here row found
  · intro other amount noted
    have noted : Retention.lookup other life.amounts = some amount := noted
    rcases alive.entries other amount noted with ⟨record, member, sealing⟩
    rcases mem_enter_mark alive.stored.held.distinct member transition txnId _ with ⟨status, marked⟩
    exact ⟨_, marked, sealing.mark status⟩

/-- The environments have what was printed for these draws, and the calls are the ones the
consumer makes. -/
def Move.Minted (drawn : Entropy) : Move -> Prop
  | .serve _ (.add call) => Declared call
  | .serve _ (.mark _ _) => True
  | .boot _ _ environ _ => Sourced environ (genKeys drawn)

theorem alive_live {drawn : Entropy} (alive : Alive P (drawn.keys P) life) {move : Move}
    (minted : move.Minted drawn) : Alive P (drawn.keys P) (live P life move).2 := by
  cases move with
  | serve nowNs request =>
      cases request with
      | add call => exact alive_add alive nowNs minted
      | mark transition txnId => exact alive_mark alive nowNs transition txnId
  | boot nowNs ringSize environ entropy => exact alive_boot alive minted nowNs ringSize entropy

/-! ## An audit -/

/-- The opening that a process discloses, for whatever amount it is asked about. -/
theorem openingFor_of_get {L : Type} {ledgerGet : L -> Json -> Option Dict} {store : CommitmentStore L}
    {txnId : Json} {record : LoadedRecord} {seed : Bytes} {publicKey fingerprint : PyStr}
    (found : store.get P ledgerGet txnId = .ok (some record))
    (derived : Lwe.deriveRandomness P store.masterKey txnId = .ok seed)
    (serialised : store.keypair.publicKeyB64 = .ok publicKey)
    (identified : store.keypair.fingerprint P = .ok fingerprint) (claimed : Int) :
    ∃ opening, store.openingFor P ledgerGet txnId claimed = .ok (some opening) ∧
      Dict.get opening "blinding_seed_hex" .null = .str (hex seed) ∧
      Dict.get opening "commitment_b64" .null = record.commitmentB64 := by
  simp only [CommitmentStore.openingFor, found, derived, serialised, identified, bind, Except.bind, pure,
    Except.pure]
  exact ⟨_, rfl, by simp [Dict.get], by simp [Dict.get]⟩

/-- What a process publishes goes by its keys alone. -/
theorem publicKeys_congr {L M : Type} {store : CommitmentStore L} {other : CommitmentStore M}
    (keypair : store.keypair = other.keypair) (signingKey : store.signingKey = other.signingKey) :
    store.publicKeys P = other.publicKeys P := by
  rw [CommitmentStore.publicKeys, CommitmentStore.publicKeys, keypair, signingKey]

theorem publicKeys_spec {drawn : Entropy} {L : Type} {store : CommitmentStore L}
    (keypair : store.keypair = (drawn.keys P).keypair) (signingKey : store.signingKey = drawn.signingKey) :
    ∃ keys publicKey fingerprint, store.publicKeys P = .ok keys ∧ store.keypair.publicKeyB64 = .ok publicKey ∧
      store.keypair.fingerprint P = .ok fingerprint ∧
      Dict.get keys "ed25519_public_key_b64" .null = .str (drawn.signingKey.publicKeyB64 P) ∧
      Lwe.LWEPublicKey.fromB64 P (Dict.get keys "lwe_public_key_b64" .null) =
        .ok ⟨drawn.latticeSeed, (drawn.keys P).keypair.t, (drawn.keys P).keypair.A⟩ := by
  rcases Lwe.LWEKeyPair.parse_publicKeyBytes P drawn.latticeSeed drawn.latticeSeed_length with
    ⟨bytes, serialised, -, -, -, parsed⟩
  rcases Lwe.fingerprint_spec P drawn.latticeSeed drawn.latticeSeed_length with ⟨fingerprint, identified⟩
  have published : store.keypair.publicKeyB64 = .ok (Base64.encode bytes) := by
    rw [keypair]
    change ((Lwe.LWEKeyPair.generate P drawn.latticeSeed).publicKeyBytes >>= _) = _
    rw [serialised]
    rfl
  have identified : store.keypair.fingerprint P = .ok fingerprint := by
    rw [keypair]
    exact identified
  simp only [CommitmentStore.publicKeys, published, identified, signingKey, bind, Except.bind, pure, Except.pure]
  refine ⟨_, _, _, rfl, rfl, rfl, by simp [Dict.get], ?_⟩
  refine Eq.trans (congrArg (Lwe.LWEPublicKey.fromB64 P) (?_ : _ = Json.str (Base64.encode bytes))) ?_
  · simp [Dict.get]
  · rw [Lwe.LWEPublicKey.fromB64, Json.b64decode_encode]
    exact parsed

variable (P) in
/-- What an auditor who was given these keys finds for one transaction: its record is signed,
and its opening opens it for the amount that was committed and for no other. -/
structure Audits (keys : Dict) (publicKey : Lwe.LWEPublicKey) (store : CommitmentStore CassandraLedger)
    (id : PyStr) (amount : Int) : Prop where
  signature : ∃ record, store.get P rowCall (.str id) = .ok (some record) ∧
    Signature.verifySignature P (Dict.get keys "ed25519_public_key_b64" .null) record.signatureB64 record.txnId
      record.bindingHash (.int record.timestampNs) record.chainHash = .ok true
  opening : ∀ claimed, ∃ opening blinding, store.openingFor P rowCall (.str id) claimed = .ok (some opening) ∧
    Dict.get opening "blinding_seed_hex" .null = .str blinding ∧
    Lwe.openCommitment P publicKey (Dict.get opening "commitment_b64" .null) claimed blinding =
      .ok (decide (claimed = amount))

theorem audits_of_alive {drawn : Entropy} (alive : Alive P (drawn.keys P) life) {id : PyStr} {amount : Int}
    (noted : Retention.lookup id life.amounts = some amount) {keys : Dict} {publicKey fingerprint : PyStr}
    (serialised : life.audited.store.keypair.publicKeyB64 = .ok publicKey)
    (identified : life.audited.store.keypair.fingerprint P = .ok fingerprint)
    (signing : Dict.get keys "ed25519_public_key_b64" .null = .str (drawn.signingKey.publicKeyB64 P))
    (readNs : Int) :
    Audits P keys ⟨drawn.latticeSeed, (drawn.keys P).keypair.t, (drawn.keys P).keypair.A⟩
      (inEnvironment (steady readNs) life.audited.store) id amount := by
  rcases alive.entries id amount noted with ⟨record, member, sealing⟩
  have found := get_of_stored (P := P) alive.stored member readNs
  rcases sealing.commitment with ⟨seed, blob, derived, core, encoded⟩
  constructor
  · rcases sealing.honest.signature with ⟨payload, built, signed⟩
    refine ⟨record.loaded, found, ?_⟩
    rw [signing]
    change Signature.verifySignature P _ (.str record.signatureB64) _ _ _ _ = _
    rw [signed]
    exact Signature.verifySignature_sign P drawn.signingKey built
  · intro claimed
    have derived : Lwe.deriveRandomness P life.audited.store.masterKey (.str id) = .ok seed := by
      rw [alive.masterKey]
      exact derived
    rcases openingFor_of_get found derived serialised identified claimed with
      ⟨opening, disclosed, blinding, commitment⟩
    have published : Dict.get opening "commitment_b64" .null = .str (Base64.encode blob) :=
      commitment.trans (congrArg Json.str encoded)
    refine ⟨opening, hex seed, disclosed, blinding, ?_⟩
    rw [published]
    exact Lwe.openCommitment_exact P ⟨drawn.latticeSeed, (drawn.keys P).keypair.t, (drawn.keys P).keypair.A⟩ core
      claimed

/-- In every life of a prover whose processes have the printed environment, over a ledger that
answers: each process publishes the keys that the first one did, and an auditor with these
keys finds every transaction in order that any process has committed. -/
theorem audits_survive_restarts {drawn entropy : Entropy} {environ : Environ}
    (sourced : Sourced environ (genKeys drawn)) {ledger : CassandraLedger} (available : ledger.available = true)
    (resumed : ∀ own, ledger.ledgerHead.lookup DEFAULT_SHARD = some own -> IsDigest own.chainHash)
    {ringSize : Nat} {first : CommitmentStore CassandraLedger}
    (started : (KeyRing.empty.initStore P environ entropy (calls P) (some ledger) ringSize).1 = .ok first)
    {moves : List Move} (minted : ∀ move ∈ moves, move.Minted drawn) :
    let life := (Machine.run (live P) ⟨⟨first, []⟩, []⟩ moves).2
    ∃ keys publicKey, first.publicKeys P = .ok keys ∧ life.audited.store.publicKeys P = .ok keys ∧
      Lwe.LWEPublicKey.fromB64 P (Dict.get keys "lwe_public_key_b64" .null) = .ok publicKey ∧
      ∀ id amount, Retention.lookup id life.amounts = some amount ->
        ∀ readNs, Audits P keys publicKey (inEnvironment (steady readNs) life.audited.store) id amount := by
  intro life
  have begun := (initStore_of_sourced (holds_empty (drawn.keys P)) sourced entropy (calls P) (some ledger)
    ringSize).1
  rw [started] at begun
  rw [Except.ok.injEq] at begun
  subst begun
  have fresh : Alive P (drawn.keys P) ⟨⟨.new (calls P) (some ledger) ringSize (drawn.keys P).keypair
      (drawn.keys P).masterKey (drawn.keys P).signingKey, []⟩, []⟩ := by
    refine ⟨⟨⟨List.nodup_nil, [], rfl, List.nodup_nil, fun _ member => (List.not_mem_nil member).elim⟩,
      ⟨ledger, rfl, available, fun _ member => (List.not_mem_nil member).elim⟩, ?_,
      fun _ member => (List.not_mem_nil member).elim⟩, rfl, rfl, rfl, ?_, ?_⟩
    · apply isDigest_new
      intro place loaded
      rcases lookup_of_loadHead loaded with ⟨row, found, rfl⟩
      exact resumed row found
    · intro own same row found
      cases same
      exact resumed row found
    · intro id amount noted
      cases noted
  have alive : Alive P (drawn.keys P) life :=
    Machine.invariant_run (fun life => Alive P (drawn.keys P) life)
      (fun _ move member alive => alive_live alive (minted move member)) fresh
  rcases publicKeys_spec alive.keypair alive.signingKey with
    ⟨keys, publicKey, fingerprint, published, serialised, identified, signing, parsed⟩
  refine ⟨keys, _, ?_, published, parsed, ?_⟩
  · rw [← published]
    exact publicKeys_congr alive.keypair.symm alive.signingKey.symm
  · intro id amount noted readNs
    exact audits_of_alive alive noted serialised identified signing readNs

/-! ## A prover that is started again -/

def sampleSecrets : Entropy :=
  ⟨List.replicate 32 9, Sample.latticeSeed, List.replicate 32 4, rfl, Sample.length_latticeSeed, rfl⟩

/-- What the second process draws, and does not use. -/
def otherSecrets : Entropy := ⟨List.replicate 32 1, List.replicate 32 2, List.replicate 32 3, rfl, rfl, rfl⟩

def sampleEnviron : Environ :=
  [(PyStr.ofString "ZEROAUDIT_MASTER_KEY", hex sampleSecrets.masterKey),
    (PyStr.ofString "LWE_SEED_HEX", hex sampleSecrets.latticeSeed),
    (PyStr.ofString "SGX_SIGNING_KEY_B64", Base64.encode sampleSecrets.signingSeed)]

theorem sourced_sampleEnviron : Sourced sampleEnviron (genKeys sampleSecrets) :=
  sourced_iff.mpr ⟨rfl, rfl, rfl⟩

/-- A transaction, and a process with a ring of another size. -/
def sampleMoves : List Move :=
  [.serve 1 (.add (callFor "TXN-A").toAddCall), .boot 2 1 sampleEnviron otherSecrets]

def sampleFirst : CommitmentStore CassandraLedger :=
  let keys := sampleSecrets.keys samplePlatform
  .new (calls samplePlatform) (some (.empty healthy)) 3 keys.keypair keys.masterKey keys.signingKey

theorem started_sampleFirst :
    (KeyRing.empty.initStore samplePlatform sampleEnviron otherSecrets (calls samplePlatform)
      (some (.empty healthy)) 3).1 = .ok sampleFirst :=
  (initStore_of_sourced (holds_empty (sampleSecrets.keys samplePlatform)) sourced_sampleEnviron otherSecrets
    (calls samplePlatform) (some (.empty healthy)) 3).1

theorem amounts_sampleMoves :
    (Machine.run (live samplePlatform) ⟨⟨sampleFirst, []⟩, []⟩ sampleMoves).2.amounts =
      [(PyStr.ofString "TXN-A", 150000)] := by
  have head : IsDigest (inEnvironment (steady 1) sampleFirst).head := isDigest_genesis
  rcases add_wellFormed samplePlatform _ (calls samplePlatform)
    (wellFormed_callFor (⟨_, rfl⟩ : ∃ bytes, PyStr.utf8 (PyStr.ofString "TXN-A") = some bytes))
    (rfl : Sample.latticeSeed.length = Lwe.SEED_LEN) rfl head with ⟨record, -, added⟩
  rw [sampleMoves, Machine.run_cons, Machine.run_cons, Machine.run_nil]
  exact (amounts_boot _ _ _ _ _).trans (amounts_add rfl added)

theorem audits_survive_restarts_sample :
    let life := (Machine.run (live samplePlatform) ⟨⟨sampleFirst, []⟩, []⟩ sampleMoves).2
    ∃ keys publicKey, sampleFirst.publicKeys samplePlatform = .ok keys ∧
      Audits samplePlatform keys publicKey (inEnvironment (steady 3) life.audited.store) (PyStr.ofString "TXN-A")
        150000 := by
  have minted : ∀ move ∈ sampleMoves, move.Minted sampleSecrets := by
    intro move member
    simp only [sampleMoves, List.mem_cons, List.not_mem_nil, or_false] at member
    rcases member with rfl | rfl
    · have reason : PyStr.ofString "NONE" ≠ [] := by decide
      exact ⟨⟨_, rfl⟩, _, rfl, reason⟩
    · exact sourced_sampleEnviron
  have available : (CassandraLedger.empty healthy).available = true := rfl
  rcases audits_survive_restarts sourced_sampleEnviron available (fun _ found => by cases found)
    started_sampleFirst minted with ⟨keys, publicKey, published, -, -, audits⟩
  refine ⟨keys, publicKey, published, audits _ _ ?_ 3⟩
  rw [amounts_sampleMoves]
  rfl

end Cassandra
end ZeroAudit
