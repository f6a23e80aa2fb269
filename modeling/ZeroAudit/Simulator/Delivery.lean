import ZeroAudit.Chain.Polling
import ZeroAudit.Intent.Velocity
import ZeroAudit.Screening.Screened
import ZeroAudit.Simulator.Emissions

namespace ZeroAudit
namespace Simulator

open Foundation Signature Commitment Consumer Intent Screening

/-!
# From the bank to the ledger

Whatever the bank emits comes to a call of the engine that goes through, and from there to
a call of the ledger that it accepts.  So every transaction of the bank is committed, once
and in the order of the topic, whatever the engine's network says and the graph answers,
and whatever else the prover has handled before.
-/

variable {P : Platform} {R : Runtime}

/-! ## The calls of a body -/

/-- The call of the engine for a body. -/
def Body.scoreCall (P : Platform) (body : Body) : ScoreCall where
  txnId := Json.text body.id
  accountHash := accountHash P body.account
  counterpartyHash := accountHash P body.counterparty
  amountCents := body.amountCents
  txnType := Json.text body.txnType
  timestampNs := body.timestampNs

theorem encode_text (text : String) : (Json.text text).encode = .ok (text.toList.flatMap String.utf8EncodeChar) :=
  Json.encode_str (PyStr.utf8_map_scalar _)

theorem truthy_text {text : String} (nonempty : text ≠ "") : (Json.text text).truthy = true := by
  have own : PyStr.ofString text ≠ PyStr.ofString "" := fun same => nonempty ((PyStr.ofString_inj ..).mp same)
  rw [Json.text, Json.truthy_str]
  exact decide_eq_true own

theorem effectiveId_of_carries {message : Dict} {body : Body} (carries : Carries message body) :
    effectiveId message = Json.text body.id := by
  unfold effectiveId
  rw [Dict.get_of_find carries.id, Json.orElse_of_truthy (truthy_text body.id_ne)]

theorem extract_of_carries {message : Dict} {body : Body} (carries : Carries message body) (arrivalNs : Int) :
    extract P message arrivalNs =
      .ok ⟨body.amountCents, Json.text body.account, Json.text body.counterparty, Json.text body.txnType,
        body.timestampNs⟩ := by
  have zero : P.float (.int 0) = .ok (.finite ((0 : Int) : ℚ)) := by
    rw [Platform.float, PyFloat.ofInt, if_pos (by decide +kernel)]
  unfold extract
  simp [Dict.get, carries.amount, carries.amountCents, carries.account, carries.counterparty, carries.txnType,
    carries.timestampNs, zero, Platform.int, bind, Except.bind, pure, Except.pure]

/-- A message of the bank comes to the call of its body. -/
theorem scoreCall_of_emitted {settings : Settings} {message : Message} {fields : Dict} {body : Body}
    (value : message.value = .obj fields) (emitted : Emitted P fields body) :
    scoreCall P settings message = some (body.scoreCall P) := by
  unfold scoreCall
  simp only [value, Json.asDict, emitted.passes, extract_of_carries emitted.carries, encode_text,
    effectiveId_of_carries emitted.carries]
  rfl

/-! ## The engine -/

/-- The network, where there is one, answers every vector. -/
def Answers (session : Option (List ℚ -> Except PyError PyFloat)) : Prop :=
  ∀ own, session = some own -> ∀ vector, ∃ reconError, own vector = .ok reconError

theorem novelty_of_answers {detector : AnomalyDetector} (answers : Answers detector.session) (features : Features) :
    ∃ novelty, detector.novelty R features = .ok novelty := by
  unfold AnomalyDetector.novelty
  cases session : detector.session with
  | none => exact ⟨_, rfl⟩
  | some own =>
      rcases answers own session features.toVector with ⟨reconError, answered⟩
      dsimp only
      rw [answered]
      exact ⟨_, rfl⟩

theorem seconds_of_body (body : Body) : seconds body.timestampNs = .ok (body.timestampNs / 10 ^ 9) := by
  have dated := body.dated
  refine (VelocityTracker.seconds_eq_ok_iff _ _).mpr ⟨?_, rfl⟩
  have small : body.timestampNs.natAbs ≤ 253402300799 * 10 ^ 9 := by omega
  exact small.trans_lt (by decide +kernel)

/-- The time that the windows enter is that of the body. -/
theorem entry_of_body (outside : Surroundings) (body : Body) :
    seconds (if (body.scoreCall P).timestampNs = 0 then outside.nowNs else (body.scoreCall P).timestampNs) =
      .ok (body.timestampNs / 10 ^ 9) := by
  have dated := body.dated
  have nonzero : (body.scoreCall P).timestampNs ≠ 0 := by
    change body.timestampNs ≠ 0
    omega
  rw [if_neg nonzero]
  exact seconds_of_body body

/-- The time of a body is a date. -/
theorem date_of_body (body : Body) : ∃ date, dateOf (body.scoreCall P) = .ok date := by
  have dated := body.dated
  have least : Binary64.roundHalfEven ((86400 * 10 ^ 6 : Int) : ℚ) ≤
      Binary64.roundHalfEven ((body.timestampNs : ℚ) / 10 ^ 9 * 10 ^ 6) := by
    apply Binary64.roundHalfEven_mono
    have own : (86400 * 10 ^ 9 : ℚ) ≤ body.timestampNs := by exact_mod_cast dated.1
    push_cast
    linarith
  have most : Binary64.roundHalfEven ((body.timestampNs : ℚ) / 10 ^ 9 * 10 ^ 6) ≤
      Binary64.roundHalfEven ((253402300799 * 10 ^ 6 : Int) : ℚ) := by
    apply Binary64.roundHalfEven_mono
    have own : (body.timestampNs : ℚ) ≤ 253402300799 * 10 ^ 9 := by exact_mod_cast dated.2
    push_cast
    linarith
  rw [Binary64.roundHalfEven_intCast] at least most
  unfold dateOf
  rw [show (body.scoreCall P).timestampNs = body.timestampNs from rfl, seconds_of_body]
  dsimp only [bind, Except.bind]
  unfold fromTimestamp
  rw [if_pos (by omega)]
  exact ⟨_, rfl⟩

/-- Every body has features, whatever the graph says. -/
theorem extractFeatures_of_body (graph : SanctionsGraphClient) (velocity : VelocityTracker) (outside : Surroundings)
    (body : Body) :
    ∃ features, (extractFeatures P R graph velocity outside (body.scoreCall P)).1 = .ok features := by
  have amount : ∃ own, PyFloat.ofInt (max (body.scoreCall P).amountCents 0) = .ok own := by
    have domain := body.domain
    have small : (max body.amountCents 0).natAbs < 2 ^ 64 := by
      rw [Lwe.AMOUNT_BITS] at domain
      omega
    refine ⟨_, if_pos (small.trans ?_)⟩
    decide +kernel
  have counted : ∃ recent, velocity.count1h (body.scoreCall P).accountHash (body.scoreCall P).timestampNs outside.now =
      .ok recent := by
    unfold VelocityTracker.count1h
    split
    · exact ⟨_, rfl⟩
    · rw [show (body.scoreCall P).timestampNs = body.timestampNs from rfl, seconds_of_body]
      exact ⟨_, rfl⟩
  rcases date_of_body (P := P) body with ⟨date, dated⟩
  rcases amount with ⟨own, converted⟩
  rcases counted with ⟨recent, counted⟩
  unfold dateOf at dated
  unfold extractFeatures
  simp only [dated]
  rw [counted, converted]
  exact ⟨_, rfl⟩

/-- The engine scores every body, and keeps its network. -/
theorem score_of_body {detector : AnomalyDetector} (answers : Answers detector.session) (outside : Surroundings)
    (body : Body) :
    ∃ verdict after, detector.score P R outside (body.scoreCall P) = (.ok verdict, after) ∧
      after.session = detector.session := by
  rcases (detector.recorded_ok_iff outside (body.scoreCall P)).mpr ⟨_, entry_of_body outside body⟩ with
    ⟨entered, recorded⟩
  have session : entered.session = detector.session := by
    rcases bind_eq_ok_iff.mp recorded with ⟨velocity, -, same⟩
    cases same
    rfl
  rcases extracted : extractFeatures P R entered.graph entered.velocity outside (body.scoreCall P) with
    ⟨error | ⟨features, graphFlag⟩, graph⟩
  · rcases extractFeatures_of_body (P := P) (R := R) entered.graph entered.velocity outside body with ⟨_, own⟩
    rw [extracted] at own
    cases own
  · have network : Answers ({ entered with graph } : AnomalyDetector).session := by
      rw [show ({ entered with graph } : AnomalyDetector).session = detector.session from session]
      exact answers
    rcases novelty_of_answers (R := R) network features with ⟨⟨noveltyScore, reconError⟩, novel⟩
    unfold AnomalyDetector.score
    rw [recorded]
    dsimp only
    rw [extracted]
    dsimp only
    rw [novel]
    exact ⟨_, _, rfl, session⟩

/-! ## The ledger -/

section Loop

variable {L K : Type} {ledgerCalls : LedgerCalls L} {producerCalls : ProducerCalls K} {settings : Settings}

/-- The extraction of a body. -/
def Body.extracted (body : Body) : Extracted :=
  ⟨body.amountCents, Json.text body.account, Json.text body.counterparty, Json.text body.txnType, body.timestampNs⟩

/-- With or without an engine, a body comes to scores. -/
theorem score_of_extracted {detector : Option AnomalyDetector}
    (answers : ∀ own, detector = some own -> Answers own.session) (outside : Surroundings) (body : Body) :
    ∃ scores after, Consumer.score P (engineCalls P R outside) detector (Json.text body.id) body.extracted =
        (.ok scores, after) ∧
      ∀ own, after = some own -> Answers own.session := by
  cases detector with
  | none => exact ⟨_, none, rfl, fun own same => by cases same⟩
  | some detector =>
      rcases score_of_body (P := P) (R := R) (answers detector rfl) outside body with ⟨verdict, after, scored, session⟩
      have engine : (engineCalls P R outside).score detector (body.scoreCall P) = (.ok verdict.forConsumer, after) := by
        unfold engineCalls
        dsimp only
        rw [scored]
      have scores : ∃ scores, Consumer.score P (engineCalls P R outside) (some detector) (Json.text body.id)
          body.extracted = (.ok scores, some after) := by
        unfold Body.scoreCall accountHash at engine
        unfold Consumer.score
        simp only [Body.extracted, encode_text, bind, Except.bind, pure, Except.pure, engine]
        exact ⟨_, rfl⟩
      rcases scores with ⟨scores, own⟩
      refine ⟨scores, some after, own, ?_⟩
      rintro _ ⟨⟩
      rw [session]
      exact answers detector rfl

/-- A prover that can commit: its keys are generated, its head is a digest, and the network of
its engine answers. -/
structure Ready (P : Platform) (seed : Bytes) (consumer : ProverConsumer L AnomalyDetector K) : Prop where
  keypair : consumer.store.keypair = Lwe.LWEKeyPair.generate P seed
  head : IsDigest consumer.store.head
  answers : ∀ own, consumer.detector = some own -> Answers own.session

/-- The answer to a message: a record of this body was committed. -/
def Committed (answer : Option (AddCall × CommitmentRecord)) (body : Body) : Prop :=
  ∃ call record, answer = some (call, record) ∧ record.txnId = Json.text body.id ∧
    call.txnId = Json.text body.id ∧ call.accountId = Json.text body.account ∧ call.amountCents = body.amountCents

/-- One more message is processed, and nothing else is counted against it. -/
structure Counted (before after : Stats) (messages : Nat) : Prop where
  processed : after.processed = before.processed + messages
  errors : after.errors = before.errors
  signatureFailures : after.signatureFailures = before.signatureFailures

variable (ledgerCalls producerCalls settings)

/-- A message of the bank is committed and counted, and the prover is ready for the next. -/
theorem ingest_of_emitted {seed : Bytes} (seedLength : seed.length = Lwe.SEED_LEN)
    {consumer : ProverConsumer L AnomalyDetector K} (ready : Ready P seed consumer)
    {input : Surroundings × Message} {fields : Dict} {body : Body} (value : input.2.value = .obj fields)
    (emitted : Emitted P fields body) :
    let ingested := ingest P R ledgerCalls producerCalls settings consumer input
    Committed ingested.1 body ∧ Ready P seed ingested.2 ∧ Counted consumer.stats ingested.2.stats 1 := by
  rcases score_of_extracted (P := P) (R := R) ready.answers input.1 body with ⟨scores, after, scored, answers⟩
  let call := ProverConsumer.addCall settings (Json.text body.id) body.extracted scores input.2.commitNs
  have floats : Regular call := regular_addCall ..
  have wellFormed : WellFormed (TypedCall.mk call floats).toAddCall (PyStr.ofString body.id) :=
    ⟨rfl, ⟨_, PyStr.utf8_map_scalar _⟩, ⟨_, encode_text _⟩, body.domain, floats⟩
  have extracts : extract P fields input.2.arrivalNs = .ok body.extracted := extract_of_carries emitted.carries _
  have requested : request P (engineCalls P R input.1) settings consumer.detector input.2 =
      (some (call, scores), after) := by
    unfold request
    simp only [value, Json.asDict, emitted.passes, extracts, effectiveId_of_carries emitted.carries, scored, call]
  rcases add_wellFormed P consumer.store ledgerCalls wellFormed seedLength ready.keypair ready.head with
    ⟨record, appends, added⟩
  dsimp only at added
  have own : committed P ledgerCalls (engineCalls P R input.1) settings consumer input.2 = some (call, record) := by
    unfold committed
    rw [requested]
    simp only [added]
  have kept := keys_process P ledgerCalls (engineCalls P R input.1) producerCalls settings consumer input.2
  have engine := detector_process P ledgerCalls (engineCalls P R input.1) producerCalls settings consumer input.2
  have named : (Dict.get fields "txn_id" .null).orElse (Dict.get fields "transaction_id" (Json.text "unknown")) =
      Json.text body.id :=
    effectiveId_of_carries emitted.carries
  have processed := process_of_ok P ledgerCalls (engineCalls P R input.1) producerCalls settings consumer value named
    (emitted.passes _) extracts scored added
  unfold Intent.ingest
  dsimp only
  refine ⟨⟨call, record, own, appends.txnId, rfl, rfl, rfl⟩, ⟨kept.1.trans ready.keypair, kept.2 ready.head, ?_⟩, ?_⟩
  · rw [engine, requested]
    exact answers
  · have announced := ProverConsumer.sameCounts_announce producerCalls settings
      { consumer with detector := after, store := (consumer.store.advanced record).persist ledgerCalls record }
      record scores
    rw [processed]
    exact ⟨congrArg (· + 1) announced.1, announced.2.2, announced.2.1⟩

/-- The topic delivers a message of the bank. -/
def Delivers (P : Platform) (input : Surroundings × Message) (body : Body) : Prop :=
  ∃ fields, input.2.value = .obj fields ∧ Emitted P fields body

/-- Where the messages come as they were sent, each holds its body. -/
theorem delivers_of_sent {messages : List Dict} {bodies : List Body}
    (emitted : List.Forall₂ (Emitted P) messages bodies)
    {inputs : List (Surroundings × Message)}
    (delivered : inputs.map (fun input => input.2.value) = messages.map Json.obj) :
    List.Forall₂ (Delivers P) inputs bodies := by
  induction emitted generalizing inputs with
  | nil =>
      rw [List.map_nil, List.map_eq_nil_iff] at delivered
      rw [delivered]
      exact .nil
  | cons first rest inductionHypothesis =>
      cases inputs with
      | nil => cases delivered
      | cons input inputs =>
          rw [List.map_cons, List.map_cons, List.cons.injEq] at delivered
          exact .cons ⟨_, delivered.1, first⟩ (inductionHypothesis delivered.2)

/-- The state after so many messages of the bank. -/
structure Handled (P : Platform) (seed : Bytes) (before : Stats) (messages : Nat)
    (consumer : ProverConsumer L AnomalyDetector K) : Prop where
  ready : Ready P seed consumer
  counted : Counted before consumer.stats messages

theorem handled_ingest {seed : Bytes} (seedLength : seed.length = Lwe.SEED_LEN) {before : Stats} {messages : Nat}
    {consumer : ProverConsumer L AnomalyDetector K} (handled : Handled P seed before messages consumer)
    {input : Surroundings × Message} {body : Body} (delivers : Delivers P input body) :
    Committed (ingest P R ledgerCalls producerCalls settings consumer input).1 body ∧
      Handled P seed before (messages + 1) (ingest P R ledgerCalls producerCalls settings consumer input).2 := by
  rcases delivers with ⟨fields, value, emitted⟩
  rcases ingest_of_emitted (R := R) ledgerCalls producerCalls settings seedLength handled.ready value emitted with
    ⟨committed, ready, counted⟩
  refine ⟨committed, ready, ?_, ?_, ?_⟩
  · rw [counted.processed, handled.counted.processed, Nat.add_assoc]
  · rw [counted.errors, handled.counted.errors]
  · rw [counted.signatureFailures, handled.counted.signatureFailures]

variable {ledgerCalls producerCalls settings}

/-- The bank raises only what `send` raises.  It performs its rounds up to the total, or until
that.  Every transaction that it has sent, those of a burst among them, is committed once and
in order by any prover that reads them, which counts each of them and no error. -/
theorem bank_committed {S : Type} (P : Platform) (R : Runtime) (ledgerCalls : LedgerCalls L)
    (producerCalls : ProducerCalls K) (settings : Settings) (send : S -> Dict -> Except PyError Unit × S)
    (producer : S) (key : SigningKey) (total : Option Nat) (rounds : List Round) :
    ∃ answer after emitted,
      BankSimulator.run P send total ⟨some key, producer, 0, 0, []⟩ rounds = (answer, after) ∧
      emitted <+: rounds.flatMap Round.bodies ∧ after.count = emitted.length ∧
      (∀ error, answer = .error error -> ∃ producer txn, (send producer txn).1 = .error error) ∧
      (answer = .ok () -> ∃ performed, performed <+: rounds ∧ emitted = performed.flatMap Round.bodies ∧
        (performed = rounds ∨ ∃ enough, total = some enough ∧ enough ≤ after.count)) ∧
      ∀ (seed : Bytes) (consumer : ProverConsumer L AnomalyDetector K) (inputs : List (Surroundings × Message)),
        seed.length = Lwe.SEED_LEN -> Ready P seed consumer ->
        inputs.map (fun input => input.2.value) = after.sent.map Json.obj ->
        List.Forall₂ Committed (Machine.run (ingest P R ledgerCalls producerCalls settings) consumer inputs).1 emitted ∧
          Counted consumer.stats
            (Machine.run (ingest P R ledgerCalls producerCalls settings) consumer inputs).2.stats after.count := by
  have signing : (⟨some key, producer, 0, 0, []⟩ : BankSimulator S).key = some key := rfl
  rcases BankSimulator.run_spec P send signing total rounds with ⟨performed, part, emits, ended⟩
  rcases emits.extended with ⟨emitted, extended, first, whole⟩
  have count := extended.count.trans (Nat.zero_add _)
  refine ⟨_, _, emitted, rfl, first.trans (part.flatMap Round.bodies), count, emits.raised, ?_, ?_⟩
  · intro ok
    exact ⟨performed, part, whole ok, ended ok⟩
  · intro seed consumer inputs seedLength ready delivered
    rcases extended.sent with ⟨messages, sent, each⟩
    rw [sent, List.nil_append] at delivered
    have start : Handled P seed consumer.stats 0 consumer := ⟨ready, rfl, rfl, rfl⟩
    have keeps : ∀ messages state input body, Handled P seed consumer.stats messages state ->
        Delivers P input body ->
          Committed (ingest P R ledgerCalls producerCalls settings state input).1 body ∧
            Handled P seed consumer.stats (messages + 1)
              (ingest P R ledgerCalls producerCalls settings state input).2 :=
      fun _ _ _ _ handled delivers => handled_ingest ledgerCalls producerCalls settings seedLength handled delivers
    have run := Machine.forall₂_run keeps (delivers_of_sent each delivered) start
    rw [Nat.zero_add] at run
    rw [count]
    exact ⟨run.1, run.2.counted⟩

end Loop

/-! ## A small day -/

def sampleReading : Reading := ⟨1700000000, by norm_num, by norm_num⟩

def sampleDraw : NormalDraw where
  txnType := "RTGS"
  txnType_mem := by decide
  account := "ACC-1000"
  account_mem := by decide +kernel
  counterparty := "ACC-1001"
  counterparty_mem := by decide +kernel
  uuid := "0123456789abcdef0123456789abcdef"
  amount := 150000000
  currency := "INR"
  currency_mem := by decide
  now := sampleReading
  hour := 10
  day := 0
  within := 0
  within_nonneg := le_rfl
  within_le := by norm_num
  channel := "web"
  deviceOs := "iOS"
  city := "Mumbai"

def sampleBurst : Burst := ⟨List.replicate 12 ⟨sampleDraw, "0123456789abcdef", sampleReading⟩, by decide⟩

/-- A normal transaction, an amount below a threshold, and a burst. -/
def sampleRounds : List Round :=
  [.normal sampleDraw,
    .anomalous sampleDraw "fedcba9876543210" (.structuring 100000000 100 (by decide) (by decide)) sampleBurst,
    .anomalous sampleDraw "fedcba9876543210" (.velocityBurst 0) sampleBurst]

/-- The prover on the sample store, whose engine has no graph. -/
def deliveryConsumer : ProverConsumer Unit AnomalyDetector Unit :=
  .new sampleStore (some Intent.sampleDetector) ()

theorem ready_deliveryConsumer : Ready samplePlatform Sample.latticeSeed deliveryConsumer where
  keypair := rfl
  head := head_sampleStore ▸ isDigest_genesis
  answers := by
    rintro _ ⟨⟩ own ⟨⟩ vector
    exact ⟨_, rfl⟩

/-- The messages as the topic delivers them. -/
def deliveries (outside : Surroundings) (sent : List Dict) : List (Surroundings × Message) :=
  sent.map fun txn => (outside, ⟨.obj txn, 1, 1, .zero⟩)

theorem value_deliveries (outside : Surroundings) (sent : List Dict) :
    (deliveries outside sent).map (fun input => input.2.value) = sent.map Json.obj := by
  unfold deliveries
  rw [List.map_map]
  rfl

/-- A producer that takes and counts every message. -/
def takeAndCount (taken : Nat) (_ : Dict) : Except PyError Unit × Nat := (.ok (), taken + 1)

/-- A simulator whose producer takes every message performs all its rounds. -/
theorem run_takeAndCount {P : Platform} {simulator : BankSimulator Nat} {rounds : List Round}
    {answer : Except PyError Unit} {after : BankSimulator Nat}
    (ran : simulator.run P takeAndCount none rounds = (answer, after))
    (raised : ∀ error, answer = .error error -> ∃ producer txn, (takeAndCount producer txn).1 = .error error) :
    simulator.run P takeAndCount none rounds = (.ok (), after) := by
  rw [ran]
  cases answer with
  | ok => rfl
  | error error =>
      rcases raised error rfl with ⟨_, _, same⟩
      cases same

theorem bank_committed_sample :
    ∃ after, BankSimulator.run samplePlatform takeAndCount none ⟨some sampleBankKey, 0, 0, 0, []⟩ sampleRounds =
        (.ok (), after) ∧
      let handled := Machine.run (ingest samplePlatform sampleRuntime sampleCalls sampleProducer sampleSettings)
        deliveryConsumer (deliveries Intent.sampleSurroundings after.sent)
      List.Forall₂ Committed handled.1 (sampleRounds.flatMap Round.bodies) ∧ handled.2.stats.processed = 15 ∧
        handled.2.stats.errors = 0 := by
  rcases bank_committed (L := Unit) (K := Unit) samplePlatform sampleRuntime sampleCalls sampleProducer sampleSettings
    takeAndCount 0 sampleBankKey none sampleRounds with
    ⟨answer, after, emitted, ran, -, count, raised, whole, committed⟩
  have ok := run_takeAndCount ran raised
  rcases committed _ _ _ rfl ready_deliveryConsumer (value_deliveries Intent.sampleSurroundings after.sent) with
    ⟨all, counted⟩
  rcases whole (congrArg Prod.fst (ran.symm.trans ok)) with ⟨performed, -, rfl, whole | ⟨_, ⟨⟩, _⟩⟩
  rw [whole] at all count
  exact ⟨after, ok, all, by rw [counted.processed, count]; rfl, counted.errors⟩

end Simulator
end ZeroAudit
