import ZeroAudit.SamplePlatform
import ZeroAudit.Verifier.Dashboard
import ZeroAudit.Verifier.Envelope

namespace ZeroAudit
namespace Api

open Foundation Verify Kafka

/-!
# What the verifier holds and serves

The assertion that no amount leaves the prover is made in two places.  The
consumer tests `pii_bytes` before it keeps a record.  The field names are
tested by the verifier, after the record is kept and only on the committed
topic.  A record with a forbidden field and a zero `pii_bytes` is therefore
kept and served like any other.
-/

variable (P : Platform)

/-- A zero `pii_bytes`, and no amount-bearing field. -/
structure Clean (record : Dict) : Prop where
  zero : (Dict.get record "pii_bytes" (.int 0)).eqInt 0 = true
  free : ∀ field ∈ FORBIDDEN_FIELDS, Dict.has record field = false

/-- This is what the last check of the verifier asks for. -/
theorem clean_iff_checkPii (record : Dict) : Clean record ↔ (checkPii P record).status = .pass := by
  have status : (checkPii P record).status =
      if (Dict.get record "pii_bytes" (.int 0)).eqInt 0 &&
        (FORBIDDEN_FIELDS.filter fun field => Dict.has record field).isEmpty then .pass else .fail := rfl
  rw [status]
  constructor
  · intro clean
    have none : (FORBIDDEN_FIELDS.filter fun field => Dict.has record field) = [] := by
      rw [List.filter_eq_nil_iff]
      intro field member
      simp [clean.free field member]
    rw [clean.zero, none]
    rfl
  · intro passed
    split at passed
    · rename_i both
      simp only [Bool.and_eq_true, List.isEmpty_iff, List.filter_eq_nil_iff] at both
      exact ⟨both.1, fun field member => by simpa using both.2 field member⟩
    · cases passed

/-- A record that is verified is clean, so that keeping only verified records
would do. -/
theorem clean_of_verified {verifier later : ExternalVerifier} {record : Dict} {report : Report}
    (ran : verifyEnvelope P verifier record = (.ok report, later)) (positive : report.verified = true) :
    Clean record := by
  rcases verifyEnvelope_report P ran with ⟨_, _, _, _, -, -, -, -, -, verdict⟩
  exact (clean_iff_checkPii P record).mpr (verdict.mp positive).2.2.2.2

/-- Annotations are not among the fields that matter. -/
theorem clean_set {record : Dict} (clean : Clean record) {key : String} (notZero : key ≠ "pii_bytes")
    (allowed : key ∉ FORBIDDEN_FIELDS) (value : Json) : Clean (Dict.set record key value) where
  zero := by
    rw [Dict.get, Dict.find_set, if_neg notZero]
    exact clean.zero
  free := by
    intro field member
    rw [Dict.has_set_of_ne record (by rintro rfl; exact allowed member)]
    exact clean.free field member

theorem zero_of_admits {value : Json} {record : Dict} (admitted : admits P value = some record) :
    (Dict.get record "pii_bytes" (.int 0)).eqInt 0 = true := by
  unfold admits at admitted
  split at admitted
  · split at admitted
    · rename_i gate
      cases admitted
      exact (Bool.and_eq_true_iff.mp gate).1
    · cases admitted
  · cases admitted

/-- The record that a delivery runs through external verification.  Startup
installs a callback for the committed topic only. -/
def examines (delivery : Delivery) : Option Dict :=
  match delivery.topic with
  | .committed => admits P delivery.record
  | .anomalies => none

theorem verifier_recordVerification (reports : Reports) (record : Dict) :
    (recordVerification P reports record).2.verifier = (verifyEnvelope P reports.verifier record).2 := by
  unfold recordVerification
  rcases verifyEnvelope P reports.verifier record with ⟨error | report, verifier⟩
  · rfl
  · dsimp only
    split <;> rfl

namespace Dashboard

/-- The reports move by the record that a delivery examines, and by no other. -/
theorem reports_deliver {board : Dashboard} (up : board.consumer.isSome = true) (delivery : Delivery) :
    (board.deliver P delivery).reports = match examines P delivery with
      | some record => (recordVerification P board.reports record).2
      | none => board.reports := by
  rcases Option.isSome_iff_exists.mp up with ⟨consumer, own⟩
  have handed := consumer.world_process P (callbacks P) board.reports delivery
  unfold deliver examines
  simp only [own, handed]
  cases delivery.topic with
  | committed => rfl
  | anomalies => cases admits P delivery.record <;> rfl

/-! ## The buffers -/

/-- The records a topic's buffer holds. -/
def held (board : Dashboard) (topic : Consumer.Topic) : List Dict :=
  match board.consumer with
  | some consumer => (consumer.buffer topic).items
  | none => []

/-- The service is up and holds nothing but clean records. -/
def HoldsClean (board : Dashboard) : Prop :=
  board.consumer.isSome = true ∧ ∀ topic, ∀ record ∈ board.held topic, Clean record

theorem holdsClean_iff {board : Dashboard} {consumer : VerifierKafkaConsumer BUFFER_SIZE}
    (own : board.consumer = some consumer) :
    board.HoldsClean ↔ ∀ topic, ∀ record ∈ (consumer.buffer topic).items, Clean record := by
  unfold HoldsClean held
  rw [own]
  simp

/-- The records that leave the service: through the two accessors of the
consumer, which the export and the live feed read, through the two annotated
lists, and as the record of one transaction. -/
inductive Serves (board : Dashboard) (record : Dict) : Prop where
  | committed (n : Int) (member : record ∈ board.committed n)
  | recentAnomalies (n : Int) (member : record ∈ board.recentAnomalies n)
  | transactions (n : Int) (records : List Dict) (answered : (board.transactions n).1 = .ok records)
      (member : record ∈ records)
  | anomalies (n : Int) (records : List Dict) (answered : (board.anomalies n).1 = .ok records)
      (member : record ∈ records)
  | detail (txnId : PyStr) (found : board.find txnId = some record)

/-- Everything the service returns is clean. -/
def ServesClean (board : Dashboard) : Prop := ∀ record, board.Serves record -> Clean record

theorem mem_held_of_committed {board : Dashboard} {n : Int} {record : Dict}
    (member : record ∈ board.committed n) : record ∈ board.held .committed := by
  unfold committed at member
  unfold held
  cases own : board.consumer with
  | none =>
      rw [own] at member
      cases member
  | some consumer =>
      rw [own] at member
      exact RingBuffer.mem_of_mem_snapshot _ member

theorem mem_held_of_recentAnomalies {board : Dashboard} {n : Int} {record : Dict}
    (member : record ∈ board.recentAnomalies n) : record ∈ board.held .anomalies := by
  unfold recentAnomalies at member
  unfold held
  cases own : board.consumer with
  | none =>
      rw [own] at member
      cases member
  | some consumer =>
      rw [own] at member
      exact RingBuffer.mem_of_mem_snapshot _ member

/-- Asking for zero records returns all that are held. -/
theorem serves_held {board : Dashboard} {topic : Consumer.Topic} {record : Dict}
    (member : record ∈ board.held topic) : board.Serves record := by
  have all : board.held .committed = board.committed 0 ∧
      board.held .anomalies = board.recentAnomalies 0 := by
    unfold held committed recentAnomalies
    cases board.consumer with
    | none => exact ⟨rfl, rfl⟩
    | some consumer => exact ⟨rfl, rfl⟩
  cases topic with
  | committed => exact .committed 0 (all.1 ▸ member)
  | anomalies => exact .recentAnomalies 0 (all.2 ▸ member)

/-- The record found for a transaction is a committed one. -/
theorem mem_committed_of_find {board : Dashboard} {txnId : PyStr} {record : Dict}
    (found : board.find txnId = some record) : record ∈ board.committed 500 :=
  List.mem_reverse.mp (List.mem_of_find?_eq_some found)

/-- An action that brings no record with a forbidden field past the gate. -/
def BringsClean : Action -> Prop
  | .deliver delivery => ∀ record, admits P delivery.record = some record ->
      ∀ field ∈ FORBIDDEN_FIELDS, Dict.has record field = false
  | _ => True

/-- A delivery keeps the buffers clean exactly if it brings a clean record. -/
theorem holdsClean_deliver_iff {board : Dashboard} (before : board.HoldsClean) (delivery : Delivery) :
    (board.deliver P delivery).HoldsClean ↔ BringsClean P (.deliver delivery) := by
  rcases Option.isSome_iff_exists.mp before.1 with ⟨consumer, own⟩
  have holds := (holdsClean_iff own).mp before
  have after : (board.deliver P delivery).consumer =
      some (consumer.process P (callbacks P) board.reports delivery).1 := by
    unfold deliver
    rw [own]
  rw [holdsClean_iff after]
  simp only [VerifierKafkaConsumer.buffer_process, BringsClean]
  cases admitted : admits P delivery.record with
  | none =>
      constructor
      · intro _ record none
        cases none
      · intro _
        exact holds
  | some record =>
      have pushed := RingBuffer.forall_push_iff (consumer.buffer delivery.topic) (by decide)
        (holds delivery.topic) record
      dsimp only
      constructor
      · intro still other same
        cases same
        have there := still delivery.topic
        rw [if_pos rfl] at there
        exact (pushed.mp there).free
      · intro free topic
        by_cases same : topic = delivery.topic
        · subst topic
          rw [if_pos rfl]
          exact pushed.mpr ⟨zero_of_admits P admitted, free record rfl⟩
        · rw [if_neg same]
          exact holds topic

/-! ## The views -/

theorem clean_stampVerdict (board : Dashboard) {record updated : Dict}
    (stamps : board.stampVerdict record = .ok updated) (clean : Clean record) : Clean updated := by
  rcases bind_eq_ok_iff.mp stamps with ⟨report, -, same⟩
  cases same
  exact clean_set clean (by decide) (by decide) _

theorem clean_stampResolution (board : Dashboard) {record updated : Dict}
    (stamps : board.stampResolution record = .ok updated) (clean : Clean record) : Clean updated := by
  rcases bind_eq_ok_iff.mp stamps with ⟨resolution, -, same⟩
  cases same
  exact clean_set clean (by decide) (by decide) _

/-- The state after a view differs in one buffer. -/
theorem transactions_snd {board : Dashboard} {consumer : VerifierKafkaConsumer BUFFER_SIZE}
    (own : board.consumer = some consumer) (n : Int) :
    (board.transactions n).2 = { board with
      consumer := some { consumer with
        committedBuffer := (consumer.committedBuffer.revise n board.stampVerdict).2 } } := by
  unfold transactions
  rw [own]

theorem anomalies_snd {board : Dashboard} {consumer : VerifierKafkaConsumer BUFFER_SIZE}
    (own : board.consumer = some consumer) (n : Int) :
    (board.anomalies n).2 = { board with
      consumer := some { consumer with
        anomalyBuffer := (consumer.anomalyBuffer.revise n board.stampResolution).2 } } := by
  unfold anomalies
  rw [own]

theorem holdsClean_transactions {board : Dashboard} (before : board.HoldsClean) (n : Int) :
    (board.transactions n).2.HoldsClean := by
  rcases Option.isSome_iff_exists.mp before.1 with ⟨consumer, own⟩
  have holds := (holdsClean_iff own).mp before
  rw [transactions_snd own, holdsClean_iff rfl]
  intro topic
  cases topic with
  | committed =>
      exact RingBuffer.forall_revise consumer.committedBuffer
        (fun record updated => board.clean_stampVerdict) n (holds .committed)
  | anomalies => exact holds .anomalies

theorem holdsClean_anomalies {board : Dashboard} (before : board.HoldsClean) (n : Int) :
    (board.anomalies n).2.HoldsClean := by
  rcases Option.isSome_iff_exists.mp before.1 with ⟨consumer, own⟩
  have holds := (holdsClean_iff own).mp before
  rw [anomalies_snd own, holdsClean_iff rfl]
  intro topic
  cases topic with
  | committed => exact holds .committed
  | anomalies =>
      exact RingBuffer.forall_revise consumer.anomalyBuffer
        (fun record updated => board.clean_stampResolution) n (holds .anomalies)

/-- A list that is returned is read off the state after it was annotated. -/
theorem transactions_ok {board : Dashboard} {n : Int} {records : List Dict}
    (answered : (board.transactions n).1 = .ok records) :
    records = (board.transactions n).2.committed n := by
  unfold transactions at answered ⊢
  cases own : board.consumer with
  | none =>
      simp only [own] at answered ⊢
      cases answered
      rw [committed, own]
  | some consumer =>
      simp only [own] at answered ⊢
      split at answered
      · cases answered
      · cases answered
        rfl

theorem anomalies_ok {board : Dashboard} {n : Int} {records : List Dict}
    (answered : (board.anomalies n).1 = .ok records) :
    records = (board.anomalies n).2.recentAnomalies n := by
  unfold anomalies at answered ⊢
  cases own : board.consumer with
  | none =>
      simp only [own] at answered ⊢
      cases answered
      rw [recentAnomalies, own]
  | some consumer =>
      simp only [own] at answered ⊢
      split at answered
      · cases answered
      · cases answered
        rfl

/-- What is served is clean exactly if what is held is. -/
theorem servesClean_iff {board : Dashboard} (up : board.consumer.isSome = true) :
    board.ServesClean ↔ board.HoldsClean := by
  constructor
  · intro serves
    exact ⟨up, fun topic record member => serves record (serves_held member)⟩
  · intro holds record served
    cases served with
    | committed n member => exact holds.2 _ record (mem_held_of_committed member)
    | recentAnomalies n member => exact holds.2 _ record (mem_held_of_recentAnomalies member)
    | transactions n records answered member =>
        rw [transactions_ok answered] at member
        exact (holdsClean_transactions holds n).2 _ record (mem_held_of_committed member)
    | anomalies n records answered member =>
        rw [anomalies_ok answered] at member
        exact (holdsClean_anomalies holds n).2 _ record (mem_held_of_recentAnomalies member)
    | detail txnId found =>
        exact holds.2 _ record (mem_held_of_committed (mem_committed_of_find found))

/-- Resolving a transaction does not touch the consumer. -/
theorem consumer_resolve (board : Dashboard) (txnId : PyStr) (req : ResolveRequest) (nowNs : Int) :
    (board.resolve txnId req nowNs).2.consumer = board.consumer := by
  unfold resolve
  split
  · rfl
  · split
    · rfl
    · rfl

/-- No request touches the reports. -/
theorem reports_transactions (board : Dashboard) (n : Int) : (board.transactions n).2.reports = board.reports := by
  unfold transactions
  cases board.consumer <;> rfl

theorem reports_anomalies (board : Dashboard) (n : Int) : (board.anomalies n).2.reports = board.reports := by
  unfold anomalies
  cases board.consumer <;> rfl

theorem reports_resolve (board : Dashboard) (txnId : PyStr) (req : ResolveRequest) (nowNs : Int) :
    (board.resolve txnId req nowNs).2.reports = board.reports := by
  unfold resolve
  split
  · rfl
  · split
    · rfl
    · rfl

/-- Only a delivery can make the buffers unclean. -/
theorem holdsClean_act_iff {board : Dashboard} (before : board.HoldsClean) (action : Action) :
    (act P board action).2.HoldsClean ↔ BringsClean P action := by
  cases action with
  | deliver delivery => exact holdsClean_deliver_iff P before delivery
  | fetchKeys proverKeys => exact iff_of_true before trivial
  | transactions n => exact iff_of_true (holdsClean_transactions before n) trivial
  | anomalies n => exact iff_of_true (holdsClean_anomalies before n) trivial
  | resolve txnId req nowNs =>
      refine iff_of_true ?_ trivial
      unfold HoldsClean held
      rw [show (act P board (.resolve txnId req nowNs)).2.consumer = board.consumer from
        consumer_resolve board txnId req nowNs]
      exact before

/-! ## Runs -/

/-- The service after a list of actions. -/
def after (actions : List Action) : Dashboard := (Machine.run (act P) started actions).2

theorem holdsClean_started : started.HoldsClean := by
  refine ⟨rfl, ?_⟩
  intro topic record member
  cases topic <;> cases member

/-- A service that is up stays up. -/
theorem isSome_consumer_act {board : Dashboard} (up : board.consumer.isSome = true) (action : Action) :
    (act P board action).2.consumer.isSome = true := by
  rcases Option.isSome_iff_exists.mp up with ⟨consumer, own⟩
  cases action with
  | deliver delivery =>
      rw [act, deliver, own]
      rfl
  | fetchKeys proverKeys => exact up
  | transactions n =>
      change (board.transactions n).2.consumer.isSome = true
      rw [transactions_snd own]
      rfl
  | anomalies n =>
      change (board.anomalies n).2.consumer.isSome = true
      rw [anomalies_snd own]
      rfl
  | resolve txnId req nowNs =>
      change (board.resolve txnId req nowNs).2.consumer.isSome = true
      rw [consumer_resolve]
      exact up

/-- At every point of a run everything served is clean, exactly if no record
that passes the gate of the consumer carries a forbidden field. -/
theorem served_clean_iff (actions : List Action) :
    (∀ seen, seen <+: actions -> (after P seen).ServesClean) ↔
      ∀ action ∈ actions, BringsClean P action := by
  have run := Machine.invariant_along_iff HoldsClean (fun _ action => BringsClean P action)
    (fun _ action before => holdsClean_act_iff P before action) holdsClean_started actions
  rw [Machine.along_inputs_iff] at run
  rw [← run]
  apply forall₂_congr
  intro seen _
  have up : (after P seen).consumer.isSome = true :=
    Machine.invariant_run (fun board : Dashboard => board.consumer.isSome = true)
      (fun _ action _ up => isSome_consumer_act P up action) rfl
  exact servesClean_iff up

/-- A record that discloses its amount next to a zero `pii_bytes`. -/
def leak : Delivery :=
  { topic := .anomalies
    record := .obj [(PyStr.ofString "txn_id", .str Sample.txnId), (PyStr.ofString "pii_bytes", .int 0),
      (PyStr.ofString "amount_cents", .int 150000)]
    now := 0 }

/-- The anomaly list returns the amount right after the record is delivered. -/
theorem leaked_amount_served : ¬(after samplePlatform [.deliver leak]).ServesClean := by
  have up : (after samplePlatform [.deliver leak]).consumer.isSome = true :=
    isSome_consumer_act samplePlatform rfl (.deliver leak)
  rw [servesClean_iff up]
  intro holds
  have brings := (holdsClean_act_iff samplePlatform holdsClean_started (.deliver leak)).mp holds
  have admitted : admits samplePlatform leak.record =
      some [(PyStr.ofString "txn_id", .str Sample.txnId), (PyStr.ofString "pii_bytes", .int 0),
        (PyStr.ofString "amount_cents", .int 150000)] := by
    simp [admits, leak, hasReadableTimestamp, Dict.get, Json.eqInt, Platform.int]
  have free := brings _ admitted "amount_cents" (by decide)
  simp [Dict.has] at free

end Dashboard
end Api
end ZeroAudit
