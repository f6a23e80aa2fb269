import Mathlib.Data.Prod.Lex
import ZeroAudit.Chain.Escalation
import ZeroAudit.Foundation.KeySort
import ZeroAudit.Verifier.Quarantine
import ZeroAudit.Verifier.Verdicts

namespace ZeroAudit
namespace Api

open Foundation Verify Kafka Commitment Consumer

/-!
# The alert feed (`verifier/components/sidebar.py`)

The feed turns the newest quarantined records into alerts, each with a severity by its score,
and puts the severe ones first and the newer ones before the older.  It reads what a producer
has sent, so a record of other types than the prover's ends the request with an exception.
What the prover escalates never does.
-/

variable (P : Platform)

/-! ## One alert -/

/-- The severities that a score can have. -/
inductive Severity where
  | critical
  | high
  | medium
  | low
  deriving DecidableEq

/-- `_SEV`. -/
def Severity.rank : Severity -> Nat
  | .critical => 0
  | .high => 1
  | .medium => 2
  | .low => 3

def Severity.color : Severity -> String
  | .critical => "#ff0033"
  | .high => "#ff6b35"
  | .medium => "#ffd700"
  | .low => "#00e5ff"

structure Alert where
  id : Json
  severity : Severity
  color : String
  message : PyStr
  timestampNs : Json
  txnId : Json
  anomalyScore : Json

/-- The severity of a score, which has to be a number. -/
def severityOf (score : Json) : Except PyError Severity := do
  if ← score.ge (.finite (90 / 100)) then return .critical
  else if ← score.ge (.finite (75 / 100)) then return .high
  else if ← score.ge (.finite (50 / 100)) then return .medium
  else return .low

/-- `value[-12:]`, of a text or a list. -/
def lastTwelve : Json -> Except PyError Json
  | .str own => .ok (.str (own.drop (own.length - 12)))
  | .arr items => .ok (.arr (items.drop (items.length - 12)))
  | .obj _ => .error ⟨.typeError, "unhashable type: 'slice'"⟩
  | value => .error ⟨.typeError, "'" ++ value.typeName ++ "' object is not subscriptable"⟩

/-- The alert of one record, at this reading of the clock. -/
def alertOf (record : Dict) (nowNs : Int) : Except PyError Alert := do
  let flag := Dict.get record "flag_reason" (Json.text "HIGH_ANOMALY_SCORE")
  let score := Dict.get record "anomaly_score" (.float .zero)
  let severity ← severityOf score
  let txnId := Dict.get record "txn_id" (Json.text "UNKNOWN")
  let shortened ← lastTwelve txnId
  return { id := txnId
           severity
           color := severity.color
           message := P.str flag ++ PyStr.ofString ": " ++ P.str shortened
           timestampNs := Dict.get record "timestamp_ns" (.int nowNs)
           txnId
           anomalyScore := score }

/-! ## The feed -/

/-- `items[:n]`; a negative bound counts from the end. -/
def firstOf (n : Int) (records : List Dict) : List Dict :=
  if 0 ≤ n then records.take n.toNat else records.take (records.length - n.natAbs)

/-- The keys of two alerts are compared by `<`: the ranks, and for equal ones the negated times. -/
def Alert.keyLess (first second : Alert) : Bool :=
  if first.severity.rank = second.severity.rank then
    match first.timestampNs.asNumber, second.timestampNs.asNumber with
    | some own, some other => other.lt own
    | _, _ => false
  else decide (first.severity.rank < second.severity.rank)

/-- `alert_feed`, with a reading of the clock for each record. -/
def alertFeed (recentAnomalies : List Dict) (n : Int) (clock : Nat -> Int) : Except PyError (List Alert) := do
  if recentAnomalies.isEmpty then return []
  let alerts ← (firstOf n recentAnomalies).zipIdx.mapM fun entry => alertOf P entry.1 (clock entry.2)
  if alerts.all fun alert => alert.timestampNs.asNumber.isSome then
    return alerts.mergeSort fun first second => !second.keyLess first
  else .error ⟨.typeError, "bad operand type for unary -"⟩

/-- `GET /sidebar/alerts`. -/
def Dashboard.sidebarAlerts (board : Dashboard) (n : Int) (clock : Nat -> Int) : Except PyError (List Alert) :=
  alertFeed P (board.recentAnomalies n) n clock

/-! ## Severities -/

/-- The severity of a number. -/
def tier (score : PyFloat) : Severity :=
  if score.ge (.finite (90 / 100)) then .critical
  else if score.ge (.finite (75 / 100)) then .high
  else if score.ge (.finite (50 / 100)) then .medium
  else .low

theorem severityOf_of_number {score : Json} {number : PyFloat} (own : score.asNumber = some number) :
    severityOf score = .ok (tier number) := by
  unfold severityOf Json.ge tier
  rw [own]
  dsimp only [bind, Except.bind]
  split
  · rfl
  · split
    · rfl
    · split <;> rfl

theorem number_of_severityOf {score : Json} {severity : Severity} (answered : severityOf score = .ok severity) :
    ∃ number, score.asNumber = some number ∧ severity = tier number := by
  cases own : score.asNumber with
  | none =>
      unfold severityOf Json.ge at answered
      rw [own] at answered
      cases answered
  | some number =>
      rw [severityOf_of_number own] at answered
      exact ⟨number, rfl, (Except.ok.inj answered).symm⟩

/-- A greater score is not less severe. -/
theorem tier_mono {score other : PyFloat} (reached : score.ge other = true) :
    (tier score).rank ≤ (tier other).rank := by
  have above : ∀ line : ℚ, other.ge (.finite line) = true -> score.ge (.finite line) = true :=
    fun line => ge_chain reached
  unfold tier
  by_cases first : other.ge (.finite (90 / 100)) = true
  · rw [if_pos first, if_pos (above _ first)]
  · by_cases second : other.ge (.finite (75 / 100)) = true
    · rw [if_neg first, if_pos second, if_pos (above _ second)]
      split
      · exact Nat.zero_le _
      · exact le_rfl
    · by_cases third : other.ge (.finite (50 / 100)) = true
      · rw [if_neg first, if_neg second, if_pos third, if_pos (above _ third)]
        split
        · exact Nat.zero_le _
        · split <;> decide
      · rw [if_neg first, if_neg second, if_neg third]
        split
        · exact Nat.zero_le _
        · split
          · decide
          · split <;> decide

/-! ## What can be shown -/

/-- A record whose alert can be drawn and compared with others. -/
structure Showable (record : Dict) : Prop where
  score : ((Dict.get record "anomaly_score" (.float .zero)).asNumber).isSome = true
  name : ∃ shortened, lastTwelve (Dict.get record "txn_id" (Json.text "UNKNOWN")) = .ok shortened
  time : ((Dict.get record "timestamp_ns" (.int 0)).asNumber).isSome = true

/-- The clock stands in for a time that is missing, which does not bear on whether there is one. -/
theorem isSome_time (record : Dict) (nowNs : Int) :
    ((Dict.get record "timestamp_ns" (.int nowNs)).asNumber).isSome =
      ((Dict.get record "timestamp_ns" (.int 0)).asNumber).isSome := by
  unfold Dict.get
  cases Dict.find record "timestamp_ns" <;> rfl

/-- An alert says what its record says. -/
theorem alertOf_inversion {record : Dict} {nowNs : Int} {alert : Alert}
    (drawn : alertOf P record nowNs = .ok alert) :
    severityOf alert.anomalyScore = .ok alert.severity ∧
      alert.anomalyScore = Dict.get record "anomaly_score" (.float .zero) ∧
      alert.txnId = Dict.get record "txn_id" (Json.text "UNKNOWN") ∧
      alert.timestampNs = Dict.get record "timestamp_ns" (.int nowNs) ∧
      ∃ shortened, lastTwelve alert.txnId = .ok shortened := by
  unfold alertOf at drawn
  rcases bind_eq_ok_iff.mp drawn with ⟨severity, severe, drawn⟩
  rcases bind_eq_ok_iff.mp drawn with ⟨shortened, named, same⟩
  cases same
  exact ⟨severe, rfl, rfl, rfl, shortened, named⟩

theorem alertOf_ok_iff (record : Dict) (nowNs : Int) :
    (∃ alert, alertOf P record nowNs = .ok alert ∧ alert.timestampNs.asNumber.isSome = true) ↔ Showable record := by
  constructor
  · rintro ⟨alert, drawn, time⟩
    rcases alertOf_inversion P drawn with ⟨severe, score, name, stamp, shortened, named⟩
    rcases number_of_severityOf severe with ⟨number, own, -⟩
    refine ⟨?_, ⟨shortened, name ▸ named⟩, ?_⟩
    · rw [← score, own]
      rfl
    · rw [← isSome_time record nowNs, ← stamp]
      exact time
  · rintro ⟨score, ⟨shortened, named⟩, time⟩
    rcases Option.isSome_iff_exists.mp score with ⟨number, own⟩
    unfold alertOf
    refine ⟨_, bind_eq_ok_iff.mpr ⟨_, severityOf_of_number own, bind_eq_ok_iff.mpr ⟨shortened, named, rfl⟩⟩, ?_⟩
    exact (isSome_time record nowNs).trans time

/-- An answer is what was drawn, sorted. -/
theorem alertFeed_eq_ok_iff {records : List Dict} {n : Int} {clock : Nat -> Int} {alerts : List Alert} :
    alertFeed P records n clock = .ok alerts ↔
      ∃ drawn, (firstOf n records).zipIdx.mapM (fun entry => alertOf P entry.1 (clock entry.2)) = .ok drawn ∧
        (∀ alert ∈ drawn, alert.timestampNs.asNumber.isSome = true) ∧
        alerts = drawn.mergeSort fun first second => !second.keyLess first := by
  unfold alertFeed
  cases records with
  | nil =>
      have nothing : firstOf n [] = [] := by
        unfold firstOf
        split <;> exact List.take_nil
      rw [nothing, List.isEmpty_nil, if_pos rfl]
      constructor
      · intro same
        cases same
        exact ⟨[], rfl, fun _ member => (List.not_mem_nil member).elim, List.mergeSort_nil.symm⟩
      · rintro ⟨drawn, same, -, rfl⟩
        cases same
        change Except.ok [] = Except.ok (List.mergeSort [] _)
        rw [List.mergeSort_nil]
  | cons record rest =>
      rw [List.isEmpty_cons, if_neg Bool.false_ne_true, bind_eq_ok_iff]
      apply exists_congr
      intro drawn
      apply and_congr_right
      intro _
      by_cases timed : (drawn.all fun alert => alert.timestampNs.asNumber.isSome) = true
      · rw [if_pos timed, and_iff_right (List.all_eq_true.mp timed)]
        exact ⟨fun same => (Except.ok.inj same).symm, fun same => congrArg Except.ok same.symm⟩
      · rw [if_neg timed]
        constructor
        · intro impossible
          cases impossible
        · rintro ⟨all, -⟩
          exact absurd (List.all_eq_true.mpr all) timed

/-- The feed answers exactly if each of the records that it shows can be shown. -/
theorem alertFeed_ok_iff (records : List Dict) (n : Int) (clock : Nat -> Int) :
    (∃ alerts, alertFeed P records n clock = .ok alerts) ↔ ∀ record ∈ firstOf n records, Showable record := by
  constructor
  · rintro ⟨alerts, answered⟩ record member
    rcases (alertFeed_eq_ok_iff P).mp answered with ⟨drawn, collected, times, -⟩
    rw [← List.zipIdx_map_fst 0 (firstOf n records)] at member
    rcases List.mem_map.mp member with ⟨entry, among, rfl⟩
    rcases (exists_of_forall₂ (mapM_eq_ok_iff.mp collected)).1 entry among with ⟨alert, listed, own⟩
    exact (alertOf_ok_iff P entry.1 _).mp ⟨alert, own, times alert listed⟩
  · intro showable
    have fine : ∀ entry ∈ (firstOf n records).zipIdx, ∃ alert, alertOf P entry.1 (clock entry.2) = .ok alert ∧
        alert.timestampNs.asNumber.isSome = true := by
      intro entry among
      apply (alertOf_ok_iff P entry.1 _).mpr (showable entry.1 _)
      rw [← List.zipIdx_map_fst 0 (firstOf n records)]
      exact List.mem_map_of_mem among
    rcases exists_mapM_iff.mpr fun entry among => (fine entry among).imp fun _ own => own.1 with ⟨drawn, collected⟩
    refine ⟨_, (alertFeed_eq_ok_iff P).mpr ⟨drawn, collected, ?_, rfl⟩⟩
    intro alert listed
    rcases (exists_of_forall₂ (mapM_eq_ok_iff.mp collected)).2 alert listed with ⟨entry, among, own⟩
    rcases fine entry among with ⟨other, drawn, time⟩
    rw [own] at drawn
    cases drawn
    exact time

/-! ## The order -/

/-- The time of an alert. -/
def Alert.time (alert : Alert) : ℚ :=
  match alert.timestampNs.asNumber with
  | some (.finite own) => own
  | _ => 0

/-- Of two alerts in order the first is more severe, or as severe and not older. -/
def Alert.Before (first second : Alert) : Prop :=
  first.severity.rank < second.severity.rank ∨ first.severity = second.severity ∧ second.time ≤ first.time

theorem rank_injective {first second : Severity} (same : first.rank = second.rank) : first = second := by
  cases first <;> cases second <;> first | rfl | cases same

/-- A feed over records with such times is in order. -/
theorem before_of_mergeSort {drawn : List Alert}
    (times : ∀ alert ∈ drawn, alert.timestampNs.asNumber = some (.finite alert.time)) :
    (drawn.mergeSort fun first second => !second.keyLess first).Pairwise Alert.Before := by
  let key : Alert -> Lex (Nat × ℚ) := fun alert => toLex (alert.severity.rank, -alert.time)
  have reads : ∀ first ∈ drawn, ∀ second ∈ drawn,
      (!second.keyLess first) = decide (key first ≤ key second) := by
    intro first left second right
    rw [Bool.eq_iff_iff, decide_eq_true_iff, Bool.not_eq_true', Prod.Lex.toLex_le_toLex, neg_le_neg_iff]
    unfold Alert.keyLess
    rw [times first left, times second right]
    dsimp only [PyFloat.lt]
    by_cases same : second.severity.rank = first.severity.rank
    · rw [if_pos same, decide_eq_false_iff_not, not_lt, same]
      constructor
      · intro newer
        exact Or.inr ⟨rfl, newer⟩
      · rintro (less | ⟨-, newer⟩)
        · exact absurd less (lt_irrefl _)
        · exact newer
    · rw [if_neg same, decide_eq_false_iff_not, not_lt]
      constructor
      · intro below
        exact Or.inl (lt_of_le_of_ne below (Ne.symm same))
      · rintro (less | ⟨equal, -⟩)
        · exact less.le
        · exact absurd equal.symm same
  apply (pairwise_mergeSort_of_reads key reads).imp
  intro first second ordered
  rcases Prod.Lex.toLex_le_toLex.mp ordered with less | ⟨equal, newer⟩
  · exact Or.inl less
  · exact Or.inr ⟨rank_injective equal, neg_le_neg_iff.mp newer⟩

/-- The alerts of these records, in order. -/
structure Feed (clock : Nat -> Int) (shown : List Dict) (alerts : List Alert) : Prop where
  content : ∃ drawn, List.Forall₂ (fun entry alert => alertOf P entry.1 (clock entry.2) = .ok alert) shown.zipIdx
    drawn ∧ alerts.Perm drawn
  ordered : alerts.Pairwise Alert.Before

/-- The time of the record is no special number, if it is one at all. -/
def Timed (record : Dict) : Prop :=
  ∀ nowNs number, (Dict.get record "timestamp_ns" (.int nowNs)).asNumber = some number -> ∃ own, number = .finite own

theorem feed_of_timed {records : List Dict} {n : Int} {clock : Nat -> Int} {alerts : List Alert}
    (timed : ∀ record ∈ firstOf n records, Timed record) (answered : alertFeed P records n clock = .ok alerts) :
    Feed P clock (firstOf n records) alerts := by
  rcases (alertFeed_eq_ok_iff P).mp answered with ⟨drawn, collected, times, rfl⟩
  refine ⟨⟨drawn, mapM_eq_ok_iff.mp collected, List.mergeSort_perm drawn _⟩, before_of_mergeSort ?_⟩
  intro alert listed
  rcases (exists_of_forall₂ (mapM_eq_ok_iff.mp collected)).2 alert listed with ⟨entry, among, own⟩
  rcases alertOf_inversion P own with ⟨-, -, -, stamp, -⟩
  rcases Option.isSome_iff_exists.mp (times alert listed) with ⟨number, read⟩
  have member : entry.1 ∈ firstOf n records := by
    rw [← List.zipIdx_map_fst 0 (firstOf n records)]
    exact List.mem_map_of_mem among
  rcases timed entry.1 member _ number (stamp ▸ read) with ⟨value, rfl⟩
  unfold Alert.time
  rw [read]

/-! ## The queue in a run -/

theorem mem_of_mem_firstOf {n : Int} {records : List Dict} {record : Dict} (member : record ∈ firstOf n records) :
    record ∈ records := by
  unfold firstOf at member
  split at member
  · exact List.mem_of_mem_take member
  · exact List.mem_of_mem_take member

theorem get_resolution {record : Dict} {key : String} (other : "resolution" ≠ key) (value default : Json) :
    Dict.get (Dict.set record "resolution" value) key default = Dict.get record key default := by
  rw [Dict.get, Dict.find_set, if_neg other, Dict.get]

namespace Dashboard

/-- An action leaves the records of the queue in order, if what it lets in is and a decision
written on a record does not matter. -/
theorem forall_held_act {good : Dict -> Prop}
    (annotated : ∀ record value, good record -> good (Dict.set record "resolution" value)) {board : Dashboard}
    (up : board.consumer.isSome = true) (before : ∀ record ∈ board.held .anomalies, good record) {action : Action}
    (brings : ∀ delivery, action = .deliver delivery -> delivery.topic = .anomalies ->
      ∀ record, admits P delivery.record = some record -> good record) :
    ∀ record ∈ (act P board action).2.held .anomalies, good record := by
  rcases Option.isSome_iff_exists.mp up with ⟨consumer, own⟩
  have holds := before
  rw [held, own] at holds
  cases action with
  | deliver delivery =>
      have after : (act P board (.deliver delivery)).2.held .anomalies =
          ((consumer.process P (callbacks P) board.reports delivery).1.buffer .anomalies).items := by
        rw [act, held, deliver, own]
      rw [after, VerifierKafkaConsumer.buffer_process]
      cases admitted : admits P delivery.record with
      | none => exact holds
      | some record =>
          dsimp only
          split
          · next entered =>
              exact (RingBuffer.forall_push_iff _ (by decide) holds record).mpr
                (brings delivery rfl entered.symm record admitted)
          · exact holds
  | fetchKeys proverKeys => exact before
  | transactions n =>
      change ∀ record ∈ (board.transactions n).2.held .anomalies, good record
      rw [held_transactions board n]
      exact before
  | anomalies n =>
      change ∀ record ∈ (board.anomalies n).2.held .anomalies, good record
      rw [anomalies_snd own, held]
      apply RingBuffer.forall_revise consumer.anomalyBuffer _ n holds
      intro record updated stamps fine
      rcases bind_eq_ok_iff.mp stamps with ⟨resolution, -, same⟩
      cases same
      exact annotated record _ fine
  | resolve txnId req nowNs =>
      change ∀ record ∈ (board.resolve txnId req nowNs).2.held .anomalies, good record
      rw [held, consumer_resolve, own]
      exact holds

/-- The queue of a run has no record but those that were let in, with decisions written on them. -/
theorem forall_held_after {good : Dict -> Prop}
    (annotated : ∀ record value, good record -> good (Dict.set record "resolution" value)) {actions : List Action}
    (brings : ∀ delivery, Action.deliver delivery ∈ actions -> delivery.topic = .anomalies ->
      ∀ record, admits P delivery.record = some record -> good record) :
    ∀ record ∈ (after P actions).held .anomalies, good record := by
  let invariant : Dashboard -> Prop := fun board =>
    board.consumer.isSome = true ∧ ∀ record ∈ board.held .anomalies, good record
  have preserved : ∀ board, ∀ action ∈ actions, invariant board -> invariant (act P board action).2 := by
    rintro board action member ⟨up, before⟩
    refine ⟨isSome_consumer_act P up action, forall_held_act P annotated up before ?_⟩
    intro delivery same
    exact brings delivery (same ▸ member)
  have start : invariant started := ⟨rfl, fun _ member => (List.not_mem_nil member).elim⟩
  exact (Machine.invariant_run invariant preserved start).2

/-- The gate lets no special number in. -/
theorem timed_of_admits {value : Json} {record : Dict} (admitted : admits P value = some record) : Timed record := by
  have readable : hasReadableTimestamp P record = true := by
    unfold admits at admitted
    split at admitted
    · split at admitted
      · rename_i gate
        cases admitted
        exact (Bool.and_eq_true_iff.mp gate).2
      · cases admitted
    · cases admitted
  intro nowNs number read
  unfold hasReadableTimestamp at readable
  unfold Dict.get at read readable
  cases found : Dict.find record "timestamp_ns" with
  | none =>
      rw [found] at read
      exact ⟨_, (Option.some.inj read).symm⟩
  | some stamp =>
      rw [found] at read readable
      dsimp only [Option.getD_some] at read readable
      cases stamp with
      | bool own => exact ⟨_, (Option.some.inj read).symm⟩
      | int own => exact ⟨_, (Option.some.inj read).symm⟩
      | float own =>
          cases own with
          | finite own => exact ⟨_, (Option.some.inj read).symm⟩
          | _ => cases readable
      | _ => cases read

/-- In every state that the service can reach, whoever has sent the records: the feed answers
exactly if each record that it shows can be shown, and it answers with their alerts, the severe
ones first and among equals the newer ones. -/
theorem sidebar_alerts (actions : List Action) (n : Int) (clock : Nat -> Int) :
    ((∃ alerts, (after P actions).sidebarAlerts P n clock = .ok alerts) ↔
        ∀ record ∈ firstOf n ((after P actions).recentAnomalies n), Showable record) ∧
      ∀ alerts, (after P actions).sidebarAlerts P n clock = .ok alerts ->
        Feed P clock (firstOf n ((after P actions).recentAnomalies n)) alerts := by
  refine ⟨alertFeed_ok_iff P _ n clock, ?_⟩
  intro alerts answered
  apply feed_of_timed P _ answered
  intro record member
  have annotated : ∀ record value, Timed record -> Timed (Dict.set record "resolution" value) := by
    intro record value timed nowNs number read
    rw [get_resolution (by decide)] at read
    exact timed nowNs number read
  exact forall_held_after P annotated (fun _ _ _ _ => timed_of_admits P) record
    (mem_held_of_recentAnomalies (mem_of_mem_firstOf member))

/-! ## What the prover escalates -/

/-- The record has the id, the time and the score of this record of the ledger. -/
structure Tells (payload : Dict) (record : CommitmentRecord) : Prop where
  name : Dict.find payload "txn_id" = some record.txnId
  time : Dict.find payload "timestamp_ns" = some (.int record.timestampNs)
  score : Dict.find payload "anomaly_score" = some (.float record.anomalyScore)

theorem tells_export (record : CommitmentRecord) : Tells record.toExportDict record := by
  unfold CommitmentRecord.toExportDict
  constructor <;> simp

theorem Tells.annotated {payload : Dict} {record : CommitmentRecord} (tells : Tells payload record) (value : Json) :
    Tells (Dict.set payload "resolution" value) record where
  name := by
    rw [Dict.find_set, if_neg (by decide)]
    exact tells.name
  time := by
    rw [Dict.find_set, if_neg (by decide)]
    exact tells.time
  score := by
    rw [Dict.find_set, if_neg (by decide)]
    exact tells.score

theorem Tells.showable {payload : Dict} {record : CommitmentRecord} (tells : Tells payload record)
    (named : ∃ id, record.txnId = .str id) : Showable payload := by
  rcases named with ⟨id, named⟩
  constructor
  · rw [Dict.get_of_find tells.score]
    rfl
  · rw [Dict.get_of_find tells.name, named]
    exact ⟨_, rfl⟩
  · rw [Dict.get_of_find tells.time]
    rfl

/-- The alert shows a quarantined record of the ledger. -/
structure Shows (alert : Alert) (record : CommitmentRecord) : Prop where
  status : record.status = .quarantined
  txnId : alert.txnId = record.txnId
  timestampNs : alert.timestampNs = .int record.timestampNs
  anomalyScore : alert.anomalyScore = .float record.anomalyScore

section Prover

variable {L D K : Type} (ledgerCalls : LedgerCalls L) (detectorCalls : DetectorCalls D)
  (producerCalls : ProducerCalls K) (settings : Settings)

/-- A feed of what a prover has escalated, at any time and in any order, always answers.  Each
of its alerts shows a quarantined record of the ledger, and none is less severe than a score
at the threshold is. -/
theorem alerts_of_prover (store : CommitmentStore L) (detector : Option D) (producer : K) (messages : List Message)
    {actions : List Action}
    (genuine : ∀ delivery, Action.deliver delivery ∈ actions -> delivery.topic = .anomalies ->
      ∃ payload ∈ (Machine.run (ingest P ledgerCalls detectorCalls producerCalls settings)
        (.new store detector producer) messages).2.delivered .anomalies, delivery.record = .obj payload)
    (n : Int) (clock : Nat -> Int) :
    ∃ alerts least, (after P actions).sidebarAlerts P n clock = .ok alerts ∧
      severityOf (.float (settings.anomalyThreshold.round 4)) = .ok least ∧
      alerts.length = (firstOf n ((after P actions).recentAnomalies n)).length ∧ alerts.Pairwise Alert.Before ∧
      ∀ alert ∈ alerts, alert.severity.rank ≤ least.rank ∧
        ∃ record ∈ recordsOf (Machine.run (ingest P ledgerCalls detectorCalls producerCalls settings)
          (.new store detector producer) messages).1, Shows alert record := by
  let records := recordsOf (Machine.run (ingest P ledgerCalls detectorCalls producerCalls settings)
    (.new store detector producer) messages).1
  have honest := (linked_ingest P ledgerCalls detectorCalls producerCalls settings (.new store detector producer)
    messages).2
  let good : Dict -> Prop := fun payload =>
    ∃ record ∈ records, Escalated settings.anomalyThreshold record ∧ Tells payload record
  have annotated : ∀ payload value, good payload -> good (Dict.set payload "resolution" value) := by
    rintro payload value ⟨record, listed, escalated, tells⟩
    exact ⟨record, listed, escalated, tells.annotated value⟩
  have brings : ∀ delivery, Action.deliver delivery ∈ actions -> delivery.topic = .anomalies ->
      ∀ own, admits P delivery.record = some own -> good own := by
    intro delivery member topic own admitted
    rcases genuine delivery member topic with ⟨payload, sent, same⟩
    have brought : own = payload := by
      rw [same] at admitted
      unfold admits at admitted
      dsimp only at admitted
      split at admitted
      · exact (Option.some.inj admitted).symm
      · cases admitted
    subst brought
    rcases delivered_ingest P ledgerCalls detectorCalls producerCalls settings _ sent with
      old | ⟨record, listed, rfl, escalated⟩
    · cases old
    · exact ⟨record, listed, escalated, tells_export record⟩
  have shown : ∀ payload ∈ firstOf n ((after P actions).recentAnomalies n), good payload := by
    intro payload member
    exact forall_held_after P annotated brings payload
      (mem_held_of_recentAnomalies (mem_of_mem_firstOf member))
  have answers : ∃ alerts, (after P actions).sidebarAlerts P n clock = .ok alerts := by
    apply (alertFeed_ok_iff P _ n clock).mpr
    intro payload member
    rcases shown payload member with ⟨record, listed, -, tells⟩
    exact tells.showable (honest record listed).txnId
  rcases answers with ⟨alerts, answered⟩
  have feed : Feed P clock (firstOf n ((after P actions).recentAnomalies n)) alerts := by
    apply feed_of_timed P _ answered
    intro payload member nowNs number read
    rcases shown payload member with ⟨record, -, -, tells⟩
    rw [Dict.get_of_find tells.time] at read
    exact ⟨_, (Option.some.inj read).symm⟩
  rcases feed.content with ⟨drawn, each, same⟩
  refine ⟨alerts, tier (settings.anomalyThreshold.round 4), answered, severityOf_of_number rfl, ?_, feed.ordered, ?_⟩
  · rw [same.length_eq, ← each.length_eq, List.length_zipIdx]
  · intro alert listed
    rcases (exists_of_forall₂ each).2 alert (same.mem_iff.mp listed) with ⟨entry, among, own⟩
    have member : entry.1 ∈ firstOf n ((after P actions).recentAnomalies n) := by
      rw [← List.zipIdx_map_fst 0 (firstOf n ((after P actions).recentAnomalies n))]
      exact List.mem_map_of_mem among
    rcases shown entry.1 member with ⟨record, committed, escalated, tells⟩
    rcases alertOf_inversion P own with ⟨severe, score, name, stamp, -⟩
    rw [Dict.get_of_find tells.score] at score
    rw [Dict.get_of_find tells.name] at name
    rw [Dict.get_of_find tells.time] at stamp
    rw [score, severityOf_of_number rfl] at severe
    refine ⟨?_, record, committed, escalated.status, name, stamp, score⟩
    rw [← Except.ok.inj severe]
    exact tier_mono escalated.score

end Prover

/-- An admitted record of the anomalies topic joins the ones before it. -/
theorem anomalyBuffer_deliver {board : Dashboard} {consumer : VerifierKafkaConsumer BUFFER_SIZE}
    (present : board.consumer = some consumer) {record : Dict} {now : ℚ}
    (admitted : admits P (.obj record) = some record) :
    ∃ next, (board.deliver P ⟨.anomalies, .obj record, now⟩).consumer = some next ∧
      next.anomalyBuffer = consumer.anomalyBuffer.push record := by
  have pushed := consumer.buffer_process P (callbacks P) board.reports ⟨.anomalies, .obj record, now⟩ .anomalies
  rw [admitted] at pushed
  unfold deliver
  rw [present]
  exact ⟨_, rfl, pushed⟩

/-- The newer of two escalated records arrives first, and the feed shows both. -/
theorem alerts_of_prover_sample :
    ∃ first second alerts, (after samplePlatform [.deliver ⟨.anomalies, .obj second, 0⟩,
        .deliver ⟨.anomalies, .obj first, 0⟩]).sidebarAlerts samplePlatform 10 (fun _ => 0) = .ok alerts ∧
      alerts.length = 2 ∧ ∀ alert ∈ alerts, ∃ record, Shows alert record := by
  rcases delivered_sampleMessages with ⟨first, second, honest, sent⟩
  have admitted : ∀ record ∈ [first, second],
      admits samplePlatform (.obj record.toExportDict) = some record.toExportDict := by
    intro record member
    rcases honest record member with ⟨honest, stamp⟩
    have zero : (Dict.get record.toExportDict "pii_bytes" (.int 0)).eqInt 0 = true := by
      rw [export_piiBytes, honest.piiBytes]
      rfl
    have readable : hasReadableTimestamp samplePlatform record.toExportDict = true := by
      have converted : PyFloat.ofInt 1 = .ok (.finite (1 : Int)) := if_pos (by decide +kernel)
      unfold hasReadableTimestamp
      rw [export_timestampNs, stamp]
      dsimp only [Platform.int]
      rw [converted]
      rfl
    unfold admits
    simp only [zero, readable, Bool.and_self, if_true]
  rcases anomalyBuffer_deliver samplePlatform (rfl : started.consumer = some (.new BUFFER_SIZE))
    (admitted second (List.mem_cons_of_mem _ (List.mem_singleton_self second))) with ⟨middle, present, held⟩
  rcases anomalyBuffer_deliver samplePlatform present (admitted first List.mem_cons_self) with
    ⟨last, present', held'⟩
  let actions : List Action := [.deliver ⟨.anomalies, .obj second.toExportDict, 0⟩,
    .deliver ⟨.anomalies, .obj first.toExportDict, 0⟩]
  have queued : (after samplePlatform actions).recentAnomalies 10 = [second.toExportDict, first.toExportDict] := by
    have reached : (after samplePlatform actions).consumer = some last := present'
    have one : middle.anomalyBuffer.items = [second.toExportDict] := by
      rw [held]
      exact RingBuffer.items_push_of_lt _ (by decide) _
    have two : last.anomalyBuffer.items = [second.toExportDict, first.toExportDict] := by
      have room : middle.anomalyBuffer.items.length < BUFFER_SIZE := by
        rw [one, List.length_singleton]
        decide
      rw [held', RingBuffer.items_push_of_lt _ room, one]
      rfl
    rw [recentAnomalies, reached]
    dsimp only [VerifierKafkaConsumer.recentAnomalies]
    rw [RingBuffer.snapshot, RingBuffer.start, two]
    rfl
  have genuine : ∀ delivery, Action.deliver delivery ∈ actions -> delivery.topic = .anomalies ->
      ∃ payload ∈ (Machine.run (ingest samplePlatform sampleCalls sampleDetector sampleProducer escalatingSettings)
        sampleConsumer sampleMessages).2.delivered .anomalies, delivery.record = .obj payload := by
    intro delivery member _
    rcases List.mem_pair.mp member with here | here
    · cases here
      exact ⟨_, sent ▸ List.mem_cons_of_mem _ (List.mem_singleton_self _), rfl⟩
    · cases here
      exact ⟨_, sent ▸ List.mem_cons_self, rfl⟩
  rcases alerts_of_prover samplePlatform sampleCalls sampleDetector sampleProducer escalatingSettings sampleStore none
    () sampleMessages genuine 10 (fun _ => 0) with ⟨alerts, least, answered, -, length, -, each⟩
  refine ⟨first.toExportDict, second.toExportDict, alerts, answered, ?_, ?_⟩
  · rw [length, queued]
    rfl
  · intro alert listed
    rcases (each alert listed).2 with ⟨own, -, shows⟩
    exact ⟨own, shows⟩

end Dashboard

end Api
end ZeroAudit
