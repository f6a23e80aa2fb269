import ZeroAudit.Verifier.Quarantine
import ZeroAudit.Verifier.Verdicts

namespace ZeroAudit
namespace Api

open Foundation Verify Kafka

/-!
# The status page (`verifier/components/sidebar.py`)

The page says of four components whether they are there, and it is nominal if all of them are.
A record counts where its report is drawn, whatever the report says: the page stays nominal on
records that fail, as long as the chain of the newest ones is intact.
-/

variable (P : Platform)

/-! ## Components -/

inductive ComponentState where
  | online
  | degraded
  | fault
  deriving DecidableEq

structure Component where
  id : String
  label : String
  status : ComponentState
  color : String
  detail : PyStr

inductive Overall where
  | nominal
  | degraded
  deriving DecidableEq

structure SystemStatus where
  components : List Component
  overall : Overall
  timestampNs : Int
  piiBytes : Int

/-- `f"{value:.0f}"`, of a number that is not negative. -/
def wholeText : PyFloat -> PyStr
  | .finite own => PyStr.decimal (Binary64.roundHalfEven own)
  | .posInf => PyStr.ofString "inf"
  | .negInf => PyStr.ofString "-inf"
  | .nan => PyStr.ofString "nan"

/-- `system_status`. -/
def systemStatus (kafkaOk sgxOk intentEngineOk chainOk : Bool) (kafkaLagMs : PyFloat) (nowNs : Int) : SystemStatus :=
  let components : List Component :=
    [{ id := "kafka"
       label := "KAFKA"
       status := if kafkaOk then .online else .degraded
       color := if kafkaOk then "#00e5ff" else "#ffd700"
       detail := if kafkaOk then PyStr.ofString "Lag " ++ wholeText kafkaLagMs ++ PyStr.ofString "ms"
         else PyStr.ofString "Disconnected" },
     { id := "sgx_enclave"
       label := "SGX ENCLAVE"
       status := if sgxOk then .online else .fault
       color := if sgxOk then "#00ff88" else "#ff0033"
       detail := PyStr.ofString (if sgxOk then "Prover public key held" else "No key exchanged yet") },
     { id := "intent_engine"
       label := "INTENT ENGINE"
       status := if intentEngineOk then .online else .degraded
       color := if intentEngineOk then "#ffd700" else "#ff6b35"
       detail := PyStr.ofString (if intentEngineOk then "Scoring transactions" else "No records scored yet") },
     { id := "hash_chain"
       label := "HASH CHAIN"
       status := if chainOk then .online else .fault
       color := if chainOk then "#00e5ff" else "#ff0033"
       detail := PyStr.ofString (if chainOk then "Independently verified" else "BROKEN — see /chain/verify") }]
  { components
    overall := if components.all fun component => decide (component.status = .online) then .nominal else .degraded
    timestampNs := nowNs
    piiBytes := 0 }

/-! ## The views -/

namespace Dashboard

/-- `stats()["lag_ms"]` of the consumer, if there is one. -/
def lagMs (board : Dashboard) : PyFloat :=
  match board.consumer with
  | some consumer => consumer.stats.lagMs
  | none => .zero

/-- `GET /sidebar/status`, where the consume loop says whether it is connected. -/
def sidebarStatus (board : Dashboard) (connected : Bool) (nowNs : Int) : Except PyError SystemStatus := do
  let chain ← board.chainVerify P 500
  return systemStatus (board.consumer.isSome && connected) board.reports.verifier.hasKey
    (decide (0 < board.reports.verifier.stats .records)) chain.intact board.lagMs nowNs

/-! ## What the counters count -/

/-- The reports that were drawn in a run, in order. -/
def reportsOf (actions : List Action) : List Report :=
  (consumed P actions).filterMap fun place => (place.outcome P).toOption

/-- A counter that no check owns does not move where a check raises. -/
theorem stats_of_raised {verifier after : ExternalVerifier} {record : Dict} {error : PyError} {key : StatKey}
    (free : key.check = none) (ran : verifyEnvelope P verifier record = (.error error, after)) :
    after.stats key = verifier.stats key := by
  have still : ∀ {finding : Finding} {check : Check}, finding.Owned check -> ∀ state : ExternalVerifier,
      (state.record finding).stats key = state.stats key := by
    intro finding check owned state
    rw [stats_record, owned.moves_eq_zero (by rw [free]; exact (Option.some_ne_none check).symm), Nat.add_zero]
  unfold verifyEnvelope stage at ran
  cases signed : checkSignature P verifier.pubkey record with
  | error cause =>
      simp only [signed] at ran
      cases ran
      rfl
  | ok signature =>
      have first := still (checkSignature_owned P signed) verifier
      simp only [signed] at ran
      cases bound : checkBinding P record with
      | error cause =>
          simp only [bound] at ran
          cases ran
          exact first
      | ok binding =>
          have second := still (checkBinding_owned P bound) (verifier.record signature)
          simp only [bound, expectedPrev_record] at ran
          cases linked : checkLink P verifier.expectedPrev record with
          | error cause =>
              simp only [linked] at ran
              cases ran
              exact second.trans first
          | ok link =>
              simp only [linked] at ran
              cases profile : checkLwe P record with
              | error cause =>
                  simp only [profile] at ran
                  cases ran
                  rw [still (checkLink_owned P linked), stats_track, second, first]
              | ok lwe =>
                  simp only [profile, conclude] at ran
                  cases ran

/-- The counter of the records after one more. -/
theorem records_verifyEnvelope (verifier : ExternalVerifier) (record : Dict) :
    (verifyEnvelope P verifier record).2.stats .records =
      verifier.stats .records + (verifyEnvelope P verifier record).1.toOption.toList.length := by
  rcases ran : verifyEnvelope P verifier record with ⟨error | report, after⟩
  · exact stats_of_raised P rfl ran
  · rcases stats_of_owner P ran with ⟨signature, binding, link, lwe, -, -, -, -, moved⟩
    exact moved .records

/-! ## What a run leaves -/

/-- The key that an action installs. -/
def installs : Action -> Option Json
  | .fetchKeys proverKeys => some (Dict.get proverKeys "ed25519_public_key_b64" .null)
  | _ => none

/-- The key that was installed last, or the one that the service starts with. -/
def installedKey (actions : List Action) : Json := (actions.filterMap installs).getLast?.getD .null

/-- The verifier moves by the records that it is given and by the keys. -/
theorem verifier_act {board : Dashboard} (up : board.consumer.isSome = true) (action : Action) :
    (act P board action).2.reports.verifier = match brings P action, installs action with
      | some record, _ => (verifyEnvelope P board.reports.verifier record).2
      | none, some key => board.reports.verifier.setPublicKey key
      | none, none => board.reports.verifier := by
  cases action with
  | deliver delivery =>
      change (board.deliver P delivery).reports.verifier = match examines P delivery, none with
        | some record, _ => (verifyEnvelope P board.reports.verifier record).2
        | none, some key => board.reports.verifier.setPublicKey key
        | none, none => board.reports.verifier
      rw [reports_deliver P up]
      cases examines P delivery with
      | none => rfl
      | some record => exact verifier_recordVerification P board.reports record
  | fetchKeys proverKeys => rfl
  | transactions n => exact congrArg Reports.verifier (reports_transactions board n)
  | anomalies n => exact congrArg Reports.verifier (reports_anomalies board n)
  | resolve txnId req nowNs => exact congrArg Reports.verifier (reports_resolve board txnId req nowNs)

/-- The verifier of a run holds the last key, and has counted each report. -/
theorem verifier_after (actions : List Action) :
    (after P actions).reports.verifier.pubkey = installedKey actions ∧
      (after P actions).reports.verifier.stats .records = (reportsOf P actions).length := by
  induction actions using List.reverseRecOn with
  | nil => exact ⟨rfl, rfl⟩
  | append_singleton actions action inductionHypothesis =>
      rcases inductionHypothesis with ⟨key, counted⟩
      have moved := verifier_act P (isSome_consumer_after P actions) action
      have installed : installedKey (actions ++ [action]) = (installs action).getD (installedKey actions) := by
        unfold installedKey
        rw [List.filterMap_append]
        cases own : installs action <;> simp [own]
      have reported : reportsOf P (actions ++ [action]) = reportsOf P actions ++
          ((brings P action).bind fun record => (Consumed.outcome P ⟨actions, record⟩).toOption).toList := by
        unfold reportsOf
        rw [consumed_append, List.filterMap_append]
        cases brings P action with
        | none => rfl
        | some record => cases drawn : (Consumed.outcome P ⟨actions, record⟩).toOption <;> simp [drawn]
      rw [after_append, installed, reported, List.length_append, moved]
      cases brought : brings P action with
      | some record =>
          rcases delivery_of_brings P brought with ⟨delivery, rfl, -⟩
          exact ⟨(pubkey_verifyEnvelope P _ record).trans key,
            (records_verifyEnvelope P _ record).trans (congrArg (· + _) counted)⟩
      | none =>
          cases installs action with
          | none => exact ⟨key, counted⟩
          | some own => exact ⟨rfl, counted⟩

/-! ## The page -/

/-- The page is nominal exactly if each of its components is there. -/
theorem overall_systemStatus (kafkaOk sgxOk intentEngineOk chainOk : Bool) (kafkaLagMs : PyFloat) (nowNs : Int) :
    (systemStatus kafkaOk sgxOk intentEngineOk chainOk kafkaLagMs nowNs).overall = .nominal ↔
      kafkaOk = true ∧ sgxOk = true ∧ intentEngineOk = true ∧ chainOk = true := by
  unfold systemStatus
  cases kafkaOk <;> cases sgxOk <;> cases intentEngineOk <;> cases chainOk <;> simp

/-- In every run: the page is answered exactly if the chain of the newest records can be walked,
and it is nominal exactly if the loop is connected, the last key that was installed is not
empty, a report has been drawn on some record, whatever it says, and that chain is intact. -/
theorem status_nominal_iff (actions : List Action) (connected : Bool) (nowNs : Int) :
    ((∃ status, (after P actions).sidebarStatus P connected nowNs = .ok status) ↔
        Walkable P ((after P actions).committed 500)) ∧
      ∀ status, (after P actions).sidebarStatus P connected nowNs = .ok status ->
        (status.overall = .nominal ↔ connected = true ∧ (installedKey actions).truthy = true ∧
          (∃ place ∈ consumed P actions, ∃ report, place.outcome P = .ok report) ∧
          ∃ chain, (after P actions).chainVerify P 500 = .ok chain ∧ chain.intact = true) := by
  rcases verifier_after P actions with ⟨key, counted⟩
  have drawn : 0 < (reportsOf P actions).length ↔
      ∃ place ∈ consumed P actions, ∃ report, place.outcome P = .ok report := by
    rw [List.length_pos_iff_exists_mem]
    unfold reportsOf
    simp only [List.mem_filterMap]
    constructor
    · rintro ⟨report, place, member, own⟩
      refine ⟨place, member, report, ?_⟩
      cases outcome : place.outcome P with
      | error error => rw [outcome] at own; cases own
      | ok other => rw [outcome] at own; cases own; rfl
    · rintro ⟨place, member, report, own⟩
      exact ⟨report, place, member, by rw [own]; rfl⟩
  unfold sidebarStatus
  constructor
  · rw [← walkChain_answers_iff P "CHAIN_HASH_MISMATCH" "no records received yet"]
    change _ ↔ ∃ report, (after P actions).chainVerify P 500 = .ok report
    cases (after P actions).chainVerify P 500 with
    | error error => simp [bind, Except.bind]
    | ok chain => simp [bind, Except.bind, pure, Except.pure]
  · intro status answered
    rcases bind_eq_ok_iff.mp answered with ⟨chain, walked, own⟩
    cases own
    rw [overall_systemStatus, isSome_consumer_after, walked]
    unfold ExternalVerifier.hasKey
    rw [key, counted, decide_eq_true_iff, drawn, Bool.true_and]
    simp

end Dashboard

end Api
end ZeroAudit
