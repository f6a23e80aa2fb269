import Mathlib
import ZeroAudit.Foundation.KeySort
import ZeroAudit.Simulator.Delivery

namespace ZeroAudit
namespace Training

open Foundation Simulator

/-!
# The simulated stream (`ml/train_autoencoder.py`, `ml/evaluate.py`)

Training and evaluation draw the same kind of stream: normal transactions, and anomalies
until there are enough of them, where a velocity anomaly stands for a whole burst, all in
the order of their times.
-/

/-! ## The stream -/

/-- `int(x)`. -/
def truncate (x : ℚ) : Int := if 0 ≤ x then ⌊x⌋ else ⌈x⌉

/-- `int(n_samples * anomaly_rate)`, a product of doubles. -/
def anomalyCount (nSamples : Int) (anomalyRate : ℚ) : Int :=
  truncate (Binary64.nearest (Binary64.nearest nSamples * anomalyRate))

/-- `d[key]`, which is an integer. -/
def requireInt (txn : Dict) (key : String) : Except PyError Int := do
  match ← Dict.require txn key with
  | .int value => return value
  | _ => .error ⟨.typeError, key⟩

/-- What one transaction of a materialised burst draws. -/
structure SpacedLeg where
  draw : NormalDraw
  uuid : String
  gap : Int
  range : 20 ≤ gap ∧ gap ≤ 90

/-- The transaction, so many gaps after the start of its burst. -/
def SpacedLeg.transaction (leg : SpacedLeg) (account : Json) (baseTs i : Int) : Dict :=
  let txn := generateNormalTransaction leg.draw
  let txn := Dict.set txn "txn_id" (Json.text (txnIdOf "TXN-ANOM-" 12 leg.uuid))
  let txn := Dict.set txn "account_id" account
  let txn := Dict.set txn "timestamp_ns" (.int (baseTs + i * leg.gap * 1000000000))
  let txn := Dict.set txn "ground_truth_anomaly" (.bool true)
  Dict.set txn "ground_truth_type" (Json.text "velocity_burst")

/-- What one pass of the loop over the anomalies draws. -/
structure Incident where
  draw : NormalDraw
  uuid : String
  twist : Twist
  size : Nat
  many : 8 ≤ size ∧ size ≤ 15
  leg : Fin size -> SpacedLeg

/-- What one pass appends: the anomaly, or the burst that it stands for. -/
def Incident.events (incident : Incident) : Except PyError (List Dict) := do
  let txn := generateAnomalousTransaction incident.draw incident.uuid incident.twist
  if incident.twist.name = "velocity_burst" then
    let baseTs ← requireInt txn "timestamp_ns"
    let account ← Dict.require txn "account_id"
    return List.ofFn fun i => (incident.leg i).transaction account baseTs i.val
  else return [txn]

/-- A pass appends something. -/
theorem Incident.length_events {incident : Incident} {events : List Dict} (own : incident.events = .ok events) :
    0 < events.length := by
  unfold Incident.events at own
  dsimp only at own
  split at own
  · rcases bind_eq_ok_iff.mp own with ⟨baseTs, -, own⟩
    rcases bind_eq_ok_iff.mp own with ⟨account, -, own⟩
    cases own
    rw [List.length_ofFn]
    exact lt_of_lt_of_le (by decide) incident.many.1
  · cases own
    exact Nat.one_pos

/-- The loop over the anomalies, from its pass with this number on. -/
def collect (incidents : Nat -> Incident) (nAnom : Int) (pass emitted : Nat) : Except PyError (List Dict) :=
  if (emitted : Int) < nAnom then
    match own : (incidents pass).events with
    | .error error => .error error
    | .ok events => do
        have _ := Incident.length_events own
        let rest ← collect incidents nAnom (pass + 1) (emitted + events.length)
        return events ++ rest
  else .ok []
termination_by (nAnom - emitted).toNat

/-- `events.sort(key=lambda e: e["timestamp_ns"])`. -/
def sortByTime (events : List Dict) : Except PyError (List Dict) := do
  let times ← events.mapM fun event => requireInt event "timestamp_ns"
  return ((times.zip events).mergeSort fun a b => decide (a.1 ≤ b.1)).map Prod.snd

/-- `build_stream`, with what the random module gives to each call. -/
def buildStream (draws : Nat -> NormalDraw) (incidents : Nat -> Incident) (nSamples : Int) (anomalyRate : ℚ) :
    Except PyError (List Dict) := do
  let nAnom := anomalyCount nSamples anomalyRate
  let normal := (List.range (nSamples - nAnom).toNat).map fun i => generateNormalTransaction (draws i)
  let anomalous ← collect incidents nAnom 0 0
  sortByTime (normal ++ anomalous)

/-! ## The transactions of a stream -/

/-- A transaction of the bank with its body and its labels. -/
structure Event where
  txn : Dict
  body : Body
  anomalous : Bool
  kind : String
  carries : Carries txn body
  label : Dict.find txn "ground_truth_anomaly" = some (.bool anomalous)
  labelled : Dict.find txn "ground_truth_type" = some (Json.text kind)

def normalEvent (draw : NormalDraw) : Event where
  txn := generateNormalTransaction draw
  body := draw.body
  anomalous := false
  kind := "NONE"
  carries := carries_normal draw
  label := by simp [generateNormalTransaction]
  labelled := by simp [generateNormalTransaction]

/-- No anomaly rewrites its labels. -/
theorem find_twist {txn : Dict} {key : String} (label : key = "ground_truth_anomaly" ∨ key = "ground_truth_type")
    (twist : Twist) : Dict.find (twist.apply txn) key = Dict.find txn key := by
  rcases label with rfl | rfl
  all_goals
    cases twist with
    | sanctionsAdjacent pool pool_mem own own_mem side drawn =>
        cases side <;> simp [Twist.apply, Dict.find_set]
    | _ => simp [Twist.apply, Dict.find_set, find_setMetadata]

def anomalousEvent (draw : NormalDraw) (uuid : String) (twist : Twist) : Event where
  txn := generateAnomalousTransaction draw uuid twist
  body := anomalousBody draw uuid twist
  anomalous := true
  kind := twist.name
  carries := carries_anomalous draw uuid twist
  label := by
    unfold generateAnomalousTransaction
    rw [find_twist (Or.inl rfl)]
    simp [Dict.find_set]
  labelled := by
    unfold generateAnomalousTransaction
    rw [find_twist (Or.inr rfl)]
    simp [Dict.find_set]

/-- The body of one transaction of a burst, of which the first one is at this time. -/
def Incident.legBody (incident : Incident) (i : Fin incident.size) : Body :=
  { (incident.leg i).draw.body with
    id := txnIdOf "TXN-ANOM-" 12 (incident.leg i).uuid
    account := (anomalousBody incident.draw incident.uuid incident.twist).account
    timestampNs := diurnalTimestamp incident.draw + i.val * (incident.leg i).gap * 1000000000
    id_ne := txnIdOf_ne (by decide) _ _
    dated := by
      have base := diurnalTimestamp_range incident.draw
      have gap := (incident.leg i).range
      have place : (i.val : Int) ≤ 14 := by
        have inside := i.isLt
        have many := incident.many.2
        omega
      have least : 0 ≤ (i.val : Int) * (incident.leg i).gap := mul_nonneg (Int.natCast_nonneg _) (by omega)
      have most : (i.val : Int) * (incident.leg i).gap ≤ 14 * 90 :=
        mul_le_mul place gap.2 (by omega) (by decide)
      constructor <;> omega }

def Incident.legEvent (incident : Incident) (i : Fin incident.size) : Event where
  txn := (incident.leg i).transaction (Json.text (anomalousBody incident.draw incident.uuid incident.twist).account)
    (diurnalTimestamp incident.draw) i.val
  body := incident.legBody i
  anomalous := true
  kind := "velocity_burst"
  carries := by
    rcases carries_normal (incident.leg i).draw with ⟨id, _, counterparty, amountCents, amount, currency, txnType, _⟩
    constructor <;> simp [SpacedLeg.transaction, Incident.legBody, Dict.find_set, *]
  label := by simp [SpacedLeg.transaction, Dict.find_set]
  labelled := by simp [SpacedLeg.transaction, Dict.find_set]

/-- What a pass appends. -/
def Incident.entries (incident : Incident) : List Event :=
  if incident.twist.name = "velocity_burst" then List.ofFn incident.legEvent
  else [anomalousEvent incident.draw incident.uuid incident.twist]

theorem requireInt_of_find {txn : Dict} {key : String} {value : Int} (found : Dict.find txn key = some (.int value)) :
    requireInt txn key = .ok value := by
  unfold requireInt
  rw [Dict.require_eq_ok_iff.mpr found]
  rfl

/-- Only a burst has the name of one. -/
theorem timestampNs_of_burst {draw : NormalDraw} {uuid : String} {twist : Twist}
    (burst : twist.name = "velocity_burst") :
    (anomalousBody draw uuid twist).timestampNs = diurnalTimestamp draw := by
  cases twist with
  | velocityBurst index => rfl
  | _ => simp [Twist.name] at burst

theorem Incident.events_eq (incident : Incident) : incident.events = .ok (incident.entries.map Event.txn) := by
  have carries := carries_anomalous incident.draw incident.uuid incident.twist
  unfold Incident.events Incident.entries
  dsimp only
  split
  · next burst =>
      rw [requireInt_of_find carries.timestampNs, Dict.require_eq_ok_iff.mpr carries.account,
        timestampNs_of_burst burst, List.map_ofFn]
      rfl
  · rfl

theorem Incident.length_entries (incident : Incident) :
    1 ≤ incident.entries.length ∧ incident.entries.length ≤ 15 := by
  have many := incident.many
  unfold Incident.entries
  split
  · rw [List.length_ofFn]
    omega
  · rw [List.length_singleton]
    omega

theorem Incident.anomalous_of_mem {incident : Incident} {event : Event} (member : event ∈ incident.entries) :
    event.anomalous = true := by
  unfold Incident.entries at member
  split at member
  · rcases List.mem_ofFn.mp member with ⟨i, rfl⟩
    rfl
  · rw [List.mem_singleton] at member
    rw [member]
    rfl

/-! ## The order of a stream -/

/-- What the passes with these numbers append. -/
def entriesOf (incidents : Nat -> Incident) (pass count : Nat) : List Event :=
  (List.range' pass count).flatMap fun own => (incidents own).entries

/-- The loop makes as many passes as it needs to emit enough, and stops after the one that
does. -/
theorem collect_spec (incidents : Nat -> Incident) (nAnom : Int) (pass emitted : Nat) :
    ∃ count, collect incidents nAnom pass emitted = .ok ((entriesOf incidents pass count).map Event.txn) ∧
      nAnom ≤ emitted + (entriesOf incidents pass count).length ∧
      ((entriesOf incidents pass count).length : Int) ≤ max 0 (nAnom - emitted + 14) := by
  induction pass, emitted using collect.induct incidents nAnom with
  | case1 pass emitted more error own =>
      rw [Incident.events_eq] at own
      cases own
  | case2 pass emitted more events own _ inductionHypothesis =>
      rcases inductionHypothesis with ⟨count, collected, enough, few⟩
      rw [Incident.events_eq, Except.ok.injEq] at own
      have entries : entriesOf incidents pass (count + 1) =
          (incidents pass).entries ++ entriesOf incidents (pass + 1) count := by
        rw [entriesOf, List.range'_succ, List.flatMap_cons]
        rfl
      have length : events.length = (incidents pass).entries.length := by rw [← own, List.length_map]
      have size := (incidents pass).length_entries
      refine ⟨count + 1, ?_, ?_, ?_⟩
      · rw [collect, if_pos more]
        split
        · next error raised =>
            rw [Incident.events_eq] at raised
            cases raised
        · next found appended =>
            rw [Incident.events_eq, Except.ok.injEq] at appended
            cases own.symm.trans appended
            rw [collected, entries, List.map_append, own]
            rfl
      · rw [entries, List.length_append]
        omega
      · rw [entries, List.length_append]
        omega
  | case3 pass emitted done =>
      refine ⟨0, ?_, ?_, ?_⟩
      · rw [collect, if_neg done]
        rfl
      · omega
      · exact le_max_left _ _

theorem sortByTime_spec (entries : List Event) :
    ∃ sorted : List Event, sortByTime (entries.map Event.txn) = .ok (sorted.map Event.txn) ∧ sorted.Perm entries ∧
      sorted.Pairwise fun early late => early.body.timestampNs ≤ late.body.timestampNs := by
  let le := fun a b : Event => decide (a.body.timestampNs ≤ b.body.timestampNs)
  have times : (entries.map Event.txn).mapM (fun event => requireInt event "timestamp_ns") =
      .ok (entries.map fun event => event.body.timestampNs) := by
    induction entries with
    | nil => rfl
    | cons event rest inductionHypothesis =>
        rw [List.map_cons, List.mapM_cons, inductionHypothesis, requireInt_of_find event.carries.timestampNs]
        rfl
  refine ⟨entries.mergeSort le, ?_, List.mergeSort_perm entries le, pairwise_mergeSort_key _ entries⟩
  have keyed := List.map_mergeSort (r := le) (s := fun a b : Int × Dict => decide (a.1 ≤ b.1))
    (f := fun event : Event => (event.body.timestampNs, event.txn)) (l := entries) fun _ _ _ _ => rfl
  unfold sortByTime
  rw [times]
  dsimp only [bind, Except.bind, pure, Except.pure]
  rw [List.zip_map', ← keyed, List.map_map]
  rfl

/-- The numbers of the transactions of a stream. -/
def normalCount (nSamples : Int) (anomalyRate : ℚ) : Nat := (nSamples - anomalyCount nSamples anomalyRate).toNat

/-- What a stream consists of: normal transactions, and what so many passes have appended, in
the order of their times. -/
structure Streamed (draws : Nat -> NormalDraw) (incidents : Nat -> Incident) (nSamples : Int) (anomalyRate : ℚ)
    (passes : Nat) (stream : List Event) : Prop where
  content : stream.Perm (((List.range (normalCount nSamples anomalyRate)).map fun i => normalEvent (draws i)) ++
    entriesOf incidents 0 passes)
  ordered : stream.Pairwise fun early late => early.body.timestampNs ≤ late.body.timestampNs
  enough : anomalyCount nSamples anomalyRate ≤ (entriesOf incidents 0 passes).length
  few : ((entriesOf incidents 0 passes).length : Int) ≤ max 0 (anomalyCount nSamples anomalyRate + 14)

theorem buildStream_spec (draws : Nat -> NormalDraw) (incidents : Nat -> Incident) (nSamples : Int)
    (anomalyRate : ℚ) :
    ∃ passes stream, buildStream draws incidents nSamples anomalyRate = .ok (stream.map Event.txn) ∧
      Streamed draws incidents nSamples anomalyRate passes stream := by
  rcases collect_spec incidents (anomalyCount nSamples anomalyRate) 0 0 with ⟨passes, collected, enough, few⟩
  rcases sortByTime_spec (((List.range (normalCount nSamples anomalyRate)).map fun i => normalEvent (draws i)) ++
    entriesOf incidents 0 passes) with ⟨stream, sorted, content, ordered⟩
  refine ⟨passes, stream, ?_, content, ordered, by omega, by omega⟩
  rw [← sorted, List.map_append, List.map_map]
  unfold buildStream
  dsimp only
  rw [collected]
  rfl

end Training
end ZeroAudit
