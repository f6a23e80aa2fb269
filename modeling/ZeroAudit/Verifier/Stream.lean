import ZeroAudit.Foundation.SeenSet
import ZeroAudit.Verifier.Verdicts

namespace ZeroAudit
namespace Api

open Foundation Verify Kafka

/-!
# The live feed of the service (`sse_stream` in `verifier/dashboard.py`)

A connection polls the committed buffer.  Of the last 100 records it shows those
whose transaction id it has not seen, and when it has seen more than 5000 ids it
keeps 1000 of them, whichever a Python set names last.  The window is not looked
at when ids are dropped.

A poll is one step here.  Its window is taken at its start, and what happens to the
service before the next event only stamps records of the window, which changes no id.
-/

variable (P : Platform)

namespace SseStream

/-! ## Ids in a set -/

/-- A value as a set compares it: booleans, integers and floats by their number.  The
decoder has one not-a-number, which a set finds again by its identity. -/
inductive SetKey where
  | nothing
  | number (value : PyFloat)
  | text (value : PyStr)
  deriving DecidableEq

def setKey (value : Json) : Except PyError SetKey := do
  hashable value
  return match value, value.asNumber with
    | .str own, _ => .text own
    | _, some number => .number number
    | _, none => .nothing

/-- `rec.get("txn_id")`. -/
def txnId (record : Dict) : Json := Dict.get record "txn_id" .null

/-! ## One poll -/

/-- How many records a poll looks at. -/
def WINDOW : Nat := 100

/-- More ids than this, and only some are kept. -/
def MAX_SEEN : Nat := 5000

def KEPT_SEEN : Nat := 1000

/-- `{**rec, "event": "transaction"}`. -/
def transactionEvent (record : Dict) : Dict := Dict.set record "event" (Json.text "transaction")

/-- `{"event": "stats", **stats()}`. -/
def statsEvent (figures : Dict) : Dict := (PyStr.ofString "event", Json.text "stats") :: figures

/-- The loop over the window, up to the first id that cannot be hashed. -/
def announce (seen : List SetKey) : List Dict -> List Dict × Except PyError Unit × List SetKey
  | [] => ([], .ok (), seen)
  | record :: rest =>
      if !(txnId record).truthy then announce seen rest
      else
        match setKey (txnId record) with
        | .error error => ([], .error error, seen)
        | .ok key =>
            if key ∈ seen then announce seen rest
            else
              let later := announce (seen ++ [key]) rest
              (transactionEvent record :: later.1, later.2)

/-- One turn of the generator: what it yields, and what it has seen afterwards.  `stats()`
gives its figures or raises. -/
def turn (enumeration : SeenSet.Enumeration SetKey) (figures : Except PyError Dict) (seen : List SetKey)
    (window : List Dict) : List Dict × List SetKey :=
  match announce seen window with
  | (events, .error _, seen) => (events, seen)
  | (events, .ok _, seen) =>
      let seen := SeenSet.trim MAX_SEEN KEPT_SEEN enumeration seen
      match figures with
      | .error _ => (events, seen)
      | .ok figures => (events ++ [statsEvent figures], seen)

/-! ## A connection -/

/-- The service, and what one connection to it has seen in how many polls. -/
structure Connection where
  board : Dashboard
  seen : List SetKey
  polls : Nat

/-- Something happens to the service, or the generator polls it. -/
inductive Step where
  | act (action : Dashboard.Action)
  | poll (figures : Except PyError Dict)

/-- A connection to the service right after startup.  What happens before it is opened
happens before its first poll. -/
def opened : Connection := ⟨.started, [], 0⟩

/-- What a step yields, where each poll has its own enumeration. -/
def step (enumerations : Nat -> SeenSet.Enumeration SetKey) :
    Connection -> Step -> List Dict × Connection
  | connection, .act action =>
      ([], { connection with board := (Dashboard.act P connection.board action).2 })
  | connection, .poll figures =>
      let polled := turn (enumerations connection.polls) figures connection.seen
        (connection.board.committed WINDOW)
      (polled.1, { connection with seen := polled.2, polls := connection.polls + 1 })

/-- Everything that a connection is sent. -/
def events (enumerations : Nat -> SeenSet.Enumeration SetKey) (schedule : List Step) : List Dict :=
  (Machine.run (step P enumerations) opened schedule).1.flatten

/-- The id that a transaction event shows. -/
def shownId (event : Dict) : Option SetKey :=
  if (Dict.get event "event" .null).eqStr (PyStr.ofString "transaction") then
    (setKey (txnId event)).toOption
  else none

/-! ## What the polls are offered -/

/-- The ids that a poll considers, and whether it gets through its window. -/
def offered : List Json -> SeenSet.Offer SetKey
  | [] => ⟨[], true⟩
  | id :: rest =>
      if !id.truthy then offered rest
      else
        match setKey id with
        | .error _ => ⟨[], false⟩
        | .ok key =>
            let later := offered rest
            ⟨key :: later.items, later.complete⟩

/-- The ids of the last records that came to the committed buffer. -/
def window (actions : List Dashboard.Action) : List Json :=
  let records := actions.filterMap (brings P)
  (records.drop (records.length - WINDOW)).map txnId

/-- What the polls of a schedule are offered, after some actions. -/
def offersFrom (earlier : List Dashboard.Action) : List Step -> List (SeenSet.Offer SetKey)
  | [] => []
  | .act action :: rest => offersFrom (earlier ++ [action]) rest
  | .poll _ :: rest => offered (window P earlier) :: offersFrom earlier rest

def offers (schedule : List Step) : List (SeenSet.Offer SetKey) := offersFrom P [] schedule

/-! ## One poll as a round of the filter -/

theorem shownId_transactionEvent (record : Dict) :
    shownId (transactionEvent record) = (setKey (txnId record)).toOption := by
  have named : Dict.get (transactionEvent record) "event" .null = Json.text "transaction" := by
    unfold transactionEvent
    rw [Dict.get, Dict.find_set, if_pos rfl, Option.getD_some]
  have same : txnId (transactionEvent record) = txnId record := by
    unfold txnId transactionEvent
    rw [Dict.get, Dict.find_set, if_neg (by decide), Dict.get]
  have isTransaction : (Json.text "transaction").eqStr (PyStr.ofString "transaction") = true := by decide
  rw [shownId, named, isTransaction, if_pos rfl, same]

theorem shownId_statsEvent (figures : Dict) : shownId (statsEvent figures) = none := by
  have named : Dict.get (statsEvent figures) "event" .null = Json.text "stats" := by
    unfold statsEvent
    rw [Dict.get, Dict.find_cons_ofString, if_pos rfl, Option.getD_some]
  have isStats : (Json.text "stats").eqStr (PyStr.ofString "transaction") = false := by decide
  rw [shownId, named, isStats, if_neg Bool.false_ne_true]

/-- The loop shows the ids that a filter lets pass. -/
theorem announce_spec (seen : List SetKey) (records : List Dict) :
    (announce seen records).1.filterMap shownId =
        (SeenSet.sift seen (offered (records.map txnId)).items).1 ∧
      (announce seen records).2.1.isOk = (offered (records.map txnId)).complete ∧
      (announce seen records).2.2 = (SeenSet.sift seen (offered (records.map txnId)).items).2 := by
  induction records generalizing seen with
  | nil => exact ⟨rfl, rfl, rfl⟩
  | cons record rest inductionHypothesis =>
      rw [List.map_cons]
      unfold announce offered
      cases named : (txnId record).truthy with
      | false => exact inductionHypothesis seen
      | true =>
          rw [Bool.not_true, if_neg Bool.false_ne_true, if_neg Bool.false_ne_true]
          cases hashed : setKey (txnId record) with
          | error error => exact ⟨rfl, rfl, rfl⟩
          | ok key =>
              dsimp only
              rw [SeenSet.sift]
              by_cases known : key ∈ seen
              · rw [if_pos known, if_pos known]
                exact inductionHypothesis seen
              · rw [if_neg known, if_neg known]
                have later := inductionHypothesis (seen ++ [key])
                refine ⟨?_, later.2⟩
                have shown : shownId (transactionEvent record) = some key := by
                  rw [shownId_transactionEvent, hashed]
                  rfl
                rw [List.filterMap_cons_some shown, later.1]

theorem turn_spec (enumeration : SeenSet.Enumeration SetKey) (figures : Except PyError Dict)
    (seen : List SetKey) (records : List Dict) :
    (turn enumeration figures seen records).1.filterMap shownId =
        (SeenSet.round MAX_SEEN KEPT_SEEN enumeration seen (offered (records.map txnId))).1 ∧
      (turn enumeration figures seen records).2 =
        (SeenSet.round MAX_SEEN KEPT_SEEN enumeration seen (offered (records.map txnId))).2 := by
  rcases announce_spec seen records with ⟨shown, complete, after⟩
  unfold turn SeenSet.round
  rcases announced : announce seen records with ⟨own, error | _, later⟩
  · rw [announced] at shown complete after
    dsimp only at shown after ⊢
    rw [← complete, ← after]
    exact ⟨shown, rfl⟩
  · rw [announced] at shown complete after
    dsimp only at shown after ⊢
    rw [← complete, ← after]
    cases figures with
    | error error => exact ⟨shown, rfl⟩
    | ok figures =>
        refine ⟨?_, rfl⟩
        dsimp only
        rw [List.filterMap_append, shown, List.filterMap_cons_none (shownId_statsEvent figures),
          List.filterMap_nil, List.append_nil]

/-! ## The window of a poll -/

/-- The verdict that is written on a record does not change its id. -/
theorem txnId_unstamped (record : Dict) : txnId (Dashboard.unstamped record) = txnId record := by
  unfold txnId Dashboard.unstamped
  rw [Dict.get, Dict.find_without record (by decide), Dict.get]

theorem map_txnId_unstamped (records : List Dict) :
    (records.map Dashboard.unstamped).map txnId = records.map txnId := by
  rw [List.map_map]
  exact List.map_congr_left fun record _ => txnId_unstamped record

theorem map_record_consumedFrom (earlier actions : List Dashboard.Action) :
    (consumedFrom P earlier actions).map Consumed.record = actions.filterMap (brings P) := by
  induction actions generalizing earlier with
  | nil => rfl
  | cons action rest inductionHypothesis =>
      unfold consumedFrom
      rw [List.filterMap_cons]
      cases brought : brings P action with
      | none => exact inductionHypothesis _
      | some record =>
          dsimp only
          rw [List.map_cons, inductionHypothesis]

/-- A poll looks at the last records that came to the committed buffer. -/
theorem map_txnId_committed (actions : List Dashboard.Action) :
    ((Dashboard.after P actions).committed WINDOW).map txnId = window P actions := by
  rcases Option.isSome_iff_exists.mp (Dashboard.isSome_consumer_after P actions) with ⟨consumer, own⟩
  have held := congrArg (List.map txnId) (Dashboard.held_after P actions own)
  have records : (consumed P actions).map (fun place => Dashboard.unstamped place.record) =
      (actions.filterMap (brings P)).map Dashboard.unstamped := by
    rw [← map_record_consumedFrom P [], List.map_map]
    rfl
  rw [map_txnId_unstamped, records, List.map_drop, map_txnId_unstamped, List.length_map] at held
  have size := congrArg List.length held
  rw [List.length_map, List.length_drop, List.length_map] at size
  unfold Dashboard.committed VerifierKafkaConsumer.recentCommitted window
  rw [own]
  dsimp only
  rw [RingBuffer.snapshot, List.map_drop, held, List.drop_drop, List.map_drop]
  congr 1
  unfold RingBuffer.start
  unfold BUFFER_SIZE at size ⊢
  unfold WINDOW
  rw [if_neg (by decide), size]
  omega

/-! ## All polls of a connection -/

/-- The ids that are shown are those that a filter lets pass of what it is offered. -/
theorem shown_run (enumerations : Nat -> SeenSet.Enumeration SetKey) {earlier : List Dashboard.Action}
    {connection : Connection} (current : connection.board = Dashboard.after P earlier)
    (schedule : List Step) :
    (Machine.run (step P enumerations) connection schedule).1.flatten.filterMap shownId =
      SeenSet.passed MAX_SEEN KEPT_SEEN enumerations connection.polls connection.seen
        (offersFrom P earlier schedule) := by
  induction schedule generalizing earlier connection with
  | nil => rfl
  | cons next rest inductionHypothesis =>
      rw [Machine.run_cons, List.flatten_cons, List.filterMap_append]
      cases next with
      | act action =>
          have later : (step P enumerations connection (.act action)).2.board =
              Dashboard.after P (earlier ++ [action]) := by
            rw [Dashboard.after_append, ← current]
            rfl
          rw [inductionHypothesis later]
          rfl
      | poll figures =>
          have polled := turn_spec (enumerations connection.polls) figures connection.seen
            (connection.board.committed WINDOW)
          rw [current, map_txnId_committed] at polled
          have same : (step P enumerations connection (.poll figures)).2.board =
              Dashboard.after P earlier := current
          rw [inductionHypothesis same, offersFrom, SeenSet.passed]
          unfold step
          dsimp only
          rw [current, polled.1, polled.2]

theorem shown_eq_passed (enumerations : Nat -> SeenSet.Enumeration SetKey) (schedule : List Step) :
    (events P enumerations schedule).filterMap shownId =
      SeenSet.passed MAX_SEEN KEPT_SEEN enumerations 0 [] (offers P schedule) :=
  shown_run P enumerations (show opened.board = Dashboard.after P [] from rfl) schedule

/-- Whatever order a set is enumerated in, no id is shown twice.  This is so exactly if no
poll considers an id that was considered up to the last time ids were dropped. -/
theorem shown_once_iff_clear (schedule : List Step) :
    (∀ enumerations, ((events P enumerations schedule).filterMap shownId).Nodup) ↔
      SeenSet.Clear MAX_SEEN KEPT_SEEN .start (offers P schedule) := by
  have keeps : KEPT_SEEN ≤ MAX_SEEN := by decide
  rw [← SeenSet.nodup_passed_iff_clear keeps]
  apply forall_congr'
  intro enumerations
  rw [shown_eq_passed]

/-- A connection whose polls consider at most 5000 ids shows none of them twice. -/
theorem shown_once_of_few {schedule : List Step}
    (few : ((offers P schedule).flatMap SeenSet.Offer.items).toFinset.card ≤ MAX_SEEN)
    (enumerations : Nat -> SeenSet.Enumeration SetKey) :
    ((events P enumerations schedule).filterMap shownId).Nodup := by
  have keeps : KEPT_SEEN ≤ MAX_SEEN := by decide
  rw [shown_eq_passed]
  have clear := (SeenSet.clear_of_few KEPT_SEEN few).1
  exact (SeenSet.nodup_passed keeps clear SeenSet.agrees_start enumerations 0).1

/-! ## A poll after 5100 records -/

def Step.action : Step -> Option Dashboard.Action
  | .act action => some action
  | .poll _ => none

/-- The actions of a schedule. -/
def actionsOf (schedule : List Step) : List Dashboard.Action := schedule.filterMap Step.action

theorem actionsOf_acts (actions : List Dashboard.Action) : actionsOf (actions.map .act) = actions := by
  unfold actionsOf
  rw [List.filterMap_map]
  exact List.filterMap_some

theorem offersFrom_acts (earlier actions : List Dashboard.Action) :
    offersFrom P earlier (actions.map .act) = [] := by
  induction actions generalizing earlier with
  | nil => rfl
  | cons action rest inductionHypothesis => exact inductionHypothesis (earlier ++ [action])

theorem offersFrom_append (earlier : List Dashboard.Action) (first second : List Step) :
    offersFrom P earlier (first ++ second) =
      offersFrom P earlier first ++ offersFrom P (earlier ++ actionsOf first) second := by
  induction first generalizing earlier with
  | nil => simp [offersFrom, actionsOf]
  | cons next rest inductionHypothesis =>
      rw [List.cons_append]
      cases next with
      | act action =>
          rw [offersFrom, inductionHypothesis, offersFrom, List.append_assoc]
          rfl
      | poll figures =>
          rw [offersFrom, inductionHypothesis, offersFrom]
          rfl

/-- The id of a record in a series of them. -/
def serialId (n : Nat) : PyStr := PyStr.ofString "TXN-" ++ PyStr.decimal n

def serialRecord (n : Nat) : Dict := [(PyStr.ofString "txn_id", .str (serialId n))]

/-- The arrival of the record of this number. -/
def arrival (n : Nat) : Dashboard.Action :=
  .deliver { topic := .committed, record := .obj (serialRecord n), now := 0 }

/-- The arrivals of the records from one number on. -/
def arrivals (first count : Nat) : List Dashboard.Action :=
  (List.range count).map fun i => arrival (first + i)

/-- A hundred records arrive, then the generator polls. -/
def block (n : Nat) : List Step := (arrivals (WINDOW * n) WINDOW).map .act ++ [.poll (.ok [])]

def blocks : Nat -> List Step
  | 0 => []
  | n + 1 => blocks n ++ block n

/-- What a poll is offered when the last of the records are from one number on. -/
def serialOffer (first count : Nat) : SeenSet.Offer SetKey where
  items := (List.range count).map fun i => .text (serialId (first + i))
  complete := true

theorem serialId_injective {m n : Nat} (equal : serialId m = serialId n) : m = n :=
  Int.ofNat.inj (PyStr.decimal_injective (List.append_cancel_left equal))

theorem brings_arrival (n : Nat) : brings samplePlatform (arrival n) = some (serialRecord n) := by
  rfl

theorem txnId_serialRecord (n : Nat) : txnId (serialRecord n) = .str (serialId n) := by
  unfold txnId serialRecord
  rw [Dict.get, Dict.find_cons_ofString, if_pos rfl, Option.getD_some]

theorem arrivals_add (first count more : Nat) :
    arrivals first (count + more) = arrivals first count ++ arrivals (first + count) more := by
  unfold arrivals
  rw [List.range_add, List.map_append, List.map_map]
  congr 1
  apply List.map_congr_left
  intro i _
  exact congrArg arrival (Nat.add_assoc ..).symm

theorem actionsOf_blocks (n : Nat) : actionsOf (blocks n) = arrivals 0 (WINDOW * n) := by
  induction n with
  | zero => rfl
  | succ n inductionHypothesis =>
      have own : actionsOf (block n) = arrivals (WINDOW * n) WINDOW := by
        unfold block
        rw [actionsOf, List.filterMap_append, ← actionsOf, actionsOf_acts]
        exact List.append_nil _
      rw [blocks, actionsOf, List.filterMap_append, ← actionsOf, ← actionsOf, inductionHypothesis, own,
        Nat.mul_succ, arrivals_add, Nat.zero_add]

theorem offered_serial (first count : Nat) :
    offered ((List.range count).map fun i => .str (serialId (first + i))) = serialOffer first count := by
  unfold serialOffer
  induction List.range count with
  | nil => rfl
  | cons i rest inductionHypothesis =>
      have named : (Json.str (serialId (first + i))).truthy = true := rfl
      rw [List.map_cons, offered, named, inductionHypothesis]
      rfl

theorem ids_arrivals (first count : Nat) :
    ((arrivals first count).filterMap (brings samplePlatform)).map txnId =
      (List.range count).map fun i => .str (serialId (first + i)) := by
  have brought : (arrivals first count).filterMap (brings samplePlatform) =
      (List.range count).map fun i => serialRecord (first + i) := by
    unfold arrivals
    rw [List.filterMap_map]
    exact List.filterMap_eq_map_iff_forall_eq_some.mpr fun i _ => brings_arrival (first + i)
  rw [brought, List.map_map]
  exact List.map_congr_left fun i _ => txnId_serialRecord (first + i)

/-- After a block, the window shows the ids of the block. -/
theorem window_arrivals (n : Nat) :
    window samplePlatform (arrivals 0 (WINDOW * n + WINDOW)) =
      (List.range WINDOW).map fun i => .str (serialId (WINDOW * n + i)) := by
  have length : ((List.range (WINDOW * n)).map fun i => Json.str (serialId (0 + i))).length =
      WINDOW * n := by
    rw [List.length_map, List.length_range]
  unfold window
  dsimp only
  rw [List.map_drop, ← List.length_map txnId, ids_arrivals, List.range_add, List.map_append, List.map_map,
    List.length_append, length, List.length_map, List.length_range, Nat.add_sub_cancel,
    List.drop_left' length]
  apply List.map_congr_left
  intro i _
  exact congrArg (fun n => Json.str (serialId n)) (Nat.zero_add _)

theorem offers_blocks (n : Nat) :
    offers samplePlatform (blocks n) = (List.range n).map fun i => serialOffer (WINDOW * i) WINDOW := by
  induction n with
  | zero => rfl
  | succ n inductionHypothesis =>
      unfold offers at inductionHypothesis ⊢
      rw [blocks, offersFrom_append, inductionHypothesis, List.nil_append, actionsOf_blocks, block,
        offersFrom_append, offersFrom_acts, actionsOf_acts, List.range_succ, List.map_append]
      have whole := arrivals_add 0 (WINDOW * n) WINDOW
      rw [Nat.zero_add] at whole
      rw [← whole, offersFrom, window_arrivals, offered_serial]
      rfl

/-- The ids that are offered by the polls of the blocks. -/
theorem flatMap_items_blocks (n : Nat) :
    ((List.range n).map fun i => serialOffer (WINDOW * i) WINDOW).flatMap SeenSet.Offer.items =
      (List.range (WINDOW * n)).map fun i => .text (serialId i) := by
  induction n with
  | zero => rfl
  | succ n inductionHypothesis =>
      rw [List.range_succ, List.map_append, List.flatMap_append, inductionHypothesis, Nat.mul_succ,
        List.range_add, List.map_append, List.map_map]
      exact congrArg _ (List.append_nil _)

theorem card_blocks (n : Nat) :
    (((List.range n).map fun i => serialOffer (WINDOW * i) WINDOW).flatMap
      SeenSet.Offer.items).toFinset.card = WINDOW * n := by
  have distinct : ((List.range (WINDOW * n)).map fun i => SetKey.text (serialId i)).Nodup := by
    apply List.Nodup.map _ List.nodup_range
    intro i j equal
    exact serialId_injective (SetKey.text.inj equal)
  rw [flatMap_items_blocks, List.toFinset_card_of_nodup distinct, List.length_map, List.length_range]

/-- Of 5100 records of different ids each is polled, and then the generator polls once more. -/
def longSession : List Step := blocks 51 ++ [.poll (.ok [])]

theorem offers_longSession :
    offers samplePlatform longSession =
      ((List.range 50).map fun i => serialOffer (WINDOW * i) WINDOW) ++
        [serialOffer (WINDOW * 50) WINDOW, serialOffer (WINDOW * 50) WINDOW] := by
  have polled := offers_blocks 51
  unfold offers at polled ⊢
  have last : WINDOW * 51 = WINDOW * 50 + WINDOW := rfl
  rw [longSession, offersFrom_append, polled, List.nil_append, actionsOf_blocks, last, offersFrom,
    window_arrivals, offered_serial, offersFrom, List.range_succ, List.map_append, List.append_assoc]
  rfl

/-- The ids of these records are different, and one of the last 100 is shown twice if the
set names it first. -/
theorem shown_again_after_trim :
    (((actionsOf longSession).filterMap (brings samplePlatform)).map txnId).Nodup ∧
      ¬ ((events samplePlatform (fun _ => SeenSet.Enumeration.putFirst (.text (serialId 5099)))
        longSession).filterMap shownId).Nodup := by
  constructor
  · have all : actionsOf longSession = arrivals 0 (WINDOW * 51) := by
      rw [longSession, actionsOf, List.filterMap_append, ← actionsOf, actionsOf_blocks]
      exact List.append_nil _
    rw [all, ids_arrivals]
    apply List.Nodup.map _ List.nodup_range
    intro i j equal
    exact Nat.add_left_cancel (serialId_injective (Json.str.inj equal))
  · have member : SetKey.text (serialId 5099) ∈ (serialOffer (WINDOW * 50) WINDOW).items :=
      List.mem_map.mpr ⟨99, List.mem_range.mpr (by decide), rfl⟩
    have few := Nat.le_of_eq (card_blocks 50)
    have many := card_blocks 51
    rw [List.range_succ, List.map_append, List.map_singleton] at many
    rw [shown_eq_passed, offers_longSession]
    apply SeenSet.not_nodup_passed (by decide)
    exact SeenSet.returns_of_many few (by rw [many]; decide) rfl member member

end SseStream
end Api
end ZeroAudit
