import ZeroAudit.Prover.Consumer
import ZeroAudit.Verifier.Verify

namespace ZeroAudit
namespace Kafka

open Foundation Verify

/-!
# The consumer of the verifier (`verifier/kafka_client/consumer.py`)

A delivered record passes one gate, its `pii_bytes` field.  It then enters the
metrics, which may raise on its timestamp, and is kept in the ring buffer of
its topic before any callback sees it.  What is kept is therefore decided by
the record and its topic alone, and no verdict changes it.
-/

variable (P : Platform)

/-! ## Ring buffers -/

/-- Bounded, newest last. -/
structure RingBuffer (maxlen : Nat) where
  items : List Dict
  bounded : items.length ≤ maxlen

/-- Update records in place, up to the first that raises. -/
def visit (update : Dict -> Except PyError Dict) : List Dict -> Except PyError Unit × List Dict
  | [] => (.ok (), [])
  | record :: rest =>
      match update record with
      | .error error => (.error error, record :: rest)
      | .ok updated =>
          let later := visit update rest
          (later.1, updated :: later.2)

theorem length_visit (update : Dict -> Except PyError Dict) (records : List Dict) :
    (visit update records).2.length = records.length := by
  induction records with
  | nil => rfl
  | cons record rest inductionHypothesis =>
      rw [visit]
      split
      · rfl
      · simp [inductionHypothesis]

theorem forall_visit {good : Dict -> Prop} {update : Dict -> Except PyError Dict}
    (keeps : ∀ record updated, update record = .ok updated -> good record -> good updated)
    {records : List Dict} (before : ∀ record ∈ records, good record) :
    ∀ record ∈ (visit update records).2, good record := by
  induction records with
  | nil => exact before
  | cons record rest inductionHypothesis =>
      rw [List.forall_mem_cons] at before
      rw [visit]
      cases updates : update record with
      | error error => exact List.forall_mem_cons.mpr before
      | ok updated =>
          exact List.forall_mem_cons.mpr
            ⟨keeps record updated updates before.1, inductionHypothesis before.2⟩

/-- Updates that leave a view of a record alone leave it alone in a list. -/
theorem map_visit {V : Type} {view : Dict -> V} {update : Dict -> Except PyError Dict}
    (keeps : ∀ record updated, update record = .ok updated -> view updated = view record)
    (records : List Dict) : (visit update records).2.map view = records.map view := by
  induction records with
  | nil => rfl
  | cons record rest inductionHypothesis =>
      rw [visit]
      cases updates : update record with
      | error error => rfl
      | ok updated =>
          dsimp only
          rw [List.map_cons, List.map_cons, keeps record updated updates, inductionHypothesis]

/-- Without an exception every record was updated. -/
theorem forall₂_visit {update : Dict -> Except PyError Dict} {records : List Dict}
    (fine : (visit update records).1 = .ok ()) :
    List.Forall₂ (fun record updated => update record = .ok updated) records (visit update records).2 := by
  induction records with
  | nil => exact .nil
  | cons record rest inductionHypothesis =>
      rw [visit] at fine ⊢
      cases updates : update record with
      | error error =>
          rw [updates] at fine
          cases fine
      | ok updated =>
          rw [updates] at fine
          exact .cons updates (inductionHypothesis fine)

namespace RingBuffer

variable {maxlen : Nat} (buffer : RingBuffer maxlen)

def empty : RingBuffer maxlen := ⟨[], Nat.zero_le maxlen⟩

def push (item : Dict) : RingBuffer maxlen where
  items := (buffer.items ++ [item]).drop (buffer.items.length + 1 - maxlen)
  bounded := by
    rw [List.length_drop, List.length_append, List.length_singleton]
    omega

/-- Where the slice `items[-n:]` starts.  Zero is falsy and asks for everything. -/
def start (n : Int) : Nat :=
  if n ≤ 0 then n.natAbs else buffer.items.length - n.natAbs

def snapshot (n : Int) : List Dict := buffer.items.drop (buffer.start n)

/-- The records of a snapshot are the buffered ones, so that writing to them
writes to the buffer. -/
def revise (n : Int) (update : Dict -> Except PyError Dict) :
    Except PyError Unit × RingBuffer maxlen :=
  let visited := visit update (buffer.snapshot n)
  (visited.1,
    { items := buffer.items.take (buffer.start n) ++ visited.2
      bounded := by
        have bounded := buffer.bounded
        rw [List.length_append, length_visit, snapshot, List.length_take, List.length_drop]
        omega })

/-- A buffer that is not full drops nothing. -/
theorem items_push_of_lt (room : buffer.items.length < maxlen) (item : Dict) :
    (buffer.push item).items = buffer.items ++ [item] := by
  show (buffer.items ++ [item]).drop (buffer.items.length + 1 - maxlen) = _
  rw [Nat.sub_eq_zero_of_le room, List.drop_zero]

/-- Nothing but the pushed record enters. -/
theorem mem_push {item record : Dict} (member : record ∈ (buffer.push item).items) :
    record ∈ buffer.items ∨ record = item := by
  have kept := List.mem_of_mem_drop member
  rwa [List.mem_append, List.mem_singleton] at kept

/-- A buffer with room for one record holds the pushed one. -/
theorem pushed_mem (room : 0 < maxlen) (item : Dict) : item ∈ (buffer.push item).items := by
  have early : buffer.items.length + 1 - maxlen ≤ buffer.items.length := by omega
  have kept : (buffer.push item).items =
      buffer.items.drop (buffer.items.length + 1 - maxlen) ++ [item] :=
    List.drop_append_of_le_length early
  rw [kept]
  exact List.mem_append_right _ (List.mem_singleton_self item)

theorem mem_of_mem_snapshot {n : Int} {record : Dict} (member : record ∈ buffer.snapshot n) :
    record ∈ buffer.items :=
  List.mem_of_mem_drop member

/-- A buffer whose records all have a property keeps it over a push exactly if
the new record has it. -/
theorem forall_push_iff {good : Dict -> Prop} (room : 0 < maxlen)
    (before : ∀ record ∈ buffer.items, good record) (item : Dict) :
    (∀ record ∈ (buffer.push item).items, good record) ↔ good item := by
  constructor
  · intro after
    exact after item (buffer.pushed_mem room item)
  · intro fine record member
    rcases buffer.mem_push member with old | rfl
    · exact before record old
    · exact fine

/-- Updates that keep a property of a record keep it for a buffer. -/
theorem forall_revise {good : Dict -> Prop} {update : Dict -> Except PyError Dict}
    (keeps : ∀ record updated, update record = .ok updated -> good record -> good updated)
    (n : Int) (before : ∀ record ∈ buffer.items, good record) :
    ∀ record ∈ (buffer.revise n update).2.items, good record := by
  intro record member
  rcases List.mem_append.mp member with old | visited
  · exact before record (List.mem_of_mem_take old)
  · exact forall_visit keeps (fun record member => before record (buffer.mem_of_mem_snapshot member))
      record visited

/-- A buffer holds the last of what was pushed: after one more, it holds the last
of that. -/
theorem push_items_map {V : Type} {view : Dict -> V} {pushed : List V}
    (held : buffer.items.map view = pushed.drop (pushed.length - maxlen)) (item : Dict) :
    (buffer.push item).items.map view =
      (pushed ++ [view item]).drop ((pushed ++ [view item]).length - maxlen) := by
  have size := congrArg List.length held
  rw [List.length_map, List.length_drop] at size
  have bounded := buffer.bounded
  simp only [push, List.map_drop, List.map_append, List.map_singleton, held, List.length_append,
    List.length_singleton]
  rw [← List.drop_append_of_le_length (by omega), List.drop_drop]
  congr 1
  omega

theorem revise_items_map {V : Type} {view : Dict -> V} {update : Dict -> Except PyError Dict}
    (keeps : ∀ record updated, update record = .ok updated -> view updated = view record) (n : Int) :
    (buffer.revise n update).2.items.map view = buffer.items.map view := by
  simp only [revise, List.map_append, map_visit keeps]
  rw [← List.map_append, snapshot, List.take_append_drop]

/-- Reading again what was updated gives the updated records. -/
theorem snapshot_revise (n : Int) (update : Dict -> Except PyError Dict) :
    (buffer.revise n update).2.snapshot n = (visit update (buffer.snapshot n)).2 := by
  have length : (buffer.revise n update).2.items.length = buffer.items.length := by
    simp only [revise, List.length_append, length_visit, snapshot]
    rw [← List.length_append, List.take_append_drop]
  have start : (buffer.revise n update).2.start n = buffer.start n := by
    unfold RingBuffer.start
    rw [length]
  rw [snapshot, start]
  simp only [revise]
  by_cases short : buffer.start n ≤ buffer.items.length
  · exact List.drop_left' (List.length_take_of_le short)
  · have nothing : buffer.snapshot n = [] := List.drop_eq_nil_of_le (by omega)
    rw [nothing]
    simp only [visit, List.append_nil]
    exact List.drop_eq_nil_of_le ((List.length_take_le ..).trans (by omega))

end RingBuffer

/-! ## State -/

structure Stats where
  committedReceived : Nat
  anomaliesReceived : Nat
  verificationFailures : Nat
  errors : Nat
  lagMs : PyFloat
  lastEventNs : Int

structure VerifierKafkaConsumer (bufferSize : Nat) where
  committedBuffer : RingBuffer bufferSize
  anomalyBuffer : RingBuffer bufferSize
  /-- Times of consumption. -/
  events : List ℚ
  /-- Records for each second of the epoch. -/
  perSecond : List (Int × Nat)
  stats : Stats

/-- The buffer size where none is given. -/
def BUFFER_SIZE : Nat := 500

def MAX_EVENTS : Nat := 20000

/-- The callbacks of a consumer, which act on a state of their own. -/
structure Callbacks (W : Type) where
  onCommitted : Option (W -> Dict -> Except PyError Report × W)
  onAnomaly : Option (W -> Dict -> Except PyError Unit × W)

/-- One message of a poll, and the clock when it is handled. -/
structure Delivery where
  topic : Consumer.Topic
  record : Json
  now : ℚ

namespace VerifierKafkaConsumer

variable {bufferSize : Nat} (consumer : VerifierKafkaConsumer bufferSize)

def new (bufferSize : Nat) : VerifierKafkaConsumer bufferSize :=
  { committedBuffer := .empty
    anomalyBuffer := .empty
    events := []
    perSecond := []
    stats := ⟨0, 0, 0, 0, .zero, 0⟩ }

def countError : VerifierKafkaConsumer bufferSize :=
  { consumer with stats := { consumer.stats with errors := consumer.stats.errors + 1 } }

/-- `self._per_second[second] += 1` on a default dictionary. -/
def bumpSecond (second : Int) : List (Int × Nat) -> List (Int × Nat)
  | [] => [(second, 1)]
  | (own, count) :: rest =>
      if own = second then (own, count + 1) :: rest else (own, count) :: bumpSecond second rest

/-- Take one consumption into the throughput metrics. -/
def tick (now : ℚ) : VerifierKafkaConsumer bufferSize :=
  let events := consumer.events ++ [now]
  let cutoff := ⌊now⌋ - 120
  { consumer with
    events := events.drop (events.length - MAX_EVENTS)
    perSecond := (bumpSecond ⌊now⌋ consumer.perSecond).filter fun entry => decide (cutoff ≤ entry.1) }

/-- Take the event time of a record into the lag metrics. -/
def measureLag (now : ℚ) (record : Dict) :
    Except PyError Unit × VerifierKafkaConsumer bufferSize :=
  match P.int (Dict.get record "timestamp_ns" (.int 0)) with
  | .error error => (.error error, consumer)
  | .ok tsNs =>
      if tsNs = 0 then (.ok (), consumer)
      else
        let consumer := { consumer with stats := { consumer.stats with lastEventNs := tsNs } }
        match PyFloat.ofInt tsNs with
        | .error error => (.error error, consumer)
        | .ok _ =>
            let lagMs := (PyFloat.finite (max (now * 10 ^ 9 - tsNs) 0 / 10 ^ 6)).round 1
            (.ok (), { consumer with stats := { consumer.stats with lagMs } })

/-! ## One record -/

section Callback

variable {W : Type} (callbacks : Callbacks W)

/-- Keep a committed record, then run its callback. -/
def keepCommitted (world : W) (record : Dict) :
    Except PyError Unit × VerifierKafkaConsumer bufferSize × W :=
  let consumer :=
    { consumer with
      committedBuffer := consumer.committedBuffer.push record
      stats := { consumer.stats with committedReceived := consumer.stats.committedReceived + 1 } }
  match callbacks.onCommitted with
  | none => (.ok (), consumer, world)
  | some onCommitted =>
      match onCommitted world record with
      | (.error error, world) => (.error error, consumer, world)
      | (.ok report, world) =>
          if report.verified then (.ok (), consumer, world)
          else
            let failures := consumer.stats.verificationFailures + 1
            (.ok (), { consumer with stats := { consumer.stats with verificationFailures := failures } },
              world)

/-- Keep a quarantined record, then run its callback. -/
def keepAnomaly (world : W) (record : Dict) :
    Except PyError Unit × VerifierKafkaConsumer bufferSize × W :=
  let consumer :=
    { consumer with
      anomalyBuffer := consumer.anomalyBuffer.push record
      stats := { consumer.stats with anomaliesReceived := consumer.stats.anomaliesReceived + 1 } }
  match callbacks.onAnomaly with
  | none => (.ok (), consumer, world)
  | some onAnomaly =>
      match onAnomaly world record with
      | (.error error, world) => (.error error, consumer, world)
      | (.ok _, world) => (.ok (), consumer, world)

/-- The steps between the gate and the exception handler. -/
def accept (world : W) (topic : Consumer.Topic) (record : Dict) (now : ℚ) :
    Except PyError Unit × VerifierKafkaConsumer bufferSize × W :=
  match (consumer.tick now).measureLag P now record with
  | (.error error, consumer) => (.error error, consumer, world)
  | (.ok _, consumer) =>
      match topic with
      | .committed => consumer.keepCommitted callbacks world record
      | .anomalies => consumer.keepAnomaly callbacks world record

/-- `_process`.  Exceptions end in the error counter. -/
def process (world : W) (delivery : Delivery) : VerifierKafkaConsumer bufferSize × W :=
  match delivery.record.asDict with
  | .error _ => (consumer.countError, world)
  | .ok record =>
      if (Dict.get record "pii_bytes" (.int 0)).eqInt 0 then
        match consumer.accept P callbacks world delivery.topic record delivery.now with
        | (.error _, consumer, world) => (consumer.countError, world)
        | (.ok _, consumer, world) => (consumer, world)
      else (consumer.countError, world)

end Callback

def recentCommitted (n : Int) : List Dict := consumer.committedBuffer.snapshot n

def recentAnomalies (n : Int) : List Dict := consumer.anomalyBuffer.snapshot n

/-! ## What is kept -/

/-- The buffer of a topic. -/
def buffer : Consumer.Topic -> RingBuffer bufferSize
  | .committed => consumer.committedBuffer
  | .anomalies => consumer.anomalyBuffer

/-- Metrics do not touch the buffers. -/
theorem buffer_metrics (events : List ℚ) (perSecond : List (Int × Nat)) (stats : Stats)
    (topic : Consumer.Topic) :
    ({ consumer with events, perSecond, stats } : VerifierKafkaConsumer bufferSize).buffer topic =
      consumer.buffer topic := by
  cases topic <;> rfl

@[simp] theorem buffer_countError (topic : Consumer.Topic) :
    consumer.countError.buffer topic = consumer.buffer topic :=
  consumer.buffer_metrics _ _ _ topic

@[simp] theorem buffer_tick (now : ℚ) (topic : Consumer.Topic) :
    (consumer.tick now).buffer topic = consumer.buffer topic :=
  consumer.buffer_metrics _ _ _ topic

end VerifierKafkaConsumer

/-- The timestamp of a record enters the metrics without an exception: it
converts to an integer, which fits a float if it is not zero. -/
def hasReadableTimestamp (record : Dict) : Bool :=
  match P.int (Dict.get record "timestamp_ns" (.int 0)) with
  | .error _ => false
  | .ok tsNs => decide (tsNs = 0) || (PyFloat.ofInt tsNs).isOk

/-- The records that reach the buffer of their topic. -/
def admits (value : Json) : Option Dict :=
  match value with
  | .obj record =>
      if (Dict.get record "pii_bytes" (.int 0)).eqInt 0 && hasReadableTimestamp P record then some record
      else none
  | _ => none

namespace VerifierKafkaConsumer

variable {bufferSize : Nat} (consumer : VerifierKafkaConsumer bufferSize)

theorem measureLag_spec (now : ℚ) (record : Dict) :
    (consumer.measureLag P now record).1.isOk = hasReadableTimestamp P record ∧
      ∀ topic, (consumer.measureLag P now record).2.buffer topic = consumer.buffer topic := by
  unfold measureLag hasReadableTimestamp
  cases P.int (Dict.get record "timestamp_ns" (.int 0)) with
  | error error => exact ⟨rfl, fun _ => rfl⟩
  | ok tsNs =>
      by_cases zero : tsNs = 0
      · simp [zero, Except.isOk, Except.toBool]
      · simp only [zero, if_false, decide_false, Bool.false_or]
        generalize PyFloat.ofInt tsNs = converted
        cases converted with
        | error error => exact ⟨rfl, consumer.buffer_metrics _ _ _⟩
        | ok asFloat => exact ⟨rfl, consumer.buffer_metrics _ _ _⟩

variable {W : Type} (callbacks : Callbacks W)

theorem buffer_keepCommitted (world : W) (record : Dict) (topic : Consumer.Topic) :
    (consumer.keepCommitted callbacks world record).2.1.buffer topic =
      if topic = .committed then (consumer.buffer topic).push record else consumer.buffer topic := by
  unfold keepCommitted
  cases callbacks.onCommitted with
  | none => cases topic <;> rfl
  | some onCommitted =>
      rcases ran : onCommitted world record with ⟨error | report, after⟩
      · simp only [ran]
        cases topic <;> rfl
      · by_cases verified : report.verified = true
        · cases topic <;> simp [ran, verified, buffer]
        · cases topic <;> simp [ran, verified, buffer]

theorem buffer_keepAnomaly (world : W) (record : Dict) (topic : Consumer.Topic) :
    (consumer.keepAnomaly callbacks world record).2.1.buffer topic =
      if topic = .anomalies then (consumer.buffer topic).push record else consumer.buffer topic := by
  unfold keepAnomaly
  cases callbacks.onAnomaly with
  | none => cases topic <;> rfl
  | some onAnomaly =>
      rcases ran : onAnomaly world record with ⟨error | answer, after⟩
      · simp only [ran]
        cases topic <;> rfl
      · simp only [ran]
        cases topic <;> rfl

/-- Whatever the callbacks do, an admitted record is pushed to the buffer of its
topic, and every other record leaves the buffers alone. -/
theorem buffer_process (world : W) (delivery : Delivery) (topic : Consumer.Topic) :
    (consumer.process P callbacks world delivery).1.buffer topic =
      match admits P delivery.record with
      | some record =>
          if topic = delivery.topic then (consumer.buffer topic).push record else consumer.buffer topic
      | none => consumer.buffer topic := by
  unfold process admits
  cases delivery.record with
  | obj record =>
      simp only [Json.asDict]
      cases gate : (Dict.get record "pii_bytes" (.int 0)).eqInt 0 with
      | false => simp
      | true =>
          rcases measureLag_spec P (consumer.tick delivery.now) delivery.now record with ⟨outcome, kept⟩
          simp only [buffer_tick] at kept
          rw [← outcome, ← kept]
          unfold accept
          rcases (consumer.tick delivery.now).measureLag P delivery.now record with ⟨error | _, lagged⟩
          · simp [Except.isOk, Except.toBool]
          · simp only [if_true, Except.isOk, Except.toBool, Bool.true_and]
            cases delivery.topic with
            | committed =>
                rw [← buffer_keepCommitted lagged callbacks world record topic]
                rcases lagged.keepCommitted callbacks world record with ⟨error | _, after, rest⟩
                · exact buffer_countError after topic
                · rfl
            | anomalies =>
                rw [← buffer_keepAnomaly lagged callbacks world record topic]
                rcases lagged.keepAnomaly callbacks world record with ⟨error | _, after, rest⟩
                · exact buffer_countError after topic
                · rfl
  | _ => simp [Json.asDict]

/-- What a record of this topic does to the state of the callbacks. -/
def called (topic : Consumer.Topic) (world : W) (record : Dict) : W :=
  match topic with
  | .committed =>
      match callbacks.onCommitted with
      | some onCommitted => (onCommitted world record).2
      | none => world
  | .anomalies =>
      match callbacks.onAnomaly with
      | some onAnomaly => (onAnomaly world record).2
      | none => world

theorem world_keepCommitted (world : W) (record : Dict) :
    (consumer.keepCommitted callbacks world record).2.2 = called callbacks .committed world record := by
  unfold keepCommitted called
  cases callbacks.onCommitted with
  | none => rfl
  | some onCommitted =>
      dsimp only
      rcases onCommitted world record with ⟨error | report, after⟩
      · rfl
      · by_cases verified : report.verified = true
        · simp only [verified, if_true]
        · simp only [verified, Bool.false_eq_true, if_false]

theorem world_keepAnomaly (world : W) (record : Dict) :
    (consumer.keepAnomaly callbacks world record).2.2 = called callbacks .anomalies world record := by
  unfold keepAnomaly called
  cases callbacks.onAnomaly with
  | none => rfl
  | some onAnomaly =>
      dsimp only
      rcases onAnomaly world record with ⟨error | answer, after⟩
      · rfl
      · rfl

/-- An admitted record is handed to the callback of its topic, and no other is. -/
theorem world_process (world : W) (delivery : Delivery) :
    (consumer.process P callbacks world delivery).2 =
      match admits P delivery.record with
      | some record => called callbacks delivery.topic world record
      | none => world := by
  unfold process admits
  cases delivery.record with
  | obj record =>
      simp only [Json.asDict]
      cases gate : (Dict.get record "pii_bytes" (.int 0)).eqInt 0 with
      | false => simp
      | true =>
          have outcome := (measureLag_spec P (consumer.tick delivery.now) delivery.now record).1
          rw [← outcome]
          unfold accept
          rcases (consumer.tick delivery.now).measureLag P delivery.now record with ⟨error | _, lagged⟩
          · simp [Except.isOk, Except.toBool]
          · simp only [if_true, Except.isOk, Except.toBool, Bool.true_and]
            cases delivery.topic with
            | committed =>
                rw [← world_keepCommitted lagged callbacks world record]
                rcases lagged.keepCommitted callbacks world record with ⟨error | _, after, rest⟩
                · rfl
                · rfl
            | anomalies =>
                rw [← world_keepAnomaly lagged callbacks world record]
                rcases lagged.keepAnomaly callbacks world record with ⟨error | _, after, rest⟩
                · rfl
                · rfl
  | _ => simp [Json.asDict]

end VerifierKafkaConsumer
end Kafka
end ZeroAudit
