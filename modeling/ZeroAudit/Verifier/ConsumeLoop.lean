import ZeroAudit.Verifier.Throughput

namespace ZeroAudit
namespace Kafka

open Foundation Verify

/-!
# The consume loop of the verifier

The loop holds a client or connects to the broker, and waits longer each time that fails.  A
poll that raises costs the client.  What the loop has handed to the handler is therefore
what the polls have returned, across all of its clients, and every record of it is counted
by its topic or as an error.
-/

variable (P : Platform)

/-- What the broker knows of a partition, and where the client stands in it. -/
structure Assigned where
  endOffset : Option Int
  position : Int

/-- The answer to a lag probe, unless the broker raises. -/
inductive Probe where
  | failed
  | partitions (assigned : List Assigned)

/-- What one round of the loop meets. -/
structure PollRound where
  /-- The client can be built, where one is needed. -/
  connects : Bool
  /-- The messages of the poll, partition by partition. -/
  polled : Except PyError (List Delivery)
  monotonic : ℚ
  probe : Probe

/-- The loop and its effects: how long it has slept, and when it has probed. -/
structure ConsumeLoop (bufferSize : Nat) (W : Type) where
  consumer : VerifierKafkaConsumer bufferSize
  world : W
  client : Bool
  connected : Bool
  lagRecords : Int
  backoff : ℚ
  lastLagProbe : ℚ
  slept : List ℚ
  probed : List ℚ

namespace ConsumeLoop

variable {bufferSize : Nat} {W : Type} (callbacks : Callbacks W) (loop : ConsumeLoop bufferSize W)

/-- The loop as `start` runs it. -/
def started (bufferSize : Nat) (world : W) : ConsumeLoop bufferSize W where
  consumer := .new bufferSize
  world := world
  client := false
  connected := false
  lagRecords := 0
  backoff := 2
  lastLagProbe := 0
  slept := []
  probed := []

/-- `_connect`. -/
def connect (connects : Bool) : ConsumeLoop bufferSize W :=
  { loop with client := connects, connected := connects }

/-- `_refresh_lag`. -/
def refreshLag : Probe -> ConsumeLoop bufferSize W
  | .failed => loop
  | .partitions [] => loop
  | .partitions assigned =>
      { loop with
        lagRecords := (assigned.map fun partition =>
          max (partition.endOffset.getD partition.position - partition.position) 0).sum }

/-- Poll, handle the messages, and probe the lag if the last probe is old. -/
def poll (round : PollRound) : ConsumeLoop bufferSize W :=
  match round.polled with
  | .error _ =>
      { loop with
        consumer := loop.consumer.countError
        client := false
        connected := false
        slept := loop.slept ++ [2] }
  | .ok deliveries =>
      let handled := VerifierKafkaConsumer.processAll P callbacks (loop.consumer, loop.world) deliveries
      let loop := { loop with consumer := handled.1, world := handled.2 }
      if 5 < round.monotonic - loop.lastLagProbe then
        { loop.refreshLag round.probe with
          lastLagProbe := round.monotonic
          probed := loop.probed ++ [round.monotonic] }
      else loop

/-- One round of `_consume_loop`. -/
def turn (round : PollRound) : ConsumeLoop bufferSize W :=
  if loop.client then loop.poll P callbacks round
  else
    let attempted := loop.connect round.connects
    if round.connects then { attempted with backoff := 2 }.poll P callbacks round
    else
      { attempted with
        slept := loop.slept ++ [loop.backoff]
        backoff := min (loop.backoff * 2) 30 }

/-- `_consume_loop`, for as many rounds. -/
def run : ConsumeLoop bufferSize W -> List PollRound -> ConsumeLoop bufferSize W :=
  List.foldl fun loop round => loop.turn P callbacks round

theorem run_cons (round : PollRound) (rounds : List PollRound) :
    loop.run P callbacks (round :: rounds) = (loop.turn P callbacks round).run P callbacks rounds := rfl

theorem run_append (rounds : List PollRound) (round : PollRound) :
    loop.run P callbacks (rounds ++ [round]) = (loop.run P callbacks rounds).turn P callbacks round := by
  unfold run
  rw [List.foldl_append]
  rfl

end ConsumeLoop

/-! ## The polls that take place -/

/-- What the polls of these rounds return, from a round that starts with a client or without. -/
def polls : Bool -> List PollRound -> List (Except PyError (List Delivery))
  | _, [] => []
  | client, round :: rounds =>
      if client || round.connects then round.polled :: polls round.polled.isOk rounds else polls false rounds

/-- How long a loop sleeps that starts with a client, or without one and after so many failed attempts. -/
def sleeps : Bool -> Nat -> List PollRound -> List ℚ
  | _, _, [] => []
  | client, failed, round :: rounds =>
      if client || round.connects then
        if round.polled.isOk then sleeps true 0 rounds else 2 :: sleeps false 0 rounds
      else min (2 ^ (failed + 1)) 30 :: sleeps false (failed + 1) rounds

/-- The messages that have been returned. -/
def returned (outcomes : List (Except PyError (List Delivery))) : List Delivery :=
  outcomes.flatMap fun outcome => outcome.toOption.getD []

/-- The handler and the errors, as the polls drive them. -/
def handled {bufferSize : Nat} {W : Type} (callbacks : Callbacks W) :
    VerifierKafkaConsumer bufferSize × W -> List (Except PyError (List Delivery)) ->
      VerifierKafkaConsumer bufferSize × W :=
  List.foldl fun state outcome =>
    match outcome with
    | .ok deliveries => VerifierKafkaConsumer.processAll P callbacks state deliveries
    | .error _ => (state.1.countError, state.2)

namespace ConsumeLoop

variable {bufferSize : Nat} {W : Type} (callbacks : Callbacks W)

/-! ## The connection -/

/-- What is shown as connected is the client, and the next wait goes by the failed attempts. -/
structure Steady (loop : ConsumeLoop bufferSize W) (failed : Nat) : Prop where
  connected : loop.connected = loop.client
  backoff : loop.backoff = if loop.client then 2 else min (2 ^ (failed + 1)) 30

theorem steady_started (world : W) : Steady (started bufferSize world) 0 where
  connected := rfl
  backoff := by norm_num [started]

theorem doubled_backoff (failed : Nat) :
    min (min (2 ^ (failed + 1)) 30 * 2 : ℚ) 30 = min (2 ^ (failed + 1 + 1)) 30 := by
  rw [pow_succ (2 : ℚ) (failed + 1)]
  rcases le_total ((2 : ℚ) ^ (failed + 1)) 30 with below | above
  · rw [min_eq_left below]
  · rw [min_eq_right above, min_eq_right (by norm_num), min_eq_right (by linarith)]

variable {loop : ConsumeLoop bufferSize W} {failed : Nat}

/-- Without a client that can be built the loop waits. -/
theorem turn_of_refused (steady : Steady loop failed) (alone : loop.client = false) {round : PollRound}
    (refused : round.connects = false) :
    loop.turn P callbacks round =
      { loop with
        client := false
        connected := false
        slept := loop.slept ++ [min (2 ^ (failed + 1)) 30]
        backoff := min (2 ^ (failed + 1 + 1)) 30 } := by
  have backoff := steady.backoff
  rw [alone, if_neg Bool.false_ne_true] at backoff
  rw [turn, alone, refused, if_neg Bool.false_ne_true, if_neg Bool.false_ne_true, backoff, doubled_backoff]
  rfl

/-- With a client, old or new, it polls. -/
theorem turn_of_present (steady : Steady loop failed) {round : PollRound}
    (present : (loop.client || round.connects) = true) :
    loop.turn P callbacks round =
      ({ loop with client := true, connected := true, backoff := 2 } : ConsumeLoop bufferSize W).poll P callbacks
        round := by
  cases held : loop.client with
  | true =>
      have own : loop = { loop with client := true, connected := true, backoff := 2 } := by
        have connected := steady.connected
        have backoff := steady.backoff
        rw [held] at connected backoff
        rcases loop
        cases held
        cases connected
        cases backoff
        rfl
      rw [turn, held, if_pos rfl]
      exact congrArg (poll P callbacks · round) own
  | false =>
      rw [held, Bool.false_or] at present
      rw [turn, held, if_neg Bool.false_ne_true, present, if_pos rfl]
      rfl

/-- A probe changes nothing but the lag. -/
theorem refreshLag_spec (loop : ConsumeLoop bufferSize W) (probe : Probe) :
    ∃ lagRecords, loop.refreshLag probe = { loop with lagRecords } := by
  cases probe with
  | failed => exact ⟨_, rfl⟩
  | partitions assigned => cases assigned <;> exact ⟨_, rfl⟩

theorem poll_of_ok (loop : ConsumeLoop bufferSize W) {round : PollRound} {deliveries : List Delivery}
    (polled : round.polled = .ok deliveries) :
    let after := loop.poll P callbacks round
    (after.consumer, after.world) =
        VerifierKafkaConsumer.processAll P callbacks (loop.consumer, loop.world) deliveries ∧
      after.client = loop.client ∧ after.connected = loop.connected ∧ after.backoff = loop.backoff ∧
      after.slept = loop.slept := by
  rw [poll, polled]
  dsimp only
  split
  · generalize VerifierKafkaConsumer.processAll P callbacks (loop.consumer, loop.world) deliveries = state
    rcases refreshLag_spec { loop with consumer := state.1, world := state.2 } round.probe with ⟨lagRecords, probed⟩
    rw [probed]
    exact ⟨rfl, rfl, rfl, rfl, rfl⟩
  · exact ⟨rfl, rfl, rfl, rfl, rfl⟩

/-- Whatever the rounds meet: the loop has handled what its polls have returned and counted
those that raised, it has slept as its failures ask for, and it is shown as connected as long
as it has a client. -/
theorem run_spec (steady : Steady loop failed) (rounds : List PollRound) :
    let after := loop.run P callbacks rounds
    (after.consumer, after.world) = handled P callbacks (loop.consumer, loop.world) (polls loop.client rounds) ∧
      after.slept = loop.slept ++ sleeps loop.client failed rounds ∧ after.connected = after.client := by
  induction rounds generalizing loop failed with
  | nil => exact ⟨rfl, (List.append_nil _).symm, steady.connected⟩
  | cons round rounds inductionHypothesis =>
      rw [run_cons, polls, sleeps]
      cases present : loop.client || round.connects with
      | false =>
          rcases Bool.or_eq_false_iff.mp present with ⟨alone, refused⟩
          have turned := turn_of_refused P callbacks steady alone refused
          have waiting : Steady (loop.turn P callbacks round) (failed + 1) := by
            rw [turned]
            exact ⟨rfl, rfl⟩
          rcases inductionHypothesis waiting with ⟨state, slept, connected⟩
          rw [turned] at state slept connected ⊢
          refine ⟨state, ?_, connected⟩
          rw [slept, List.append_assoc]
          rfl
      | true =>
          have turned := turn_of_present P callbacks steady present
          cases polled : round.polled with
          | error error =>
              rw [poll, polled] at turned
              dsimp only at turned
              have next : Steady (loop.turn P callbacks round) 0 := by
                rw [turned]
                exact ⟨rfl, by norm_num⟩
              rcases inductionHypothesis next with ⟨later, waits, shown⟩
              rw [turned] at later waits shown ⊢
              refine ⟨later, ?_, shown⟩
              rw [waits, List.append_assoc]
              rfl
          | ok deliveries =>
              rcases poll_of_ok P callbacks { loop with client := true, connected := true, backoff := 2 } polled with
                ⟨state, client, connected, backoff, slept⟩
              rw [← turned] at state client connected backoff slept
              have next : Steady (loop.turn P callbacks round) 0 := by
                refine ⟨connected.trans client.symm, backoff.trans ?_⟩
                rw [client]
                rfl
              rcases inductionHypothesis next with ⟨later, waits, shown⟩
              refine ⟨?_, ?_, shown⟩
              · rw [later, state, client]
                rfl
              · rw [waits, slept, client]
                rfl

/-! ## The lag -/

/-- These probes are more than five seconds apart, and this is the last of them. -/
structure Spaced (probed : List ℚ) (last : ℚ) : Prop where
  apart : (0 :: probed).IsChain fun early late => 5 < late - early
  latest : (0 :: probed).getLast? = some last

theorem Spaced.next {probed : List ℚ} {last now : ℚ} (spaced : Spaced probed last) (old : 5 < now - last) :
    Spaced (probed ++ [now]) now := by
  constructor
  · rw [← List.cons_append]
    apply spaced.apart.append (List.isChain_singleton now)
    intro early same late second
    rw [spaced.latest] at same
    cases same
    cases second
    exact old
  · rw [← List.cons_append, List.getLast?_concat]

theorem spaced_poll (spaced : Spaced loop.probed loop.lastLagProbe) (round : PollRound) :
    let after := loop.poll P callbacks round
    Spaced after.probed after.lastLagProbe ∧
      (round.polled.isOk = true -> round.monotonic - after.lastLagProbe ≤ 5) := by
  rw [poll]
  cases round.polled with
  | error error => exact ⟨spaced, fun ok => by cases ok⟩
  | ok deliveries =>
      dsimp only
      split
      · next old =>
          refine ⟨spaced.next old, fun _ => ?_⟩
          rw [sub_self]
          norm_num
      · next recent => exact ⟨spaced, fun _ => not_lt.mp recent⟩

theorem spaced_turn (spaced : Spaced loop.probed loop.lastLagProbe) (round : PollRound) :
    let after := loop.turn P callbacks round
    Spaced after.probed after.lastLagProbe ∧
      ((loop.client || round.connects) = true -> round.polled.isOk = true ->
        round.monotonic - after.lastLagProbe ≤ 5) := by
  rw [turn]
  cases loop.client with
  | true =>
      rcases spaced_poll P callbacks spaced round with ⟨after, recent⟩
      exact ⟨after, fun _ => recent⟩
  | false =>
      rw [if_neg Bool.false_ne_true]
      cases round.connects with
      | true =>
          have own : Spaced ({ loop.connect true with backoff := 2 } : ConsumeLoop bufferSize W).probed
              ({ loop.connect true with backoff := 2 } : ConsumeLoop bufferSize W).lastLagProbe := spaced
          rcases spaced_poll P callbacks own round with ⟨after, recent⟩
          exact ⟨after, fun _ => recent⟩
      | false => exact ⟨spaced, fun present => by cases present⟩

theorem spaced_run (spaced : Spaced loop.probed loop.lastLagProbe) (rounds : List PollRound) :
    Spaced (loop.run P callbacks rounds).probed (loop.run P callbacks rounds).lastLagProbe := by
  induction rounds generalizing loop with
  | nil => exact spaced
  | cons round rounds inductionHypothesis => exact inductionHypothesis (spaced_turn P callbacks spaced round).1

/-- In every round of every run of the loop: what it has handled is what its polls have
returned across all of its clients, it is shown as connected exactly as long as it has a
client, and it has slept as its failures ask for, longer each time up to half a minute.  Its
probes of the lag are more than five seconds apart, and after a poll that returned the last
of them is no older than that. -/
theorem consume_loop (world : W) (rounds : List PollRound) (round : PollRound) :
    let before := (started bufferSize world).run P callbacks rounds
    let after := before.turn P callbacks round
    (after.consumer, after.world) =
        handled P callbacks (.new bufferSize, world) (polls false (rounds ++ [round])) ∧
      after.connected = after.client ∧ after.slept = sleeps false 0 (rounds ++ [round]) ∧
      ((0 :: after.probed).IsChain fun early late => 5 < late - early) ∧
      ((before.client || round.connects) = true -> round.polled.isOk = true ->
        round.monotonic - after.lastLagProbe ≤ 5) := by
  have start : Spaced (started bufferSize world).probed (started bufferSize world).lastLagProbe :=
    ⟨List.isChain_singleton 0, rfl⟩
  have probes := spaced_turn P callbacks (spaced_run P callbacks start rounds) round
  dsimp only
  have steady : Steady (started bufferSize world) 0 := steady_started world
  rcases run_spec P callbacks steady (rounds ++ [round]) with ⟨state, slept, connected⟩
  rw [run_append] at state slept connected
  exact ⟨state, connected, slept, probes.1.apart, probes.2⟩

/-- The broker refuses the first connection and drops the second. -/
def sampleTurns : List PollRound :=
  [⟨false, .ok [], 1, .failed⟩, ⟨true, .ok VerifierKafkaConsumer.sampleDeliveries, 10, .failed⟩,
    ⟨true, .error ⟨.valueError, "poll"⟩, 11, .failed⟩]

theorem consume_loop_sample :
    let loop := ((started BUFFER_SIZE ()).run samplePlatform ⟨none, none⟩ sampleTurns).turn samplePlatform
      ⟨none, none⟩ ⟨true, .ok [], 12, .partitions [⟨some 7, 3⟩]⟩
    loop.connected = loop.client ∧ loop.slept = [2, 2] ∧ 12 - loop.lastLagProbe ≤ 5 := by
  rcases consume_loop samplePlatform ⟨none, none⟩ () sampleTurns
    ⟨true, .ok [], 12, .partitions [⟨some 7, 3⟩]⟩ with ⟨-, connected, slept, -, recent⟩
  refine ⟨connected, slept.trans ?_, recent (Bool.or_true _) rfl⟩
  norm_num [sleeps, sampleTurns, Except.isOk, Except.toBool]

end ConsumeLoop

/-! ## The accounts -/

/-- The callback of this topic raises on the record. -/
def raises {W : Type} (callbacks : Callbacks W) (topic : Consumer.Topic) (world : W) (record : Dict) : Bool :=
  match topic with
  | .committed =>
      match callbacks.onCommitted with
      | some onCommitted => !(onCommitted world record).1.isOk
      | none => false
  | .anomalies =>
      match callbacks.onAnomaly with
      | some onAnomaly => !(onAnomaly world record).1.isOk
      | none => false

/-- The records that are kept for a topic. -/
def kept (topic : Consumer.Topic) (deliveries : List Delivery) : List Dict :=
  deliveries.filterMap fun delivery => if delivery.topic = topic then admits P delivery.record else none

/-- The messages that are refused. -/
def refused (deliveries : List Delivery) : Nat := deliveries.countP fun delivery => (admits P delivery.record).isNone

/-- The world after a message, whose callback runs if its record is kept. -/
def worldAfter {W : Type} (callbacks : Callbacks W) (world : W) (delivery : Delivery) : W :=
  match admits P delivery.record with
  | some record => VerifierKafkaConsumer.called callbacks delivery.topic world record
  | none => world

/-- The messages whose callbacks raise, each in the world that the ones before it have left. -/
def uncaught {W : Type} (callbacks : Callbacks W) : W -> List Delivery -> Nat
  | _, [] => 0
  | world, delivery :: rest =>
      (if (admits P delivery.record).any (raises callbacks delivery.topic world) then 1 else 0) +
        uncaught callbacks (worldAfter P callbacks world delivery) rest

theorem uncaught_append {W : Type} (callbacks : Callbacks W) (world : W) (deliveries more : List Delivery) :
    uncaught P callbacks world (deliveries ++ more) = uncaught P callbacks world deliveries +
      uncaught P callbacks (deliveries.foldl (worldAfter P callbacks) world) more := by
  induction deliveries generalizing world with
  | nil => exact (Nat.zero_add _).symm
  | cons delivery rest inductionHypothesis =>
      rw [List.cons_append, uncaught, inductionHypothesis, uncaught, List.foldl_cons, Nat.add_assoc]

/-- Every message is kept for its topic or refused. -/
theorem length_kept_add_refused (deliveries : List Delivery) :
    (kept P .committed deliveries).length + (kept P .anomalies deliveries).length + refused P deliveries =
      deliveries.length := by
  induction deliveries with
  | nil => rfl
  | cons delivery rest inductionHypothesis =>
      rw [kept, kept, refused, List.filterMap_cons, List.filterMap_cons, List.countP_cons, List.length_cons,
        ← inductionHypothesis, kept, kept, refused]
      cases delivery.topic <;> cases admits P delivery.record <;> simp <;> omega

namespace VerifierKafkaConsumer

variable {bufferSize : Nat} (consumer : VerifierKafkaConsumer bufferSize)

/-- The records received on a topic. -/
def received : Consumer.Topic -> Nat
  | .committed => consumer.stats.committedReceived
  | .anomalies => consumer.stats.anomaliesReceived

/-- What is received on a topic, and the errors. -/
def counts (topic : Consumer.Topic) : Nat × Nat := (consumer.received topic, consumer.stats.errors)

theorem counts_measureLag (now : ℚ) (record : Dict) (topic : Consumer.Topic) :
    (consumer.measureLag P now record).2.counts topic = consumer.counts topic := by
  rw [measureLag]
  split
  · rfl
  · split
    · rfl
    · dsimp only
      split <;> cases topic <;> rfl

theorem counts_countError (topic : Consumer.Topic) :
    consumer.countError.counts topic = ((consumer.counts topic).1, (consumer.counts topic).2 + 1) := by
  cases topic <;> rfl

/-- The throughput does not touch what is counted. -/
theorem counts_metrics (events : List ℚ) (perSecond : List (Int × Nat)) (topic : Consumer.Topic) :
    ({ consumer with events, perSecond } : VerifierKafkaConsumer bufferSize).counts topic =
      consumer.counts topic := by
  cases topic <;> rfl

theorem counts_tick (now : ℚ) (topic : Consumer.Topic) :
    (consumer.tick now).counts topic = consumer.counts topic :=
  consumer.counts_metrics _ _ topic

variable {W : Type} (callbacks : Callbacks W)

theorem counts_keepCommitted (world : W) (record : Dict) (topic : Consumer.Topic) :
    let handled := consumer.keepCommitted callbacks world record
    handled.2.1.counts topic =
        (consumer.received topic + (if topic = .committed then 1 else 0), consumer.stats.errors) ∧
      handled.1.isOk = !raises callbacks .committed world record := by
  rw [keepCommitted, raises]
  cases callbacks.onCommitted with
  | none => cases topic <;> exact ⟨rfl, rfl⟩
  | some onCommitted =>
      dsimp only
      rcases onCommitted world record with ⟨error | report, after⟩
      · cases topic <;> exact ⟨rfl, rfl⟩
      · by_cases verified : report.verified = true
        · simp only [verified, if_true]
          cases topic <;> exact ⟨rfl, rfl⟩
        · simp only [verified, Bool.false_eq_true, if_false]
          cases topic <;> exact ⟨rfl, rfl⟩

theorem counts_keepAnomaly (world : W) (record : Dict) (topic : Consumer.Topic) :
    let handled := consumer.keepAnomaly callbacks world record
    handled.2.1.counts topic =
        (consumer.received topic + (if topic = .anomalies then 1 else 0), consumer.stats.errors) ∧
      handled.1.isOk = !raises callbacks .anomalies world record := by
  rw [keepAnomaly, raises]
  cases callbacks.onAnomaly with
  | none => cases topic <;> exact ⟨rfl, rfl⟩
  | some onAnomaly =>
      dsimp only
      rcases onAnomaly world record with ⟨error | answer, after⟩
      · cases topic <;> exact ⟨rfl, rfl⟩
      · cases topic <;> exact ⟨rfl, rfl⟩

/-- The error that a message is counted as, if it is. -/
def failure (world : W) (delivery : Delivery) : Nat :=
  match admits P delivery.record with
  | some record => if raises callbacks delivery.topic world record then 1 else 0
  | none => 1

theorem kept_singleton (topic : Consumer.Topic) (delivery : Delivery) :
    kept P topic [delivery] = if delivery.topic = topic then (admits P delivery.record).toList else [] := by
  rw [kept, List.filterMap_cons, List.filterMap_nil]
  by_cases same : delivery.topic = topic
  · cases admits P delivery.record <;> simp [same]
  · simp [same]

theorem length_kept_singleton (topic : Consumer.Topic) (delivery : Delivery) :
    (kept P topic [delivery]).length =
      if delivery.topic = topic ∧ (admits P delivery.record).isSome = true then 1 else 0 := by
  rw [kept_singleton]
  by_cases same : delivery.topic = topic
  · cases admits P delivery.record <;> simp [same]
  · simp [same]

theorem admits_obj (record : Dict) :
    admits P (.obj record) =
      if (Dict.get record "pii_bytes" (.int 0)).eqInt 0 && hasReadableTimestamp P record then some record
      else none := rfl

/-- An accepted record is received if its timestamp can be read, and comes through if its
callback does. -/
theorem counts_accept (world : W) (own : Consumer.Topic) (record : Dict) (now : ℚ) (topic : Consumer.Topic) :
    let handled := consumer.accept P callbacks world own record now
    handled.2.1.counts topic =
        (consumer.received topic + (if own = topic ∧ hasReadableTimestamp P record = true then 1 else 0),
          consumer.stats.errors) ∧
      handled.1.isOk = (hasReadableTimestamp P record && !raises callbacks own world record) := by
  have outcome := (measureLag_spec P (consumer.tick now) now record).1
  have lag := (consumer.tick now).counts_measureLag P now record topic
  rw [counts_tick] at lag
  rw [← outcome, accept]
  generalize (consumer.tick now).measureLag P now record = measured at lag ⊢
  rcases measured with ⟨error | _, lagged⟩
  · refine ⟨?_, rfl⟩
    rw [if_neg (by simp [Except.isOk, Except.toBool])]
    exact lag
  · rcases Prod.mk.inj lag with ⟨received, errors⟩
    have readable : (Except.ok () : Except PyError Unit).isOk = true := rfl
    dsimp only at received errors ⊢
    rw [← received, ← errors, readable, Bool.true_and]
    cases own with
    | committed =>
        rcases counts_keepCommitted lagged callbacks world record topic with ⟨counts, through⟩
        refine ⟨counts.trans ?_, through⟩
        cases topic <;> rfl
    | anomalies =>
        rcases counts_keepAnomaly lagged callbacks world record topic with ⟨counts, through⟩
        refine ⟨counts.trans ?_, through⟩
        cases topic <;> rfl

/-- A message is received on its topic if it is kept, and an error if it is not or its callback
raises. -/
theorem counts_process (world : W) (delivery : Delivery) (topic : Consumer.Topic) :
    (consumer.process P callbacks world delivery).1.counts topic =
      (consumer.received topic + (kept P topic [delivery]).length,
        consumer.stats.errors + failure P callbacks world delivery) := by
  rw [process, failure, length_kept_singleton]
  cases delivery.record with
  | obj record =>
      rw [admits_obj]
      simp only [Json.asDict]
      cases gate : (Dict.get record "pii_bytes" (.int 0)).eqInt 0 with
      | false => cases topic <;> simp [countError, counts, received]
      | true =>
          have accepted := counts_accept P consumer callbacks world delivery.topic record delivery.now topic
          rw [if_pos rfl, Bool.true_and]
          generalize consumer.accept P callbacks world delivery.topic record delivery.now = handled at accepted ⊢
          rcases accepted with ⟨counted, through⟩
          cases readable : hasReadableTimestamp P record with
          | false =>
              rw [readable] at counted through
              rcases handled with ⟨error | _, after, rest⟩
              · exact (after.counts_countError topic).trans (by rw [counted]; simp)
              · cases through
          | true =>
              rw [readable] at counted through
              cases raised : raises callbacks delivery.topic world record with
              | false =>
                  rw [raised] at through
                  rcases handled with ⟨error | _, after, rest⟩
                  · cases through
                  · exact counted.trans (by simp [raised])
              | true =>
                  rw [raised] at through
                  rcases handled with ⟨error | _, after, rest⟩
                  · exact (after.counts_countError topic).trans (by rw [counted]; simp [raised])
                  · cases through
  | _ => cases topic <;> simp [Json.asDict, admits, countError, counts, received]

end VerifierKafkaConsumer

/-- An error is a message that is refused, or one whose callback raises. -/
theorem failure_eq {W : Type} (callbacks : Callbacks W) (world : W) (delivery : Delivery) :
    VerifierKafkaConsumer.failure P callbacks world delivery =
      refused P [delivery] + uncaught P callbacks world [delivery] := by
  rw [refused, List.countP_singleton, VerifierKafkaConsumer.failure, uncaught, uncaught]
  cases admits P delivery.record with
  | none => rfl
  | some record => simp

/-- What the buffers, the counters and the errors say after these messages and failed polls,
and the world that the callbacks have left. -/
structure Accounted {bufferSize : Nat} {W : Type} (callbacks : Callbacks W) (start : W)
    (state : VerifierKafkaConsumer bufferSize × W) (deliveries : List Delivery) (failed : Nat) : Prop where
  buffers : ∀ topic, (state.1.buffer topic).items =
    (kept P topic deliveries).drop ((kept P topic deliveries).length - bufferSize)
  received : ∀ topic, state.1.received topic = (kept P topic deliveries).length
  world : state.2 = deliveries.foldl (worldAfter P callbacks) start
  errors : state.1.stats.errors = failed + refused P deliveries + uncaught P callbacks start deliveries

namespace Accounted

open VerifierKafkaConsumer

variable {P} {bufferSize : Nat} {W : Type} {callbacks : Callbacks W} {start : W}
  {state : VerifierKafkaConsumer bufferSize × W} {deliveries : List Delivery} {failed : Nat}

theorem kept_append (topic : Consumer.Topic) (deliveries more : List Delivery) :
    kept P topic (deliveries ++ more) = kept P topic deliveries ++ kept P topic more := List.filterMap_append

theorem new : Accounted P callbacks start ((.new bufferSize : VerifierKafkaConsumer bufferSize), start) [] 0 := by
  constructor
  · intro topic
    cases topic <;> exact List.drop_nil.symm
  · intro topic
    cases topic <;> rfl
  · rfl
  · rfl

theorem process (accounted : Accounted P callbacks start state deliveries failed) (delivery : Delivery) :
    Accounted P callbacks start (state.1.process P callbacks state.2 delivery) (deliveries ++ [delivery]) failed := by
  have counted := state.1.counts_process P callbacks state.2 delivery
  have errors : (state.1.process P callbacks state.2 delivery).1.stats.errors =
      state.1.stats.errors + failure P callbacks state.2 delivery :=
    (Prod.mk.inj (counted .committed)).2
  have more : refused P (deliveries ++ [delivery]) = refused P deliveries + refused P [delivery] :=
    List.countP_append
  constructor
  · intro topic
    have held : ((state.1.buffer topic).items.map id) = _ := (List.map_id _).trans (accounted.buffers topic)
    rw [kept_append, state.1.buffer_process, kept_singleton]
    cases admits P delivery.record with
    | none => simpa using accounted.buffers topic
    | some record =>
        by_cases own : delivery.topic = topic
        · have pushed := (state.1.buffer topic).push_items_map held record
          rw [List.map_id] at pushed
          dsimp only
          rw [if_pos own, if_pos own.symm]
          exact pushed
        · simpa [own, Ne.symm own] using accounted.buffers topic
  · intro topic
    rw [kept_append, List.length_append, ← accounted.received topic]
    exact (Prod.mk.inj (counted topic)).1
  · rw [List.foldl_append, ← accounted.world]
    exact world_process P state.1 callbacks state.2 delivery
  · rw [errors, accounted.errors, failure_eq, more, uncaught_append, ← accounted.world]
    omega

/-- The messages of a poll. -/
theorem processAll (accounted : Accounted P callbacks start state deliveries failed) (more : List Delivery) :
    Accounted P callbacks start (processAll P callbacks state more) (deliveries ++ more) failed := by
  induction more generalizing state deliveries with
  | nil =>
      rw [List.append_nil]
      exact accounted
  | cons delivery more inductionHypothesis =>
      rw [List.append_cons]
      exact inductionHypothesis (accounted.process delivery)

/-- A poll that raises. -/
theorem countError (accounted : Accounted P callbacks start state deliveries failed) :
    Accounted P callbacks start (state.1.countError, state.2) deliveries (failed + 1) := by
  constructor
  · intro topic
    rw [buffer_countError]
    exact accounted.buffers topic
  · intro topic
    rw [← accounted.received topic]
    exact congrArg Prod.fst (state.1.counts_countError topic)
  · exact accounted.world
  · have before := accounted.errors
    change state.1.stats.errors + 1 = _
    omega

theorem handled (accounted : Accounted P callbacks start state deliveries failed)
    (outcomes : List (Except PyError (List Delivery))) :
    Accounted P callbacks start (handled P callbacks state outcomes) (deliveries ++ returned outcomes)
      (failed + outcomes.countP fun outcome => !outcome.isOk) := by
  induction outcomes generalizing state deliveries failed with
  | nil =>
      rw [returned, List.flatMap_nil, List.append_nil]
      exact accounted
  | cons outcome outcomes inductionHypothesis =>
      cases outcome with
      | ok more =>
          have later := inductionHypothesis (accounted.processAll more)
          rw [List.append_assoc] at later
          exact later
      | error error =>
          have later := inductionHypothesis accounted.countError
          have raised : (!(Except.error error : Except PyError (List Delivery)).isOk) = true := rfl
          rw [List.countP_cons, if_pos raised, ← Nat.add_assoc, Nat.add_right_comm]
          exact later

end Accounted

namespace ConsumeLoop

/-- In every run of the loop nothing that a poll returns is lost or told twice: a topic has
received the records that are kept for it, its buffer holds the last of them in order, and the
errors are the polls that raised, the messages that are refused, and the messages that are kept
and whose callback raises, which are received as well. -/
theorem consume_accounts {bufferSize : Nat} {W : Type} (callbacks : Callbacks W) (world : W)
    (rounds : List PollRound) :
    let consumer := ((started bufferSize world).run P callbacks rounds).consumer
    let messages := returned (polls false rounds)
    let failed := (polls false rounds).countP fun outcome => !outcome.isOk
    (∀ topic, consumer.received topic = (kept P topic messages).length ∧
        (consumer.buffer topic).items =
          (kept P topic messages).drop ((kept P topic messages).length - bufferSize)) ∧
      consumer.stats.errors = failed + refused P messages + uncaught P callbacks world messages ∧
      consumer.received .committed + consumer.received .anomalies + consumer.stats.errors =
        messages.length + failed + uncaught P callbacks world messages := by
  have steady : Steady (started bufferSize world) 0 := steady_started world
  have state : ((started bufferSize world).run P callbacks rounds).consumer =
      (handled P callbacks (.new bufferSize, world) (polls false rounds)).1 :=
    (Prod.mk.inj (run_spec P callbacks steady rounds).1).1
  have accounted := (@Accounted.new P bufferSize W callbacks world).handled (polls false rounds)
  rw [List.nil_append, Nat.zero_add] at accounted
  have parted := length_kept_add_refused P (returned (polls false rounds))
  dsimp only
  rw [state]
  refine ⟨fun topic => ⟨accounted.received topic, accounted.buffers topic⟩, accounted.errors, ?_⟩
  rw [accounted.received, accounted.received, accounted.errors]
  omega

/-- A callback that raises on every quarantined record, and counts them. -/
def countAnomalies : Callbacks Nat where
  onCommitted := none
  onAnomaly := some fun seen _ => (.error ⟨.valueError, "anomaly"⟩, seen + 1)

/-- One poll raises, one message is no record, and one is kept and raises. -/
theorem consume_accounts_sample :
    ((started BUFFER_SIZE 0).run samplePlatform countAnomalies sampleTurns).consumer.stats.errors = 3 :=
  (consume_accounts samplePlatform countAnomalies 0 sampleTurns).2.1.trans (by decide +kernel)

end ConsumeLoop

end Kafka
end ZeroAudit
