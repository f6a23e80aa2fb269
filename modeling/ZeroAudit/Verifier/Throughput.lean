import Mathlib.Data.List.Perm.Subperm
import ZeroAudit.Foundation.Tally
import ZeroAudit.Intent.Decisions
import ZeroAudit.SamplePlatform
import ZeroAudit.Verifier.Charts
import ZeroAudit.Verifier.KafkaConsumer

namespace ZeroAudit
namespace Kafka

open Foundation Verify

/-!
# The throughput that is reported

Every record that passes the gate is one tick of the clock, whether or not it is kept in the
end.  The rate counts the ticks of the last ten seconds, as far as the queue of ticks goes
back.  The bars of the chart count the ticks of single seconds.  A bar starts again from
zero whenever the clock has been more than two minutes ahead of it.
-/

variable (P : Platform)

/-! ## Metrics -/

/-- The window of `tps`, for which no caller asks for another. -/
def TPS_WINDOW : Nat := 10

/-- The seconds of a chart, oldest first. -/
def chartSeconds (now : ℚ) (nSeconds : Int) : List Int :=
  (List.range nSeconds.toNat).map fun i : Nat => ⌊now⌋ - nSeconds + 1 + i

namespace VerifierKafkaConsumer

variable {bufferSize : Nat} (consumer : VerifierKafkaConsumer bufferSize)

def tps (now : ℚ) : PyFloat :=
  (PyFloat.finite ((consumer.events.countP fun t => decide (now - TPS_WINDOW < t) : Nat) / TPS_WINDOW)).round 2

def tpsSamples (now : ℚ) (nSeconds : Int) : List Nat :=
  (chartSeconds now nSeconds).map fun second => (Retention.lookup second consumer.perSecond).getD 0

/-- Handle the messages of a poll one after the other. -/
def processAll {W : Type} (callbacks : Callbacks W) :
    VerifierKafkaConsumer bufferSize × W -> List Delivery -> VerifierKafkaConsumer bufferSize × W :=
  List.foldl fun state delivery => state.1.process P callbacks state.2 delivery

end VerifierKafkaConsumer

structure TpsHistory where
  labels : List PyStr
  data : List ℚ
  peak : ℚ
  avg : ℚ

/-- `f"-{n_bars - i}s"`, for as many bars. -/
def barLabels (nBars : Int) (bars : Nat) : List PyStr :=
  (List.range bars).map fun i : Nat => PyStr.ofString "-" ++ PyStr.decimal (nBars - i) ++ PyStr.ofString "s"

/-- `tps_history` of `verifier/components/charts.py`. -/
def tpsHistory (samples : List ℚ) (nBars : Int) : TpsHistory :=
  if samples = [] then
    { labels := barLabels nBars nBars.toNat
      data := List.replicate nBars.toNat 0
      peak := 0
      avg := 0 }
  else
    let last := samples.drop (if nBars ≤ 0 then nBars.natAbs else samples.length - nBars.natAbs)
    let padded := List.replicate (nBars - samples.length).toNat 0 ++ last
    { labels := barLabels nBars padded.length
      data := padded.map (Charts.roundTo 1)
      peak := Charts.roundTo 1 (padded.max?.getD 0)
      avg := Charts.roundTo 1 (padded.sum / max padded.length 1) }

/-- `GET /charts/tps`. -/
def VerifierKafkaConsumer.chartsTps {bufferSize : Nat} (consumer : VerifierKafkaConsumer bufferSize) (now : ℚ)
    (nSeconds : Int) : TpsHistory :=
  tpsHistory ((consumer.tpsSamples now nSeconds).map Nat.cast) nSeconds

/-! ## Ticks -/

/-- A record passes the gate. -/
def passes (value : Json) : Bool :=
  match value with
  | .obj record => (Dict.get record "pii_bytes" (.int 0)).eqInt 0
  | _ => false

/-- The clock at the records that pass. -/
def ticks (deliveries : List Delivery) : List ℚ :=
  (deliveries.filter fun delivery => passes delivery.record).map Delivery.now

theorem ticks_append (earlier : List Delivery) (delivery : Delivery) :
    ticks (earlier ++ [delivery]) =
      ticks earlier ++ if passes delivery.record then [delivery.now] else [] := by
  rw [ticks, List.filter_append, List.map_append, ← ticks, List.filter_singleton]
  cases passes delivery.record <;> rfl

namespace VerifierKafkaConsumer

variable {bufferSize : Nat} (consumer : VerifierKafkaConsumer bufferSize)

/-- What the throughput is computed from. -/
def clock : List ℚ × List (Int × Nat) := (consumer.events, consumer.perSecond)

theorem clock_countError : consumer.countError.clock = consumer.clock := rfl

theorem clock_measureLag (now : ℚ) (record : Dict) : (consumer.measureLag P now record).2.clock = consumer.clock := by
  unfold measureLag
  split
  · rfl
  · split
    · rfl
    · dsimp only
      split <;> rfl

section Callback

variable {W : Type} (callbacks : Callbacks W)

theorem clock_keepCommitted (world : W) (record : Dict) :
    (consumer.keepCommitted callbacks world record).2.1.clock = consumer.clock := by
  unfold keepCommitted
  dsimp only
  split
  · rfl
  · split
    · rfl
    · split <;> rfl

theorem clock_keepAnomaly (world : W) (record : Dict) :
    (consumer.keepAnomaly callbacks world record).2.1.clock = consumer.clock := by
  unfold keepAnomaly
  dsimp only
  split
  · rfl
  · split <;> rfl

theorem clock_accept (world : W) (topic : Consumer.Topic) (record : Dict) (now : ℚ) :
    (consumer.accept P callbacks world topic record now).2.1.clock = (consumer.tick now).clock := by
  have lag := (consumer.tick now).clock_measureLag P now record
  rw [accept]
  generalize (consumer.tick now).measureLag P now record = measured at lag ⊢
  rcases measured with ⟨error | _, lagged⟩
  · exact lag
  · dsimp only at lag ⊢
    cases topic with
    | committed => exact (lagged.clock_keepCommitted callbacks world record).trans lag
    | anomalies => exact (lagged.clock_keepAnomaly callbacks world record).trans lag

/-- A record that passes is one tick, and no other record is. -/
theorem clock_process (world : W) (delivery : Delivery) :
    (consumer.process P callbacks world delivery).1.clock =
      if passes delivery.record then (consumer.tick delivery.now).clock else consumer.clock := by
  unfold process passes
  cases delivery.record with
  | obj record =>
      simp only [Json.asDict]
      split
      · have accepted := consumer.clock_accept P callbacks world delivery.topic record delivery.now
        generalize consumer.accept P callbacks world delivery.topic record delivery.now = handled at accepted ⊢
        rcases handled with ⟨error | _, after, rest⟩
        · exact accepted
        · exact accepted
      · rfl
  | _ => rfl

theorem processAll_append (state : VerifierKafkaConsumer bufferSize × W) (earlier : List Delivery)
    (delivery : Delivery) :
    processAll P callbacks state (earlier ++ [delivery]) =
      (processAll P callbacks state earlier).1.process P callbacks (processAll P callbacks state earlier).2
        delivery := by
  rw [processAll, List.foldl_append]
  rfl

/-- Seconds are counted as any keys are. -/
theorem bumpSecond_eq_upsert (second : Int) (perSecond : List (Int × Nat)) :
    bumpSecond second perSecond = Retention.upsert second (Tally.count second perSecond + 1) perSecond := by
  induction perSecond with
  | nil => rfl
  | cons entry rest inductionHypothesis =>
      rcases entry with ⟨own, count⟩
      rw [bumpSecond, Retention.upsert, Tally.count, Retention.lookup, List.find?_cons]
      by_cases same : own = second
      · rw [if_pos same, if_pos same, decide_eq_true same]
        rfl
      · rw [if_neg same, if_neg same, decide_eq_false same, inductionHypothesis]
        rfl

/-- What is two minutes before a second is dropped at it. -/
def minutesBefore (second : Int) : Int := second - 120

theorem clock_tick (now : ℚ) :
    (consumer.tick now).clock =
      ((consumer.events ++ [now]).drop (consumer.events.length + 1 - MAX_EVENTS),
        Tally.enter minutesBefore consumer.perSecond ⌊now⌋) := by
  simp only [clock, tick, Tally.enter, ← bumpSecond_eq_upsert, List.length_append, List.length_singleton,
    Prod.mk.injEq, true_and]
  apply List.filter_congr
  intro entry _
  exact decide_eq_decide.mpr Iff.rfl

/-- The last items of a list and one more are the last of both. -/
theorem drop_append_singleton {α : Type*} (limit : Nat) (items : List α) (item : α) :
    (items.drop (items.length - limit) ++ [item]).drop ((items.drop (items.length - limit)).length + 1 - limit) =
      (items ++ [item]).drop ((items ++ [item]).length - limit) := by
  have early : items.length - limit ≤ items.length := Nat.sub_le ..
  rw [← List.drop_append_of_le_length early, List.drop_drop, List.length_drop, List.length_append,
    List.length_singleton]
  congr 1
  omega

/-- The metrics after a run are those of its ticks. -/
theorem clock_processAll (world : W) (deliveries : List Delivery) :
    (processAll P callbacks (.new bufferSize, world) deliveries).1.clock =
      ((ticks deliveries).drop ((ticks deliveries).length - MAX_EVENTS),
        Tally.tallyOf minutesBefore ((ticks deliveries).map Int.floor)) := by
  induction deliveries using List.reverseRecOn with
  | nil => rfl
  | append_singleton earlier delivery inductionHypothesis =>
      rw [processAll_append, clock_process]
      generalize processAll P callbacks (.new bufferSize, world) earlier = state at inductionHypothesis ⊢
      rw [ticks_append]
      cases passes delivery.record with
      | false => simpa using inductionHypothesis
      | true =>
          rcases Prod.mk.inj inductionHypothesis with ⟨events, perSecond⟩
          rw [if_pos rfl, if_pos rfl, clock_tick, events, perSecond, drop_append_singleton, List.map_append,
            List.map_singleton, Tally.tallyOf_append]

/-! ## What is reported -/

/-- The ticks of a second since the clock was last more than two minutes ahead of it. -/
def ticksSince (ticks : List ℚ) (second : Int) : Nat :=
  ((ticks.map Int.floor).reverse.takeWhile fun late => decide (minutesBefore late ≤ second)).count second

theorem events_processAll (world : W) (deliveries : List Delivery) :
    (processAll P callbacks (.new bufferSize, world) deliveries).1.events =
      (ticks deliveries).drop ((ticks deliveries).length - MAX_EVENTS) := by
  exact (Prod.mk.inj (@clock_processAll P bufferSize W callbacks world deliveries)).1

theorem perSecond_processAll (world : W) (deliveries : List Delivery) :
    (processAll P callbacks (.new bufferSize, world) deliveries).1.perSecond =
      Tally.tallyOf minutesBefore ((ticks deliveries).map Int.floor) := by
  exact (Prod.mk.inj (@clock_processAll P bufferSize W callbacks world deliveries)).2

theorem samples_processAll (world : W) (deliveries : List Delivery) (now : ℚ) (nSeconds : Int) :
    (processAll P callbacks (.new bufferSize, world) deliveries).1.tpsSamples now nSeconds =
      (chartSeconds now nSeconds).map (ticksSince (ticks deliveries)) := by
  apply List.map_congr_left
  intro second _
  rw [perSecond_processAll]
  exact Tally.count_tallyOf ..

/-- As long as the clock has not been ahead, the seconds of the last two minutes are counted in full. -/
theorem samples_of_current (world : W) {deliveries : List Delivery} {now : ℚ}
    (latest : ∀ t ∈ ticks deliveries, t ≤ now) {nSeconds : Int} (recent : nSeconds ≤ 121) :
    (processAll P callbacks (.new bufferSize, world) deliveries).1.tpsSamples now nSeconds =
      (chartSeconds now nSeconds).map fun second => (ticks deliveries).countP fun t => decide (⌊t⌋ = second) := by
  apply List.map_congr_left
  intro second member
  rcases List.mem_map.mp member with ⟨i, -, rfl⟩
  have current : ∀ late ∈ (ticks deliveries).map Int.floor, minutesBefore late ≤ ⌊now⌋ - nSeconds + 1 + i := by
    intro late member
    rcases List.mem_map.mp member with ⟨t, among, rfl⟩
    have ordered := Int.floor_le_floor (latest t among)
    rw [minutesBefore]
    omega
  rw [perSecond_processAll]
  refine (Tally.count_tallyOf_of_current minutesBefore current).trans ?_
  rw [List.count, List.countP_map]
  apply List.countP_congr
  intro t _
  simp

/-- No more than two minutes of seconds are held. -/
theorem length_perSecond {deliveries : List Delivery} (sorted : (ticks deliveries).Pairwise (· ≤ ·)) (world : W) :
    (processAll P callbacks (.new bufferSize, world) deliveries).1.perSecond.length ≤ 121 := by
  rw [perSecond_processAll]
  cases latest : (ticks deliveries).getLast? with
  | none =>
      rw [List.getLast?_eq_none_iff.mp latest]
      exact Nat.zero_le _
  | some last =>
      have distinct := Tally.nodup_tallyOf minutesBefore ((ticks deliveries).map Int.floor)
      have within : (Tally.tallyOf minutesBefore ((ticks deliveries).map Int.floor)).map Prod.fst ⊆
          (List.range 121).map fun i : Nat => minutesBefore ⌊last⌋ + i := by
        intro second member
        rcases Tally.mem_tallyOf minutesBefore member with ⟨arrived, current⟩
        rcases List.mem_map.mp arrived with ⟨t, among, rfl⟩
        have early := current ⌊last⌋ (by rw [List.getLast?_map, latest]; rfl)
        have late : ⌊t⌋ ≤ ⌊last⌋ := by
          rcases List.getLast?_eq_some_iff.mp latest with ⟨earlier, split⟩
          rw [split] at among sorted
          rcases List.mem_append.mp among with before | same
          · exact Int.floor_le_floor
              ((List.pairwise_append.mp sorted).2.2 t before last (List.mem_singleton_self last))
          · rw [List.mem_singleton.mp same]
        rw [minutesBefore] at early
        refine List.mem_map.mpr ⟨(⌊t⌋ - minutesBefore ⌊last⌋).toNat, List.mem_range.mpr ?_, ?_⟩
        · rw [minutesBefore]
          omega
        · rw [minutesBefore]
          omega
      have bound := (List.subperm_of_subset distinct within).length_le
      rwa [List.length_map, List.length_map, List.length_range] at bound

/-- Whole numbers are drawn as they are. -/
theorem roundTo_natCast (count : Nat) : Charts.roundTo 1 count = count := by
  have scaled : (count : ℚ) * 10 ^ 1 = ((10 * count : Int) : ℚ) := by
    push_cast
    ring
  rw [Charts.roundTo, scaled, Binary64.roundHalfEven_intCast]
  push_cast
  ring

theorem data_tpsHistory {samples : List Nat} {nBars : Int} (length : samples.length = nBars.toNat) :
    (tpsHistory (samples.map Nat.cast) nBars).data = samples.map Nat.cast := by
  rw [tpsHistory]
  split
  · next none =>
      rw [List.map_eq_nil_iff] at none
      rw [← length, none]
      rfl
  · next some =>
      rw [List.map_eq_nil_iff] at some
      have positive := List.length_pos_iff.mpr some
      have missing : (nBars - (samples.length : Int)).toNat = 0 := by omega
      have start : samples.length - nBars.natAbs = 0 := by omega
      simp only [List.length_map, missing, start, if_neg (show ¬nBars ≤ 0 by omega), List.replicate_zero,
        List.nil_append, List.drop_zero, List.map_map]
      apply List.map_congr_left
      intro count _
      exact roundTo_natCast count

/-- For every run of the consumer, whatever its callbacks do and its clock reads: the rate is
that of the last ticks, and a bar of the chart counts the ticks of its second since the clock
was last more than two minutes ahead of it.  Where the clock was never ahead, the bars of the
last two minutes are the ticks of their seconds, and where it did not go back either, no more
than two minutes of seconds are held. -/
theorem reported_throughput (world : W) (deliveries : List Delivery) (now : ℚ) :
    let consumer := (processAll P callbacks (.new bufferSize, world) deliveries).1
    let recent := (ticks deliveries).drop ((ticks deliveries).length - MAX_EVENTS)
    consumer.tps now =
        (PyFloat.finite ((recent.countP fun t => decide (now - TPS_WINDOW < t) : Nat) / TPS_WINDOW)).round 2 ∧
      (∀ nSeconds, (consumer.chartsTps now nSeconds).data =
        ((chartSeconds now nSeconds).map (ticksSince (ticks deliveries))).map Nat.cast) ∧
      ((∀ t ∈ ticks deliveries, t ≤ now) -> ∀ nSeconds ≤ 121, consumer.tpsSamples now nSeconds =
        (chartSeconds now nSeconds).map fun second => (ticks deliveries).countP fun t => decide (⌊t⌋ = second)) ∧
      ((ticks deliveries).Pairwise (· ≤ ·) -> consumer.perSecond.length ≤ 121) := by
  refine ⟨?_, fun nSeconds => ?_, fun latest nSeconds recent => samples_of_current P callbacks world latest recent,
    fun sorted => length_perSecond P callbacks sorted world⟩
  · rw [tps, events_processAll]
  · rw [chartsTps, ← samples_processAll P callbacks world deliveries now nSeconds]
    apply data_tpsHistory
    rw [samples_processAll, List.length_map, chartSeconds, List.length_map, List.length_range]

end Callback

/-- Three records, one of which does not pass. -/
def sampleDeliveries : List Delivery :=
  [⟨.committed, .obj [], 100⟩, ⟨.committed, .null, 100⟩, ⟨.anomalies, .obj [], 201 / 2⟩]

theorem reported_throughput_sample :
    let consumer := (processAll samplePlatform (⟨none, none⟩ : Callbacks Unit)
      (.new BUFFER_SIZE, ()) sampleDeliveries).1
    consumer.tpsSamples 101 3 = [0, 2, 0] ∧ consumer.perSecond.length ≤ 121 := by
  have ticked : ticks sampleDeliveries = [100, 201 / 2] := by decide +kernel
  have reported := @reported_throughput samplePlatform BUFFER_SIZE Unit ⟨none, none⟩ () sampleDeliveries 101
  rw [ticked] at reported
  rcases reported with ⟨-, -, bars, bounded⟩
  refine ⟨?_, bounded (by norm_num)⟩
  rw [bars (by norm_num) 3 (by decide)]
  decide +kernel

end VerifierKafkaConsumer

end Kafka
end ZeroAudit
