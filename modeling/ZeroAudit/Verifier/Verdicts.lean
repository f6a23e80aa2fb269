import ZeroAudit.Foundation.Retention
import ZeroAudit.Verifier.Exposure
import ZeroAudit.Verifier.Malformed

namespace ZeroAudit
namespace Api

open Foundation Verify Kafka

/-!
# Whose verdict a record is shown with

Reports are kept by transaction id, records by the order of their delivery.
A record that is returned is stamped with the report that its id has at that
moment.  This is the latest one, which may have been drawn on another record of
the same id.  The oldest ids are dropped where there are too many, and an id
that comes back keeps its old place, so that a record can also be shown with no
verdict at all.  What is never shown is a verdict that a later record of the id
has replaced.
-/

variable (P : Platform)

/-! ## What was consumed -/

/-- A record of the committed topic, and the actions before its delivery. -/
structure Consumed where
  earlier : List Dashboard.Action
  record : Dict

namespace Consumed

variable (place : Consumed)

/-- The id its report is kept under. -/
def txnId : Json := Dict.get place.record "txn_id" (Json.text "")

/-- The outcome of its verification. -/
def outcome : Except PyError Report :=
  (verifyEnvelope P (Dashboard.after P place.earlier).reports.verifier place.record).1

/-- What it writes to the reports. -/
def written : Option (PyStr × Report) :=
  match place.outcome P, place.txnId with
  | .ok report, .str id => some (id, report)
  | _, _ => none

/-- A report is drawn on records with a text for an id only. -/
theorem written_of_report {report : Report} (reported : place.outcome P = .ok report) :
    ∃ id, place.txnId = .str id ∧ place.written P = some (id, report) := by
  have answerable := (answers_iff_answerable P _ place.record).mp ⟨report, reported⟩
  rcases answerable.linkable with ⟨_, _, id, -, -, named, -⟩
  have own : place.txnId = .str id := named
  refine ⟨id, own, ?_⟩
  unfold written
  rw [reported, own]

theorem written_eq_some_iff {id : PyStr} {report : Report} :
    place.written P = some (id, report) ↔ place.txnId = .str id ∧ place.outcome P = .ok report := by
  constructor
  · intro writes
    unfold written at writes
    split at writes
    · next found own =>
        cases writes
        exact ⟨own, found⟩
    · cases writes
  · rintro ⟨own, reported⟩
    unfold written
    rw [reported, own]

end Consumed

/-- The record that an action brings to the committed buffer. -/
def brings : Dashboard.Action -> Option Dict
  | .deliver delivery => examines P delivery
  | _ => none

/-- The records that came after some actions, oldest first. -/
def consumedFrom (earlier : List Dashboard.Action) : List Dashboard.Action -> List Consumed
  | [] => []
  | action :: rest =>
      let later := consumedFrom (earlier ++ [action]) rest
      match brings P action with
      | some record => ⟨earlier, record⟩ :: later
      | none => later

/-- The records that the actions brought to the committed buffer. -/
def consumed (actions : List Dashboard.Action) : List Consumed := consumedFrom P [] actions

theorem consumedFrom_append (earlier first second : List Dashboard.Action) :
    consumedFrom P earlier (first ++ second) =
      consumedFrom P earlier first ++ consumedFrom P (earlier ++ first) second := by
  induction first generalizing earlier with
  | nil => simp [consumedFrom]
  | cons action rest inductionHypothesis =>
      simp only [List.cons_append, consumedFrom, inductionHypothesis, List.append_assoc, List.nil_append]
      cases brings P action with
      | none => rfl
      | some record => rfl

theorem consumed_append (actions : List Dashboard.Action) (action : Dashboard.Action) :
    consumed P (actions ++ [action]) =
      consumed P actions ++ match brings P action with
        | some record => [⟨actions, record⟩]
        | none => [] := by
  unfold consumed
  rw [consumedFrom_append, List.nil_append]
  rfl

/-- Where an action brings nothing, nothing more has been consumed. -/
theorem consumed_of_quiet (actions : List Dashboard.Action) {action : Dashboard.Action}
    (quiet : brings P action = none) : consumed P (actions ++ [action]) = consumed P actions := by
  rw [consumed_append, quiet, List.append_nil]

/-! ## The reports as a map -/

/-- The entries of a map under the texts they are kept by. -/
def underTexts (entries : List (PyStr × Report)) : List (Json × Report) :=
  entries.map fun entry => (.str entry.1, entry.2)

theorem assignEntry_underTexts (id : PyStr) (report : Report) (entries : List (PyStr × Report)) :
    assignEntry (.str id) report (underTexts entries) = underTexts (Retention.upsert id report entries) := by
  unfold underTexts
  induction entries with
  | nil => rfl
  | cons entry rest inductionHypothesis =>
      rcases entry with ⟨own, old⟩
      by_cases hit : own = id
      · simp [assignEntry, Retention.upsert, Json.eqScalar, hit]
      · simp [assignEntry, Retention.upsert, Json.eqScalar, hit, inductionHypothesis]

/-- What is found under a value in a map of texts. -/
theorem lookup_underTexts {entries : List (PyStr × Report)} (distinct : (entries.map Prod.fst).Nodup)
    {key : Json} {found : Option Report} (read : lookup (underTexts entries) key = .ok found)
    (report : Report) :
    found = some report ↔ ∃ id, key = .str id ∧ (id, report) ∈ entries := by
  unfold lookup at read
  rcases bind_eq_ok_iff.mp read with ⟨_, -, same⟩
  cases same
  clear read
  unfold underTexts
  induction entries with
  | nil => simp
  | cons entry rest inductionHypothesis =>
      rcases entry with ⟨own, old⟩
      rw [List.map_cons, List.nodup_cons] at distinct
      by_cases hit : key = .str own
      · subst hit
        simp only [List.map_cons, List.find?_cons, Json.eqScalar, decide_true, Option.map_some,
          Option.some.injEq, Json.str.injEq, List.mem_cons, Prod.mk.injEq]
        constructor
        · rintro rfl
          exact ⟨own, rfl, Or.inl ⟨rfl, rfl⟩⟩
        · rintro ⟨_, rfl, ⟨-, same⟩ | later⟩
          · exact same.symm
          · exact absurd (List.mem_map.mpr ⟨_, later, rfl⟩) distinct.1
      · have missed : (Json.str own).eqScalar key = false := by
          rw [Bool.eq_false_iff]
          exact fun equal => hit (eqScalar_str equal)
        simp only [List.map_cons, List.find?_cons, missed, List.mem_cons, Prod.mk.injEq]
        rw [inductionHypothesis distinct.2]
        constructor
        · rintro ⟨id, named, later⟩
          exact ⟨id, named, Or.inr later⟩
        · rintro ⟨id, named, ⟨rfl, -⟩ | later⟩
          · exact absurd named hit
          · exact ⟨id, named, later⟩

/-! ## What the service holds after a run -/

/-- The writes to the reports, in order. -/
def writes (actions : List Dashboard.Action) : List (PyStr × Report) :=
  (consumed P actions).filterMap (Consumed.written P)

/-- The reports a service has kept after these actions. -/
def kept (actions : List Dashboard.Action) : List (PyStr × Report) :=
  Retention.retained MAX_REPORTS DROPPED_REPORTS (writes P actions)

namespace Dashboard

theorem after_append (actions : List Action) (action : Action) :
    after P (actions ++ [action]) = (act P (after P actions) action).2 := by
  unfold after
  rw [Machine.run_append]
  rfl

theorem isSome_consumer_after (actions : List Action) : (after P actions).consumer.isSome = true :=
  Machine.invariant_run (fun board : Dashboard => board.consumer.isSome = true)
    (fun _ action _ up => isSome_consumer_act P up action) rfl

/-- Verifying a record adds what it writes to a map that is kept by texts. -/
theorem latest_recordVerification {actions : List Action} {record : Dict} {entries : List (PyStr × Report)}
    (before : (after P actions).reports.latest = underTexts entries) :
    (recordVerification P (after P actions).reports record).2.latest =
      underTexts (match Consumed.written P ⟨actions, record⟩ with
        | some write => Retention.upsert write.1 write.2
            (Retention.trim MAX_REPORTS DROPPED_REPORTS entries)
        | none => entries) := by
  have trimmed : (if MAX_REPORTS < (underTexts entries).length
      then (underTexts entries).drop DROPPED_REPORTS else underTexts entries) =
        underTexts (Retention.trim MAX_REPORTS DROPPED_REPORTS entries) := by
    unfold underTexts Retention.trim
    rw [List.length_map]
    split
    · rw [List.map_drop]
    · rfl
  rcases ran : verifyEnvelope P (after P actions).reports.verifier record with ⟨error | report, verifier⟩
  · have silent : Consumed.written P ⟨actions, record⟩ = none := by
      unfold Consumed.written Consumed.outcome
      rw [ran]
    rw [silent]
    unfold recordVerification
    rw [ran]
    exact before
  · rcases Consumed.written_of_report P ⟨actions, record⟩ (congrArg Prod.fst ran) with
      ⟨id, named, writes⟩
    rw [writes]
    unfold Consumed.txnId at named
    unfold recordVerification
    rw [ran]
    simp only [named, before, trimmed, assign, hashable, bind, Except.bind, pure, Except.pure,
      assignEntry_underTexts]

/-- What brings no record leaves the reports as they are. -/
theorem latest_act_of_quiet {board : Dashboard} (up : board.consumer.isSome = true) {action : Action}
    (quiet : brings P action = none) : (act P board action).2.reports.latest = board.reports.latest := by
  cases action with
  | deliver delivery =>
      change (board.deliver P delivery).reports.latest = _
      rw [reports_deliver P up, show examines P delivery = none from quiet]
  | fetchKeys proverKeys => rfl
  | transactions n => exact congrArg Reports.latest (reports_transactions board n)
  | anomalies n => exact congrArg Reports.latest (reports_anomalies board n)
  | resolve txnId req nowNs => exact congrArg Reports.latest (reports_resolve board txnId req nowNs)

/-- Only a delivery brings a record. -/
theorem delivery_of_brings {action : Action} {record : Dict} (brought : brings P action = some record) :
    ∃ delivery, action = .deliver delivery ∧ examines P delivery = some record := by
  cases action with
  | deliver delivery => exact ⟨delivery, rfl, brought⟩
  | _ => cases brought

/-- What is kept is what a bounded map keeps of the writes. -/
theorem latest_after (actions : List Action) :
    (after P actions).reports.latest = underTexts (kept P actions) := by
  induction actions using List.reverseRecOn with
  | nil => rfl
  | append_singleton actions action inductionHypothesis =>
      have up := isSome_consumer_after P actions
      rw [after_append]
      unfold kept writes
      cases brought : brings P action with
      | none =>
          rw [latest_act_of_quiet P up brought, inductionHypothesis, consumed_of_quiet P actions brought]
          rfl
      | some record =>
          rcases delivery_of_brings P brought with ⟨delivery, rfl, examined⟩
          change ((after P actions).deliver P delivery).reports.latest = _
          rw [reports_deliver P up, examined]
          dsimp only
          rw [latest_recordVerification P inductionHypothesis]
          congr 1
          rw [consumed_append, brought, List.filterMap_append]
          unfold kept writes
          cases written : Consumed.written P ⟨actions, record⟩ with
          | none => simp [written]
          | some write => simp [written, Retention.retained_append]

/-- A record without the verdict that the list writes on it. -/
def unstamped (record : Dict) : Dict := Dict.without record "verified"

theorem unstamped_stampVerdict (board : Dashboard) {record updated : Dict}
    (stamps : board.stampVerdict record = .ok updated) : unstamped updated = unstamped record := by
  rcases bind_eq_ok_iff.mp stamps with ⟨report, -, same⟩
  cases same
  exact Dict.without_set record "verified" _

/-- The committed buffer is given the records that are verified. -/
theorem committedBuffer_process {W : Type} {bufferSize : Nat} (consumer : VerifierKafkaConsumer bufferSize)
    (callbacks : Callbacks W) (world : W) (delivery : Delivery) :
    (consumer.process P callbacks world delivery).1.committedBuffer =
      match examines P delivery with
      | none => consumer.committedBuffer
      | some record => consumer.committedBuffer.push record := by
  have pushed := consumer.buffer_process P callbacks world delivery .committed
  change (VerifierKafkaConsumer.buffer _ .committed) = _
  rw [pushed]
  unfold examines
  cases delivery.topic with
  | committed => cases admits P delivery.record <;> rfl
  | anomalies => cases admits P delivery.record <;> rfl

theorem consumer_deliver {board : Dashboard} {former : VerifierKafkaConsumer BUFFER_SIZE}
    (listening : board.consumer = some former) (delivery : Delivery) :
    (board.deliver P delivery).consumer =
      some (former.process P (callbacks P) board.reports delivery).1 := by
  unfold deliver
  rw [listening]

/-- What brings no record leaves the committed buffer as it is, but for the verdicts. -/
theorem committed_act_of_quiet {board : Dashboard} {former consumer : VerifierKafkaConsumer BUFFER_SIZE}
    (listening : board.consumer = some former) {action : Action} (quiet : brings P action = none)
    (own : (act P board action).2.consumer = some consumer) :
    consumer.committedBuffer.items.map unstamped = former.committedBuffer.items.map unstamped := by
  cases action with
  | deliver delivery =>
      have same := Option.some.inj (own.symm.trans (consumer_deliver P listening delivery))
      rw [same, committedBuffer_process, show examines P delivery = none from quiet]
  | fetchKeys proverKeys =>
      rw [Option.some.inj (own.symm.trans listening)]
  | transactions n =>
      change (board.transactions n).2.consumer = some consumer at own
      rw [transactions_snd listening] at own
      cases own
      exact former.committedBuffer.revise_items_map (fun _ _ => unstamped_stampVerdict board) n
  | anomalies n =>
      change (board.anomalies n).2.consumer = some consumer at own
      rw [anomalies_snd listening] at own
      cases own
      rfl
  | resolve txnId req nowNs =>
      change (board.resolve txnId req nowNs).2.consumer = some consumer at own
      rw [consumer_resolve] at own
      rw [Option.some.inj (own.symm.trans listening)]

/-- The committed buffer holds the last records that were consumed. -/
theorem held_after (actions : List Action) {consumer : VerifierKafkaConsumer BUFFER_SIZE}
    (own : (after P actions).consumer = some consumer) :
    consumer.committedBuffer.items.map unstamped =
      ((consumed P actions).map fun place => unstamped place.record).drop
        (((consumed P actions).map fun place => unstamped place.record).length - BUFFER_SIZE) := by
  induction actions using List.reverseRecOn generalizing consumer with
  | nil =>
      have empty : consumer.committedBuffer.items = [] := by
        cases own
        rfl
      rw [empty]
      exact List.drop_nil.symm
  | append_singleton actions action inductionHypothesis =>
      rcases Option.isSome_iff_exists.mp (isSome_consumer_after P actions) with ⟨former, listening⟩
      have before := inductionHypothesis listening
      rw [after_append] at own
      cases brought : brings P action with
      | none =>
          rw [committed_act_of_quiet P listening brought own, consumed_of_quiet P actions brought]
          exact before
      | some record =>
          rcases delivery_of_brings P brought with ⟨delivery, rfl, examined⟩
          have same := Option.some.inj (own.symm.trans (consumer_deliver P listening delivery))
          rw [same, committedBuffer_process, examined, consumed_append, brought]
          simp only [List.map_append, List.map_singleton]
          exact former.committedBuffer.push_items_map before record

/-! ## What is shown -/

/-- Among these records, the last one with this id that came to a report came to
this one. -/
def LastReported (places : List Consumed) (id : Json) (report : Report) : Prop :=
  ∃ before place later, places = before ++ place :: later ∧ place.txnId = id ∧
    place.outcome P = .ok report ∧
    ∀ other ∈ later, other.txnId = id -> ∀ own, other.outcome P ≠ .ok own

/-- There is only one last report. -/
theorem LastReported.unique {places : List Consumed} {id : Json} {report own : Report}
    (last : LastReported P places id report) (other : LastReported P places id own) : report = own := by
  rcases last with ⟨before, place, later, rfl, named, reported, silent⟩
  rcases other with ⟨before', place', later', split, named', reported', silent'⟩
  rcases List.append_eq_append_iff.mp split with ⟨between, -, tail⟩ | ⟨between, -, tail⟩
  · cases between with
    | nil =>
        cases tail
        exact Except.ok.inj (reported.symm.trans reported')
    | cons first rest =>
        rcases List.cons.inj tail with ⟨rfl, same⟩
        exact absurd reported' (silent place' (by rw [same]; simp) named' own)
  · cases between with
    | nil =>
        cases tail
        exact Except.ok.inj (reported.symm.trans reported')
    | cons first rest =>
        rcases List.cons.inj tail with ⟨rfl, same⟩
        exact absurd reported (silent' place (by rw [same]; simp) named report)

/-- The verdict that a returned record is shown with. -/
def shownVerdict (record : Dict) : Json := Dict.get record "verified" .null

/-- A stamped record shows what its id has in the reports. -/
theorem shown_of_stampVerdict {board : Dashboard} {old record : Dict}
    (stamped : board.stampVerdict old = .ok record) :
    ∃ found, lookup board.reports.latest (Dict.get record "txn_id" .null) = .ok found ∧
      shownVerdict record = match found with
        | some report => .bool report.verified
        | none => .null := by
  rcases bind_eq_ok_iff.mp stamped with ⟨found, read, same⟩
  cases same
  refine ⟨found, ?_, ?_⟩
  · rw [Dict.get, Dict.find_set, if_neg (by decide)]
    exact read
  · rw [shownVerdict, Dict.get, Dict.find_set, if_pos rfl]
    rfl

/-- The returned records are the last ones consumed, stamped. -/
theorem returned_transactions {actions : List Action} {n : Int} {records : List Dict}
    (answered : ((after P actions).transactions n).1 = .ok records) :
    (∀ record ∈ records, ∃ old, (after P actions).stampVerdict old = .ok record) ∧
      records.length ≤ BUFFER_SIZE ∧
      records.map unstamped <:+ (consumed P actions).map fun place => unstamped place.record := by
  rcases Option.isSome_iff_exists.mp (isSome_consumer_after P actions) with ⟨consumer, own⟩
  have held := held_after P actions own
  unfold transactions at answered
  simp only [own] at answered
  split at answered
  · cases answered
  · next fine =>
      cases answered
      have returned : ({ after P actions with consumer := some { consumer with
            committedBuffer := (consumer.committedBuffer.revise n (after P actions).stampVerdict).2 } } :
          Dashboard).committed n =
            (visit (after P actions).stampVerdict (consumer.committedBuffer.snapshot n)).2 :=
        consumer.committedBuffer.snapshot_revise n _
      rw [returned]
      refine ⟨?_, ?_, ?_⟩
      · intro record member
        have stamped := forall₂_visit fine
        rcases List.getElem_of_mem member with ⟨place, bound, same⟩
        rw [← same]
        have early : place < (consumer.committedBuffer.snapshot n).length := by
          rw [stamped.length_eq]
          exact bound
        exact ⟨_, stamped.get early bound⟩
      · rw [length_visit, RingBuffer.snapshot, List.length_drop]
        have bounded := consumer.committedBuffer.bounded
        omega
      · rw [map_visit fun _ _ => unstamped_stampVerdict (after P actions), RingBuffer.snapshot,
          List.map_drop, held]
        exact (List.drop_suffix ..).trans (List.drop_suffix ..)

/-- What stands among the writes was written by a record that was consumed. -/
theorem lastReported_of_kept {actions : List Action} {id : PyStr} {report : Report}
    (found : (id, report) ∈ kept P actions) : LastReported P (consumed P actions) (.str id) report := by
  rcases Retention.last_of_retained _ _ found with ⟨before, after, split, later⟩
  rcases List.filterMap_eq_append_iff.mp split with ⟨first, second, whole, -, written⟩
  rcases List.filterMap_eq_cons_iff.mp written with ⟨silent, place, rest, parts, skipped, own, others⟩
  rcases (Consumed.written_eq_some_iff P place).mp own with ⟨named, reported⟩
  refine ⟨first ++ silent, place, rest, by rw [whole, parts, List.append_assoc], named, reported, ?_⟩
  intro other member sameId another outcome
  have write := (Consumed.written_eq_some_iff P other).mpr ⟨sameId, outcome⟩
  rw [← others] at later
  exact later (id, another) (List.mem_filterMap.mpr ⟨other, member, write⟩) rfl

/-- A report that was drawn on the last record of an id, and on no earlier one, is
still kept while the record is in the buffer. -/
theorem kept_of_once {actions : List Action} {before later : List Consumed} {place : Consumed}
    {id : PyStr} {report : Report} (split : consumed P actions = before ++ place :: later)
    (named : place.txnId = .str id) (reported : place.outcome P = .ok report)
    (first : ∀ other ∈ before, other.txnId = place.txnId -> ∀ own, other.outcome P ≠ .ok own)
    (last : ∀ other ∈ later, other.txnId = place.txnId -> ∀ own, other.outcome P ≠ .ok own)
    (recent : later.length < BUFFER_SIZE) : (id, report) ∈ kept P actions := by
  have own := (Consumed.written_eq_some_iff P place).mpr ⟨named, reported⟩
  have unwritten : ∀ places : List Consumed,
      (∀ other ∈ places, other.txnId = place.txnId -> ∀ own, other.outcome P ≠ .ok own) ->
        id ∉ (places.filterMap (Consumed.written P)).map Prod.fst := by
    intro places silent found
    rcases List.mem_map.mp found with ⟨⟨_, another⟩, write, rfl⟩
    rcases List.mem_filterMap.mp write with ⟨other, member, writes⟩
    rcases (Consumed.written_eq_some_iff P other).mp writes with ⟨same, outcome⟩
    exact silent other member (same.trans named.symm) another outcome
  have writes : writes P actions = before.filterMap (Consumed.written P) ++
      (id, report) :: later.filterMap (Consumed.written P) := by
    unfold Api.writes
    rw [split, List.filterMap_append, List.filterMap_cons, own]
  have short : (later.filterMap (Consumed.written P)).length + DROPPED_REPORTS ≤ MAX_REPORTS := by
    have few := List.length_filterMap_le (Consumed.written P) later
    unfold BUFFER_SIZE at recent
    unfold DROPPED_REPORTS MAX_REPORTS
    omega
  rcases Retention.retained_of_once MAX_REPORTS DROPPED_REPORTS (unwritten before first)
    (unwritten later last) short with ⟨older, newer, retained, -⟩
  unfold kept
  rw [writes, retained]
  exact List.mem_append_right _ List.mem_cons_self

/-- A returned record against the place it was consumed at, between others.  A
verdict that it is shown with is the one of the last record of its id that came
to a report.  If that is the record itself, it is shown with its own verdict, or
with none if its id came to a report before. -/
structure ShownRightly (before : List Consumed) (place : Consumed) (later : List Consumed) (record : Dict) :
    Prop where
  content : unstamped place.record = unstamped record
  latest : ∀ verdict, shownVerdict record = .bool verdict ->
    ∃ report, LastReported P (before ++ place :: later) (Dict.get record "txn_id" .null) report ∧
      report.verified = verdict
  own : ∀ report, place.outcome P = .ok report -> Dict.has record "txn_id" = true ->
    (∀ other ∈ later, other.txnId = place.txnId -> ∀ own, other.outcome P ≠ .ok own) ->
      shownVerdict record = .bool report.verified ∨
      shownVerdict record = .null ∧
        ∃ other ∈ before, other.txnId = place.txnId ∧ ∃ own, other.outcome P = .ok own

/-- A returned record has its place among what was consumed. -/
theorem place_of_suffix {places : List Consumed} {records front back : List Dict} {record : Dict}
    (suffix : records.map unstamped <:+ places.map fun place => unstamped place.record)
    (split : records = front ++ record :: back) :
    ∃ before place later, places = before ++ place :: later ∧ later.length = back.length ∧
      unstamped place.record = unstamped record := by
  rcases suffix with ⟨dropped, whole⟩
  rw [split, List.map_append, List.map_cons, ← List.append_assoc] at whole
  rcases List.map_eq_append_iff.mp whole.symm with ⟨before, rest, consumedSplit, -, tail⟩
  rcases List.map_eq_cons_iff.mp tail with ⟨place, later, rfl, content, others⟩
  have lengths : later.length = back.length := by
    have sizes := congrArg List.length others
    rwa [List.length_map, List.length_map] at sizes
  exact ⟨before, place, later, consumedSplit, lengths, content⟩

/-- A record that carries an id carries the one it was consumed with. -/
theorem get_txnId_of_content {place : Consumed} {record : Dict} {id : PyStr}
    (content : unstamped place.record = unstamped record) (named : place.txnId = .str id)
    (carries : Dict.has record "txn_id" = true) : Dict.get record "txn_id" .null = .str id := by
  have same := congrArg (fun fields => Dict.find fields "txn_id") content
  simp only [unstamped, Dict.find_without _ (show "txn_id" ≠ "verified" by decide)] at same
  unfold Consumed.txnId at named
  rw [Dict.get, same] at named
  unfold Dict.has at carries
  rcases Option.isSome_iff_exists.mp carries with ⟨value, carried⟩
  rw [carried] at named
  rw [Dict.get, carried]
  exact named

/-- After every run, each record that `/transactions` returns is one of the last
records consumed, in their order, and is shown rightly. -/
theorem shown_verdict_latest {actions : List Action} {n : Int} {records front back : List Dict}
    {record : Dict} (answered : ((after P actions).transactions n).1 = .ok records)
    (split : records = front ++ record :: back) :
    ∃ before place later, consumed P actions = before ++ place :: later ∧ later.length = back.length ∧
      ShownRightly P before place later record := by
  rcases returned_transactions P answered with ⟨stamped, bounded, suffix⟩
  rcases stamped record (by rw [split]; exact List.mem_append_right _ List.mem_cons_self) with
    ⟨old, stamps⟩
  rcases shown_of_stampVerdict stamps with ⟨found, read, shown⟩
  rw [latest_after] at read
  have distinct := Retention.nodup_retained MAX_REPORTS DROPPED_REPORTS (writes P actions)
  have keeps := lookup_underTexts distinct read
  rcases place_of_suffix suffix split with ⟨before, place, later, consumedSplit, lengths, content⟩
  refine ⟨before, place, later, consumedSplit, lengths, content, ?_, ?_⟩
  · intro verdict isShown
    rw [shown] at isShown
    cases found with
    | none => cases isShown
    | some report =>
        rcases (keeps report).mp rfl with ⟨id, named, member⟩
        rw [named, ← consumedSplit]
        exact ⟨report, lastReported_of_kept P member, Json.bool.inj isShown⟩
  · intro report reported carries last
    rcases Consumed.written_of_report P place reported with ⟨id, named, -⟩
    have own := get_txnId_of_content content named carries
    by_cases earlier : ∃ other ∈ before, other.txnId = place.txnId ∧ ∃ own, other.outcome P = .ok own
    · cases found with
      | none => exact Or.inr ⟨shown, earlier⟩
      | some latest =>
          left
          rcases (keeps latest).mp rfl with ⟨id', named', member⟩
          rw [own] at named'
          cases named'
          have here : LastReported P (consumed P actions) (.str id) report :=
            ⟨before, place, later, consumedSplit, named, reported, named ▸ last⟩
          rw [shown, here.unique P (lastReported_of_kept P member)]
    · left
      have recent : later.length < BUFFER_SIZE := by
        rw [lengths]
        rw [split, List.length_append, List.length_cons] at bounded
        omega
      have member := kept_of_once P consumedSplit named reported
        (fun other member same own outcome => earlier ⟨other, member, same, own, outcome⟩) last recent
      rw [(keeps report).mpr ⟨id, own, member⟩] at shown
      exact shown

/-- A copy of an envelope whose chain hash was replaced. -/
def forgedCopy : Dict := Dict.set unsignedEnvelope "chain_hash" (Json.text "forged")

/-- The copy is delivered before the envelope that it was made from. -/
def copyFirst : List Action :=
  [.deliver ⟨.committed, .obj forgedCopy, 0⟩, .deliver ⟨.committed, .obj unsignedEnvelope, 0⟩]

theorem shown_verdict_latest_copyFirst :
    ∃ records record back before place later,
      ((after samplePlatform copyFirst).transactions 50).1 = .ok records ∧ records = record :: back ∧
      consumed samplePlatform copyFirst = before ++ place :: later ∧ later.length = back.length ∧
      ShownRightly samplePlatform before place later record := by
  have two : ((after samplePlatform copyFirst).transactions 50).1.toOption.map List.length = some 2 := by
    decide +kernel
  cases answered : ((after samplePlatform copyFirst).transactions 50).1 with
  | error failure =>
      rw [answered] at two
      cases two
  | ok records =>
      rw [answered] at two
      cases records with
      | nil => cases two
      | cons record back =>
          have shown : record :: back = [] ++ record :: back := rfl
          rcases shown_verdict_latest samplePlatform answered shown with
            ⟨before, place, later, split, lengths, rightly⟩
          exact ⟨record :: back, record, back, before, place, later, rfl, rfl, split, lengths, rightly⟩

/-- The copy is reported unverified, its original is reported verified, and both
are shown as verified. -/
theorem forgedCopy_borrows_verdict :
    ((consumed samplePlatform copyFirst).map fun place =>
      (place.outcome samplePlatform).toOption.map Report.verified) = [some false, some true] ∧
    (((after samplePlatform copyFirst).transactions 50).1.toOption.map
      (List.map fun record => (shownVerdict record).truthy)) = some [true, true] := by
  refine ⟨?_, ?_⟩
  · decide +kernel
  · decide +kernel

end Dashboard
end Api
end ZeroAudit
