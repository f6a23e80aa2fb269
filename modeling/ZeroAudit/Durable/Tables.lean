import ZeroAudit.Durable.Writes
import ZeroAudit.Foundation.Machine
import ZeroAudit.SamplePlatform

namespace ZeroAudit
namespace Cassandra

open Foundation Commitment

/-!
# The two query tables

Every commitment is stored twice, once for each query.  The tables agree when
a transaction has a row in one of them exactly if it has the same row in the
other.  A write of a new transaction keeps the agreement unless it stops
between the tables, and a status update keeps it only where it has nothing to
change, since it is prepared against one table.
-/

variable (P : Platform)

/-! ## Calls -/

inductive Call where
  | write (rec : Dict)
  | setStatus (txnId status : PyStr)

/-- One call, in the environment it meets. -/
def act (ledger : CassandraLedger) : Environment × Call -> Except PyError Bool × CassandraLedger
  | (environment, .write rec) => (ledger.meets environment).write P rec
  | (environment, .setStatus txnId status) =>
      let answer := (ledger.meets environment).setStatus txnId status
      (.ok answer.1, answer.2)

/-- Both tables hold the same transactions, with the same columns. -/
def Consistent (ledger : CassandraLedger) : Prop :=
  ∀ txnId columns, ledger.commitmentsByTxn.lookup txnId = some columns ↔
    ∃ key, key.txnId = txnId ∧ ledger.commitmentsByBucket.lookup key = some columns

/-- Neither table knows the transaction. -/
structure Fresh (ledger : CassandraLedger) (txnId : PyStr) : Prop where
  byTxn : ledger.commitmentsByTxn.lookup txnId = none
  byBucket : ∀ key, key.txnId = txnId -> ledger.commitmentsByBucket.lookup key = none

/-- The call leaves the tables in agreement: a write that reaches the first
table reaches the second, and an update that goes through finds a row that
already has the status. -/
def Safe (ledger : CassandraLedger) : Environment × Call -> Prop
  | (environment, .write rec) =>
      (stored P rec).isSome = true ->
        (ledger.meets environment).takes (.insert .commitmentsByBucket) = true ->
        (ledger.meets environment).takes (.insert .commitmentsByTxn) = true
  | (environment, .setStatus txnId status) =>
      (ledger.meets environment).takes .updateStatus = true ->
        ∃ columns, ledger.commitmentsByTxn.lookup txnId = some columns ∧
          Dict.find columns "status" = some (.str status)

/-- The transaction a call writes, if it can be stored. -/
def writtenId : Environment × Call -> Option PyStr
  | (_, .write rec) => (stored P rec).map fun entry => entry.1.txnId
  | (_, .setStatus _ _) => none

section Step

variable {P} {ledger : CassandraLedger} {environment : Environment}

/-! ## One call -/

/-- The tables after a status update. -/
theorem setStatus_spec (ledger : CassandraLedger) (txnId status : PyStr) :
    (ledger.setStatus txnId status).2.commitmentsByBucket = ledger.commitmentsByBucket ∧
    (ledger.setStatus txnId status).2.commitmentsByTxn =
      if ledger.takes .updateStatus then
        ledger.commitmentsByTxn.insert txnId (Dict.set ((ledger.commitmentsByTxn.lookup txnId).getD
          [(PyStr.ofString "txn_id", .str txnId)]) "status" (.str status))
      else ledger.commitmentsByTxn := by
  unfold CassandraLedger.setStatus CassandraLedger.takes
  cases available : ledger.available with
  | false => exact ⟨rfl, rfl⟩
  | true =>
      cases fails : ledger.environment.fails .updateStatus with
      | true => exact ⟨rfl, rfl⟩
      | false => exact ⟨rfl, rfl⟩

/-- Agreement is a matter of the two tables. -/
theorem consistent_congr (ledger : CassandraLedger) {other : CassandraLedger}
    (bucket : other.commitmentsByBucket = ledger.commitmentsByBucket)
    (txn : other.commitmentsByTxn = ledger.commitmentsByTxn) :
    Consistent other ↔ Consistent ledger := by
  unfold Consistent
  rw [bucket, txn]

/-- A row that enters both tables keeps the agreement. -/
theorem consistent_insert (consistent : Consistent ledger) {key : BucketKey} (columns : Dict)
    (fresh : Fresh ledger key.txnId) {other : CassandraLedger}
    (bucket : other.commitmentsByBucket = ledger.commitmentsByBucket.insert key columns)
    (txn : other.commitmentsByTxn = ledger.commitmentsByTxn.insert key.txnId columns) :
    Consistent other := by
  intro id found
  rw [bucket, txn]
  by_cases same : id = key.txnId
  · subst same
    rw [AList.lookup_insert, Option.some.injEq]
    constructor
    · intro equal
      refine ⟨key, rfl, ?_⟩
      rw [AList.lookup_insert, equal]
    · rintro ⟨own, sameId, stored⟩
      by_cases own = key
      · subst own
        rw [AList.lookup_insert] at stored
        exact Option.some.inj stored
      · rename_i different
        rw [AList.lookup_insert_ne different, fresh.byBucket own sameId] at stored
        cases stored
  · rw [AList.lookup_insert_ne same, consistent id found]
    constructor
    · rintro ⟨own, sameId, stored⟩
      have different : own ≠ key := by
        rintro rfl
        exact same sameId.symm
      exact ⟨own, sameId, (AList.lookup_insert_ne different).trans stored⟩
    · rintro ⟨own, sameId, stored⟩
      have different : own ≠ key := by
        rintro rfl
        exact same sameId.symm
      exact ⟨own, sameId, (AList.lookup_insert_ne different).symm.trans stored⟩

/-- A row that enters the first table only breaks it. -/
theorem not_consistent_insert {key : BucketKey} (columns : Dict) (fresh : Fresh ledger key.txnId)
    {other : CassandraLedger}
    (bucket : other.commitmentsByBucket = ledger.commitmentsByBucket.insert key columns)
    (txn : other.commitmentsByTxn = ledger.commitmentsByTxn) : ¬Consistent other := by
  intro consistent
  have found := (consistent key.txnId columns).mpr ⟨key, rfl, by rw [bucket, AList.lookup_insert]⟩
  rw [txn, fresh.byTxn] at found
  cases found

theorem consistent_write_iff (consistent : Consistent ledger) {rec : Dict}
    (fresh : ∀ txnId, writtenId P (environment, .write rec) = some txnId -> Fresh ledger txnId) :
    Consistent (act P ledger (environment, .write rec)).2 ↔
      Safe P ledger (environment, .write rec) := by
  unfold act Safe
  rcases (ledger.meets environment).write_cases P rec with
    ⟨bucket, txn, refused⟩ | ⟨key, columns, entry, first, bucket, txn⟩
  · rw [consistent_congr ledger bucket txn]
    refine ⟨fun _ storable passes => ?_, fun _ => consistent⟩
    rw [refused storable] at passes
    cases passes
  · have unknown : Fresh ledger key.txnId := by
      apply fresh
      rw [writtenId, entry]
      rfl
    cases second : (ledger.meets environment).takes (.insert .commitmentsByTxn) with
    | false =>
        rw [second] at txn
        refine ⟨fun after => (not_consistent_insert columns unknown bucket txn after).elim, ?_⟩
        intro safe
        have passes := safe (by rw [entry]; rfl) first
        rw [second] at passes
        cases passes
    | true =>
        rw [second] at txn
        exact ⟨fun _ _ _ => second, fun _ => consistent_insert consistent columns unknown bucket txn⟩

theorem consistent_setStatus_iff (consistent : Consistent ledger) (txnId status : PyStr) :
    Consistent (act P ledger (environment, .setStatus txnId status)).2 ↔
      Safe P ledger (environment, .setStatus txnId status) := by
  rcases setStatus_spec (ledger.meets environment) txnId status with ⟨bucket, txn⟩
  unfold act Safe
  cases passes : (ledger.meets environment).takes .updateStatus with
  | false =>
      rw [passes] at txn
      rw [consistent_congr ledger bucket txn]
      refine ⟨fun _ taken => ?_, fun _ => consistent⟩
      rw [passes] at taken
      cases taken
  | true =>
      rw [passes, if_pos rfl] at txn
      constructor
      · intro after _
        have found := (after txnId _).mp (by rw [txn, AList.lookup_insert])
        rw [bucket] at found
        have before := (consistent txnId _).mpr found
        refine ⟨_, before, ?_⟩
        rw [Dict.find_set, if_pos rfl]
      · intro safe
        rcases safe passes with ⟨columns, known, current⟩
        have same : (ledger.meets environment).commitmentsByTxn.lookup txnId = some columns := known
        rw [same, Option.getD_some, Dict.set_eq_self current] at txn
        intro id found
        have agrees : Consistent (ledger.meets environment) := consistent
        rw [bucket, txn, ← agrees id found]
        by_cases equal : id = txnId
        · subst equal
          rw [AList.lookup_insert, same]
        · rw [AList.lookup_insert_ne equal]

/-- Whether a table knows a transaction is a matter of its rows. -/
theorem Fresh.congr {txnId : PyStr} (fresh : Fresh ledger txnId) {other : CassandraLedger}
    (bucket : ∀ key, key.txnId = txnId ->
      other.commitmentsByBucket.lookup key = ledger.commitmentsByBucket.lookup key)
    (txn : other.commitmentsByTxn.lookup txnId = ledger.commitmentsByTxn.lookup txnId) :
    Fresh other txnId :=
  ⟨txn.trans fresh.byTxn, fun key named => (bucket key named).trans (fresh.byBucket key named)⟩

/-- A transaction that no table knows stays unknown over a safe call for
another one. -/
theorem fresh_act {input : Environment × Call} (safe : Safe P ledger input) {txnId : PyStr}
    (fresh : Fresh ledger txnId) (other : writtenId P input ≠ some txnId) :
    Fresh (act P ledger input).2 txnId := by
  rcases input with ⟨environment, call⟩
  cases call with
  | write rec =>
      rcases (ledger.meets environment).write_cases P rec with
        ⟨bucket, txn, -⟩ | ⟨key, columns, entry, -, bucket, txn⟩
      · exact fresh.congr (fun own _ => congrArg (AList.lookup own) bucket)
          (congrArg (AList.lookup txnId) txn)
      · have different : txnId ≠ key.txnId := by
          rintro rfl
          apply other
          rw [writtenId, entry]
          rfl
        apply fresh.congr
        · intro own named
          have keys : own ≠ key := by
            rintro rfl
            exact different named.symm
          exact (congrArg (AList.lookup own) bucket).trans (AList.lookup_insert_ne keys)
        · refine (congrArg (AList.lookup txnId) txn).trans ?_
          split
          · exact AList.lookup_insert_ne different
          · rfl
  | setStatus id status =>
      rcases setStatus_spec (ledger.meets environment) id status with ⟨bucket, txn⟩
      apply fresh.congr
      · exact fun key _ => congrArg (AList.lookup key) bucket
      · refine (congrArg (AList.lookup txnId) txn).trans ?_
        split
        · rename_i taken
          rcases safe taken with ⟨columns, known, -⟩
          have different : txnId ≠ id := by
            rintro rfl
            rw [fresh.byTxn] at known
            cases known
          exact AList.lookup_insert_ne different
        · rfl

/-- What the rest of the calls write stays unknown over a safe call. -/
theorem fresh_rest {input : Environment × Call} {rest : List (Environment × Call)}
    (fresh : ∀ txnId ∈ (input :: rest).filterMap (writtenId P), Fresh ledger txnId)
    (distinct : ((input :: rest).filterMap (writtenId P)).Nodup) :
    (rest.filterMap (writtenId P)).Nodup ∧
      (Safe P ledger input ->
        ∀ txnId ∈ rest.filterMap (writtenId P), Fresh (act P ledger input).2 txnId) := by
  cases written : writtenId P input with
  | none =>
      rw [List.filterMap_cons_none written] at fresh distinct
      exact ⟨distinct, fun safe txnId member => fresh_act safe (fresh txnId member) (by simp [written])⟩
  | some own =>
      rw [List.filterMap_cons_some written] at fresh distinct
      rw [List.nodup_cons] at distinct
      refine ⟨distinct.2, fun safe txnId member => ?_⟩
      apply fresh_act safe (fresh txnId (List.mem_cons_of_mem _ member))
      intro same
      cases written.symm.trans same
      exact distinct.1 member

end Step

/-! ## The sample record -/

def sampleRecord : CommitmentRecord :=
  { txnId := .str Sample.txnId
    commitmentB64 := PyStr.ofString "AAAA"
    bindingHash := List.replicate 64 (.scalar 'a')
    sizeKb := .finite (3 / 2)
    lweParams := Lwe.lweParams
    timestampNs := 1
    seq := 1
    prevChainHash := GENESIS_HASH
    chainHash := List.replicate 64 (.scalar 'b')
    signatureB64 := PyStr.ofString "AAAA"
    signingKeyId := List.replicate 16 (.scalar 'c')
    sigAlg := PyStr.ofString "Ed25519"
    pubkeyFingerprint := List.replicate 16 (.scalar 'd')
    piiBytes := 0
    accountHash := List.replicate 64 (.scalar 'e')
    txnType := Json.text "RTGS"
    status := .verified
    anomalyScore := .zero
    flagReason := Json.text "NONE"
    noveltyScore := .zero
    typologyScore := .zero }

def sampleWrite : Environment × Call := (healthy, .write sampleRecord.toExportDict)

/-- A healthy write on an empty ledger leaves the row of the record. -/
theorem lookup_sampleWrite :
    (act samplePlatform (.empty healthy) sampleWrite).2.commitmentsByTxn.lookup Sample.txnId =
      some (exportRow sampleRecord) := by
  rcases ((CassandraLedger.empty healthy).meets healthy).write_spec samplePlatform
    sampleRecord.toExportDict with ⟨-, txn, -, -, -⟩
  rw [stored_export samplePlatform (rfl : sampleRecord.txnId = .str Sample.txnId)] at txn
  refine (congrArg (AList.lookup Sample.txnId) txn).trans ?_
  exact AList.lookup_insert _

/-! ## Runs -/

/-- In every run of writes of distinct transactions and of status updates, in
which every statement may go through or raise: the tables agree after every
call exactly if every call is safe in the state it meets. -/
theorem tables_consistent_iff {ledger : CassandraLedger} (consistent : Consistent ledger)
    {inputs : List (Environment × Call)}
    (fresh : ∀ txnId ∈ inputs.filterMap (writtenId P), Fresh ledger txnId)
    (distinct : (inputs.filterMap (writtenId P)).Nodup) :
    (∀ seen, seen <+: inputs -> Consistent (Machine.run (act P) ledger seen).2) ↔
      Machine.Along (act P) (Safe P) ledger inputs := by
  induction inputs generalizing ledger with
  | nil =>
      refine ⟨fun _ => trivial, fun _ seen before => ?_⟩
      rw [List.prefix_nil.mp before]
      exact consistent
  | cons input rest inductionHypothesis =>
      have unknown : ∀ txnId, writtenId P input = some txnId -> Fresh ledger txnId := by
        intro txnId written
        apply fresh
        rw [List.filterMap_cons_some written]
        exact List.mem_cons_self
      have step : Consistent (act P ledger input).2 ↔ Safe P ledger input := by
        rcases input with ⟨environment, call⟩
        cases call with
        | write rec => exact consistent_write_iff consistent unknown
        | setStatus txnId status => exact consistent_setStatus_iff consistent txnId status
      rcases fresh_rest fresh distinct with ⟨apart, later⟩
      constructor
      · intro always
        have next : Consistent (act P ledger input).2 :=
          always [input] (List.cons_prefix_cons.mpr ⟨rfl, List.nil_prefix⟩)
        have safe := step.mp next
        refine ⟨safe, (inductionHypothesis next (later safe) apart).mp ?_⟩
        intro seen before
        exact always (input :: seen) (List.cons_prefix_cons.mpr ⟨rfl, before⟩)
      · rintro ⟨safe, along⟩ seen before
        cases seen with
        | nil => exact consistent
        | cons own others =>
            rcases List.cons_prefix_cons.mp before with ⟨rfl, tail⟩
            exact (inductionHypothesis (step.mpr safe) (later safe) apart).mpr along others tail

theorem consistent_empty (environment : Environment) : Consistent (.empty environment) := by
  intro txnId columns
  constructor
  · intro found
    cases found
  · rintro ⟨key, -, found⟩
    cases found

theorem fresh_empty (environment : Environment) (txnId : PyStr) : Fresh (.empty environment) txnId :=
  ⟨rfl, fun _ _ => rfl⟩

/-- A healthy write and a status update that finds the status as it is. -/
theorem tables_consistent_iff_sample :
    Consistent (Machine.run (act samplePlatform) (.empty healthy)
      [sampleWrite, (healthy, .setStatus Sample.txnId (PyStr.ofString "VERIFIED"))]).2 := by
  have ids : [sampleWrite, (healthy, .setStatus Sample.txnId (PyStr.ofString "VERIFIED"))].filterMap
      (writtenId samplePlatform) = [Sample.txnId] := rfl
  refine (tables_consistent_iff samplePlatform (consistent_empty healthy)
    (fun txnId _ => fresh_empty healthy txnId) (ids ▸ List.nodup_singleton Sample.txnId)).mpr ?_
      _ List.prefix_rfl
  exact ⟨fun _ _ => rfl, fun _ => ⟨_, lookup_sampleWrite, rfl⟩, trivial⟩

/-- A record is written to both tables and then rejected.  The point lookup
shows the rejection, and the ledger by day does not. -/
theorem rejection_splits_tables :
    ¬Consistent (Machine.run (act samplePlatform) (.empty healthy)
      [sampleWrite, (healthy, .setStatus Sample.txnId (PyStr.ofString "REJECTED"))]).2 := by
  have written : Consistent (act samplePlatform (.empty healthy) sampleWrite).2 := by
    apply (consistent_write_iff (consistent_empty healthy) fun txnId _ => fresh_empty healthy txnId).mpr
    intro _ _
    rfl
  intro after
  have safe : Safe samplePlatform (act samplePlatform (.empty healthy) sampleWrite).2
      (healthy, .setStatus Sample.txnId (PyStr.ofString "REJECTED")) :=
    (consistent_setStatus_iff written ..).mp after
  rcases safe rfl with ⟨columns, found, rejected⟩
  rw [lookup_sampleWrite] at found
  cases found
  have texts : PyStr.ofString "VERIFIED" = PyStr.ofString "REJECTED" :=
    Json.str.inj (Option.some.inj rejected)
  exact absurd ((PyStr.ofString_inj ..).mp texts) (by decide)

end Cassandra
end ZeroAudit
