import ZeroAudit.Durable.Book

namespace ZeroAudit
namespace Cassandra

open Foundation Commitment

/-!
# Transitions of transactions that do not exist

The ring is asked whether it has the record before it is marked.  The ledger is
not: its update makes the row that it does not find, and the store takes the
update that goes through for a transition that was made.  A row without a
commitment stays behind, and is served as a record from then on.  Only where
the update does not go through is a transition of an unknown id refused.
-/

variable (P : Platform)

/-! ## Lives of a store -/

/-- What may happen to a store.  A new process may have a ring and keys of its own. -/
inductive Incident where
  | request (request : Request)
  | restart (ringSize : Nat) (keypair : Lwe.LWEKeyPair) (masterKey : Bytes)
      (signingKey : Signature.SigningKey)

/-- One incident; the book is kept over restarts. -/
def undergo (audited : Audited) (input : Environment × Incident) : Option Answer × Audited :=
  match input with
  | (environment, .request request) =>
      let followed := follow P audited (environment, request)
      (some followed.1, followed.2)
  | (environment, .restart ringSize keypair masterKey signingKey) =>
      (none, ⟨.new (calls P) (audited.store.ledger.map fun ledger => ledger.meets environment) ringSize
        keypair masterKey signingKey, audited.book⟩)

/-- A first process, over a ledger without rows or without a ledger. -/
def firstLife (ledger : Option Environment) (ringSize : Nat) (keypair : Lwe.LWEKeyPair)
    (masterKey : Bytes) (signingKey : Signature.SigningKey) : Audited :=
  ⟨.new (calls P) (ledger.map CassandraLedger.empty) ringSize keypair masterKey signingKey, []⟩

/-- No `add` has come to a record under the id. -/
def NeverAdded (audited : Audited) (txnId : Json) : Prop :=
  ∀ id, txnId = .str id -> id ∉ audited.book.map Prod.fst

/-- The rows that a ledger stores. -/
def tablesOf (ledger : CassandraLedger) :
    (AList fun _ : BucketKey => Dict) × (AList fun _ : PyStr => Dict) × (AList fun _ : PyStr => HeadRow) :=
  (ledger.commitmentsByBucket, ledger.commitmentsByTxn, ledger.ledgerHead)

/-- The transition is refused and leaves no trace: no record can be read under the id,
whatever the cluster does later, and no row has changed. -/
structure Declined (store : CommitmentStore CassandraLedger) (environment : Environment)
    (transition : Transition) (txnId : Json) : Prop where
  answer : (serveIn P store (environment, .mark transition txnId)).1 = .marked false
  absent : ∀ later, (inEnvironment later (serveIn P store (environment, .mark transition txnId)).2).get P
    rowCall txnId = .ok none
  rows : (serveIn P store (environment, .mark transition txnId)).2.ledger.map tablesOf =
    store.ledger.map tablesOf

/-- A transition of an id that was never added is declined. -/
def Declines (audited : Audited) : Environment × Incident -> Prop
  | (environment, .request (.mark transition txnId)) =>
      NeverAdded audited txnId -> Declined P audited.store environment transition txnId
  | _ => True

/-- The update of a row that no `add` has written is not made: there is no ledger, or it
is down, or the statement raises. -/
def Unwritten (audited : Audited) : Environment × Incident -> Prop
  | (environment, .request (.mark _ txnId)) =>
      NeverAdded audited txnId -> ∀ id, txnId = .str id -> ∀ ledger, audited.store.ledger = some ledger ->
        (ledger.meets environment).takes .updateStatus = false
  | _ => True

/-! ## One incident -/

/-- Every row that can be read was written by an `add`. -/
structure Rooted (audited : Audited) : Prop where
  held : Held audited
  known : ∀ ledger, audited.store.ledger = some ledger -> ∀ id columns,
    ledger.commitmentsByTxn.lookup id = some columns -> id ∈ audited.book.map Prod.fst

section Step

variable {P} {audited : Audited}

/-- The ring has no record of an id that was never added. -/
theorem ringGet_of_neverAdded (held : Held audited) {txnId : Json} (never : NeverAdded audited txnId) :
    ringGet audited.store.hot txnId = none := by
  cases found : ringGet audited.store.hot txnId with
  | none => rfl
  | some record =>
      rcases held.within.key found with ⟨id, same, member⟩
      exact (never id same (List.mem_map.mpr ⟨_, member, rfl⟩)).elim

/-- An update that does not go through changes nothing. -/
theorem statusCall_of_fails {ledger : CassandraLedger} (fails : ledger.takes .updateStatus = false)
    (id : PyStr) (status : Status) : statusCall ledger (.str id) status = (false, ledger) := by
  unfold CassandraLedger.takes at fails
  unfold statusCall CassandraLedger.setStatus
  cases available : ledger.available with
  | false => rfl
  | true =>
      rw [available, Bool.true_and, Bool.not_eq_false'] at fails
      simp only [fails, Bool.not_true, Bool.false_eq_true, if_false, if_true]

/-- Where neither the ring nor the ledger takes it, a transition does nothing. -/
theorem serveIn_mark_unwritten (held : Held audited) {environment : Environment}
    {transition : Transition} {txnId : Json} (never : NeverAdded audited txnId)
    (unwritten : Unwritten audited (environment, .request (.mark transition txnId))) :
    serveIn P audited.store (environment, .mark transition txnId) =
      (.marked false, inEnvironment environment audited.store) := by
  by_cases text : ∃ id, txnId = .str id
  · rcases text with ⟨id, rfl⟩
    rw [serveIn_mark, ringGet_of_neverAdded held never]
    unfold inEnvironment
    cases own : audited.store.ledger with
    | none => rfl
    | some ledger =>
        have quiet := statusCall_of_fails (unwritten never id rfl ledger own) id transition.status
        simp only [Option.any_some, quiet, Option.isSome_none, Bool.or_self, Option.map_none,
          Option.getD_none, Option.map_some]
  · exact serveIn_mark_of_other P environment held.within transition fun id same => text ⟨id, same⟩

/-- Nothing can be read under an id that was never added, in any environment. -/
theorem get_of_neverAdded (rooted : Rooted audited) {txnId : Json} (never : NeverAdded audited txnId)
    (environment : Environment) :
    (inEnvironment environment audited.store).get P rowCall txnId = .ok none := by
  have missing : ringGet (inEnvironment environment audited.store).hot txnId = none :=
    ringGet_of_neverAdded rooted.held never
  have unread : ((inEnvironment environment audited.store).ledger.bind fun ledger =>
      rowCall ledger txnId) = none := by
    unfold inEnvironment
    cases own : audited.store.ledger with
    | none => rfl
    | some ledger =>
        rw [Option.map_some, Option.bind_some]
        cases txnId with
        | str id =>
            have rowless : (ledger.meets environment).commitmentsByTxn.lookup id = none := by
              cases row : ledger.commitmentsByTxn.lookup id with
              | none => exact row
              | some columns => exact (never id rfl (rooted.known ledger own id columns row)).elim
            show (ledger.meets environment).get id = none
            unfold CassandraLedger.get
            rw [rowless, Option.map_none, ite_self, ite_self]
        | _ => rfl
  unfold CommitmentStore.get
  rw [missing, unread]

/-- A transition of an unknown id is declined exactly if its update is not made. -/
theorem declines_iff (rooted : Rooted audited) (input : Environment × Incident) :
    Declines P audited input ↔ Unwritten audited input := by
  rcases input with ⟨environment, incident⟩
  cases incident with
  | restart ringSize keypair masterKey signingKey => exact Iff.rfl
  | request request =>
      cases request with
      | add call => exact Iff.rfl
      | mark transition txnId =>
          constructor
          · rintro declines never id rfl ledger own
            have answer := (declines never).answer
            rw [serveIn_mark, ringGet_of_neverAdded rooted.held never, own, Option.any_some,
              (statusCall_spec _ id transition.status).1, Option.isSome_none, Bool.false_or] at answer
            exact Answer.marked.inj answer
          · intro unwritten never
            have served := serveIn_mark_unwritten rooted.held never unwritten (P := P)
            refine ⟨by rw [served], ?_, ?_⟩
            · intro later
              rw [served, inEnvironment_inEnvironment]
              exact get_of_neverAdded rooted never later
            · rw [served]
              unfold inEnvironment
              rw [Option.map_map]
              rfl

/-- The rows are the same in another environment. -/
theorem known_meets (rooted : Rooted audited) (environment : Environment) {ledger : CassandraLedger}
    (own : (audited.store.ledger.map fun ledger => ledger.meets environment) = some ledger) {id : PyStr}
    {columns : Dict} (row : ledger.commitmentsByTxn.lookup id = some columns) :
    id ∈ audited.book.map Prod.fst := by
  rcases Option.map_eq_some_iff.mp own with ⟨before, had, rfl⟩
  exact rooted.known before had id columns row

/-- A record that is persisted writes the row of its own id. -/
theorem known_committed (rooted : Rooted audited) (environment : Environment) {record : CommitmentRecord}
    {id : PyStr} (named : record.txnId = .str id) {ledger : CassandraLedger}
    (own : (committed P environment audited.store record).ledger = some ledger) {other : PyStr}
    {columns : Dict} (row : ledger.commitmentsByTxn.lookup other = some columns) :
    other ∈ (Retention.upsert id record audited.book).map Prod.fst := by
  rcases Option.map_eq_some_iff.mp own with ⟨before, had, rfl⟩
  rw [((before.meets environment).persisted_spec P named).2.1] at row
  apply Retention.mem_keys_upsert.mpr
  by_cases same : other = id
  · exact Or.inl same
  · split at row
    · rw [AList.lookup_insert_ne same] at row
      exact Or.inr (rooted.known before had other columns row)
    · exact Or.inr (rooted.known before had other columns row)

/-- An update of an id in the book writes no row for any other id. -/
theorem known_mark (rooted : Rooted audited) (environment : Environment) (transition : Transition)
    {id : PyStr} (present : id ∈ audited.book.map Prod.fst) {ledger : CassandraLedger}
    (own : (serveIn P audited.store (environment, .mark transition (.str id))).2.ledger = some ledger)
    {other : PyStr} {columns : Dict} (row : ledger.commitmentsByTxn.lookup other = some columns) :
    other ∈ audited.book.map Prod.fst := by
  rw [serveIn_mark] at own
  rcases Option.map_eq_some_iff.mp own with ⟨before, had, rfl⟩
  rw [(statusCall_spec (before.meets environment) id transition.status).2.2] at row
  by_cases same : other = id
  · rw [same]
    exact present
  · split at row
    · rw [AList.lookup_insert_ne same] at row
      exact rooted.known before had other columns row
    · exact rooted.known before had other columns row

/-- As long as no update makes a row, every row goes back to an `add`. -/
theorem rooted_undergo (rooted : Rooted audited) (input : Environment × Incident)
    (unwritten : Unwritten audited input) : Rooted (undergo P audited input).2 := by
  rcases input with ⟨environment, incident⟩
  cases incident with
  | restart ringSize keypair masterKey signingKey =>
      refine ⟨⟨rooted.held.distinct, [], rfl, List.nodup_nil,
        fun _ member => (List.not_mem_nil member).elim⟩, ?_⟩
      exact fun ledger own id columns row => known_meets rooted environment own row
  | request request =>
      have held := held_follow rooted.held (environment, request) (P := P)
      refine ⟨held, ?_⟩
      unfold undergo follow
      dsimp only
      cases request with
      | add call =>
          rcases serveIn_add P environment audited.store call with
            ⟨error, served⟩ | ⟨error, chainHash, -, served⟩ | ⟨record, id, named, -, -, -, served⟩
          · rw [served]
            exact fun ledger own id columns row => known_meets rooted environment own row
          · rw [served]
            exact fun ledger own id columns row => known_meets rooted environment own row
          · rw [served]
            simp only [Book.enter, named]
            exact fun ledger own other columns row => known_committed rooted environment named own row
      | mark transition txnId =>
          by_cases never : NeverAdded audited txnId
          · rw [serveIn_mark_unwritten rooted.held never unwritten]
            dsimp only
            rw [enter_refused]
            exact fun ledger own id columns row => known_meets rooted environment own row
          · -- the row that is updated belongs to an entry of the book
            rcases not_forall.mp never with ⟨id, entered⟩
            rcases Classical.not_imp.mp entered with ⟨rfl, present⟩
            intro ledger own other columns row
            apply keys_enter
            exact known_mark rooted environment transition (not_not.mp present) own row

end Step

/-! ## Runs -/

/-- In every life of a store, over a ledger or without one, restarts included: all
transitions of ids that were never added are declined, exactly if none of their updates
is made. -/
theorem transitions_declined_iff (ledger : Option Environment) (ringSize : Nat)
    (keypair : Lwe.LWEKeyPair) (masterKey : Bytes) (signingKey : Signature.SigningKey)
    (inputs : List (Environment × Incident)) :
    Machine.Along (undergo P) (Declines P) (firstLife P ledger ringSize keypair masterKey signingKey)
        inputs ↔
      Machine.Along (undergo P) Unwritten (firstLife P ledger ringSize keypair masterKey signingKey)
        inputs := by
  apply Machine.along_congr Rooted
  · intro audited input rooted declines
    exact rooted_undergo rooted input ((declines_iff rooted input).mp declines)
  · intro audited input rooted
    exact declines_iff rooted input
  · refine ⟨⟨List.nodup_nil, [], rfl, List.nodup_nil, fun _ member => (List.not_mem_nil member).elim⟩, ?_⟩
    intro own found id columns row
    rcases Option.map_eq_some_iff.mp found with ⟨environment, -, rfl⟩
    cases row

/-- A store over an empty ledger quarantines a transaction that nobody has added, and then
serves a record of it that has no commitment. -/
theorem phantom_served :
    (serveIn samplePlatform durableStore (healthy, .mark .quarantine (.str Sample.txnId))).1 =
        .marked true ∧
      ∃ record, (serveIn samplePlatform durableStore
          (healthy, .mark .quarantine (.str Sample.txnId))).2.get samplePlatform rowCall
            (.str Sample.txnId) = .ok (some record) ∧
        record.commitmentB64 = .null ∧ record.status = Json.text "QUARANTINED" :=
  ⟨rfl, _, rfl, rfl, rfl⟩

end Cassandra
end ZeroAudit
