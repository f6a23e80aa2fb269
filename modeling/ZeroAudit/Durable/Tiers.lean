import ZeroAudit.Durable.Book

namespace ZeroAudit
namespace Cassandra

open Foundation Commitment

/-!
# Two tiers, one answer

A record leaves the ring for good, and is rebuilt from its row when it is asked
for again.  As long as the statements go through, the row of a transaction
holds the columns of its entry in the book.  Rebuilding a record from them
loses nothing: the one field without a column is constant, and the defaults
stand in for no value that a record has.  So it does not matter which tier
answers.
-/

variable (P : Platform)

/-! ## Rebuilding a record -/

/-- What a record has to hold for its row to be as good as the record. -/
structure Faithful (record : CommitmentRecord) : Prop where
  prevChainHash : record.prevChainHash ≠ []
  lweParams : record.lweParams = Lwe.lweParams
  sigAlg : record.sigAlg = PyStr.ofString "Ed25519"
  txnType : ∃ txnType, record.txnType = .str txnType
  flagReason : ∃ reason, record.flagReason = .str reason ∧ reason ≠ []

theorem orElse_status (status : Status) (other : Json) :
    (Json.text status.text).orElse other = Json.text status.text := by
  apply Json.orElse_str
  cases status <;> decide

/-- Encoding a record as a row, reading the row and rebuilding the record is the
identity. -/
theorem recordFromRow_exportRow {record : CommitmentRecord} (faithful : Faithful record) :
    recordFromRow P (CassandraLedger.toDict (exportRow record)) = .ok record.loaded := by
  rcases faithful with ⟨prev, params, algorithm, ⟨txnType, typed⟩, reason, flagged, nonempty⟩
  have profile : ∀ other, Lwe.lweParams.orElse other = Lwe.lweParams := fun _ => rfl
  simp [recordFromRow, CassandraLedger.toDict, COLUMNS, exportRow, Dict.get, Platform.float,
    Platform.int, bind, Except.bind, pure, Except.pure, CommitmentRecord.loaded, Json.orElse_int_zero,
    Json.orElse_float_zero, Json.orElse_str_empty, Json.orElse_str prev, Json.orElse_str nonempty,
    orElse_status, typed, flagged, params, profile, algorithm]
  rfl

/-- A status update of the row of a record makes the row of the marked record. -/
theorem exportRow_mark (record : CommitmentRecord) (status : Status) :
    Dict.set (exportRow record) "status" (Json.text status.text) = exportRow { record with status } := by
  simp [exportRow, Dict.set, PyStr.ofString_inj]

/-! ## Requests on a ledger that succeeds -/

/-- An environment in which every statement goes through. -/
def steady (nowNs : Int) : Environment := ⟨fun _ => false, nowNs⟩

/-- Requests, with the clock readings of the ledger, on a ledger that succeeds. -/
def steadily (inputs : List (Int × Request)) : List (Environment × Request) :=
  inputs.map fun input => (steady input.1, input.2)

/-- The arguments of `add` as it declares them and the intent engine fills them in: the
type of the transaction is a text, and so is the reason, which is never empty. -/
structure Declared (call : AddCall) : Prop where
  txnType : ∃ txnType, call.txnType = .str txnType
  flagReason : ∃ reason, call.flagReason = .str reason ∧ reason ≠ []

/-- The rows of the ledger are as good as the entries of the book. -/
structure Stored (audited : Audited) : Prop where
  held : Held audited
  ledger : ∃ ledger, audited.store.ledger = some ledger ∧ ledger.available = true ∧
    ∀ entry ∈ audited.book, ledger.commitmentsByTxn.lookup entry.1 = some (exportRow entry.2)
  head : IsDigest audited.store.head
  faithful : ∀ entry ∈ audited.book, Faithful entry.2

section Step

variable {P} {audited : Audited}

theorem takes_steady {ledger : CassandraLedger} (available : ledger.available = true) (nowNs : Int)
    (statement : Statement) : (ledger.meets (steady nowNs)).takes statement = true := by
  rw [CassandraLedger.takes_meets, available]
  rfl

theorem nonempty_of_isDigest {text : PyStr} (digest : IsDigest text) : text ≠ [] := by
  intro empty
  have length := digest.length
  rw [empty] at length
  cases length

/-- Another environment changes no row. -/
theorem stored_inEnvironment (stored : Stored audited) (nowNs : Int) :
    Stored ⟨inEnvironment (steady nowNs) audited.store, audited.book⟩ := by
  rcases stored with ⟨held, ⟨ledger, own, available, rows⟩, head, faithful⟩
  refine ⟨⟨held.distinct, held.within⟩, ⟨ledger.meets (steady nowNs), ?_, available, rows⟩, head, faithful⟩
  exact congrArg (Option.map fun ledger => ledger.meets (steady nowNs)) own

/-- A record that is written is as good as its row. -/
theorem stored_committed (stored : Stored audited) (nowNs : Int) {call : AddCall}
    {record : CommitmentRecord} {id : PyStr} (declared : Declared call) (named : record.txnId = .str id)
    (appends : Appends P audited.store call record)
    (columns : record.txnType = call.txnType ∧ record.flagReason = call.flagReason ∧
      record.sigAlg = PyStr.ofString "Ed25519")
    (held : Held ⟨committed P (steady nowNs) audited.store record,
      Retention.upsert id record audited.book⟩) :
    Stored ⟨committed P (steady nowNs) audited.store record, Retention.upsert id record audited.book⟩ := by
  rcases stored with ⟨⟨distinct, -⟩, ⟨ledger, own, available, rows⟩, head, faithful⟩
  rcases columns with ⟨txnType, flagReason, sigAlg⟩
  rcases (ledger.meets (steady nowNs)).persisted_spec P named with ⟨-, txn, -, up, -⟩
  rw [takes_steady available, takes_steady available] at txn
  refine ⟨held, ⟨(ledger.meets (steady nowNs)).persisted P record, ?_, up.trans available, ?_⟩,
    appends.honest.chainHash_isDigest, ?_⟩
  · exact congrArg (Option.map fun ledger => (ledger.meets (steady nowNs)).persisted P record) own
  · rintro ⟨txnId, found⟩ member
    rw [txn, Bool.and_self, if_pos rfl]
    rcases (Retention.mem_upsert_iff distinct).mp member with ⟨rfl, rfl⟩ | ⟨other, old⟩
    · exact AList.lookup_insert _
    · exact (AList.lookup_insert_ne other).trans (rows _ old)
  · rintro ⟨txnId, found⟩ member
    rcases (Retention.mem_upsert_iff distinct).mp member with ⟨-, rfl⟩ | ⟨-, old⟩
    · refine ⟨?_, appends.honest.lweParams, sigAlg, ?_, ?_⟩
      · rw [appends.prev]
        exact nonempty_of_isDigest head
      · rw [txnType]
        exact declared.txnType
      · rw [flagReason]
        exact declared.flagReason
    · exact faithful _ old

/-- An entry that is marked is marked in its row. -/
theorem stored_mark (stored : Stored audited) (nowNs : Int) (transition : Transition) (id : PyStr) :
    Stored (follow P audited (steady nowNs, .mark transition (.str id))).2 := by
  have held := held_follow stored.held (P := P) (steady nowNs, .mark transition (.str id))
  rcases stored with ⟨⟨distinct, -⟩, ⟨ledger, own, available, rows⟩, head, faithful⟩
  unfold follow at held ⊢
  rw [serveIn_mark] at held ⊢
  dsimp only at held ⊢
  rcases statusCall_spec (ledger.meets (steady nowNs)) id transition.status with ⟨answer, up, table⟩
  rw [takes_steady available] at answer table
  have done : ((ringGet audited.store.hot (.str id)).isSome || audited.store.ledger.any fun ledger =>
      (statusCall (ledger.meets (steady nowNs)) (.str id) transition.status).1) = true := by
    rw [own, Option.any_some, answer, Bool.or_true]
  rw [done] at held ⊢
  refine ⟨held, ⟨_, congrArg (Option.map _) own, up.trans available, ?_⟩, head, ?_⟩
  · rintro ⟨txnId, found⟩ member
    rw [table, if_pos rfl]
    rcases (mem_mark_iff distinct).mp member with ⟨other, old⟩ | ⟨rfl, record, old, rfl⟩
    · exact (AList.lookup_insert_ne other).trans (rows _ old)
    · have row : (ledger.meets (steady nowNs)).commitmentsByTxn.lookup txnId =
          some (exportRow record) := rows _ old
      rw [row, Option.getD_some, exportRow_mark]
      exact AList.lookup_insert _
  · rintro ⟨txnId, found⟩ member
    rcases (mem_mark_iff distinct).mp member with ⟨-, old⟩ | ⟨-, record, old, rfl⟩
    · exact faithful _ old
    · have before := faithful _ old
      exact ⟨before.prevChainHash, before.lweParams, before.sigAlg, before.txnType, before.flagReason⟩

/-- An entry that is written, or is marked, is still as good as its row. -/
theorem stored_follow (stored : Stored audited) (nowNs : Int) (request : Request)
    (declared : ∀ call, request = .add call -> Declared call) :
    Stored (follow P audited (steady nowNs, request)).2 := by
  cases request with
  | add call =>
      have held := held_follow stored.held (P := P) (steady nowNs, .add call)
      have idle := stored_inEnvironment stored nowNs
      unfold follow at held ⊢
      rcases serveIn_add P (steady nowNs) audited.store call with
        ⟨error, served⟩ | ⟨error, chainHash, digest, served⟩ |
          ⟨record, id, named, -, appends, columns, served⟩
      · rw [served]
        exact idle
      · rw [served]
        exact ⟨⟨idle.held.distinct, idle.held.within⟩, idle.ledger, digest, idle.faithful⟩
      · rw [served] at held ⊢
        simp only [Book.enter, named] at held ⊢
        exact stored_committed stored nowNs (declared call rfl) named appends columns held
  | mark transition txnId =>
      by_cases text : ∃ id, txnId = .str id
      · rcases text with ⟨id, rfl⟩
        exact stored_mark stored nowNs transition id
      · -- neither tier knows an id that is no text
        rw [follow_mark_of_other P (steady nowNs) stored.held.within transition
          fun id same => text ⟨id, same⟩]
        exact stored_inEnvironment stored nowNs

/-! ## Reading -/

/-- The store when the ring has dropped every record. -/
def evicted (store : CommitmentStore CassandraLedger) : CommitmentStore CassandraLedger :=
  { store with hot := [] }

theorem stored_evicted (stored : Stored audited) : Stored ⟨evicted audited.store, audited.book⟩ where
  held := ⟨stored.held.distinct, [], rfl, List.nodup_nil, fun _ member => (List.not_mem_nil member).elim⟩
  ledger := stored.ledger
  head := stored.head
  faithful := stored.faithful

/-- Whichever tier answers, the answer is the entry of the book. -/
theorem get_of_stored (stored : Stored audited) {id : PyStr} {record : CommitmentRecord}
    (member : (id, record) ∈ audited.book) (readNs : Int) :
    (inEnvironment (steady readNs) audited.store).get P rowCall (.str id) = .ok (some record.loaded) := by
  rcases stored.ledger with ⟨ledger, own, available, rows⟩
  have hot : (inEnvironment (steady readNs) audited.store).hot = audited.store.hot := rfl
  have same : (inEnvironment (steady readNs) audited.store).ledger = some (ledger.meets (steady readNs)) := by
    show (audited.store.ledger.map fun ledger => ledger.meets (steady readNs)) = _
    rw [own]
    rfl
  unfold CommitmentStore.get
  rw [hot, same]
  cases found : ringGet audited.store.hot (.str id) with
  | some other =>
      rcases stored.held.within.key found with ⟨_, equal, copied⟩
      cases equal
      have first := Retention.lookup_of_mem stored.held.distinct member
      rw [Retention.lookup_of_mem stored.held.distinct copied] at first
      cases first
      rfl
  | none =>
      have row : rowCall (ledger.meets (steady readNs)) (.str id) =
          some (CassandraLedger.toDict (exportRow record)) := by
        show (ledger.meets (steady readNs)).get id = _
        unfold CassandraLedger.get
        have up : (ledger.meets (steady readNs)).available = true := available
        have stored : (ledger.meets (steady readNs)).commitmentsByTxn.lookup id =
            some (exportRow record) := rows _ member
        rw [up, stored]
        rfl
      rw [Option.bind_some, row]
      have nonempty : (CassandraLedger.toDict (exportRow record)).isEmpty = false := rfl
      dsimp only
      rw [nonempty, recordFromRow_exportRow P (stored.faithful _ member)]
      rfl

/-! ## A ring with room -/

/-- While there is room, the ring is the whole book. -/
theorem complete_follow (held : Held audited) (complete : audited.store.hot = audited.book.map named)
    (room : audited.book.length < audited.store.ringSize) (input : Environment × Request) :
    (follow P audited input).2.store.hot = (follow P audited input).2.book.map named ∧
      (follow P audited input).2.book.length ≤ audited.book.length + 1 ∧
      (follow P audited input).2.store.ringSize = audited.store.ringSize := by
  rcases input with ⟨environment, request⟩
  unfold follow
  cases request with
  | add call =>
      rcases serveIn_add P environment audited.store call with
        ⟨error, served⟩ | ⟨error, chainHash, -, served⟩ | ⟨record, id, named', -, -, -, served⟩
      · rw [served]
        exact ⟨complete, Nat.le_succ _, rfl⟩
      · rw [served]
        exact ⟨complete, Nat.le_succ _, rfl⟩
      · rw [served]
        simp only [Book.enter, named']
        have short := Retention.length_upsert_le id record audited.book
        refine ⟨?_, short, rfl⟩
        show ringEvict audited.store.ringSize (ringSet audited.store.hot record.txnId record) = _
        rw [complete, named', ringSet_named, ringEvict_named, Nat.sub_eq_zero_of_le (by omega),
          List.drop_zero]
  | mark transition txnId =>
      by_cases text : ∃ id, txnId = .str id
      · rcases text with ⟨id, rfl⟩
        rw [serveIn_mark]
        dsimp only
        rw [complete, ringGet_named]
        cases found : Retention.lookup id audited.book with
        | some record =>
            rw [Option.isSome_some, Bool.true_or]
            refine ⟨?_, Nat.le_succ_of_le (Nat.le_of_eq (length_mark audited.book id transition.status)), rfl⟩
            show _ = (audited.book.mark id transition.status).map named
            unfold Book.mark
            rw [found, Option.map_some, Option.getD_some, ringSet_named, Option.map_some, Option.getD_some]
        | none =>
            have kept : ∀ done, audited.book.enter (.mark transition (.str id)) (.marked done) =
                audited.book := by
              intro done
              cases done with
              | false => rfl
              | true => exact mark_of_absent found transition.status
            rw [kept]
            exact ⟨rfl, Nat.le_succ _, rfl⟩
      · rw [serveIn_mark_of_other P environment held.within transition fun id same => text ⟨id, same⟩]
        dsimp only
        rw [enter_refused]
        exact ⟨complete, Nat.le_succ _, rfl⟩

/-! ## Rings of two sizes -/

/-- What a request is answered from, but for the ring. -/
structure SameCore (store other : CommitmentStore CassandraLedger) : Prop where
  ledger : store.ledger = other.ledger
  keypair : store.keypair = other.keypair
  masterKey : store.masterKey = other.masterKey
  signingKey : store.signingKey = other.signingKey
  seq : store.seq = other.seq
  head : store.head = other.head

theorem sealTransaction_congr {store other : CommitmentStore CassandraLedger} (same : SameCore store other)
    (call : AddCall) :
    CommitmentStore.sealTransaction P store call = CommitmentStore.sealTransaction P other call := by
  unfold CommitmentStore.sealTransaction
  rw [same.keypair, same.masterKey]

theorem buildRecord_congr {store other : CommitmentStore CassandraLedger} (same : SameCore store other)
    (call : AddCall) (sealed : Sealed) (seq : Int) (chainHash : PyStr) :
    CommitmentStore.buildRecord P store call sealed seq chainHash =
      CommitmentStore.buildRecord P other call sealed seq chainHash := by
  unfold CommitmentStore.buildRecord
  rw [same.signingKey, same.head]

/-- An `add` does not look at the ring. -/
theorem sameCore_add {store other : CommitmentStore CassandraLedger} (same : SameCore store other)
    (call : AddCall) :
    (CommitmentStore.add P store (calls P) call).1 = (CommitmentStore.add P other (calls P) call).1 ∧
      SameCore (CommitmentStore.add P store (calls P) call).2
        (CommitmentStore.add P other (calls P) call).2 := by
  unfold CommitmentStore.add CommitmentStore.addLocked
  rw [sealTransaction_congr same call, same.head, same.seq]
  cases CommitmentStore.sealTransaction P other call with
  | error error => exact ⟨rfl, same⟩
  | ok sealed =>
      dsimp only
      cases computeChainHash P (.str other.head) (.str sealed.lweResult.bindingHash) call.txnId
          (.int sealed.lweResult.timestampNs) with
      | error error => exact ⟨rfl, same⟩
      | ok chainHash =>
          dsimp only
          rw [buildRecord_congr same call sealed _ chainHash]
          cases CommitmentStore.buildRecord P other call sealed (other.seq + 1) chainHash with
          | error error => exact ⟨rfl, same.ledger, same.keypair, same.masterKey, same.signingKey, rfl, rfl⟩
          | ok record =>
              refine ⟨rfl, ?_, same.keypair, same.masterKey, same.signingKey, rfl, rfl⟩
              exact congrArg (Option.map _) same.ledger

/-- A transition of a text succeeds, whether the ring has the record or not. -/
theorem marked_steady {store : CommitmentStore CassandraLedger} {ledger : CassandraLedger}
    (own : store.ledger = some ledger) (available : ledger.available = true) (nowNs : Int)
    (transition : Transition) (id : PyStr) :
    (serveIn P store (steady nowNs, .mark transition (.str id))).1 = .marked true := by
  rw [serveIn_mark, own, Option.any_some,
    (statusCall_spec (ledger.meets (steady nowNs)) id transition.status).1, takes_steady available,
    Bool.or_true]

/-- Two stores that differ in their rings, of which one has room for the whole book. -/
structure Twins (small full : Audited) : Prop where
  storedSmall : Stored small
  storedFull : Stored full
  core : SameCore small.store full.store
  book : small.book = full.book
  whole : full.store.hot = full.book.map named

/-- They give the same answers. -/
theorem twins_follow {small full : Audited} (twins : Twins small full)
    (room : full.book.length < full.store.ringSize) (nowNs : Int) (request : Request)
    (declared : ∀ call, request = .add call -> Declared call) :
    (follow P small (steady nowNs, request)).1 = (follow P full (steady nowNs, request)).1 ∧
      Twins (follow P small (steady nowNs, request)).2 (follow P full (steady nowNs, request)).2 := by
  have first := stored_follow twins.storedSmall nowNs request declared (P := P)
  have second := stored_follow twins.storedFull nowNs request declared (P := P)
  have whole := (complete_follow twins.storedFull.held twins.whole room (steady nowNs, request) (P := P)).1
  rcases twins with ⟨⟨⟨-, within⟩, ⟨ledger, own, available, -⟩, -, -⟩, ⟨⟨-, within'⟩, -, -, -⟩, core, book, -⟩
  have own' : full.store.ledger = some ledger := core.ledger.symm.trans own
  have meets : SameCore (inEnvironment (steady nowNs) small.store) (inEnvironment (steady nowNs) full.store) :=
    ⟨congrArg (Option.map _) core.ledger, core.keypair, core.masterKey, core.signingKey, core.seq, core.head⟩
  have same : (serveIn P small.store (steady nowNs, request)).1 =
      (serveIn P full.store (steady nowNs, request)).1 ∧
      SameCore (serveIn P small.store (steady nowNs, request)).2
        (serveIn P full.store (steady nowNs, request)).2 := by
    cases request with
    | add call =>
        rcases sameCore_add (P := P) meets call with ⟨answer, next⟩
        exact ⟨congrArg Answer.committed answer, next⟩
    | mark transition txnId =>
        by_cases text : ∃ id, txnId = .str id
        · rcases text with ⟨id, rfl⟩
          refine ⟨?_, ?_⟩
          · rw [marked_steady own available, marked_steady own' available]
          · rw [serveIn_mark, serveIn_mark]
            exact ⟨congrArg (Option.map _) core.ledger, core.keypair, core.masterKey, core.signingKey,
              core.seq, core.head⟩
        · have other : ∀ id, txnId ≠ .str id := fun id same => text ⟨id, same⟩
          rw [serveIn_mark_of_other P (steady nowNs) within transition other,
            serveIn_mark_of_other P (steady nowNs) within' transition other]
          exact ⟨rfl, meets⟩
  refine ⟨same.1, first, second, same.2, ?_, whole⟩
  unfold follow
  dsimp only
  rw [book, same.1]

end Step

/-! ## Runs -/

variable {P} in
theorem twins_run {small full : Audited} (twins : Twins small full) {inputs : List (Int × Request)}
    (room : full.book.length + inputs.length ≤ full.store.ringSize)
    (declared : ∀ input ∈ inputs, ∀ call, input.2 = .add call -> Declared call) :
    (Machine.run (follow P) small (steadily inputs)).1 = (Machine.run (follow P) full (steadily inputs)).1 ∧
      Twins (Machine.run (follow P) small (steadily inputs)).2
        (Machine.run (follow P) full (steadily inputs)).2 := by
  induction inputs generalizing small full with
  | nil => exact ⟨rfl, twins⟩
  | cons input rest inductionHypothesis =>
      rcases input with ⟨nowNs, request⟩
      rw [List.forall_mem_cons] at declared
      rw [List.length_cons] at room
      rcases twins_follow twins (by omega) nowNs request declared.1 (P := P) with ⟨answer, next⟩
      rcases complete_follow twins.storedFull.held twins.whole (by omega) (steady nowNs, request) (P := P)
        with ⟨-, grown, ringSize⟩
      have later := inductionHypothesis next (by rw [ringSize]; omega) declared.2
      refine ⟨?_, later.2⟩
      exact congrArg₂ List.cons answer later.1

/-- Every question about a transaction has the same answer in both stores. -/
structure SameReads (store other : CommitmentStore CassandraLedger) (txnId : Json) : Prop where
  get : store.get P rowCall txnId = other.get P rowCall txnId
  openingFor : ∀ amountCents, store.openingFor P rowCall txnId amountCents =
    other.openingFor P rowCall txnId amountCents
  verifyTxn : ∀ amountCents nowNs, store.verifyTxn P rowCall txnId amountCents nowNs =
    other.verifyTxn P rowCall txnId amountCents nowNs

variable {P} in
/-- Openings and traces are computed from the record and the keys. -/
theorem sameReads_of_get {store other : CommitmentStore CassandraLedger} {txnId : Json}
    (keypair : store.keypair = other.keypair) (masterKey : store.masterKey = other.masterKey)
    (get : store.get P rowCall txnId = other.get P rowCall txnId) : SameReads P store other txnId := by
  refine ⟨get, ?_, ?_⟩
  · intro amountCents
    unfold CommitmentStore.openingFor
    rw [get, keypair, masterKey]
  · intro amountCents nowNs
    unfold CommitmentStore.verifyTxn
    rw [get, keypair, masterKey]

/-- In every run of a store whose statements go through, for any size of the ring: a
transaction that was committed is read, opened and checked as by a store that has the
room to keep every record in its ring, and so it is when the ring has dropped it. -/
theorem tiers_agree {ledger : CassandraLedger} (available : ledger.available = true)
    (resumed : ∀ place, ledger.loadHead DEFAULT_SHARD = some place -> IsDigest place.2)
    (ringSize large : Nat) (keypair : Lwe.LWEKeyPair) (masterKey : Bytes)
    (signingKey : Signature.SigningKey) {inputs : List (Int × Request)}
    (declared : ∀ input ∈ inputs, ∀ call, input.2 = .add call -> Declared call)
    (room : inputs.length ≤ large) {record : CommitmentRecord}
    (answered : .committed (.ok record) ∈ (Machine.run (serveIn P)
      (.new (calls P) (some ledger) ringSize keypair masterKey signingKey) (steadily inputs)).1)
    {id : PyStr} (named : record.txnId = .str id) (readNs : Int) :
    let store := (Machine.run (serveIn P)
      (.new (calls P) (some ledger) ringSize keypair masterKey signingKey) (steadily inputs)).2
    let full := (Machine.run (serveIn P)
      (.new (calls P) (some ledger) large keypair masterKey signingKey) (steadily inputs)).2
    ∃ current, ringGet full.hot (.str id) = some current ∧
      (inEnvironment (steady readNs) (evicted store)).get P rowCall (.str id) =
        .ok (some current.loaded) ∧
      SameReads P (inEnvironment (steady readNs) store) (inEnvironment (steady readNs) full) (.str id) ∧
      SameReads P (inEnvironment (steady readNs) (evicted store))
        (inEnvironment (steady readNs) full) (.str id) := by
  intro store full
  have fresh : ∀ size, Stored ⟨.new (calls P) (some ledger) size keypair masterKey signingKey, []⟩ := by
    intro size
    refine ⟨⟨List.nodup_nil, [], rfl, List.nodup_nil, fun _ member => member⟩,
      ⟨ledger, rfl, available, fun _ member => (List.not_mem_nil member).elim⟩,
      isDigest_new (calls P) resumed, fun _ member => (List.not_mem_nil member).elim⟩
  have twins : Twins ⟨.new (calls P) (some ledger) ringSize keypair masterKey signingKey, []⟩
      ⟨.new (calls P) (some ledger) large keypair masterKey signingKey, []⟩ :=
    ⟨fresh ringSize, fresh large, ⟨rfl, rfl, rfl, rfl, rfl, rfl⟩, rfl, rfl⟩
  have ran := (twins_run (P := P) twins (by rw [List.length_nil, Nat.zero_add]; exact room) declared).2
  have followed := run_follow P ⟨.new (calls P) (some ledger) ringSize keypair masterKey signingKey, []⟩
    (steadily inputs)
  have followed' := run_follow P ⟨.new (calls P) (some ledger) large keypair masterKey signingKey, []⟩
    (steadily inputs)
  rw [← followed.1] at answered
  have known := entered_run P _ _ answered named
  rcases List.mem_map.mp known with ⟨⟨own, current⟩, member, same⟩
  cases same
  have member' := member
  rw [ran.book] at member'
  have keypairs : store.keypair = full.keypair := by
    have core := ran.core.keypair
    rw [followed.2, followed'.2] at core
    exact core
  have masterKeys : store.masterKey = full.masterKey := by
    have core := ran.core.masterKey
    rw [followed.2, followed'.2] at core
    exact core
  have hot := get_of_stored (P := P) ran.storedSmall member readNs
  have durable := get_of_stored (P := P) (stored_evicted ran.storedSmall) member readNs
  have reference := get_of_stored (P := P) ran.storedFull member' readNs
  rw [followed.2] at hot
  dsimp only at durable
  rw [followed.2] at durable
  rw [followed'.2] at reference
  refine ⟨current, ?_, durable, ?_, ?_⟩
  · show ringGet (Machine.run (serveIn P) _ _).2.hot _ = _
    rw [← followed'.2, ran.whole, ringGet_named]
    exact Retention.lookup_of_mem ran.storedFull.held.distinct member'
  · exact sameReads_of_get keypairs masterKeys (hot.trans reference.symm)
  · exact sameReads_of_get keypairs masterKeys (durable.trans reference.symm)

/-! ## A closed instance -/

/-- A transaction that is quarantined, and one more. -/
def tierRequests : List (Int × Request) :=
  [(1, .add (callFor "TXN-A").toAddCall), (2, .mark .quarantine (Json.text "TXN-A")),
    (3, .add (callFor "TXN-B").toAddCall)]

/-- The requests on a store over an empty ledger, with a ring of this size. -/
def tierRun (ringSize : Nat) : List Answer × CommitmentStore CassandraLedger :=
  Machine.run (serveIn samplePlatform) (.new (calls samplePlatform) (some (.empty healthy)) ringSize
    (.generate samplePlatform Sample.latticeSeed) [] sampleKey) (steadily tierRequests)

/-- With room for one record, the first one is read from its row. -/
theorem tiers_agree_sample :
    ∃ record current, .committed (.ok record) ∈ (tierRun 1).1 ∧ record.txnId = Json.text "TXN-A" ∧
      ringGet (tierRun 3).2.hot (Json.text "TXN-A") = some current ∧
      (inEnvironment (steady 4) (evicted (tierRun 1).2)).get samplePlatform rowCall (Json.text "TXN-A") =
        .ok (some current.loaded) ∧
      SameReads samplePlatform (inEnvironment (steady 4) (tierRun 1).2)
        (inEnvironment (steady 4) (tierRun 3).2) (Json.text "TXN-A") ∧
      SameReads samplePlatform (inEnvironment (steady 4) (evicted (tierRun 1).2))
        (inEnvironment (steady 4) (tierRun 3).2) (Json.text "TXN-A") := by
  have head : IsDigest (inEnvironment (steady 1) (CommitmentStore.new (calls samplePlatform)
      (some (.empty healthy)) 1 (.generate samplePlatform Sample.latticeSeed) [] sampleKey)).head :=
    isDigest_genesis
  rcases add_wellFormed samplePlatform _ (calls samplePlatform)
    (wellFormed_callFor (⟨_, rfl⟩ : ∃ bytes, PyStr.utf8 (PyStr.ofString "TXN-A") = some bytes))
    (rfl : Sample.latticeSeed.length = Lwe.SEED_LEN) rfl head with ⟨record, appends, added⟩
  have answered : .committed (.ok record) ∈ (tierRun 1).1 := by
    unfold tierRun tierRequests steadily
    rw [List.map_cons, Machine.run_cons]
    apply List.mem_cons.mpr
    left
    exact congrArg (fun result => Answer.committed result.1) added.symm
  have declared : ∀ input ∈ tierRequests, ∀ call, input.2 = .add call -> Declared call := by
    intro input member call same
    have reason : PyStr.ofString "NONE" ≠ [] := by decide
    simp only [tierRequests, List.mem_cons, List.not_mem_nil, or_false] at member
    rcases member with rfl | rfl | rfl
    · cases same
      exact ⟨⟨_, rfl⟩, _, rfl, reason⟩
    · cases same
    · cases same
      exact ⟨⟨_, rfl⟩, _, rfl, reason⟩
  have available : (CassandraLedger.empty healthy).available = true := rfl
  rcases tiers_agree samplePlatform available (fun _ found => by cases found) 1 3
    (.generate samplePlatform Sample.latticeSeed) [] sampleKey declared (Nat.le_refl 3) answered
    appends.txnId 4 with ⟨current, ringed, read, same, dropped⟩
  exact ⟨record, current, answered, appends.txnId, ringed, read, same, dropped⟩

end Cassandra
end ZeroAudit
