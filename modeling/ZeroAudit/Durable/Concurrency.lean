import ZeroAudit.Durable.Writes
import ZeroAudit.Foundation.Machine
import Mathlib.Logic.Function.Basic

namespace ZeroAudit
namespace Cassandra

open Foundation Commitment

/-!
# Concurrent calls

Several threads call `add` on one store.  The locked section of a call is one
step; what follows it, the write and the update of the head, are two more, and
the steps of the other calls may come in between.  All statements go through.
The durable head moves back exactly if a call saves it after a call with a
later record has returned.
-/

variable (P : Platform)

/-! ## Threads -/

/-- How far a call has come. -/
inductive Phase where
  | waiting (call : TypedCall)
  | locked (record : CommitmentRecord)
  | written (record : CommitmentRecord)
  | returned (record : Option CommitmentRecord)

/-- The record a call has appended to the chain. -/
def Phase.record : Phase -> Option CommitmentRecord
  | .waiting _ => none
  | .locked record => some record
  | .written record => some record
  | .returned record => record

structure World (ι : Type) where
  store : CommitmentStore CassandraLedger
  phase : ι -> Phase

section Threads

variable {ι : Type} [DecidableEq ι]

/-- The same store over a ledger on which a statement was executed. -/
def onLedger (store : CommitmentStore CassandraLedger) (statement : CassandraLedger -> CassandraLedger) :
    CommitmentStore CassandraLedger :=
  { store with ledger := store.ledger.map statement }

/-- The next step of a thread, at this reading of the clock. -/
def advance (world : World ι) (turn : ι × Int) : Unit × World ι :=
  let environment : Environment := ⟨fun _ => false, turn.2⟩
  ((), match world.phase turn.1 with
    | .waiting call =>
        match CommitmentStore.sealTransaction P world.store call.toAddCall with
        | .error _ => { world with phase := Function.update world.phase turn.1 (.returned none) }
        | .ok sealed =>
            match CommitmentStore.addLocked P world.store call.toAddCall sealed with
            | (.error _, store) => ⟨store, Function.update world.phase turn.1 (.returned none)⟩
            | (.ok record, store) => ⟨store, Function.update world.phase turn.1 (.locked record)⟩
    | .locked record =>
        ⟨onLedger world.store fun ledger => ((ledger.meets environment).write P record.toExportDict).2,
          Function.update world.phase turn.1 (.written record)⟩
    | .written record =>
        ⟨onLedger world.store fun ledger =>
            ((ledger.meets environment).saveHead record.seq record.chainHash DEFAULT_SHARD).2,
          Function.update world.phase turn.1 (.returned (some record))⟩
    | .returned _ => world)

/-- Where a restarted process would take up the chain. -/
def durablePlace (store : CommitmentStore CassandraLedger) : Int × PyStr :=
  ((store.ledger.bind fun ledger => ledger.ledgerHead.lookup DEFAULT_SHARD).map fun own =>
    (own.seq, own.chainHash)).getD (0, GENESIS_HASH)

/-- The durable head does not move back at this step. -/
def Forward (world : World ι) (turn : ι × Int) : Prop :=
  (durablePlace world.store).1 ≤ (durablePlace (advance P world turn).2.store).1

/-- A call saves the head of its record before any call with a later one has
returned. -/
def InOrder (world : World ι) (turn : ι × Int) : Prop :=
  ∀ record, world.phase turn.1 = .written record ->
    ∀ other later, world.phase other = .returned (some later) -> later.seq ≤ record.seq

/-! ## The invariant -/

/-- The records of the calls, the store and the durable head, since all were
at one place of the chain. -/
structure Ordered (place : Int × PyStr) (world : World ι) : Prop where
  ledger : ∃ ledger, world.store.ledger = some ledger ∧ ledger.available = true
  bounds : ∀ i record, (world.phase i).record = some record ->
    place.1 < record.seq ∧ record.seq ≤ world.store.seq
  head : ∀ i record, (world.phase i).record = some record -> record.seq = world.store.seq ->
    record.chainHash = world.store.head
  tip : (world.store.seq, world.store.head) = place ∨
    ∃ i record, (world.phase i).record = some record ∧ record.seq = world.store.seq
  saved : ∀ i record, world.phase i = .returned (some record) ->
    record.seq ≤ (durablePlace world.store).1
  durable : durablePlace world.store = place ∨
    ∃ i record, world.phase i = .returned (some record) ∧
      durablePlace world.store = (record.seq, record.chainHash)

variable {P} {place : Int × PyStr} {world : World ι}

omit [DecidableEq ι] in
theorem Ordered.start_le (ordered : Ordered place world) : place.1 ≤ world.store.seq := by
  rcases ordered.tip with same | ⟨i, record, held, same⟩
  · rw [← same]
  · rw [← same]
    exact Int.le_of_lt (ordered.bounds i record held).1

omit [DecidableEq ι] in
/-- The invariant reads the store, the records and which of them are saved. -/
theorem Ordered.congr (ordered : Ordered place world) {other : World ι}
    (ledger : ∃ ledger, other.store.ledger = some ledger ∧ ledger.available = true)
    (seq : other.store.seq = world.store.seq) (head : other.store.head = world.store.head)
    (durable : durablePlace other.store = durablePlace world.store)
    (records : ∀ i, (other.phase i).record = (world.phase i).record)
    (returned : ∀ i record, other.phase i = .returned (some record) ↔
      world.phase i = .returned (some record)) : Ordered place other where
  ledger := ledger
  bounds := by
    intro i record held
    rw [records] at held
    rw [seq]
    exact ordered.bounds i record held
  head := by
    intro i record held same
    rw [records] at held
    rw [seq] at same
    rw [head]
    exact ordered.head i record held same
  tip := by
    rw [seq, head]
    rcases ordered.tip with same | ⟨i, record, held, same⟩
    · exact Or.inl same
    · exact Or.inr ⟨i, record, (records i).trans held, same⟩
  saved := by
    intro i record done
    rw [durable]
    exact ordered.saved i record ((returned i record).mp done)
  durable := by
    rw [durable]
    rcases ordered.durable with same | ⟨i, record, done, same⟩
    · exact Or.inl same
    · exact Or.inr ⟨i, record, (returned i record).mpr done, same⟩

/-! ## The steps of a thread -/

/-- The locked section raises and changes nothing, or appends a record. -/
theorem advance_waiting {i : ι} {call : TypedCall} (waits : world.phase i = .waiting call) (now : Int) :
    ((advance P world (i, now)).2 =
        { world with phase := Function.update world.phase i (.returned none) } ∧
      (CommitmentStore.add P world.store (calls P) call.toAddCall).1.toOption = none) ∨
      ∃ record, Appends P world.store call.toAddCall record ∧
        (advance P world (i, now)).2 =
          ⟨world.store.advanced record, Function.update world.phase i (.locked record)⟩ := by
  unfold advance CommitmentStore.add
  simp only [waits]
  cases sealing : CommitmentStore.sealTransaction P world.store call.toAddCall with
  | error error => exact Or.inl ⟨rfl, rfl⟩
  | ok sealed =>
      rcases addLocked_spec P world.store call sealing with ⟨error, locked⟩ | ⟨record, appends, locked⟩
      · simp only [locked]
        exact Or.inl ⟨trivial, rfl⟩
      · simp only [locked]
        exact Or.inr ⟨record, appends, rfl⟩

/-- A write does not touch the head. -/
theorem advance_locked (world : World ι) {i : ι} {record : CommitmentRecord}
    (locked : world.phase i = .locked record) (now : Int)
    (present : ∃ ledger, world.store.ledger = some ledger ∧ ledger.available = true) :
    ∃ store, (advance P world (i, now)).2 = ⟨store, Function.update world.phase i (.written record)⟩ ∧
      store.seq = world.store.seq ∧ store.head = world.store.head ∧
      durablePlace store = durablePlace world.store ∧
      ∃ ledger, store.ledger = some ledger ∧ ledger.available = true := by
  rcases present with ⟨ledger, held, available⟩
  rcases (ledger.meets ⟨fun _ => false, now⟩).write_spec P record.toExportDict with
    ⟨-, -, head, kept, -⟩
  have stepped : (advance P world (i, now)).2 =
      ⟨onLedger world.store fun ledger =>
          ((ledger.meets ⟨fun _ => false, now⟩).write P record.toExportDict).2,
        Function.update world.phase i (.written record)⟩ := by
    unfold advance
    simp only [locked]
  refine ⟨_, stepped, rfl, rfl, ?_, ?_⟩
  · unfold durablePlace onLedger
    simp only [held, Option.map_some, Option.bind_some, head]
    rfl
  · refine ⟨_, congrArg (Option.map _) held, ?_⟩
    exact kept.trans available

/-- The update of the head puts it at the place of the record. -/
theorem advance_written (world : World ι) {i : ι} {record : CommitmentRecord}
    (written : world.phase i = .written record) (now : Int)
    (present : ∃ ledger, world.store.ledger = some ledger ∧ ledger.available = true) :
    ∃ store, (advance P world (i, now)).2 =
        ⟨store, Function.update world.phase i (.returned (some record))⟩ ∧
      store.seq = world.store.seq ∧ store.head = world.store.head ∧
      durablePlace store = (record.seq, record.chainHash) ∧
      ∃ ledger, store.ledger = some ledger ∧ ledger.available = true := by
  rcases present with ⟨ledger, held, available⟩
  rcases (ledger.meets ⟨fun _ => false, now⟩).saveHead_spec record.seq record.chainHash DEFAULT_SHARD with
    ⟨-, -, head, kept, -⟩
  have goes : (ledger.meets ⟨fun _ => false, now⟩).takes .updateHead = true :=
    Bool.and_eq_true_iff.mpr ⟨available, rfl⟩
  rw [if_pos goes] at head
  have stepped : (advance P world (i, now)).2 =
      ⟨onLedger world.store fun ledger =>
          ((ledger.meets ⟨fun _ => false, now⟩).saveHead record.seq record.chainHash DEFAULT_SHARD).2,
        Function.update world.phase i (.returned (some record))⟩ := by
    unfold advance
    simp only [written]
  refine ⟨_, stepped, rfl, rfl, ?_, ?_⟩
  · unfold durablePlace onLedger
    simp only [held, Option.map_some, Option.bind_some, head, AList.lookup_insert]
    rfl
  · refine ⟨_, congrArg (Option.map _) held, ?_⟩
    exact kept.trans available

/-- A new record is the last one of the chain. -/
theorem ordered_commit (ordered : Ordered place world) {call : AddCall} {record : CommitmentRecord}
    (appends : Appends P world.store call record) {i : ι} (waits : (world.phase i).record = none) :
    Ordered place ⟨world.store.advanced record, Function.update world.phase i (.locked record)⟩ := by
  have next : record.seq = world.store.seq + 1 := appends.seq
  have others : ∀ j own, (Function.update world.phase i (.locked record) j).record = some own ->
      (j = i ∧ own = record) ∨ (world.phase j).record = some own := by
    intro j own held
    by_cases same : j = i
    · subst same
      rw [Function.update_self] at held
      cases held
      exact Or.inl ⟨rfl, rfl⟩
    · rw [Function.update_of_ne same] at held
      exact Or.inr held
  have returned : ∀ j own, Function.update world.phase i (.locked record) j = .returned (some own) ↔
      world.phase j = .returned (some own) := by
    intro j own
    by_cases same : j = i
    · subst same
      rw [Function.update_self]
      constructor
      · intro impossible
        cases impossible
      · intro done
        rw [done] at waits
        cases waits
    · rw [Function.update_of_ne same]
  refine ⟨ordered.ledger, ?_, ?_, Or.inr ⟨i, record, ?_, rfl⟩, ?_, ?_⟩
  · intro j own held
    show place.1 < own.seq ∧ own.seq ≤ record.seq
    rcases others j own held with ⟨-, rfl⟩ | old
    · have start := ordered.start_le
      omega
    · have bounds := ordered.bounds j own old
      omega
  · intro j own held same
    rcases others j own held with ⟨-, rfl⟩ | old
    · rfl
    · have bounds := ordered.bounds j own old
      have same : own.seq = record.seq := same
      omega
  · show (Function.update world.phase i (.locked record) i).record = some record
    rw [Function.update_self]
    rfl
  · intro j own done
    exact ordered.saved j own ((returned j own).mp done)
  · rcases ordered.durable with same | ⟨j, own, done, same⟩
    · exact Or.inl same
    · exact Or.inr ⟨j, own, (returned j own).mpr done, same⟩

/-- A head that is saved is that of a record that counts as saved from then on. -/
theorem ordered_save (ordered : Ordered place world) {i : ι} {record : CommitmentRecord}
    (written : world.phase i = .written record) {store : CommitmentStore CassandraLedger}
    (present : ∃ ledger, store.ledger = some ledger ∧ ledger.available = true)
    (seq : store.seq = world.store.seq) (head : store.head = world.store.head)
    (durable : durablePlace store = (record.seq, record.chainHash))
    (forward : (durablePlace world.store).1 ≤ record.seq) :
    Ordered place ⟨store, Function.update world.phase i (.returned (some record))⟩ := by
  have records : ∀ j, (Function.update world.phase i (.returned (some record)) j).record =
      (world.phase j).record := by
    intro j
    by_cases own : j = i
    · subst own
      rw [Function.update_self, written]
      rfl
    · rw [Function.update_of_ne own]
  refine ⟨present, ?_, ?_, ?_, ?_, ?_⟩
  · intro j own held
    rw [records] at held
    show place.1 < own.seq ∧ own.seq ≤ store.seq
    rw [seq]
    exact ordered.bounds j own held
  · intro j own held last
    rw [records] at held
    show own.chainHash = store.head
    rw [head]
    exact ordered.head j own held (last.trans seq)
  · show (store.seq, store.head) = place ∨ _
    rw [seq, head]
    rcases ordered.tip with start | ⟨j, own, held, last⟩
    · exact Or.inl start
    · exact Or.inr ⟨j, own, (records j).trans held, last⟩
  · intro j own done
    show own.seq ≤ (durablePlace store).1
    rw [durable]
    dsimp only at done
    by_cases this : j = i
    · subst this
      rw [Function.update_self] at done
      cases done
      exact Int.le_refl _
    · rw [Function.update_of_ne this] at done
      exact Int.le_trans (ordered.saved j own done) forward
  · exact Or.inr ⟨i, record, Function.update_self .., durable⟩

/-- A thread that changes neither its record nor whether it is saved. -/
theorem update_congr (world : World ι) (i : ι) (phase : Phase)
    (records : phase.record = (world.phase i).record)
    (unsaved : ∀ record, phase ≠ .returned (some record) ∧ world.phase i ≠ .returned (some record)) :
    (∀ j, (Function.update world.phase i phase j).record = (world.phase j).record) ∧
      ∀ j record, Function.update world.phase i phase j = .returned (some record) ↔
        world.phase j = .returned (some record) := by
  constructor
  · intro j
    by_cases same : j = i
    · subst same
      rw [Function.update_self]
      exact records
    · rw [Function.update_of_ne same]
  · intro j record
    by_cases same : j = i
    · subst same
      rw [Function.update_self]
      exact ⟨fun done => absurd done (unsaved record).1, fun done => absurd done (unsaved record).2⟩
    · rw [Function.update_of_ne same]

/-- A step at which the durable head does not move back keeps the invariant. -/
theorem ordered_advance (ordered : Ordered place world) (turn : ι × Int)
    (forward : Forward P world turn) : Ordered place (advance P world turn).2 := by
  unfold Forward at forward
  rcases turn with ⟨i, now⟩
  cases phase : world.phase i with
  | waiting call =>
      rcases advance_waiting (P := P) phase now with ⟨same, -⟩ | ⟨record, appends, same⟩
      · rw [same]
        rcases update_congr world i (.returned none) (by rw [phase]; rfl)
          (by rw [phase]; exact fun record => ⟨by simp, by simp⟩) with ⟨records, returned⟩
        exact ordered.congr ordered.ledger rfl rfl rfl records returned
      · rw [same]
        exact ordered_commit ordered appends (by rw [phase]; rfl)
  | locked record =>
      rcases advance_locked (P := P) world phase now ordered.ledger with
        ⟨store, same, seq, head, durable, present⟩
      rw [same]
      rcases update_congr world i (.written record) (by rw [phase]; rfl)
        (by rw [phase]; exact fun record => ⟨by simp, by simp⟩) with ⟨records, returned⟩
      exact ordered.congr present seq head durable records returned
  | returned record =>
      have same : (advance P world (i, now)).2 = world := by
        unfold advance
        simp only [phase]
      rw [same]
      exact ordered
  | written record =>
      rcases advance_written (P := P) world phase now ordered.ledger with
        ⟨store, same, seq, head, durable, present⟩
      rw [same, durable] at forward
      rw [same]
      exact ordered_save ordered phase present seq head durable forward

/-- The durable head does not move back at a step exactly if it is in order. -/
theorem forward_iff (ordered : Ordered place world) (turn : ι × Int) :
    Forward P world turn ↔ InOrder world turn := by
  unfold Forward
  rcases turn with ⟨i, now⟩
  cases phase : world.phase i with
  | waiting call =>
      constructor
      · intro _ record written
        rw [phase] at written
        cases written
      · intro _
        rcases advance_waiting (P := P) phase now with ⟨same, -⟩ | ⟨record, -, same⟩
        · rw [same]
        · rw [same]
          exact Int.le_refl _
  | locked record =>
      constructor
      · intro _ record written
        rw [phase] at written
        cases written
      · intro _
        rcases advance_locked (P := P) world phase now ordered.ledger with ⟨store, same, -, -, durable, -⟩
        rw [same]
        exact Int.le_of_eq (congrArg Prod.fst durable).symm
  | returned record =>
      constructor
      · intro _ record written
        rw [phase] at written
        cases written
      · intro _
        unfold advance
        simp only [phase]
        exact Int.le_refl _
  | written record =>
      rcases advance_written (P := P) world phase now ordered.ledger with ⟨store, same, -, -, durable, -⟩
      rw [same]
      dsimp only
      rw [durable]
      constructor
      · intro forward own written other later done
        rw [phase] at written
        cases written
        exact Int.le_trans (ordered.saved other later done) forward
      · intro inOrder
        rcases ordered.durable with start | ⟨other, later, done, saved⟩
        · rw [start]
          exact Int.le_of_lt (ordered.bounds i record (by rw [phase]; rfl)).1
        · rw [saved]
          exact inOrder record phase other later done

omit [DecidableEq ι] in
/-- When all calls have returned, the durable head is at the place of the store. -/
theorem durable_of_returned (ordered : Ordered place world)
    (all : ∀ i, ∃ record, world.phase i = .returned record) :
    durablePlace world.store = (world.store.seq, world.store.head) := by
  have done : ∀ i record, (world.phase i).record = some record ->
      world.phase i = .returned (some record) := by
    intro i record held
    rcases all i with ⟨own, returned⟩
    rw [returned] at held ⊢
    exact congrArg Phase.returned held
  rcases ordered.tip with start | ⟨i, record, held, last⟩
  · rcases ordered.durable with same | ⟨j, own, returned, -⟩
    · exact same.trans start.symm
    · -- a record would be numbered past the tip
      have bounds := ordered.bounds j own (by rw [returned]; rfl)
      rw [← start] at bounds
      omega
  · have reached := ordered.saved i record (done i record held)
    rcases ordered.durable with same | ⟨j, own, returned, saved⟩
    · have bounds := ordered.bounds i record held
      rw [same] at reached
      omega
    · have carried : (world.phase j).record = some own := by rw [returned]; rfl
      have bounds := ordered.bounds j own carried
      rw [saved] at reached
      have same : own.seq = world.store.seq := by
        dsimp only at reached
        omega
      rw [saved, ordered.head j own carried same, same]

/-! ## Schedules -/

/-- A store that has read its head starts where the durable head is. -/
theorem durablePlace_new {ledger : CassandraLedger} (available : ledger.available = true)
    (readable : ledger.environment.fails .selectHead = false) (ringSize : Nat)
    (keypair : Lwe.LWEKeyPair) (masterKey : Bytes) (signingKey : Signature.SigningKey) :
    let store := CommitmentStore.new (calls P) (some ledger) ringSize keypair masterKey signingKey
    durablePlace store = (store.seq, store.head) := by
  have resumed : (calls P).loadHead ledger =
      (ledger.ledgerHead.lookup DEFAULT_SHARD).map fun own => (own.seq, own.chainHash) := by
    show ledger.loadHead DEFAULT_SHARD = _
    unfold CassandraLedger.loadHead
    rw [available, readable]
    rfl
  unfold durablePlace CommitmentStore.new
  simp only [Option.bind_some, resumed, Prod.mk.eta]

omit [DecidableEq ι] in
/-- Before any call has taken the lock, the invariant holds at the place of the store. -/
theorem ordered_new {ledger : CassandraLedger} (available : ledger.available = true)
    (readable : ledger.environment.fails .selectHead = false) (ringSize : Nat)
    (keypair : Lwe.LWEKeyPair) (masterKey : Bytes) (signingKey : Signature.SigningKey)
    (callOf : ι -> TypedCall) :
    let store := CommitmentStore.new (calls P) (some ledger) ringSize keypair masterKey signingKey
    Ordered (store.seq, store.head) ⟨store, fun i => .waiting (callOf i)⟩ := by
  refine ⟨⟨ledger, rfl, available⟩, ?_, ?_, Or.inl rfl, ?_,
    Or.inl (durablePlace_new available readable ringSize keypair masterKey signingKey)⟩
  · intro i record held
    cases held
  · intro i record held
    cases held
  · intro i record done
    cases done

variable (P)

/-- Under every schedule of any number of calls on a store that has resumed
from its ledger: the durable head never moves back, and is at the place of the
store when all calls have returned, exactly if the heads are saved in order. -/
theorem head_keeps_up_iff {ledger : CassandraLedger} (available : ledger.available = true)
    (readable : ledger.environment.fails .selectHead = false) (ringSize : Nat)
    (keypair : Lwe.LWEKeyPair) (masterKey : Bytes) (signingKey : Signature.SigningKey)
    (callOf : ι -> TypedCall) (schedule : List (ι × Int)) {start : World ι}
    (started : start = ⟨.new (calls P) (some ledger) ringSize keypair masterKey signingKey,
      fun i => .waiting (callOf i)⟩) :
    ((∀ seen turn, seen ++ [turn] <+: schedule ->
        (durablePlace (Machine.run (advance P) start seen).2.store).1 ≤
          (durablePlace (Machine.run (advance P) start (seen ++ [turn])).2.store).1) ∧
      ((∀ i, ∃ record, (Machine.run (advance P) start schedule).2.phase i = .returned record) ->
        durablePlace (Machine.run (advance P) start schedule).2.store =
          ((Machine.run (advance P) start schedule).2.store.seq,
            (Machine.run (advance P) start schedule).2.store.head))) ↔
    Machine.Along (advance P) InOrder start schedule := by
  have ordered : Ordered (start.store.seq, start.store.head) start := by
    rw [started]
    exact ordered_new available readable ringSize keypair masterKey signingKey callOf
  have keeps : ∀ (world : World ι) (turn : ι × Int), Ordered (start.store.seq, start.store.head) world ->
      Forward P world turn -> Ordered (start.store.seq, start.store.head) (advance P world turn).2 :=
    fun world turn ordered forward => ordered_advance ordered turn forward
  have forward : Machine.Along (advance P) (Forward P) start schedule ↔
      Machine.Along (advance P) InOrder start schedule :=
    Machine.along_congr (Ordered (start.store.seq, start.store.head)) keeps
      (fun world turn ordered => forward_iff ordered turn) ordered
  have steps : Machine.Along (advance P) (Forward P) start schedule ↔
      ∀ seen turn, seen ++ [turn] <+: schedule ->
        Forward P (Machine.run (advance P) start seen).2 turn := Machine.along_iff_steps start schedule
  rw [← forward]
  constructor
  · rintro ⟨monotone, -⟩
    apply steps.mpr
    intro seen turn before
    have next := monotone seen turn before
    rw [Machine.run_append] at next
    exact next
  · intro along
    constructor
    · intro seen turn before
      rw [Machine.run_append]
      exact steps.mp along seen turn before
    · intro all
      exact durable_of_returned (Machine.invariant_of_along _ keeps ordered along schedule
        (List.prefix_refl _)) all

end Threads

/-! ## Two calls -/

/-- A well-formed call appends its record when it takes the lock. -/
theorem advance_wellFormed {P : Platform} {ι : Type} [DecidableEq ι] (world : World ι) {i : ι}
    {call : TypedCall} (waits : world.phase i = .waiting call) {id : PyStr}
    (wellFormed : WellFormed call.toAddCall id) {seed : Bytes} (seedLength : seed.length = Lwe.SEED_LEN)
    (keypair : world.store.keypair = Lwe.LWEKeyPair.generate P seed) (head : IsDigest world.store.head)
    (now : Int) :
    ∃ record, Appends P world.store call.toAddCall record ∧
      (advance P world (i, now)).2 =
        ⟨world.store.advanced record, Function.update world.phase i (.locked record)⟩ := by
  rcases advance_waiting (P := P) waits now with ⟨-, silent⟩ | succeeds
  · rcases add_wellFormed P world.store (calls P) wellFormed seedLength keypair head with
      ⟨record, -, added⟩
    rw [added] at silent
    cases silent
  · exact succeeds

/-- The phases of two calls. -/
def phases (first second : Phase) : Bool -> Phase
  | false => first
  | true => second

theorem update_false (first second phase : Phase) :
    Function.update (phases first second) false phase = phases phase second := by
  funext i
  cases i <;> rfl

theorem update_true (first second phase : Phase) :
    Function.update (phases first second) true phase = phases first phase := by
  funext i
  cases i <;> rfl

def twoCalls : World Bool :=
  ⟨durableStore, phases (.waiting (callFor "TXN-A")) (.waiting (callFor "TXN-B"))⟩

/-- One after the other they take the lock. -/
theorem lock_twoCalls : ∃ first second,
    (advance samplePlatform twoCalls (false, 1)).2 =
      ⟨durableStore.advanced first, phases (.locked first) (.waiting (callFor "TXN-B"))⟩ ∧
    (advance samplePlatform ⟨durableStore.advanced first, phases (.locked first) (.waiting (callFor "TXN-B"))⟩
      (true, 2)).2 = ⟨(durableStore.advanced first).advanced second, phases (.locked first) (.locked second)⟩ ∧
    first.seq = 1 ∧ second.seq = 2 := by
  have seedLength : Sample.latticeSeed.length = Lwe.SEED_LEN := rfl
  have wellFormed : WellFormed (callFor "TXN-A").toAddCall (PyStr.ofString "TXN-A") :=
    wellFormed_callFor ⟨_, rfl⟩
  have wellFormed' : WellFormed (callFor "TXN-B").toAddCall (PyStr.ofString "TXN-B") :=
    wellFormed_callFor ⟨_, rfl⟩
  rcases advance_wellFormed twoCalls (i := false) rfl wellFormed seedLength rfl isDigest_durableStore 1
    with ⟨first, appends, ran⟩
  rw [twoCalls, update_false] at ran
  rcases advance_wellFormed ⟨durableStore.advanced first, phases (.locked first) (.waiting (callFor "TXN-B"))⟩
    (i := true) rfl wellFormed' seedLength rfl appends.honest.chainHash_isDigest 2 with
    ⟨second, appends', ran'⟩
  rw [update_true] at ran'
  have one : first.seq = 1 := appends.seq
  have two : second.seq = first.seq + 1 := appends'.seq
  exact ⟨first, second, ran, ran', one, by rw [two, one]; rfl⟩

/-- Two calls that take turns. -/
def alternating : List (Bool × Int) :=
  [(false, 1), (true, 2), (false, 3), (true, 4), (false, 5), (true, 6)]

/-- The durable head is in the end at the place of the store. -/
theorem head_keeps_up_iff_sample :
    durablePlace (Machine.run (advance samplePlatform) twoCalls alternating).2.store =
      ((Machine.run (advance samplePlatform) twoCalls alternating).2.store.seq,
        (Machine.run (advance samplePlatform) twoCalls alternating).2.store.head) := by
  rcases lock_twoCalls with ⟨first, second, ran, ran', one, two⟩
  rcases advance_locked (P := samplePlatform) ⟨(durableStore.advanced first).advanced second,
    phases (.locked first) (.locked second)⟩ (i := false) rfl 3 ⟨_, rfl, rfl⟩ with ⟨store3, ran3, -, -, -, present3⟩
  rw [update_false] at ran3
  rcases advance_locked (P := samplePlatform) ⟨store3, phases (.written first) (.locked second)⟩
    (i := true) rfl 4 present3 with ⟨store4, ran4, -, -, -, present4⟩
  rw [update_true] at ran4
  rcases advance_written (P := samplePlatform) ⟨store4, phases (.written first) (.written second)⟩
    (i := false) rfl 5 present4 with ⟨store5, ran5, -, -, -, present5⟩
  rw [update_false] at ran5
  rcases advance_written (P := samplePlatform) ⟨store5, phases (.returned (some first)) (.written second)⟩
    (i := true) rfl 6 present5 with ⟨store6, ran6, -⟩
  rw [update_true] at ran6
  have started : twoCalls = ⟨.new (calls samplePlatform) (some (.empty healthy)) HOT_RING_SIZE
      (Lwe.LWEKeyPair.generate samplePlatform Sample.latticeSeed) [] sampleKey,
      fun i => .waiting (if i then callFor "TXN-B" else callFor "TXN-A")⟩ := by
    have waiting : phases (.waiting (callFor "TXN-A")) (.waiting (callFor "TXN-B")) =
        fun i => .waiting (if i then callFor "TXN-B" else callFor "TXN-A") := by
      funext i
      cases i <;> rfl
    rw [twoCalls, waiting]
    rfl
  have along : Machine.Along (advance samplePlatform) InOrder twoCalls alternating := by
    refine Machine.along_cons (fun _ done => by cases done) ran ?_
    refine Machine.along_cons (fun _ done => by cases done) ran' ?_
    refine Machine.along_cons (fun _ done => by cases done) ran3 ?_
    refine Machine.along_cons (fun _ done => by cases done) ran4 ?_
    refine Machine.along_cons ?_ ran5 (Machine.along_cons ?_ ran6 trivial)
    · intro record _ other later done
      cases other <;> cases done
    · -- the first call has returned, and its record is the earlier one
      intro record written other later done
      cases written
      cases other with
      | false =>
          cases done
          rw [one, two]
          decide
      | true => cases done
  have final : (Machine.run (advance samplePlatform) twoCalls alternating).2 =
      ⟨store6, phases (.returned (some first)) (.returned (some second))⟩ := by
    refine (Machine.state_run_cons _ ran _).trans ?_
    refine (Machine.state_run_cons _ ran' _).trans ?_
    refine (Machine.state_run_cons _ ran3 _).trans ?_
    refine (Machine.state_run_cons _ ran4 _).trans ?_
    refine (Machine.state_run_cons _ ran5 _).trans ?_
    exact Machine.state_run_cons _ ran6 _
  apply ((head_keeps_up_iff samplePlatform (rfl : (CassandraLedger.empty healthy).available = true) rfl
    HOT_RING_SIZE (Lwe.LWEKeyPair.generate samplePlatform Sample.latticeSeed) [] sampleKey
    (fun i => if i then callFor "TXN-B" else callFor "TXN-A") alternating started).mpr along).2
  intro i
  rw [final]
  cases i with
  | false => exact ⟨some first, rfl⟩
  | true => exact ⟨some second, rfl⟩

/-- Two calls, of which the one with the later record saves the head first. -/
def overtaking : List (Bool × Int) :=
  [(false, 1), (true, 2), (true, 3), (true, 4), (false, 5), (false, 6)]

/-- The durable head is left behind the store. -/
theorem overtaking_rolls_back_head :
    (∀ i, ∃ record, (Machine.run (advance samplePlatform) twoCalls overtaking).2.phase i =
      .returned record) ∧
    (Machine.run (advance samplePlatform) twoCalls overtaking).2.store.seq = 2 ∧
    (durablePlace (Machine.run (advance samplePlatform) twoCalls overtaking).2.store).1 = 1 := by
  rcases lock_twoCalls with ⟨first, second, ran, ran', one, two⟩
  rcases advance_locked (P := samplePlatform) ⟨(durableStore.advanced first).advanced second,
    phases (.locked first) (.locked second)⟩ (i := true) rfl 3 ⟨_, rfl, rfl⟩ with
    ⟨store3, ran3, seq3, -, -, present3⟩
  rw [update_true] at ran3
  rcases advance_written (P := samplePlatform) ⟨store3, phases (.locked first) (.written second)⟩
    (i := true) rfl 4 present3 with ⟨store4, ran4, seq4, -, -, present4⟩
  rw [update_true] at ran4
  rcases advance_locked (P := samplePlatform) ⟨store4, phases (.locked first) (.returned (some second))⟩
    (i := false) rfl 5 present4 with ⟨store5, ran5, seq5, -, -, present5⟩
  rw [update_false] at ran5
  rcases advance_written (P := samplePlatform) ⟨store5, phases (.written first) (.returned (some second))⟩
    (i := false) rfl 6 present5 with ⟨store6, ran6, seq6, -, durable, -⟩
  rw [update_false] at ran6
  have final : (Machine.run (advance samplePlatform) twoCalls overtaking).2 =
      ⟨store6, phases (.returned (some first)) (.returned (some second))⟩ := by
    refine (Machine.state_run_cons _ ran _).trans ?_
    refine (Machine.state_run_cons _ ran' _).trans ?_
    refine (Machine.state_run_cons _ ran3 _).trans ?_
    refine (Machine.state_run_cons _ ran4 _).trans ?_
    refine (Machine.state_run_cons _ ran5 _).trans ?_
    exact Machine.state_run_cons _ ran6 _
  rw [final]
  refine ⟨?_, ?_, ?_⟩
  · intro i
    cases i with
    | false => exact ⟨some first, rfl⟩
    | true => exact ⟨some second, rfl⟩
  · calc store6.seq = store5.seq := seq6
      _ = store4.seq := seq5
      _ = store3.seq := seq4
      _ = second.seq := seq3
      _ = 2 := two
  · show (durablePlace store6).1 = 1
    rw [durable]
    exact one

end Cassandra
end ZeroAudit
