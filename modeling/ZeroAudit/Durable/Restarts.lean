import ZeroAudit.Chain.Atomicity
import ZeroAudit.Durable.Writes
import ZeroAudit.Foundation.Machine

namespace ZeroAudit
namespace Cassandra

open Foundation Commitment

/-!
# Restarts

A deployment is a store over a durable ledger, together with the links that were
computed and the records that were returned since the ledger was empty.  A restart
builds a new store, which takes its place in the chain from whatever the ledger
answers.

The numbers that a run comes to can be told from its events.  Whether a call comes
to a link, and to a record, is a matter of its arguments.  Whether a head is saved
or loaded is a matter of the environment.  The chain forks exactly if an `add` comes
to a record from a number below that of the last record that was returned.
-/

variable (P : Platform)

/-! ## Deployments -/

/-- The keys of a process. -/
structure ProcessKeys where
  latticeSeed : Bytes
  latticeSeed_length : latticeSeed.length = Lwe.SEED_LEN
  masterKey : Bytes
  signingKey : Signature.SigningKey

/-- The store of a new process. -/
def processStore (keys : ProcessKeys) (ringSize : Nat) (ledger : Option CassandraLedger) :
    CommitmentStore CassandraLedger :=
  .new (calls P) ledger ringSize (.generate P keys.latticeSeed) keys.masterKey keys.signingKey

structure Deployment where
  store : CommitmentStore CassandraLedger
  links : List Link
  returned : List CommitmentRecord

/-- What may happen to a deployment, and the environment it meets.  A new
process may have a ring and keys of its own. -/
inductive Event where
  | add (environment : Environment) (call : AddCall)
  | restart (environment : Environment) (ringSize : Nat) (keys : ProcessKeys)

/-- One event; an `add` answers with the record it returns. -/
def happen (deployment : Deployment) : Event -> Option CommitmentRecord × Deployment
  | .add environment call =>
      let store := inEnvironment environment deployment.store
      let added := CommitmentStore.add P store (calls P) call
      (added.1.toOption, ⟨added.2, deployment.links ++ (linkOf P store call).toList,
        deployment.returned ++ added.1.toOption.toList⟩)
  | .restart environment ringSize keys =>
      (none, ⟨processStore P keys ringSize (deployment.store.ledger.map fun ledger => ledger.meets environment),
        deployment.links, deployment.returned⟩)

/-- The first process over a ledger. -/
def started (keys : ProcessKeys) (ringSize : Nat) (ledger : Option CassandraLedger) : Deployment :=
  ⟨processStore P keys ringSize ledger, [], []⟩

/-- No two records name one predecessor, and the numbers increase. -/
structure NoFork (records : List CommitmentRecord) : Prop where
  apart : (records.map CommitmentRecord.prevChainHash).Nodup
  increasing : records.Pairwise fun a b => a.seq < b.seq

/-! ## The numbers of a run -/

/-- The numbers of the last link, of the head that is saved, and of the last record. -/
structure Numbers where
  linked : Int
  saved : Int
  returned : Int

/-- What an event does to the numbers, over a ledger that is online or not. -/
def Numbers.after (online : Bool) (numbers : Numbers) : Event -> Numbers
  | .add environment call =>
      let next := numbers.linked + 1
      if Sealable call then
        if Fillable P call then
          { linked := next
            saved := if online && !environment.fails .updateHead then next else numbers.saved
            returned := next }
        else { numbers with linked := next }
      else numbers
  | .restart environment _ _ =>
      { numbers with linked := if online && !environment.fails .selectHead then numbers.saved else 0 }

/-- The numbers as a machine of their own, which answers nothing. -/
def count (online : Bool) (numbers : Numbers) (event : Event) : Unit × Numbers :=
  ((), numbers.after P online event)

/-- An `add` that comes to a record finds no record returned beyond the last link. -/
def InStep (numbers : Numbers) : Event -> Prop
  | .add _ call => Sealable call -> Fillable P call -> numbers.returned ≤ numbers.linked
  | .restart _ _ _ => True

/-! ## One event -/

section Step

variable {P} {deployment : Deployment}

/-- A place in the chain: a number, and a hash that so many links lead to. -/
def Place (links : List Link) (seq : Int) (head : PyStr) : Prop :=
  ∃ count : Nat, seq = count ∧ LinkChain.Reaches Link.prev Link.digest GENESIS_HASH links count head

theorem Place.append {links : List Link} {seq : Int} {head : PyStr} (place : Place links seq head)
    (more : List Link) : Place (links ++ more) seq head := by
  rcases place with ⟨count, number, reached⟩
  exact ⟨count, number, reached.append more⟩

theorem place_genesis (links : List Link) : Place links 0 GENESIS_HASH := ⟨0, rfl, .genesis⟩

/-- A link leads one further. -/
theorem Place.next {links : List Link} {link : Link} {seq : Int} (place : Place links seq link.prev) :
    Place (links ++ [link]) (seq + 1) link.digest := by
  rcases place.append [link] with ⟨count, number, reached⟩
  refine ⟨count + 1, ?_, .entry (List.mem_append_right _ List.mem_cons_self) reached⟩
  rw [number, Nat.cast_add, Nat.cast_one]

variable (P) in
/-- Every hash that the deployment goes on from has its place in the chain, and so has
every record that it has returned. -/
structure Placed (deployment : Deployment) : Prop where
  keypair : ∃ keys : ProcessKeys, deployment.store.keypair = Lwe.LWEKeyPair.generate P keys.latticeSeed
  honest : ∀ link ∈ deployment.links, ∃ key, HonestLink P key link
  store : Place deployment.links deployment.store.seq deployment.store.head
  durable : ∀ ledger, deployment.store.ledger = some ledger ->
    ∀ own, ledger.ledgerHead.lookup DEFAULT_SHARD = some own -> Place deployment.links own.seq own.chainHash
  returned : ∀ record ∈ deployment.returned, Place deployment.links (record.seq - 1) record.prevChainHash

/-- A place is a digest. -/
theorem Placed.isDigest (placed : Placed P deployment) {seq : Int} {head : PyStr}
    (place : Place deployment.links seq head) : IsDigest head := by
  rcases place with ⟨count, -, reached⟩
  cases reached with
  | genesis => exact isDigest_genesis
  | entry member before =>
      rcases placed.honest _ member with ⟨key, honest⟩
      rw [honest.hashed]
      exact isDigest_sha3Hex P _

/-- The deployment after an `add` that came to no link. -/
def unlinked (environment : Environment) (deployment : Deployment) : Deployment :=
  { deployment with store := inEnvironment environment deployment.store }

/-- The deployment after an `add` that came to a link and to no record. -/
def strandedOn (environment : Environment) (deployment : Deployment) (link : Link) : Deployment :=
  { deployment with
    store := (inEnvironment environment deployment.store).stranded link.digest
    links := deployment.links ++ [link] }

variable (P) in
/-- The deployment after an `add` that came to a record. -/
def recorded (environment : Environment) (deployment : Deployment) (link : Link)
    (record : CommitmentRecord) : Deployment :=
  ⟨committed P environment deployment.store record, deployment.links ++ [link],
    deployment.returned ++ [record]⟩

variable (P) in
/-- A link that is computed on the head of a store. -/
structure NextLink (store : CommitmentStore CassandraLedger) (link : Link) : Prop where
  honest : HonestLink P store.signingKey link
  prev : link.prev = store.head

/-- What becomes of an `add` is a matter of its arguments. -/
theorem happen_add (placed : Placed P deployment) (environment : Environment) (call : AddCall) :
    (¬Sealable call ∧ happen P deployment (.add environment call) = (none, unlinked environment deployment)) ∨
    (Sealable call ∧ ¬Fillable P call ∧ ∃ link, NextLink P deployment.store link ∧
      happen P deployment (.add environment call) = (none, strandedOn environment deployment link)) ∨
    (Sealable call ∧ Fillable P call ∧ ∃ link record, NextLink P deployment.store link ∧
      Appends P deployment.store call record ∧ link.record = some record ∧
      happen P deployment (.add environment call) =
        (some record, recorded P environment deployment link record)) := by
  have head : IsDigest (inEnvironment environment deployment.store).head := placed.isDigest placed.store
  rcases placed.keypair with ⟨keys, keypair⟩
  have linked : (∃ link, linkOf P (inEnvironment environment deployment.store) call = some link) ↔ Sealable call :=
    linked_iff_sealable keys.latticeSeed_length keypair head
  cases own : linkOf P (inEnvironment environment deployment.store) call with
  | none =>
      refine Or.inl ⟨?_, ?_⟩
      · intro sealable
        rcases linked.mpr sealable with ⟨link, some⟩
        rw [own] at some
        cases some
      · rcases add_of_linkOf_none P (calls P) _ call own with ⟨error, added⟩
        simp only [happen, added, own, Except.toOption, Option.toList_none, List.append_nil, unlinked]
  | some link =>
      have sealable := linked.mp ⟨link, own⟩
      have next : NextLink P deployment.store link := ⟨honest_linkOf P _ own head, (linkOf_fields P _ call own).1⟩
      have carries := isSome_record_iff P _ call own
      rcases add_of_linkOf_some P (calls P) _ call own with ⟨moved, number, -, -, answer⟩
      rcases add_outcome P (inEnvironment environment deployment.store) (calls P) call with
        ⟨error, added⟩ | ⟨error, chainHash, -, -, added⟩ | ⟨record, appends, added⟩
      · -- the sequence number has moved
        rw [added] at number
        have same : deployment.store.seq = deployment.store.seq + 1 := number
        omega
      · rw [added] at answer moved
        have hash : chainHash = link.digest := moved
        refine Or.inr (Or.inl ⟨sealable, ?_, link, next, ?_⟩)
        · intro fillable
          rcases carries.mpr fillable with ⟨record, carried⟩
          rw [carried] at answer
          cases answer
        · simp only [happen, added, own, hash, Except.toOption, Option.toList_none, List.append_nil,
            Option.toList_some, strandedOn]
      · rw [added] at answer
        refine Or.inr (Or.inr ⟨sealable, carries.mp ⟨record, answer.symm⟩, link, record, next,
          appends_of_inEnvironment P appends, answer.symm, ?_⟩)
        simp only [happen, added, own, Except.toOption, Option.toList_some, recorded]
        rw [persist_inEnvironment]

/-! ### Places -/

/-- A head that is loaded is one that was saved. -/
theorem lookup_of_loadHead {ledger : CassandraLedger} {shard : PyStr} {place : Int × PyStr}
    (loaded : ledger.loadHead shard = some place) :
    ∃ own, ledger.ledgerHead.lookup shard = some own ∧ place = (own.seq, own.chainHash) := by
  unfold CassandraLedger.loadHead at loaded
  split at loaded
  · cases loaded
  · split at loaded
    · cases loaded
    · rcases Option.map_eq_some_iff.mp loaded with ⟨own, found, same⟩
      exact ⟨own, found, same.symm⟩

theorem placed_inEnvironment (placed : Placed P deployment) (environment : Environment) :
    ∀ ledger, (inEnvironment environment deployment.store).ledger = some ledger ->
      ∀ own, ledger.ledgerHead.lookup DEFAULT_SHARD = some own -> Place deployment.links own.seq own.chainHash := by
  intro ledger present own found
  rcases Option.map_eq_some_iff.mp present with ⟨before, held, rfl⟩
  exact placed.durable before held own found

/-- A link makes a new place, and keeps the old ones. -/
theorem honest_append (placed : Placed P deployment) {link : Link} (next : NextLink P deployment.store link) :
    ∀ own ∈ deployment.links ++ [link], ∃ key, HonestLink P key own := by
  intro own member
  rcases List.mem_append.mp member with before | latest
  · exact placed.honest own before
  · rw [List.mem_singleton.mp latest]
    exact ⟨_, next.honest⟩

theorem place_next (placed : Placed P deployment) {link : Link} (next : NextLink P deployment.store link) :
    Place (deployment.links ++ [link]) (deployment.store.seq + 1) link.digest := by
  apply Place.next
  rw [next.prev]
  exact placed.store

theorem place_record (placed : Placed P deployment) {link : Link} {call : AddCall} {record : CommitmentRecord}
    (next : NextLink P deployment.store link) (appends : Appends P deployment.store call record)
    (carried : link.record = some record) :
    Place (deployment.links ++ [link]) record.seq record.chainHash := by
  rw [appends.seq, (next.honest.carried record carried).2.2.1]
  exact place_next placed next

theorem placed_strandedOn (placed : Placed P deployment) {link : Link}
    (next : NextLink P deployment.store link) (environment : Environment) :
    Placed P (strandedOn environment deployment link) where
  keypair := placed.keypair
  honest := honest_append placed next
  store := place_next placed next
  durable ledger present own found := (placed_inEnvironment placed environment ledger present own found).append _
  returned record member := (placed.returned record member).append _

theorem placed_recorded (placed : Placed P deployment) {link : Link} {call : AddCall} {record : CommitmentRecord}
    (next : NextLink P deployment.store link) (appends : Appends P deployment.store call record)
    (carried : link.record = some record) (environment : Environment) :
    Placed P (recorded P environment deployment link record) where
  keypair := placed.keypair
  honest := honest_append placed next
  store := place_record placed next appends carried
  durable := by
    intro ledger present own found
    rcases Option.map_eq_some_iff.mp present with ⟨before, held, same⟩
    rcases appends.named with ⟨txnId, named⟩
    rw [← same, ((before.meets environment).persisted_spec P named).2.2.1] at found
    split at found
    · rw [AList.lookup_insert] at found
      cases found
      exact place_record placed next appends carried
    · exact (placed.durable before held own found).append _
  returned := by
    intro own member
    rcases List.mem_append.mp member with before | latest
    · exact (placed.returned own before).append _
    · rw [List.mem_singleton.mp latest, appends.seq, appends.prev, add_sub_cancel_right]
      exact placed.store.append _

/-- A new process starts from a head that was saved, or from genesis. -/
theorem place_opened {links : List Link} {ledger : Option CassandraLedger}
    (durable : ∀ own, ledger = some own -> ∀ row, own.ledgerHead.lookup DEFAULT_SHARD = some row ->
      Place links row.seq row.chainHash) (keys : ProcessKeys) (ringSize : Nat) :
    Place links (processStore P keys ringSize ledger).seq (processStore P keys ringSize ledger).head := by
  unfold processStore CommitmentStore.new
  cases loaded : ledger.bind (calls P).loadHead with
  | none => exact place_genesis links
  | some place =>
      rcases Option.bind_eq_some_iff.mp loaded with ⟨own, present, head⟩
      rcases lookup_of_loadHead head with ⟨row, found, rfl⟩
      exact durable own present row found

theorem placed_happen (placed : Placed P deployment) (event : Event) : Placed P (happen P deployment event).2 := by
  cases event with
  | add environment call =>
      rcases happen_add placed environment call with
        ⟨-, same⟩ | ⟨-, -, link, next, same⟩ | ⟨-, -, link, record, next, appends, carried, same⟩
      · rw [same]
        exact ⟨placed.keypair, placed.honest, placed.store, placed_inEnvironment placed environment,
          placed.returned⟩
      · rw [same]
        exact placed_strandedOn placed next environment
      · rw [same]
        exact placed_recorded placed next appends carried environment
  | restart environment ringSize keys =>
      have durable := placed_inEnvironment placed environment
      exact ⟨⟨keys, rfl⟩, placed.honest, place_opened durable keys ringSize, durable, placed.returned⟩

/-! ### Numbers -/

/-- The number that a new process would load, or zero. -/
def headSeq (ledger : CassandraLedger) : Int :=
  ((ledger.ledgerHead.lookup DEFAULT_SHARD).map HeadRow.seq).getD 0

/-- The number of the last record, or zero. -/
def lastSeq (records : List CommitmentRecord) : Int := (records.getLast?.map CommitmentRecord.seq).getD 0

/-- The numbers are those of the deployment. -/
structure Counts (online : Bool) (numbers : Numbers) (deployment : Deployment) : Prop where
  connected : ∀ ledger, deployment.store.ledger = some ledger -> ledger.available = online
  present : online = true -> deployment.store.ledger.isSome
  linked : deployment.store.seq = numbers.linked
  saved : ∀ ledger, deployment.store.ledger = some ledger -> headSeq ledger = numbers.saved
  returned : lastSeq deployment.returned = numbers.returned

variable {online : Bool} {numbers : Numbers}

/-- An environment changes no number. -/
theorem counts_inEnvironment (counts : Counts online numbers deployment) (environment : Environment) :
    Counts online numbers (unlinked environment deployment) := by
  refine ⟨?_, ?_, counts.linked, ?_, counts.returned⟩
  · intro ledger present
    rcases Option.map_eq_some_iff.mp present with ⟨before, held, rfl⟩
    exact counts.connected before held
  · intro up
    exact (Option.isSome_map ..).trans (counts.present up)
  · intro ledger present
    rcases Option.map_eq_some_iff.mp present with ⟨before, held, rfl⟩
    exact counts.saved before held

theorem counts_recorded (counts : Counts online numbers deployment) {link : Link} {call : AddCall}
    {record : CommitmentRecord} (appends : Appends P deployment.store call record) (environment : Environment) :
    Counts online
      { linked := numbers.linked + 1
        saved := if online && !environment.fails .updateHead then numbers.linked + 1 else numbers.saved
        returned := numbers.linked + 1 } (recorded P environment deployment link record) := by
  have number : record.seq = numbers.linked + 1 := by rw [appends.seq, counts.linked]
  rcases appends.named with ⟨txnId, named⟩
  refine ⟨?_, ?_, number, ?_, ?_⟩
  · intro ledger present
    rcases Option.map_eq_some_iff.mp present with ⟨before, held, rfl⟩
    rw [((before.meets environment).persisted_spec P named).2.2.2.1]
    exact counts.connected before held
  · intro up
    exact (Option.isSome_map ..).trans (counts.present up)
  · intro ledger present
    rcases Option.map_eq_some_iff.mp present with ⟨before, held, rfl⟩
    have takes : (before.meets environment).takes .updateHead = (online && !environment.fails .updateHead) := by
      rw [← counts.connected before held]
      rfl
    unfold headSeq
    rw [((before.meets environment).persisted_spec P named).2.2.1, takes]
    split
    · rw [AList.lookup_insert]
      exact number
    · exact counts.saved before held
  · unfold lastSeq recorded
    rw [List.getLast?_concat]
    exact number

/-- The number of a new process. -/
theorem seq_opened {ledger : Option CassandraLedger} (environment : Environment)
    (up : ∀ own, ledger = some own -> own.available = online) (present : online = true -> ledger.isSome)
    {saved : Int} (held : ∀ own, ledger = some own -> headSeq own = saved) (keys : ProcessKeys) (ringSize : Nat) :
    (processStore P keys ringSize (ledger.map fun own => own.meets environment)).seq =
      if online && !environment.fails .selectHead then saved else 0 := by
  unfold processStore CommitmentStore.new
  cases ledger with
  | none =>
      cases online with
      | false => rfl
      | true => cases present rfl
  | some own =>
      have loaded : ((some own).map fun own => own.meets environment).bind (calls P).loadHead =
          (own.meets environment).loadHead DEFAULT_SHARD := rfl
      rw [loaded, ← held own rfl, ← up own rfl]
      unfold CassandraLedger.loadHead CassandraLedger.meets headSeq
      cases own.available with
      | false => rfl
      | true =>
          cases environment.fails .selectHead with
          | true => rfl
          | false =>
              cases own.ledgerHead.lookup DEFAULT_SHARD with
              | none => rfl
              | some row => rfl

/-- The numbers keep up with the deployment. -/
theorem counts_happen (placed : Placed P deployment) (counts : Counts online numbers deployment) (event : Event) :
    Counts online (numbers.after P online event) (happen P deployment event).2 := by
  cases event with
  | add environment call =>
      unfold Numbers.after
      dsimp only
      rcases happen_add placed environment call with
        ⟨others, same⟩ | ⟨sealable, others, link, next, same⟩ |
        ⟨sealable, fillable, link, record, next, appends, -, same⟩
      · rw [same, if_neg others]
        exact counts_inEnvironment counts environment
      · rw [same, if_pos sealable, if_neg others]
        have moved := counts_inEnvironment counts environment
        refine ⟨moved.connected, moved.present, ?_, moved.saved, moved.returned⟩
        exact congrArg (· + 1) counts.linked
      · rw [same, if_pos sealable, if_pos fillable]
        exact counts_recorded counts appends environment
  | restart environment ringSize keys =>
      have moved := counts_inEnvironment counts environment
      refine ⟨moved.connected, moved.present, ?_, moved.saved, moved.returned⟩
      exact seq_opened environment counts.connected counts.present counts.saved keys ringSize

/-! ### Order -/

theorem seq_le_lastSeq {records : List CommitmentRecord} (increasing : records.Pairwise fun a b => a.seq < b.seq)
    {record : CommitmentRecord} (member : record ∈ records) : record.seq ≤ lastSeq records := by
  rcases List.eq_nil_or_concat records with rfl | ⟨front, last, rfl⟩
  · cases member
  · rw [List.concat_eq_append] at increasing member ⊢
    unfold lastSeq
    rw [List.getLast?_concat]
    rcases List.mem_append.mp member with before | own
    · exact Int.le_of_lt ((List.pairwise_append.mp increasing).2.2 record before last List.mem_cons_self)
    · rw [List.mem_singleton.mp own]
      exact Int.le_refl _

/-- A further record keeps the order exactly if its number is above the last one. -/
theorem increasing_append_iff {records : List CommitmentRecord} {record : CommitmentRecord}
    (increasing : records.Pairwise fun a b => a.seq < b.seq) (positive : 0 < record.seq) :
    (records ++ [record]).Pairwise (fun a b => a.seq < b.seq) ↔ lastSeq records < record.seq := by
  rw [List.pairwise_append]
  constructor
  · rintro ⟨-, -, later⟩
    rcases List.eq_nil_or_concat records with rfl | ⟨front, last, rfl⟩
    · exact positive
    · rw [List.concat_eq_append] at later ⊢
      unfold lastSeq
      rw [List.getLast?_concat]
      exact later last (List.mem_append_right _ List.mem_cons_self) record List.mem_cons_self
  · intro above
    refine ⟨increasing, List.pairwise_singleton _ _, ?_⟩
    intro own member other latest
    rw [List.mem_singleton.mp latest]
    exact Int.lt_of_le_of_lt (seq_le_lastSeq increasing member) above

theorem increasing_happen_iff (placed : Placed P deployment) (counts : Counts online numbers deployment)
    (increasing : deployment.returned.Pairwise fun a b => a.seq < b.seq) (event : Event) :
    (happen P deployment event).2.returned.Pairwise (fun a b => a.seq < b.seq) ↔ InStep P numbers event := by
  cases event with
  | restart environment ringSize keys => exact iff_of_true increasing trivial
  | add environment call =>
      unfold InStep
      dsimp only
      rcases happen_add placed environment call with
        ⟨others, same⟩ | ⟨-, others, link, next, same⟩ |
        ⟨sealable, fillable, link, record, next, appends, -, same⟩
      · rw [same]
        exact iff_of_true increasing fun sealable _ => (others sealable).elim
      · rw [same]
        exact iff_of_true increasing fun _ fillable => (others fillable).elim
      · rcases placed.store with ⟨count, number, -⟩
        have positive : 0 < record.seq := by
          rw [appends.seq, number]
          omega
        rw [same, imp_iff_right sealable, imp_iff_right fillable, ← counts.returned, ← counts.linked,
          ← Int.lt_add_one_iff, ← appends.seq]
        exact increasing_append_iff increasing positive

end Step

/-! ## Runs -/

theorem returned_run (deployment : Deployment) (events : List Event) :
    deployment.returned <+: (Machine.run (happen P) deployment events).2.returned := by
  refine Machine.invariant_run
    (fun later : Deployment => deployment.returned <+: later.returned) ?_ (List.prefix_refl _)
  intro later event _ grown
  cases event with
  | add environment call => exact grown.trans (List.prefix_append ..)
  | restart environment ringSize keys => exact grown

/-- The numbers of the returned records increase exactly if every event is in step. -/
theorem increasing_run_iff {deployment : Deployment} {online : Bool} {numbers : Numbers}
    (placed : Placed P deployment) (counts : Counts online numbers deployment)
    (increasing : deployment.returned.Pairwise fun a b => a.seq < b.seq) (events : List Event) :
    (Machine.run (happen P) deployment events).2.returned.Pairwise (fun a b => a.seq < b.seq) ↔
      Machine.Along (count P online) (InStep P) numbers events := by
  induction events generalizing deployment numbers with
  | nil => exact iff_of_true increasing trivial
  | cons event rest inductionHypothesis =>
      have step := increasing_happen_iff placed counts increasing event
      rw [Machine.run_cons, Machine.Along, ← step]
      constructor
      · intro all
        have now := all.sublist (returned_run P (happen P deployment event).2 rest).sublist
        exact ⟨now, (inductionHypothesis (placed_happen placed event) (counts_happen placed counts event)
          now).mp all⟩
      · rintro ⟨now, later⟩
        exact (inductionHypothesis (placed_happen placed event) (counts_happen placed counts event) now).mpr
          later

theorem placed_started (keys : ProcessKeys) (ringSize : Nat) {ledger : Option CassandraLedger}
    (empty : ∀ own, ledger = some own -> own.ledgerHead.lookup DEFAULT_SHARD = none) :
    Placed P (started P keys ringSize ledger) where
  keypair := ⟨keys, rfl⟩
  honest _ member := (List.not_mem_nil member).elim
  store := by
    apply place_opened
    intro own present row found
    rw [empty own present] at found
    cases found
  durable own present row found := by
    rw [empty own present] at found
    cases found
  returned _ member := (List.not_mem_nil member).elim

theorem counts_started (keys : ProcessKeys) (ringSize : Nat) {ledger : Option CassandraLedger}
    (empty : ∀ own, ledger = some own -> own.ledgerHead.lookup DEFAULT_SHARD = none) :
    Counts (ledger.any CassandraLedger.available) ⟨0, 0, 0⟩ (started P keys ringSize ledger) := by
  refine ⟨?_, ?_, ?_, ?_, rfl⟩
  · rintro own rfl
    rfl
  · intro up
    cases ledger with
    | none => cases up
    | some own => rfl
  · have loaded : ledger.bind (calls P).loadHead = none := by
      rw [Option.bind_eq_none_iff]
      intro own present
      cases head : (calls P).loadHead own with
      | none => rfl
      | some place =>
          rcases lookup_of_loadHead head with ⟨row, found, -⟩
          rw [empty own present] at found
          cases found
    unfold started processStore CommitmentStore.new
    simp only [loaded, Option.getD_none]
  · intro own present
    unfold headSeq
    rw [empty own present]
    rfl

/-- The bytes that these links hash. -/
def Preimages (links : List Link) : Set Bytes := fun message => ∃ link ∈ links, link.preimage = message

/-- Without collisions, equal digests have one predecessor. -/
theorem prev_of_digest {links : List Link} (honest : ∀ link ∈ links, ∃ key, HonestLink P key link)
    (collisionFree : Set.InjOn P.sha3 (Preimages links)) :
    ∀ a ∈ links, ∀ b ∈ links, a.digest = b.digest -> a.prev = b.prev := by
  intro a left b right equal
  rcases honest a left with ⟨_, own⟩
  rcases honest b right with ⟨_, other⟩
  rcases own.built with ⟨binding, id, stamp, digest, built⟩
  rcases other.built with ⟨binding', id', stamp', digest', built'⟩
  have same : a.preimage = b.preimage := by
    apply collisionFree ⟨a, left, rfl⟩ ⟨b, right, rfl⟩
    exact hex_injective (own.hashed.symm.trans (equal.trans other.hashed))
  rw [← same] at built'
  exact (linkPreimage_injective P own.prev other.prev digest digest' built built').1

/-- Records with different numbers have different predecessors. -/
theorem apart_of_increasing {deployment : Deployment} (placed : Placed P deployment)
    (collisionFree : Set.InjOn P.sha3 (Preimages deployment.links))
    (fresh : ∀ link ∈ deployment.links, link.digest ≠ GENESIS_HASH)
    (increasing : deployment.returned.Pairwise fun a b => a.seq < b.seq) :
    (deployment.returned.map CommitmentRecord.prevChainHash).Nodup := by
  unfold List.Nodup
  rw [List.pairwise_map]
  apply increasing.imp_of_mem
  intro a b left right less equal
  rcases placed.returned a left with ⟨first, number, reached⟩
  rcases placed.returned b right with ⟨second, numberOther, reachedOther⟩
  have same := LinkChain.count_unique (prev_of_digest P placed.honest collisionFree) fresh reached reachedOther equal
  omega

/-- In every run of `add` calls and restarts over a ledger without a head, in
which every statement may go through or raise: the chain does not fork and the
numbers increase exactly if every `add` that comes to a record is in step. -/
theorem no_fork_iff {ledger : Option CassandraLedger}
    (empty : ∀ own, ledger = some own -> own.ledgerHead.lookup DEFAULT_SHARD = none) (keys : ProcessKeys)
    (ringSize : Nat) {events : List Event} {final : Deployment}
    (ran : (Machine.run (happen P) (started P keys ringSize ledger) events).2 = final)
    (collisionFree : Set.InjOn P.sha3 (Preimages final.links))
    (fresh : ∀ link ∈ final.links, link.digest ≠ GENESIS_HASH) :
    NoFork final.returned ↔
      Machine.Along (count P (ledger.any CassandraLedger.available)) (InStep P) ⟨0, 0, 0⟩ events := by
  have start := placed_started P keys ringSize empty
  have placed : Placed P (Machine.run (happen P) (started P keys ringSize ledger) events).2 :=
    Machine.invariant_run (Placed P) (fun deployment event _ placed => placed_happen placed event) start
  rw [← increasing_run_iff P start (counts_started P keys ringSize empty) List.Pairwise.nil events]
  rw [ran] at placed ⊢
  exact ⟨NoFork.increasing, fun increasing =>
    ⟨apart_of_increasing P placed collisionFree fresh increasing, increasing⟩⟩

/-- Where every head is saved and loaded, every event is in step. -/
theorem inStep_of_kept {events : List Event}
    (saves : ∀ environment call, Event.add environment call ∈ events -> environment.fails .updateHead = false)
    (loads : ∀ environment ringSize keys, Event.restart environment ringSize keys ∈ events ->
      environment.fails .selectHead = false) {numbers : Numbers} (linked : numbers.returned ≤ numbers.linked)
    (saved : numbers.returned ≤ numbers.saved) :
    Machine.Along (count P true) (InStep P) numbers events := by
  induction events generalizing numbers with
  | nil => trivial
  | cons event rest inductionHypothesis =>
      have later : ∀ {next : Numbers}, next.returned ≤ next.linked -> next.returned ≤ next.saved ->
          Machine.Along (count P true) (InStep P) next rest :=
        inductionHypothesis (fun environment call member => saves environment call (List.mem_cons_of_mem _ member))
          (fun environment ringSize keys member =>
            loads environment ringSize keys (List.mem_cons_of_mem _ member))
      cases event with
      | add environment call =>
          have taken := saves environment call List.mem_cons_self
          refine ⟨fun _ _ => linked, ?_⟩
          unfold count Numbers.after
          simp only [taken, Bool.not_false, Bool.and_self, if_true]
          split
          · split
            · exact later le_rfl le_rfl
            · exact later (linked.trans (Int.le_add_one le_rfl)) saved
          · exact later linked saved
      | restart environment ringSize keys =>
          have read := loads environment ringSize keys List.mem_cons_self
          refine ⟨trivial, ?_⟩
          unfold count Numbers.after
          simp only [read, Bool.not_false, Bool.and_self, if_true]
          exact later saved saved

/-! ## A head that is not read -/

/-- A well-formed `add` comes to its record. -/
theorem happen_wellFormed {P : Platform} {deployment : Deployment} (placed : Placed P deployment) {call : AddCall}
    {id : PyStr} (wellFormed : WellFormed call id) (environment : Environment) :
    ∃ link record, NextLink P deployment.store link ∧ Appends P deployment.store call record ∧
      link.record = some record ∧ happen P deployment (.add environment call) =
        (some record, recorded P environment deployment link record) := by
  rcases happen_add placed environment call with
    ⟨others, -⟩ | ⟨-, others, -⟩ | ⟨-, -, link, record, next, appends, carried, same⟩
  · exact (others (sealable_of_wellFormed wellFormed)).elim
  · exact (others (fillable_of_regular P wellFormed.regular)).elim
  · exact ⟨link, record, next, appends, carried, same⟩

def sampleKeys : ProcessKeys := ⟨Sample.latticeSeed, Sample.length_latticeSeed, [], sampleKey⟩

/-- A first process on the sample platform. -/
def sampleDeployment : Deployment :=
  started samplePlatform sampleKeys HOT_RING_SIZE (some (.empty healthy))

theorem placed_sampleDeployment : Placed samplePlatform sampleDeployment :=
  placed_started samplePlatform sampleKeys HOT_RING_SIZE (by rintro own ⟨⟩; rfl)

/-- Two transactions, with a restart between them. -/
def aroundRestart (environment : Environment) : List Event :=
  [.add healthy (callFor "TXN-A").toAddCall, .restart environment HOT_RING_SIZE sampleKeys,
    .add healthy (callFor "TXN-BB").toAddCall]

/-- Both come to records, on links that hash texts of different lengths. -/
theorem run_aroundRestart (environment : Environment) :
    ∃ final first second ledger,
      (Machine.run (happen samplePlatform) sampleDeployment (aroundRestart environment)).2 = final ∧
      final.returned = [first, second] ∧ (final.links.map Link.preimage).map List.length = [134, 135] ∧
      (∀ own ∈ final.links, own.digest = samplePlatform.sha3Hex own.preimage) ∧
      (first.prevChainHash = GENESIS_HASH ∧ first.seq = 1) ∧
      second.prevChainHash = (processStore samplePlatform sampleKeys HOT_RING_SIZE
        (some (CassandraLedger.meets ledger environment))).head ∧
      second.seq = (processStore samplePlatform sampleKeys HOT_RING_SIZE
        (some (CassandraLedger.meets ledger environment))).seq + 1 := by
  have wellFormed : WellFormed (callFor "TXN-A").toAddCall (PyStr.ofString "TXN-A") :=
    wellFormed_callFor ⟨_, rfl⟩
  have wellFormed' : WellFormed (callFor "TXN-BB").toAddCall (PyStr.ofString "TXN-BB") :=
    wellFormed_callFor ⟨_, rfl⟩
  have length : ∀ {store : CommitmentStore CassandraLedger} {link : Link} {record : CommitmentRecord}
      {call : AddCall} {id : PyStr} {message : Bytes}, NextLink samplePlatform store link ->
      Appends samplePlatform store call record -> link.record = some record -> call.txnId = .str id ->
      call.nowNs = 1 -> PyStr.utf8 id = some message -> link.preimage.length = 128 + message.length + 1 := by
    intro store link record call id message next appends carried named clock encoded
    rcases next.honest.carried record carried with ⟨honest, prev, -, linked⟩
    rw [appends.txnId, named, appends.stamp, clock] at linked
    exact length_linkPreimage samplePlatform (prev ▸ next.honest.prev) honest.bindingHash_isDigest encoded
      (rfl : PyStr.utf8 (samplePlatform.str (.int 1)) = some [0x31]) linked
  rcases happen_wellFormed placed_sampleDeployment wellFormed healthy with
    ⟨link, first, next, appends, carried, ran⟩
  have placed := placed_happen placed_sampleDeployment (.add healthy (callFor "TXN-A").toAddCall)
  rw [ran] at placed
  rcases happen_wellFormed (placed_happen placed (.restart environment HOT_RING_SIZE sampleKeys)) wellFormed'
    healthy with ⟨other, second, next', appends', carried', ran'⟩
  have hashed := length next appends carried wellFormed.txnId rfl
    (rfl : PyStr.utf8 (PyStr.ofString "TXN-A") = some [0x54, 0x58, 0x4e, 0x2d, 0x41])
  have hashed' := length next' appends' carried' wellFormed'.txnId rfl
    (rfl : PyStr.utf8 (PyStr.ofString "TXN-BB") = some [0x54, 0x58, 0x4e, 0x2d, 0x42, 0x42])
  refine ⟨_, first, second, _, rfl, ?_, ?_, ?_, ⟨appends.prev, appends.seq⟩, appends'.prev, appends'.seq⟩
  · rw [aroundRestart, Machine.run_cons, ran, Machine.run_cons, Machine.run_cons, ran']
    rfl
  · rw [aroundRestart, Machine.run_cons, ran, Machine.run_cons, Machine.run_cons, ran']
    exact congrArg₂ (fun before after => [before, after]) hashed hashed'
  · rw [aroundRestart, Machine.run_cons, ran, Machine.run_cons, Machine.run_cons, ran']
    intro own member
    rcases List.mem_cons.mp member with rfl | last
    · exact next.honest.hashed
    · rw [List.mem_singleton.mp last]
      exact next'.honest.hashed

theorem no_fork_iff_sample :
    ∃ final first second,
      (Machine.run (happen samplePlatform) sampleDeployment (aroundRestart healthy)).2 = final ∧
      final.returned = [first, second] ∧ NoFork final.returned := by
  rcases run_aroundRestart healthy with
    ⟨final, first, second, _, ran, returned, lengths, hashed, -⟩
  refine ⟨final, first, second, ran, returned, ?_⟩
  apply (no_fork_iff samplePlatform (by rintro own ⟨⟩; rfl) sampleKeys HOT_RING_SIZE ran ?_ ?_).mpr
  · apply inStep_of_kept samplePlatform ?_ ?_ le_rfl le_rfl
    · intro environment call member
      simp only [aroundRestart, List.mem_cons, Event.add.injEq, reduceCtorEq, List.not_mem_nil, or_false,
        false_or] at member
      rcases member with ⟨rfl, -⟩ | ⟨rfl, -⟩ <;> rfl
    · intro environment ringSize keys member
      simp only [aroundRestart, List.mem_cons, Event.restart.injEq, reduceCtorEq, List.not_mem_nil, or_false,
        false_or] at member
      rcases member with ⟨rfl, -⟩
      rfl
  · refine Sample.injOn_of_lengths (lengths ▸ (by decide) :
      (((final.links.map Link.preimage).map List.length).map (· % 256)).Nodup) ?_
    rintro message ⟨own, member, rfl⟩
    exact List.mem_map_of_mem member
  · intro own member
    rw [hashed own member]
    exact Sample.sha3Hex_ne_genesis _

/-- The environment of a process that cannot read the head. -/
def unreadable : Environment := ⟨fun statement => decide (statement = .selectHead), 2⟩

/-- A process that cannot read the head starts from genesis. -/
theorem processStore_unread {P : Platform} {environment : Environment} (fails : environment.fails .selectHead = true)
    (keys : ProcessKeys) (ringSize : Nat) (ledger : CassandraLedger) :
    (processStore P keys ringSize (some (ledger.meets environment))).head = GENESIS_HASH ∧
      (processStore P keys ringSize (some (ledger.meets environment))).seq = 0 := by
  have loaded : (some (ledger.meets environment)).bind (calls P).loadHead = none := by
    show (ledger.meets environment).loadHead DEFAULT_SHARD = none
    unfold CassandraLedger.loadHead CassandraLedger.meets
    simp only [fails, if_true, ite_self]
  unfold processStore CommitmentStore.new
  simp only [loaded, Option.getD_none, and_self]

/-- A restart whose `load_head` raises starts a second chain. -/
theorem unread_head_forks :
    ∃ first second,
      (Machine.run (happen samplePlatform) sampleDeployment (aroundRestart unreadable)).2.returned =
        [first, second] ∧
      first.prevChainHash = second.prevChainHash ∧ first.seq = second.seq := by
  rcases run_aroundRestart unreadable with
    ⟨final, first, second, ledger, ran, returned, -, -, ⟨prev, seq⟩, prev', seq'⟩
  rcases processStore_unread (P := samplePlatform) (rfl : unreadable.fails .selectHead = true) sampleKeys HOT_RING_SIZE
    ledger with ⟨head, start⟩
  refine ⟨first, second, ?_, ?_, ?_⟩
  · rw [ran]
    exact returned
  · rw [prev, prev', head]
  · rw [seq, seq', start]
    rfl

end Cassandra
end ZeroAudit
