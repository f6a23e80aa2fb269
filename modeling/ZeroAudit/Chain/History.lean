import ZeroAudit.Chain.Ledger

namespace ZeroAudit
namespace Commitment

open Foundation Signature

/-!
# One `add`, from the store before to the store after

With scores of the declared type, and signing that goes through, `add` either
raises and leaves the store alone, or appends an honest record on the head.  In
the second case the whole store after the call is a function of the store before
and of the record, so that runs, restarts and interleavings can be followed record
by record.
-/

variable (P : Platform)

/-- The arguments of `add` as it declares them, where signing goes through. -/
structure TypedCall extends AddCall where
  regular : Regular toAddCall

section Step

variable {L : Type} (store : CommitmentStore L)

/-- The store after the locked section that built this record. -/
def CommitmentStore.advanced (record : CommitmentRecord) : CommitmentStore L :=
  { store with
    head := record.chainHash
    seq := record.seq
    hot := ringEvict store.ringSize (ringSet store.hot record.txnId record)
    total := store.total + 1
    counts := fun status =>
      if status = record.status then store.counts status + 1 else store.counts status }

/-- What `add` guarantees about the record it returns for a call. -/
structure Appends (call : AddCall) (record : CommitmentRecord) : Prop where
  honest : HonestRecord P store.signingKey record
  txnId : record.txnId = call.txnId
  prev : record.prevChainHash = store.head
  seq : record.seq = store.seq + 1
  stamp : record.timestampNs = call.nowNs

theorem Appends.named {store : CommitmentStore L} {call : AddCall} {record : CommitmentRecord}
    (appends : Appends P store call record) : ∃ txnId, record.txnId = .str txnId :=
  appends.honest.txnId

/-- The status of a record is the one its scores were given before the lock. -/
theorem status_of_buildRecord {call : AddCall} {sealed : Sealed} {seq : Int} {chainHash : PyStr}
    {record : CommitmentRecord}
    (built : CommitmentStore.buildRecord P store call sealed seq chainHash = .ok record) :
    record.status = sealed.status := by
  unfold CommitmentStore.buildRecord at built
  simp only [bind_eq_ok_iff] at built
  rcases built with ⟨_, -, _, -, _, -, _, -, same⟩
  cases same
  rfl

/-- The store when the head has moved and no record came of it. -/
def CommitmentStore.stranded (chainHash : PyStr) : CommitmentStore L :=
  { store with head := chainHash, seq := store.seq + 1 }

/-- The locked section raises before there is a link, or with the head moved on to
it, or comes to an honest record. -/
theorem addLocked_outcome (call : AddCall) {sealed : Sealed}
    (sealing : CommitmentStore.sealTransaction P store call = .ok sealed) :
    (∃ error, CommitmentStore.addLocked P store call sealed = (.error error, store)) ∨
    (∃ error chainHash, IsDigest chainHash ∧ ¬Regular call ∧
      CommitmentStore.addLocked P store call sealed = (.error error, store.stranded chainHash)) ∨
    ∃ record, Appends P store call record ∧
      CommitmentStore.addLocked P store call sealed = (.ok record, store.advanced record) := by
  unfold CommitmentStore.addLocked computeChainHash
  cases linked : linkPreimage P (.str store.head) (.str sealed.lweResult.bindingHash) call.txnId
      (.int sealed.lweResult.timestampNs) with
  | error error => exact Or.inl ⟨error, rfl⟩
  | ok preimage =>
      simp only [bind, Except.bind, pure, Except.pure]
      have link : linkOf P store call = some
          { prev := store.head
            digest := P.sha3Hex preimage
            preimage
            record := (CommitmentStore.buildRecord P store call sealed (store.seq + 1)
              (P.sha3Hex preimage)).toOption } := by
        unfold linkOf
        simp only [sealing, linked]
      cases built : CommitmentStore.buildRecord P store call sealed (store.seq + 1)
          (P.sha3Hex preimage) with
      | error error =>
          refine Or.inr (Or.inl ⟨error, P.sha3Hex preimage, isDigest_sha3Hex P preimage, ?_, rfl⟩)
          intro regular
          rcases record_of_regular P store call link regular with ⟨record, carried⟩
          simp [built, Except.toOption] at carried
      | ok own =>
          have here : (CommitmentStore.buildRecord P store call sealed (store.seq + 1)
              (P.sha3Hex preimage)).toOption = some own := by
            rw [built]
            rfl
          rcases record_of_linkOf P store call link here with ⟨honest, prev, chain, seq, -⟩
          rcases sealTransaction_inversion P store call sealing with ⟨-, -, stamped, -⟩
          rcases buildRecord_inversion P store call built with ⟨txnId, -, -, stamp, -⟩
          have status := status_of_buildRecord P store built
          refine Or.inr (Or.inr ⟨own, ⟨honest, txnId, prev, seq, stamp.trans stamped⟩, ?_⟩)
          unfold CommitmentStore.advanced
          rw [chain, seq, status, txnId]

/-- The locked section of a typed call. -/
theorem addLocked_spec (call : TypedCall) {sealed : Sealed}
    (sealing : CommitmentStore.sealTransaction P store call.toAddCall = .ok sealed) :
    (∃ error, CommitmentStore.addLocked P store call.toAddCall sealed = (.error error, store)) ∨
    ∃ record, Appends P store call.toAddCall record ∧
      CommitmentStore.addLocked P store call.toAddCall sealed = (.ok record, store.advanced record) := by
  rcases addLocked_outcome P store call.toAddCall sealing with raised | ⟨_, _, -, others, -⟩ | appended
  · exact Or.inl raised
  · exact (others call.regular).elim
  · exact Or.inr appended

variable (calls : LedgerCalls L)

/-- A call raises and changes nothing, raises with the head moved, or returns an honest
record and leaves the store advanced past it, with the record handed to the ledger. -/
theorem add_outcome (call : AddCall) :
    (∃ error, CommitmentStore.add P store calls call = (.error error, store)) ∨
    (∃ error chainHash, IsDigest chainHash ∧ ¬Regular call ∧
      CommitmentStore.add P store calls call = (.error error, store.stranded chainHash)) ∨
    ∃ record, Appends P store call record ∧ CommitmentStore.add P store calls call =
      (.ok record, (store.advanced record).persist calls record) := by
  unfold CommitmentStore.add
  cases sealing : CommitmentStore.sealTransaction P store call with
  | error error => exact Or.inl ⟨error, rfl⟩
  | ok sealed =>
      rcases addLocked_outcome P store call sealing with
        ⟨error, locked⟩ | ⟨error, chainHash, digest, others, locked⟩ | ⟨record, appends, locked⟩
      · simp only [locked]
        exact Or.inl ⟨error, rfl⟩
      · simp only [locked]
        exact Or.inr (Or.inl ⟨error, chainHash, digest, others, rfl⟩)
      · simp only [locked]
        exact Or.inr (Or.inr ⟨record, appends, rfl⟩)

/-- A typed call raises and changes nothing, or comes to a record. -/
theorem add_spec (call : TypedCall) :
    (∃ error, CommitmentStore.add P store calls call.toAddCall = (.error error, store)) ∨
    ∃ record, Appends P store call.toAddCall record ∧
      CommitmentStore.add P store calls call.toAddCall =
        (.ok record, (store.advanced record).persist calls record) := by
  rcases add_outcome P store calls call.toAddCall with raised | ⟨_, _, -, others, -⟩ | appended
  · exact Or.inl raised
  · exact (others call.regular).elim
  · exact Or.inr appended

/-- A call that comes to a record was sealed, and the record filled in from that. -/
theorem add_inversion {call : AddCall} {record : CommitmentRecord} {after : CommitmentStore L}
    (added : CommitmentStore.add P store calls call = (.ok record, after)) :
    ∃ sealed chainHash, CommitmentStore.sealTransaction P store call = .ok sealed ∧
      CommitmentStore.buildRecord P store call sealed (store.seq + 1) chainHash = .ok record := by
  unfold CommitmentStore.add CommitmentStore.addLocked at added
  cases sealing : CommitmentStore.sealTransaction P store call with
  | error error =>
      rw [sealing] at added
      cases added
  | ok sealed =>
      rw [sealing] at added
      dsimp only at added
      cases chained : computeChainHash P (.str store.head) (.str sealed.lweResult.bindingHash) call.txnId
          (.int sealed.lweResult.timestampNs) with
      | error error =>
          rw [chained] at added
          cases added
      | ok chainHash =>
          rw [chained] at added
          dsimp only at added
          cases built : CommitmentStore.buildRecord P store call sealed (store.seq + 1) chainHash with
          | error error =>
              rw [built] at added
              cases added
          | ok own =>
              rw [built] at added
              cases added
              exact ⟨sealed, chainHash, rfl, built⟩

/-- The status of a new record is the comparison of its score with the threshold. -/
theorem status_of_add {call : AddCall} {record : CommitmentRecord} {after : CommitmentStore L}
    (added : CommitmentStore.add P store calls call = (.ok record, after)) :
    record.flagReason = call.flagReason ∧
      ∃ above, call.anomalyScore.ge call.threshold = .ok above ∧
        record.status = if above then .quarantined else .verified := by
  rcases add_inversion P store calls added with ⟨sealed, chainHash, sealing, built⟩
  have status := status_of_buildRecord P store built
  unfold CommitmentStore.sealTransaction at sealing
  simp only [bind_eq_ok_iff] at sealing
  rcases sealing with ⟨_, -, lweResult, -, above, compared, same⟩
  cases same
  unfold CommitmentStore.buildRecord at built
  simp only [bind_eq_ok_iff] at built
  rcases built with ⟨_, -, _, -, _, -, _, -, same⟩
  cases same
  exact ⟨rfl, above, compared, status⟩

/-- The columns of a new record that are taken over from the call, or constant. -/
theorem columns_of_add {call : AddCall} {record : CommitmentRecord} {after : CommitmentStore L}
    (added : CommitmentStore.add P store calls call = (.ok record, after)) :
    record.txnType = call.txnType ∧ record.flagReason = call.flagReason ∧
      record.sigAlg = PyStr.ofString "Ed25519" := by
  rcases add_inversion P store calls added with ⟨sealed, chainHash, -, built⟩
  unfold CommitmentStore.buildRecord at built
  simp only [bind_eq_ok_iff] at built
  rcases built with ⟨_, attested, _, -, _, -, _, -, same⟩
  rcases (signCommitment_eq_ok_iff P).mp attested with ⟨-, _, -, rfl⟩
  cases same
  exact ⟨rfl, rfl, rfl⟩

/-- What is sealed is the amount, blinded by the seed of the id. -/
theorem seed_of_sealTransaction {call : AddCall} {sealed : Sealed}
    (sealing : CommitmentStore.sealTransaction P store call = .ok sealed) :
    (∃ account, call.accountId.encode = .ok account) ∧
      ∃ id message seed blob, call.txnId = .str id ∧ PyStr.utf8 id = some message ∧
        Lwe.deriveRandomness P store.masterKey call.txnId = .ok seed ∧
        Lwe.commitCore P store.keypair.A store.keypair.t call.amountCents seed = .ok blob ∧
        sealed.lweResult.commitmentB64 = Base64.encode blob := by
  unfold CommitmentStore.sealTransaction at sealing
  simp only [bind_eq_ok_iff] at sealing
  rcases sealing with ⟨account, accountBytes, lweResult, committed, _, -, same⟩
  cases same
  rcases Lwe.commit_inversion P committed with ⟨seed, blob, derived, core, -, published, -⟩
  have named := derived
  unfold Lwe.deriveRandomness at named
  rcases bind_eq_ok_iff.mp named with ⟨message, encoded, -⟩
  rcases (Json.encode_eq_ok_iff ..).mp encoded with ⟨id, txnId, utf8⟩
  exact ⟨⟨account, accountBytes⟩, id, message, seed, blob, txnId, utf8, derived, core, published⟩

/-- A typed call that comes to a record is well-formed. -/
theorem wellFormed_of_add (call : TypedCall) {record : CommitmentRecord} {after : CommitmentStore L}
    (added : CommitmentStore.add P store calls call.toAddCall = (.ok record, after)) :
    ∃ id, WellFormed call.toAddCall id := by
  rcases add_inversion P store calls added with ⟨sealed, -, sealing, -⟩
  rcases seed_of_sealTransaction P store sealing with
    ⟨account, id, message, seed, blob, named, utf8, -, core, -⟩
  exact ⟨id, named, ⟨message, utf8⟩, account, Lwe.range_of_commitCore P _ _ _ core, call.regular⟩

/-- A well-formed call succeeds. -/
theorem add_wellFormed {call : TypedCall} {id : PyStr} (wellFormed : WellFormed call.toAddCall id)
    {seed : Bytes} (seedLength : seed.length = Lwe.SEED_LEN)
    (keypair : store.keypair = Lwe.LWEKeyPair.generate P seed) (head : IsDigest store.head) :
    ∃ record, Appends P store call.toAddCall record ∧
      CommitmentStore.add P store calls call.toAddCall =
        (.ok record, (store.advanced record).persist calls record) := by
  rcases add_spec P store calls call with ⟨error, added⟩ | succeeds
  · rcases linkOf_of_wellFormed P store call.toAddCall wellFormed seedLength keypair head with
      ⟨link, -, record, linked, carried, -⟩
    rcases add_of_linkOf_some P calls store call.toAddCall linked with ⟨-, -, -, -, answer⟩
    rw [added, carried] at answer
    cases answer
  · exact succeeds

/-- The records of regular calls are honest, and linked from the head the store
started with. -/
theorem linked_appended {adds : List AddCall} (typed : ∀ call ∈ adds, Regular call) :
    LinkChain.Linked CommitmentRecord.prevChainHash CommitmentRecord.chainHash store.head
        (appended P calls store adds).1 ∧
      ∀ record ∈ (appended P calls store adds).1, HonestRecord P store.signingKey record := by
  induction adds generalizing store with
  | nil => exact ⟨trivial, fun _ member => (List.not_mem_nil member).elim⟩
  | cons call rest inductionHypothesis =>
      rw [List.forall_mem_cons] at typed
      unfold appended
      rcases add_spec P store calls ⟨call, typed.1⟩ with ⟨error, added⟩ | ⟨record, appends, added⟩
      · dsimp only at added ⊢
        rw [added]
        exact inductionHypothesis store typed.2
      · dsimp only at added ⊢
        rw [added]
        rcases inductionHypothesis ((store.advanced record).persist calls record) typed.2 with
          ⟨linked, honest⟩
        refine ⟨⟨appends.prev, linked⟩, ?_⟩
        show ∀ own ∈ record :: _, _
        rw [List.forall_mem_cons]
        exact ⟨appends.honest, honest⟩

end Step

/-! ## The links of records -/

/-- The bytes that the links of these records hash. -/
def LinkBytes (records : List CommitmentRecord) : Set Bytes := fun message =>
  ∃ record ∈ records, linkPreimage P (.str record.prevChainHash) (.str record.bindingHash) record.txnId
    (.int record.timestampNs) = .ok message

section Links

variable {records : List CommitmentRecord}
  (honest : ∀ record ∈ records, ∃ key, HonestRecord P key record) {before : PyStr}
  (linked : LinkChain.Linked CommitmentRecord.prevChainHash CommitmentRecord.chainHash before records)
  (start : IsDigest before)
include honest linked start

/-- In a chain from a digest, all predecessors are digests. -/
theorem isDigest_prevChainHash {record : CommitmentRecord} (member : record ∈ records) :
    IsDigest record.prevChainHash := by
  induction records generalizing before with
  | nil => cases member
  | cons first rest inductionHypothesis =>
      rcases List.mem_cons.mp member with rfl | later
      · rw [linked.1]
        exact start
      · rcases honest first List.mem_cons_self with ⟨key, own⟩
        exact inductionHypothesis (fun record member => honest record (List.mem_cons_of_mem _ member))
          linked.2 (own.chainHash_isDigest) later

/-- Without collisions among the links, equal chain hashes have one predecessor. -/
theorem prev_of_chainHash (collisionFree : Set.InjOn P.sha3 (LinkBytes P records)) :
    ∀ a ∈ records, ∀ b ∈ records, a.chainHash = b.chainHash -> a.prevChainHash = b.prevChainHash := by
  intro a left b right equal
  rcases honest a left with ⟨key, own⟩
  rcases honest b right with ⟨key', other⟩
  rcases own.txnId with ⟨id, named⟩
  rcases other.txnId with ⟨id', named'⟩
  rcases own.link with ⟨preimage, built, chained⟩
  rcases other.link with ⟨preimage', built', chained'⟩
  have same : preimage = preimage' := by
    apply collisionFree ⟨a, left, built⟩ ⟨b, right, built'⟩
    exact hex_injective (chained.symm.trans (equal.trans chained'))
  rw [named] at built
  rw [named', ← same] at built'
  exact (linkPreimage_injective P (isDigest_prevChainHash P honest linked start left)
    (isDigest_prevChainHash P honest linked start right) own.bindingHash_isDigest
    other.bindingHash_isDigest built built').1

end Links

/-! ## Sample calls -/

/-- The sample transaction under an id of its own. -/
def callFor (id : String) : TypedCall :=
  ⟨{ sampleCall with txnId := Json.text id }, ⟨wellFormed_sampleCall.regular.scores, rfl⟩⟩

theorem wellFormed_callFor {id : String} (encodable : ∃ bytes, PyStr.utf8 (PyStr.ofString id) = some bytes) :
    WellFormed (callFor id).toAddCall (PyStr.ofString id) :=
  ⟨rfl, encodable, wellFormed_sampleCall.accountId, wellFormed_sampleCall.domain, (callFor id).regular⟩

/-- What a sample call adds to a ledger.  The blob is the same under every id, and the
link hashes two digests, the id and the one digit of the clock. -/
theorem link_callFor {store : CommitmentStore Unit}
    (keypair : store.keypair = Lwe.LWEKeyPair.generate samplePlatform Sample.latticeSeed) (head : IsDigest store.head)
    {id : String} {bytes : Bytes} (encoded : PyStr.utf8 (PyStr.ofString id) = some bytes) :
    ∃ link blob record, linkOf samplePlatform store (callFor id).toAddCall = some link ∧ link.record = some record ∧
      record.commitmentB64 = Base64.encode blob ∧ blob.length = 1536 ∧ link.preimage.length = 129 + bytes.length ∧
      Lwe.commitCore samplePlatform store.keypair.A store.keypair.t sampleCall.amountCents Sample.blinding =
        .ok blob := by
  rcases linkOf_of_wellFormed samplePlatform store (callFor id).toAddCall (wellFormed_callFor ⟨bytes, encoded⟩)
    (rfl : Sample.latticeSeed.length = Lwe.SEED_LEN) keypair head with
    ⟨link, blob, record, linked, carried, published, committed, length, built⟩
  have clock : PyStr.utf8 (samplePlatform.str (.int (callFor id).nowNs)) = some [0x31] := rfl
  refine ⟨link, blob, record, linked, carried, published, length, ?_, ?_⟩
  · rw [length_linkPreimage samplePlatform head (isDigest_sha3Hex samplePlatform blob) encoded clock built]
    exact Nat.add_right_comm 128 bytes.length 1
  · rw [Lwe.sealedBlob_of_encoded samplePlatform encoded, ← keypair] at committed
    exact committed

/-- Two transactions of one amount, under ids of different lengths. -/
def sampleAdds : List AddCall := [(callFor "TXN-A").toAddCall, (callFor "TXN-BB").toAddCall]

theorem regular_sampleAdds : ∀ call ∈ sampleAdds, Regular call := by
  intro call member
  rcases List.mem_pair.mp member with rfl | rfl
  · exact (callFor "TXN-A").regular
  · exact (callFor "TXN-BB").regular

/-- The ledger of two records publishes one blob, and the strings that are hashed for it
have different lengths. -/
theorem ledger_sampleAdds :
    ∃ links first second blob, trace samplePlatform sampleCalls sampleStore sampleAdds = links ∧
      (appended samplePlatform sampleCalls sampleStore sampleAdds).1 = [first, second] ∧
      (links.map Link.preimage ++ [blob]).map List.length = [134, 135, 1536] ∧
      ∀ record ∈ [first, second], record.commitmentB64 = Base64.encode blob := by
  rcases link_callFor (rfl : sampleStore.keypair = _) (head_sampleStore ▸ isDigest_genesis)
    (rfl : PyStr.utf8 (PyStr.ofString "TXN-A") = some [0x54, 0x58, 0x4e, 0x2d, 0x41]) with
    ⟨first, blob, record, linked, carried, published, length, hashed, committed⟩
  rcases add_of_linkOf_some samplePlatform sampleCalls sampleStore _ linked with ⟨head, -, keypair, -⟩
  have digest : IsDigest first.digest := by
    rw [(linkOf_fields samplePlatform sampleStore _ linked).2]
    exact isDigest_sha3Hex samplePlatform _
  rcases link_callFor keypair (head ▸ digest)
    (rfl : PyStr.utf8 (PyStr.ofString "TXN-BB") = some [0x54, 0x58, 0x4e, 0x2d, 0x42, 0x42]) with
    ⟨second, blob', record', linked', carried', published', -, hashed', committed'⟩
  have same : blob' = blob := by
    rw [keypair] at committed'
    exact Except.ok.inj (committed'.symm.trans committed)
  have traced : trace samplePlatform sampleCalls sampleStore sampleAdds = [first, second] := by
    simp only [sampleAdds, trace, linked, linked', Option.toList_some, List.append_nil, List.singleton_append]
  refine ⟨[first, second], record, record', blob, traced, ?_, ?_, ?_⟩
  · rw [appended_eq_filterMap, traced, List.filterMap_cons_some carried, List.filterMap_cons_some carried',
      List.filterMap_nil]
  · simp only [List.map_cons, List.map_nil, List.cons_append, List.nil_append, hashed, hashed', length]
    rfl
  · intro own member
    rcases List.mem_pair.mp member with rfl | rfl
    · exact published
    · rw [published', same]

end Commitment
end ZeroAudit
