import ZeroAudit.Verifier.Counters
import ZeroAudit.Verifier.Exposure

namespace ZeroAudit
namespace Api

open Foundation Verify Kafka

/-!
# What stands in the quarantine queue

The two topics share one handler and differ in their buffers and callbacks.
Startup installs a callback for the committed topic only.  A record of the
anomalies topic that passes the gate is kept and served unverified, whoever
wrote it.  The queue is authenticated exactly as long as each record that
enters it has been verified under the other topic and is signed, and as long as
a new key does not disown the records that are queued.
-/

variable (P : Platform)

/-! ## Verified elsewhere -/

/-- A record without the decision that the queue writes on it. -/
def unannotated (record : Dict) : Dict := Dict.without record "resolution"

/-- Among these actions, this record was run through external verification. -/
def Examined (seen : List Dashboard.Action) (record : Dict) : Prop :=
  ∃ delivery own, .deliver delivery ∈ seen ∧ examines P delivery = some own ∧
    unannotated own = unannotated record

/-- The record was verified, and its signature verifies under the installed key. -/
structure Authentic (seen : List Dashboard.Action) (pubkey : Json) (record : Dict) : Prop where
  examined : Examined P seen record
  signed : SignedUnder P pubkey record

theorem Examined.later {seen : List Dashboard.Action} {record : Dict} (examined : Examined P seen record)
    (action : Dashboard.Action) : Examined P (seen ++ [action]) record := by
  rcases examined with ⟨delivery, own, member, examines, same⟩
  exact ⟨delivery, own, List.mem_append_left _ member, examines, same⟩

theorem examined_append_iff {seen : List Dashboard.Action} {delivery : Delivery}
    (silent : examines P delivery = none) (record : Dict) :
    Examined P (seen ++ [.deliver delivery]) record ↔ Examined P seen record := by
  constructor
  · rintro ⟨other, own, member, examines, same⟩
    rcases List.mem_append.mp member with earlier | last
    · exact ⟨other, own, earlier, examines, same⟩
    · cases List.mem_singleton.mp last
      rw [silent] at examines
      cases examines
  · intro examined
    exact examined.later P _

/-- The signed fields are not annotated. -/
theorem signedUnder_set {pubkey : Json} {record : Dict} (signed : SignedUnder P pubkey record)
    (value : Json) : SignedUnder P pubkey (Dict.set record "resolution" value) := by
  have unchanged : ∀ {field : String} {default : Json}, "resolution" ≠ field ->
      Dict.get (Dict.set record "resolution" value) field default = Dict.get record field default := by
    intro field default other
    rw [Dict.get, Dict.find_set, if_neg other, Dict.get]
  refine ⟨signed.1, ?_⟩
  rw [unchanged (by decide), unchanged (by decide), unchanged (by decide), unchanged (by decide),
    unchanged (by decide)]
  exact signed.2

theorem Authentic.annotated {seen : List Dashboard.Action} {pubkey : Json} {record : Dict}
    (authentic : Authentic P seen pubkey record) (value : Json) :
    Authentic P seen pubkey (Dict.set record "resolution" value) := by
  rcases authentic with ⟨⟨delivery, own, member, examines, same⟩, signed⟩
  exact ⟨⟨delivery, own, member, examines, same.trans (Dict.without_set record _ value).symm⟩,
    signedUnder_set P signed value⟩

namespace Dashboard

/-- The installed key survives every delivery. -/
theorem pubkey_deliver {board : Dashboard} (up : board.consumer.isSome = true) (delivery : Delivery) :
    (board.deliver P delivery).reports.verifier.pubkey = board.reports.verifier.pubkey := by
  rw [reports_deliver P up]
  cases examines P delivery with
  | none => rfl
  | some record =>
      dsimp only
      rw [verifier_recordVerification, pubkey_verifyEnvelope]

/-! ## The queue -/

/-- What `/anomalies` returns, and what the alert feed is given. -/
inductive Queues (board : Dashboard) (record : Dict) : Prop where
  | alert (n : Int) (member : record ∈ board.recentAnomalies n)
  | listed (n : Int) (records : List Dict) (answered : (board.anomalies n).1 = .ok records)
      (member : record ∈ records)

/-- After these actions the service is up, and its queue is authentic. -/
def QueueAuthentic (seen : List Action) (board : Dashboard) : Prop :=
  board.consumer.isSome = true ∧
    ∀ record ∈ board.held .anomalies, Authentic P seen board.reports.verifier.pubkey record

/-- An action that lets no other record into the queue: one that enters was
verified before and is signed, and a new key accepts what is queued. -/
def Sanctioned (seen : List Action) (board : Dashboard) : Action -> Prop
  | .deliver delivery => delivery.topic = .anomalies -> ∀ record, admits P delivery.record = some record ->
      Authentic P seen board.reports.verifier.pubkey record
  | .fetchKeys proverKeys => ∀ record ∈ board.held .anomalies,
      SignedUnder P (Dict.get proverKeys "ed25519_public_key_b64" .null) record
  | _ => True

theorem queueAuthentic_deliver_iff {seen : List Action} {board : Dashboard}
    (before : QueueAuthentic P seen board) (delivery : Delivery) :
    QueueAuthentic P (seen ++ [.deliver delivery]) (board.deliver P delivery) ↔
      Sanctioned P seen board (.deliver delivery) := by
  rcases before with ⟨up, holds⟩
  have key := pubkey_deliver P up delivery
  have upAfter : (board.deliver P delivery).consumer.isSome = true :=
    isSome_consumer_act P up (.deliver delivery)
  rcases Option.isSome_iff_exists.mp up with ⟨consumer, own⟩
  have held : board.held .anomalies = (consumer.buffer .anomalies).items := by
    rw [Dashboard.held, own]
  have heldAfter : (board.deliver P delivery).held .anomalies =
      ((consumer.process P (callbacks P) board.reports delivery).1.buffer .anomalies).items := by
    rw [Dashboard.held, deliver, own]
  have later : ∀ record ∈ board.held .anomalies,
      Authentic P (seen ++ [.deliver delivery]) board.reports.verifier.pubkey record :=
    fun record member => ⟨(holds record member).examined.later P _, (holds record member).signed⟩
  unfold QueueAuthentic
  simp only [Sanctioned]
  rw [key, heldAfter, VerifierKafkaConsumer.buffer_process, and_iff_right upAfter]
  cases admitted : admits P delivery.record with
  | none =>
      refine iff_of_true ?_ ?_
      · intro record member
        exact later record (held ▸ member)
      · intro _ record impossible
        cases impossible
  | some record =>
      cases topic : delivery.topic with
      | committed =>
          refine iff_of_true ?_ (fun impossible => by cases impossible)
          intro record member
          exact later record (held ▸ member)
      | anomalies =>
          have silent : examines P delivery = none := by
            unfold examines
            rw [topic]
          have pushed := RingBuffer.forall_push_iff (consumer.buffer .anomalies) (by decide)
            (held ▸ later) record
          have enters : (∀ own, some record = some own ->
              Authentic P seen board.reports.verifier.pubkey own) ↔
                Authentic P seen board.reports.verifier.pubkey record :=
            ⟨fun all => all record rfl, fun authentic own same => Option.some.inj same ▸ authentic⟩
          simp only [if_true, forall_const]
          rw [pushed, enters]
          constructor
          · rintro ⟨examined, signed⟩
            exact ⟨(examined_append_iff P silent record).mp examined, signed⟩
          · rintro ⟨examined, signed⟩
            exact ⟨examined.later P _, signed⟩

/-- Whatever else leaves the records and the key alone leaves the queue authentic. -/
theorem queueAuthentic_later {seen : List Action} {board after : Dashboard} (action : Action)
    (up : after.consumer.isSome = true)
    (key : after.reports.verifier.pubkey = board.reports.verifier.pubkey)
    (held : ∀ record ∈ after.held .anomalies,
      Authentic P seen board.reports.verifier.pubkey record) :
    QueueAuthentic P (seen ++ [action]) after := by
  refine ⟨up, ?_⟩
  intro record member
  rw [key]
  exact ⟨(held record member).examined.later P action, (held record member).signed⟩

theorem held_transactions (board : Dashboard) (n : Int) :
    (board.transactions n).2.held .anomalies = board.held .anomalies := by
  cases own : board.consumer with
  | none =>
      unfold transactions
      rw [own]
  | some consumer =>
      rw [transactions_snd own]
      unfold held
      rw [own]
      rfl

/-- The queue stays authentic under the decisions written on it. -/
theorem authentic_anomalies {seen : List Action} {board : Dashboard}
    (before : QueueAuthentic P seen board) (n : Int) :
    ∀ record ∈ (board.anomalies n).2.held .anomalies,
      Authentic P seen board.reports.verifier.pubkey record := by
  rcases Option.isSome_iff_exists.mp before.1 with ⟨consumer, own⟩
  have holds := before.2
  rw [held, own] at holds
  rw [anomalies_snd own, held]
  apply RingBuffer.forall_revise consumer.anomalyBuffer _ n holds
  intro record updated stamps authentic
  rcases bind_eq_ok_iff.mp stamps with ⟨resolution, -, same⟩
  cases same
  exact authentic.annotated P _

/-- One action keeps the queue authentic exactly if it is sanctioned. -/
theorem queueAuthentic_act_iff (seen : List Action) (board : Dashboard) (action : Action)
    (before : QueueAuthentic P seen board) :
    QueueAuthentic P (seen ++ [action]) (act P board action).2 ↔ Sanctioned P seen board action := by
  have up := isSome_consumer_act P before.1 action
  cases action with
  | deliver delivery => exact queueAuthentic_deliver_iff P before delivery
  | fetchKeys proverKeys =>
      constructor
      · intro after record member
        exact (after.2 record member).signed
      · intro accepted
        refine ⟨before.1, ?_⟩
        intro record member
        exact ⟨(before.2 record member).examined.later P _, accepted record member⟩
  | transactions n =>
      refine iff_of_true ?_ trivial
      apply queueAuthentic_later P _ up
      · exact congrArg (fun reports => reports.verifier.pubkey) (reports_transactions board n)
      · intro record member
        exact before.2 record (held_transactions board n ▸ member)
  | anomalies n =>
      refine iff_of_true ?_ trivial
      apply queueAuthentic_later P _ up
      · exact congrArg (fun reports => reports.verifier.pubkey) (reports_anomalies board n)
      · exact authentic_anomalies P before n
  | resolve txnId req nowNs =>
      refine iff_of_true ?_ trivial
      have consumer := consumer_resolve board txnId req nowNs
      apply queueAuthentic_later P _ up
      · exact congrArg (fun reports => reports.verifier.pubkey) (reports_resolve board txnId req nowNs)
      · intro record member
        change record ∈ (board.resolve txnId req nowNs).2.held .anomalies at member
        unfold held at member
        rw [consumer] at member
        exact before.2 record member

/-- What the queue gives out is authentic exactly if what it holds is. -/
theorem queues_iff_held {seen : List Action} {board : Dashboard} (up : board.consumer.isSome = true) :
    (∀ record, board.Queues record -> Authentic P seen board.reports.verifier.pubkey record) ↔
      QueueAuthentic P seen board := by
  constructor
  · intro served
    refine ⟨up, ?_⟩
    intro record member
    have all : board.held .anomalies = board.recentAnomalies 0 := by
      unfold held recentAnomalies
      cases board.consumer <;> rfl
    exact served record (.alert 0 (all ▸ member))
  · intro authentic record queued
    cases queued with
    | alert n member => exact authentic.2 record (mem_held_of_recentAnomalies member)
    | listed n records answered member =>
        rw [anomalies_ok answered] at member
        exact authentic_anomalies P authentic n record (mem_held_of_recentAnomalies member)

theorem queueAuthentic_started : QueueAuthentic P [] started := by
  refine ⟨rfl, ?_⟩
  intro record member
  cases member

/-- At every point of a run, every record that the queue returns and that the
alert feed is given was run through external verification before and is signed
under the installed key, exactly if this already held of every record of the
anomalies topic when it was delivered, and each key that was installed accepted
the records in the queue. -/
theorem queue_authentic_iff (actions : List Action) :
    (∀ seen, seen <+: actions -> ∀ record, (after P seen).Queues record ->
      Authentic P seen (after P seen).reports.verifier.pubkey record) ↔
    ∀ seen action, seen ++ [action] <+: actions -> Sanctioned P seen (after P seen) action := by
  have run := Machine.invariant_history_iff (QueueAuthentic P) (Sanctioned P)
    (queueAuthentic_act_iff P) (queueAuthentic_started P) actions
  apply Iff.trans _ run
  apply forall₂_congr
  intro seen _
  have up : (after P seen).consumer.isSome = true :=
    Machine.invariant_run (fun board : Dashboard => board.consumer.isSome = true)
      (fun _ action _ up => isSome_consumer_act P up action) rfl
  exact queues_iff_held P up

/-- A record that nobody signed. -/
def forgery : Dict := [(PyStr.ofString "txn_id", .str Sample.txnId)]

/-- Delivered on the anomalies topic it stands in the queue, was never verified,
and is signed under no key at all. -/
theorem forgery_queued :
    (after samplePlatform [.deliver ⟨.anomalies, .obj forgery, 0⟩]).Queues forgery ∧
      ¬Examined samplePlatform [.deliver ⟨.anomalies, .obj forgery, 0⟩] forgery ∧
      ∀ pubkey, ¬SignedUnder samplePlatform pubkey forgery := by
  have admitted : admits samplePlatform (.obj forgery) = some forgery := by
    simp [admits, forgery, hasReadableTimestamp, Dict.get, Json.eqInt, Platform.int]
  refine ⟨.alert 0 ?_, ?_, ?_⟩
  · have kept := (VerifierKafkaConsumer.new BUFFER_SIZE).buffer_process samplePlatform
      (callbacks samplePlatform) started.reports ⟨.anomalies, .obj forgery, 0⟩ .anomalies
    rw [admitted] at kept
    have pushed : (after samplePlatform [.deliver ⟨.anomalies, .obj forgery, 0⟩]).held .anomalies =
        (((VerifierKafkaConsumer.new BUFFER_SIZE).process samplePlatform (callbacks samplePlatform)
          started.reports ⟨.anomalies, .obj forgery, 0⟩).1.buffer .anomalies).items := rfl
    rw [kept] at pushed
    have member : forgery ∈ (after samplePlatform [.deliver ⟨.anomalies, .obj forgery, 0⟩]).held
        .anomalies := by
      rw [pushed]
      exact RingBuffer.pushed_mem _ (by decide) forgery
    exact member
  · rintro ⟨delivery, own, member, examined, -⟩
    cases List.mem_singleton.mp member
    cases examined
  · rintro pubkey ⟨-, verified⟩
    rcases (Signature.verifySignature_eq_true_iff ..).mp verified with
      ⟨raw, signature, payload, -, length, decoded, -, accepted⟩
    have empty : signature = [] := by
      simp only [forgery, Dict.get, Dict.find_cons_ofString, Dict.find_nil] at decoded
      cases decoded
      rfl
    subst empty
    have nothing : [] = raw ++ samplePlatform.sha3 payload := of_decide_eq_true accepted
    rw [List.nil_eq_append_iff.mp nothing |>.1] at length
    cases length

end Dashboard
end Api
end ZeroAudit
