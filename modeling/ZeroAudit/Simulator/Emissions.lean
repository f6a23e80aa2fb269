import Mathlib
import ZeroAudit.Prover.Lwe
import ZeroAudit.Simulator.Traffic

namespace ZeroAudit
namespace Simulator

open Foundation Signature

/-!
# What the bank emits

Whatever is drawn, a transaction has an id, an amount that can be committed to, a time that
is a date, and the two accounts as texts.  A transaction that has these can be signed, and
its signature leaves them alone.
-/

/-! ## The body of a transaction -/

/-- What a transaction is about. -/
structure Body where
  id : String
  account : String
  counterparty : String
  amountCents : Int
  currency : String
  txnType : String
  timestampNs : Int
  id_ne : id ≠ ""
  domain : 0 ≤ amountCents ∧ amountCents < 2 ^ Lwe.AMOUNT_BITS
  dated : 86400 * 10 ^ 9 ≤ timestampNs ∧ timestampNs ≤ 253402300799 * 10 ^ 9

/-- The transaction holds this body, and no amount besides that in cents. -/
structure Carries (txn : Dict) (body : Body) : Prop where
  id : Dict.find txn "txn_id" = some (Json.text body.id)
  account : Dict.find txn "account_id" = some (Json.text body.account)
  counterparty : Dict.find txn "counterparty_id" = some (Json.text body.counterparty)
  amountCents : Dict.find txn "amount_cents" = some (.int body.amountCents)
  amount : Dict.find txn "amount" = none
  currency : Dict.find txn "currency" = some (Json.text body.currency)
  txnType : Dict.find txn "txn_type" = some (Json.text body.txnType)
  timestampNs : Dict.find txn "timestamp_ns" = some (.int body.timestampNs)

theorem txnIdOf_ne {stem : String} (nonempty : stem ≠ "") (length : Nat) (uuid : String) :
    txnIdOf stem length uuid ≠ "" := by
  unfold txnIdOf
  rw [Ne, String.append_eq_empty_iff]
  exact fun empty => nonempty empty.1

theorem toNanoseconds_range {seconds low high : ℚ} (least : low ≤ seconds) (most : seconds ≤ high)
    {first last : Int} (first_eq : (first : ℚ) = low * 10 ^ 9) (last_eq : (last : ℚ) = high * 10 ^ 9) :
    first ≤ toNanoseconds seconds ∧ toNanoseconds seconds ≤ last := by
  have scaled : (first : ℚ) ≤ seconds * 10 ^ 9 ∧ seconds * 10 ^ 9 ≤ last := by
    rw [first_eq, last_eq]
    constructor <;> gcongr
  unfold toNanoseconds
  split
  · exact ⟨Int.le_floor.mpr scaled.1, Int.floor_le_iff.mpr (scaled.2.trans_lt (lt_add_one _))⟩
  · exact ⟨Int.le_ceil_iff.mpr ((sub_one_lt _).trans_le scaled.1), Int.ceil_le.mpr scaled.2⟩

theorem Reading.dayStart_range (now : Reading) : 432000 ≤ now.dayStart ∧ now.dayStart ≤ 253402128000 := by
  have days : (⌊now.time / 86400⌋ : Int) < 2932896 := by
    rw [Int.floor_lt]
    have last := now.lt_last
    rw [div_lt_iff₀ (by norm_num)]
    norm_num
    exact last
  have sixth : (5 : Int) ≤ ⌊now.time / 86400⌋ := by
    rw [Int.le_floor, le_div_iff₀ (by norm_num)]
    norm_num
    exact now.sixth_le
  unfold Reading.dayStart
  constructor
  · have own : (5 : ℚ) ≤ ⌊now.time / 86400⌋ := by exact_mod_cast sixth
    linarith
  · have own : (⌊now.time / 86400⌋ : ℚ) ≤ 2932895 := by exact_mod_cast Int.le_sub_one_of_lt days
    linarith

/-! ## What is generated -/

theorem logNormalAmount_range {low high : Int} (ordered : low ≤ high) (amount : Int) :
    low ≤ logNormalAmount low high amount ∧ logNormalAmount low high amount ≤ high := by
  unfold logNormalAmount
  omega

theorem amountRange_domain : ∀ txnType ∈ TXN_TYPES,
    0 ≤ (amountRange txnType).1 ∧ (amountRange txnType).1 ≤ (amountRange txnType).2 ∧
      (amountRange txnType).2 < 2 ^ Lwe.AMOUNT_BITS := by
  decide

theorem diurnalTimestamp_range (draw : NormalDraw) :
    86400 * 10 ^ 9 ≤ diurnalTimestamp draw ∧ diurnalTimestamp draw ≤ 253402214400 * 10 ^ 9 := by
  have start := draw.now.dayStart_range
  have day : (draw.day.val : ℚ) ≤ 4 := by exact_mod_cast Nat.le_of_lt_succ draw.day.isLt
  have hour : (draw.hour.val : ℚ) ≤ 23 := by exact_mod_cast Nat.le_of_lt_succ draw.hour.isLt
  have later : (0 : ℚ) ≤ draw.day.val ∧ (0 : ℚ) ≤ draw.hour.val := ⟨Nat.cast_nonneg _, Nat.cast_nonneg _⟩
  have nonneg := draw.within_nonneg
  have most := draw.within_le
  apply @toNanoseconds_range _ 86400 253402214400
  · linarith
  · linarith
  · norm_num
  · norm_num

/-- The body of a normal transaction. -/
def NormalDraw.body (draw : NormalDraw) : Body where
  id := txnIdOf "TXN-" 16 draw.uuid
  account := draw.account
  counterparty := draw.counterparty
  amountCents := logNormalAmount (amountRange draw.txnType).1 (amountRange draw.txnType).2 draw.amount
  currency := draw.currency
  txnType := draw.txnType
  timestampNs := diurnalTimestamp draw
  id_ne := txnIdOf_ne (by decide) _ _
  domain := by
    rcases amountRange_domain draw.txnType draw.txnType_mem with ⟨nonneg, ordered, fits⟩
    rcases logNormalAmount_range ordered draw.amount with ⟨least, most⟩
    exact ⟨nonneg.trans least, most.trans_lt fits⟩
  dated := ⟨(diurnalTimestamp_range draw).1, (diurnalTimestamp_range draw).2.trans (by decide)⟩

theorem carries_normal (draw : NormalDraw) : Carries (generateNormalTransaction draw) draw.body := by
  constructor <;> rfl

theorem leadingNine_range (digits : List (Fin 10)) :
    0 ≤ leadingNine digits ∧ leadingNine digits < 10 ^ (digits.length + 1) := by
  have bound : ∀ value : Nat, digits.foldl (fun value digit => 10 * value + digit.val) value <
      (value + 1) * 10 ^ digits.length := by
    induction digits with
    | nil => simp
    | cons digit rest inductionHypothesis =>
        intro value
        rw [List.foldl_cons, List.length_cons, pow_succ']
        apply (inductionHypothesis (10 * value + digit.val)).trans_le
        rw [← mul_assoc]
        apply Nat.mul_le_mul_right
        omega
  unfold leadingNine
  refine ⟨Int.natCast_nonneg _, ?_⟩
  have own := bound 9
  rw [pow_succ']
  exact_mod_cast own

/-- The body that a kind of anomaly makes of another. -/
def Twist.body (body : Body) : Twist -> Body
  | .velocityBurst index => { body with account := "ACC-VELOCITY-00" ++ toString index.val }
  | .structuring threshold below threshold_mem below_mem =>
      { body with
        amountCents := threshold - below
        txnType := "RTGS"
        domain := by
          have first : 100000000 ≤ threshold ∧ threshold ≤ 1000000000 := by
            simp only [List.mem_cons, List.not_mem_nil, or_false] at threshold_mem
            omega
          have second : 100 ≤ below ∧ below ≤ 1000 := by
            simp only [List.mem_cons, List.not_mem_nil, or_false] at below_mem
            omega
          have wide : (1000000000 : Int) < 2 ^ Lwe.AMOUNT_BITS := by decide
          omega }
  | .offhoursSettlement now within range txnType _ amount =>
      { body with
        amountCents := logNormalAmount 5000000 1000000000 amount
        txnType
        timestampNs := toNanoseconds (now.dayStart + within)
        domain := by
          have bounds := @logNormalAmount_range 5000000 1000000000 (by decide) amount
          have wide : (1000000000 : Int) < 2 ^ Lwe.AMOUNT_BITS := by decide
          omega
        dated := by
          have start := now.dayStart_range
          apply @toNanoseconds_range _ 86400 253402300799
          · linarith [range.1]
          · linarith [range.2]
          · norm_num
          · norm_num }
  | .sanctionsAdjacent _ _ own _ counterparty amount =>
      { body with
        account := if counterparty then body.account else own
        counterparty := if counterparty then own else body.counterparty
        amountCents := logNormalAmount 100000 5000000000 amount
        domain := by
          have bounds := @logNormalAmount_range 100000 5000000000 (by decide) amount
          have wide : (5000000000 : Int) < 2 ^ Lwe.AMOUNT_BITS := by decide
          omega }
  | .benfordViolation digits range =>
      { body with
        amountCents := leadingNine digits
        domain := by
          rcases leadingNine_range digits with ⟨nonneg, less⟩
          have fits : (10 : Int) ^ (digits.length + 1) ≤ 10 ^ 12 := by
            apply pow_le_pow_right₀ (by decide)
            omega
          have wide : (10 : Int) ^ 12 < 2 ^ Lwe.AMOUNT_BITS := by decide
          omega }

theorem find_setMetadata {key other : String} (different : other ≠ "metadata") (txn : Dict) (value : Json) :
    Dict.find (setMetadata txn key value) other = Dict.find txn other := by
  unfold setMetadata
  split
  · rw [Dict.find_set, if_neg different.symm]
  · rfl

theorem Carries.twist {txn : Dict} {body : Body} (carries : Carries txn body) (twist : Twist) :
    Carries (twist.apply txn) (twist.body body) := by
  rcases carries with ⟨id, account, counterparty, amountCents, amount, currency, txnType, timestampNs⟩
  cases twist with
  | structuring threshold below threshold_mem below_mem =>
      constructor <;> simp [Twist.apply, Twist.body, Dict.find_set, *]
  | offhoursSettlement now within range own own_mem drawn =>
      constructor <;> simp [Twist.apply, Twist.body, Dict.find_set, find_setMetadata, *]
  | velocityBurst index =>
      constructor <;> simp [Twist.apply, Twist.body, Dict.find_set, find_setMetadata, *]
  | sanctionsAdjacent pool pool_mem own own_mem side drawn =>
      cases side <;> constructor <;> simp [Twist.apply, Twist.body, Dict.find_set, *]
  | benfordViolation digits range =>
      constructor <;> simp [Twist.apply, Twist.body, Dict.find_set, *]

/-- The body of an anomaly. -/
def anomalousBody (draw : NormalDraw) (uuid : String) (twist : Twist) : Body :=
  twist.body { draw.body with id := txnIdOf "TXN-ANOM-" 12 uuid, id_ne := txnIdOf_ne (by decide) _ _ }

theorem carries_anomalous (draw : NormalDraw) (uuid : String) (twist : Twist) :
    Carries (generateAnomalousTransaction draw uuid twist) (anomalousBody draw uuid twist) := by
  apply Carries.twist
  rcases carries_normal draw with ⟨id, account, counterparty, amountCents, amount, currency, txnType, timestampNs⟩
  constructor <;> simp [Dict.find_set, *]

/-- The body of a further transaction of a burst. -/
def Leg.body (leg : Leg) (account : String) : Body :=
  { leg.draw.body with
    id := txnIdOf "TXN-ANOM-" 12 leg.uuid
    account
    timestampNs := toNanoseconds leg.now.time
    id_ne := txnIdOf_ne (by decide) _ _
    dated := by
      apply @toNanoseconds_range _ 86400 253402300799
      · linarith [leg.now.sixth_le]
      · linarith [leg.now.lt_last]
      · norm_num
      · norm_num }

theorem carries_leg (leg : Leg) (account : String) :
    Carries (leg.transaction (Json.text account)) (leg.body account) := by
  rcases carries_normal leg.draw with ⟨id, _, counterparty, amountCents, amount, currency, txnType, _⟩
  constructor <;> simp [Leg.transaction, Leg.body, Dict.find_set, *]

/-! ## Signing -/

/-- The canonical body can be hashed. -/
theorem payloadHash_of_carries {P : Platform} {txn : Dict} {body : Body} (carries : Carries txn body) :
    ∃ bytes, payloadHash P txn = .ok (P.sha3Hex bytes) := by
  let fields : Dict :=
    [(PyStr.ofString "txn_id", Json.text body.id), (PyStr.ofString "account_id", Json.text body.account),
      (PyStr.ofString "counterparty_id", Json.text body.counterparty),
      (PyStr.ofString "amount_cents", .int body.amountCents), (PyStr.ofString "currency", Json.text body.currency),
      (PyStr.ofString "txn_type", Json.text body.txnType), (PyStr.ofString "timestamp_ns", .int body.timestampNs)]
  have read : (BODY_FIELDS.mapM fun field => do
      let value ← Dict.require txn field
      return (PyStr.ofString field, value)) = Except.ok fields := by
    simp [BODY_FIELDS, Dict.require, carries.id, carries.account, carries.counterparty, carries.amountCents,
      carries.currency, carries.txnType, carries.timestampNs, bind, Except.bind, pure, Except.pure, fields]
  have plain : Scalars (Json.dumps (floatText P) (.obj fields)) := by
    apply Json.scalars_dumps_obj
    intro field member
    simp only [fields, List.mem_cons, List.not_mem_nil, or_false] at member
    rcases member with rfl | rfl | rfl | rfl | rfl | rfl | rfl
    all_goals first
      | exact scalars_quote _
      | exact scalars_decimal _
  rcases plain.encodable with ⟨bytes, encoded⟩
  refine ⟨bytes, ?_⟩
  unfold payloadHash
  rw [read]
  simp only [bind, Except.bind, pure, Except.pure, Json.encode_str encoded]

/-- The transaction can be signed, and holds its body afterwards. -/
theorem sign_of_carries (P : Platform) {txn : Dict} {body : Body} (carries : Carries txn body)
    (key : Option SigningKey) : ∃ signed, sign P key txn = .ok signed ∧ Carries signed body := by
  cases key with
  | none => exact ⟨txn, rfl, carries⟩
  | some key =>
      have succeeds : ∃ signed, sign P (some key) txn = .ok signed := by
        rcases payloadHash_of_carries (P := P) carries with ⟨bytes, hashed⟩
        rcases (scalars_ofString body.id).encodable with ⟨first, idBytes⟩
        have digits : ∀ c ∈ P.sha3Hex bytes, isHexDigit c = true := fun c member => P.isHexDigit_of_mem_sha3Hex member
        rcases utf8_of_hexDigits digits with ⟨second, hashBytes, -⟩
        rcases PyStr.decimal_encodable body.timestampNs with ⟨third, stampBytes⟩
        unfold sign
        simp only [hashed, bind, Except.bind, pure, Except.pure, Dict.require, Dict.find_set, carries.id,
          carries.timestampNs, Json.text, Json.encode_str idBytes, Json.encode_str hashBytes, P.str_int,
          Json.encode_str stampBytes, String.reduceEq, if_false]
        exact ⟨_, rfl⟩
      rcases succeeds with ⟨signed, signs⟩
      rcases sign_fields P signs with ⟨_, -, others⟩
      exact ⟨signed, signs,
        { id := (others _ (by decide)).trans carries.id
          account := (others _ (by decide)).trans carries.account
          counterparty := (others _ (by decide)).trans carries.counterparty
          amountCents := (others _ (by decide)).trans carries.amountCents
          amount := (others _ (by decide)).trans carries.amount
          currency := (others _ (by decide)).trans carries.currency
          txnType := (others _ (by decide)).trans carries.txnType
          timestampNs := (others _ (by decide)).trans carries.timestampNs }⟩

/-! ## The rounds of the simulator -/

/-- A message on the topic: it holds a body, and the firewall lets it pass. -/
structure Emitted (P : Platform) (message : Dict) (body : Body) : Prop where
  carries : Carries message body
  passes : ∀ requireSignature, verifyTransactionSignature P requireSignature message = .ok true

/-- The bodies of what a round emits. -/
def Round.bodies : Round -> List Body
  | .normal draw => [draw.body]
  | .anomalous draw uuid twist burst =>
      anomalousBody draw uuid twist ::
        match twist with
        | .velocityBurst _ => burst.legs.map fun leg => leg.body (anomalousBody draw uuid twist).account
        | _ => []

namespace BankSimulator

variable {P : Platform} {K : Type} {send : K -> Dict -> Except PyError Unit × K} {key : SigningKey}

/-- The simulator has sent and counted messages with these bodies since. -/
structure Extends (P : Platform) (simulator after : BankSimulator K) (bodies : List Body) : Prop where
  key : after.key = simulator.key
  count : after.count = simulator.count + bodies.length
  sent : ∃ messages, after.sent = simulator.sent ++ messages ∧ List.Forall₂ (Emitted P) messages bodies

theorem Extends.refl (simulator : BankSimulator K) : Extends P simulator simulator [] where
  key := rfl
  count := rfl
  sent := ⟨[], (List.append_nil _).symm, .nil⟩

theorem Extends.trans {simulator middle after : BankSimulator K} {first second : List Body}
    (earlier : Extends P simulator middle first) (later : Extends P middle after second) :
    Extends P simulator after (first ++ second) := by
  rcases earlier.sent with ⟨sent, same, emitted⟩
  rcases later.sent with ⟨sent', same', emitted'⟩
  refine ⟨later.key.trans earlier.key, ?_, sent ++ sent', ?_, ?_⟩
  · rw [later.count, earlier.count, List.length_append, Nat.add_assoc]
  · rw [same', same, List.append_assoc]
  · exact List.rel_append emitted emitted'

variable (P send) in
/-- What becomes of an attempt to emit these bodies: all of them go out, or some first ones and
then `send` raises. -/
structure Emits (simulator : BankSimulator K) (outcome : Except PyError Unit × BankSimulator K)
    (bodies : List Body) : Prop where
  extended : ∃ emitted, Extends P simulator outcome.2 emitted ∧ emitted <+: bodies ∧
    (outcome.1 = .ok () -> emitted = bodies)
  raised : ∀ error, outcome.1 = .error error -> ∃ producer txn, (send producer txn).1 = .error error

theorem Emits.refl (simulator : BankSimulator K) : Emits P send simulator (.ok (), simulator) [] where
  extended := ⟨[], .refl simulator, List.prefix_rfl, fun _ => rfl⟩
  raised := fun _ error => by cases error

/-- An attempt that raises ends the run. -/
theorem Emits.stop {simulator after : BankSimulator K} {error : PyError} {first : List Body}
    (emits : Emits P send simulator (.error error, after) first) (second : List Body) :
    Emits P send simulator (.error error, after) (first ++ second) := by
  rcases emits.extended with ⟨emitted, extended, part, -⟩
  exact ⟨⟨emitted, extended, part.trans (List.prefix_append _ _), fun same => by cases same⟩, emits.raised⟩

/-- An attempt that goes through is followed by the next. -/
theorem Emits.next {simulator middle : BankSimulator K} {outcome : Except PyError Unit × BankSimulator K}
    {first second : List Body} (emits : Emits P send simulator (.ok (), middle) first)
    (later : Emits P send middle outcome second) : Emits P send simulator outcome (first ++ second) := by
  rcases emits.extended with ⟨_, extended, -, all⟩
  cases all rfl
  rcases later.extended with ⟨emitted, further, part, whole⟩
  refine ⟨⟨first ++ emitted, extended.trans further, (List.prefix_append_right_inj first).mpr part, ?_⟩, later.raised⟩
  intro ok
  rw [whole ok]

/-- An attempt changes no key. -/
theorem Emits.key_eq {simulator : BankSimulator K} {outcome : Except PyError Unit × BankSimulator K}
    {bodies : List Body} (emits : Emits P send simulator outcome bodies) : outcome.2.key = simulator.key := by
  rcases emits.extended with ⟨_, extended, -⟩
  exact extended.key

/-- One transaction is signed, sent and counted. -/
theorem emit_spec {simulator : BankSimulator K} (signing : simulator.key = some key) {txn : Dict} {body : Body}
    (carries : Carries txn body) : Emits P send simulator (simulator.emit P send txn) [body] := by
  rcases sign_of_carries P carries simulator.key with ⟨signed, signs, kept⟩
  have passes : ∀ requireSignature, verifyTransactionSignature P requireSignature signed = .ok true := by
    intro requireSignature
    rw [signing] at signs
    exact verifyTransactionSignature_sign requireSignature signs
  rcases taken : send simulator.producer signed with ⟨error | ⟨⟩, producer⟩
  · have refused : simulator.emit P send txn = (.error error, { simulator with producer }) := by
      unfold emit
      simp only [signs, taken]
    rw [refused]
    refine ⟨⟨[], ⟨rfl, rfl, [], (List.append_nil _).symm, .nil⟩, List.nil_prefix, fun same => by cases same⟩, ?_⟩
    rintro _ ⟨⟩
    exact ⟨simulator.producer, signed, congrArg Prod.fst taken⟩
  · unfold emit
    simp only [signs, taken]
    refine ⟨⟨[body], ⟨rfl, rfl, [signed], rfl, .cons ⟨kept, passes⟩ .nil⟩, List.prefix_rfl, fun _ => rfl⟩, ?_⟩
    rintro _ ⟨⟩

theorem emitAll_spec {simulator : BankSimulator K} (signing : simulator.key = some key) {txns : List Dict}
    {bodies : List Body} (carry : List.Forall₂ Carries txns bodies) :
    Emits P send simulator (simulator.emitAll P send txns) bodies := by
  induction carry generalizing simulator with
  | nil => exact .refl simulator
  | @cons txn body txns bodies carries _ inductionHypothesis =>
      have first : Emits P send simulator (simulator.emit P send txn) [body] := emit_spec signing carries
      rw [emitAll]
      rcases emitted : simulator.emit P send txn with ⟨error | ⟨⟩, middle⟩
      · rw [emitted] at first
        exact first.stop bodies
      · rw [emitted] at first
        exact first.next (inductionHypothesis (first.key_eq.trans signing))

theorem groundTruth_anomalous (draw : NormalDraw) (uuid : String) (twist : Twist) :
    Dict.get (generateAnomalousTransaction draw uuid twist) "ground_truth_type" .null = Json.text twist.name := by
  apply Dict.get_of_find
  cases twist with
  | sanctionsAdjacent pool pool_mem own own_mem side drawn =>
      cases side <;> simp [generateAnomalousTransaction, Twist.apply, Dict.find_set]
  | _ => simp [generateAnomalousTransaction, Twist.apply, Dict.find_set, find_setMetadata]

/-- A round emits its bodies. -/
theorem round_spec {simulator : BankSimulator K} (signing : simulator.key = some key) (round : Round) :
    Emits P send simulator (simulator.round P send round) round.bodies := by
  cases round with
  | normal draw => exact emit_spec signing (carries_normal draw)
  | anomalous draw uuid twist burst =>
      have carries := carries_anomalous draw uuid twist
      unfold BankSimulator.round
      dsimp only
      rw [groundTruth_anomalous]
      cases twist with
      | velocityBurst index =>
          rw [if_pos (by simp [Twist.name, Json.text, Json.eqStr])]
          have legs : List.Forall₂ Carries
              (burst.legs.map fun leg => leg.transaction
                (Json.text (anomalousBody draw uuid (.velocityBurst index)).account))
              (burst.legs.map fun leg => leg.body (anomalousBody draw uuid (.velocityBurst index)).account) := by
            rw [List.forall₂_map_left_iff, List.forall₂_map_right_iff, List.forall₂_same]
            exact fun leg _ => carries_leg leg _
          unfold emitBurst
          simp only [Dict.require, carries.account]
          exact emitAll_spec signing (.cons carries legs)
      | _ =>
          rw [if_neg (by simp [Twist.name, Json.text, Json.eqStr])]
          exact emit_spec signing carries

variable (P send) in
/-- The loop performs the first of its rounds, up to the total, and emits their bodies. -/
theorem run_spec {simulator : BankSimulator K} (signing : simulator.key = some key) (total : Option Nat)
    (rounds : List Round) :
    ∃ performed, performed <+: rounds ∧
      Emits P send simulator (simulator.run P send total rounds) (performed.flatMap Round.bodies) ∧
      ((simulator.run P send total rounds).1 = .ok () ->
        performed = rounds ∨ ∃ enough, total = some enough ∧ enough ≤ (simulator.run P send total rounds).2.count) := by
  induction rounds generalizing simulator with
  | nil => exact ⟨[], List.prefix_rfl, .refl simulator, fun _ => Or.inl rfl⟩
  | cons round rest inductionHypothesis =>
      rw [run]
      split
      · have first : Emits P send simulator (simulator.round P send round) round.bodies := round_spec signing round
        rcases emitted : simulator.round P send round with ⟨error | ⟨⟩, middle⟩
        · rw [emitted] at first
          refine ⟨[round], ⟨rest, rfl⟩, first.stop [], ?_⟩
          intro same
          cases same
        · rw [emitted] at first
          rcases inductionHypothesis (first.key_eq.trans signing) with ⟨performed, part, later, ended⟩
          refine ⟨round :: performed, (List.prefix_cons_inj round).mpr part, first.next later, ?_⟩
          exact fun ok => (ended ok).imp_left (congrArg _)
      · next reached =>
          refine ⟨[], List.nil_prefix, .refl simulator, fun _ => Or.inr ?_⟩
          cases total with
          | none => exact (reached rfl).elim
          | some enough => exact ⟨enough, rfl, by simpa using reached⟩

end BankSimulator

end Simulator
end ZeroAudit
