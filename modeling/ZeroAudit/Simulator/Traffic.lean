import ZeroAudit.Simulator.BankSim

namespace ZeroAudit
namespace Simulator

open Foundation Signature

/-!
# The traffic of the bank (`simulator/bank_sim.py`)

Every transaction is generated from draws of the random module and from readings of the
clock.  A draw carries the ranges that the module promises for it.  Anomalies are normal
transactions with some fields rewritten, and a velocity anomaly is followed by a burst of
further transactions of its account.  The simulator signs each transaction, sends it and
counts it.
-/

/-! ## Draws -/

def TXN_TYPES : List String :=
  ["RTGS", "NEFT", "WIRE_TRANSFER", "TRADE_SETTLEMENT", "INTERNAL_TRANSFER", "FX_CONVERSION"]

/-- The range of amounts of each instrument. -/
def AMOUNT_RANGES : List (String × Int × Int) :=
  [("RTGS", 20000000, 5000000000), ("NEFT", 100, 20000000), ("WIRE_TRANSFER", 100000, 1000000000),
    ("TRADE_SETTLEMENT", 1000000, 10000000000), ("INTERNAL_TRANSFER", 100, 50000000),
    ("FX_CONVERSION", 5000000, 100000000000)]

def CURRENCIES : List String := List.replicate 8 "INR" ++ ["USD", "EUR", "GBP", "JPY", "AED", "SGD"]

def ACCOUNT_POOL : List String := (List.range' 1000 200).map fun n => "ACC-" ++ toString n

/-- `"ACC-SANC-OFAC-%02d"` and the like, for the first four. -/
def demoPool (stem : String) : List String := (List.range' 1 4).map fun i => stem ++ "-0" ++ toString i

def SANCTIONED_ACCOUNTS : List String := demoPool "ACC-SANC-OFAC"

def RBI_FLAGGED_ACCOUNTS : List String := demoPool "ACC-SANC-RBI"

def FATF_FLAGGED_ACCOUNTS : List String := demoPool "ACC-SANC-FATF"

/-- A reading of the clock, from the sixth day of 1970 to the last but one of 9999. -/
structure Reading where
  time : ℚ
  sixth_le : 432000 ≤ time
  lt_last : time < 253402214400

/-- What one normal transaction draws. -/
structure NormalDraw where
  txnType : String
  txnType_mem : txnType ∈ TXN_TYPES
  account : String
  account_mem : account ∈ ACCOUNT_POOL
  counterparty : String
  counterparty_mem : counterparty ∈ ACCOUNT_POOL.filter fun other => decide (other ≠ account)
  /-- `uuid.uuid4().hex`. -/
  uuid : String
  /-- `int(math.exp(random.gauss(mu, sigma)))`. -/
  amount : Int
  currency : String
  currency_mem : currency ∈ CURRENCIES
  now : Reading
  hour : Fin 24
  day : Fin 5
  within : ℚ
  within_nonneg : 0 ≤ within
  within_le : within ≤ 3600
  channel : String
  deviceOs : String
  city : String

/-! ## Transactions -/

/-- `max(low, min(high, ...))`. -/
def logNormalAmount (low high amount : Int) : Int := max low (min high amount)

def amountRange (txnType : String) : Int × Int :=
  ((AMOUNT_RANGES.find? fun entry => decide (entry.1 = txnType)).map Prod.snd).getD (0, 0)

/-- `now - (now % 86400)`. -/
def Reading.dayStart (now : Reading) : ℚ := 86400 * ⌊now.time / 86400⌋

/-- `int(seconds * 1e9)`. -/
def toNanoseconds (seconds : ℚ) : Int := if 0 ≤ seconds then ⌊seconds * 10 ^ 9⌋ else ⌈seconds * 10 ^ 9⌉

def diurnalTimestamp (draw : NormalDraw) : Int :=
  toNanoseconds (draw.now.dayStart - draw.day.val * 86400 + draw.hour.val * 3600 + draw.within)

/-- `"TXN-%s" % uuid.hex[:16].upper()`, and the like. -/
def txnIdOf (stem : String) (length : Nat) (uuid : String) : String :=
  stem ++ String.ofList ((uuid.toList.take length).map Char.toUpper)

def generateNormalTransaction (draw : NormalDraw) : Dict :=
  [(PyStr.ofString "txn_id", Json.text (txnIdOf "TXN-" 16 draw.uuid)),
    (PyStr.ofString "account_id", Json.text draw.account),
    (PyStr.ofString "counterparty_id", Json.text draw.counterparty),
    (PyStr.ofString "amount_cents",
      .int (logNormalAmount (amountRange draw.txnType).1 (amountRange draw.txnType).2 draw.amount)),
    (PyStr.ofString "currency", Json.text draw.currency),
    (PyStr.ofString "txn_type", Json.text draw.txnType),
    (PyStr.ofString "timestamp_ns", .int (diurnalTimestamp draw)),
    (PyStr.ofString "ground_truth_anomaly", .bool false),
    (PyStr.ofString "ground_truth_type", Json.text "NONE"),
    (PyStr.ofString "metadata", .obj
      [(PyStr.ofString "channel", Json.text draw.channel), (PyStr.ofString "device_os", Json.text draw.deviceOs),
        (PyStr.ofString "city", Json.text draw.city)])]

/-- The kinds of anomaly, each with what it draws. -/
inductive Twist where
  | structuring (threshold below : Int) (threshold_mem : threshold ∈ [100000000, 500000000, 1000000000])
      (below_mem : below ∈ [100, 500, 1000])
  | offhoursSettlement (now : Reading) (within : ℚ) (range : 3600 ≤ within ∧ within ≤ 4 * 3600) (txnType : String)
      (txnType_mem : txnType ∈ ["WIRE_TRANSFER", "FX_CONVERSION"]) (amount : Int)
  | velocityBurst (index : Fin 6)
  | sanctionsAdjacent (pool : List String)
      (pool_mem : pool ∈ [SANCTIONED_ACCOUNTS, RBI_FLAGGED_ACCOUNTS, FATF_FLAGGED_ACCOUNTS]) (own : String)
      (own_mem : own ∈ pool) (counterparty : Bool) (amount : Int)
  | benfordViolation (digits : List (Fin 10)) (range : 7 ≤ digits.length ∧ digits.length ≤ 11)

/-- `ground_truth_type`. -/
def Twist.name : Twist -> String
  | .structuring .. => "structuring"
  | .offhoursSettlement .. => "offhours_settlement"
  | .velocityBurst .. => "velocity_burst"
  | .sanctionsAdjacent .. => "sanctions_adjacent"
  | .benfordViolation .. => "benford_violation"

/-- `txn["metadata"][key] = value`. -/
def setMetadata (txn : Dict) (key : String) (value : Json) : Dict :=
  match Dict.find txn "metadata" with
  | some (.obj fields) => Dict.set txn "metadata" (.obj (Dict.set fields key value))
  | _ => txn

/-- `int("9" + digits)`. -/
def leadingNine (digits : List (Fin 10)) : Int :=
  ((digits.foldl (fun value digit => 10 * value + digit.val) 9 : Nat) : Int)

/-- The fields that a kind of anomaly rewrites. -/
def Twist.apply (txn : Dict) : Twist -> Dict
  | .structuring threshold below _ _ =>
      Dict.set (Dict.set txn "amount_cents" (.int (threshold - below))) "txn_type" (Json.text "RTGS")
  | .offhoursSettlement now within _ txnType _ amount =>
      let txn := Dict.set txn "timestamp_ns" (.int (toNanoseconds (now.dayStart + within)))
      let txn := Dict.set txn "txn_type" (Json.text txnType)
      let txn := Dict.set txn "amount_cents" (.int (logNormalAmount 5000000 1000000000 amount))
      setMetadata txn "city" (Json.text "George Town")
  | .velocityBurst index =>
      let txn := Dict.set txn "account_id" (Json.text ("ACC-VELOCITY-00" ++ toString index.val))
      setMetadata txn "burst" (.bool true)
  | .sanctionsAdjacent _ _ own _ counterparty amount =>
      let txn := Dict.set txn (if counterparty then "counterparty_id" else "account_id") (Json.text own)
      Dict.set txn "amount_cents" (.int (logNormalAmount 100000 5000000000 amount))
  | .benfordViolation digits _ => Dict.set txn "amount_cents" (.int (leadingNine digits))

/-- `generate_anomalous_transaction`, with the draws of the transaction it starts from. -/
def generateAnomalousTransaction (draw : NormalDraw) (uuid : String) (twist : Twist) : Dict :=
  let txn := generateNormalTransaction draw
  let txn := Dict.set txn "ground_truth_anomaly" (.bool true)
  let txn := Dict.set txn "ground_truth_type" (Json.text twist.name)
  let txn := Dict.set txn "txn_id" (Json.text (txnIdOf "TXN-ANOM-" 12 uuid))
  twist.apply txn

/-- What one further transaction of a burst draws. -/
structure Leg where
  draw : NormalDraw
  uuid : String
  now : Reading

/-- A further transaction of a burst. -/
def Leg.transaction (leg : Leg) (account : Json) : Dict :=
  let extra := generateNormalTransaction leg.draw
  let extra := Dict.set extra "account_id" account
  let extra := Dict.set extra "txn_id" (Json.text (txnIdOf "TXN-ANOM-" 12 leg.uuid))
  let extra := Dict.set extra "ground_truth_anomaly" (.bool true)
  let extra := Dict.set extra "ground_truth_type" (Json.text "velocity_burst")
  Dict.set extra "timestamp_ns" (.int (toNanoseconds leg.now.time))

structure Burst where
  legs : List Leg
  many : 8 ≤ legs.length ∧ legs.length ≤ 15

/-! ## The simulator -/

/-- The transactions go to the topic in the order in which the producer takes them. -/
structure BankSimulator (K : Type) where
  key : Option SigningKey
  producer : K
  count : Nat
  anomalies : Nat
  sent : List Dict

/-- One round of the loop: a normal transaction, or an anomaly with the burst that it draws if
it is one of velocity. -/
inductive Round where
  | normal (draw : NormalDraw)
  | anomalous (draw : NormalDraw) (uuid : String) (twist : Twist) (burst : Burst)

namespace BankSimulator

variable {K : Type} (P : Platform) (send : K -> Dict -> Except PyError Unit × K) (simulator : BankSimulator K)

/-- `_emit`.  Nothing guards the call of `send`: what it raises ends the run, and the
transaction is not counted. -/
def emit (txn : Dict) : Except PyError Unit × BankSimulator K :=
  match sign P simulator.key txn with
  | .error error => (.error error, simulator)
  | .ok txn =>
      match send simulator.producer txn with
      | (.error error, producer) => (.error error, { simulator with producer })
      | (.ok (), producer) =>
          (.ok (), { simulator with
            producer
            sent := simulator.sent ++ [txn]
            count := simulator.count + 1
            anomalies :=
              if (Dict.get txn "ground_truth_anomaly" .null).truthy then simulator.anomalies + 1
              else simulator.anomalies })

/-- `_emit` one after the other. -/
def emitAll : BankSimulator K -> List Dict -> Except PyError Unit × BankSimulator K
  | simulator, [] => (.ok (), simulator)
  | simulator, txn :: rest =>
      match simulator.emit P send txn with
      | (.error error, simulator) => (.error error, simulator)
      | (.ok (), simulator) => emitAll simulator rest

/-- `_emit_burst`. -/
def emitBurst (txn : Dict) (burst : Burst) : Except PyError Unit × BankSimulator K :=
  match Dict.require txn "account_id" with
  | .error error => (.error error, simulator)
  | .ok account => simulator.emitAll P send (txn :: burst.legs.map fun leg => leg.transaction account)

/-- The body of the loop of `run`. -/
def round : Round -> Except PyError Unit × BankSimulator K
  | .normal draw => simulator.emit P send (generateNormalTransaction draw)
  | .anomalous draw uuid twist burst =>
      let txn := generateAnomalousTransaction draw uuid twist
      if (Dict.get txn "ground_truth_type" .null).eqStr (PyStr.ofString "velocity_burst") then
        simulator.emitBurst P send txn burst
      else simulator.emit P send txn

/-- `run`, for as many rounds as there are draws for, or until the total is reached. -/
def run (total : Option Nat) : BankSimulator K -> List Round -> Except PyError Unit × BankSimulator K
  | simulator, [] => (.ok (), simulator)
  | simulator, round :: rest =>
      if total.elim true fun total => decide (simulator.count < total) then
        match simulator.round P send round with
        | (.error error, simulator) => (.error error, simulator)
        | (.ok (), simulator) => run total simulator rest
      else (.ok (), simulator)

end BankSimulator
end Simulator
end ZeroAudit
