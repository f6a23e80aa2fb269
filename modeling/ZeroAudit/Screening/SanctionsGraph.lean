import ZeroAudit.Foundation.Growth
import ZeroAudit.Foundation.Hops
import ZeroAudit.Foundation.Retention
import ZeroAudit.Foundation.Slices
import ZeroAudit.Intent.AnomalyDetector

namespace ZeroAudit
namespace Screening

open Foundation Foundation.Retention Foundation.Slices

/-!
# The sanctions graph (`scripts/load_sanctions_graph.py`)

The loader sends one statement after the other, and each takes effect on its own.  A
statement merges the nodes of a batch of the list, or an account, or it links a node it
finds to a proxy it merges, or to a sanctioned entity it finds.  Where it finds nothing it
does nothing.  The database merges by the keys that are declared unique.  The client asks
for the fewest links between one of two accounts and any sanctioned entity.
-/

variable (P : Platform)

/-! ## The list -/

structure SdnRow where
  entNum : PyStr
  name : PyStr
  sdnType : Option PyStr
  program : Option PyStr

/-- A field of the list, in which `-0-` stands for nothing. -/
def populated (field : PyStr) : Option PyStr := if field = PyStr.ofString "-0-" then none else some field

/-- `read_sdn_rows`, on the records of the file. -/
def readSdnRows (records : List (List PyStr)) : List SdnRow :=
  records.filterMap fun
    | entNum :: name :: sdnType :: program :: _ =>
        if strip name = [] then none
        else some
          { entNum := strip entNum
            name := strip name
            sdnType := populated (strip sdnType)
            program := populated (strip program) }
    | _ => none

/-! ## The graph -/

inductive Vertex where
  | entity (entNum : PyStr)
  | account (hash : PyStr)
  | proxy (id : String)
  deriving DecidableEq

def Vertex.isEntity : Vertex -> Bool
  | .entity _ => true
  | _ => false

/-- The nodes by their keys, and the links between them. -/
structure SanctionsGraph where
  entities : List (PyStr × SdnRow)
  accounts : List (PyStr × String)
  proxies : List String
  transactedWith : List (Vertex × Vertex)

inductive Statement where
  /-- `UNWIND $batch AS row MERGE (s:SanctionedEntity {ent_num: row.ent_num}) SET ...`. -/
  | mergeEntities (batch : List SdnRow)
  /-- `MERGE (a:Account {hash: $hash}) SET a.demo_id = $account_id`. -/
  | mergeAccount (hash : PyStr) (demoId : String)
  /-- `MATCH` the source, `MERGE` the proxy, and `MERGE` the link. -/
  | linkProxy (source : Vertex) (proxy : String)
  /-- `MATCH` the source and the entity, and `MERGE` the link. -/
  | linkEntity (source : Vertex) (entNum : PyStr)

namespace SanctionsGraph

variable (graph : SanctionsGraph)

def empty : SanctionsGraph := ⟨[], [], [], []⟩

/-- What a `MATCH` on the key of a node finds. -/
def has : Vertex -> Bool
  | .entity entNum => decide (entNum ∈ graph.entities.map Prod.fst)
  | .account hash => decide (hash ∈ graph.accounts.map Prod.fst)
  | .proxy id => decide (id ∈ graph.proxies)

def link (source target : Vertex) : SanctionsGraph :=
  { graph with transactedWith := graph.transactedWith.insert (source, target) }

/-- The effect of a statement. -/
def run : Statement -> SanctionsGraph
  | .mergeEntities batch =>
      { graph with entities := batch.foldl (fun entities row => upsert row.entNum row entities) graph.entities }
  | .mergeAccount hash demoId => { graph with accounts := upsert hash demoId graph.accounts }
  | .linkProxy source proxy =>
      if graph.has source then
        ({ graph with proxies := graph.proxies.insert proxy } : SanctionsGraph).link source (.proxy proxy)
      else graph
  | .linkEntity source entNum =>
      if graph.has source && graph.has (.entity entNum) then graph.link source (.entity entNum) else graph

/-- The effect of a list of statements. -/
def execute (statements : List Statement) : SanctionsGraph := statements.foldl run graph

/-- The hops from an account to the nearest entity, if there is such an account. -/
def hops (hash : PyStr) : Option Nat :=
  if graph.has (.account hash) then
    Hops.nearest graph.transactedWith Vertex.isEntity Intent.MAX_HOPS.toNat (.account hash)
  else none

/-- The answer with these hops, if there are any. -/
def answerOf : Option Nat -> Intent.GraphAnswer
  | some hops => .reached hops
  | none => .nothing

/-- The query of the client: over the hashes it is given, the fewest hops. -/
def answer (accountHash counterpartyHash : PyStr) : Intent.GraphAnswer :=
  answerOf ((([accountHash, counterpartyHash].filter fun hash => decide (hash ≠ [])).filterMap graph.hops).min?)

end SanctionsGraph

/-! ## The loader -/

structure Tier where
  name : String
  count : Nat
  hops : Nat
  stem : String

def DEMO_TIERS : List Tier :=
  [⟨"OFAC", 4, 1, "ACC-SANC-OFAC"⟩, ⟨"RBI", 4, 2, "ACC-SANC-RBI"⟩, ⟨"FATF", 4, 3, "ACC-SANC-FATF"⟩]

/-- `"%s-%02d" % (prefix, i)`. -/
def Tier.accountId (tier : Tier) (i : Nat) : String :=
  tier.stem ++ "-" ++ (if i < 10 then "0" else "") ++ toString i

/-- `"proxy-%s-%d" % (tier_name, n)`, for every hop but the last. -/
def Tier.proxyIds (tier : Tier) : List String :=
  (List.range (tier.hops - 1)).map fun n => "proxy-" ++ tier.name ++ "-" ++ toString n

def accountHash (accountId : String) : PyStr := P.sha3Hex (accountId.toList.flatMap String.utf8EncodeChar)

/-- The accounts of all tiers, in the order in which they are seeded. -/
def demoAccounts : List (Tier × String) :=
  DEMO_TIERS.flatMap fun tier => (List.range' 1 tier.count).map fun i => (tier, tier.accountId i)

/-- The links from a node over proxies to an entity. -/
def chain (source : Vertex) : List String -> PyStr -> List Statement
  | [], entNum => [.linkEntity source entNum]
  | proxy :: rest, entNum => .linkProxy source proxy :: chain (.proxy proxy) rest entNum

/-- What is sent for one account. -/
def seedAccount (tier : Tier) (accountId : String) (entNum : PyStr) : List Statement :=
  .mergeAccount (accountHash P accountId) accountId ::
    chain (.account (accountHash P accountId)) tier.proxyIds entNum

/-- `seed_demo_accounts`.  The remainder by the number of chosen entities raises at the first
account where none was chosen, before anything is sent. -/
def seedDemoAccounts (chosen : List PyStr) : List Statement :=
  demoAccounts.zipIdx.flatMap fun account =>
    match chosen[account.2 % chosen.length]? with
    | some entNum => seedAccount P account.1.1 account.1.2 entNum
    | none => []

/-- `load_entities`. -/
def loadEntities (rows : List SdnRow) (batchSize : Nat) : List Statement :=
  (batches batchSize rows).map Statement.mergeEntities

/-- `random.Random(seed).sample`. -/
structure Sampler where
  draw : List PyStr -> Nat -> List PyStr
  draw_length : ∀ population k, k ≤ population.length -> (draw population k).length = k
  draw_subset : ∀ population k, ∀ drawn ∈ draw population k, drawn ∈ population

/-- What one run of the loader sends to the database. -/
def loaderStatements (sampler : Sampler) (records : List (List PyStr)) : List Statement :=
  let rows := readSdnRows records
  loadEntities rows 2000 ++
    seedDemoAccounts P (sampler.draw (rows.map SdnRow.entNum) (min 12 rows.length))

/-- The hops of the tiers that list an account of this hash, at least one of them. -/
def tierHops (hash : PyStr) : Option Nat :=
  ((demoAccounts.filter fun account => decide (accountHash P account.2 = hash)).map fun account => account.1.hops).min?

end Screening
end ZeroAudit
