import ZeroAudit.SamplePlatform
import ZeroAudit.Screening.SanctionsGraph

namespace ZeroAudit
namespace Screening

open Foundation Foundation.Retention Foundation.Slices Foundation.Growth

/-!
# What the loader leaves behind

Statements only add to the graph, so a run of the loader that comes through leaves the
links of every demo account, whatever other runs send before, after or in between, and
wherever these are broken off.  No statement of any run links two nodes whose distances to
the list, as the tiers assign them, differ by more than one.  The hops that the client finds
are therefore those of the tiers, for every list that was ever loaded and every choice of
entities.
-/

variable {P : Platform} {graph : SanctionsGraph}

/-! ## One statement -/

namespace Statement

/-- The nodes that a statement has to find. -/
def needs : Statement -> List Vertex
  | .mergeEntities _ => []
  | .mergeAccount _ _ => []
  | .linkProxy source _ => [source]
  | .linkEntity source entNum => [source, .entity entNum]

/-- The nodes that it merges. -/
def nodes : Statement -> List Vertex
  | .mergeEntities batch => batch.map fun row => .entity row.entNum
  | .mergeAccount hash _ => [.account hash]
  | .linkProxy _ proxy => [.proxy proxy]
  | .linkEntity _ _ => []

/-- The links that it merges. -/
def links : Statement -> List (Vertex × Vertex)
  | .mergeEntities _ => []
  | .mergeAccount _ _ => []
  | .linkProxy source proxy => [(source, .proxy proxy)]
  | .linkEntity source entNum => [(source, .entity entNum)]

/-- Every node that the statement has to find is there. -/
def Finds (statement : Statement) (graph : SanctionsGraph) : Prop :=
  ∀ vertex ∈ statement.needs, graph.has vertex = true

end Statement

namespace SanctionsGraph

theorem mem_entities_foldl (batch : List SdnRow) (entities : List (PyStr × SdnRow)) (entNum : PyStr) :
    entNum ∈ (batch.foldl (fun entities row => upsert row.entNum row entities) entities).map Prod.fst ↔
      entNum ∈ entities.map Prod.fst ∨ entNum ∈ batch.map SdnRow.entNum := by
  induction batch generalizing entities with
  | nil => simp
  | cons row rest inductionHypothesis =>
      rw [List.foldl_cons, inductionHypothesis, mem_keys_upsert, List.map_cons, List.mem_cons, or_comm (a := _ = _),
        or_assoc]

theorem has_entity {entNum : PyStr} :
    graph.has (.entity entNum) = true ↔ entNum ∈ graph.entities.map Prod.fst :=
  decide_eq_true_iff

theorem has_account {hash : PyStr} : graph.has (.account hash) = true ↔ hash ∈ graph.accounts.map Prod.fst :=
  decide_eq_true_iff

theorem has_proxy {id : String} : graph.has (.proxy id) = true ↔ id ∈ graph.proxies :=
  decide_eq_true_iff

/-- The nodes after a statement. -/
theorem has_run_iff (statement : Statement) (vertex : Vertex) :
    (graph.run statement).has vertex = true ↔
      graph.has vertex = true ∨ statement.Finds graph ∧ vertex ∈ statement.nodes := by
  cases statement with
  | mergeEntities batch =>
      cases vertex with
      | entity entNum =>
          have keys := mem_entities_foldl batch graph.entities entNum
          rw [has_entity, has_entity, run, keys]
          simp [Statement.Finds, Statement.needs, Statement.nodes]
      | account hash => simp [run, has_account, Statement.nodes]
      | proxy id => simp [run, has_proxy, Statement.nodes]
  | mergeAccount hash demoId =>
      cases vertex with
      | entity entNum => simp [run, has_entity, Statement.nodes]
      | account own =>
          rw [has_account, has_account, run, mem_keys_upsert, or_comm]
          simp [Statement.Finds, Statement.needs, Statement.nodes]
      | proxy id => simp [run, has_proxy, Statement.nodes]
  | linkProxy source proxy =>
      by_cases found : graph.has source = true
      · rw [run, if_pos found]
        cases vertex with
        | entity entNum => simp [link, has_entity, Statement.nodes]
        | account hash => simp [link, has_account, Statement.nodes]
        | proxy id =>
            simp [link, has_proxy, Statement.Finds, Statement.needs, Statement.nodes, found, or_comm]
      · rw [run, if_neg found]
        simp [Statement.Finds, Statement.needs, found]
  | linkEntity source entNum =>
      have same : (graph.run (.linkEntity source entNum)).has vertex = graph.has vertex := by
        unfold run
        dsimp only
        split
        · cases vertex <;> rfl
        · rfl
      simp [same, Statement.nodes]

/-- The links after a statement. -/
theorem mem_run_iff (statement : Statement) (edge : Vertex × Vertex) :
    edge ∈ (graph.run statement).transactedWith ↔
      edge ∈ graph.transactedWith ∨ statement.Finds graph ∧ edge ∈ statement.links := by
  cases statement with
  | mergeEntities batch => simp [run, Statement.links]
  | mergeAccount hash demoId => simp [run, Statement.links]
  | linkProxy source proxy =>
      by_cases found : graph.has source = true
      · simp [run, found, link, Statement.Finds, Statement.needs, Statement.links, or_comm]
      · simp [run, found, Statement.Finds, Statement.needs]
  | linkEntity source entNum =>
      by_cases found : graph.has source = true ∧ graph.has (.entity entNum) = true
      · simp [run, found.1, found.2, link, Statement.Finds, Statement.needs, Statement.links, or_comm]
      · have missed : (graph.has source && graph.has (.entity entNum)) = false := by
          rwa [Bool.eq_false_iff, ne_eq, Bool.and_eq_true]
        simp only [run, missed, Bool.false_eq_true, if_false, Statement.Finds, Statement.needs, List.mem_cons,
          List.not_mem_nil, or_false, forall_eq_or_imp, forall_eq]
        tauto

/-! ## Growth -/

/-- More nodes and links. -/
instance : Preorder SanctionsGraph where
  le graph larger := (∀ vertex, graph.has vertex = true -> larger.has vertex = true) ∧
    graph.transactedWith ⊆ larger.transactedWith
  le_refl _ := ⟨fun _ found => found, List.Subset.refl _⟩
  le_trans _ _ _ first second :=
    ⟨fun vertex found => second.1 vertex (first.1 vertex found), List.Subset.trans first.2 second.2⟩

theorem grows_run : Grows run where
  inflates := by
    intro graph statement
    exact ⟨fun vertex found => (has_run_iff statement vertex).mpr (Or.inl found),
      fun edge member => (mem_run_iff statement edge).mpr (Or.inl member)⟩
  monotone := by
    intro graph larger statement le
    have finds : statement.Finds graph -> statement.Finds larger :=
      fun found vertex needed => le.1 vertex (found vertex needed)
    constructor
    · intro vertex found
      rw [has_run_iff] at found ⊢
      exact found.imp (le.1 vertex) fun merged => ⟨finds merged.1, merged.2⟩
    · intro edge member
      rw [mem_run_iff] at member ⊢
      exact member.imp (fun kept => le.2 kept) fun merged => ⟨finds merged.1, merged.2⟩

/-- Statements are executed one list after the other. -/
theorem execute_cons (statement : Statement) (rest : List Statement) :
    graph.execute (statement :: rest) = (graph.run statement).execute rest :=
  rfl

theorem le_execute (statements : List Statement) : graph ≤ graph.execute statements :=
  grows_run.le_run graph statements

end SanctionsGraph

open SanctionsGraph

/-! ## Settled statements -/

/-- Everything that a statement merges is there. -/
structure Settled (graph : SanctionsGraph) (statement : Statement) : Prop where
  nodes : ∀ vertex ∈ statement.nodes, graph.has vertex = true
  links : statement.links ⊆ graph.transactedWith

theorem Settled.mono {larger : SanctionsGraph} (le : graph ≤ larger) {statement : Statement}
    (settled : Settled graph statement) : Settled larger statement where
  nodes vertex member := le.1 vertex (settled.nodes vertex member)
  links := List.Subset.trans settled.links le.2

/-- A settled statement adds nothing. -/
theorem Settled.run_le {statement : Statement} (settled : Settled graph statement) : graph.run statement ≤ graph := by
  constructor
  · intro vertex found
    rcases (has_run_iff _ _).mp found with kept | ⟨-, merged⟩
    · exact kept
    · exact settled.nodes vertex merged
  · intro edge member
    rcases (mem_run_iff _ _).mp member with kept | ⟨-, merged⟩
    · exact kept
    · exact settled.links merged

theorem settled_run {statement : Statement} (finds : statement.Finds graph) :
    Settled (graph.run statement) statement where
  nodes _ member := (has_run_iff _ _).mpr (Or.inr ⟨finds, member⟩)
  links _ member := (mem_run_iff _ _).mpr (Or.inr ⟨finds, member⟩)

/-- Every statement of a list finds its nodes when its turn comes. -/
def Hits : SanctionsGraph -> List Statement -> Prop
  | _, [] => True
  | graph, statement :: rest => statement.Finds graph ∧ Hits (graph.run statement) rest

/-- Statements that find their nodes are settled at the end. -/
theorem settled_of_hits {statements : List Statement} (hits : Hits graph statements) :
    ∀ statement ∈ statements, Settled (graph.execute statements) statement := by
  induction statements generalizing graph with
  | nil => exact fun _ member => (List.not_mem_nil member).elim
  | cons first rest inductionHypothesis =>
      intro statement member
      rw [execute_cons]
      rcases List.mem_cons.mp member with rfl | later
      · exact (settled_run hits.1).mono (le_execute rest)
      · exact inductionHypothesis hits.2 statement later

theorem hits_append {first second : List Statement} (hits : Hits graph first)
    (later : Hits (graph.execute first) second) : Hits graph (first ++ second) := by
  induction first generalizing graph with
  | nil => exact later
  | cons statement rest inductionHypothesis => exact ⟨hits.1, inductionHypothesis hits.2 later⟩

/-- A chain finds its nodes, if its source and its entity are there. -/
theorem hits_chain {source : Vertex} {proxies : List String} {entNum : PyStr} (start : graph.has source = true)
    (finish : graph.has (.entity entNum) = true) : Hits graph (chain source proxies entNum) := by
  induction proxies generalizing graph source with
  | nil =>
      refine ⟨?_, trivial⟩
      intro vertex needed
      rcases List.mem_cons.mp needed with rfl | needed
      · exact start
      · rw [List.mem_singleton.mp needed]
        exact finish
  | cons proxy rest inductionHypothesis =>
      have finds : (Statement.linkProxy source proxy).Finds graph := by
        intro vertex needed
        rw [List.mem_singleton.mp needed]
        exact start
      refine ⟨finds, inductionHypothesis ?_ ((has_run_iff _ _).mpr (Or.inl finish))⟩
      exact (settled_run finds).nodes _ (List.mem_singleton_self _)

/-- So does what is sent for an account. -/
theorem hits_seedAccount (tier : Tier) (accountId : String) {entNum : PyStr}
    (finish : graph.has (.entity entNum) = true) : Hits graph (seedAccount P tier accountId entNum) := by
  have finds : (Statement.mergeAccount (accountHash P accountId) accountId).Finds graph :=
    fun vertex needed => (List.not_mem_nil needed).elim
  refine ⟨finds, hits_chain ?_ ((has_run_iff _ _).mpr (Or.inl finish))⟩
  exact (settled_run finds).nodes _ (List.mem_singleton_self _)

/-! ## A complete run -/

/-- What is sent for the accounts finds its nodes, if the chosen entities are there. -/
theorem hits_seeds {chosen : List PyStr} (loaded : ∀ entNum ∈ chosen, graph.has (.entity entNum) = true)
    (accounts : List ((Tier × String) × Nat)) :
    Hits graph (accounts.flatMap fun account =>
      match chosen[account.2 % chosen.length]? with
      | some entNum => seedAccount P account.1.1 account.1.2 entNum
      | none => []) := by
  induction accounts generalizing graph with
  | nil => trivial
  | cons account rest inductionHypothesis =>
      rw [List.flatMap_cons]
      apply hits_append
      · split
        · next entNum drawn => exact hits_seedAccount _ _ (loaded entNum (List.mem_of_getElem? drawn))
        · trivial
      · exact inductionHypothesis fun entNum member => (le_execute _).1 _ (loaded entNum member)

theorem hits_loadEntities (slices : List (List SdnRow)) : Hits graph (slices.map Statement.mergeEntities) := by
  induction slices generalizing graph with
  | nil => trivial
  | cons batch rest inductionHypothesis =>
      exact ⟨fun vertex needed => (List.not_mem_nil needed).elim, inductionHypothesis⟩

/-- A run of the loader finds every node that it looks for. -/
theorem hits_loader (P : Platform) (sampler : Sampler) (records : List (List PyStr)) :
    Hits graph (loaderStatements P sampler records) := by
  apply hits_append (hits_loadEntities _)
  apply hits_seeds
  intro entNum drawn
  rcases List.mem_map.mp (sampler.draw_subset _ _ _ drawn) with ⟨row, own, rfl⟩
  have positive : 0 < 2000 := by decide
  rw [← flatten_batches positive (readSdnRows records)] at own
  rcases List.mem_flatten.mp own with ⟨batch, sent, inside⟩
  have settled := @settled_of_hits graph _ (hits_loadEntities (batches 2000 (readSdnRows records)))
    (.mergeEntities batch) (List.mem_map.mpr ⟨batch, sent, rfl⟩)
  exact settled.nodes _ (List.mem_map.mpr ⟨row, inside, rfl⟩)

/-- After a complete run its statements are settled, whatever else is sent. -/
theorem settled_of_complete {sampler : Sampler} {records : List (List PyStr)} {history : List Statement}
    (complete : (loaderStatements P sampler records).Sublist history) :
    ∀ statement ∈ loaderStatements P sampler records, Settled (empty.execute history) statement := by
  intro statement member
  have own := @settled_of_hits empty _ (hits_loader P sampler records) statement member
  exact own.mono (grows_run.run_le_of_sublist complete (le_refl empty))

/-! ## The links of an account -/

/-- A settled chain is as long as its proxies are many, and one more. -/
theorem reaches_chain {source : Vertex} {proxies : List String} {entNum : PyStr}
    (settled : ∀ statement ∈ chain source proxies entNum, Settled graph statement)
    (inner : source.isEntity = false) (apart : (source :: proxies.map Vertex.proxy).Nodup) :
    Hops.Reaches graph.transactedWith Vertex.isEntity source (proxies.length + 1) := by
  induction proxies generalizing source with
  | nil =>
      have linked := (settled _ List.mem_cons_self).links (List.mem_singleton_self (source, Vertex.entity entNum))
      refine Hops.adj_reaches (Hops.adj_graphOf.mpr ⟨?_, Or.inl linked⟩) ⟨.entity entNum, rfl, .nil, rfl⟩
      rintro rfl
      cases inner
  | cons proxy rest inductionHypothesis =>
      have linked := (settled _ List.mem_cons_self).links (List.mem_singleton_self (source, Vertex.proxy proxy))
      rw [List.map_cons, List.nodup_cons] at apart
      refine Hops.adj_reaches (Hops.adj_graphOf.mpr ⟨?_, Or.inl linked⟩) (inductionHypothesis ?_ rfl apart.2)
      · rintro rfl
        exact apart.1 List.mem_cons_self
      · exact fun statement member => settled statement (List.mem_cons_of_mem _ member)

/-- The tiers are one to three hops away, over proxies that differ. -/
theorem tiers_wellFormed : ∀ tier ∈ DEMO_TIERS,
    (1 ≤ tier.hops ∧ tier.hops ≤ 3) ∧ tier.proxyIds.length + 1 = tier.hops ∧ tier.proxyIds.Nodup := by
  decide

theorem tier_of_mem {tier : Tier} {accountId : String} (member : (tier, accountId) ∈ demoAccounts) :
    tier ∈ DEMO_TIERS := by
  rcases List.mem_flatMap.mp member with ⟨own, listed, pairs⟩
  rcases List.mem_map.mp pairs with ⟨i, -, same⟩
  cases same
  exact listed

/-- Over a list that is not empty, a run seeds every demo account. -/
theorem seeded (P : Platform) (sampler : Sampler) {records : List (List PyStr)}
    (listed : readSdnRows records ≠ []) {tier : Tier} {accountId : String}
    (member : (tier, accountId) ∈ demoAccounts) :
    ∃ entNum, seedAccount P tier accountId entNum ⊆ loaderStatements P sampler records := by
  have count := sampler.draw_length ((readSdnRows records).map SdnRow.entNum) (min 12 (readSdnRows records).length)
    (by rw [List.length_map]; exact Nat.min_le_right _ _)
  have filled : 0 < min 12 (readSdnRows records).length :=
    Nat.lt_min.mpr ⟨by decide, List.length_pos_of_ne_nil listed⟩
  rw [← count] at filled
  rcases List.mem_iff_getElem.mp member with ⟨idx, within, here⟩
  rcases (⟨_, List.getElem?_eq_getElem (Nat.mod_lt idx filled)⟩ : ∃ entNum, _ = some entNum) with ⟨entNum, drawn⟩
  refine ⟨entNum, ?_⟩
  intro statement own
  apply List.mem_append_right
  refine List.mem_flatMap.mpr ⟨((tier, accountId), idx), ?_, ?_⟩
  · rw [List.mem_zipIdx_iff_getElem?, List.getElem?_eq_getElem within, here]
  · dsimp only
    rw [drawn]
    exact own

/-- A complete run leaves every demo account with its links. -/
theorem reaches_of_complete {sampler : Sampler} {records : List (List PyStr)} {history : List Statement}
    (listed : readSdnRows records ≠ []) (complete : (loaderStatements P sampler records).Sublist history)
    {tier : Tier} {accountId : String} (member : (tier, accountId) ∈ demoAccounts) :
    (empty.execute history).has (.account (accountHash P accountId)) = true ∧
      Hops.Reaches (empty.execute history).transactedWith Vertex.isEntity (.account (accountHash P accountId))
        tier.hops := by
  rcases seeded P sampler listed member with ⟨entNum, part⟩
  rcases tiers_wellFormed tier (tier_of_mem member) with ⟨-, count, distinct⟩
  have settled : ∀ statement ∈ seedAccount P tier accountId entNum, Settled (empty.execute history) statement :=
    fun statement own => settled_of_complete complete statement (part own)
  refine ⟨(settled _ List.mem_cons_self).nodes _ (List.mem_singleton_self _), ?_⟩
  rw [← count]
  apply reaches_chain (fun statement own => settled statement (List.mem_cons_of_mem _ own)) rfl
  rw [List.nodup_cons]
  exact ⟨by simp, distinct.map fun _ _ same => Vertex.proxy.inj same⟩

/-! ## Levels -/

/-- The level of a proxy: how many links of its tier are left. -/
def proxyLevel (id : String) : Nat :=
  ((DEMO_TIERS.flatMap fun tier => tier.proxyIds.zip (List.range' 1 tier.proxyIds.length).reverse).find? fun entry =>
    decide (entry.1 = id)).elim 9 Prod.snd

/-- The distance to the list that the tiers assign to a node, and nine where they assign none. -/
def level (P : Platform) : Vertex -> Nat
  | .entity _ => 0
  | .account hash => (tierHops P hash).getD 9
  | .proxy id => proxyLevel id

theorem proxyLevel_of_tier : ∀ tier ∈ DEMO_TIERS,
    tier.proxyIds.map proxyLevel = (List.range' 1 tier.proxyIds.length).reverse := by
  decide

/-- The hops of a hash are those of a tier that lists it. -/
theorem tierHops_eq_some {P : Platform} {hash : PyStr} {hops : Nat} (found : tierHops P hash = some hops) :
    ∃ account ∈ demoAccounts, accountHash P account.2 = hash ∧ account.1.hops = hops := by
  have least := List.min?_mem found
  rcases List.mem_map.mp least with ⟨account, member, same⟩
  rcases List.mem_filter.mp member with ⟨listed, own⟩
  exact ⟨account, listed, of_decide_eq_true own, same⟩

theorem tierHops_range {P : Platform} {hash : PyStr} {hops : Nat} (found : tierHops P hash = some hops) :
    1 ≤ hops ∧ hops ≤ 3 := by
  rcases tierHops_eq_some found with ⟨account, listed, -, rfl⟩
  exact (tiers_wellFormed account.1 (tier_of_mem listed)).1

/-- A tier that lists an account is an upper bound for its hops. -/
theorem tierHops_le {P : Platform} {tier : Tier} {accountId : String} (member : (tier, accountId) ∈ demoAccounts) :
    ∃ hops, tierHops P (accountHash P accountId) = some hops ∧ hops ≤ tier.hops := by
  have own : tier.hops ∈ ((demoAccounts.filter fun account =>
      decide (accountHash P account.2 = accountHash P accountId)).map fun account => account.1.hops) :=
    List.mem_map.mpr ⟨_, List.mem_filter.mpr ⟨member, decide_eq_true rfl⟩, rfl⟩
  cases found : tierHops P (accountHash P accountId) with
  | none =>
      rw [tierHops, List.min?_eq_none_iff] at found
      rw [found] at own
      cases own
  | some hops => exact ⟨hops, rfl, (List.min?_eq_some_iff.mp found).2 _ own⟩

/-- The links of a chain go down by one, if its first does. -/
theorem level_of_chain {source : Vertex} {proxies : List String} {entNum : PyStr}
    (close : level P source ≤ proxies.length + 1 ∧ proxies.length ≤ level P source + 1)
    (descends : proxies.map proxyLevel = (List.range' 1 proxies.length).reverse) :
    ∀ statement ∈ chain source proxies entNum, ∀ edge ∈ statement.links,
      level P edge.1 ≤ level P edge.2 + 1 ∧ level P edge.2 ≤ level P edge.1 + 1 := by
  induction proxies generalizing source with
  | nil =>
      intro statement member edge linked
      rw [List.mem_singleton.mp member] at linked
      rw [List.mem_singleton.mp linked]
      exact ⟨close.1, Nat.zero_le _⟩
  | cons proxy rest inductionHypothesis =>
      rw [List.length_cons, List.range'_1_concat, List.reverse_concat, List.map_cons] at descends
      rcases List.cons.inj descends with ⟨first, later⟩
      intro statement member edge linked
      rcases List.mem_cons.mp member with rfl | member
      · rw [List.mem_singleton.mp linked]
        rw [List.length_cons] at close
        change level P source ≤ proxyLevel proxy + 1 ∧ proxyLevel proxy ≤ level P source + 1
        omega
      · refine inductionHypothesis ?_ later statement member edge linked
        change proxyLevel proxy ≤ rest.length + 1 ∧ rest.length ≤ proxyLevel proxy + 1
        omega

/-- No statement of the loader links nodes whose levels differ by more than one. -/
theorem level_of_loader {sampler : Sampler} {records : List (List PyStr)} {statement : Statement}
    (sent : statement ∈ loaderStatements P sampler records) :
    ∀ edge ∈ statement.links, level P edge.1 ≤ level P edge.2 + 1 ∧ level P edge.2 ≤ level P edge.1 + 1 := by
  intro edge linked
  rcases List.mem_append.mp sent with batch | seed
  · rcases List.mem_map.mp batch with ⟨rows, -, rfl⟩
    cases linked
  · rcases List.mem_flatMap.mp seed with ⟨⟨⟨tier, accountId⟩, idx⟩, place, own⟩
    have member : (tier, accountId) ∈ demoAccounts := List.mem_of_getElem? (List.mem_zipIdx_iff_getElem?.mp place)
    rcases tiers_wellFormed tier (tier_of_mem member) with ⟨range, count, -⟩
    rcases tierHops_le (P := P) member with ⟨hops, found, least⟩
    have positive := (tierHops_range found).1
    dsimp only at own
    split at own
    · next entNum _ =>
        rcases List.mem_cons.mp own with rfl | own
        · cases linked
        · refine level_of_chain ?_ (proxyLevel_of_tier tier (tier_of_mem member)) statement own edge linked
          rw [level, found, Option.getD_some]
          omega
    · cases own

/-- The levels of a graph that only runs of the loader have written. -/
theorem levels_execute {history : List Statement}
    (sent : ∀ statement ∈ history, ∃ sampler records, statement ∈ loaderStatements P sampler records) :
    Hops.Levels (empty.execute history).transactedWith Vertex.isEntity (level P) := by
  have run : ∀ graph : SanctionsGraph, Hops.Levels graph.transactedWith Vertex.isEntity (level P) ->
      Hops.Levels (graph.execute history).transactedWith Vertex.isEntity (level P) := by
    induction history with
    | nil => exact fun _ levels => levels
    | cons statement rest inductionHypothesis =>
        intro graph levels
        apply inductionHypothesis fun other member => sent other (List.mem_cons_of_mem _ member)
        constructor
        · intro u v linked
          rcases (mem_run_iff _ _).mp linked with kept | ⟨-, own⟩
          · exact levels.edges u v kept
          · rcases sent statement List.mem_cons_self with ⟨sampler, records, member⟩
            exact level_of_loader member (u, v) own
        · exact levels.targets
  apply run
  constructor
  · intro u v linked
    cases linked
  · intro vertex target
    cases vertex with
    | entity entNum => rfl
    | account hash => cases target
    | proxy id => cases target

/-! ## The answer -/

/-- What the tiers say about two hashes: the fewest hops of either. -/
def tierAnswer (P : Platform) (accountHash counterpartyHash : PyStr) : Option Nat :=
  ([accountHash, counterpartyHash].filterMap (tierHops P)).min?

/-- The hops that are found from one hash are those of its tier. -/
theorem hops_of_complete {history : List Statement} {sampler : Sampler} {records : List (List PyStr)}
    (sent : ∀ statement ∈ history, ∃ sampler records, statement ∈ loaderStatements P sampler records)
    (listed : readSdnRows records ≠ []) (complete : (loaderStatements P sampler records).Sublist history)
    (hash : PyStr) : (empty.execute history).hops hash = tierHops P hash := by
  have levels := levels_execute sent
  unfold SanctionsGraph.hops
  cases found : tierHops P hash with
  | none =>
      have far : level P (.account hash) = 9 := by rw [level, found, Option.getD_none]
      split
      · rw [Hops.nearest_eq_none_iff]
        intro hops _ atMost reached
        have bound := levels.le_of_reaches reached
        rw [far] at bound
        have limit : Intent.MAX_HOPS.toNat = 8 := rfl
        omega
      · rfl
  | some hops =>
      have near : level P (.account hash) = hops := by rw [level, found, Option.getD_some]
      have range := tierHops_range found
      rcases tierHops_eq_some found with ⟨⟨tier, accountId⟩, member, rfl, rfl⟩
      rcases reaches_of_complete listed complete member with ⟨own, reaches⟩
      dsimp only at near own reaches ⊢ range
      rw [if_pos own]
      rw [← near] at range reaches ⊢
      exact levels.nearest_eq range.1 (range.2.trans (by decide)) reaches

theorem tierHops_nil : tierHops P [] = none := by
  cases found : tierHops P [] with
  | none => rfl
  | some hops =>
      rcases tierHops_eq_some found with ⟨account, -, hashed, -⟩
      exact (P.sha3Hex_ne_nil _ hashed).elim

/-- Only runs of the loader have written the graph, in any order of their statements and
broken off anywhere, and one run over a list that is not empty has come through. -/
def Loaded (P : Platform) (graph : SanctionsGraph) : Prop :=
  ∃ history sampler records,
    (∀ statement ∈ history, ∃ sampler records, statement ∈ loaderStatements P sampler records) ∧
    readSdnRows records ≠ [] ∧ (loaderStatements P sampler records).Sublist history ∧ graph = empty.execute history

/-- On a loaded graph the client finds the hops of the tiers, and nothing for any other pair
of hashes. -/
theorem answer_of_loaded (loaded : Loaded P graph) (accountHash counterpartyHash : PyStr) :
    graph.answer accountHash counterpartyHash = answerOf (tierAnswer P accountHash counterpartyHash) := by
  rcases loaded with ⟨history, sampler, records, sent, listed, complete, rfl⟩
  have same : (empty.execute history).hops = tierHops P := funext (hops_of_complete sent listed complete)
  have kept : (([accountHash, counterpartyHash].filter fun hash => decide (hash ≠ [])).filterMap (tierHops P)) =
      [accountHash, counterpartyHash].filterMap (tierHops P) := by
    rw [List.filterMap_filter]
    apply List.filterMap_congr
    intro hash _
    by_cases none : hash = []
    · rw [none, tierHops_nil]
      rfl
    · simp [none]
  unfold SanctionsGraph.answer tierAnswer
  rw [same, kept]

theorem Loaded.execute (loaded : Loaded P graph) {statements : List Statement}
    (sent : ∀ statement ∈ statements, ∃ sampler records, statement ∈ loaderStatements P sampler records) :
    Loaded P (graph.execute statements) := by
  rcases loaded with ⟨history, sampler, records, earlier, listed, complete, rfl⟩
  refine ⟨history ++ statements, sampler, records, ?_, listed, complete.trans (List.sublist_append_left ..), ?_⟩
  · intro statement member
    exact (List.mem_append.mp member).elim (earlier statement) (sent statement)
  · exact List.foldl_append.symm

/-- Once a run over a list that is not empty has come through, the client finds the hops of
the tiers, and nothing for any other pair of hashes.  No later statement of any run changes
an answer, and none takes a node or a link away. -/
theorem answer_after_loading (loaded : Loaded P graph) {statements : List Statement}
    (sent : ∀ statement ∈ statements, ∃ sampler records, statement ∈ loaderStatements P sampler records)
    (accountHash counterpartyHash : PyStr) :
    (graph.execute statements).answer accountHash counterpartyHash =
        answerOf (tierAnswer P accountHash counterpartyHash) ∧
      graph ≤ graph.execute statements :=
  ⟨answer_of_loaded (loaded.execute sent) accountHash counterpartyHash, le_execute statements⟩

/-- A list of one entity. -/
def sampleRecords : List (List PyStr) := [["36", "AEROCARIBBEAN AIRLINES", "-0-", "CUBA"].map PyStr.ofString]

/-- A choice of the first entities. -/
def firstSampler : Sampler where
  draw population k := population.take k
  draw_length _ _ le := List.length_take_of_le le
  draw_subset _ _ _ member := List.mem_of_mem_take member

def sampleGraph : SanctionsGraph := empty.execute (loaderStatements samplePlatform firstSampler sampleRecords)

theorem loaded_sampleGraph : Loaded samplePlatform sampleGraph :=
  ⟨_, firstSampler, sampleRecords, fun _ member => ⟨_, _, member⟩, by decide, List.Sublist.refl _, rfl⟩

/-- An account of the third tier, and one of the second on the other side. -/
theorem answer_after_loading_sample :
    (sampleGraph.execute (loaderStatements samplePlatform firstSampler sampleRecords)).answer
        (accountHash samplePlatform "ACC-SANC-FATF-03") (accountHash samplePlatform "ACC-SANC-RBI-01") = .reached 2 ∧
      sampleGraph ≤ sampleGraph.execute (loaderStatements samplePlatform firstSampler sampleRecords) := by
  have found : tierAnswer samplePlatform (accountHash samplePlatform "ACC-SANC-FATF-03")
      (accountHash samplePlatform "ACC-SANC-RBI-01") = some 2 := by
    decide +kernel
  have answered := answer_after_loading loaded_sampleGraph (fun _ member => ⟨firstSampler, sampleRecords, member⟩)
    (accountHash samplePlatform "ACC-SANC-FATF-03") (accountHash samplePlatform "ACC-SANC-RBI-01")
  rwa [found] at answered

/-- A further run over the same list, with the same choice of entities, neither adds nor
takes away a node or a link. -/
theorem rerun_same {history : List Statement} {sampler : Sampler} {records : List (List PyStr)}
    (complete : (loaderStatements P sampler records).Sublist history) :
    let graph := empty.execute history
    let again := graph.execute (loaderStatements P sampler records)
    (∀ vertex, again.has vertex = graph.has vertex) ∧
      ∀ edge, edge ∈ again.transactedWith ↔ edge ∈ graph.transactedWith := by
  intro graph again
  have more : graph ≤ again := le_execute _
  have less : again ≤ graph :=
    grows_run.run_le_of_settled (fun statement member => (settled_of_complete complete statement member).run_le)
      (le_refl _)
  constructor
  · intro vertex
    exact Bool.eq_iff_iff.mpr ⟨less.1 vertex, more.1 vertex⟩
  · intro edge
    exact ⟨fun member => less.2 member, fun member => more.2 member⟩

theorem rerun_same_sample :
    let again := sampleGraph.execute (loaderStatements samplePlatform firstSampler sampleRecords)
    (∀ vertex, again.has vertex = sampleGraph.has vertex) ∧
      ∀ edge, edge ∈ again.transactedWith ↔ edge ∈ sampleGraph.transactedWith :=
  rerun_same (List.Sublist.refl _)

end Screening
end ZeroAudit
