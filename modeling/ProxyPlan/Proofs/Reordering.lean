/-
ProxyPlan.Proofs.Reordering — what depends on the order of nodes and edges.

A graph is given by two lists, and drawing it in another order gives other lists. Where
identities do not repeat, no look at a single node or edge notices (`node?_eq`): they
are found by identity, and an edge is a link, a hop or crosses groups as before.

  · A check collects what it finds node by node and edge by edge, or asks whether
    something is there at all. So what it finds comes in another order and is the same
    otherwise (`issues_perm`). The search for a loop is the one check that depends on
    where it starts: it stops at the first loop it meets, which may be another one. But
    it meets one just when there is one (`Audit.hasCode_loop`), and that is a fact about
    links.
  · A walk takes the best link first, and of equally good links of a node the one that
    is listed first. Where those keep their order, the links of every node are sorted
    alike (`outgoing_eq`), and as inbounds are told apart by their tags, a walk enters
    and goes on as before.
-/
import ProxyPlan.Proofs.Reach
import ProxyPlan.Proofs.Walk

namespace ProxyPlan

/-- The same nodes and edges, listed in another order. -/
structure Graph.Reordered (g g' : Graph) : Prop where
  nodes : g'.nodes.Perm g.nodes
  edges : g'.edges.Perm g.edges

/-- The edges leave the same node with the same priority, so the order of the list decides
between them. -/
def Edge.tiesWith (e e' : Edge) : Bool := e'.source == e.source && e'.priority == e.priority

/-- Edges between which the order of the list decides keep their order. -/
def Graph.KeepsTies (g g' : Graph) : Prop :=
  ∀ e ∈ g.edges, g'.edges.filter e.tiesWith = g.edges.filter e.tiesWith

instance (g g' : Graph) : Decidable (g.KeepsTies g') :=
  inferInstanceAs
    (Decidable (∀ e ∈ g.edges, g'.edges.filter e.tiesWith = g.edges.filter e.tiesWith))

/-- Edges that may precede each other have the same priority. -/
theorem Graph.same_rank (a e : Edge) :
    decide (a.priority ≤ e.priority ∧ e.priority ≤ a.priority) = (e.priority == a.priority) := by
  rw [Bool.eq_iff_iff, decide_eq_true_eq, beq_iff_eq]
  constructor
  · rintro ⟨hae, hea⟩
    exact UInt32.le_antisymm hea hae
  · intro heq
    simp [heq]

namespace Graph.Reordered

variable {g g' : Graph}

/-! ## Nodes and links -/

theorem length_ids (h : g.Reordered g') (hids : (g.nodes.map Placed.id).Nodup) :
    g'.ids.length = g.ids.length := by
  have hperm : (g'.nodes.map Placed.id).Perm (g.nodes.map Placed.id) := h.nodes.map _
  rw [ids, ids, Order.distinct_eq_self hids, Order.distinct_eq_self (hperm.nodup_iff.mpr hids)]
  exact hperm.length_eq

/-- The edges from a node with a given priority stand in the same order. -/
theorem filter_ties (h : g.Reordered g') (hties : g.KeepsTies g') (id : String)
    (priority : UInt32) :
    (g'.edges.filter fun e => e.source == id && e.priority == priority) =
      g.edges.filter fun e => e.source == id && e.priority == priority := by
  by_cases hsome : ∃ e ∈ g.edges, e.source = id ∧ e.priority = priority
  case pos =>
    obtain ⟨e, he, rfl, rfl⟩ := hsome
    exact hties e he
  case neg =>
    have hnone : ∀ e ∈ g.edges, ¬ (e.source == id && e.priority == priority) = true := by
      intro e he htie
      rw [Bool.and_eq_true, beq_iff_eq, beq_iff_eq] at htie
      exact hsome ⟨e, he, htie⟩
    rw [List.filter_eq_nil_iff.mpr hnone,
      List.filter_eq_nil_iff.mpr fun e he => hnone e (h.edges.mem_iff.mp he)]

section

variable (h : g.Reordered g') (hids : (g.nodes.map Placed.id).Nodup)

include h hids

theorem node?_eq : g'.node? = g.node? := by
  funext id
  refine Order.find?_perm h.nodes ?_
  intro n hn m hm hnid hmid
  exact List.inj_on_of_nodup_map hids hn hm
    ((beq_iff_eq.mp hnid).trans (beq_iff_eq.mp hmid).symm)

theorem kind?_eq : g'.kind? = g.kind? := by
  funext id
  rw [kind?, kind?, h.node?_eq hids]

theorem source?_eq : g'.source? = g.source? := by
  funext e
  rw [source?, source?, h.node?_eq hids]

theorem target?_eq : g'.target? = g.target? := by
  funext e
  rw [target?, target?, h.node?_eq hids]

theorem isLink_eq : g'.isLink = g.isLink := by
  funext e
  rw [isLink, isLink, h.source?_eq hids, h.target?_eq hids]

theorem isHop_eq : g'.isHop = g.isHop := by
  funext e
  rw [isHop, isHop, h.kind?_eq hids]

theorem crossesGroups_eq : g'.crossesGroups = g.crossesGroups := by
  funext e
  rw [crossesGroups, crossesGroups, h.source?_eq hids, h.target?_eq hids]

theorem linksThat_perm (test : Edge → Bool) : (g'.linksThat test).Perm (g.linksThat test) := by
  rw [linksThat, linksThat, h.isLink_eq hids]
  exact h.edges.filter _

theorem outgoing_perm (id : String) : (g'.outgoing id).Perm (g.outgoing id) :=
  (byPriority_perm _).trans ((h.linksThat_perm hids _).trans (byPriority_perm _).symm)

theorem incoming_perm (id : String) : (g'.incoming id).Perm (g.incoming id) :=
  (byPriority_perm _).trans ((h.linksThat_perm hids _).trans (byPriority_perm _).symm)

/-- The links of a node are sorted alike if ties are broken alike. -/
theorem outgoing_eq (hties : g.KeepsTies g') : g'.outgoing = g.outgoing := by
  funext id
  rw [outgoing, outgoing, byPriority_eq, byPriority_eq]
  refine Order.insertionSort_congr ?_
  intro a
  -- what a node has of one rank are the links among its edges of one priority
  have hrank : ∀ k : Graph, k.isLink = g.isLink →
      ((k.linksThat fun e => e.source == id).filter fun b =>
        a.priority ≤ b.priority ∧ b.priority ≤ a.priority) =
      (k.edges.filter fun e => e.source == id && e.priority == a.priority).filter g.isLink := by
    intro k hk
    rw [linksThat, hk, List.filter_filter, List.filter_filter]
    refine List.filter_congr ?_
    intro e _
    rw [same_rank]
    ac_rfl
  rw [hrank g' (h.isLink_eq hids), hrank g rfl, h.filter_ties hties]

theorem linksTo_eq : g'.LinksTo = g.LinksTo := by
  funext u v
  simp only [LinksTo, h.edges.mem_iff, h.isLink_eq hids]

theorem joinsLocally_eq : g'.JoinsLocally = g.JoinsLocally := by
  funext u v
  simp only [JoinsLocally, h.edges.mem_iff, h.isLink_eq hids, h.isHop_eq hids]

end

end Graph.Reordered

/-! ## Checks -/

namespace Audit

variable {g g' : Graph}

section

variable {nodes nodes' : List Node} (h : nodes'.Perm nodes)

include h

theorem sharedTags_perm : (sharedTags nodes').Perm (sharedTags nodes) := by
  simp only [sharedTags_eq, h.countP_eq]
  exact h.flatMap_right _

theorem sharedPorts_perm : (sharedPorts nodes').Perm (sharedPorts nodes) := by
  simp only [sharedPorts_eq, h.countP_eq]
  exact h.flatMap_right _

theorem referenceIssues_perm : (referenceIssues nodes').Perm (referenceIssues nodes) := by
  have hunknown : unknownInbounds nodes' = unknownInbounds nodes := by
    funext n
    simp only [unknownInbounds, (h.filterMap _).contains_eq]
  have hidle : idleSelectors nodes' = idleSelectors nodes := by
    funext n
    simp only [idleSelectors, ((h.filter _).filterMap _).any_eq]
  simp only [referenceIssues, hunknown, hidle]
  exact h.flatMap_right _

/-- A test of the nodes that comes out as before picks out the same nodes. -/
theorem atNodes_perm {test test' : Node → Bool} (htest : ∀ n ∈ nodes, test' n = test n)
    (found : String → Finding) : (atNodes nodes' test' found).Perm (atNodes nodes test found) := by
  unfold atNodes
  rw [← List.filter_congr htest]
  exact (h.filter _).map _

end

section

variable (h : g.Reordered g') (hids : (g.nodes.map Placed.id).Nodup)

include h hids

theorem transportsBetweenGroups_perm :
    (transportsBetweenGroups g').Perm (transportsBetweenGroups g) := by
  simp only [transportsBetweenGroups, h.crossesGroups_eq hids]
  exact h.edges.flatMap_right _

theorem danglingEdges_perm : (danglingEdges g').Perm (danglingEdges g) := by
  simp only [danglingEdges, Graph.dangling, h.isLink_eq hids, h.source?_eq hids]
  exact (h.edges.filter _).map _

theorem refusedEdges_perm : (refusedEdges g').Perm (refusedEdges g) := by
  simp only [refusedEdges, h.source?_eq hids, h.target?_eq hids]
  exact h.edges.flatMap_right _

theorem deviceProtocols_perm : (deviceProtocols g').Perm (deviceProtocols g) := by
  simp only [deviceProtocols, h.source?_eq hids, h.target?_eq hids]
  exact h.edges.flatMap_right _

theorem isFed_eq : isFed g' = isFed g := by
  funext id
  simp only [isFed, h.kind?_eq hids, (h.incoming_perm hids id).any_eq]

/-- What is reached is what links lead to, whatever order they are followed in. -/
theorem reachesTerminal_eq {id : String} (hid : id ∈ g.ids) :
    reachesTerminal g' id = reachesTerminal g id := by
  have hid' : id ∈ g'.ids := by
    rwa [← Graph.isSome_node?, h.node?_eq hids, Graph.isSome_node?]
  rw [Bool.eq_iff_iff]
  simp only [reachesTerminal, List.any_eq_true, Graph.mem_reachable hid, Graph.mem_reachable hid',
    h.linksTo_eq hids, h.kind?_eq hids]

/-- Whether there is a loop does not depend on the order, only which one is shown. -/
theorem hasCode_loop_eq : (check g').hasCode "S009" = (check g).hasCode "S009" := by
  rw [Bool.eq_iff_iff, hasCode_loop, hasCode_loop]
  simp only [Graph.OnCycle, h.joinsLocally_eq hids]

/-- All checks but that for loops find the same, in another order. -/
theorem issues_perm : ((issues g').filter fun i => i.code ≠ "S009").Perm
    ((issues g).filter fun i => i.code ≠ "S009") := by
  have hloops : ∀ g : Graph, ((loops g).filter fun i => i.code ≠ "S009") = [] := by
    intro g
    simp only [List.filter_eq_nil_iff, decide_eq_true_eq, not_not]
    intro i hi
    simpa using among_loops g i hi
  have houtgoing : ∀ id, (g'.outgoing id).isEmpty = (g.outgoing id).isEmpty :=
    fun id => (h.outgoing_perm hids id).isEmpty_eq
  have hincoming : ∀ id, (g'.incoming id).isEmpty = (g.incoming id).isEmpty :=
    fun id => (h.incoming_perm hids id).isEmpty_eq
  have hreaches : ∀ n ∈ g.nodes, reachesTerminal g' n.id = reachesTerminal g n.id :=
    fun n hn => reachesTerminal_eq h hids (Graph.mem_ids.mpr ⟨n, hn, rfl⟩)
  simp only [issues_eq_checks, checks, List.flatMap_cons, List.flatMap_nil, List.filter_append,
    hloops, List.nil_append]
  refine ((h.nodes.flatMap_right _).filter _).append ?_
  refine ((transportsBetweenGroups_perm h hids).filter _).append ?_
  refine ((danglingEdges_perm h hids).filter _).append ?_
  refine ((refusedEdges_perm h hids).filter _).append ?_
  refine ((sharedTags_perm h.nodes).filter _).append ?_
  refine ((sharedPorts_perm h.nodes).filter _).append ?_
  refine ((atNodes_perm h.nodes (fun n _ => by rw [houtgoing]) _).filter _).append ?_
  refine ((atNodes_perm h.nodes (fun n _ => by rw [isFed_eq h hids]) _).filter _).append ?_
  refine ((deviceProtocols_perm h hids).filter _).append ?_
  refine ((atNodes_perm h.nodes (fun n _ => by rw [hincoming]) _).filter _).append ?_
  refine ((atNodes_perm h.nodes (fun n _ => by rw [houtgoing]) _).filter _).append ?_
  refine ((atNodes_perm h.nodes (fun n hn => by rw [hreaches n hn]) _).filter _).append ?_
  exact ((referenceIssues_perm h.nodes).filter _).append_right _

end

/-- A graph is valid if there is no loop and nothing else is an error. -/
theorem isValid_iff : (check g).isValid = true ↔ (check g).hasCode "S009" = false ∧
    ∀ i ∈ (issues g).filter (fun i => i.code ≠ "S009"), i.level ≠ .error := by
  constructor
  · intro hvalid
    refine ⟨not_hasCode_of_isValid hvalid fun f => level_of_loop, ?_⟩
    intro i hi
    exact level_ne_of_isValid hvalid (List.mem_filter.mp hi).1
  · rintro ⟨hloop, hothers⟩
    rw [check, Report.isValid, List.isEmpty_iff, Report.ofIssues, List.filter_eq_nil_iff]
    intro i hi
    have hcode := code_ne hloop hi
    simpa using hothers i (List.mem_filter.mpr ⟨hi, decide_eq_true hcode⟩)

/-- The order of nodes and edges has no part in whether a graph is valid, nor in what is
wrong with it; of several loops another one may be shown. -/
theorem check_reordered (h : g.Reordered g') (hids : (g.nodes.map Placed.id).Nodup) :
    (check g').isValid = (check g).isValid ∧
      ((check g').all.filter fun i => i.code ≠ "S009").Perm
        ((check g).all.filter fun i => i.code ≠ "S009") ∧
      (check g').hasCode "S009" = (check g).hasCode "S009" := by
  have hloop := hasCode_loop_eq h hids
  have hothers := issues_perm h hids
  refine ⟨?valid, ?others, hloop⟩
  case valid =>
    rw [Bool.eq_iff_iff, isValid_iff, isValid_iff, hloop]
    simp only [hothers.mem_iff]
  case others =>
    exact ((all_perm _).filter _).trans (hothers.trans ((all_perm _).filter _).symm)

/-- Two rules with one tag that lead to each other, and on to a balancer. -/
def tangle : Graph where
  nodes := [
    ⟨"in", .origin, .inbound ⟨"office", .socks, "", 1080, none, [], none, none⟩, none⟩,
    ⟨"a", .origin, .routing ⟨"rule", .none⟩, none⟩,
    ⟨"b", .origin, .routing ⟨"rule", .none⟩, none⟩,
    ⟨"pool", .origin, .balancer ⟨"pool", .random, ["direct", "o", "lost"]⟩, none⟩,
    ⟨"direct", .origin, .terminal ⟨"direct", .freedom⟩, none⟩,
    ⟨"out", .origin, .proxy ⟨"out", .socks, "192.0.2.2", 1080, none, none, none, none⟩, none⟩]
  edges := [
    ⟨"1", "in", "direct", .plain, none⟩,
    ⟨"2", "in", "a", .conditional, some ⟨some 5, none, none⟩⟩,
    ⟨"3", "a", "b", .plain, none⟩, ⟨"4", "b", "pool", .plain, none⟩,
    ⟨"5", "b", "a", .plain, none⟩, ⟨"6", "pool", "direct", .plain, none⟩,
    ⟨"7", "pool", "out", .plain, none⟩, ⟨"8", "out", "gone", .plain, none⟩]

/-- The graph drawn from its end: the loop is met at the other rule. -/
def tangleReversed : Graph := ⟨tangle.nodes.reverse, tangle.edges.reverse⟩

theorem check_reordered_tangle :
    tangle.Reordered tangleReversed ∧ (tangle.nodes.map Placed.id).Nodup ∧
      (loops tangle).map Issue.node = [some "a"] ∧
      (loops tangleReversed).map Issue.node = [some "b"] ∧
      (check tangleReversed).isValid = (check tangle).isValid ∧
      ((check tangleReversed).all.filter fun i => i.code ≠ "S009").Perm
        ((check tangle).all.filter fun i => i.code ≠ "S009") ∧
      (check tangleReversed).hasCode "S009" = (check tangle).hasCode "S009" := by
  have hreordered : tangle.Reordered tangleReversed :=
    ⟨List.reverse_perm _, List.reverse_perm _⟩
  have hids : (tangle.nodes.map Placed.id).Nodup := by decide
  exact ⟨hreordered, hids, by decide +kernel, by decide +kernel, check_reordered hreordered hids⟩

end Audit

/-! ## Walks -/

namespace Trace

variable {g g' : Graph} {pick : Picker} {r : Request}

/-- Inbounds that are told apart by their tags are entered alike. -/
theorem entrance?_reordered (h : g.Reordered g') (htags : DistinctInbounds g.nodes) :
    entrance? g' r = entrance? g r := by
  refine Order.find?_perm h.nodes ?_
  intro n hn m hm hentry hentry'
  simp only [Option.any_eq_true, beq_iff_eq] at hentry hentry'
  obtain ⟨c, hc, htag⟩ := hentry
  obtain ⟨d, hd, htag'⟩ := hentry'
  exact htags.eq hn hm hc hd (htag.trans htag'.symm)

/-- The order of nodes and edges has no part in a trace, except among edges that leave the
same node with the same priority. -/
theorem run_reordered [Rule.Patterns] (h : g.Reordered g') (hids : (g.nodes.map Placed.id).Nodup)
    (htags : DistinctInbounds g.nodes) (hties : g.KeepsTies g') (pick : Picker)
    (calls : List Nat) (r : Request) : run g' pick calls r = run g pick calls r := by
  have hexits : ∀ id, exits g' id = exits g id := by
    intro id
    rw [exits, exits, h.outgoing_eq hids hties, h.target?_eq hids]
  exact run_congr hexits (entrance?_reordered h htags) (h.length_ids hids) calls

open Audit (tangle)

/-- The graph in another order; the links of `b` and those of `pool` keep theirs. -/
def tangleMixed : Graph where
  nodes := tangle.nodes.reverse
  edges := [7, 3, 5, 2, 1, 4, 6, 0].filterMap fun i => tangle.edges[i]?

attribute [local instance] Rule.Patterns.empty

theorem run_reordered_tangle :
    tangle.Reordered tangleMixed ∧ (tangle.nodes.map Placed.id).Nodup ∧
      DistinctInbounds tangle.nodes ∧ tangle.KeepsTies tangleMixed ∧
      (run tangle (listPicker [1]) [] ⟨"example.com", "tcp", 443, "office"⟩).edgeIds =
        ["2", "3", "4", "7"] ∧
      run tangleMixed (listPicker [1]) [] ⟨"example.com", "tcp", 443, "office"⟩ =
        run tangle (listPicker [1]) [] ⟨"example.com", "tcp", 443, "office"⟩ := by
  have hreordered : tangle.Reordered tangleMixed := by
    refine ⟨List.reverse_perm _, ?_⟩
    decide
  have hids : (tangle.nodes.map Placed.id).Nodup := by decide
  have htags : DistinctInbounds tangle.nodes := by
    unfold DistinctInbounds
    decide
  have hties : tangle.KeepsTies tangleMixed := by decide
  exact ⟨hreordered, hids, htags, hties, by decide +kernel,
    run_reordered hreordered hids htags hties _ _ _⟩

end Trace
end ProxyPlan
