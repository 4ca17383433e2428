/-
ProxyPlan.Proofs.Partition — a topology is cut into groups without loss.

The groups of a topology are given by their keys: the servers that nodes are
assigned to, each in its place (`groupKeys`). The group of a key holds all nodes
with that key and all edges between them, whether it comes from the list of
groups or is the whole topology (`map_groups`). Everything else is read off this
list. An edge is left behind just when it has no node at one end or joins nodes of
two groups (`mem_edges_iff`).

How often a node is compiled is the number of times its key is in that list
(`count_nodes`). A key that no server record names is there once, whatever the
nodes are like. The records are taken as they are listed, so a server that is
listed twice has two groups with the same members, and two documents
(`compile_twice`); if no server with nodes is, every node is compiled into one
document and once (`compile_once`).
-/
import Mathlib.Data.List.Perm.Basic
import ProxyPlan.Audit.Report
import ProxyPlan.Proofs.Locality
import ProxyPlan.Proofs.TopologyFormat

namespace ProxyPlan

namespace Graph

variable {g : Graph} {key : Option String}

theorem isIn_iff {id : String} :
    g.isIn key id = true ↔ ∃ n, g.node? id = some n ∧ n.group = key := by
  simp [isIn, Option.any_eq_true]

/-- Without servers all links are inside the group of no server. -/
theorem links_eq_inside (h : ∀ n ∈ g.nodes, n.group = none) : g.links = g.inside none := by
  have hisIn : ∀ id, g.isIn none id = (g.node? id).isSome := by
    intro id
    rw [isIn]
    cases hn : g.node? id with
    | none => rfl
    | some n => simpa using h n (node?_mem hn)
  refine List.filter_congr fun e _ => ?_
  rw [isLink, source?, target?, hisIn, hisIn]

end Graph

namespace Compile

variable {t : Topology} {key : Option String}

/-! ## Keys of groups -/

/-- Some node is assigned to the server, or to none. -/
def inhabited (nodes : List Node) (key : Option String) : Bool :=
  nodes.any fun n => n.group = key

/-- The keys of the groups of a topology, in their order. Without nodes there is one
group all the same. -/
def groupKeys (t : Topology) : List (Option String) :=
  if t.nodes.isEmpty then [none]
  else (groupOrder t.nodes t.servers).filter (inhabited t.nodes)

theorem inhabited_iff {nodes : List Node} :
    inhabited nodes key = true ↔ ∃ n ∈ nodes, n.group = key := by
  simp [inhabited]

theorem inhabited_of_mem {nodes : List Node} {n : Node} (hn : n ∈ nodes) :
    inhabited nodes n.group = true := inhabited_iff.mpr ⟨n, hn, rfl⟩

theorem isEmpty_members (nodes : List Node) (key : Option String) :
    (members nodes key).isEmpty = !inhabited nodes key := by
  rw [Bool.eq_iff_iff]
  simp [members, inhabited, List.filter_eq_nil_iff]

theorem mem_groupOrder {n : Node} (hn : n ∈ t.nodes) : n.group ∈ groupOrder t.nodes t.servers := by
  rw [groupOrder, List.mem_append]
  cases hgroup : n.group with
  | none => exact .inr (by simp)
  | some id =>
    have hnamed : id ∈ t.nodes.filterMap Node.group := List.mem_filterMap.mpr ⟨n, hn, hgroup⟩
    refine .inl (List.mem_map_of_mem ?_)
    rw [List.mem_append, Order.mem_firsts]
    by_cases hlisted : id ∈ t.servers.map Server.id
    · exact .inl hlisted
    · exact .inr ⟨hnamed, hlisted⟩

theorem mem_groupKeys {n : Node} (hn : n ∈ t.nodes) : n.group ∈ groupKeys t := by
  have hnodes : t.nodes.isEmpty = false := by simpa using List.ne_nil_of_mem hn
  rw [groupKeys, hnodes, if_neg (by simp), List.mem_filter]
  exact ⟨mem_groupOrder hn, inhabited_of_mem hn⟩

/-- Listed servers come first, as they are listed; then servers that only nodes name, as
they are first named; then the nodes without a server. -/
theorem groupKeys_eq (t : Topology) : groupKeys t =
    ((t.servers.map Server.id).filter (fun id => inhabited t.nodes (some id)) ++
      ((t.nodes.filterMap Node.group).filter
        fun id => id ∉ t.servers.map Server.id).eraseDups).map some ++
    if t.nodes.isEmpty || inhabited t.nodes none then [none] else [] := by
  rw [groupKeys, groupOrder, Order.firsts_eq_eraseDups]
  cases hnodes : t.nodes with
  | nil => simp [inhabited]
  | cons n rest =>
    rw [← hnodes]
    have hempty : t.nodes.isEmpty = false := by simp [hnodes]
    have hnamed : ∀ id ∈ ((t.nodes.filterMap Node.group).filter
        fun id => id ∉ t.servers.map Server.id).eraseDups, inhabited t.nodes (some id) = true := by
      intro id hid
      rw [← Order.firsts_eq_eraseDups, Order.mem_firsts] at hid
      exact inhabited_iff.mpr (List.mem_filterMap.mp hid.1)
    rw [hempty, if_neg (by simp), Bool.false_or, List.filter_append, List.filter_map,
      List.filter_append]
    congr 1
    · congr 2
      exact List.filter_eq_self.mpr hnamed
    · cases hnone : inhabited t.nodes none <;> simp [hnone]

/-! ## Contents of groups -/

/-- A group apart from its name. -/
def Group.content (g : Group) : Option String × List Node × List Edge :=
  (g.server, g.nodes, g.edges)

theorem map_groupsOf (nodes : List Node) (edges : List Edge) (servers : List Server)
    (taken : List FileName) (keys : List (Option String)) :
    (groupsOf nodes edges servers taken keys).map Group.content =
      (keys.filter (inhabited nodes)).map fun key =>
        (key, members nodes key, innerEdges nodes edges key) := by
  induction keys generalizing taken with
  | nil => rfl
  | cons key rest ih =>
    simp only [groupsOf, isEmpty_members, List.filter_cons]
    cases inhabited nodes key with
    | false => simpa using ih taken
    | true => simpa [Group.content] using ih _

/-- Every node is in a group, even if its identity is repeated. -/
theorem exists_mem_groups {n : Node} (hn : n ∈ t.nodes) : ∃ g ∈ groups t, n ∈ g.nodes := by
  unfold groups
  split
  · exact ⟨_, List.mem_singleton.mpr rfl, hn⟩
  · have hkey : n.group ∈ (groupOrder t.nodes t.servers).filter (inhabited t.nodes) :=
      List.mem_filter.mpr ⟨mem_groupOrder hn, inhabited_of_mem hn⟩
    have hcontent : (n.group, members t.nodes n.group, innerEdges t.nodes t.edges n.group) ∈
        (groupsOf t.nodes t.edges t.servers [] (groupOrder t.nodes t.servers)).map
          Group.content := by
      rw [map_groupsOf]
      exact List.mem_map.mpr ⟨n.group, hkey, rfl⟩
    obtain ⟨g, hg, hgroup⟩ := List.mem_map.mp hcontent
    have hnodes : g.nodes = members t.nodes n.group := congrArg (fun c => c.2.1) hgroup
    exact ⟨g, hg, hnodes ▸ List.mem_filter.mpr ⟨hn, decide_eq_true rfl⟩⟩

theorem groupKeys_ungrouped (h : ∀ n ∈ t.nodes, n.group = none) : groupKeys t = [none] := by
  have hnamed : t.nodes.filterMap Node.group = [] := List.filterMap_eq_nil_iff.mpr h
  have hlisted : (t.servers.map Server.id).filter
      (fun id => inhabited t.nodes (some id)) = [] := by
    refine List.filter_eq_nil_iff.mpr fun id _ hid => ?_
    obtain ⟨n, hn, hgroup⟩ := inhabited_iff.mp hid
    rw [h n hn] at hgroup
    cases hgroup
  have hlast : (t.nodes.isEmpty || inhabited t.nodes none) = true := by
    cases hnodes : t.nodes with
    | nil => rfl
    | cons n rest => simp [inhabited, h n (by simp [hnodes])]
  rw [groupKeys_eq, hlisted, hnamed, hlast]
  rfl

/-- Every group holds the nodes of its key and the edges between them. -/
theorem map_groups (hids : (t.nodes.map Placed.id).Nodup) :
    (groups t).map Group.content =
      (groupKeys t).map fun key => (key, members t.nodes key, t.graph.inside key) := by
  -- without servers the keys are not looked at: the whole topology is the one group
  by_cases hungrouped : ∀ n ∈ t.nodes, n.group = none
  case pos =>
    have hmembers : members t.nodes none = t.nodes :=
      List.filter_eq_self.mpr fun n hn => decide_eq_true (hungrouped n hn)
    rw [groups_ungrouped hungrouped, groupKeys_ungrouped hungrouped,
      Graph.links_eq_inside (g := t.graph) hungrouped]
    simp only [List.map_cons, List.map_nil, Group.content, hmembers]
  case neg =>
    obtain ⟨n, hn, hgroup⟩ : ∃ n ∈ t.nodes, n.group ≠ none := by simpa using hungrouped
    have hnodes : t.nodes.isEmpty = false := List.isEmpty_eq_false_iff.mpr (List.ne_nil_of_mem hn)
    have hinner : innerEdges t.nodes t.edges = t.graph.inside := by
      funext key
      exact innerEdges_eq (g := t.graph) hids
    rw [groups_grouped hn hgroup, map_groupsOf, groupKeys, hnodes, if_neg (by simp), hinner]

section

variable (hids : (t.nodes.map Placed.id).Nodup) {g : Group}

include hids

theorem servers_groups : (groups t).map Group.server = groupKeys t := by
  have hcontent := congrArg (List.map Prod.fst) (map_groups hids)
  simpa [List.map_map, Function.comp_def, Group.content] using hcontent

theorem content_of_mem_groups (hg : g ∈ groups t) :
    g.server ∈ groupKeys t ∧ g.nodes = members t.nodes g.server ∧
      g.edges = t.graph.inside g.server := by
  have hmem : g.content ∈ (groupKeys t).map fun key =>
      (key, members t.nodes key, t.graph.inside key) :=
    map_groups hids ▸ List.mem_map_of_mem hg
  obtain ⟨key, hkey, hcontent⟩ := List.mem_map.mp hmem
  simp only [Group.content, Prod.mk.injEq] at hcontent
  obtain ⟨rfl, hnodes, hedges⟩ := hcontent
  exact ⟨hkey, hnodes.symm, hedges.symm⟩

/-- Every node is in a group. -/
theorem exists_group {n : Node} (hn : n ∈ t.nodes) : ∃ g ∈ groups t, g.server = n.group := by
  have hkey := mem_groupKeys hn
  rw [← servers_groups hids] at hkey
  exact List.mem_map.mp hkey

theorem mem_nodes_iff (hg : g ∈ groups t) {n : Node} :
    n ∈ g.nodes ↔ n ∈ t.nodes ∧ n.group = g.server := by
  rw [(content_of_mem_groups hids hg).2.1, members, List.mem_filter, decide_eq_true_eq]

theorem isIn_iff_mem {id : String} :
    t.graph.isIn key id = true ↔ id ∈ (members t.nodes key).map Placed.id := by
  constructor
  · intro hin
    obtain ⟨n, hn, hgroup⟩ := Graph.isIn_iff.mp hin
    have hmember : n ∈ members t.nodes key :=
      List.mem_filter.mpr ⟨Graph.node?_mem hn, decide_eq_true hgroup⟩
    exact List.mem_map.mpr ⟨n, hmember, Graph.node?_id hn⟩
  · intro hmem
    obtain ⟨n, hn, rfl⟩ := List.mem_map.mp hmem
    exact Graph.isIn_of_mem (g := t.graph) hids hn

/-- The edges of a group are those between its nodes. -/
theorem edges_of_mem_groups (hg : g ∈ groups t) :
    g.edges = t.edges.filter fun e =>
      e.source ∈ g.nodes.map Placed.id ∧ e.target ∈ g.nodes.map Placed.id := by
  obtain ⟨-, hnodes, hedges⟩ := content_of_mem_groups hids hg
  rw [hedges, hnodes]
  refine List.filter_congr fun e _ => ?_
  rw [Bool.eq_iff_iff, Bool.and_eq_true, isIn_iff_mem hids, isIn_iff_mem hids, decide_eq_true_eq]

/-- An edge is in a group unless it lacks a node or leads from one group to another. -/
theorem mem_edges_iff {e : Edge} (he : e ∈ t.edges) :
    (∃ g ∈ groups t, e ∈ g.edges) ↔
      t.graph.isLink e = true ∧ t.graph.crossesGroups e = false := by
  constructor
  · rintro ⟨g, hg, hmem⟩
    rw [(content_of_mem_groups hids hg).2.2, Graph.inside, List.mem_filter, Bool.and_eq_true,
      Graph.isIn_iff, Graph.isIn_iff] at hmem
    obtain ⟨-, ⟨s, hs, hsgroup⟩, d, hd, hdgroup⟩ := hmem
    have hsame : s.group = d.group := hsgroup.trans hdgroup.symm
    simp [Graph.isLink, Graph.crossesGroups, Graph.source?, Graph.target?, hs, hd, hsame]
  · rintro ⟨hlink, hcrosses⟩
    obtain ⟨s, d, hs, hd⟩ := Graph.isLink_iff_ends.mp hlink
    have hsame : s.group = d.group := by
      simpa [Graph.crossesGroups, hs, hd] using hcrosses
    obtain ⟨g, hg, hserver⟩ := exists_group hids (Graph.node?_mem hs)
    refine ⟨g, hg, ?_⟩
    rw [(content_of_mem_groups hids hg).2.2, hserver, Graph.inside, List.mem_filter,
      Bool.and_eq_true, Graph.isIn_iff, Graph.isIn_iff]
    exact ⟨he, ⟨s, hs, rfl⟩, d, hd, hsame.symm⟩

end

/-- Nothing is lost between groups. A group has the nodes of its server and the edges
between them, in the order of the topology; every node is in a group; an edge is in
one unless it lacks a node or leads from one group to another; and the groups stand
in the order of the server records, then of the other servers as nodes first name
them, then of the nodes without a server. -/
theorem groups_lossless (hids : (t.nodes.map Placed.id).Nodup) :
    (∀ g ∈ groups t,
      g.nodes = t.nodes.filter (fun n => n.group = g.server) ∧
      g.edges = t.edges.filter fun e =>
        e.source ∈ g.nodes.map Placed.id ∧ e.target ∈ g.nodes.map Placed.id) ∧
    (∀ n ∈ t.nodes, ∃ g ∈ groups t, n ∈ g.nodes) ∧
    (∀ e ∈ t.edges, (∃ g ∈ groups t, e ∈ g.edges) ↔
      t.graph.isLink e = true ∧ t.graph.crossesGroups e = false) ∧
    (groups t).map Group.server =
      ((t.servers.map Server.id).filter (fun id => t.nodes.any fun n => n.group = some id) ++
        ((t.nodes.filterMap Node.group).filter
          fun id => id ∉ t.servers.map Server.id).eraseDups).map some ++
      if t.nodes.isEmpty || t.nodes.any (fun n => n.group = none) then [none] else [] := by
  refine ⟨fun g hg => ⟨(content_of_mem_groups hids hg).2.1, edges_of_mem_groups hids hg⟩,
    fun n hn => ?_, fun e he => mem_edges_iff hids he, ?_⟩
  · obtain ⟨g, hg, hserver⟩ := exists_group hids hn
    exact ⟨g, hg, (mem_nodes_iff hids hg).mpr ⟨hn, hserver.symm⟩⟩
  · rw [servers_groups hids, groupKeys_eq]
    rfl

/-- Nodes on a server that is listed, on one that is not, and on none, with an edge that
is kept, one that crosses and one that leads nowhere. -/
def scattered : Topology where
  nodes := [
    ⟨"exit", .origin, .terminal ⟨"exit", .freedom⟩, some "away"⟩,
    ⟨"in", .origin, .inbound ⟨"in", .socks, "", 1080, none, [], none, none⟩, some "home"⟩,
    ⟨"laptop", .origin, .device ⟨"Laptop", .socks⟩, some ""⟩,
    ⟨"direct", .origin, .terminal ⟨"direct", .freedom⟩, some "home"⟩]
  edges := [⟨"a", "laptop", "in", .plain, none⟩, ⟨"b", "in", "direct", .plain, none⟩,
    ⟨"c", "in", "nowhere", .plain, none⟩]
  servers := [⟨"home", "Home", "192.0.2.1", none⟩, ⟨"spare", "Spare", "", none⟩,
    ⟨"", "Unnamed", "", none⟩]

theorem groups_lossless_scattered :
    (scattered.nodes.map Placed.id).Nodup ∧
      (groups scattered).map Group.server = [some "home", some "away", none] ∧
      ∃ g ∈ groups scattered, (⟨"b", "in", "direct", .plain, none⟩ : Edge) ∈ g.edges := by
  have hids : (scattered.nodes.map Placed.id).Nodup := by decide
  obtain ⟨-, -, hkept, hservers⟩ := groups_lossless hids
  refine ⟨hids, ?_, (hkept _ (by decide)).mpr (by decide +kernel)⟩
  rw [hservers]
  decide +kernel

/-! ## How often a node is compiled -/

/-- A topology lists no server twice that has nodes. -/
def ListsOnce (t : Topology) : Prop :=
  ∀ n ∈ t.nodes, ∀ id, n.group = some id → (t.servers.map Server.id).count id ≤ 1

/-- A node is among the members of its own key, and of no other. -/
theorem count_members (nodes : List Node) (keys : List (Option String)) (n : Node) :
    (keys.flatMap (members nodes)).count n = keys.count n.group * nodes.count n := by
  induction keys with
  | nil => simp
  | cons key rest ih =>
    rw [List.flatMap_cons, List.count_append, ih]
    by_cases hkey : n.group = key
    · subst hkey
      rw [members, List.count_filter (by simp), List.count_cons_self, Nat.add_mul, Nat.one_mul,
        Nat.add_comm]
    · have hnot : n ∉ members nodes key := by simp [members, hkey]
      rw [List.count_eq_zero_of_not_mem hnot, List.count_cons_of_ne (Ne.symm hkey), Nat.zero_add]

theorem count_groupKeys {n : Node} (hn : n ∈ t.nodes) :
    (groupKeys t).count n.group = (groupOrder t.nodes t.servers).count n.group := by
  have hnodes : t.nodes.isEmpty = false := by simpa using List.ne_nil_of_mem hn
  rw [groupKeys, hnodes, if_neg (by simp), List.count_filter (inhabited_of_mem hn)]

theorem count_groupOrder_none (nodes : List Node) (servers : List Server) :
    (groupOrder nodes servers).count none = 1 := by
  have hnone : ∀ ids : List String, (ids.map some).count none = 0 := fun ids =>
    List.count_eq_zero_of_not_mem (by simp)
  rw [groupOrder, List.count_append, hnone]
  rfl

/-- No key has two groups just when no server with nodes is listed twice. -/
theorem groupKeys_nodup : (groupKeys t).Nodup ↔ ListsOnce t := by
  constructor
  · intro hnodup n hn id hgroup
    have hcount := List.nodup_iff_count_le_one.mp hnodup n.group
    rw [count_groupKeys hn, hgroup, count_groupOrder hn hgroup] at hcount
    omega
  · intro honce
    by_cases hnodes : t.nodes.isEmpty = true
    · rw [groupKeys, if_pos hnodes]
      exact List.nodup_singleton none
    · rw [groupKeys, if_neg hnodes, List.nodup_iff_count_le_one]
      intro key
      by_cases hkey : inhabited t.nodes key = true
      · obtain ⟨n, hn, rfl⟩ := inhabited_iff.mp hkey
        rw [List.count_filter hkey]
        cases hgroup : n.group with
        | none => exact Nat.le_of_eq (count_groupOrder_none _ _)
        | some id =>
          rw [count_groupOrder hn hgroup]
          exact Nat.max_le.mpr ⟨Nat.le_refl 1, honce n hn id hgroup⟩
      · rw [List.count_eq_zero_of_not_mem fun hmem => hkey (List.mem_filter.mp hmem).2]
        exact Nat.zero_le 1

/-- In all groups together a node stands as often as its key is listed. -/
theorem count_nodes (hids : (t.nodes.map Placed.id).Nodup) (n : Node) :
    ((groups t).flatMap Group.nodes).count n = (groupKeys t).count n.group * t.nodes.count n := by
  have hnodes : (groups t).flatMap Group.nodes = (groupKeys t).flatMap (members t.nodes) := by
    rw [← servers_groups hids, List.flatMap_map]
    exact List.flatMap_congr fun g hg => (content_of_mem_groups hids hg).2.1
  rw [hnodes, count_members]

/-- If no server with nodes is listed twice, the groups divide the nodes among them. -/
theorem nodes_perm (hids : (t.nodes.map Placed.id).Nodup) (honce : ListsOnce t) :
    ((groups t).flatMap Group.nodes).Perm t.nodes := by
  rw [List.perm_iff_count]
  intro n
  rw [count_nodes hids]
  -- a node that is listed has a key, and no key is listed twice
  by_cases hn : n ∈ t.nodes
  · rw [List.count_eq_one_of_mem (groupKeys_nodup.mpr honce) (mem_groupKeys hn), Nat.one_mul]
  · rw [List.count_eq_zero_of_not_mem hn, Nat.mul_zero]

/-- The graph of the group of a key by itself. -/
def ownGraph (t : Topology) (key : Option String) : Graph :=
  ⟨members t.nodes key, t.graph.inside key⟩

/-- What the documents hold that is made of single nodes, each in the graph of its
group. -/
theorem flatMap_compiled (hids : (t.nodes.map Placed.id).Nodup) (o : Options) {α : Type}
    (part : Document → List α) (make : Graph → Node → Option α)
    (hpart : ∀ g, part (document t.graph t.servers o g) = g.nodes.filterMap (make g.graph)) :
    ((t.compile o).flatMap fun out => part out.document) =
      ((groups t).flatMap Group.nodes).filterMap fun n => make (ownGraph t n.group) n := by
  rw [Topology.compile, List.flatMap_map, List.filterMap_flatMap]
  refine List.flatMap_congr fun g hg => (hpart g).trans (List.filterMap_congr fun n hn => ?_)
  obtain ⟨-, hnodes, hedges⟩ := content_of_mem_groups hids hg
  rw [((mem_nodes_iff hids hg).mp hn).2, ownGraph, ← hnodes, ← hedges]
  rfl

/-- No two documents are made for one server just when none that has nodes is listed
twice. Then every inbound, outbound and balancer is compiled into one document, and
into it once. -/
theorem compile_once (hids : (t.nodes.map Placed.id).Nodup) (o : Options) :
    (((groups t).map Group.server).Nodup ↔ ListsOnce t) ∧
    (ListsOnce t →
      ((groups t).flatMap Group.nodes).Perm t.nodes ∧
      ((t.compile o).flatMap fun out => out.document.inbounds).Perm
        (t.nodes.filterMap (inboundOf? t.graph)) ∧
      ((t.compile o).flatMap fun out => out.document.outbounds).Perm
        (t.nodes.filterMap (outboundOf? t.graph t.servers)) ∧
      ((t.compile o).flatMap fun out => out.document.routing.balancers).Perm
        (t.nodes.filterMap fun n => balancerOf? (ownGraph t n.group) n)) := by
  refine ⟨by rw [servers_groups hids, groupKeys_nodup], fun honce => ?_⟩
  have hnodes := nodes_perm hids honce
  refine ⟨hnodes, ?inbounds, ?outbounds, ?balancers⟩
  case inbounds =>
    rw [flatMap_compiled hids o Document.inbounds (fun _ => inboundOf? t.graph) fun _ => rfl]
    exact hnodes.filterMap _
  case outbounds =>
    rw [flatMap_compiled hids o Document.outbounds (fun _ => outboundOf? t.graph t.servers)
      fun _ => rfl]
    exact hnodes.filterMap _
  case balancers =>
    rw [flatMap_compiled hids o (fun d => d.routing.balancers) balancerOf? fun _ => rfl]
    exact hnodes.filterMap _

theorem compile_once_scattered :
    (scattered.nodes.map Placed.id).Nodup ∧ ListsOnce scattered ∧
      ((groups scattered).flatMap Group.nodes).Perm scattered.nodes := by
  have hids : (scattered.nodes.map Placed.id).Nodup := by decide
  have honce : ListsOnce scattered := by
    intro n _ id _
    exact List.nodup_iff_count_le_one.mp (by decide) id
  exact ⟨hids, honce, ((compile_once hids .usual).2 honce).1⟩

/-- One server, of which there are two records. -/
def relisted : Topology where
  nodes := [
    ⟨"in", .origin, .inbound ⟨"in", .socks, "", 1080, none, [], none, none⟩, some "home"⟩,
    ⟨"exit", .origin, .terminal ⟨"exit", .freedom⟩, some "home"⟩]
  edges := [⟨"a", "in", "exit", .plain, none⟩]
  servers := [⟨"home", "Home", "192.0.2.1", none⟩, ⟨"home", "Home", "192.0.2.1", none⟩]

/-- A server that is listed twice is compiled twice, though nothing is wrong with the
graph. -/
theorem compile_twice :
    (relisted.nodes.map Placed.id).Nodup ∧
      Topology.ofText (Topology.codec.write relisted).toText = .ok relisted ∧
      (Audit.check relisted.graph).isValid = true ∧
      (groups relisted).map Group.server = [some "home", some "home"] ∧
      (relisted.compile .usual).map (fun out => out.document.inbounds.map Document.Inbound.tag) =
        [["in"], ["in"]] ∧
      (relisted.compile .usual).map (fun out => out.document.outbounds.map Document.Outbound.tag) =
        [["exit"], ["exit"]] := by
  have hread : Topology.ofText (Topology.codec.write relisted).toText = .ok relisted :=
    Topology.ofText_unmoved (by decide)
  refine ⟨?_, hread, ?_, ?_, ?_, ?_⟩ <;> decide +kernel

end Compile
end ProxyPlan
