/-
ProxyPlan.Proofs.Locality — what a document of a server depends on.

A document is compiled from the nodes of a group and the edges inside it, but
the streams and the peers of these nodes are looked up in the whole graph. What
is read there are the edges over the border of the group, in the order of their
priorities, and of the nodes at their far ends only an outline
(`Node.outline`). Two topologies that agree on all this are therefore compiled
to the same documents for the group, whatever else they hold
(`compile_local`): no other server can tell them apart.

Every look at the whole graph is a search among the links of one node with the
links inside a group left out, and those of a node of the group are among the
edges over its border (`filter_crossing`). The files may have other names,
since these are made unique among all groups.
-/
import Mathlib.Data.List.Count
import ProxyPlan.Proofs.Groups

namespace ProxyPlan

/-! ## What touches a group -/

/-- What other groups see of a node: its kind, its server and the port that it
listens on. -/
def Node.outline (n : Node) : Kind × Option String × Option UInt32 :=
  (n.kind, n.server, n.inbound?.map Inbound.port)

namespace Graph

/-- The identity stands for a node of the group. -/
def isIn (g : Graph) (key : Option String) (id : String) : Bool :=
  (g.node? id).any fun n => n.group = key

/-- The edges between nodes of the group. -/
def inside (g : Graph) (key : Option String) : List Edge :=
  g.edges.filter fun e => g.isIn key e.source && g.isIn key e.target

/-- The edges that lead into the group or out of it. -/
def border (g : Graph) (key : Option String) : List Edge :=
  g.edges.filter fun e => g.crossesGroups e && (g.isIn key e.source || g.isIn key e.target)

/-- The node on the other side of the border of the group. -/
def farEnd? (g : Graph) (key : Option String) (e : Edge) : Option Node :=
  if g.isIn key e.source then g.target? e else g.source? e

/-- The graphs agree on the nodes of the group, on the edges inside it and over its
border, and on the outlines of the nodes at their far ends. -/
structure SameFrom (key : Option String) (g g' : Graph) : Prop where
  nodes : Compile.members g.nodes key = Compile.members g'.nodes key
  inside : g.inside key = g'.inside key
  border : g.border key = g'.border key
  far : ∀ e ∈ g.border key, (g.farEnd? key e).map Node.outline = (g'.farEnd? key e).map Node.outline

variable {g g' : Graph} {key : Option String}

theorem isIn_of_mem (hids : (g.nodes.map Placed.id).Nodup) {n : Node}
    (hn : n ∈ Compile.members g.nodes key) : g.isIn key n.id = true := by
  obtain ⟨hn, hgroup⟩ := List.mem_filter.mp hn
  rw [isIn, node?_of_mem hids hn]
  exact hgroup

theorem isLink_of_crosses {e : Edge} (h : g.crossesGroups e = true) : g.isLink e = true := by
  rw [crossesGroups] at h
  split at h
  case h_1 s t hs ht => exact isLink_iff_ends.mpr ⟨s, t, hs, ht⟩
  case h_2 => cases h

/-- Of the links of a node of the group, those that cross groups are the ones over the
border of the group. -/
theorem filter_crossing {test : Edge → Bool}
    (htest : ∀ e, test e = true → (g.isIn key e.source || g.isIn key e.target) = true) :
    (byPriority (g.linksThat test)).filter g.crossesGroups =
      byPriority ((g.border key).filter test) := by
  rw [filter_byPriority, linksThat, border, List.filter_filter, List.filter_filter]
  congr 1
  refine List.filter_congr fun e _ => ?_
  cases hcrosses : g.crossesGroups e with
  | false => simp
  | true =>
    cases he : test e with
    | false => simp
    | true => simp [isLink_of_crosses hcrosses, htest e he]

/-- The links over the border that leave a node of the group. -/
theorem filter_outgoing (hids : (g.nodes.map Placed.id).Nodup) {n : Node}
    (hn : n ∈ Compile.members g.nodes key) :
    (g.outgoing n.id).filter g.crossesGroups =
      byPriority ((g.border key).filter fun e => e.source == n.id) :=
  filter_crossing fun e he => by rw [beq_iff_eq.mp he, isIn_of_mem hids hn, Bool.true_or]

/-- The links over the border that enter a node of the group. -/
theorem filter_incoming (hids : (g.nodes.map Placed.id).Nodup) {n : Node}
    (hn : n ∈ Compile.members g.nodes key) :
    (g.incoming n.id).filter g.crossesGroups =
      byPriority ((g.border key).filter fun e => e.target == n.id) :=
  filter_crossing fun e he => by rw [beq_iff_eq.mp he, isIn_of_mem hids hn, Bool.or_true]

end Graph

/-! ## Documents -/

namespace Compile

variable {g g' : Graph} {key : Option String} {n : Node}

/-- The graphs look the same from the group, and identities do not repeat in them. -/
structure Alike (key : Option String) (g g' : Graph) : Prop extends Graph.SameFrom key g g' where
  ids : (g.nodes.map Placed.id).Nodup
  ids' : (g'.nodes.map Placed.id).Nodup

/-- The node is in the group of the other graph as well. -/
theorem Alike.mem (h : Alike key g g') (hn : n ∈ members g.nodes key) :
    n ∈ members g'.nodes key := h.nodes ▸ hn

theorem Alike.outgoing (h : Alike key g g') (hn : n ∈ members g.nodes key) :
    (g.outgoing n.id).filter g.crossesGroups = (g'.outgoing n.id).filter g'.crossesGroups := by
  rw [Graph.filter_outgoing h.ids hn, Graph.filter_outgoing h.ids' (h.mem hn), h.border]

theorem Alike.incoming (h : Alike key g g') (hn : n ∈ members g.nodes key) :
    (g.incoming n.id).filter g.crossesGroups = (g'.incoming n.id).filter g'.crossesGroups := by
  rw [Graph.filter_incoming h.ids hn, Graph.filter_incoming h.ids' (h.mem hn), h.border]

/-- The peer that a node is, by its outline. -/
def outlinePeer? (servers : List Server) (outline : Kind × Option String × Option UInt32) :
    Option Peer := do
  let port ← outline.2.2
  let id ← outline.2.1
  let server ← servers.find? fun s => s.id == id
  let host ← Text.nonBlank? server.host
  return ⟨host, port⟩

theorem edgePeer?_eq (g : Graph) (servers : List Server) (e : Edge) :
    edgePeer? g servers e = ((g.target? e).map Node.outline).bind (outlinePeer? servers) := by
  rw [edgePeer?]
  cases g.target? e with
  | none => rfl
  | some n =>
    show (n.inbound?.bind _) = ((n.inbound?.map Inbound.port).bind _)
    cases n.inbound? <;> rfl

/-- The peers of a proxy outbound are looked for over the border. -/
theorem Alike.peer? (h : Alike key g g') (hn : n ∈ members g.nodes key) (servers : List Server) :
    Compile.peer? g servers n.id = Compile.peer? g' servers n.id := by
  rw [Compile.peer?, Compile.peer?, ← h.outgoing hn, ← List.head?_filterMap, ← List.head?_filterMap]
  refine congrArg List.head? (List.filterMap_congr fun e he => ?_)
  rw [Graph.filter_outgoing h.ids hn, Graph.mem_byPriority] at he
  obtain ⟨hborder, hsource⟩ := List.mem_filter.mp he
  have hfar := h.far e hborder
  rw [Graph.farEnd?, Graph.farEnd?, beq_iff_eq.mp hsource, Graph.isIn_of_mem h.ids hn,
    Graph.isIn_of_mem h.ids' (h.mem hn)] at hfar
  simp only [if_true] at hfar
  rw [edgePeer?_eq, edgePeer?_eq, hfar]

theorem Alike.inboundOf? (h : Alike key g g') (hn : n ∈ members g.nodes key) :
    Compile.inboundOf? g n = Compile.inboundOf? g' n := by
  simp only [Compile.inboundOf?, inboundStream, crossTransports, h.incoming hn]

theorem Alike.outboundOf? (h : Alike key g g') (hn : n ∈ members g.nodes key)
    (servers : List Server) :
    Compile.outboundOf? g servers n = Compile.outboundOf? g' servers n := by
  simp only [Compile.outboundOf?, proxyStream, crossTransports, h.outgoing hn, h.peer? hn]

/-- What is compiled from the group does not depend on the rest of the graph. -/
theorem Alike.document (h : Alike key g g') (servers : List Server) (o : Options) {group : Group}
    (hgroup : group.nodes = members g.nodes key) :
    Compile.document g servers o group = Compile.document g' servers o group := by
  rw [Compile.document, Compile.document, hgroup,
    List.filterMap_congr fun n hn => h.inboundOf? hn,
    List.filterMap_congr fun n hn => h.outboundOf? hn servers]

/-! ## Groups -/

theorem groupOf?_eq (hids : (g.nodes.map Placed.id).Nodup) (id : String) :
    groupOf? g.nodes id = (g.node? id).map Node.group := by
  have hlast : (g.nodes.reverse.find? fun n => n.id == id) = g.node? id := by
    rw [← List.head?_filter, List.filter_reverse, Graph.filter_id hids]
    cases g.node? id <;> rfl
  rw [groupOf?, hlast]

/-- The edges inside a group are those whose ends are nodes of it. -/
theorem innerEdges_eq (hids : (g.nodes.map Placed.id).Nodup) :
    innerEdges g.nodes g.edges key = g.inside key := by
  refine List.filter_congr fun e _ => ?_
  rw [groupOf?_eq hids, groupOf?_eq hids, Graph.isIn, Graph.isIn]
  cases g.node? e.source <;> cases g.node? e.target <;> simp

/-- Every time that a key is listed it gets a group, if the group has members. -/
theorem filter_groupsOf {nodes : List Node} {edges : List Edge} {servers : List Server}
    {α : Type} {f : Group → α} {x : α} (hsome : members nodes key ≠ [])
    (hf : ∀ name, f ⟨name, key, members nodes key, innerEdges nodes edges key⟩ = x)
    (taken : List FileName) (keys : List (Option String)) :
    ((groupsOf nodes edges servers taken keys).filter fun g => g.server = key).map f =
      List.replicate (keys.count key) x := by
  induction keys generalizing taken with
  | nil => rfl
  | cons k rest ih =>
    simp only [groupsOf]
    by_cases hk : k = key
    · subst hk
      have hmembers : (members nodes k).isEmpty = false := by simpa using hsome
      simp only [hmembers, Bool.false_eq_true, if_false, List.filter_cons, decide_true, if_true,
        List.map_cons, hf, ih, List.count_cons_self, List.replicate_succ]
    · rw [List.count_cons_of_ne hk]
      split
      · exact ih taken
      · rw [List.filter_cons, if_neg (by simpa using hk)]
        exact ih _

/-- A server that is not listed gets one group all the same. -/
theorem count_groupOrder {nodes : List Node} {servers : List Server} {id : String} {n : Node}
    (hn : n ∈ nodes) (hgroup : n.group = some id) :
    (groupOrder nodes servers).count (some id) = max 1 ((servers.map Server.id).count id) := by
  have hnamed : id ∈ nodes.filterMap Node.group := List.mem_filterMap.mpr ⟨n, hn, hgroup⟩
  have hnone : [none].count (some id) = 0 := by simp
  rw [groupOrder, List.count_append, hnone, Nat.add_zero,
    List.count_map_of_injective _ some fun _ _ => Option.some.inj, List.count_append,
    (Order.firsts_nodup _ _).count]
  by_cases hlisted : id ∈ servers.map Server.id
  · have hpos := List.count_pos_iff.mpr hlisted
    rw [if_neg fun h => (Order.mem_firsts.mp h).2 hlisted]
    omega
  · rw [if_pos (Order.mem_firsts.mpr ⟨hnamed, hlisted⟩), List.count_eq_zero_of_not_mem hlisted]
    rfl

end Compile

/-- The documents that a topology is compiled to for a group: one, unless its server
is listed several times. -/
def Topology.documentsFor (t : Topology) (o : Compile.Options) (key : Option String) :
    List Document :=
  ((Compile.groups t).zip (t.compile o)).filterMap fun (g, out) =>
    if g.server = key then some out.document else none

open Compile

theorem Topology.documentsFor_eq (t : Topology) (o : Compile.Options) (key : Option String) :
    t.documentsFor o key =
      ((groups t).filter fun g => g.server = key).map
        (Compile.document t.graph t.servers o) := by
  rw [documentsFor, Topology.compile]
  induction groups t with
  | nil => rfl
  | cons g rest ih =>
    rw [List.map_cons, List.zip_cons_cons, List.filterMap_cons, ih, List.filter_cons]
    by_cases hkey : g.server = key
    · simp only [hkey, if_true, decide_true, List.map_cons]
      rfl
    · simp only [hkey, if_false, decide_false, Bool.false_eq_true]

/-- The documents of a server with nodes. -/
theorem Topology.documentsFor_server {t : Topology} (hids : (t.nodes.map Placed.id).Nodup)
    {id : String} {n : Node} (hn : n ∈ t.nodes) (hgroup : n.group = some id)
    (o : Compile.Options) :
    t.documentsFor o (some id) = List.replicate (max 1 ((t.servers.map Server.id).count id))
      (Compile.document t.graph t.servers o
        ⟨soleFile, some id, members t.nodes (some id), t.graph.inside (some id)⟩) := by
  have hsome : members t.nodes (some id) ≠ [] :=
    List.ne_nil_of_mem (List.mem_filter.mpr ⟨hn, decide_eq_true hgroup⟩)
  rw [Topology.documentsFor_eq, groups_grouped hn (by simp [hgroup]),
    filter_groupsOf hsome (fun _ => ?_), count_groupOrder hn hgroup]
  rw [← innerEdges_eq (g := t.graph) hids]
  rfl

/-- The documents of a server depend on nothing but what touches the server: its nodes,
the edges among them and over their border, and the outlines of the nodes that these
lead to or come from. -/
theorem compile_local {t t' : Topology} (hids : (t.nodes.map Placed.id).Nodup)
    (hids' : (t'.nodes.map Placed.id).Nodup) {id : String}
    (hsome : ∃ n ∈ t.nodes, n.group = some id) (hservers : t.servers = t'.servers)
    (h : Graph.SameFrom (some id) t.graph t'.graph) (o : Compile.Options) :
    t.documentsFor o (some id) = t'.documentsFor o (some id) ∧
      t.documentsFor o (some id) ≠ [] := by
  obtain ⟨n, hn, hgroup⟩ := hsome
  have halike : Alike (some id) t.graph t'.graph := ⟨h, hids, hids'⟩
  have hn' : n ∈ t'.nodes := by
    have hmember : n ∈ members t.nodes (some id) :=
      List.mem_filter.mpr ⟨hn, decide_eq_true hgroup⟩
    exact (List.mem_filter.mp (halike.mem hmember)).1
  rw [Topology.documentsFor_server hids hn hgroup, Topology.documentsFor_server hids' hn' hgroup]
  constructor
  · have hnodes : members t.nodes (some id) = members t'.nodes (some id) := h.nodes
    rw [halike.document t.servers o rfl, hservers, h.inside, hnodes]
  · rw [Ne, List.replicate_eq_nil_iff]
    omega

/-! ### An instance -/

/-- An outbound without an address on one server, chained to an inbound on another. -/
def chained : Topology where
  nodes := [
    ⟨"in", .origin, .inbound ⟨"in", .socks, "", 1080, none, [], none, none⟩, some "home"⟩,
    ⟨"out", .origin, .proxy ⟨"out", .socks, "", 0, none, none, none, none⟩, some "home"⟩,
    ⟨"far", .origin, .inbound ⟨"far", .socks, "", 1081, none, [], none, none⟩, some "away"⟩]
  edges := [⟨"a", "in", "out", .plain, none⟩, ⟨"b", "out", "far", .plain, none⟩]
  servers := [⟨"home", "Home", "192.0.2.1", none⟩, ⟨"away", "Away", "192.0.2.2", none⟩]

/-- The same server next to others of which more is known. -/
def chainedOn : Topology where
  nodes := [
    ⟨"exit", .origin, .terminal ⟨"exit", .freedom⟩, some "away"⟩,
    ⟨"far", .origin, .inbound ⟨"entry", .vless, "127.0.0.1", 1081, none, [], none, none⟩,
      some "away"⟩,
    ⟨"in", .origin, .inbound ⟨"in", .socks, "", 1080, none, [], none, none⟩, some "home"⟩,
    ⟨"laptop", .origin, .device ⟨"Laptop", .socks⟩, none⟩,
    ⟨"out", .origin, .proxy ⟨"out", .socks, "", 0, none, none, none, none⟩, some "home"⟩]
  edges := [⟨"c", "far", "exit", .plain, none⟩, ⟨"a", "in", "out", .plain, none⟩,
    ⟨"b", "out", "far", .plain, none⟩, ⟨"d", "laptop", "far", .plain, none⟩]
  servers := [⟨"home", "Home", "192.0.2.1", none⟩, ⟨"away", "Away", "192.0.2.2", none⟩]

theorem compile_local_chained :
    chained ≠ chainedOn ∧
      (chained.documentsFor .usual (some "home")).map (fun d => d.outbounds.map
        Document.Outbound.settings) = [[server "192.0.2.2" [] 1081]] ∧
      chained.documentsFor .usual (some "home") = chainedOn.documentsFor .usual (some "home") := by
  have hids : (chained.nodes.map Placed.id).Nodup := by decide
  have hids' : (chainedOn.nodes.map Placed.id).Nodup := by decide
  have hsame : Graph.SameFrom (some "home") chained.graph chainedOn.graph := by
    constructor <;> decide +kernel
  refine ⟨by decide, rfl, ?_⟩
  exact (compile_local hids hids' ⟨_, List.mem_cons_self, by decide⟩ rfl hsame .usual).1

end ProxyPlan
