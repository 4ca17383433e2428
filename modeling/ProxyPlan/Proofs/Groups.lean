/-
ProxyPlan.Proofs.Groups — topologies without servers.

When no node is assigned to a server, the whole topology is one group, all of
whose links are kept; edges that lead nowhere are left behind. Nothing crosses
from one group to another. One node on a server is enough for the topology to be cut
(`groups_grouped`).
-/
import ProxyPlan.Compile.Basic
import ProxyPlan.Proofs.Graph

namespace ProxyPlan

/-- The nodes and edges of a topology as a graph. -/
def Topology.graph (t : Topology) : Graph := ⟨t.nodes, t.edges⟩

/-- A graph without the edges that lead nowhere. -/
def Graph.linked (g : Graph) : Graph := ⟨g.nodes, g.links⟩

namespace Graph

variable {g : Graph}

theorem linked_eq_self (h : ∀ e ∈ g.edges, g.isLink e = true) : g.linked = g := by
  simp only [linked, links, List.filter_eq_self.mpr h]

/-- Without servers no edge leads from one group to another. -/
theorem crossesGroups_eq_false (h : ∀ n ∈ g.nodes, Node.group n = none) (e : Edge) :
    g.crossesGroups e = false := by
  simp only [crossesGroups]
  split
  case h_1 s t hs ht =>
    simp [h s (node?_mem hs), h t (node?_mem ht)]
  case h_2 => rfl

end Graph

namespace Compile

/-- A topology without servers is one group, with all of its links. -/
theorem groups_ungrouped {t : Topology} (h : ∀ n ∈ t.nodes, Node.group n = none) :
    groups t = [⟨soleFile, none, t.nodes, t.graph.links⟩] := by
  have hall : (t.nodes.all fun n => (Node.group n).isNone) = true :=
    List.all_eq_true.mpr fun n hn => by simp [h n hn]
  have hknown : ∀ id, (t.nodes.any fun n => n.id == id) = (t.graph.node? id).isSome := by
    intro id
    rw [Bool.eq_iff_iff, Graph.isSome_node?, Graph.mem_ids]
    simp [Topology.graph]
  simp only [groups, hall, if_true, hknown]
  rfl

/-- As soon as a node is on a server, there is a group for every server with nodes. -/
theorem groups_grouped {t : Topology} {n : Node} (hn : n ∈ t.nodes) (hgroup : n.group ≠ none) :
    groups t = groupsOf t.nodes t.edges t.servers [] (groupOrder t.nodes t.servers) := by
  have hall : (t.nodes.all fun n => (Node.group n).isNone) = false :=
    List.all_eq_false.mpr ⟨n, hn, by simpa using hgroup⟩
  simp only [groups, hall, Bool.false_eq_true, if_false]

/-- The inbound that a node becomes when nothing crosses from group to group. -/
def plainInbound? (n : Node) : Option Document.Inbound :=
  match n.role with
  | .inbound c => some (inbound c (Transport.stream? c.transport))
  | _ => none

/-- The outbound that a node becomes when nothing crosses from group to group. -/
def plainOutbound? (n : Node) : Option Document.Outbound :=
  match n.role with
  | .terminal c => some (terminal c)
  | .proxy c => some (proxy c none (Transport.stream? c.transport))
  | _ => none

/-- The one document of a graph without servers. -/
def plainDocument (g : Graph) (o : Options) : Document where
  log := ⟨o.logLevel⟩
  inbounds := g.nodes.filterMap plainInbound?
  outbounds := g.nodes.filterMap plainOutbound?
  routing := ⟨o.domainStrategy, rules g.linked, g.nodes.filterMap (balancerOf? g.linked)⟩

/-- A topology without servers becomes one document, whatever servers it
lists. -/
theorem compile_ungrouped {t : Topology} (h : ∀ n ∈ t.nodes, Node.group n = none) (o : Options) :
    t.compile o = [⟨soleFile, plainDocument t.graph o⟩] := by
  have hfalse := Graph.crossesGroups_eq_false (g := t.graph) h
  have hcross : ∀ edges : List Edge, edges.filter t.graph.crossesGroups = [] := fun edges =>
    List.filter_eq_nil_iff.mpr fun e _ => by simp [hfalse e]
  have hinbound : inboundOf? t.graph = plainInbound? := by
    funext ⟨id, position, role, server⟩
    cases role <;> simp [inboundOf?, plainInbound?, inboundStream, crossTransports, hcross,
      Transport.choose]
  have houtbound : outboundOf? t.graph t.servers = plainOutbound? := by
    funext ⟨id, position, role, server⟩
    cases role <;> simp [outboundOf?, plainOutbound?, proxyStream, peer?, crossTransports, hcross,
      Transport.choose]
  have hdocument : document t.graph t.servers o ⟨soleFile, none, t.nodes, t.graph.links⟩ =
      plainDocument t.graph o := by
    rw [document, hinbound, houtbound]
    rfl
  rw [Topology.compile, groups_ungrouped h, List.map_cons, List.map_nil]
  show [(⟨soleFile, document t.graph t.servers o _⟩ : Output)] = _
  rw [hdocument]

end Compile
end ProxyPlan
