/-
ProxyPlan.Proofs.Placement — where nodes are put does not matter.

Compiling looks at identities, roles and edges. A graph whose nodes have been
moved compiles to the same document, so it can be laid out or dragged about
without a change to any file.
-/
import ProxyPlan.Proofs.Groups
import ProxyPlan.Topology.Layout

namespace ProxyPlan

open Compile

/-! ## Forgetting places -/

/-- The node as if nobody had placed it. -/
def Node.unplaced (n : Node) : Node := { n with position := .origin }

namespace Node

theorem unplaced_moved (n : Node) (place : Position) :
    Node.unplaced { n with position := place } = n.unplaced := rfl

@[simp] theorem unplaced_id (n : Node) : n.unplaced.id = n.id := rfl

@[simp] theorem unplaced_role (n : Node) : n.unplaced.role = n.role := rfl

@[simp] theorem unplaced_server (n : Node) : n.unplaced.server = n.server := rfl

@[simp] theorem unplaced_inbound? (n : Node) : n.unplaced.inbound? = n.inbound? := rfl

@[simp] theorem plainInbound?_unplaced (n : Node) : plainInbound? n.unplaced = plainInbound? n := rfl

@[simp] theorem plainOutbound?_unplaced (n : Node) :
    plainOutbound? n.unplaced = plainOutbound? n := rfl

end Node

/-- The graph as if nobody had placed its nodes. -/
def Graph.unplaced (g : Graph) : Graph := ⟨g.nodes.map Node.unplaced, g.edges⟩

namespace Graph

variable (g : Graph)

@[simp] theorem unplaced_nodes : g.unplaced.nodes = g.nodes.map Node.unplaced := rfl

@[simp] theorem unplaced_edges : g.unplaced.edges = g.edges := rfl

theorem node?_unplaced (id : String) :
    g.unplaced.node? id = (g.node? id).map Node.unplaced := by
  rw [node?, unplaced_nodes, List.find?_map, node?]
  rfl

theorem kind?_unplaced (id : String) : g.unplaced.kind? id = g.kind? id := by
  rw [kind?, node?_unplaced, Option.map_map, kind?]
  rfl

theorem isLink_unplaced (e : Edge) : g.unplaced.isLink e = g.isLink e := by
  simp only [isLink, source?, target?, node?_unplaced, Option.isSome_map]

theorem outgoing_unplaced (id : String) : g.unplaced.outgoing id = g.outgoing id := by
  simp only [outgoing, linksThat, isLink_unplaced, unplaced_edges]

theorem linked_unplaced : g.unplaced.linked = g.linked.unplaced := by
  have hlinks : g.unplaced.links = g.links := by
    rw [links, unplaced_edges, funext g.isLink_unplaced, links]
  rw [linked, hlinks, unplaced_nodes, linked, unplaced]

end Graph

/-! ## Compiling -/

namespace Compile

variable (g : Graph)

theorem targetsOf_unplaced (id : String) : targetsOf g.unplaced id = targetsOf g id := by
  simp only [targetsOf, Graph.outgoing_unplaced, Graph.target?, Graph.node?_unplaced]
  refine List.filterMap_congr fun e _ => ?_
  cases g.node? e.target <;> rfl

theorem entered_unplaced : entered g.unplaced = entered g := by
  have hentry : isEntry g.unplaced = isEntry g := by
    funext e
    simp only [isEntry, Graph.kind?_unplaced]
  rw [entered, hentry, Graph.unplaced_edges, entered]

theorem routingOrder_unplaced : routingOrder g.unplaced = routingOrder g := by
  have hids : (g.unplaced.nodes.filter fun n => (Node.routing? n).isSome).map Placed.id =
      (g.nodes.filter fun n => (Node.routing? n).isSome).map Placed.id := by
    rw [Graph.unplaced_nodes, List.filter_map, List.map_map]
    rfl
  simp only [routingOrder, entered_unplaced, hids]

theorem routingOf?_unplaced (id : String) : routingOf? g.unplaced id = routingOf? g id := by
  rw [routingOf?, Graph.unplaced_nodes, List.filter_map, List.findSome?_map, routingOf?]
  rfl

theorem directRules_unplaced : directRules g.unplaced = directRules g := by
  rw [directRules, Graph.unplaced_nodes, List.flatMap_map, directRules]
  refine List.flatMap_congr fun n _ => ?_
  rw [Node.unplaced_inbound?, Node.unplaced_id, targetsOf_unplaced]

theorem rules_unplaced : rules g.unplaced = rules g := by
  have hrouting : routingRules g.unplaced = routingRules g := by
    simp only [routingRules, routingOrder_unplaced, routingOf?_unplaced, targetsOf_unplaced]
  rw [rules, hrouting, directRules_unplaced, rules]

theorem balancerOf?_unplaced (n : Node) :
    balancerOf? g.unplaced n.unplaced = balancerOf? g n := by
  rw [balancerOf?, balancerOf?, Node.unplaced_role]
  cases n.role with
  | balancer c => simp only [balancer, Node.unplaced_id, targetsOf_unplaced]
  | _ => rfl

/-- The document of a graph does not depend on the places of its nodes. -/
theorem plainDocument_unplaced (o : Options) : plainDocument g.unplaced o = plainDocument g o := by
  have hmapped : ∀ {α : Type} (f f' : Node → Option α), (∀ n, f n.unplaced = f' n) →
      g.unplaced.nodes.filterMap f = g.nodes.filterMap f' := by
    intro α f f' h
    rw [Graph.unplaced_nodes, List.filterMap_map]
    exact List.filterMap_congr fun n _ => h n
  rw [plainDocument, Graph.linked_unplaced, rules_unplaced,
    hmapped _ _ Node.plainInbound?_unplaced, hmapped _ _ Node.plainOutbound?_unplaced,
    hmapped _ _ (balancerOf?_unplaced g.linked), plainDocument]

/-- Moving nodes does not change the document. -/
theorem plainDocument_moved {nodes nodes' : List Node} (edges : List Edge)
    (h : nodes.map Node.unplaced = nodes'.map Node.unplaced) (o : Options) :
    plainDocument ⟨nodes, edges⟩ o = plainDocument ⟨nodes', edges⟩ o := by
  have hgraph : (Graph.mk nodes edges).unplaced = (Graph.mk nodes' edges).unplaced := by
    rw [Graph.unplaced, h, Graph.unplaced]
  rw [← plainDocument_unplaced, hgraph, plainDocument_unplaced]

end Compile

/-! ## Laying out -/

theorem Topology.unplaced_place (filled : List Nat) (n : Node) :
    (place filled n).unplaced = n.unplaced := Node.unplaced_moved n _

theorem Topology.unplaced_placeAfter (filled : List Nat) (nodes : List Node) :
    (placeAfter filled nodes).map Node.unplaced = nodes.map Node.unplaced := by
  induction nodes generalizing filled with
  | nil => exact List.map_nil
  | cons n rest ih => rw [placeAfter, List.map_cons, List.map_cons, ih, unplaced_place]

/-- Laying out moves nodes and does nothing else. -/
theorem Topology.unplaced_layout (nodes : List Node) :
    (layout nodes).map Node.unplaced = nodes.map Node.unplaced :=
  unplaced_placeAfter [0, 0, 0, 0] nodes

end ProxyPlan
