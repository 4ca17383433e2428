/-
ProxyPlan.Graph.Basic — nodes and edges as a directed graph.

Identities may repeat and edges may lead nowhere; neither is an error here. Of
several nodes with one identity the first counts, and an edge is a link only
if both its ends are nodes. The links that leave or enter a node are taken in
the order of their priorities, links of equal priority in list order.
-/
import ProxyPlan.Order.Sort
import ProxyPlan.Topology.Edge
import ProxyPlan.Topology.Node

namespace ProxyPlan

/-- Nodes and edges as a directed graph. -/
structure Graph where
  nodes : List Node
  edges : List Edge

namespace Graph

/-! ## Nodes -/

/-- The node of an identity. -/
def node? (g : Graph) (id : String) : Option Node :=
  g.nodes.find? fun n => n.id == id

/-- The identities, each once. -/
def ids (g : Graph) : List String :=
  Order.distinct (g.nodes.map Placed.id)

/-- The kind of the node of an identity. -/
def kind? (g : Graph) (id : String) : Option Kind :=
  (g.node? id).map Node.kind

/-- The node an edge leaves. -/
def source? (g : Graph) (e : Edge) : Option Node := g.node? e.source

/-- The node an edge enters. -/
def target? (g : Graph) (e : Edge) : Option Node := g.node? e.target

/-! ## Links -/

/-- Both ends of an edge are nodes. -/
def isLink (g : Graph) (e : Edge) : Bool :=
  (g.source? e).isSome && (g.target? e).isSome

/-- The edges between nodes. -/
def links (g : Graph) : List Edge := g.edges.filter g.isLink

/-- The edges between nodes that pass a test. -/
def linksThat (g : Graph) (test : Edge → Bool) : List Edge :=
  g.edges.filter fun e => test e && g.isLink e

/-- The edges that lack a node at one end or both. -/
def dangling (g : Graph) : List Edge := g.edges.filter fun e => !g.isLink e

/-- An edge over which a proxy outbound reaches the next server. -/
def isHop (g : Graph) (e : Edge) : Bool :=
  g.kind? e.source = some .proxy && g.kind? e.target = some .inbound

/-- A link between nodes of different groups; no server is a group as well. -/
def crossesGroups (g : Graph) (e : Edge) : Bool :=
  match g.source? e, g.target? e with
  | some s, some t => s.group ≠ t.group
  | _, _ => false

/-- Edges in the order of their priorities. -/
def byPriority (edges : List Edge) : List Edge :=
  Order.sort (fun a b => a.priority ≤ b.priority) edges

/-- The links that leave a node. -/
def outgoing (g : Graph) (id : String) : List Edge :=
  byPriority (g.linksThat fun e => e.source == id)

/-- The links that enter a node. -/
def incoming (g : Graph) (id : String) : List Edge :=
  byPriority (g.linksThat fun e => e.target == id)

/-- Where the links of a node lead, latest link first. -/
def neighbours (g : Graph) (follow : Edge → Bool) (id : String) : List String :=
  ((g.linksThat fun e => e.source == id && follow e).map Edge.target).reverse

end Graph
end ProxyPlan
