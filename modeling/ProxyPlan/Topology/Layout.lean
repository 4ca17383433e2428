/-
ProxyPlan.Topology.Layout — where nodes are put when nobody has placed them,
and what kind of project they make.

Every kind has a column. Nodes are taken in list order while one count for each
column says how far it is filled, and each node is put below those that its
column already holds.
-/
import ProxyPlan.Order.Sort
import ProxyPlan.Topology.Connection
import ProxyPlan.Topology.Node

namespace ProxyPlan.Topology

/-! ## Places -/

/-- The distance between columns. -/
def columnWidth : Nat := 300

/-- The distance between rows. -/
def rowHeight : Nat := 120

/-- The place in a column and a row, both counted from zero. -/
def cell (column row : Nat) : Position :=
  ⟨.ofInt (column * columnWidth : Nat), .ofInt (row * rowHeight : Nat)⟩

/-- A node at the first free place of its column; `filled` counts the nodes in
each column so far. -/
def place (filled : List Nat) (n : Node) : Node :=
  { n with position := cell (Node.kind n).layer (filled.getD (Node.kind n).layer 0) }

/-- The counts once a node of this kind has been placed. -/
def fill (filled : List Nat) (k : Kind) : List Nat := filled.modify k.layer (· + 1)

/-- Place nodes one after the other. -/
def placeAfter (filled : List Nat) : List Node → List Node
  | [] => []
  | n :: rest => place filled n :: placeAfter (fill filled (Node.kind n)) rest

/-- Place all nodes in the four columns. -/
def layout (nodes : List Node) : List Node := placeAfter [0, 0, 0, 0] nodes

/-! ## Modes -/

/-- The ports that inbounds listen on, each once. -/
def ports (nodes : List Node) : List UInt32 :=
  Order.distinct ((nodes.filterMap Node.inbound?).map Inbound.port)

/-- Inbounds on several ports together with a proxy outbound make an
infrastructure; anything less is one client. -/
def modeOf (nodes : List Node) : Mode :=
  if 1 < (ports nodes).length && nodes.any (fun n => Node.kind n = .proxy) then .infrastructure
  else .simple

end ProxyPlan.Topology
