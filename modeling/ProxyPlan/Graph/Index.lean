/-
ProxyPlan.Graph.Index — a graph filed for being asked often.

Nodes are numbered in the order in which their identities are first met. An
edge between two of them becomes an arc between their numbers, and is filed
under the identity it leaves and under the one it enters; an edge that lacks a
node is put aside. What is filed under one identity is then put in the order of
the priorities.
-/
import ProxyPlan.Graph.Basic

namespace ProxyPlan

/-! ## Files -/

/-- Edges in buckets, each under a key of its own. -/
structure EdgeFile where
  buckets : List (String × List Edge)

namespace EdgeFile

/-- The edges under a key. -/
def bucket (f : EdgeFile) (key : String) : List Edge := (f.buckets.lookup key).getD []

/-- Put an edge behind those that are under its key. -/
def pushTo (key : String) (e : Edge) : List (String × List Edge) → List (String × List Edge)
  | [] => [(key, [e])]
  | (k, es) :: rest => if k = key then (k, es ++ [e]) :: rest else (k, es) :: pushTo key e rest

/-- File an edge. -/
def push (key : Edge → String) (f : EdgeFile) (e : Edge) : EdgeFile :=
  ⟨pushTo (key e) e f.buckets⟩

/-- Put every bucket in the order of the priorities. -/
def sorted (f : EdgeFile) : EdgeFile :=
  ⟨f.buckets.map fun (key, edges) => (key, Graph.byPriority edges)⟩

/-- Edges filed under a key. -/
def ofEdges (key : Edge → String) (edges : List Edge) : EdgeFile :=
  (edges.foldl (push key) ⟨[]⟩).sorted

end EdgeFile

/-! ## Nodes by number -/

/-- Who is in a graph. -/
structure Roll where
  /-- The identities in the order of their numbers. -/
  ids : List String
  numbers : List (String × Nat)
  nodes : List (String × Node)

namespace Roll

/-- The node of an identity. -/
def node? (r : Roll) (id : String) : Option Node := r.nodes.lookup id

/-- The number of an identity. -/
def number? (r : Roll) (id : String) : Option Nat := r.numbers.lookup id

/-- Enter a node, unless there is one of its identity. -/
def add (r : Roll) (n : Node) : Roll :=
  if (r.node? n.id).isSome then r
  else ⟨r.ids ++ [n.id], (n.id, r.ids.length) :: r.numbers, (n.id, n) :: r.nodes⟩

/-- Enter nodes one after the other. -/
def ofNodes (nodes : List Node) : Roll := nodes.foldl add ⟨[], [], []⟩

/-- The kind of the node of a number. -/
def kindAt? (r : Roll) (number : Nat) : Option Kind :=
  (r.ids[number]?.bind r.node?).map Node.kind

end Roll

/-! ## Arcs -/

/-- A link, its ends given by their numbers. -/
structure Arc where
  source : Nat
  target : Nat
  edge : String
  /-- The link is a proxy outbound's way to the next server. -/
  hop : Bool
deriving DecidableEq

/-- Edges told apart by whether they have both their nodes. -/
structure Sorting where
  arcs : List Arc
  links : List Edge
  dangling : List Edge

namespace Sorting

/-- The arc of a link between two nodes that are on the roll. -/
def arc (r : Roll) (s t : Node) (e : Edge) : Arc where
  source := (r.number? s.id).getD 0
  target := (r.number? t.id).getD 0
  edge := e.id
  hop := s.kind = .proxy && t.kind = .inbound

/-- Take an edge. -/
def add (r : Roll) (sorting : Sorting) (e : Edge) : Sorting :=
  match r.node? e.source, r.node? e.target with
  | some s, some t =>
    { sorting with arcs := sorting.arcs ++ [arc r s t e], links := sorting.links ++ [e] }
  | _, _ => { sorting with dangling := sorting.dangling ++ [e] }

/-- Take edges one after the other. -/
def ofEdges (r : Roll) (edges : List Edge) : Sorting := edges.foldl (add r) ⟨[], [], []⟩

end Sorting

/-! ## The whole graph -/

/-- A graph filed for being asked often. -/
structure Index where
  roll : Roll
  arcs : List Arc
  bySource : EdgeFile
  byTarget : EdgeFile
  dangling : List Edge

namespace Index

/-- File a graph. -/
def ofGraph (g : Graph) : Index :=
  let roll := Roll.ofNodes g.nodes
  let sorting := Sorting.ofEdges roll g.edges
  { roll
    arcs := sorting.arcs
    bySource := .ofEdges Edge.source sorting.links
    byTarget := .ofEdges Edge.target sorting.links
    dangling := sorting.dangling }

/-- The links that leave a node. -/
def outgoing (i : Index) (id : String) : List Edge := i.bySource.bucket id

/-- The links that enter a node. -/
def incoming (i : Index) (id : String) : List Edge := i.byTarget.bucket id

end Index
end ProxyPlan
