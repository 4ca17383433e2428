/-
ProxyPlan.Topology.Connection — which kinds of nodes an edge may join.
-/
import ProxyPlan.Topology.Name

namespace ProxyPlan

namespace Kind

/-- The kinds that an edge from a node of this kind may lead to. -/
def targets : Kind → List Kind
  | .device => [.inbound, .proxy]
  | .inbound => [.routing, .balancer, .terminal, .proxy]
  | .routing => [.routing, .balancer, .terminal, .proxy]
  | .balancer => [.terminal, .proxy]
  | .proxy => [.inbound]
  | .terminal => []

/-- An edge from a node of one kind to a node of another is allowed. -/
def mayLead (source target : Kind) : Bool :=
  source.targets.contains target

/-- The column that a node of this kind stands in. -/
def layer : Kind → Nat
  | .device | .inbound => 0
  | .routing => 1
  | .balancer => 2
  | .terminal | .proxy => 3

end Kind

/-- Why an edge between two kinds is refused, if it is. -/
def refusal? (source target : Kind) : Option String :=
  if source = .terminal then some "Terminal outbounds cannot have outgoing connections"
  else if source.mayLead target then none
  else
    some ("Cannot connect " ++ source.name ++ " to " ++ target.name ++ " (allowed targets: " ++
      ", ".intercalate (source.targets.map Kind.name) ++ ")")

end ProxyPlan
