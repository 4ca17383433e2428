/-
ProxyPlan.Compile.Routing — rules and balancers as documents know them.

Every link from a routing node to an outbound or a balancer becomes a rule.
Routing nodes that inbounds lead to come first, in the order in which those
links are tried; routing nodes that no inbound leads to follow, and last come
the rules for inbounds that lead straight to an outbound or a balancer. A link
between routing nodes becomes no rule.
-/
import ProxyPlan.Document.Basic
import ProxyPlan.Graph.Basic
import ProxyPlan.Rule.Match

namespace ProxyPlan.Compile

/-! ## Rules -/

/-- What a rule can send requests to. -/
inductive Target where
  | outbound (tag : String)
  | balancer (tag : String)
deriving DecidableEq

/-- The target that a node is. -/
def target? (n : Node) : Option Target :=
  match n.role with
  | .terminal c => some (.outbound c.tag)
  | .proxy c => some (.outbound c.tag)
  | .balancer c => some (.balancer c.tag)
  | .device _ | .inbound _ | .routing _ => none

/-- The tag of an outbound. -/
def Target.outbound? : Target → Option String
  | .outbound tag => some tag
  | .balancer _ => none

/-- The tag of a balancer. -/
def Target.balancer? : Target → Option String
  | .outbound _ => none
  | .balancer tag => some tag

/-- A list unless it is empty. -/
def nonEmpty? (xs : List String) : Option (List String) :=
  if xs.isEmpty then none else some xs

/-- The rule that sends what predicates match to a target. -/
def rule (p : Predicates) (t : Target) : Document.Rule where
  type := "field"
  ruleTag := none
  inboundTag := p.inboundTag?.map fun tag => [tag]
  domain := nonEmpty? p.domain
  ip := nonEmpty? p.ip
  port := p.port?
  network := p.network?
  protocol := nonEmpty? p.protocol
  outboundTag := t.outbound?
  balancerTag := t.balancer?

/-- The targets that the links of a node lead to, in order. -/
def targetsOf (g : Graph) (id : String) : List Target :=
  (g.outgoing id).filterMap fun e => (g.target? e).bind target?

/-- A link from an inbound to a routing node. -/
def isEntry (g : Graph) (e : Edge) : Bool :=
  g.kind? e.source = some .inbound && g.kind? e.target = some .routing

/-- The routing nodes that inbounds lead to, best link first. -/
def entered (g : Graph) : List String :=
  Order.distinct ((Graph.byPriority (g.edges.filter (isEntry g))).map Edge.target)

/-- The identities of the routing nodes, in the order of their rules. -/
def routingOrder (g : Graph) : List String :=
  let all := (g.nodes.filter fun n => (Node.routing? n).isSome).map Placed.id
  entered g ++ Order.firsts (entered g) all

/-- The first routing node of an identity. -/
def routingOf? (g : Graph) (id : String) : Option Routing :=
  (g.nodes.filter fun n => n.id == id).findSome? Node.routing?

/-- The rules of routing nodes. -/
def routingRules (g : Graph) : List Document.Rule :=
  (routingOrder g).flatMap fun id =>
    match routingOf? g id with
    | some c => (targetsOf g id).map (rule c.predicates)
    | none => []

/-- The rules of inbounds that lead straight to a target. -/
def directRules (g : Graph) : List Document.Rule :=
  g.nodes.flatMap fun n =>
    match Node.inbound? n with
    | some c => (targetsOf g n.id).map (rule (.ofInbound c.tag))
    | none => []

/-- All rules of a graph. -/
def rules (g : Graph) : List Document.Rule := routingRules g ++ directRules g

/-! ## Balancers -/

/-- The selectors that are declared, trimmed, blank ones left out. -/
def declared (c : Balancer) : List String := c.selector.filterMap Text.nonBlank?

/-- Add a tag unless the selector picks it already. -/
def cover (selector : List String) (tag : String) : List String :=
  if Rule.selectorMatches selector tag then selector else selector ++ [tag]

/-- A balancer: it picks what is declared, and the outbounds it leads to. -/
def balancer (g : Graph) (id : String) (c : Balancer) : Document.Balancer where
  tag := c.tag
  selector := ((targetsOf g id).filterMap Target.outbound?).foldl cover (declared c)
  strategy := if c.strategy = .random then none else some c.strategy.name

end ProxyPlan.Compile
