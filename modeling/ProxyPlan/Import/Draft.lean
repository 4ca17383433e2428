/-
ProxyPlan.Import.Draft — a graph that grows entry by entry.

Nodes and edges are only ever added at the end. The identity of a node is its
kind and its place in the list, and that of an edge its place, so both are
fresh; two nodes are linked at most once. Tags are looked up among the nodes
that are there already, and of several nodes with one tag the latest counts.
-/
import ProxyPlan.Import.Settings
import ProxyPlan.Import.Warning
import ProxyPlan.Rule.Match
import ProxyPlan.Topology.Edge

namespace ProxyPlan.Import

/-- A graph under construction, with what has been said about its entries. -/
structure Draft where
  nodes : List Node
  edges : List Edge
  /-- How many inbounds have been taken over. -/
  inbounds : Nat
  /-- How many outbounds have been taken over. -/
  outbounds : Nat
  /-- How many balancers have been taken over. -/
  balancers : Nat
  /-- How many rules have been taken over. -/
  rules : Nat
  warnings : List Warning

namespace Draft

/-- Nothing yet. -/
def empty : Draft := ⟨[], [], 0, 0, 0, 0, []⟩

/-- Say something. -/
def warn (d : Draft) (w : Warning) : Draft :=
  { d with warnings := d.warnings ++ [w] }

/-! ## Nodes -/

/-- The identity of the next node. -/
def nextId (d : Draft) (k : Kind) : String :=
  k.name ++ "-" ++ toString (d.nodes.length + 1)

/-- Add a node. -/
def add (d : Draft) (role : Role) : Draft :=
  { d with nodes := d.nodes ++ [⟨d.nextId role.kind, .origin, role, none⟩] }

/-- The identity of the latest node of some kinds with a tag. -/
def latest? (d : Draft) (kinds : Kind → Bool) (tag : String) : Option String :=
  (d.nodes.reverse.find? fun n => kinds (Node.kind n) && Node.tag? n = some tag).map Placed.id

/-- The identities of the nodes of some kinds. -/
def idsOf (d : Draft) (test : Node → Bool) : List String :=
  (d.nodes.filter test).map Placed.id

/-! ## Edges -/

/-- Two nodes are linked. -/
def isLinked (d : Draft) (source target : String) : Bool :=
  d.edges.any fun e => e.source == source && e.target == target

/-- Link two nodes, unless they are linked. -/
def link (d : Draft) (source target : String) (priority : Option UInt32) : Draft :=
  if d.isLinked source target then d
  else
    let edge : Edge := ⟨"edge-" ++ toString (d.edges.length + 1), source, target, .plain,
      priority.map fun p => ⟨some p, none, none⟩⟩
    { d with edges := d.edges ++ [edge] }

/-- Link several nodes to one. -/
def linkAll (d : Draft) (sources : List String) (target : String) (priority : Option UInt32) :
    Draft :=
  sources.foldl (fun d source => d.link source target priority) d

/-! ## Endpoints -/

/-- Take over an inbound. -/
def addInbound (i : Document.Inbound) (d : Draft) : Draft :=
  match InboundProtocol.naming.find? i.protocol with
  | some protocol =>
    let d := d.add (.inbound (inboundOf protocol (d.nextId .inbound) i))
    { d with inbounds := d.inbounds + 1 }
  | none => d.warn (.unsupported .inbounds i.tag i.protocol)

/-- Take over an outbound. -/
def addOutbound (o : Document.Outbound) (d : Draft) : Draft :=
  match TerminalProtocol.naming.find? o.protocol, ProxyProtocol.naming.find? o.protocol with
  | some protocol, _ =>
    let d := d.add (.terminal ⟨tagOr o.tag (d.nextId .terminal), protocol⟩)
    { d with outbounds := d.outbounds + 1 }
  | none, some protocol =>
    let d := d.add (.proxy (proxyOf protocol (d.nextId .proxy) o))
    { d with outbounds := d.outbounds + 1 }
  | none, none => d.warn (.unsupported .outbounds o.tag o.protocol)

/-! ## Balancers -/

/-- The strategy of a balancer, and whether its name is not known. -/
def strategyOf (b : Document.Balancer) : Strategy × List Warning :=
  match b.strategy with
  | none => (.random, [])
  | some name =>
    match Strategy.naming.find? name with
    | some strategy => (strategy, [])
    | none => (.random, [.unknownStrategy b.tag name])

/-- An outbound that a selector picks. -/
def isPicked (selector : List String) (n : Node) : Bool :=
  (Node.kind n).isOutbound && (Node.tag? n).any (Rule.selectorMatches selector)

/-- Take over a balancer, linked to the outbounds that it picks. -/
def addBalancer (b : Document.Balancer) (d : Draft) : Draft :=
  let (strategy, warnings) := strategyOf b
  let id := d.nextId .balancer
  let targets := d.idsOf (isPicked b.selector)
  let d := { d with warnings := d.warnings ++ warnings }
  let d := targets.foldl (fun d target => d.link id target none) d
  let d := d.add (.balancer ⟨tagOr b.tag id, strategy, b.selector⟩)
  { d with balancers := d.balancers + 1 }

/-! ## Rules -/

/-- The identity of the target of a rule, which an outbound comes first for. -/
def target (d : Draft) (number : Nat) (r : Document.Rule) : Except Warning String :=
  match r.outboundTag, r.balancerTag with
  | some tag, _ =>
    match d.latest? Kind.isOutbound tag with
    | some id => .ok id
    | none => .error (.unknownTarget number tag)
  | none, some tag =>
    match d.latest? (· = .balancer) tag with
    | some id => .ok id
    | none => .error (.unknownTarget number tag)
  | none, none => .error (.noTarget number)

/-- The latest inbound with a tag. -/
def inbound? (d : Draft) (tag : String) : Option String := d.latest? (· = .inbound) tag

/-- The inbounds a rule lists; a rule that lists none is for all of them. -/
def sources (d : Draft) (listed : List String) : List String :=
  if listed.isEmpty then d.idsOf fun n => Node.kind n = .inbound
  else listed.filterMap d.inbound?

/-- What is said about listed inbounds that are not there. -/
def unknownInbounds (d : Draft) (number : Nat) (listed : List String) : List Warning :=
  (listed.filter fun tag => (d.inbound? tag).isNone).map (.unknownInbound number)

/-- The name of a rule, or its number. -/
def ruleTag (number : Nat) (r : Document.Rule) : String :=
  (r.ruleTag.filter fun tag => !Text.blank tag).getD ("rule-" ++ toString number)

/-- Lead inbounds to the target of a rule, over a node of its own if wanted. -/
def lead (d : Draft) (overNode : Bool) (index : Nat) (r : Document.Rule) (sources : List String)
    (target : String) : Draft :=
  if overNode then
    let id := d.nextId .routing
    let d := d.add (.routing ⟨ruleTag (index + 1) r, predicatesOf r⟩)
    (d.linkAll sources id (Text.word? index)).link id target none
  else d.linkAll sources target (Text.word? index)

/-- Take over a rule, whose place in the document becomes a priority. -/
def addRule (overNode : Bool) (index : Nat) (r : Document.Rule) (d : Draft) : Draft :=
  match d.target (index + 1) r with
  | .error w => d.warn w
  | .ok target =>
    let listed := r.inboundTag.getD []
    let sources := d.sources listed
    let said := d.unknownInbounds (index + 1) listed
    let d := { d with rules := d.rules + 1, warnings := d.warnings ++ said }
    d.lead overNode index r sources target

/-! ## Lists -/

/-- Take over the entries of a list, counted from `index`. -/
def addAll {α : Type} (c : Json.Codec α) (listing : Listing) (add : Nat → α → Draft → Draft) :
    (index : Nat) → List Json → Draft → Draft
  | _, [], d => d
  | index, entry :: rest, d =>
    let d := match c.readValue entry with
      | .ok x => add index x d
      | .error fault => d.warn (.unreadable listing (index + 1) fault)
    addAll c listing add (index + 1) rest d

end Draft
end ProxyPlan.Import
