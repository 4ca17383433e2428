/-
ProxyPlan.Audit.Structure — checks of nodes and edges against each other.
-/
import ProxyPlan.Audit.Single
import ProxyPlan.Audit.Tally
import ProxyPlan.Graph.Search
import ProxyPlan.Topology.Connection

namespace ProxyPlan.Audit

/-! ## Edges -/

/-- Transports count only where they leave a group. -/
def transportsBetweenGroups (g : Graph) : List Issue :=
  g.edges.flatMap fun e =>
    match e.transport? with
    | some t => if g.crossesGroups e then transportIssues e t else []
    | none => []

/-- Edges that lead to or from no node; the missing source is named first. -/
def danglingEdges (g : Graph) : List Issue :=
  g.dangling.map fun e =>
    .atEdge e.id (.unknownNode e.id (if (g.source? e).isNone then e.source else e.target))

/-- Links between kinds that must not be joined. -/
def refusedEdges (g : Graph) : List Issue :=
  g.edges.flatMap fun e =>
    match g.source? e, g.target? e with
    | some s, some t =>
      match refusal? s.kind t.kind with
      | some reason =>
        [.atBoth s.id e.id (.refusedEdge e.id (Node.displayName s) (Node.displayName t) reason)]
      | none => []
    | _, _ => []

/-- The protocol an outbound must speak for a device. -/
def wantedProtocol : DeviceLink → ProxyProtocol
  | .http => .http
  | .socks | .tunnel => .socks

/-- Devices joined to outbounds that speak another protocol. -/
def deviceProtocols (g : Graph) : List Issue :=
  g.edges.flatMap fun e =>
    match g.source? e, g.target? e with
    | some s, some t =>
      match s.role, t.role with
      | .device d, .proxy p =>
        let wanted := wantedProtocol d.link
        if p.protocol = wanted then []
        else
          let found := Finding.deviceProtocol d.link p.tag p.protocol wanted
          [.atBoth s.id e.id found, .atBoth t.id e.id found]
      | _, _ => []
    | _, _ => []

/-! ## Tags and ports -/

/-- The trimmed tag of a node, if it is not blank. -/
def plainTag? (n : Node) : Option String := n.tag?.bind Text.nonBlank?

/-- Tags that several nodes carry, at each of them: the tags are counted first. -/
def sharedTags (nodes : List Node) : List Issue :=
  let holders := Tally.ofKeys (nodes.filterMap plainTag?)
  nodes.flatMap fun n =>
    match n.tag?.map Text.trim with
    | some tag =>
      when (1 < holders.count tag) (.atNode n.id (.sharedTag tag (holders.count tag)))
    | none => []

/-- The group and port an inbound listens in and on. -/
def listening? (n : Node) : Option (Option String × UInt32) :=
  (Node.inbound? n).map fun c => (Node.group n, c.port)

/-- Inbounds that listen where another one does: the places are counted first. -/
def sharedPorts (nodes : List Node) : List Issue :=
  let holders := Tally.ofKeys (nodes.filterMap listening?)
  nodes.flatMap fun n =>
    match Node.inbound? n with
    | some c =>
      when (1 < holders.count (Node.group n, c.port)) (.atNode n.id (.sharedPort c.tag c.port))
    | none => []

/-! ## Nodes among their edges -/

/-- A finding at each node that a test picks out. -/
def atNodes (nodes : List Node) (test : Node → Bool) (found : String → Finding) : List Issue :=
  (nodes.filter test).map fun n => .atNode n.id (found (Node.displayName n))

/-- A proxy outbound leads to the node. -/
def isFed (g : Graph) (id : String) : Bool :=
  (g.incoming id).any fun e => g.kind? e.source = some .proxy

/-- A terminal outbound can be reached from the node. -/
def reachesTerminal (g : Graph) (id : String) : Bool :=
  (g.reachable id).any fun v => g.kind? v = some .terminal

/-- Inbounds that lead nowhere. -/
def inboundsWithoutExit (g : Graph) : List Issue :=
  atNodes g.nodes (fun n => Node.kind n = .inbound && (g.outgoing n.id).isEmpty)
    .inboundWithoutExit

/-- Inbounds that no other server uses. -/
def inboundsForClients (g : Graph) : List Issue :=
  atNodes g.nodes (fun n => Node.kind n = .inbound && !isFed g n.id) .inboundForClients

/-- Outbounds that nothing leads to. -/
def unusedOutbounds (g : Graph) : List Issue :=
  atNodes g.nodes (fun n => (Node.kind n).isOutbound && (g.incoming n.id).isEmpty)
    .unusedOutbound

/-- Proxy outbounds behind which nothing of the graph follows. -/
def endsOfChains (g : Graph) : List Issue :=
  atNodes g.nodes (fun n => Node.kind n = .proxy && (g.outgoing n.id).isEmpty) .endOfChain

/-- Inbounds whose traffic can never leave. -/
def inboundsWithoutDestination (g : Graph) : List Issue :=
  atNodes g.nodes (fun n => Node.kind n = .inbound && !reachesTerminal g n.id) .noDestination

/-- What messages call the node of an identity. -/
def nameOf (g : Graph) (id : String) : String :=
  ((g.node? id).map Node.displayName).getD id

/-- The first loop that does not pass from one server to another, shown at the
node that closes it. -/
def loops (g : Graph) : List Issue :=
  match g.loop? with
  | some (source, target) => [.atNode target (.loop (nameOf g source) (nameOf g target))]
  | none => []

/-- All checks of nodes and edges against each other. -/
def structureIssues (g : Graph) : List Issue :=
  danglingEdges g ++ refusedEdges g ++ sharedTags g.nodes ++ sharedPorts g.nodes ++
    inboundsWithoutExit g ++ inboundsForClients g ++ deviceProtocols g ++ unusedOutbounds g ++
    endsOfChains g ++ inboundsWithoutDestination g ++ loops g

end ProxyPlan.Audit
