/-
ProxyPlan.Client.Compile — from a client graph to the documents of the user
and of the servers that pass traffic on.

The user's document serves local programs and lists every outbound, the user's
default one first. A server that leads to another server gets a document of
its own, which accepts what the user's document sends and passes it on.
-/
import ProxyPlan.Client.Graph
import ProxyPlan.Compile.Basic

namespace ProxyPlan.Client

open Compile (Options Output Target)

/-! ## Looking around in the graph -/

/-- The node of an identity; of several the last one counts. -/
def Graph.node? (g : Graph) (id : String) : Option Node :=
  g.nodes.reverse.find? fun n => n.id == id

/-- The nodes that edges lead to from an identity, in the order of priorities. -/
def Graph.targets (g : Graph) (id : String) : List Node :=
  (ProxyPlan.Graph.byPriority (g.edges.filter fun e => e.source == id)).filterMap fun e =>
    g.node? e.target

/-- The first user, with identity and ports. -/
def Graph.user? (g : Graph) : Option (String × LocalPorts) :=
  g.nodes.findSome? fun n =>
    match n.role with
    | .user ports => some (n.id, ports)
    | _ => none

/-- The tag of the user's default outbound. -/
def Graph.defaultTag? (g : Graph) : Option String :=
  g.user?.bind fun (id, _) => (g.targets id).findSome? Node.outboundTag?

/-- The first server that a server leads to. -/
def Graph.nextRelay? (g : Graph) (id : String) : Option Relay :=
  (g.targets id).findSome? fun n =>
    match n.role with
    | .server relay => some relay
    | _ => none

/-! ## Inbounds and outbounds -/

/-- An inbound for programs of the user's own machine. -/
def localInbound (tag : String) (protocol : InboundProtocol) (port : UInt16) :
    Document.Inbound :=
  Compile.inbound ⟨tag, protocol, "127.0.0.1", port.toUInt32, some true, [], none, none⟩ none

/-- A server as a proxy outbound. -/
def Relay.toProxy (r : Relay) : Proxy :=
  ⟨r.tag, r.protocol, r.address, r.port, r.id, r.password, r.method, r.transport⟩

/-- The outbound to a server. -/
def Relay.outbound (r : Relay) : Document.Outbound :=
  Compile.proxy r.toProxy none (Transport.stream? r.transport)

/-- The outbound straight to the internet. -/
def direct (tag : String) : Document.Outbound := Compile.terminal ⟨tag, .freedom⟩

/-- The outbound that a node becomes. -/
def outboundOf? (n : Node) : Option Document.Outbound :=
  match n.role with
  | .server relay => some relay.outbound
  | .internet tag => some (direct tag)
  | .block tag => some (Compile.terminal ⟨tag, .blackhole⟩)
  | .user _ | .rules _ => none

/-- List one more outbound: before the others if it has the default tag, and else behind
them. -/
def withOutbound (tag : Option String) (listed : List Document.Outbound)
    (o : Document.Outbound) : List Document.Outbound :=
  if tag = some o.tag then o :: listed else listed ++ [o]

/-- List outbounds one by one, those with the default tag before the others. -/
def defaultFirst (tag : Option String) (outbounds : List Document.Outbound) :
    List Document.Outbound :=
  outbounds.foldl (withOutbound tag) []

/-- All outbounds of the user's document; there is always a way out. -/
def Graph.outbounds (g : Graph) : List Document.Outbound :=
  let listed := defaultFirst g.defaultTag? (g.nodes.filterMap outboundOf?)
  let hasInternet := g.nodes.any fun n => n.role.kind = .internet
  if hasInternet || listed.any fun o => o.tag == "direct" then listed
  else listed ++ [direct "direct"]

/-! ## Documents -/

/-- The inbounds of the user's document. -/
def LocalPorts.inbounds (p : LocalPorts) : List Document.Inbound :=
  localInbound "socks-in" .socks p.socks ::
    p.http.toList.map (localInbound "http-in" .http)

/-- The rules of a node. -/
def Graph.rulesOf (g : Graph) (n : Node) : List Document.Rule :=
  match n.role with
  | .rules c =>
    ((g.targets n.id).filterMap Node.outboundTag?).map fun tag =>
      Compile.rule c.predicates (.outbound tag)
  | _ => []

/-- The user's document. -/
def Graph.clientDocument (g : Graph) (o : Options) : Document where
  log := ⟨o.logLevel⟩
  inbounds := ((g.user?.map Prod.snd).getD .usual).inbounds
  outbounds := g.outbounds
  routing := ⟨o.domainStrategy, g.nodes.flatMap g.rulesOf, []⟩

/-- The listening end of a server. -/
def Relay.listener (r : Relay) : Inbound :=
  ⟨r.tag ++ "-in", r.protocol.toInbound, "", r.port, none, [⟨"", r.id, r.password, none⟩],
    r.method, r.transport⟩

/-- The document of a server that passes everything on to the next one. -/
def relayDocument (r next : Relay) (o : Options) : Document where
  log := ⟨o.logLevel⟩
  inbounds := [Compile.inbound r.listener (Transport.stream? r.transport)]
  outbounds := [next.outbound, direct "direct"]
  routing := ⟨o.domainStrategy,
    [Compile.rule (.ofInbound r.listener.tag) (.outbound next.tag)], []⟩

/-- The document of a node, if it is a server that leads to another one. -/
def Graph.relayOutput? (g : Graph) (o : Options) (n : Node) : Option Output :=
  match n.role with
  | .server r => (g.nextRelay? n.id).map fun next =>
    ⟨"server-" ++ r.tag ++ ".json", relayDocument r next o⟩
  | _ => none

/-- The documents of a client graph, the user's first. -/
def Graph.compile (g : Graph) (o : Options) : List Output :=
  ⟨"client.json", g.clientDocument o⟩ :: g.nodes.filterMap (g.relayOutput? o)

end ProxyPlan.Client
