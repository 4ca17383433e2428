/-
ProxyPlan.Compile.Basic — from a topology to the documents of its servers.

Each group becomes one document. What joins two groups is not in either, but
both ends look at it in the whole graph: it decides how they carry the
connection, and where an outbound that names no server finds one.
-/
import ProxyPlan.Compile.Endpoint
import ProxyPlan.Compile.Group
import ProxyPlan.Compile.Routing
import ProxyPlan.Document.Check
import ProxyPlan.Document.Stream
import ProxyPlan.Json.Write

namespace ProxyPlan

open Json (Codec Fields)

namespace Compile

/-! ## Options and results -/

/-- What the user chooses for all documents. -/
structure Options where
  logLevel : String
  domainStrategy : String
deriving DecidableEq

/-- The choices when the user makes none. -/
def Options.usual : Options := ⟨"warning", "AsIs"⟩

/-- The format of the options. -/
def Options.codec : Codec Options :=
  .record "ExportOptions"
    (.required "logLevel" .text <| .required "domainStrategy" .text .done)
    (fun (logLevel, domainStrategy, ()) => ⟨logLevel, domainStrategy⟩)
    fun o => (o.logLevel, o.domainStrategy, ())

/-- A document with the name of its file. -/
structure Output where
  filename : String
  document : Document

/-- A file with what stands in it. -/
structure File where
  path : String
  content : String
deriving DecidableEq

/-- The file of a document: one line a field, and a line break at the end. -/
def Output.file (o : Output) : File where
  path := o.filename
  content := (Document.codec.write o.document).toLines ++ "\n"

/-! ## Connections between groups -/

/-- The transports of those edges that join two groups. -/
def crossTransports (g : Graph) (edges : List Edge) : List Transport :=
  (edges.filter g.crossesGroups).filterMap Edge.transport?

/-- The stream settings of an inbound. -/
def inboundStream (g : Graph) (id : String) (c : Inbound) : Option Document.Stream :=
  Transport.stream? (Transport.choose (crossTransports g (g.incoming id)) c.transport)

/-- The stream settings of a proxy outbound. -/
def proxyStream (g : Graph) (id : String) (c : Proxy) : Option Document.Stream :=
  Transport.stream? (Transport.choose (crossTransports g (g.outgoing id)) c.transport)

/-- The peer that an edge leads to: an inbound on a server with a host. -/
def edgePeer? (g : Graph) (servers : List Server) (e : Edge) : Option Peer := do
  let n ← g.target? e
  let c ← Node.inbound? n
  let id ← n.server
  let server ← servers.find? fun s => s.id == id
  let host ← Text.nonBlank? server.host
  return ⟨host, c.port⟩

/-- The peer of a proxy outbound on another server. -/
def peer? (g : Graph) (servers : List Server) (id : String) : Option Peer :=
  ((g.outgoing id).filter g.crossesGroups).findSome? (edgePeer? g servers)

/-! ## Documents -/

/-- The inbound that a node becomes. -/
def inboundOf? (whole : Graph) (n : Node) : Option Document.Inbound :=
  match n.role with
  | .inbound c => some (inbound c (inboundStream whole n.id c))
  | _ => none

/-- The outbound that a node becomes. -/
def outboundOf? (whole : Graph) (servers : List Server) (n : Node) : Option Document.Outbound :=
  match n.role with
  | .terminal c => some (terminal c)
  | .proxy c => some (proxy c (peer? whole servers n.id) (proxyStream whole n.id c))
  | _ => none

/-- The balancer that a node becomes. -/
def balancerOf? (own : Graph) (n : Node) : Option Document.Balancer :=
  match n.role with
  | .balancer c => some (balancer own n.id c)
  | _ => none

/-- The document of a group. -/
def document (whole : Graph) (servers : List Server) (o : Options) (g : Group) : Document where
  log := ⟨o.logLevel⟩
  inbounds := g.nodes.filterMap (inboundOf? whole)
  outbounds := g.nodes.filterMap (outboundOf? whole servers)
  routing := ⟨o.domainStrategy, rules g.graph, g.nodes.filterMap (balancerOf? g.graph)⟩

end Compile

/-- The documents of a topology, one for each group. -/
def Topology.compile (t : Topology) (o : Compile.Options) : List Compile.Output :=
  (Compile.groups t).map fun g =>
    ⟨g.filename, Compile.document ⟨t.nodes, t.edges⟩ t.servers o g⟩

end ProxyPlan
