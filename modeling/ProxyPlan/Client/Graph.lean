/-
ProxyPlan.Client.Graph — the small graph of one user: where the user's traffic
may go, and the rules that send it there.

It shares places, edges, transports and predicates with the general topology,
and knows only five kinds of nodes.
-/
import ProxyPlan.Topology.Edge
import ProxyPlan.Topology.Node

namespace ProxyPlan.Client

open Json (Codec Fields Naming)

/-- What a node of a client graph is. -/
inductive Kind where
  | user
  | server
  | internet
  | block
  | rules
deriving DecidableEq, Repr

/-- The kinds of nodes by name. -/
def Kind.naming : Naming Kind where
  all := [.user, .server, .internet, .block, .rules]
  name
    | .user => "user"
    | .server => "server"
    | .internet => "internet"
    | .block => "block"
    | .rules => "rules"

/-- The ports on which the user's own programs are served. -/
structure LocalPorts where
  socks : UInt16
  http : Option UInt16
deriving DecidableEq

/-- The ports when the user says nothing about them. -/
def LocalPorts.usual : LocalPorts := ⟨10808, some 10809⟩

/-- A server to send traffic through. -/
structure Relay where
  tag : String
  protocol : ProxyProtocol
  address : String
  port : UInt32
  id : Option String
  password : Option String
  method : Option String
  transport : Option Transport
deriving DecidableEq

/-- What a node is, with the configuration of its kind. -/
inductive Role where
  | user (ports : LocalPorts)
  | server (relay : Relay)
  | internet (tag : String)
  | block (tag : String)
  | rules (config : Routing)
deriving DecidableEq

/-- The kind of a role. -/
def Role.kind : Role → Kind
  | .user _ => .user
  | .server _ => .server
  | .internet _ => .internet
  | .block _ => .block
  | .rules _ => .rules

/-- A node of a client graph. -/
abbrev Node := Placed Role

/-- The tag of the outbound a node becomes, if it becomes one. -/
def Node.outboundTag? (n : Node) : Option String :=
  match n.role with
  | .server relay => some relay.tag
  | .internet tag => some tag
  | .block tag => some tag
  | .user _ | .rules _ => none

/-- The graph of one user. -/
structure Graph where
  nodes : List Node
  edges : List Edge
deriving DecidableEq

/-! ## Format -/

/-- The format of the local ports. -/
def LocalPorts.codec : Codec LocalPorts :=
  .record "UserConfig"
    (.defaulting "socksPort" .word16 LocalPorts.usual.socks <|
      .optional "httpPort" .word16 .done)
    (fun (socks, http, ()) => ⟨socks, http⟩) fun p => (p.socks, p.http, ())

/-- The format of a server. -/
def Relay.codec : Codec Relay :=
  .record "SimpleServerConfig"
    (.defaulting "tag" .text "" <| .required "protocol" ProxyProtocol.naming.codec <|
      .defaulting "address" .text "" <| .defaulting "port" .word32 0 <|
      .optional "id" .text <| .optional "password" .text <| .optional "method" .text <|
      .optional "transport" Transport.codec .done)
    (fun (tag, protocol, address, port, id, password, method, transport, ()) =>
      ⟨tag, protocol, address, port, id, password, method, transport⟩)
    fun c => (c.tag, c.protocol, c.address, c.port, c.id, c.password, c.method, c.transport, ())

/-- The format of a configuration that is only a tag. -/
def tagCodec (name usual : String) : Codec String :=
  .record name (.defaulting "tag" .text usual .done) (fun (tag, ()) => tag) fun tag => (tag, ())

/-- The format of the configuration of each kind. -/
def Role.codec : Kind → Codec Role
  | .user => LocalPorts.codec.part .user fun | .user c => some c | _ => none
  | .server => Relay.codec.part .server fun | .server c => some c | _ => none
  | .internet =>
    (tagCodec "InternetConfig" "direct").part .internet fun | .internet c => some c | _ => none
  | .block => (tagCodec "BlockConfig" "block").part .block fun | .block c => some c | _ => none
  | .rules => Routing.codec.part .rules fun | .rules c => some c | _ => none

/-- The format of a node. -/
def Node.codec : Codec Node :=
  .tagged "SimpleNode" "nodeType" Kind.naming (fun n => n.role.kind) fun k =>
    Placed.body (Role.codec k)

/-- The format of a client graph. -/
def Graph.codec : Codec Graph :=
  .record "SimpleGraph"
    (.defaulting "nodes" (.list Node.codec) [] <| .defaulting "edges" (.list Edge.codec) [] .done)
    (fun (nodes, edges, ()) => ⟨nodes, edges⟩) fun g => (g.nodes, g.edges, ())

end ProxyPlan.Client
