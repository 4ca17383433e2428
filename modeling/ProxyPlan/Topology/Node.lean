/-
ProxyPlan.Topology.Node — the nodes of a topology.

A node is an identity, a place on the canvas and a role. The role says what
kind of node it is and holds the configuration of that kind. The server a node
is assigned to is only a name; whether there is such a server is of no concern
here.
-/
import ProxyPlan.Json.Tagged
import ProxyPlan.Text.Blank
import ProxyPlan.Topology.Predicates
import ProxyPlan.Topology.Transport

namespace ProxyPlan

open Json (Codec Fields)

/-! ## Places -/

/-- A place on the canvas. -/
structure Position where
  x : Number.Binary64
  y : Number.Binary64
deriving DecidableEq

/-- The upper left corner. -/
def Position.origin : Position := ⟨.zero, .zero⟩

/-- The format of a place. -/
def Position.codec : Codec Position :=
  .record "Position" (.required "x" .real <| .required "y" .real .done)
    (fun (x, y, ()) => ⟨x, y⟩) fun p => (p.x, p.y, ())

/-- Something with an identity, a place and perhaps a server. -/
structure Placed (Role : Type) where
  id : String
  position : Position
  role : Role
  server : Option String
deriving DecidableEq

/-- The format of a placed thing whose kind is known. -/
def Placed.body {Role : Type} (role : Codec Role) : Codec (Placed Role) :=
  .record "NodeBase"
    (.required "id" .text <| .defaulting "position" Position.codec .origin <|
      .required "data" role <| .optional "serverId" .text .done)
    (fun (id, position, role, server, ()) => ⟨id, position, role, server⟩)
    fun n => (n.id, n.position, n.role, n.server, ())

/-! ## Configurations -/

/-- A device whose traffic enters the graph. -/
structure Device where
  label : String
  link : DeviceLink
deriving DecidableEq

/-- A user of an inbound. -/
structure User where
  email : String
  id : Option String
  password : Option String
  level : Option UInt32
deriving DecidableEq

/-- A listening point. -/
structure Inbound where
  tag : String
  protocol : InboundProtocol
  listen : String
  port : UInt32
  sniffing : Option Bool
  users : List User
  method : Option String
  transport : Option Transport
deriving DecidableEq

/-- A routing rule. -/
structure Routing where
  tag : String
  predicates : Predicates
deriving DecidableEq

/-- A choice between outbounds; the selector lists beginnings of their tags. -/
structure Balancer where
  tag : String
  strategy : Strategy
  selector : List String
deriving DecidableEq

/-- An outbound at which traffic leaves the graph for good. -/
structure Terminal where
  tag : String
  protocol : TerminalProtocol
deriving DecidableEq

/-- An outbound that passes traffic on to another server. -/
structure Proxy where
  tag : String
  protocol : ProxyProtocol
  address : String
  port : UInt32
  id : Option String
  password : Option String
  method : Option String
  transport : Option Transport
deriving DecidableEq

/-! ## Nodes -/

/-- What a node is, with the configuration of its kind. -/
inductive Role where
  | device (config : Device)
  | inbound (config : Inbound)
  | routing (config : Routing)
  | balancer (config : Balancer)
  | terminal (config : Terminal)
  | proxy (config : Proxy)
deriving DecidableEq

/-- The kind of a role. -/
def Role.kind : Role → Kind
  | .device _ => .device
  | .inbound _ => .inbound
  | .routing _ => .routing
  | .balancer _ => .balancer
  | .terminal _ => .terminal
  | .proxy _ => .proxy

/-- The tag of a role; devices have none. -/
def Role.tag? : Role → Option String
  | .device _ => none
  | .inbound c => some c.tag
  | .routing c => some c.tag
  | .balancer c => some c.tag
  | .terminal c => some c.tag
  | .proxy c => some c.tag

/-- A node of a topology. -/
abbrev Node := Placed Role

namespace Node

/-- The kind of a node. -/
def kind (n : Node) : Kind := n.role.kind

/-- The tag of a node; devices have none. -/
def tag? (n : Node) : Option String := n.role.tag?

/-- The group a node belongs to: the server it is assigned to, if any. -/
def group (n : Node) : Option String := n.server.filter fun s => s ≠ ""

/-- The tag unless it is blank, else the identity: how messages call a node. -/
def displayName (n : Node) : String :=
  match n.tag? with
  | some tag => if Text.blank tag then n.id else tag
  | none => n.id

/-- The configuration of an inbound. -/
def inbound? (n : Node) : Option Inbound :=
  match n.role with
  | .inbound c => some c
  | _ => none

/-- The configuration of a routing node. -/
def routing? (n : Node) : Option Routing :=
  match n.role with
  | .routing c => some c
  | _ => none

end Node

/-! ## Format -/

/-- The format of a device. -/
def Device.codec : Codec Device :=
  .record "DeviceConfig"
    (.defaulting "label" .text "" <| .required "connectionType" DeviceLink.naming.codec .done)
    (fun (label, link, ()) => ⟨label, link⟩) fun c => (c.label, c.link, ())

/-- The format of a user. -/
def User.codec : Codec User :=
  .record "InboundUser"
    (.defaulting "email" .text "" <| .optional "id" .text <| .optional "password" .text <|
      .optional "level" .word32 .done)
    (fun (email, id, password, level, ()) => ⟨email, id, password, level⟩)
    fun u => (u.email, u.id, u.password, u.level, ())

/-- The format of an inbound. -/
def Inbound.codec : Codec Inbound :=
  .record "InboundConfig"
    (.defaulting "tag" .text "" <| .required "protocol" InboundProtocol.naming.codec <|
      .defaulting "listen" .text "" <| .defaulting "port" .word32 0 <|
      .optional "sniffing" .bool <| .items "users" User.codec <|
      .optional "method" .text <| .optional "transport" Transport.codec .done)
    (fun (tag, protocol, listen, port, sniffing, users, method, transport, ()) =>
      ⟨tag, protocol, listen, port, sniffing, users, method, transport⟩)
    fun c => (c.tag, c.protocol, c.listen, c.port, c.sniffing, c.users, c.method, c.transport, ())

/-- The format of a routing rule: its tag stands among its predicates. -/
def Routing.codec : Codec Routing :=
  .flattened "RoutingConfig" (.defaulting "tag" .text "" .done) Predicates.fields
    (fun ((tag, ()), predicates) => ⟨tag, .ofParts predicates⟩)
    fun c => ((c.tag, ()), c.predicates.parts)

/-- The format of a balancer. -/
def Balancer.codec : Codec Balancer :=
  .record "BalancerConfig"
    (.defaulting "tag" .text "" <| .defaulting "strategy" Strategy.naming.codec .random <|
      .defaulting "selector" (.list .text) [] .done)
    (fun (tag, strategy, selector, ()) => ⟨tag, strategy, selector⟩)
    fun c => (c.tag, c.strategy, c.selector, ())

/-- The format of a terminal outbound. -/
def Terminal.codec : Codec Terminal :=
  .record "TerminalOutboundConfig"
    (.defaulting "tag" .text "" <| .required "protocol" TerminalProtocol.naming.codec .done)
    (fun (tag, protocol, ()) => ⟨tag, protocol⟩) fun c => (c.tag, c.protocol, ())

/-- The format of a proxy outbound. -/
def Proxy.codec : Codec Proxy :=
  .record "ProxyOutboundConfig"
    (.defaulting "tag" .text "" <| .required "protocol" ProxyProtocol.naming.codec <|
      .defaulting "serverAddress" .text "" <| .defaulting "serverPort" .word32 0 <|
      .optional "id" .text <| .optional "password" .text <| .optional "method" .text <|
      .optional "transport" Transport.codec .done)
    (fun (tag, protocol, address, port, id, password, method, transport, ()) =>
      ⟨tag, protocol, address, port, id, password, method, transport⟩)
    fun c => (c.tag, c.protocol, c.address, c.port, c.id, c.password, c.method, c.transport, ())

/-- The format of the configuration of each kind. -/
def Role.codec : Kind → Codec Role
  | .device => Device.codec.part .device fun | .device c => some c | _ => none
  | .inbound => Inbound.codec.part .inbound fun | .inbound c => some c | _ => none
  | .routing => Routing.codec.part .routing fun | .routing c => some c | _ => none
  | .balancer => Balancer.codec.part .balancer fun | .balancer c => some c | _ => none
  | .terminal => Terminal.codec.part .terminal fun | .terminal c => some c | _ => none
  | .proxy => Proxy.codec.part .proxy fun | .proxy c => some c | _ => none

/-- The format of a node. -/
def Node.codec : Codec Node :=
  .tagged "GraphNode" "nodeType" Kind.naming Node.kind fun k => Placed.body (Role.codec k)

end ProxyPlan
