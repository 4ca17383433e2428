/-
ProxyPlan.Audit.Single — checks of one node by itself, and of one transport.
-/
import ProxyPlan.Audit.Finding
import ProxyPlan.Rule.Port
import ProxyPlan.Rule.Shape
import ProxyPlan.Topology.Edge
import ProxyPlan.Topology.Node

namespace ProxyPlan.Audit

/-- A list of one finding if something is wrong. -/
def when {α : Type} (wrong : Bool) (found : α) : List α :=
  if wrong then [found] else []

/-- A text that is missing or blank. -/
def isMissing (s : Option String) : Bool := s.all Text.blank

/-- A port that can be listened on or dialled. -/
def isPort (port : UInt32) : Bool := 1 ≤ port && port ≤ 65535

/-! ## Nodes -/

/-- What is wrong with a user. -/
def userFindings (c : Inbound) (u : User) : List Finding :=
  match c.protocol with
  | .vless | .vmess =>
    let id := u.id.getD ""
    when (!Rule.isUuid id) (.userWithoutUuid u.email c.protocol c.tag id)
  | .trojan => when (u.password.all (· == "")) (.userWithoutPassword u.email c.tag)
  | .http | .socks | .shadowsocks | .dokodemo => []

/-- What is wrong with an inbound. -/
def inboundFindings (c : Inbound) : List Finding :=
  when (!isPort c.port) (.badInboundPort c.tag c.port) ++
    (match Text.nonBlank? c.listen with
      | some listen => when (!Rule.isIpv4 listen) (.badListen c.tag listen)
      | none => []) ++
    c.users.flatMap (userFindings c)

/-- The networks that a rule may ask for. -/
def networks : List String := ["tcp", "udp", "tcp,udp"]

/-- What is wrong with a rule. -/
def routingFindings (c : Routing) : List Finding :=
  (match c.predicates.port? with
    | some spec => when (!Rule.isPortList spec) (.badPortList c.tag spec)
    | none => []) ++
    (match c.predicates.network? with
      | some network => when (!networks.contains network) (.badNetwork c.tag network)
      | none => [])

/-- What is wrong with a proxy outbound. -/
def proxyFindings (c : Proxy) : List Finding :=
  when (Text.blank c.address) (.noServerAddress c.tag) ++
    when (!isPort c.port) (.badServerPort c.tag c.port)

/-- What is wrong with the configuration of a node. -/
def roleFindings : Role → List Finding
  | .inbound c => inboundFindings c
  | .routing c => routingFindings c
  | .proxy c => proxyFindings c
  | .device _ | .balancer _ | .terminal _ => []

/-- What is wrong with a node by itself. -/
def nodeIssues (n : Node) : List Issue :=
  let untagged := match n.tag? with
    | some tag => when (Text.blank tag) (.noTag n.kind n.id)
    | none => []
  (untagged ++ roleFindings n.role).map (.atNode n.id)

/-! ## Transports -/

/-- What is wrong with the protection of an edge. -/
def securityFindings (edge : String) (t : Transport) : List Finding :=
  match t.security with
  | .reality =>
    let r := t.reality.getD .empty
    when (!(t.network = .raw || t.network = .xhttp)) (.realityOver edge t.network) ++
      when (isMissing r.publicKey) (.realityWithoutKey edge) ++
      when (isMissing r.shortId) (.realityWithoutShortId edge) ++
      when (isMissing r.serverName) (.realityWithoutName edge)
  | .tls => when (isMissing (t.tls.bind Tls.serverName)) (.tlsWithoutName edge)
  | .none => []

/-- What is wrong with the network of an edge. -/
def networkFindings (edge : String) (t : Transport) : List Finding :=
  match t.network with
  | .ws => when (isMissing (t.ws.bind Ws.path)) (.wsWithoutPath edge)
  | .grpc => when (isMissing (t.grpc.bind Grpc.serviceName)) (.grpcWithoutService edge)
  | .raw | .xhttp => []

/-- What is wrong with the transport of an edge. -/
def transportIssues (e : Edge) (t : Transport) : List Issue :=
  (securityFindings e.id t ++ networkFindings e.id t).map (.atBoth e.source e.id)

end ProxyPlan.Audit
