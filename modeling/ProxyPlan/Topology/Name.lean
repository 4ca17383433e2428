/-
ProxyPlan.Topology.Name — the closed vocabularies of a topology: kinds of
nodes, protocols, strategies, transports.

Every vocabulary is an enumeration with a table of names. The same table is
used wherever a name is read, written or looked up.
-/
import ProxyPlan.Json.Naming

namespace ProxyPlan

open Json (Naming)

/-! ## Kinds of nodes -/

/-- What a node is. -/
inductive Kind where
  | device
  | inbound
  | routing
  | balancer
  | terminal
  | proxy
deriving DecidableEq, Repr

namespace Kind

/-- Names of the kinds. -/
def name : Kind → String
  | .device => "device"
  | .inbound => "inbound"
  | .routing => "routing"
  | .balancer => "balancer"
  | .terminal => "outbound-terminal"
  | .proxy => "outbound-proxy"

/-- The kinds by name. -/
def naming : Naming Kind where
  all := [.device, .inbound, .routing, .balancer, .terminal, .proxy]
  name := name

/-- Traffic leaves the graph, or one of its servers, here. -/
def isOutbound : Kind → Bool
  | .terminal | .proxy => true
  | _ => false

end Kind

/-! ## Protocols -/

/-- How a device hands its traffic over. -/
inductive DeviceLink where
  | tunnel
  | socks
  | http
deriving DecidableEq, Repr

/-- Names of the ways to hand traffic over. -/
def DeviceLink.name : DeviceLink → String
  | .tunnel => "tun2socks"
  | .socks => "socks"
  | .http => "http"

/-- The ways to hand traffic over, by name. -/
def DeviceLink.naming : Naming DeviceLink where
  all := [.tunnel, .socks, .http]
  name := DeviceLink.name

/-- Protocols that a proxy outbound speaks. -/
inductive ProxyProtocol where
  | http
  | socks
  | vless
  | vmess
  | trojan
  | shadowsocks
deriving DecidableEq, Repr

/-- Names of the protocols of proxy outbounds. -/
def ProxyProtocol.name : ProxyProtocol → String
  | .http => "http"
  | .socks => "socks"
  | .vless => "vless"
  | .vmess => "vmess"
  | .trojan => "trojan"
  | .shadowsocks => "shadowsocks"

/-- The protocols of proxy outbounds, by name. -/
def ProxyProtocol.naming : Naming ProxyProtocol where
  all := [.http, .socks, .vless, .vmess, .trojan, .shadowsocks]
  name := ProxyProtocol.name

/-- Protocols that an inbound accepts. -/
inductive InboundProtocol where
  | http
  | socks
  | vless
  | vmess
  | trojan
  | shadowsocks
  | dokodemo
deriving DecidableEq, Repr

/-- Names of the protocols of inbounds. -/
def InboundProtocol.name : InboundProtocol → String
  | .http => "http"
  | .socks => "socks"
  | .vless => "vless"
  | .vmess => "vmess"
  | .trojan => "trojan"
  | .shadowsocks => "shadowsocks"
  | .dokodemo => "dokodemo-door"

/-- The protocols of inbounds, by name. -/
def InboundProtocol.naming : Naming InboundProtocol where
  all := [.http, .socks, .vless, .vmess, .trojan, .shadowsocks, .dokodemo]
  name := InboundProtocol.name

/-- The protocol an inbound must accept for an outbound that speaks this one. -/
def ProxyProtocol.toInbound : ProxyProtocol → InboundProtocol
  | .http => .http
  | .socks => .socks
  | .vless => .vless
  | .vmess => .vmess
  | .trojan => .trojan
  | .shadowsocks => .shadowsocks

/-- What a terminal outbound does with traffic. -/
inductive TerminalProtocol where
  | freedom
  | blackhole
  | dns
deriving DecidableEq, Repr

/-- Names of what terminal outbounds do. -/
def TerminalProtocol.name : TerminalProtocol → String
  | .freedom => "freedom"
  | .blackhole => "blackhole"
  | .dns => "dns"

/-- What terminal outbounds do, by name. -/
def TerminalProtocol.naming : Naming TerminalProtocol where
  all := [.freedom, .blackhole, .dns]
  name := TerminalProtocol.name

/-! ## Balancers, edges, transports, projects -/

/-- How a balancer chooses. -/
inductive Strategy where
  | random
  | leastPing
  | roundRobin
deriving DecidableEq, Repr

/-- Names of the strategies. -/
def Strategy.name : Strategy → String
  | .random => "random"
  | .leastPing => "leastPing"
  | .roundRobin => "roundRobin"

/-- The strategies by name. -/
def Strategy.naming : Naming Strategy where
  all := [.random, .leastPing, .roundRobin]
  name := Strategy.name

/-- How the editor draws an edge. -/
inductive EdgeStyle where
  | plain
  | conditional
deriving DecidableEq, Repr

/-- The styles of edges by name. -/
def EdgeStyle.naming : Naming EdgeStyle where
  all := [.plain, .conditional]
  name
    | .plain => "default"
    | .conditional => "conditional"

/-- What carries the bytes of a connection. -/
inductive Network where
  | raw
  | ws
  | grpc
  | xhttp
deriving DecidableEq, Repr

namespace Network

/-- Names of the networks in a topology. -/
def name : Network → String
  | .raw => "raw"
  | .ws => "ws"
  | .grpc => "grpc"
  | .xhttp => "xhttp"

/-- The networks by name. -/
def naming : Naming Network where
  all := [.raw, .ws, .grpc, .xhttp]
  name := name

/-- Names of the networks in compiled documents, where raw is plain TCP. -/
def wireName : Network → String
  | .raw => "tcp"
  | n => n.name

/-- The network of a name in a document; both names of raw are understood. -/
def ofWire? (name : String) : Option Network :=
  if name = "tcp" then some .raw else naming.find? name

end Network

/-- What protects a connection. -/
inductive Security where
  | none
  | tls
  | reality
deriving DecidableEq, Repr

namespace Security

/-- Names of the kinds of protection. -/
def name : Security → String
  | .none => "none"
  | .tls => "tls"
  | .reality => "reality"

/-- The kinds of protection by name. -/
def naming : Naming Security where
  all := [.none, .tls, .reality]
  name := name

/-- The protection of a name in a document; an empty name means none. -/
def ofWire? (name : String) : Option Security :=
  if name = "" then some .none else naming.find? name

end Security

/-- What a project describes: one client, or several servers. -/
inductive Mode where
  | simple
  | infrastructure
deriving DecidableEq, Repr

/-- The modes by name. -/
def Mode.naming : Naming Mode where
  all := [.simple, .infrastructure]
  name
    | .simple => "simple"
    | .infrastructure => "infrastructure"

end ProxyPlan
