/-
ProxyPlan.Compile.Endpoint — inbounds and outbounds as documents know them.

Nothing is refused: what is blank or out of range gets a default, so that a
graph can be compiled while it is being edited. The fields of settings are in
increasing order of their names.
-/
import ProxyPlan.Document.Basic
import ProxyPlan.Text.Blank
import ProxyPlan.Topology.Node

namespace ProxyPlan.Compile

/-- The address that is listened on when none is given. -/
def usualListen : String := "0.0.0.0"

/-- The cipher when none is given. -/
def usualMethod : String := "aes-256-gcm"

/-- A port of sixteen bits; a larger number becomes zero. -/
def portOf (n : UInt32) : UInt16 :=
  if n ≤ 65535 then n.toUInt16 else 0

/-- A cipher that is not blank, as it is written. -/
def methodOf (method : Option String) : String :=
  (method.filter fun m => !Text.blank m).getD usualMethod

/-! ## Inbounds -/

/-- A user with a secret, called `key` in the settings. -/
def client (u : User) (key secret : String) : Json :=
  let level := u.level.toList.map fun l => ("level", Json.nat l.toNat)
  .object (("email", .text u.email) ::
    (if key < "level" then (key, .text secret) :: level else level ++ [(key, .text secret)]))

/-- The users that have an identity. -/
def idClients (users : List User) : Json :=
  .list (users.filterMap fun u => u.id.map (client u "id"))

/-- The users that have a password. -/
def passwordClients (users : List User) : Json :=
  .list (users.filterMap fun u => u.password.map (client u "password"))

/-- The users that have a password, with user name and password. -/
def accounts (users : List User) : List Json :=
  users.filterMap fun u =>
    u.password.map fun p => .object [("pass", .text p), ("user", .text u.email)]

/-- The settings of an inbound. -/
def inboundSettings (c : Inbound) : Json :=
  match c.protocol with
  | .vless => .object [("clients", idClients c.users), ("decryption", .text "none")]
  | .vmess => .single "clients" (idClients c.users)
  | .trojan => .single "clients" (passwordClients c.users)
  | .shadowsocks =>
    .object ([("method", .text (methodOf c.method)), ("network", .text "tcp,udp")] ++
      (c.users.findSome? User.password).toList.map fun p => ("password", .text p))
  | .socks =>
    match accounts c.users with
    | [] => .object [("auth", .text "noauth"), ("udp", .bool true)]
    | as => .object [("accounts", .list as), ("auth", .text "password"), ("udp", .bool true)]
  | .http =>
    match accounts c.users with
    | [] => .object []
    | as => .single "accounts" (.list as)
  | .dokodemo => .single "network" (.text "tcp,udp")

/-- Sniffing looks at HTTP and TLS when it is enabled. -/
def sniffing (enabled : Bool) : Document.Sniffing :=
  ⟨enabled, if enabled then ["http", "tls"] else []⟩

/-- An inbound with its stream settings. -/
def inbound (c : Inbound) (stream : Option Document.Stream) : Document.Inbound where
  tag := c.tag
  listen := (Text.nonBlank? c.listen).getD usualListen
  port := portOf c.port
  protocol := c.protocol.name
  settings := inboundSettings c
  sniffing := c.sniffing.map sniffing
  stream := stream

/-! ## Outbounds -/

/-- The settings of a terminal outbound. -/
def terminalSettings : TerminalProtocol → Json
  | .freedom => .single "domainStrategy" (.text "UseIP")
  | .blackhole => .single "response" (.single "type" (.text "none"))
  | .dns => .object []

/-- A terminal outbound. -/
def terminal (c : Terminal) : Document.Outbound where
  tag := c.tag
  protocol := c.protocol.name
  settings := terminalSettings c.protocol
  stream := none

/-- What a proxy outbound dials. -/
structure Peer where
  address : String
  port : UInt32
deriving DecidableEq

/-- The one server of an outbound, in the form with users. -/
def vnext (address : String) (port : UInt16) (user : Json) : Json :=
  .single "vnext" (.list [.object [("address", .text address), ("port", .nat port.toNat),
    ("users", .list [user])]])

/-- The one server of an outbound, with further fields before and after none. -/
def server (address : String) (secrets : List (String × Json)) (port : UInt16) : Json :=
  .single "servers" (.list [.object ([("address", .text address)] ++ secrets ++
    [("port", .nat port.toNat)])])

/-- The settings of a proxy outbound. -/
def proxySettings (c : Proxy) (address : String) (port : UInt16) : Json :=
  let id := Json.text (c.id.getD "")
  let password := ("password", Json.text (c.password.getD ""))
  match c.protocol with
  | .vless => vnext address port (.object [("encryption", .text "none"), ("id", id)])
  | .vmess => vnext address port (.object [("id", id), ("security", .text "auto")])
  | .trojan => server address [password] port
  | .shadowsocks => server address [("method", .text (methodOf c.method)), password] port
  | .socks | .http => server address [] port

/-- The address that is dialled: the node's own, else that of the peer. -/
def dialAddress (c : Proxy) (peer : Option Peer) : String :=
  (Text.nonBlank? c.address).getD ((peer.map Peer.address).getD "")

/-- The port that is dialled: the node's own, else that of the peer. -/
def dialPort (c : Proxy) (peer : Option Peer) : UInt16 :=
  portOf (if c.port = 0 then (peer.map Peer.port).getD 0 else c.port)

/-- A proxy outbound; the peer stands in for what the node leaves blank. -/
def proxy (c : Proxy) (peer : Option Peer) (stream : Option Document.Stream) :
    Document.Outbound where
  tag := c.tag
  protocol := c.protocol.name
  settings := proxySettings c (dialAddress c peer) (dialPort c peer)
  stream := stream

end ProxyPlan.Compile
