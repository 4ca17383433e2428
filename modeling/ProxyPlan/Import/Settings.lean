/-
ProxyPlan.Import.Settings — the free-form settings of a document read back
into configurations.

Settings are read leniently: what is not where it is looked for, or is of
another type, counts as missing, and an empty text counts as missing too.
-/
import ProxyPlan.Document.Stream
import ProxyPlan.Text.Blank
import ProxyPlan.Text.Digit
import ProxyPlan.Topology.Node

namespace ProxyPlan.Import

/-! ## Fields -/

/-- The text of a field, unless it is empty. -/
def textOf? (name : String) (v : Json) : Option String :=
  ((v.get? name).bind Json.text?).filter fun s => s ≠ ""

/-- The number in a field. -/
def wordOf? (name : String) (v : Json) : Option UInt32 :=
  ((v.get? name).bind Json.nat?).bind Text.word?

/-- The items of a field. -/
def itemsOf (name : String) (v : Json) : List Json :=
  ((v.get? name).bind Json.items?).getD []

/-- The first item of a field, or nothing. -/
def firstOf (name : String) (v : Json) : Json :=
  (itemsOf name v).head?.getD .null

/-! ## Users -/

/-- A client of a protocol with identities or passwords. -/
def clientUser (v : Json) : User :=
  ⟨(textOf? "email" v).getD "", textOf? "id" v, textOf? "password" v, wordOf? "level" v⟩

/-- An account of a protocol with user names. -/
def accountUser (v : Json) : User :=
  ⟨(textOf? "user" v).getD "", none, textOf? "pass" v, none⟩

/-- The users that the settings of an inbound list. -/
def usersOf (protocol : InboundProtocol) (settings : Json) : List User :=
  match protocol with
  | .vless | .vmess | .trojan => (itemsOf "clients" settings).map clientUser
  | .socks | .http => (itemsOf "accounts" settings).map accountUser
  | .shadowsocks => (textOf? "password" settings).toList.map fun p => ⟨"", none, some p, none⟩
  | .dokodemo => []

/-! ## Configurations -/

/-- The trimmed tag, or a name that stands in for a blank one. -/
def tagOr (tag fallback : String) : String :=
  (Text.nonBlank? tag).getD fallback

/-- The configuration of an inbound whose protocol is known. -/
def inboundOf (protocol : InboundProtocol) (fallback : String) (i : Document.Inbound) : Inbound where
  tag := tagOr i.tag fallback
  protocol := protocol
  listen := i.listen
  port := i.port.toUInt32
  sniffing := i.sniffing.map Document.Sniffing.enabled
  users := usersOf protocol i.settings
  method := if protocol = .shadowsocks then textOf? "method" i.settings else none
  transport := Document.Stream.lift? i.stream

/-- The field of the settings of an outbound that lists its servers. -/
def serversField : ProxyProtocol → String
  | .vless | .vmess => "vnext"
  | .trojan | .shadowsocks | .socks | .http => "servers"

/-- The configuration of a proxy outbound whose protocol is known; only the
first server and its first user are looked at. -/
def proxyOf (protocol : ProxyProtocol) (fallback : String) (o : Document.Outbound) : Proxy :=
  let server := firstOf (serversField protocol) o.settings
  { tag := tagOr o.tag fallback
    protocol := protocol
    address := (textOf? "address" server).getD ""
    port := (wordOf? "port" server).getD 0
    id := textOf? "id" (firstOf "users" server)
    password := textOf? "password" server
    method := textOf? "method" server
    transport := Document.Stream.lift? o.stream }

/-- The predicates of a rule; of several inbounds the first one stands there. -/
def predicatesOf (r : Document.Rule) : Predicates where
  domain := r.domain.getD []
  ip := r.ip.getD []
  port := r.port
  protocol := r.protocol.getD []
  network := r.network
  inboundTag := (r.inboundTag.getD []).head?

end ProxyPlan.Import
