/-
ProxyPlan.Document.Basic — the documents that proxies are run from.

A document lists inbounds, outbounds, balancers and rules, linked by tags. The
settings of a protocol are free-form values. Blocks that are not there are
left out of the written form.
-/
import ProxyPlan.Topology.Transport

namespace ProxyPlan

open Json (Codec Fields)

namespace Document

/-- What is logged. -/
structure Log where
  level : String
deriving DecidableEq

/-- Looking into connections for the name of their destination. -/
structure Sniffing where
  enabled : Bool
  destOverride : List String
deriving DecidableEq

/-- How a connection is carried; names as proxies know them. -/
structure Stream where
  network : String
  security : String
  ws : Option Ws
  grpc : Option Grpc
  xhttp : Option Xhttp
  tls : Option Tls
  reality : Option Reality
deriving DecidableEq

/-- A listening point. -/
structure Inbound where
  tag : String
  listen : String
  port : UInt16
  protocol : String
  settings : Json
  sniffing : Option Sniffing
  stream : Option Stream

/-- A way out. -/
structure Outbound where
  tag : String
  protocol : String
  settings : Json
  stream : Option Stream

/-- A rule: the categories it asks in, and the tag it sends requests to. -/
structure Rule where
  type : String
  /-- Only documents from elsewhere name their rules. -/
  ruleTag : Option String
  inboundTag : Option (List String)
  domain : Option (List String)
  ip : Option (List String)
  port : Option String
  network : Option String
  protocol : Option (List String)
  outboundTag : Option String
  balancerTag : Option String
deriving DecidableEq

/-- A choice between outbounds whose tags begin in a listed way. -/
structure Balancer where
  tag : String
  selector : List String
  strategy : Option String
deriving DecidableEq

/-- Rules, tried in order, and balancers. -/
structure Routing where
  domainStrategy : String
  rules : List Rule
  balancers : List Balancer
deriving DecidableEq

end Document

/-- A document that a proxy is run from. -/
structure Document where
  log : Document.Log
  inbounds : List Document.Inbound
  outbounds : List Document.Outbound
  routing : Document.Routing

namespace Document

/-! ## Format -/

/-- The format of what is logged. -/
def Log.codec : Codec Log :=
  .record "XrayLog" (.required "loglevel" .text .done) (fun (level, ()) => ⟨level⟩)
    fun l => (l.level, ())

/-- The format of sniffing. -/
def Sniffing.codec : Codec Sniffing :=
  .record "Sniffing" (.defaulting "enabled" .bool false <| .items "destOverride" .text .done)
    (fun (enabled, destOverride, ()) => ⟨enabled, destOverride⟩)
    fun s => (s.enabled, s.destOverride, ())

/-- The format of a stream. -/
def Stream.codec : Codec Stream :=
  .record "StreamSettings"
    (.defaulting "network" .text "tcp" <| .defaulting "security" .text "none" <|
      .optional "wsSettings" Ws.codec <| .optional "grpcSettings" Grpc.codec <|
      .optional "xhttpSettings" Xhttp.codec <| .optional "tlsSettings" Tls.codec <|
      .optional "realitySettings" Reality.codec .done)
    (fun (network, security, ws, grpc, xhttp, tls, reality, ()) =>
      ⟨network, security, ws, grpc, xhttp, tls, reality⟩)
    fun s => (s.network, s.security, s.ws, s.grpc, s.xhttp, s.tls, s.reality, ())

/-- A field of free-form settings, left out when there are none. -/
def settingsField {ρ : Type} (rest : Fields ρ) : Fields (Json × ρ) :=
  .field "settings" .anything (some .null) Json.isNull rest

/-- The format of an inbound. -/
def Inbound.codec : Codec Inbound :=
  .record "XrayInbound"
    (.defaulting "tag" .text "" <| .defaulting "listen" .text "" <| .required "port" .word16 <|
      .required "protocol" .text <| settingsField <|
      .optional "sniffing" Sniffing.codec <| .optional "streamSettings" Stream.codec .done)
    (fun (tag, listen, port, protocol, settings, sniffing, stream, ()) =>
      ⟨tag, listen, port, protocol, settings, sniffing, stream⟩)
    fun i => (i.tag, i.listen, i.port, i.protocol, i.settings, i.sniffing, i.stream, ())

/-- The format of an outbound. -/
def Outbound.codec : Codec Outbound :=
  .record "XrayOutbound"
    (.defaulting "tag" .text "" <| .required "protocol" .text <| settingsField <|
      .optional "streamSettings" Stream.codec .done)
    (fun (tag, protocol, settings, stream, ()) => ⟨tag, protocol, settings, stream⟩)
    fun o => (o.tag, o.protocol, o.settings, o.stream, ())

/-- The format of a rule; its name is read and never written. -/
def Rule.codec : Codec Rule :=
  .record "FieldRule"
    (.defaulting "type" .text "field" <|
      .field "ruleTag" (.option .text) (some none) (fun _ => true) <|
      .optional "inboundTag" (.list .text) <| .optional "domain" (.list .text) <|
      .optional "ip" (.list .text) <| .optional "port" .text <| .optional "network" .text <|
      .optional "protocol" (.list .text) <| .optional "outboundTag" .text <|
      .optional "balancerTag" .text .done)
    (fun (type, ruleTag, inboundTag, domain, ip, port, network, protocol, outboundTag,
        balancerTag, ()) =>
      ⟨type, ruleTag, inboundTag, domain, ip, port, network, protocol, outboundTag, balancerTag⟩)
    fun r => (r.type, r.ruleTag, r.inboundTag, r.domain, r.ip, r.port, r.network, r.protocol,
      r.outboundTag, r.balancerTag, ())

/-- The format of the block that names a strategy. -/
def strategyCodec : Codec String :=
  .record "StrategyBlock" (.required "type" .text .done) (fun (type, ()) => type)
    fun type => (type, ())

/-- The format of a balancer. -/
def Balancer.codec : Codec Balancer :=
  .record "XrayBalancer"
    (.required "tag" .text <| .defaulting "selector" (.list .text) [] <|
      .optional "strategy" strategyCodec .done)
    (fun (tag, selector, strategy, ()) => ⟨tag, selector, strategy⟩)
    fun b => (b.tag, b.selector, b.strategy, ())

/-- The format of the routing section. -/
def Routing.codec : Codec Routing :=
  .record "XrayRouting"
    (.defaulting "domainStrategy" .text "AsIs" <| .defaulting "rules" (.list Rule.codec) [] <|
      .items "balancers" Balancer.codec .done)
    (fun (domainStrategy, rules, balancers, ()) => ⟨domainStrategy, rules, balancers⟩)
    fun r => (r.domainStrategy, r.rules, r.balancers, ())

/-- The format of a document. -/
def codec : Codec Document :=
  .record "XrayConfig"
    (.defaulting "log" Log.codec ⟨"warning"⟩ <|
      .defaulting "inbounds" (.list Inbound.codec) [] <|
      .defaulting "outbounds" (.list Outbound.codec) [] <|
      .defaulting "routing" Routing.codec ⟨"AsIs", [], []⟩ .done)
    (fun (log, inbounds, outbounds, routing, ()) => ⟨log, inbounds, outbounds, routing⟩)
    fun d => (d.log, d.inbounds, d.outbounds, d.routing, ())

end Document
end ProxyPlan
