/-
ProxyPlan.Topology.Predicates — what a routing rule asks of a request.

A rule asks in up to six categories. A category is absent when its list is
empty or its text is blank; what the present ones mean is settled in
`ProxyPlan.Rule`.
-/
import ProxyPlan.Json.Record
import ProxyPlan.Text.Blank

namespace ProxyPlan

open Json (Codec Fields)

/-- What a rule asks for, by category. -/
structure Predicates where
  domain : List String
  ip : List String
  port : Option String
  protocol : List String
  network : Option String
  inboundTag : Option String
deriving DecidableEq

namespace Predicates

/-- No category at all. -/
def none : Predicates := ⟨[], [], .none, [], .none, .none⟩

/-- Only the tag of the inbound. -/
def ofInbound (tag : String) : Predicates := { none with inboundTag := some tag }

/-- The list of ports, trimmed, if it is not blank. -/
def port? (p : Predicates) : Option String := p.port.bind Text.nonBlank?

/-- The network, trimmed, if it is not blank. -/
def network? (p : Predicates) : Option String := p.network.bind Text.nonBlank?

/-- The tag of the inbound, trimmed, if it is not blank. -/
def inboundTag? (p : Predicates) : Option String := p.inboundTag.bind Text.nonBlank?

/-- No category is present. -/
def isCatchAll (p : Predicates) : Bool :=
  p.domain.isEmpty && p.ip.isEmpty && p.protocol.isEmpty && p.port?.isNone &&
    p.network?.isNone && p.inboundTag?.isNone

/-- The fields of the predicates. -/
def fields : Fields (List String × List String × Option String × List String × Option String ×
    Option String × Unit) :=
  .items "domain" .text <| .items "ip" .text <| .optional "port" .text <|
    .items "protocol" .text <| .optional "network" .text <| .optional "inboundTag" .text .done

/-- The predicates of their parts. -/
def ofParts : List String × List String × Option String × List String × Option String ×
    Option String × Unit → Predicates
  | (domain, ip, port, protocol, network, inboundTag, ()) =>
    ⟨domain, ip, port, protocol, network, inboundTag⟩

/-- The parts of the predicates. -/
def parts (p : Predicates) : List String × List String × Option String × List String ×
    Option String × Option String × Unit :=
  (p.domain, p.ip, p.port, p.protocol, p.network, p.inboundTag, ())

/-- The format of predicates. -/
def codec : Codec Predicates := .record "RulePredicates" fields ofParts parts

end Predicates
end ProxyPlan
