/-
ProxyPlan.Audit.Finding — everything a check of a graph can find.

A finding is its cause with what is needed to describe it; its code, its
weight and its wording are read off the cause. An issue is a finding with the
node and the edge it is shown at.
-/
import ProxyPlan.Topology.Name

namespace ProxyPlan.Audit

/-- How much a finding weighs. Only errors make a graph invalid. -/
inductive Level where
  | error
  | warning
  | info
deriving DecidableEq, Repr

/-- The name of a weight. -/
def Level.name : Level → String
  | .error => "error"
  | .warning => "warning"
  | .info => "info"

/-- What a check can find. -/
inductive Finding where
  -- single nodes
  | noTag (kind : Kind) (id : String)
  | badInboundPort (tag : String) (port : UInt32)
  | badListen (tag listen : String)
  | userWithoutUuid (email : String) (protocol : InboundProtocol) (tag id : String)
  | userWithoutPassword (email tag : String)
  | badPortList (tag spec : String)
  | noServerAddress (tag : String)
  | badServerPort (tag : String) (port : UInt32)
  | badNetwork (tag network : String)
  -- transports between groups
  | realityOver (edge : String) (network : Network)
  | realityWithoutKey (edge : String)
  | realityWithoutShortId (edge : String)
  | realityWithoutName (edge : String)
  | tlsWithoutName (edge : String)
  | wsWithoutPath (edge : String)
  | grpcWithoutService (edge : String)
  -- the graph
  | sharedTag (tag : String) (holders : Nat)
  | sharedPort (tag : String) (port : UInt32)
  | inboundWithoutExit (name : String)
  | inboundForClients (name : String)
  | deviceProtocol (link : DeviceLink) (tag : String) (spoken wanted : ProxyProtocol)
  | unusedOutbound (name : String)
  | endOfChain (name : String)
  | noDestination (name : String)
  | loop (source target : String)
  | refusedEdge (edge source target reason : String)
  | unknownNode (edge node : String)
  -- names in configurations
  | unknownInbound (tag inbound : String)
  | idleSelector (tag selector : String)
deriving DecidableEq

namespace Finding

/-- The code of a finding. -/
def code : Finding → String
  | .noTag _ _ => "N001"
  | .badInboundPort _ _ => "N002"
  | .badListen _ _ => "N003"
  | .userWithoutUuid _ _ _ _ => "N004"
  | .userWithoutPassword _ _ => "N005"
  | .badPortList _ _ => "N006"
  | .noServerAddress _ => "N007"
  | .badServerPort _ _ => "N008"
  | .badNetwork _ _ => "N009"
  | .realityOver _ _ => "T001"
  | .realityWithoutKey _ => "T002"
  | .realityWithoutShortId _ | .realityWithoutName _ => "T003"
  | .tlsWithoutName _ => "T004"
  | .wsWithoutPath _ => "T005"
  | .grpcWithoutService _ => "T006"
  | .sharedTag _ _ => "S001"
  | .sharedPort _ _ => "S002"
  | .inboundWithoutExit _ => "S003"
  | .inboundForClients _ => "S004"
  | .deviceProtocol _ _ _ _ => "S005"
  | .unusedOutbound _ => "S006"
  | .endOfChain _ => "S007"
  | .noDestination _ => "S008"
  | .loop _ _ => "S009"
  | .refusedEdge _ _ _ _ => "S010"
  | .unknownNode _ _ => "S011"
  | .unknownInbound _ _ => "R001"
  | .idleSelector _ _ => "R002"

/-- The weight of a finding. -/
def level : Finding → Level
  | .noTag _ _ | .badInboundPort _ _ | .badListen _ _ | .userWithoutUuid _ _ _ _
  | .userWithoutPassword _ _ | .badPortList _ _ | .noServerAddress _ | .badServerPort _ _
  | .badNetwork _ _ | .realityOver _ _ | .realityWithoutKey _ | .sharedTag _ _ | .sharedPort _ _
  | .deviceProtocol _ _ _ _ | .loop _ _ | .refusedEdge _ _ _ _ | .unknownNode _ _ => .error
  | .inboundForClients _ => .info
  | .realityWithoutShortId _ | .realityWithoutName _ | .tlsWithoutName _ | .wsWithoutPath _
  | .grpcWithoutService _ | .inboundWithoutExit _ | .unusedOutbound _ | .endOfChain _
  | .noDestination _ | .unknownInbound _ _ | .idleSelector _ _ => .warning

/-- A text between single quotes. -/
def quote (s : String) : String := "'" ++ s ++ "'"

/-- The wording of a finding. -/
def message : Finding → String
  | .noTag kind id => kind.name ++ " node " ++ quote id ++ " must have a tag"
  | .badInboundPort tag port =>
    "Inbound " ++ quote tag ++ " port " ++ toString port.toNat ++ " is outside 1-65535"
  | .badListen tag listen =>
    "Inbound " ++ quote tag ++ " listen address " ++ quote listen ++ " is not an IPv4 address"
  | .userWithoutUuid email protocol tag id =>
    "User " ++ quote email ++ " on " ++ protocol.name ++ " inbound " ++ quote tag ++
      " needs a UUID id, got " ++ quote id
  | .userWithoutPassword email tag =>
    "User " ++ quote email ++ " on trojan inbound " ++ quote tag ++ " needs a password"
  | .badPortList tag spec =>
    "Routing " ++ quote tag ++ " port " ++ quote spec ++ " must look like 80,443,1000-2000"
  | .noServerAddress tag => "Proxy outbound " ++ quote tag ++ " must have a server address"
  | .badServerPort tag port =>
    "Proxy outbound " ++ quote tag ++ " server port " ++ toString port.toNat ++
      " is outside 1-65535"
  | .badNetwork tag network =>
    "Routing " ++ quote tag ++ " network " ++ quote network ++ " must be tcp, udp or tcp,udp"
  | .realityOver edge network =>
    "Reality security requires raw or xhttp network, edge " ++ quote edge ++ " uses " ++
      network.wireName
  | .realityWithoutKey edge => "Reality on edge " ++ quote edge ++ " requires a publicKey"
  | .realityWithoutShortId edge => "Reality on edge " ++ quote edge ++ " should set a shortId"
  | .realityWithoutName edge => "Reality on edge " ++ quote edge ++ " should set a serverName"
  | .tlsWithoutName edge => "TLS on edge " ++ quote edge ++ " should set a serverName"
  | .wsWithoutPath edge => "WebSocket on edge " ++ quote edge ++ " should set a path"
  | .grpcWithoutService edge => "gRPC on edge " ++ quote edge ++ " should set a serviceName"
  | .sharedTag tag holders =>
    "Tag " ++ quote tag ++ " is used by " ++ toString holders ++ " nodes; tags must be unique"
  | .sharedPort tag port =>
    "Inbound " ++ quote tag ++ " listens on port " ++ toString port.toNat ++
      ", which another inbound on the same server also uses"
  | .inboundWithoutExit name => "Inbound " ++ quote name ++ " has no outgoing connections"
  | .inboundForClients name =>
    "Inbound " ++ quote name ++
      " is not reached by any proxy outbound; it only serves external clients"
  | .deviceProtocol link tag spoken wanted =>
    "Device connects over " ++ link.name ++ " but outbound " ++ quote tag ++ " speaks " ++
      spoken.name ++ "; expected a " ++ wanted.name ++ " outbound"
  | .unusedOutbound name =>
    "Outbound " ++ quote name ++ " has no incoming connections and is never used"
  | .endOfChain name =>
    "Proxy outbound " ++ quote name ++ " ends the chain; connect it to the next server's " ++
      "inbound if traffic should continue through your own infrastructure"
  | .noDestination name =>
    "Inbound " ++ quote name ++
      " cannot reach any terminal outbound; traffic has no final destination"
  | .loop source target =>
    "Cycle detected: the connection from " ++ quote source ++ " back to " ++ quote target ++
      " closes a loop"
  | .refusedEdge edge source target reason =>
    "Edge " ++ quote edge ++ " from " ++ quote source ++ " to " ++ quote target ++
      " is not allowed: " ++ reason
  | .unknownNode edge node => "Edge " ++ quote edge ++ " references unknown node " ++ quote node
  | .unknownInbound tag inbound =>
    "Routing " ++ quote tag ++ " refers to inbound tag " ++ quote inbound ++
      ", which does not exist"
  | .idleSelector tag selector =>
    "Balancer " ++ quote tag ++ " selector " ++ quote selector ++ " matches no outbound tag"

end Finding

/-- A finding with the node and the edge it is shown at. -/
structure Issue where
  finding : Finding
  node : Option String
  edge : Option String
deriving DecidableEq

namespace Issue

/-- A finding shown at a node. -/
def atNode (node : String) (finding : Finding) : Issue := ⟨finding, some node, none⟩

/-- A finding shown at an edge. -/
def atEdge (edge : String) (finding : Finding) : Issue := ⟨finding, none, some edge⟩

/-- A finding shown at a node and an edge. -/
def atBoth (node edge : String) (finding : Finding) : Issue := ⟨finding, some node, some edge⟩

/-- The weight of an issue. -/
def level (i : Issue) : Level := i.finding.level

/-- The code of an issue. -/
def code (i : Issue) : String := i.finding.code

end Issue
end ProxyPlan.Audit
