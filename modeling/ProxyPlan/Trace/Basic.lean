/-
ProxyPlan.Trace.Basic — the record of one request on its way through a graph.

A trace is never an error: a request that gets nowhere has a trace as well,
whose ending says why. Steps and endings are kept as what happened; wording is
read off them.
-/
import ProxyPlan.Graph.Basic
import ProxyPlan.Json.Record

namespace ProxyPlan

open Json (Codec Fields)

namespace Trace

/-! ## Requests -/

/-- A request as it enters the graph. -/
structure Request where
  domain : String
  protocol : String
  port : UInt16
  /-- The tag of the inbound at which it enters. -/
  inboundTag : String
deriving DecidableEq

/-- The format of a request. -/
def Request.codec : Codec Request :=
  .record "SimulationRequest"
    (.defaulting "domain" .text "" <| .defaulting "protocol" .text "tcp" <|
      .defaulting "port" .word16 0 <| .defaulting "inboundTag" .text "" .done)
    (fun (domain, protocol, port, inboundTag, ()) => ⟨domain, protocol, port, inboundTag⟩)
    fun r => (r.domain, r.protocol, r.port, r.inboundTag, ())

/-! ## Steps -/

/-- What happens to a request at a node. -/
inductive Remark where
  | closedInbound
  | ruleMatched (rule : String)
  | straightOn
  | noRuleMatched
  | ruleFollowed
  | ruleLeadsNowhere
  | noTargets
  | nothingSelected
  /-- One of several candidates, counted from zero. -/
  | picked (strategy : Strategy) (choice candidates : Nat)
  | forwarded
  | leaves
  | handled (protocol : TerminalProtocol)
  | device
  | revisited
deriving DecidableEq

/-- The wording of a remark. -/
def Remark.describe : Remark → String
  | .closedInbound => "Inbound has no outgoing connections"
  | .ruleMatched rule => "Accepted on inbound; rule '" ++ rule ++ "' matched"
  | .straightOn => "Accepted on inbound; no rule matched, using direct connection"
  | .noRuleMatched => "Accepted on inbound; no rule matched"
  | .ruleFollowed => "Rule matched"
  | .ruleLeadsNowhere => "Rule matched but leads nowhere"
  | .noTargets => "Balancer has no targets"
  | .nothingSelected => "Selector matched no target; using first connection"
  | .picked strategy choice candidates =>
    "Balancer (" ++ strategy.name ++ ") picked " ++ toString (choice + 1) ++ " of " ++
      toString candidates ++ " candidates"
  | .forwarded => "Forwarded to the next server"
  | .leaves => "Leaves through proxy"
  | .handled protocol => "Handled by " ++ protocol.name
  | .device => "Devices do not route traffic"
  | .revisited => "Revisited this node"

/-- A node on the way, and what happens there. -/
structure Step where
  node : Node
  remark : Remark
deriving DecidableEq

/-! ## Endings -/

/-- How the way of a request ends. -/
inductive Ending where
  | noInbound (tag : String)
  | loop (node : String)
  | noRule (domain inbound : String)
  | deadEnd (node : String)
  | delivered (domain outbound : String)
deriving DecidableEq

namespace Ending

/-- The wording of an ending. -/
def explain : Ending → String
  | .noInbound tag => "No inbound with tag '" ++ tag ++ "'"
  | .loop node => "Cycle detected at '" ++ node ++ "'"
  | .noRule domain inbound =>
    "No routing rule matched the request for '" ++ domain ++ "' at inbound '" ++ inbound ++ "'"
  | .deadEnd node => "Dead end: '" ++ node ++ "' has no outgoing connections"
  | .delivered domain outbound =>
    "'" ++ domain ++ "' is routed to outbound '" ++ outbound ++ "'"

/-- The tag of the outbound at which a request is delivered. -/
def outbound? : Ending → Option String
  | .delivered _ outbound => some outbound
  | _ => none

end Ending

/-! ## Written form of steps -/

/-- A step as a value. -/
def Step.toJson (s : Step) : Json :=
  .object [("nodeId", .text s.node.id), ("tag", .text ((Node.tag? s.node).getD "")),
    ("nodeType", Kind.naming.codec.write (Node.kind s.node)),
    ("description", .text s.remark.describe)]

end Trace

/-! ## Traces -/

/-- The way of a request: its steps, the edges between them, and its end.
`calls` lists how many candidates there were each time a choice was left open,
those of earlier requests included. -/
structure Trace where
  steps : List Trace.Step
  edges : List Edge
  ending : Trace.Ending
  calls : List Nat
deriving DecidableEq

namespace Trace

/-- The request is delivered. -/
def success (t : Trace) : Bool := t.ending.outbound?.isSome

/-- The identities of the nodes on the way; a node that is met again is not
repeated. -/
def nodeIds (t : Trace) : List String :=
  (t.steps.filter fun s => s.remark ≠ .revisited).map fun s => s.node.id

/-- The identities of the edges on the way. -/
def edgeIds (t : Trace) : List String := t.edges.map Edge.id

/-- A trace as a value. -/
def toJson (t : Trace) : Json :=
  let texts := Codec.list Codec.text
  .object [("success", .bool t.success), ("path", .list (t.steps.map Step.toJson)),
    ("highlightNodeIds", texts.write t.nodeIds), ("highlightEdgeIds", texts.write t.edgeIds),
    ("finalOutbound", (Codec.option .text).write t.ending.outbound?),
    ("explanation", .text t.ending.explain)]

end Trace
end ProxyPlan
