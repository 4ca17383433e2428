/-
ProxyPlan.Import.Basic — from a document of any origin back to a graph.

Only a text that is no document at all is refused. Its lists are taken over in
the order inbounds, outbounds, balancers, rules, so that links find both ends,
and every entry that cannot be taken over is reported.
-/
import ProxyPlan.Failure
import ProxyPlan.Import.Draft
import ProxyPlan.Topology.Layout

namespace ProxyPlan

open Json (Codec Fields)

namespace Import

/-! ## Options -/

/-- How a document is taken over. -/
structure Options where
  /-- Every rule becomes a node; otherwise only its links are kept. -/
  ruleNodes : Bool
  layout : Bool
  mode : Option Mode
deriving DecidableEq

/-- The choices when the user makes none. -/
def Options.usual : Options := ⟨true, true, none⟩

/-- The format of the options. -/
def Options.codec : Codec Options :=
  .record "ImportOptions"
    (.required "createRoutingNodes" .bool <| .required "autoLayout" .bool <|
      .optional "forceMode" Mode.naming.codec .done)
    (fun (ruleNodes, layout, mode, ()) => ⟨ruleNodes, layout, mode⟩)
    fun o => (o.ruleNodes, o.layout, o.mode, ())

/-! ## Results -/

/-- How much of a document has been taken over. -/
structure Summary where
  inbounds : Nat
  outbounds : Nat
  balancers : Nat
  rules : Nat
  warnings : List Warning
deriving DecidableEq

/-- What a document has become. -/
structure Outcome where
  nodes : List Node
  edges : List Edge
  mode : Mode
  summary : Summary
deriving DecidableEq

/-- A summary as a value. -/
def Summary.toJson (s : Summary) : Json :=
  .object [("inbounds", .nat s.inbounds), ("outbounds", .nat s.outbounds),
    ("balancers", .nat s.balancers), ("rules", .nat s.rules),
    ("warnings", .list (s.warnings.map fun w => .text w.message))]

/-- An outcome as a value. -/
def Outcome.toJson (o : Outcome) : Json :=
  .object [("nodes", (Codec.list Node.codec).write o.nodes),
    ("edges", (Codec.list Edge.codec).write o.edges),
    ("mode", Mode.naming.codec.write o.mode), ("summary", o.summary.toJson)]

/-! ## Taking over -/

/-- The draft of a document. -/
def draft (o : Options) (doc : Json) : Draft :=
  let routing := (doc.get? "routing").getD .null
  Draft.empty
    |> Draft.addAll Document.Inbound.codec .inbounds (fun _ => Draft.addInbound) 0
      (itemsOf "inbounds" doc)
    |> Draft.addAll Document.Outbound.codec .outbounds (fun _ => Draft.addOutbound) 0
      (itemsOf "outbounds" doc)
    |> Draft.addAll Document.Balancer.codec .balancers (fun _ => Draft.addBalancer) 0
      (itemsOf "balancers" routing)
    |> Draft.addAll Document.Rule.codec .rules (Draft.addRule o.ruleNodes) 0
      (itemsOf "rules" routing)

/-- How much a draft holds. -/
def Draft.summary (d : Draft) : Summary where
  inbounds := d.inbounds
  outbounds := d.outbounds
  balancers := d.balancers
  rules := d.rules
  warnings := d.warnings

/-- A draft as it is handed over. -/
def Draft.outcome (d : Draft) (o : Options) : Outcome where
  nodes := if o.layout then Topology.layout d.nodes else d.nodes
  edges := d.edges
  mode := o.mode.getD (Topology.modeOf d.nodes)
  summary := d.summary

/-- The object that a text holds. -/
def objectOf (text : String) : Except Failure Json := do
  let doc ← (Codec.anything.readText text).mapError .configuration
  match doc with
  | .object _ => return doc
  | _ => .error .notAnObject

/-- Take over a document. -/
def config (text : String) (o : Options) : Except Failure Outcome := do
  let doc ← objectOf text
  if (doc.get? "inbounds").isNone && (doc.get? "outbounds").isNone then .error .noSections
  else return (draft o doc).outcome o

end Import
end ProxyPlan
