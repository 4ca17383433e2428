/-
ProxyPlan.Topology.Edge — the edges between nodes.

An edge joins two identities, whether or not there are such nodes. Edges that
leave a node are taken in the order of their priorities; an edge without one
ranks as if it had a fixed late priority.
-/
import ProxyPlan.Topology.Transport

namespace ProxyPlan

open Json (Codec Fields)

/-- What may be said about an edge. -/
structure EdgeData where
  priority : Option UInt32
  label : Option String
  transport : Option Transport
deriving DecidableEq

/-- An edge from one node to another. -/
structure Edge where
  id : String
  source : String
  target : String
  style : EdgeStyle
  data : Option EdgeData
deriving DecidableEq

/-- The rank of an edge without a priority. -/
def defaultPriority : UInt32 := 999

namespace Edge

/-- The rank of an edge among those that leave the same node. -/
def priority (e : Edge) : UInt32 :=
  (e.data.bind EdgeData.priority).getD defaultPriority

/-- The transport that the edge itself carries. -/
def transport? (e : Edge) : Option Transport :=
  e.data.bind EdgeData.transport

end Edge

/-- The format of what is said about an edge. -/
def EdgeData.codec : Codec EdgeData :=
  .record "EdgeData"
    (.optional "priority" .word32 <| .optional "label" .text <|
      .optional "transport" Transport.codec .done)
    (fun (priority, label, transport, ()) => ⟨priority, label, transport⟩)
    fun d => (d.priority, d.label, d.transport, ())

/-- The format of an edge. -/
def Edge.codec : Codec Edge :=
  .record "GraphEdge"
    (.required "id" .text <| .required "source" .text <| .required "target" .text <|
      .defaulting "type" EdgeStyle.naming.codec .plain <| .optional "data" EdgeData.codec .done)
    (fun (id, source, target, style, data, ()) => ⟨id, source, target, style, data⟩)
    fun e => (e.id, e.source, e.target, e.style, e.data, ())

end ProxyPlan
