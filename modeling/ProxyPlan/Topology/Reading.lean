/-
ProxyPlan.Topology.Reading — graphs out of texts.

A text that is no graph is refused with the first thing that is wrong with it
and, if one of its nodes does not read, with the identity of the first such
node.
-/
import ProxyPlan.Client.Graph
import ProxyPlan.Failure
import ProxyPlan.Topology.Basic

namespace ProxyPlan

/-- Read a topology. -/
def Topology.ofText (text : String) : Except Failure Topology :=
  (Topology.codec.readText text).mapError fun fault =>
    .topology fault (firstBadNode? Node.codec text)

/-- Read a client graph. -/
def Client.Graph.ofText (text : String) : Except Failure Client.Graph :=
  (Client.Graph.codec.readText text).mapError fun fault =>
    .clientGraph fault (firstBadNode? Client.Node.codec text)

end ProxyPlan
