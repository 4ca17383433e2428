/-
ProxyPlan.Topology.Basic — a whole topology: nodes, edges and the servers that
nodes may be assigned to.

The parts refer to each other by identity only. Nothing is asked of these
references here, so a topology can be kept while it is being edited.
-/
import ProxyPlan.Topology.Edge
import ProxyPlan.Topology.Node

namespace ProxyPlan

open Json (Codec Fields)

/-- How to log in to a server. -/
structure Ssh where
  user : String
  port : UInt16
  keyPath : Option String
deriving DecidableEq

/-- A host that nodes may be assigned to. -/
structure Server where
  id : String
  name : String
  host : String
  ssh : Option Ssh
deriving DecidableEq

/-- Nodes, edges and servers. -/
structure Topology where
  nodes : List Node
  edges : List Edge
  servers : List Server
deriving DecidableEq

/-- The format of a login. -/
def Ssh.codec : Codec Ssh :=
  .record "SshInfo"
    (.defaulting "user" .text "" <| .defaulting "port" .word16 22 <|
      .optional "keyPath" .text .done)
    (fun (user, port, keyPath, ()) => ⟨user, port, keyPath⟩) fun s => (s.user, s.port, s.keyPath, ())

/-- The format of a server. -/
def Server.codec : Codec Server :=
  .record "Server"
    (.required "id" .text <| .defaulting "name" .text "" <| .defaulting "host" .text "" <|
      .optional "ssh" Ssh.codec .done)
    (fun (id, name, host, ssh, ()) => ⟨id, name, host, ssh⟩)
    fun s => (s.id, s.name, s.host, s.ssh, ())

/-- The format of a topology. -/
def Topology.codec : Codec Topology :=
  .record "Topology"
    (.defaulting "nodes" (.list Node.codec) [] <| .defaulting "edges" (.list Edge.codec) [] <|
      .defaulting "servers" (.list Server.codec) [] .done)
    (fun (nodes, edges, servers, ()) => ⟨nodes, edges, servers⟩)
    fun t => (t.nodes, t.edges, t.servers, ())

end ProxyPlan
