/-
ProxyPlan.Document.Stream — between the transport of a topology and the stream
settings of a document.

Compiling keeps only the blocks that belong to the network and the protection,
and writes nothing at all for a bare transport. Lifting takes settings as they
are, takes unknown names for raw and none, and drops a bare result; compiling
again what was lifted gives the same settings that were compiled before.
-/
import ProxyPlan.Document.Basic

namespace ProxyPlan

namespace Transport

/-- The stream settings of a transport that is not bare. -/
def toStream (t : Transport) : Document.Stream where
  network := t.network.wireName
  security := t.security.name
  ws := t.ws.filter fun _ => t.network = .ws
  grpc := t.grpc.filter fun _ => t.network = .grpc
  xhttp := t.xhttp.filter fun _ => t.network = .xhttp
  tls := t.tls.filter fun _ => t.security = .tls
  reality := t.reality.filter fun _ => t.security = .reality

/-- The stream settings of a transport; a bare one has none. -/
def stream? (t : Option Transport) : Option Document.Stream :=
  (t.filter fun t => !t.isBare).map toStream

/-- The transport of a connection: the first one an edge carries, else the
node's own. -/
def choose (edges : List Transport) (own : Option Transport) : Option Transport :=
  edges.head?.or own

end Transport

namespace Document.Stream

/-- The transport that settings describe, bare or not. -/
def toTransport (s : Stream) : Transport where
  network := (Network.ofWire? s.network).getD .raw
  security := (Security.ofWire? s.security).getD .none
  ws := s.ws
  grpc := s.grpc
  xhttp := s.xhttp
  tls := s.tls
  reality := s.reality

/-- The transport that settings describe, unless it is bare. -/
def lift? (s : Option Stream) : Option Transport :=
  (s.map toTransport).filter fun t => !t.isBare

end Document.Stream
end ProxyPlan
