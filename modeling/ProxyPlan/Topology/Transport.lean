/-
ProxyPlan.Topology.Transport — how the bytes of a connection are carried and
protected.

A transport names a network and a protection and may hold a block of settings
for each of them, wanted or not. Which blocks count is decided when a
transport is compiled.
-/
import ProxyPlan.Json.Record
import ProxyPlan.Topology.Name

namespace ProxyPlan

open Json (Codec Fields)

/-- Settings of a WebSocket. -/
structure Ws where
  path : Option String
  host : Option String
deriving DecidableEq

/-- Settings of gRPC. -/
structure Grpc where
  serviceName : Option String
  multiMode : Option Bool
deriving DecidableEq

/-- Settings of XHTTP. -/
structure Xhttp where
  path : Option String
  host : Option String
  mode : Option String
deriving DecidableEq

/-- Settings of TLS. -/
structure Tls where
  serverName : Option String
  alpn : Option (List String)
  fingerprint : Option String
  allowInsecure : Option Bool
deriving DecidableEq

/-- Settings of Reality; the client's and the server's stand side by side. -/
structure Reality where
  publicKey : Option String
  shortId : Option String
  serverName : Option String
  fingerprint : Option String
  spiderX : Option String
  privateKey : Option String
  shortIds : Option (List String)
  serverNames : Option (List String)
  dest : Option String
deriving DecidableEq

/-- Reality without any setting. -/
def Reality.empty : Reality := ⟨none, none, none, none, none, none, none, none, none⟩

/-- How the bytes of a connection are carried and protected. -/
structure Transport where
  network : Network
  security : Security
  ws : Option Ws
  grpc : Option Grpc
  xhttp : Option Xhttp
  tls : Option Tls
  reality : Option Reality
deriving DecidableEq

/-- Raw bytes without protection, which needs no settings at all. -/
def Transport.isBare (t : Transport) : Bool :=
  t.network = .raw && t.security = .none

/-! ## Format -/

/-- The format of WebSocket settings. -/
def Ws.codec : Codec Ws :=
  .record "WsSettings" (.optional "path" .text <| .optional "host" .text .done)
    (fun (path, host, ()) => ⟨path, host⟩) fun s => (s.path, s.host, ())

/-- The format of gRPC settings. -/
def Grpc.codec : Codec Grpc :=
  .record "GrpcSettings" (.optional "serviceName" .text <| .optional "multiMode" .bool .done)
    (fun (serviceName, multiMode, ()) => ⟨serviceName, multiMode⟩)
    fun s => (s.serviceName, s.multiMode, ())

/-- The format of XHTTP settings. -/
def Xhttp.codec : Codec Xhttp :=
  .record "XhttpSettings"
    (.optional "path" .text <| .optional "host" .text <| .optional "mode" .text .done)
    (fun (path, host, mode, ()) => ⟨path, host, mode⟩) fun s => (s.path, s.host, s.mode, ())

/-- The format of TLS settings. -/
def Tls.codec : Codec Tls :=
  .record "TlsSettings"
    (.optional "serverName" .text <| .optional "alpn" (.list .text) <|
      .optional "fingerprint" .text <| .optional "allowInsecure" .bool .done)
    (fun (serverName, alpn, fingerprint, allowInsecure, ()) =>
      ⟨serverName, alpn, fingerprint, allowInsecure⟩)
    fun s => (s.serverName, s.alpn, s.fingerprint, s.allowInsecure, ())

/-- The format of Reality settings. -/
def Reality.codec : Codec Reality :=
  .record "RealitySettings"
    (.optional "publicKey" .text <| .optional "shortId" .text <| .optional "serverName" .text <|
      .optional "fingerprint" .text <| .optional "spiderX" .text <|
      .optional "privateKey" .text <| .optional "shortIds" (.list .text) <|
      .optional "serverNames" (.list .text) <| .optional "dest" .text .done)
    (fun (publicKey, shortId, serverName, fingerprint, spiderX, privateKey, shortIds, serverNames,
        dest, ()) =>
      ⟨publicKey, shortId, serverName, fingerprint, spiderX, privateKey, shortIds, serverNames,
        dest⟩)
    fun s => (s.publicKey, s.shortId, s.serverName, s.fingerprint, s.spiderX, s.privateKey,
      s.shortIds, s.serverNames, s.dest, ())

/-- The format of a transport. -/
def Transport.codec : Codec Transport :=
  .record "TransportSettings"
    (.defaulting "network" Network.naming.codec .raw <|
      .defaulting "security" Security.naming.codec .none <|
      .optional "wsSettings" Ws.codec <| .optional "grpcSettings" Grpc.codec <|
      .optional "xhttpSettings" Xhttp.codec <| .optional "tlsSettings" Tls.codec <|
      .optional "realitySettings" Reality.codec .done)
    (fun (network, security, ws, grpc, xhttp, tls, reality, ()) =>
      ⟨network, security, ws, grpc, xhttp, tls, reality⟩)
    fun t => (t.network, t.security, t.ws, t.grpc, t.xhttp, t.tls, t.reality, ())

end ProxyPlan
