/-
ProxyPlan.Proofs.StreamForms — the settings that transports are compiled to, and what is kept of
a transport on the way there and back.

Compiling a transport forgets the blocks that do not belong to its network and its protection,
and a bare transport altogether. What is left of it is `Transport.pruned`, and taking settings
over is its inverse on what is left. In the other direction settings may name anything and hold
any block. Taking them over and compiling them again brings them into the form that
`Document.Stream.Normal` spells out. That is the form of all compiled settings, and settings in
this form stay as they are.
-/
import ProxyPlan.Proofs.Endpoints

namespace ProxyPlan

open Document.Stream (lift?)

/-! ## What is left of a transport -/

namespace Transport

/-- A transport without the blocks that do not belong to its network or its protection. -/
def pruned (t : Transport) : Transport :=
  { t with
    ws := t.ws.filter fun _ => t.network = .ws
    grpc := t.grpc.filter fun _ => t.network = .grpc
    xhttp := t.xhttp.filter fun _ => t.network = .xhttp
    tls := t.tls.filter fun _ => t.security = .tls
    reality := t.reality.filter fun _ => t.security = .reality }

theorem toTransport_toStream (t : Transport) : t.toStream.toTransport = t.pruned := by
  simp only [Document.Stream.toTransport, toStream, ofWire?_wireName, ofWire?_name,
    Option.getD_some, pruned]

theorem isBare_pruned (t : Transport) : t.pruned.isBare = t.isBare := rfl

theorem stream?_some {t : Transport} (h : t.isBare = false) :
    stream? (some t) = some t.toStream := by
  simp [stream?, h]

theorem lift?_stream? {t : Transport} (h : t.isBare = false) :
    lift? (stream? (some t)) = some t.pruned := by
  rw [stream?_some h, lift?, Option.map_some, toTransport_toStream]
  simp [isBare_pruned, h]

end Transport

/-! ## Compiled settings -/

namespace Document.Stream

/-- The form of compiled settings. Network and protection have names that compiling knows and do
not make a bare transport, and no block stands where it does not belong. -/
structure Normal (s : Stream) : Prop where
  network_named : s.network ∈ ["tcp", "ws", "grpc", "xhttp"]
  security_named : s.security ∈ ["none", "tls", "reality"]
  not_bare : s.network = "tcp" → s.security ≠ "none"
  ws_placed : s.network ≠ "ws" → s.ws = none
  grpc_placed : s.network ≠ "grpc" → s.grpc = none
  xhttp_placed : s.network ≠ "xhttp" → s.xhttp = none
  tls_placed : s.security ≠ "tls" → s.tls = none
  reality_placed : s.security ≠ "reality" → s.reality = none

end Document.Stream

namespace Transport

theorem wireName_mem (n : Network) : n.wireName ∈ ["tcp", "ws", "grpc", "xhttp"] := by
  cases n <;> decide

theorem exists_wireName {name : String} (h : name ∈ ["tcp", "ws", "grpc", "xhttp"]) :
    ∃ n : Network, n.wireName = name := by
  simp only [List.mem_cons, List.not_mem_nil, or_false] at h
  obtain rfl | rfl | rfl | rfl := h
  exacts [⟨.raw, rfl⟩, ⟨.ws, rfl⟩, ⟨.grpc, rfl⟩, ⟨.xhttp, rfl⟩]

theorem securityName_mem (p : Security) : p.name ∈ ["none", "tls", "reality"] := by
  cases p <;> decide

theorem exists_securityName {name : String} (h : name ∈ ["none", "tls", "reality"]) :
    ∃ p : Security, p.name = name := by
  simp only [List.mem_cons, List.not_mem_nil, or_false] at h
  obtain rfl | rfl | rfl := h
  exacts [⟨.none, rfl⟩, ⟨.tls, rfl⟩, ⟨.reality, rfl⟩]

theorem wireName_inj {m n : Network} : m.wireName = n.wireName ↔ m = n := by
  refine ⟨fun h => ?_, congrArg _⟩
  have hm := ofWire?_wireName m
  rw [h, ofWire?_wireName] at hm
  exact (Option.some.inj hm).symm

theorem securityName_inj {p q : Security} : p.name = q.name ↔ p = q := by
  refine ⟨fun h => ?_, congrArg _⟩
  have hp := ofWire?_name p
  rw [h, ofWire?_name] at hp
  exact (Option.some.inj hp).symm

/-- A block that belongs to one choice only is dropped under every other. -/
theorem filter_displaced {α : Type} {p : Prop} [Decidable p] (block : Option α) (h : ¬ p) :
    (block.filter fun _ => p) = none := by
  cases block <;> simp [h]

theorem filter_placed {α : Type} {p : Prop} [Decidable p] {block : Option α}
    (h : ¬ p → block = none) : (block.filter fun _ => p) = block := by
  by_cases hp : p
  · cases block <;> simp [hp]
  · rw [filter_displaced block hp, h hp]

/-- A transport is bare if its settings would say so. -/
theorem isBare_iff (t : Transport) :
    t.isBare = true ↔ t.network.wireName = "tcp" ∧ t.security.name = "none" := by
  obtain ⟨network, security, _⟩ := t
  cases network <;> cases security <;>
    simp [isBare, Network.wireName, Network.name, Security.name]

theorem normal_toStream {t : Transport} (h : t.isBare = false) : t.toStream.Normal where
  network_named := wireName_mem t.network
  security_named := securityName_mem t.security
  not_bare hnetwork hsecurity :=
    Bool.false_ne_true (h.symm.trans (t.isBare_iff.mpr ⟨hnetwork, hsecurity⟩))
  ws_placed hother := filter_displaced _ fun hn => hother (congrArg Network.wireName hn)
  grpc_placed hother := filter_displaced _ fun hn => hother (congrArg Network.wireName hn)
  xhttp_placed hother := filter_displaced _ fun hn => hother (congrArg Network.wireName hn)
  tls_placed hother := filter_displaced _ fun hp => hother (congrArg Security.name hp)
  reality_placed hother := filter_displaced _ fun hp => hother (congrArg Security.name hp)

end Transport

namespace Document.Stream

theorem Normal.wireName_toTransport {s : Stream} (h : s.Normal) :
    s.toTransport.network.wireName = s.network := by
  obtain ⟨n, hn⟩ := Transport.exists_wireName h.network_named
  rw [toTransport, ← hn, Transport.ofWire?_wireName, Option.getD_some]

theorem Normal.securityName_toTransport {s : Stream} (h : s.Normal) :
    s.toTransport.security.name = s.security := by
  obtain ⟨p, hp⟩ := Transport.exists_securityName h.security_named
  rw [toTransport, ← hp, Transport.ofWire?_name, Option.getD_some]

theorem Normal.isBare_toTransport {s : Stream} (h : s.Normal) :
    s.toTransport.isBare = false := by
  rw [← Bool.not_eq_true, Transport.isBare_iff, h.wireName_toTransport,
    h.securityName_toTransport]
  exact fun ⟨hnetwork, hsecurity⟩ => h.not_bare hnetwork hsecurity

/-- Settings in the form of compiled ones are compiled from what they are taken over as. -/
theorem Normal.toStream_toTransport {s : Stream} (h : s.Normal) :
    s.toTransport.toStream = s := by
  have hnetwork (n : Network) (hn : s.toTransport.network ≠ n) : s.network ≠ n.wireName := by
    rw [← h.wireName_toTransport]
    exact fun heq => hn (Transport.wireName_inj.mp heq)
  have hsecurity (p : Security) (hp : s.toTransport.security ≠ p) : s.security ≠ p.name := by
    rw [← h.securityName_toTransport]
    exact fun heq => hp (Transport.securityName_inj.mp heq)
  have hws := Transport.filter_placed fun hn => h.ws_placed (hnetwork .ws hn)
  have hgrpc := Transport.filter_placed fun hn => h.grpc_placed (hnetwork .grpc hn)
  have hxhttp := Transport.filter_placed fun hn => h.xhttp_placed (hnetwork .xhttp hn)
  have htls := Transport.filter_placed fun hp => h.tls_placed (hsecurity .tls hp)
  have hreality := Transport.filter_placed fun hp => h.reality_placed (hsecurity .reality hp)
  calc s.toTransport.toStream
      = ⟨s.network, s.security, s.ws, s.grpc, s.xhttp, s.tls, s.reality⟩ := by
        rw [Transport.toStream, h.wireName_toTransport, h.securityName_toTransport]
        exact congr (congr (congr (congr (congrArg _ hws) hgrpc) hxhttp) htls) hreality
    _ = s := rfl

end Document.Stream

/-! ## There and back -/

/-- Settings taken over and compiled again. -/
def Document.Stream.normalised (s : Option Document.Stream) : Option Document.Stream :=
  Transport.stream? (lift? s)

namespace Transport

open Document.Stream (normalised)

/-- A bare transport has no settings, and all others have settings in the form of compiled
ones. -/
theorem normal_stream? (t : Option Transport) : ∀ x ∈ stream? t, x.Normal := by
  intro x hx
  obtain ⟨t', ht', rfl⟩ := Option.map_eq_some_iff.mp hx
  obtain ⟨-, hbare⟩ := Option.filter_eq_some_iff.mp ht'
  exact normal_toStream (by simpa using hbare)

theorem normalised_of_normal {s : Option Document.Stream} (h : ∀ x ∈ s, x.Normal) :
    normalised s = s := by
  cases s with
  | none => rfl
  | some x =>
    have hx : x.Normal := h x rfl
    have hlift : lift? (some x) = some x.toTransport := by
      simp [lift?, hx.isBare_toTransport]
    rw [normalised, hlift, stream?_some hx.isBare_toTransport, hx.toStream_toTransport]

/-- Compiling a transport and taking its settings over is a retraction. The settings are those of
what is left of the transport, whose other blocks are gone. Taking settings over and compiling
them is a projection onto the settings of transports, and these are the settings in the form that
`Normal` spells out. -/
theorem stream_retraction :
    (∀ t, stream? (lift? (stream? t)) = stream? t) ∧
      (∀ t : Transport, t.isBare = false → lift? (stream? (some t)) = some t.pruned) ∧
      (∀ s, normalised (normalised s) = normalised s) ∧
      (∀ s, normalised s = s ↔ ∃ t, s = stream? t) ∧
      ∀ s, normalised s = s ↔ ∀ x ∈ s, x.Normal := by
  have hcompiled (t : Option Transport) : normalised (stream? t) = stream? t :=
    normalised_of_normal (normal_stream? t)
  have hform (s : Option Document.Stream) (h : normalised s = s) : ∀ x ∈ s, x.Normal := by
    rw [← h]
    exact normal_stream? (lift? s)
  refine ⟨hcompiled, fun t => lift?_stream?, fun s => hcompiled (lift? s), fun s => ⟨?_, ?_⟩,
    fun s => ⟨hform s, normalised_of_normal⟩⟩
  · exact fun h => ⟨lift? s, h.symm⟩
  · rintro ⟨t, rfl⟩
    exact hcompiled t

/-- A WebSocket under TLS with a block for gRPC beside it, which is lost. -/
theorem stream_retraction_strayBlock :
    let kept : Transport :=
      ⟨.ws, .tls, some ⟨some "/ws", none⟩, none, none, some ⟨some "a.test", none, none, none⟩, none⟩
    let t : Transport := { kept with grpc := some ⟨some "api", none⟩ }
    t.isBare = false ∧ lift? (stream? (some t)) = some kept := by
  have hbare : Transport.isBare ⟨.ws, .tls, some ⟨some "/ws", none⟩, some ⟨some "api", none⟩, none,
      some ⟨some "a.test", none, none, none⟩, none⟩ = false := by decide
  exact ⟨hbare, stream_retraction.2.1 _ hbare⟩

/-- Settings under names that nobody knows are those of a bare transport, which has none. -/
example : normalised (some ⟨"quic", "xtls", some ⟨none, none⟩, none, none, none, none⟩) = none := by
  decide

end Transport
end ProxyPlan
